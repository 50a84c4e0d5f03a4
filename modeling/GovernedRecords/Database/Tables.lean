import GovernedRecords.Database.Basic

/-!
# Tables

Three tables: definitions by name, records by model and id, and drafts by name.  They are
created in one transaction, each only if it is not there.
-/

set_option autoImplicit false

namespace GovernedRecords

namespace Database

/-- The table of definitions. -/
def definitionTable : Text :=
  Text.concat ["create table if not exists model_definitions ( ",
    "name text primary key, ",
    "document jsonb not null, ",
    "definition_hash text not null, ",
    "updated_at timestamptz not null default now() );"]

/-- The table of records. -/
def recordTable : Text :=
  Text.concat ["create table if not exists model_records ( ",
    "model text not null, ",
    "record_id text not null, ",
    "data jsonb not null, ",
    "created_at timestamptz not null default now(), ",
    "updated_at timestamptz not null default now(), ",
    "primary key (model, record_id) );"]

/-- The table of drafts. -/
def draftTable : Text :=
  Text.concat ["create table if not exists model_drafts ( ",
    "name text primary key, ",
    "definition jsonb not null, ",
    "created_at timestamptz not null default now(), ",
    "updated_at timestamptz not null default now(), ",
    "updated_by text null, ",
    "published_hash text null, ",
    "published_at timestamptz null );"]

/-- Creates the tables that are not there. -/
def ensureTables : Operation Database Unit :=
  transaction do
    let _ ← run (some "model_definitions.ensure") definitionTable .null
    let _ ← run (some "model_records.ensure") recordTable .null
    let _ ← run (some "model_drafts.ensure") draftTable .null
    return ()

end Database

end GovernedRecords
