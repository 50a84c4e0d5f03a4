import GovernedRecords.Database.Basic
import GovernedRecords.Database.Column
import GovernedRecords.Value.Copy

/-!
# Drafts in the database

A row becomes a draft by reading its document and
writing its moments as stamps; the other columns stay as they are.
-/

set_option autoImplicit false

namespace GovernedRecords

namespace Database

variable [Host]

/-- The columns of a draft. -/
def draftColumns : Text :=
  "name, definition, created_at, updated_at, updated_by, published_hash, published_at"

/-- Writes the moment in a column as its stamp, if the row has the column. -/
def stampColumn (row : Entries) (name : Text) : Except Fault Entries :=
  match Entries.get? row name with
  | none => .ok row
  | some column => (Column.stamped column).map fun stamp => Entries.put name stamp row

/-- The draft of a row. -/
def storedDraft (row : Entries) : Except Fault Entries := do
  let row ← row.copy
  let definition ← Column.decode (Entries.get row "definition")
  (["created_at", "updated_at", "published_at"] : List Text).foldlM stampColumn
    (Entries.put "definition" definition row)

/-- The draft of a row in a list, with the stamp of its last change. -/
def storedSummary (row : Entries) : Except Fault Entries :=
  (Column.stamped (Entries.get row "updated_at")).map fun stamp =>
    Entries.put "updated_at" stamp row

/-- All drafts without their documents, the one changed last first. -/
def listDrafts : Task (List Entries) where
  Found := List Entries
  work := fetchAll (some "model_drafts.list")
    (Text.concat ["select name, updated_at, updated_by, published_hash from model_drafts ",
      "order by updated_at desc"]) .null
  read rows := rows.mapM storedSummary

/-- The draft under a name, if there is one. -/
def getDraft (name : Value) : Task (Option Entries) where
  Found := Option Entries
  work := fetchOne (some "model_drafts.get")
    (Text.concat ["select ", draftColumns, " from model_drafts where name=%s"]) (.list [name])
  read := ifFound storedDraft

/-- The draft of a row that has to be there. -/
def writtenDraft (row : Option Entries) : Except Fault Entries :=
  match row with
  | some row => storedDraft row
  | none => .error .missingOperation

/-- Sets the document of a draft, which is no longer published. -/
def putDraft (now : Instant) (name definition updatedBy : Value) : Task Entries where
  Found := Option Entries
  work := do
    let encoded ← .ofExcept (Column.encode definition)
    fetchOne (some "model_drafts.upsert")
      (Text.concat [
        "insert into model_drafts (name, definition, updated_at, updated_by, published_hash) ",
        "values (%s,%s,%s,%s,null) on conflict (name) do update ",
        "set definition = excluded.definition, updated_at = excluded.updated_at, ",
        "updated_by = excluded.updated_by, published_hash = null returning ", draftColumns])
      (.list [name, encoded, .text now.stamp, updatedBy])
  read := writtenDraft

/-- Marks a draft as published under a content hash, if there is one. -/
def publishDraft (now : Instant) (name hash : Value) : Task (Option Entries) where
  Found := Option Entries
  work := fetchOne (some "model_drafts.mark_published")
    (Text.concat ["update model_drafts set published_hash=%s, published_at=%s where name=%s ",
      "returning ", draftColumns])
    (.list [hash, .text now.stamp, name])
  read := ifFound storedDraft

/-- Removes a draft; whether there was one. -/
def deleteDraft (name : Value) : Task Bool where
  Found := Value
  work := run (some "model_drafts.delete") "delete from model_drafts where name=%s" (.list [name])
  read := wasTouched

end Database

end GovernedRecords
