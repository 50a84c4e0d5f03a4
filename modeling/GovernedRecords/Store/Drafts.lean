import GovernedRecords.Keyed
import GovernedRecords.Operation
import GovernedRecords.Text.Order
import GovernedRecords.Value.Copy

/-!
# Drafts

A draft is a document that is not yet in force, under a model name.  It remembers who
changed it last and when, and the content hash under which it was published.  Changing a
draft keeps its stamp of creation and forgets that it was published.
-/

set_option autoImplicit false

namespace GovernedRecords

variable [Host]

/-- A document on its way to a definition. -/
structure Draft where
  name : Value
  definition : Value
  createdAt : Text
  updatedAt : Text
  updatedBy : Value
  publishedHash : Value
  publishedAt : Option Text

namespace Draft

/-- The object that shows a draft; the stamp of publication is there once it was published. -/
def toValue (draft : Draft) : Value :=
  .ofFields (List.flatten [
    [("name", draft.name), ("definition", draft.definition),
      ("created_at", .text draft.createdAt), ("updated_at", .text draft.updatedAt),
      ("updated_by", draft.updatedBy), ("published_hash", draft.publishedHash)],
    (draft.publishedAt.map fun stamp => (("published_at", .text stamp) : Text × Value)).toList])

/-- The object that shows a draft in a list, without its document. -/
def summary (draft : Draft) : Value :=
  .ofFields [("name", draft.name), ("updated_at", .text draft.updatedAt),
    ("updated_by", draft.updatedBy), ("published_hash", draft.publishedHash)]

/-- A draft after a change of its document. -/
def revise (now : Instant) (name definition updatedBy : Value) (existing : Option Draft) : Draft :=
  ⟨name, definition, (existing.map Draft.createdAt).getD now.stamp, now.stamp, updatedBy, .null,
    none⟩

/-- A draft after its publication under a content hash. -/
def published (now : Instant) (hash : Value) (draft : Draft) : Draft :=
  { draft with publishedHash := hash, publishedAt := some now.stamp }

end Draft

/-- Drafts in memory, by the texts that their names go by. -/
abbrev Drafts := Keyed Draft

namespace Drafts

/-- The draft under a name. -/
def get? (drafts : Drafts) (name : Text) : Option Draft := Keyed.get? drafts name

/-- All drafts, the one changed last first. -/
def list (drafts : Drafts) : List Draft :=
  arrange (fun first second => Text.le second.updatedAt first.updatedAt) (drafts.map (·.2))

/-- Sets the document of a draft. -/
def put (now : Instant) (name definition updatedBy : Value) (drafts : Drafts) : Draft × Drafts :=
  let draft := Draft.revise now name definition updatedBy (drafts.get? name.nameText)
  (draft, Keyed.put name.nameText draft drafts)

/-- Sets the document of a draft to the copy of a document. -/
def submit (now : Instant) (name definition updatedBy : Value) : Operation Drafts Draft :=
  .of fun drafts =>
    match definition.copy with
    | .error fault => (.error fault, drafts)
    | .ok definition =>
      let (draft, drafts) := put now name definition updatedBy drafts
      (.ok draft, drafts)

/-- Marks a draft as published, if there is one. -/
def publish (now : Instant) (name : Text) (hash : Value) (drafts : Drafts) :
    Option Draft × Drafts :=
  match drafts.get? name with
  | none => (none, drafts)
  | some draft =>
    let draft := draft.published now hash
    (some draft, Keyed.put name draft drafts)

/-- Removes a draft; whether there was one. -/
def delete (name : Text) (drafts : Drafts) : Bool × Drafts :=
  (Keyed.has drafts name, Keyed.erase name drafts)

end Drafts

end GovernedRecords
