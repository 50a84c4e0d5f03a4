import GovernedRecords.Issue
import GovernedRecords.Value.Display
import GovernedRecords.Value.Members

/-!
# Notices

A notice is a refusal made by a caller: its message, path and detail, and the problems it
carries, are values of any kind and are reported as they are.  What its kind fixes, the
code, the status and whose fault it is, is that of the refusal it stands for.
-/

set_option autoImplicit false

namespace GovernedRecords

/-- A refusal that says what a caller made it say; the problems are those it reports in
its own place. -/
structure Notice where
  refusal : Refusal
  message : Value
  path : Value
  detail : Value
  problems : Option (List Value)

namespace Notice

/-- The notice of a kind of refusal that reports itself. -/
def plain (kind : RefusalKind) (message path detail : Value) : Notice :=
  ⟨.about kind [] [], message, path, detail, none⟩

/-- The notice of a definition that failed the check before it is saved; problems that
count as absent are none, and then it reports itself. -/
def invalidDefinition (message problems : Value) : Except Fault Notice :=
  problems.membersOrNone.map fun members =>
    ⟨.invalidDefinition [] [], message, "definition",
      .ofFields [("problems", .list members)], if members.isEmpty then none else some members⟩

/-- The notice of a payload that failed validation. -/
def validationFailed (problems : Value) : Except Fault Notice :=
  problems.members.map fun members =>
    let refusal : Refusal := .validationFailed []
    ⟨refusal, .text refusal.message, "record", .ofFields [("errors", .list members)], some members⟩

/-- The object that reports a notice itself. -/
def issue (notice : Notice) : Value :=
  .ofFields [("code", .text notice.refusal.code), ("message", notice.message),
    ("path", notice.path), ("detail", notice.detail)]

/-- What a notice reports. -/
def issues (notice : Notice) : List Value := notice.problems.getD [notice.issue]

end Notice

end GovernedRecords
