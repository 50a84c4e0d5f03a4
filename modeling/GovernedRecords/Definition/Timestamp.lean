import GovernedRecords.Text.Blank
import GovernedRecords.Time.IsoText
import GovernedRecords.Value.Basic

/-!
# Reading timestamps

A timestamp is a date, a date with a time, or a text in ISO 8601 with blanks around it; a
final `Z` in either case stands for no offset.  One without an offset is in universal
time.  A moment whose offset carries it out of the years 1 to 9999 is out of range, which
is a fault of another kind than a value that is no timestamp.
-/

set_option autoImplicit false

namespace GovernedRecords

/-- Why a value is not a timestamp. -/
inductive TimestampError where
  /-- A text of blanks. -/
  | empty
  /-- A value of another kind. -/
  | kind (name : Text)
  | iso (cause : IsoError)
  /-- A moment beyond the representable years. -/
  | outOfRange

/-- The words for an error. -/
def TimestampError.message : TimestampError → Text
  | .empty => "empty timestamp"
  | .kind name => Text.concat ["timestamp must be a string, not ", name]
  | .iso cause => cause.message
  | .outOfRange => "date value out of range"

/-- A final `Z` of either case becomes an offset of zero. -/
def Text.expandZulu (text : Text) : Text :=
  match text.getLast? with
  | some last =>
    if last = CodePoint.ofChar 'Z' || last = CodePoint.ofChar 'z' then
      Text.concat [text.dropLast, "+00:00"]
    else text
  | none => text

/-- The instant of a moment. -/
def DateTime.toInstant (moment : DateTime) : Except TimestampError Instant :=
  match moment.instant? with
  | some instant => .ok instant
  | none => .error .outOfRange

/-- The instant of a text. -/
def Text.toInstant (text : Text) : Except TimestampError Instant :=
  let trimmed := text.trim
  if trimmed.isEmpty then .error .empty
  else
    match IsoText.read trimmed.expandZulu with
    | .error cause => .error (.iso cause)
    | .ok moment => moment.toInstant

/-- The instant of a value. -/
def Value.toInstant : Value → Except TimestampError Instant
  | .datetime moment => moment.toInstant
  | .date day => .ok day.midnight
  | .text characters => characters.toInstant
  | other => .error (.kind other.kindName)

end GovernedRecords
