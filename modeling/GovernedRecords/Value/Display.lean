import GovernedRecords.Host
import GovernedRecords.Number.Numeral
import GovernedRecords.Number.Shortest
import GovernedRecords.Value.Basic

/-!
# Values as text

A text stands for itself; every other value is shown as it would be inside a container,
where texts are quoted.  Dates alone have two forms: a calendar form on their own, and a
constructed form inside containers.

Not every value has a text: an integer with more digits than are written has none, nor does a
value with such an integer inside, nor one that is nested more deeply than the host shows
(`Value.toText`).
-/

set_option autoImplicit false

namespace GovernedRecords

namespace Value

/-- A date inside a container. -/
def inspectedDate (date : Date) : Text :=
  let day := Calendar.ofNumber date.number
  Text.concat ["datetime.date(",
    Text.join ", " [Text.ofNat day.year, Text.ofNat day.month, Text.ofNat day.day], ")"]

/-- An offset inside a container. -/
def inspectedOffset (offset : Int) : Text :=
  if offset = 0 then "datetime.timezone.utc"
  else Text.concat ["datetime.timezone(", DateTime.durationText offset, ")"]

/-- A date and time inside a container; zero seconds are left out at the end. -/
def inspectedMoment (moment : DateTime) : Text :=
  let day := moment.clock.day
  let second := moment.clock.secondOfDay
  let clock := [second / 3600, second / 60 % 60]
  let fine :=
    if moment.clock.fraction = 0 then if second % 60 = 0 then [] else [second % 60]
    else [second % 60, moment.clock.fraction]
  let numbers := ([day.year, day.month, day.day] ++ clock ++ fine).map Text.ofNat
  let zone := match moment.offset with
    | none => []
    | some offset => [Text.concat ["tzinfo=", inspectedOffset offset]]
  Text.concat ["datetime.datetime(", Text.join ", " (numbers ++ zone), ")"]

mutual
/-- A value inside a container. -/
def inspected : Value → Text
  | .null => "None"
  | .bool truth => if truth then "True" else "False"
  | .int integer => Text.ofInt integer
  | .float number => number.toText
  | .text characters => characters.quoted
  | .list items => Text.concat ["[", inspectedItems items, "]"]
  | .tuple items =>
    Text.concat ["(", inspectedItems items, if items.length = 1 then ",)" else ")"]
  | .set items =>
    if items.isEmpty then "set()" else Text.concat ["\x7b", inspectedItems items, "\x7d"]
  | .bytes octets => Text.quotedOctets octets
  | .date day => inspectedDate day
  | .datetime moment => inspectedMoment moment
  | .object entries => Text.concat ["\x7b", inspectedEntries entries, "\x7d"]

/-- The items of a container, with commas between them. -/
def inspectedItems : List Value → Text
  | [] => []
  | [only] => inspected only
  | first :: second :: rest =>
    Text.concat [inspected first, ", ", inspectedItems (second :: rest)]

/-- The entries of an object, with commas between them. -/
def inspectedEntries : List (Value × Value) → Text
  | [] => []
  | [(key, value)] => Text.concat [inspected key, ": ", inspected value]
  | (key, value) :: second :: rest =>
    Text.concat [inspected key, ": ", inspected value, ", ", inspectedEntries (second :: rest)]
end

/-- A value as text on its own, whatever that takes. -/
def display : Value → Text
  | .text characters => characters
  | .date day => day.toText
  | .datetime moment => moment.toText
  | other => other.inspected

end Value

/-! ## Values without a text -/

/-- Why a value has no text. -/
inductive TextError where
  /-- An integer has more digits than are written. -/
  | tooManyDigits
  /-- Lists and objects are nested too deeply. -/
  | tooDeep
  deriving DecidableEq

/-- The words for a value without a text. -/
def TextError.message : TextError → Text
  | .tooManyDigits => Text.concat
      ["Exceeds the limit (4300 digits) for integer string conversion; ",
      "use sys.set_int_max_str_digits() to increase the limit"]
  | .tooDeep => "the value is nested too deeply"

/-- Whether an integer has no more digits than are written. -/
def Numeral.isWritten (integer : Int) : Bool :=
  (Text.ofNat integer.natAbs).length ≤ greatestDigits

/-- The numeral of an integer. -/
def Numeral.ofInt (integer : Int) : Except TextError Text :=
  if isWritten integer then .ok (Text.ofInt integer) else .error .tooManyDigits

namespace Value

mutual
/-- What keeps a value from being shown, with room for so many lists and objects inside one
another. -/
def textError? (room : Nat) : Value → Option TextError
  | .int integer => if Numeral.isWritten integer then none else some .tooManyDigits
  | .list items => match room with
    | 0 => some .tooDeep
    | room + 1 => itemsTextError? room items
  | .tuple items => match room with
    | 0 => some .tooDeep
    | room + 1 => itemsTextError? room items
  | .set items => match room with
    | 0 => some .tooDeep
    | room + 1 => itemsTextError? room items
  | .object entries => match room with
    | 0 => some .tooDeep
    | room + 1 => entriesTextError? room entries
  | _ => none

/-- What keeps the first of some items that has no text from being shown. -/
def itemsTextError? (room : Nat) : List Value → Option TextError
  | [] => none
  | first :: rest => (textError? room first).or (itemsTextError? room rest)

/-- What keeps the first of some entries that has no text from being shown. -/
def entriesTextError? (room : Nat) : List (Value × Value) → Option TextError
  | [] => none
  | (key, value) :: rest =>
    ((textError? room key).or (textError? room value)).or (entriesTextError? room rest)
end

/-- The text of a value, if the host shows it. -/
def toText [Host] (value : Value) : Except TextError Text :=
  match value.textError? Host.shown with
  | some error => .error error
  | none => .ok value.display

/-- Whether two values have the same text, if both have one. -/
def sameText [Host] (first second : Value) : Except TextError Bool := do
  return (← first.toText) == (← second.toText)

end Value

end GovernedRecords
