import GovernedRecords.Text.Quoted
import GovernedRecords.Time.Instant

/-!
# Reading ISO 8601 dates and times

A text is a date, and after any one separator a time with an optional offset.  Dates come
with and without dashes, by month and day or by week and weekday; times come with and
without colons.  Digits are those of ASCII.

Where the date ends is decided by the shape of its beginning alone, before anything is
read.  Half of a surrogate pair may stand as the separator and nowhere else.  A text that
fits no shape is malformed; a text that fits one may still name a field outside its range,
and the first such field is reported, the offset before all others.
-/

set_option autoImplicit false

namespace GovernedRecords

/-- Why a text is not a date and time. -/
inductive IsoError where
  /-- The text fits no accepted shape. -/
  | malformed (text : Text)
  | year (number : Nat)
  | month
  | day
  | hour
  | minute
  | second
  /-- An offset, in microseconds, of a day or more. -/
  | offset (microseconds : Int)
  deriving DecidableEq

namespace IsoError

/-- The words for an error. -/
def message : IsoError → Text
  | .malformed text => Text.concat ["Invalid isoformat string: ", text.quoted]
  | .year number => Text.concat ["year ", Text.ofNat number, " is out of range"]
  | .month => "month must be in 1..12"
  | .day => "day is out of range for month"
  | .hour => "hour must be in 0..23"
  | .minute => "minute must be in 0..59"
  | .second => "second must be in 0..59"
  | .offset microseconds =>
    Text.concat ["offset must be a timedelta strictly between -timedelta(hours=24) and ",
      "timedelta(hours=24), not ", DateTime.durationText microseconds, "."]

end IsoError

namespace IsoText

/-- The number written by ASCII digits only, of which there is at least one. -/
def number? (digits : Text) : Option Nat :=
  if digits.isEmpty || !digits.all CodePoint.isDigit then none
  else some (Text.numeral (digits.map fun point => point.val - 48))

/-- Whether a text has a given code point at a place. -/
def hasAt (text : Text) (place : Nat) (point : CodePoint) : Bool := text[place]? = some point

/-- Whether a text has a digit at a place. -/
def digitAt (text : Text) (place : Nat) : Bool :=
  match text[place]? with
  | some point => point.isDigit
  | none => false

/-- Where the date ends, for a text of at least seven code points. -/
def dateLength? (text : Text) : Option Nat :=
  if text.length = 7 then some 7
  else if hasAt text 4 '-' then
    if hasAt text 5 'W' then
      if hasAt text 8 '-' then
        if text.length = 9 then none
        else if digitAt text 10 then some 8 else some 10
      else some 8
    else some 10
  else if hasAt text 4 'W' then
    let last := 7 + ((text.drop 7).takeWhile CodePoint.isDigit).length
    if last < 9 then some last else if last % 2 = 0 then some 7 else some 8
  else some 8

/-- The day a date text names, as a year, month and day.  The weeks of year 0 lie before
the first month of the calendar. -/
def readDate? (text : Text) : Option Calendar.Day := do
  let year ← number? (text.take 4)
  if (text.take 4).length ≠ 4 then none
  let dashed := hasAt text 4 '-'
  let rest := text.drop (if dashed then 5 else 4)
  if hasAt rest 0 'W' then
    let week ← if (rest.drop 1).length < 2 then none else number? ((rest.drop 1).take 2)
    let after := rest.drop 3
    let weekday ←
      if after.isEmpty then some 1
      else if dashed then
        if hasAt after 0 '-' && after.length = 2 then number? (after.drop 1) else none
      else if after.length = 1 then number? after else none
    if week < 1 || 53 < week || (week = 53 && !Calendar.hasWeek53 year) then none
    else if weekday < 1 || 7 < weekday then none
    else if year = 0 then some ⟨1, 0, 0⟩
    else some (Calendar.ofNumber
      (Calendar.firstMonday year + (((week - 1) * 7 + (weekday - 1) : Nat) : Int)).toNat)
  else
    let body ←
      if dashed then
        if rest.length = 5 && hasAt rest 2 '-' then some (rest.take 2 ++ rest.drop 3) else none
      else if rest.length = 4 then some rest else none
    let month ← number? (body.take 2)
    let day ← number? (body.drop 2)
    some ⟨year, month, day⟩

/-- Hours, minutes, seconds and microseconds. -/
structure Clock where
  hour : Nat
  minute : Nat
  second : Nat
  microsecond : Nat

/-- A fraction of a second in microseconds.  The first six places must be digits; further
digits are cut off, and what follows them is passed over only before an offset. -/
def readFraction? (beforeOffset : Bool) (text : Text) : Option Nat := do
  let shown ← number? (text.take 6)
  if beforeOffset || (text.drop 6).all CodePoint.isDigit then
    some (shown * Nat.pow 10 (6 - (text.take 6).length))
  else none

/-- Two digits, and what follows them. -/
def readPair? : Text → Option (Nat × Text)
  | first :: second :: rest => (number? [first, second]).map fun number => (number, rest)
  | _ => none

/-- The numbers of a time of day, at most as many as the count, and the fraction after
them.  Whether colons stand between them is decided after the first.  Before an offset one
code point of ASCII may be left over. -/
def readNumbers? (beforeOffset : Bool) : Nat → Option Bool → Text → Option (List Nat × Nat)
  | 0, _, text => (readFraction? beforeOffset text).map fun fraction => ([], fraction)
  | count + 1, decided, text =>
    match readPair? text with
    | none => none
    | some (number, []) => some ([number], 0)
    | some (number, [last]) =>
      if beforeOffset && last.val < 128 then some ([number], 0) else none
    | some (number, mark :: next :: rest) =>
      let colons := decided.getD (mark = CodePoint.ofChar ':')
      if colons && mark = CodePoint.ofChar ':' then
        (readNumbers? beforeOffset count (some colons) (next :: rest)).map fun read =>
          (number :: read.1, read.2)
      else if mark = CodePoint.ofChar '.' || mark = CodePoint.ofChar ',' then
        (readFraction? beforeOffset (next :: rest)).map fun fraction => ([number], fraction)
      else if colons then none
      else
        (readNumbers? beforeOffset count (some colons) (mark :: next :: rest)).map fun read =>
          (number :: read.1, read.2)

/-- A time of day: hours, then minutes, then seconds, then a fraction. -/
def readClock? (beforeOffset : Bool) (text : Text) : Option Clock :=
  (readNumbers? beforeOffset 3 none text).map fun read =>
    ⟨read.1.getD 0 0, read.1.getD 1 0, read.1.getD 2 0, read.2⟩

/-- A plus sign, a minus sign, or a `Z` that ends the text, where an offset begins. -/
def beginsOffset (point : CodePoint) : Bool :=
  point = CodePoint.ofChar '+' || point = CodePoint.ofChar '-' || point = CodePoint.ofChar 'Z'

/-- An offset in microseconds, after its mark.  An offset of less than a second is none. -/
def readOffset? (negative : Bool) (text : Text) : Option Int := do
  let distance ← readClock? false text
  let second := (distance.hour * 60 + distance.minute) * 60 + distance.second
  if second = 0 then some 0
  else
    let magnitude : Int := (second * 1000000 + distance.microsecond : Nat)
    some (if negative then -magnitude else magnitude)

/-- A time of day with an offset in microseconds, if it has one. -/
def readTime? (text : Text) : Option (Clock × Option Int) :=
  let before := text.takeWhile fun point => !beginsOffset point
  match text.drop before.length with
  | [] => (readClock? false text).map fun clock => (clock, none)
  | mark :: after => do
    let clock ← readClock? true before
    if mark = CodePoint.ofChar 'Z' then
      if after.isEmpty then some (clock, some 0) else none
    else
      let offset ← readOffset? (mark = CodePoint.ofChar '-') after
      some (clock, some offset)

/-- The places at which a separator may stand. -/
def separatorPlaces : List Nat := [7, 8, 10]

/-- Whether half of a surrogate pair stands at a place. -/
def surrogateAt (text : Text) (place : Nat) : Bool :=
  match text[place]? with
  | some point => point.isSurrogate
  | none => false

/-- A text with a `T` for the half of a surrogate pair that separates its date from its
time; none when there is another half. -/
def plain? (text : Text) : Option Text :=
  let plain := match separatorPlaces.find? (surrogateAt text) with
    | some place => text.set place (CodePoint.ofChar 'T')
    | none => text
  if plain.any CodePoint.isSurrogate then none else some plain

/-- The parts of a date and time, read by shape alone. -/
def readParts? (text : Text) : Option (Calendar.Day × Clock × Option Int) :=
  if text.length < 7 then none
  else do
    let text ← plain? text
    let length ← dateLength? text
    let day ← readDate? (text.take length)
    if text.length ≤ length then some (day, ⟨0, 0, 0, 0⟩, none)
    else
      let (clock, offset) ← readTime? (text.drop (length + 1))
      some (day, clock, offset)

/-- The date and time of a text. -/
def read (text : Text) : Except IsoError DateTime :=
  match readParts? text with
  | none => throw (.malformed text)
  | some (day, clock, offset) => do
    if 86400000000 ≤ (offset.getD 0).natAbs then throw (.offset (offset.getD 0))
    if day.year < 1 || 9999 < day.year then throw (.year day.year)
    if day.month < 1 || 12 < day.month then throw .month
    match Date.ofDay? day.year day.month day.day with
    | none => throw .day
    | some date =>
      if 23 < clock.hour then throw .hour
      if 59 < clock.minute then throw .minute
      if 59 < clock.second then throw .second
      let elapsed := ((clock.hour * 60 + clock.minute) * 60 + clock.second) * 1000000
        + clock.microsecond
      match date.midnight.advance? elapsed with
      | some instant => return ⟨instant, offset⟩
      | none => throw .day

end IsoText

end GovernedRecords
