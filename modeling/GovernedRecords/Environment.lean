import GovernedRecords.Fault
import GovernedRecords.Keyed
import GovernedRecords.Text.Blank

/-!
# Environments

An environment holds texts under names.  A file of settings adds to it: each of its lines
may assign a text to a name, and a name that is there already keeps what it has.  Neither
names nor texts hold a zero character, nor a lone surrogate that stands for no byte.
-/

set_option autoImplicit false

namespace GovernedRecords

/-- Texts under names. -/
abbrev Environment := Keyed Text

namespace Environment

/-- What a line of a settings file assigns.  Blank lines, comments after a hash, and lines
without an equals sign assign nothing, and neither does a line without a name.  Double
quotes and then single quotes around the text are dropped, however many there are. -/
def assignment? (line : Text) : Option (Text × Text) :=
  let line := line.trim
  if (Text.ofString "#").isPrefixOf line then none
  else
    match line.splitFirst? (CodePoint.ofChar '=') with
    | none => none
    | some (name, value) =>
      let name := name.trim
      if name.isEmpty then none
      else
        some (name, (value.trim.trimWhile (· = CodePoint.ofChar '"')).trimWhile
          (· = CodePoint.ofChar '\''))

/-- Whether a text holds a zero character. -/
def hasNull (text : Text) : Bool := text.any fun point => point.val = 0

/-- Whether a code point is a lone surrogate that stands for no byte; some stand for the
bytes that are no text. -/
def isByteless (point : CodePoint) : Bool :=
  point.isSurrogate && !(0xDC80 ≤ point.val && point.val ≤ 0xDCFF)

/-- Adds an assignment, unless the name is there. -/
def assign (environment : Environment) (assignment : Text × Text) :
    Except Fault Environment :=
  if Keyed.has environment assignment.1 then .ok environment
  else if (assignment.1 ++ assignment.2).any isByteless then .error .unencodable
  else if hasNull assignment.1 || hasNull assignment.2 then .error .embeddedNull
  else .ok (Keyed.put assignment.1 assignment.2 environment)

/-- The environment of some assignments. -/
def ofAssignments (assignments : List (Text × Text)) : Except Fault Environment :=
  assignments.foldlM assign []

/-- The environment after the lines of a settings file; without a file it stays. -/
def load (file : Option Text) (environment : Environment) : Except Fault Environment :=
  match file with
  | none => .ok environment
  | some text => (text.lines.filterMap assignment?).foldlM assign environment

end Environment

end GovernedRecords
