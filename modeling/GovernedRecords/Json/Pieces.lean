import GovernedRecords.Json.Writer

/-!
# Writing JSON piece by piece

A document that goes to a file is put out in pieces, each handed on before the rest of the
document is looked at.  So a document that cannot be written has been put out in part by the
time that is found.

The pieces make up the text of the writer.  Strings with a lone surrogate are put out like
any other: that such a piece has no bytes is found by whoever turns it into bytes.
-/

set_option autoImplicit false

namespace GovernedRecords

namespace Json

/-- What has been put out of a document: its pieces in their order, and the error that ended
it, if one did. -/
structure Output where
  pieces : List Text
  error : Option WriteError

namespace Output

/-- Nothing, of an empty list. -/
def nothing : Output := ⟨[], none⟩

/-- One piece. -/
def piece (text : Text) : Output := ⟨[text], none⟩

/-- One piece, or the error there is instead. -/
def ofExcept : Except WriteError Text → Output
  | .ok text => piece text
  | .error error => ⟨[], some error⟩

/-- One output, and another after it unless the first ended with an error. -/
def andThen (first second : Output) : Output :=
  match first.error with
  | none => ⟨first.pieces ++ second.pieces, second.error⟩
  | some error => ⟨first.pieces, some error⟩

/-- The items of a container between brackets, of which the closing one has a line of its own
unless there are no items. -/
def enclosed (style : Style) (level : Nat) (opening closing : Text) (isEmpty : Bool)
    (items : Output) : Output :=
  if isEmpty then piece (Text.concat [opening, closing])
  else
    (piece opening).andThen
      (items.andThen (piece (Text.concat [lineBreak style level, closing])))

end Output

/-- What stands before an item: the end of the one before it, if it is not the first, and a
line break. -/
def itemStart (style : Style) (level : Nat) (isFirst : Bool) : Text :=
  if isFirst then lineBreak style level
  else Text.concat [style.itemEnd, lineBreak style level]

mutual
/-- Puts out a value at a level of indentation. -/
def putAt (style : Style) (level : Nat) : Value → Output
  | .list items =>
    .enclosed style level "[" "]" items.isEmpty (putItems style (level + 1) true items)
  | .tuple items =>
    .enclosed style level "[" "]" items.isEmpty (putItems style (level + 1) true items)
  | .object entries =>
    .enclosed style level "\x7b" "\x7d" entries.isEmpty
      (putEntries style (level + 1) true entries)
  | other => .ofExcept (writeAt style level other)

/-- Puts out the items of a list, each after what stands before it. -/
def putItems (style : Style) (level : Nat) : Bool → List Value → Output
  | _, [] => .nothing
  | isFirst, item :: rest =>
    (Output.piece (itemStart style level isFirst)).andThen
      ((putAt style level item).andThen (putItems style level false rest))

/-- Puts out the entries of an object: a key, what stands after it, and the value. -/
def putEntries (style : Style) (level : Nat) : Bool → List (Value × Value) → Output
  | _, [] => .nothing
  | isFirst, (key, value) :: rest =>
    (Output.piece (itemStart style level isFirst)).andThen
      ((Output.ofExcept (keyText style key >>= writeText style)).andThen
        ((Output.piece style.keyEnd).andThen
          ((putAt style level value).andThen (putEntries style level false rest))))
end

/-- Puts out the document of a value. -/
def put (style : Style) (value : Value) : Output := putAt style 0 value

/-- Indented like the document of a file, with lone surrogates as they are. -/
def Style.streamed : Style := { Style.indented with surrogates := true }

end Json

end GovernedRecords
