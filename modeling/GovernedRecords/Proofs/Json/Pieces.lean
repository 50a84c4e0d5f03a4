import GovernedRecords.Json.Pieces
import GovernedRecords.Proofs.Json.Sendable

/-!
# The pieces of a document make up its text

A document is put out in pieces, and what ends them early is a lone surrogate in a piece, which has
no bytes, or a value that JSON does not have (`Output.whole`).  Either is the error that the writer
finds in the whole document, since both go through it in the same order, and without an error the
pieces make up the text that it writes (`whole_put`).
-/

set_option autoImplicit false

namespace GovernedRecords

namespace Json

variable {level : Nat}

namespace Output

/-- The text of all pieces, or what ends them first: a lone surrogate in one of them, or else the
error after them. -/
def whole (output : Output) : Except WriteError Text :=
  if output.pieces.flatten.any CodePoint.isSurrogate then .error .surrogate
  else
    match output.error with
    | none => .ok output.pieces.flatten
    | some error => .error error

theorem whole_piece {text : Text} (plain : text.IsPlain) : (piece text).whole = .ok text := by
  have plain := Text.any_isSurrogate_eq_false.mpr plain
  simp [whole, piece, plain]

theorem whole_ofExcept {written : Except WriteError Text}
    (plain : ∀ text, written = .ok text → text.IsPlain) : (ofExcept written).whole = written := by
  cases written with
  | ok text => exact whole_piece (plain text rfl)
  | error error => rfl

/-- What ends the first of two outputs ends both. -/
theorem whole_andThen (first second : Output) :
    (first.andThen second).whole = do
      let text ← first.whole
      let more ← second.whole
      return text ++ more := by
  obtain ⟨pieces, error⟩ := first
  obtain ⟨others, last⟩ := second
  cases error with
  | some error =>
      simp only [andThen, whole]
      by_cases lone : pieces.flatten.any CodePoint.isSurrogate = true
      · simp [lone, bind, Except.bind]
      · simp [lone, bind, Except.bind]
  | none =>
      simp only [andThen, whole, List.flatten_append, List.any_append, Bool.or_eq_true]
      by_cases lone : pieces.flatten.any CodePoint.isSurrogate = true
      · simp [lone, bind, Except.bind]
      · by_cases later : others.flatten.any CodePoint.isSurrogate = true
        · simp [lone, later, bind, Except.bind]
        · cases last <;> simp [lone, later, bind, Except.bind, pure, Except.pure]

end Output

/-! ## Items and entries -/

/-- Written items, each after what stands before it. -/
def runOn (style : Style) (level : Nat) : Bool → List Text → Text
  | _, [] => []
  | isFirst, text :: rest =>
    itemStart style level isFirst ++ (text ++ runOn style level false rest)

theorem runOn_false (style : Style) (level : Nat) (texts : List Text) :
    ∀ first : Text, first ++ runOn style level false texts =
      Text.join (Text.concat [style.itemEnd, lineBreak style level]) (first :: texts) := by
  induction texts with
  | nil =>
      intro first
      simp [runOn, Text.join]
  | cons second rest ih =>
      intro first
      rw [runOn, ih second, Text.join, List.append_assoc]
      rfl

/-- Items between brackets, each after what stands before it. -/
theorem bracket_cons (style : Style) (level : Nat) (opening closing first : Text)
    (rest : List Text) : bracket style level opening closing (first :: rest) =
      opening ++ (runOn style (level + 1) true (first :: rest) ++
        Text.concat [lineBreak style level, closing]) := by
  rw [runOn, runOn_false]
  simp [bracket, Text.concat, itemStart]

theorem isPlain_lineBreak (style : Style) (level : Nat) : (lineBreak style level).IsPlain :=
  isPlain_of_isBlank (isBlank_lineBreak style level)

theorem isPlain_itemStart (level : Nat) (isFirst : Bool) :
    (itemStart Style.streamed level isFirst).IsPlain := by
  cases isFirst with
  | true => exact isPlain_lineBreak Style.streamed level
  | false =>
      refine Text.isPlain_concat ?_
      simp only [List.forall_mem_cons]
      exact ⟨Text.isPlain_ofString, isPlain_lineBreak _ _, List.forall_mem_nil _⟩

/-- The items of a container are between brackets what they are on their own. -/
theorem whole_enclosed {opening closing : String} {isEmpty : Bool} {items : Output}
    {written : Except WriteError (List Text)}
    (same : items.whole = written.map (runOn Style.indented (level + 1) true))
    (empty : ∀ texts, written = .ok texts → texts.isEmpty = isEmpty)
    (done : isEmpty = true → written = .ok []) :
    (Output.enclosed Style.streamed level opening closing isEmpty items).whole =
      written.map (bracket Style.indented level opening closing) := by
  have plain := @Text.isPlain_ofString
  cases isEmpty with
  | true =>
      -- There is one piece, and no item is put out.
      rw [done rfl]
      refine Output.whole_piece (Text.isPlain_concat ?_)
      simp only [List.forall_mem_cons]
      exact ⟨plain, plain, List.forall_mem_nil _⟩
  | false =>
      have last : (Text.concat [lineBreak Style.streamed level, (closing : Text)]).IsPlain := by
        refine Text.isPlain_concat ?_
        simp only [List.forall_mem_cons]
        exact ⟨isPlain_lineBreak _ _, plain, List.forall_mem_nil _⟩
      simp only [Output.enclosed, Bool.false_eq_true, if_false, Output.whole_andThen,
        Output.whole_piece plain, Output.whole_piece last, same]
      cases written with
      | error error => rfl
      | ok texts =>
          cases texts with
          | nil => cases empty [] rfl
          | cons first rest =>
              simp only [Except.map, bind, Except.bind, pure, Except.pure, bracket_cons]
              rfl

/-- A lone surrogate stands for itself in a string. -/
theorem writePoint_of_isSurrogate {point : CodePoint} (lone : point.isSurrogate = true) :
    writePoint false point = [point] := by
  have other : ∀ character, point ≠ CodePoint.ofChar character := by
    rintro character rfl
    rw [CodePoint.isSurrogate_ofChar] at lone
    cases lone
  have large : 0xD800 ≤ point.val := by
    simp only [CodePoint.isSurrogate, Bool.and_eq_true, decide_eq_true_eq] at lone
    exact lone.1
  have backspace : point.val ≠ 8 := by omega
  have formFeed : point.val ≠ 12 := by omega
  have control : ¬ point.val < 32 := by omega
  simp only [writePoint, other, backspace, formFeed, control, if_false, Bool.not_false,
    Bool.true_or, if_true]

/-- A string is put out like any other, and has bytes when the writer takes it. -/
theorem whole_ofExcept_writeText (text : Text) :
    (Output.ofExcept (writeText Style.streamed text)).whole = writeText Style.indented text := by
  have put : writeText Style.streamed text = .ok (writeString false text) := rfl
  have written : writeText Style.indented text =
      if text.any CodePoint.isSurrogate then .error .surrogate
      else .ok (writeString false text) := by
    simp only [writeText, Style.indented, Bool.false_or]
    cases text.any CodePoint.isSurrogate <;> rfl
  rw [put, written]
  split
  · next lone =>
      obtain ⟨point, member, surrogate⟩ := List.any_eq_true.mp lone
      have kept : (writeString false text).any CodePoint.isSurrogate = true := by
        refine List.any_eq_true.mpr ⟨point, ?_, surrogate⟩
        refine List.mem_cons_of_mem _ (List.mem_append_left _ ?_)
        refine List.mem_flatMap.mpr ⟨point, member, ?_⟩
        rw [writePoint_of_isSurrogate surrogate]
        exact List.mem_singleton_self point
      simp [Output.ofExcept, Output.piece, Output.whole, kept]
  · next whole =>
      exact Output.whole_piece (isPlain_writeString
        (Text.any_isSurrogate_eq_false.mp (Bool.eq_false_iff.mpr whole)))

/-- So is a key. -/
theorem whole_ofExcept_key (key : Value) :
    (Output.ofExcept (keyText Style.streamed key >>= writeText Style.streamed)).whole =
      keyText Style.indented key >>= writeText Style.indented := by
  have same : keyText Style.streamed key = keyText Style.indented key := rfl
  rw [same]
  cases keyText Style.indented key with
  | error error => rfl
  | ok name => exact whole_ofExcept_writeText name

theorem isPlain_writeDouble (number : Double) : (writeDouble number).IsPlain := by
  cases number with
  | nan => exact Text.isPlain_ofString
  | infinity negative => cases negative <;> exact Text.isPlain_ofString
  | finite negative significand exponent =>
      exact Double.isPlain_toText (.finite negative significand exponent)

theorem isEmpty_of_writeItems {items : List Value} :
    ∀ texts, writeItems Style.indented level items = .ok texts → texts.isEmpty = items.isEmpty := by
  intro texts written
  cases items with
  | nil =>
      cases written
      rfl
  | cons item rest =>
      simp only [writeItems, bind, Except.bind, pure, Except.pure] at written
      grind

theorem isEmpty_of_writeEntries {entries : List (Value × Value)} :
    ∀ texts, writeEntries Style.indented level entries = .ok texts →
      texts.isEmpty = entries.isEmpty := by
  intro texts written
  cases entries with
  | nil =>
      cases written
      rfl
  | cons entry rest =>
      obtain ⟨key, value⟩ := entry
      simp only [writeEntries, bind, Except.bind, pure, Except.pure] at written
      grind

/-! ## The document -/

mutual
/-- The pieces of a value make up what the writer writes for it, or end where it fails. -/
theorem whole_putAt (level : Nat) : ∀ value : Value,
    (putAt Style.streamed level value).whole = writeAt Style.indented level value
  | .list items => by
      refine whole_enclosed (whole_putItems (level + 1) true items) isEmpty_of_writeItems ?_
      intro none
      rw [List.isEmpty_iff.mp none]
      rfl
  | .tuple items => by
      refine whole_enclosed (whole_putItems (level + 1) true items) isEmpty_of_writeItems ?_
      intro none
      rw [List.isEmpty_iff.mp none]
      rfl
  | .object entries => by
      refine whole_enclosed (whole_putEntries (level + 1) true entries) isEmpty_of_writeEntries ?_
      intro none
      rw [List.isEmpty_iff.mp none]
      rfl
  | .text characters => whole_ofExcept_writeText characters
  | .null => rfl
  | .bool truth => by cases truth <;> rfl
  | .int integer => Output.whole_ofExcept fun text written => by
      rw [writeInteger_eq_ok written]
      exact Text.isPlain_ofInt integer
  | .float number => by
      have put : ∀ style : Style, style.nonFinite = true →
          writeAt style level (.float number) = .ok (writeDouble number) := by
        intro style all
        rw [writeAt, all, Bool.or_true, if_pos rfl]
      -- Both styles take numbers that are not finite.
      rw [putAt, put _ rfl, put _ rfl]
      · exact Output.whole_piece (isPlain_writeDouble number)
      all_goals simp
  | .set _ => rfl
  | .bytes _ => rfl
  | .date _ => rfl
  | .datetime _ => rfl

theorem whole_putItems (level : Nat) (isFirst : Bool) : ∀ items : List Value,
    (putItems Style.streamed level isFirst items).whole =
      (writeItems Style.indented level items).map (runOn Style.indented level isFirst)
  | [] => rfl
  | item :: rest => by
      rw [putItems, writeItems, Output.whole_andThen, Output.whole_andThen,
        Output.whole_piece (isPlain_itemStart level isFirst), whole_putAt level item,
        whole_putItems level false rest]
      cases writeAt Style.indented level item with
      | error error => rfl
      | ok text => cases writeItems Style.indented level rest <;> rfl

theorem whole_putEntries (level : Nat) (isFirst : Bool) : ∀ entries : List (Value × Value),
    (putEntries Style.streamed level isFirst entries).whole =
      (writeEntries Style.indented level entries).map (runOn Style.indented level isFirst)
  | [] => rfl
  | (key, value) :: rest => by
      have separator : (Style.streamed.keyEnd).IsPlain := Text.isPlain_ofString
      rw [putEntries, writeEntries, Output.whole_andThen, Output.whole_andThen,
        Output.whole_andThen, Output.whole_andThen,
        Output.whole_piece (isPlain_itemStart level isFirst), Output.whole_piece separator,
        whole_ofExcept_key key, whole_putAt level value, whole_putEntries level false rest]
      cases keyText Style.indented key with
      | error error => rfl
      | ok name =>
          simp only [bind, Except.bind, pure, Except.pure]
          cases writeText Style.indented name with
          | error error => rfl
          | ok quoted =>
              cases writeAt Style.indented level value with
              | error error => rfl
              | ok text =>
                  cases writeEntries Style.indented level rest with
                  | error error => rfl
                  | ok others =>
                      simp only [Except.map, runOn, Text.concat, List.flatten_cons,
                        List.flatten_nil, List.append_nil, List.append_assoc]
                      rfl
end

/-- **The pieces of a document make up the text that the writer writes**, or end where it fails. -/
theorem whole_put (document : Value) :
    (put Style.streamed document).whole = write Style.indented document :=
  whole_putAt 0 document

end Json

end GovernedRecords
