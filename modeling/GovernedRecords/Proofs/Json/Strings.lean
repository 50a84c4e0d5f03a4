import GovernedRecords.Json.Reader
import GovernedRecords.Json.Writer

/-!
# Strings in JSON are read back

A string is written with escapes for the quote, the backslash and the controls; all other code
points stand for themselves.  Reading takes every escape back, so a written string is read as
the text it was written from, whatever follows its closing quote (`readString_flatMap`).
-/

set_option autoImplicit false

namespace GovernedRecords

/-! ## Hexadecimal digits -/

theorem CodePoint.hexDigit?_hexDigit (number : Nat) :
    (Text.hexDigit number).hexDigit? = some (number % 16) := by
  have small : number % 16 < 16 := Nat.mod_lt _ (by decide)
  have digits : ∀ value, value < 16 → (Text.hexDigit value).hexDigit? = some value := by decide
  have same : Text.hexDigit number = Text.hexDigit (number % 16) := by
    simp only [Text.hexDigit, Nat.mod_mod]
  rw [same]
  exact digits _ small

theorem Text.readHex?_hex {number : Nat} (small : number < 65536) :
    Text.readHex? (Text.hex 4 number) = some number := by
  simp only [Text.hex, List.nil_append, List.cons_append, Text.readHex?, List.mapM_cons,
    List.mapM_nil, CodePoint.hexDigit?_hexDigit, Option.pure_def, Option.bind_eq_bind,
    Option.bind_some, Option.map_some, List.foldl_cons, List.foldl_nil, Option.some.injEq]
  omega

namespace Json

/-! ## One code point -/

/-- A written code point is a short escape, a numbered one, or the code point itself. -/
theorem writePoint_cases (point : CodePoint) :
    (∃ letter, shortEscape? letter = some point ∧
      writePoint false point = [CodePoint.ofChar '\\', letter]) ∨
    (point.val < 32 ∧ writePoint false point = unitEscape point.val) ∨
    (point ≠ CodePoint.ofChar '"' ∧ point ≠ CodePoint.ofChar '\\' ∧ ¬ point.val < 32 ∧
      writePoint false point = [point]) := by
  rw [writePoint]
  by_cases quote : point = CodePoint.ofChar '"'
  · subst quote
    exact .inl ⟨CodePoint.ofChar '"', rfl, rfl⟩
  by_cases backslash : point = CodePoint.ofChar '\\'
  · subst backslash
    exact .inl ⟨CodePoint.ofChar '\\', rfl, rfl⟩
  rw [if_neg quote, if_neg backslash]
  split
  · next same => exact .inl ⟨CodePoint.ofChar 'n', same ▸ rfl, rfl⟩
  · split
    · next same => exact .inl ⟨CodePoint.ofChar 'r', same ▸ rfl, rfl⟩
    · split
      · next same => exact .inl ⟨CodePoint.ofChar 't', same ▸ rfl, rfl⟩
      · split
        · next same =>
            obtain rfl : point = 8 := Fin.ext same
            exact .inl ⟨CodePoint.ofChar 'b', rfl, rfl⟩
        · split
          · next same =>
              obtain rfl : point = 12 := Fin.ext same
              exact .inl ⟨CodePoint.ofChar 'f', rfl, rfl⟩
          · split
            · next control => exact .inr (.inl ⟨control, rfl⟩)
            · next printed => exact .inr (.inr ⟨quote, backslash, printed, rfl⟩)

theorem backslash_ne_quote : CodePoint.ofChar '\\' ≠ CodePoint.ofChar '"' := by decide

theorem readPieces_short {letter point : CodePoint} (short : shortEscape? letter = some point)
    (rest : Text) :
    readPieces (CodePoint.ofChar '\\' :: letter :: rest) =
      consPiece (.plain point) (readPieces rest) := by
  have none : shortEscape? (CodePoint.ofChar 'u') = none := by decide
  have other : letter ≠ CodePoint.ofChar 'u' := by
    rintro rfl
    rw [none] at short
    cases short
  rw [readPieces.eq_def]
  simp only [backslash_ne_quote, other, short, if_false, if_true]

theorem readPieces_unit {number : Nat} (small : number < 65536) (rest : Text) :
    readPieces (unitEscape number ++ rest) = consPiece (.unit number) (readPieces rest) := by
  have read := Text.readHex?_hex small
  simp only [Text.hex, List.nil_append, List.cons_append] at read
  simp only [unitEscape, Text.hex, List.nil_append, List.cons_append]
  rw [readPieces.eq_def]
  simp only [backslash_ne_quote, read, if_false, if_true]

theorem readPieces_plain {point : CodePoint} (quote : point ≠ CodePoint.ofChar '"')
    (backslash : point ≠ CodePoint.ofChar '\\') (printed : ¬ point.val < 32) (rest : Text) :
    readPieces (point :: rest) = consPiece (.plain point) (readPieces rest) := by
  rw [readPieces.eq_def]
  simp only [quote, backslash, printed, if_false]

/-- A control that is written by its number is no half of a pair. -/
theorem joinPieces_unit {point : CodePoint} (control : point.val < 32) (pieces : List Piece) :
    joinPieces (.unit point.val :: pieces) = point :: joinPieces pieces := by
  have low : Utf16.isHighHalf point.val = false := by
    simp only [Utf16.isHighHalf, Bool.and_eq_false_iff, decide_eq_false_iff_not]
    omega
  have same : CodePoint.ofNat point.val = point := by
    rw [CodePoint.ofNat, dif_pos point.isLt]
  cases pieces with
  | nil => simp only [joinPieces, same]
  | cons next others =>
      cases next with
      | plain other => simp only [joinPieces, same]
      | unit number =>
          simp only [joinPieces, low, same, Bool.false_and, Bool.false_eq_true, if_false]

/-! ## Whole strings -/

/-- A written text is read as pieces that are joined to the text again. -/
theorem readPieces_flatMap (text rest : Text) :
    ∃ pieces, readPieces (text.flatMap (writePoint false) ++ CodePoint.ofChar '"' :: rest) =
      some (pieces, rest) ∧ joinPieces pieces = text := by
  induction text with
  | nil =>
      refine ⟨[], ?_, rfl⟩
      rw [List.flatMap_nil, List.nil_append, readPieces.eq_def]
      simp only [if_true]
  | cons point others ih =>
      obtain ⟨pieces, read, joined⟩ := ih
      rw [List.flatMap_cons, List.append_assoc]
      rcases writePoint_cases point with ⟨letter, short, written⟩ | ⟨control, written⟩ |
        ⟨quote, backslash, printed, written⟩
      · refine ⟨.plain point :: pieces, ?_, by rw [joinPieces, joined]⟩
        rw [written, List.cons_append, List.singleton_append, readPieces_short short, read]
        rfl
      · refine ⟨.unit point.val :: pieces, ?_, by rw [joinPieces_unit control, joined]⟩
        rw [written, readPieces_unit (Nat.lt_trans control (by decide)), read]
        rfl
      · refine ⟨.plain point :: pieces, ?_, by rw [joinPieces, joined]⟩
        rw [written, List.singleton_append, readPieces_plain quote backslash printed, read]
        rfl

/-- **A written string is read as its text, and what follows it is left alone.** -/
theorem readString_flatMap (text rest : Text) :
    readString (text.flatMap (writePoint false) ++ CodePoint.ofChar '"' :: rest) =
      .ok (text, rest) := by
  obtain ⟨pieces, read, joined⟩ := readPieces_flatMap text rest
  rw [readString, read]
  simp only [joined]

end Json

end GovernedRecords
