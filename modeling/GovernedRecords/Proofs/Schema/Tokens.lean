import GovernedRecords.Proofs.Number.Numerals
import GovernedRecords.Schema.Table
import Mathlib.Data.List.Forall2
import Mathlib.Data.List.TakeWhile

/-!
# The tokens of SQL

A statement is split into tokens from left to right (`tokens?`).  A name in double quotes ends at
the first double quote that is not doubled, a literal in single quotes at the first single quote
that is not doubled, and nothing else is special between quotes.  Other text is words, numbers and
single marks, with blanks between them.  Comments are no tokens: a text in which one begins is not
split at all.

A piece of text is read as some tokens whatever follows it, as long as what follows begins with a
blank or one of a few marks (`Reads`).  Quoted names and literals are such pieces whatever they hold
(`reads_quoteName`, `reads_quoteLiteral`), and so are words and numerals.  Pieces are put together
with blanks, marks and separators between them.
-/

set_option autoImplicit false

namespace GovernedRecords.Sql

/-- A token; names and literals are without their quotes. -/
inductive Token where
  | name (text : Text)
  | literal (text : Text)
  | word (text : Text)
  | number (text : Text)
  | mark (point : CodePoint)
  deriving DecidableEq

/-- A blank between tokens. -/
def isSpace (point : CodePoint) : Bool := point.val = 32 || (9 ≤ point.val && point.val ≤ 13)

/-- What a word begins with: a letter, an underscore, or any code point beyond ASCII. -/
def isWordStart (point : CodePoint) : Bool :=
  point.isUpperLetter || point.isLowerLetter || point = CodePoint.ofChar '_' || 128 ≤ point.val

/-- What a word goes on with. -/
def isWordPart (point : CodePoint) : Bool :=
  isWordStart point || point.isDigit || point = CodePoint.ofChar '$'

/-- The text before the first quote that is not doubled, with one quote for each two before it, and
what follows that quote. -/
def unquote? (quote : CodePoint) : Text → Option (Text × Text)
  | [] => none
  | first :: rest =>
    if first = quote then
      match rest with
      | [] => some ([], [])
      | second :: later =>
        if second = quote then
          (unquote? quote later).map fun parts => (quote :: parts.1, parts.2)
        else some ([], second :: later)
    else (unquote? quote rest).map fun parts => (first :: parts.1, parts.2)

/-- A point with the digits after it, if a text begins with one, and the rest. -/
def spanFraction : Text → Text × Text
  | [] => ([], [])
  | point :: rest =>
    if point = CodePoint.ofChar '.' then
      (point :: rest.takeWhile CodePoint.isDigit, rest.dropWhile CodePoint.isDigit)
    else ([], point :: rest)

/-- A sign, if a text begins with one, and the rest. -/
def spanSign : Text → Text × Text
  | [] => ([], [])
  | sign :: rest =>
    if sign = CodePoint.ofChar '+' || sign = CodePoint.ofChar '-' then ([sign], rest)
    else ([], sign :: rest)

/-- An exponent, if a text begins with one, and the rest. -/
def spanExponent : Text → Text × Text
  | [] => ([], [])
  | mark :: rest =>
    let unsigned := (spanSign rest).2
    let digits := unsigned.takeWhile CodePoint.isDigit
    if (mark = CodePoint.ofChar 'e' || mark = CodePoint.ofChar 'E') && !digits.isEmpty then
      (mark :: ((spanSign rest).1 ++ digits), unsigned.dropWhile CodePoint.isDigit)
    else ([], mark :: rest)

/-- The numeral that a text begins with, and the rest. -/
def spanNumber (text : Text) : Text × Text :=
  let fraction := spanFraction (text.dropWhile CodePoint.isDigit)
  let exponent := spanExponent fraction.2
  (text.takeWhile CodePoint.isDigit ++ (fraction.1 ++ exponent.1), exponent.2)

/-- A comment begins, up to the end of the line or up to its own end. -/
def isComment (first : CodePoint) (rest : Text) : Bool :=
  (first = CodePoint.ofChar '-' && rest.head? = some (CodePoint.ofChar '-')) ||
    (first = CodePoint.ofChar '/' && rest.head? = some (CodePoint.ofChar '*'))

/-- The first token of a text that begins with no blank, and the rest; none when quotes are not
closed or a comment begins. -/
def next? (first : CodePoint) (rest : Text) : Option (Token × Text) :=
  if first = CodePoint.ofChar '"' then
    (unquote? first rest).map fun parts => (.name parts.1, parts.2)
  else if first = CodePoint.ofChar '\'' then
    (unquote? first rest).map fun parts => (.literal parts.1, parts.2)
  else if isWordStart first then
    some (.word (first :: rest.takeWhile isWordPart), rest.dropWhile isWordPart)
  else if first.isDigit then
    some (.number (spanNumber (first :: rest)).1, (spanNumber (first :: rest)).2)
  else if isComment first rest then none
  else some (.mark first, rest)

/-! ## What is left is shorter -/

theorem length_of_unquote? {quote : CodePoint} {text : Text} {parts : Text × Text}
    (closed : unquote? quote text = some parts) : parts.2.length ≤ text.length := by
  fun_induction unquote? quote text generalizing parts with
  | case1 => cases closed
  | case2 =>
      cases closed
      exact Nat.zero_le _
  | case3 later ih =>
      obtain ⟨before, ended, rfl⟩ := Option.map_eq_some_iff.mp closed
      have shorter := ih ended
      simp only [List.length_cons]
      omega
  | case4 =>
      cases closed
      simp
  | case5 first rest other ih =>
      obtain ⟨before, ended, rfl⟩ := Option.map_eq_some_iff.mp closed
      have shorter := ih ended
      simp only [List.length_cons]
      omega

theorem length_spanFraction_le (text : Text) : (spanFraction text).2.length ≤ text.length := by
  cases text with
  | nil => exact Nat.le_refl _
  | cons point rest =>
      have fewer := List.length_dropWhile_le CodePoint.isDigit rest
      rw [spanFraction]
      split <;> simp only [List.length_cons] <;> omega

theorem length_spanSign_le (text : Text) : (spanSign text).2.length ≤ text.length := by
  cases text with
  | nil => exact Nat.le_refl _
  | cons sign rest =>
      rw [spanSign]
      split <;> simp only [List.length_cons] <;> omega

theorem length_spanExponent_le (text : Text) : (spanExponent text).2.length ≤ text.length := by
  cases text with
  | nil => exact Nat.le_refl _
  | cons mark rest =>
      have fewer := List.length_dropWhile_le CodePoint.isDigit (spanSign rest).2
      have unsigned := length_spanSign_le rest
      simp only [spanExponent]
      split <;> simp only [List.length_cons] <;> omega

/-- After the first token there is less text. -/
theorem length_of_next? {first : CodePoint} {rest : Text} {parts : Token × Text}
    (read : next? first rest = some parts) : parts.2.length ≤ rest.length := by
  rw [next?] at read
  split at read
  · obtain ⟨before, ended, rfl⟩ := Option.map_eq_some_iff.mp read
    exact length_of_unquote? ended
  split at read
  · obtain ⟨before, ended, rfl⟩ := Option.map_eq_some_iff.mp read
    exact length_of_unquote? ended
  split at read
  · cases read
    exact List.length_dropWhile_le isWordPart rest
  split at read
  · next digit =>
    cases read
    have dropped : (first :: rest).dropWhile CodePoint.isDigit =
        rest.dropWhile CodePoint.isDigit := List.dropWhile_cons_of_pos digit
    have fraction := length_spanFraction_le (rest.dropWhile CodePoint.isDigit)
    have exponent := length_spanExponent_le (spanFraction (rest.dropWhile CodePoint.isDigit)).2
    have whole := List.length_dropWhile_le CodePoint.isDigit rest
    simp only [spanNumber, dropped]
    omega
  split at read
  · cases read
  · cases read
    exact Nat.le_refl _

/-- The tokens of a text; none when quotes are not closed or there is a comment. -/
def tokens? : Text → Option (List Token)
  | [] => some []
  | first :: rest =>
    if isSpace first then tokens? rest
    else
      match _ : next? first rest with
      | none => none
      | some parts => (tokens? parts.2).map (parts.1 :: ·)
termination_by text => text.length
decreasing_by
  · exact Nat.lt_succ_self _
  · exact Nat.lt_succ_of_le (length_of_next? (by assumption))

theorem tokens?_nil : tokens? [] = some [] := by rw [tokens?]

theorem tokens?_of_isSpace {first : CodePoint} (blank : isSpace first = true) (rest : Text) :
    tokens? (first :: rest) = tokens? rest := by
  rw [tokens?, if_pos blank]

theorem tokens?_of_next? {first : CodePoint} {rest others : Text} {token : Token}
    (present : isSpace first = false) (read : next? first rest = some (token, others)) :
    tokens? (first :: rest) = (tokens? others).map (token :: ·) := by
  rw [tokens?, present, if_neg Bool.false_ne_true]
  split
  · next none =>
    rw [read] at none
    cases none
  · next parts same =>
    rw [read] at same
    cases same
    rfl

/-! ## Pieces -/

/-- What ends a word or a numeral, and no quote: a blank, a comma, a semicolon or a parenthesis. -/
def isBreak (point : CodePoint) : Bool :=
  isSpace point || point = CodePoint.ofChar ',' || point = CodePoint.ofChar ';' ||
    point = CodePoint.ofChar '(' || point = CodePoint.ofChar ')'

/-- A text begins with a break, or it is empty. -/
def Breaks (text : Text) : Prop := ∀ point ∈ text.head?, isBreak point = true

theorem breaks_cons {point : CodePoint} (breaks : isBreak point = true) (rest : Text) :
    Breaks (point :: rest) := by
  intro first same
  cases same
  exact breaks

/-- A piece is read as some tokens when a break follows. -/
def Reads (piece : Text) (tokens : List Token) : Prop :=
  ∀ rest, Breaks rest → tokens? (piece ++ rest) = (tokens? rest).map (tokens ++ ·)

theorem val_of_isBreak {point : CodePoint} (breaks : isBreak point = true) :
    point.val = 32 ∨ 9 ≤ point.val ∧ point.val ≤ 13 ∨ point.val = 44 ∨ point.val = 59 ∨
      point.val = 40 ∨ point.val = 41 := by
  have comma : (CodePoint.ofChar ',').val = 44 := rfl
  have semicolon : (CodePoint.ofChar ';').val = 59 := rfl
  have opening : (CodePoint.ofChar '(').val = 40 := rfl
  have closing : (CodePoint.ofChar ')').val = 41 := rfl
  simp only [isBreak, isSpace, Bool.or_eq_true, Bool.and_eq_true, decide_eq_true_eq, Fin.ext_iff,
    comma, semicolon, opening, closing] at breaks
  omega

theorem isSpace_of_lt {point : CodePoint} (visible : 32 < point.val) : isSpace point = false := by
  rw [← Bool.not_eq_true]
  simp only [isSpace, Bool.or_eq_true, Bool.and_eq_true, decide_eq_true_eq]
  omega

theorem isWordStart_iff {point : CodePoint} : isWordStart point = true ↔
    65 ≤ point.val ∧ point.val ≤ 90 ∨ 97 ≤ point.val ∧ point.val ≤ 122 ∨ point.val = 95 ∨
      128 ≤ point.val := by
  have underscore : (CodePoint.ofChar '_').val = 95 := rfl
  simp only [isWordStart, CodePoint.isUpperLetter, CodePoint.isLowerLetter, Bool.or_eq_true,
    Bool.and_eq_true, decide_eq_true_eq, Fin.ext_iff, underscore, or_assoc]

theorem isWordPart_of_isBreak {point : CodePoint} (breaks : isBreak point = true) :
    isWordPart point = false := by
  have dollar : (CodePoint.ofChar '$').val = 36 := rfl
  have value := val_of_isBreak breaks
  have start : isWordStart point = false := by
    rw [← Bool.not_eq_true, isWordStart_iff]
    omega
  have digit : point.isDigit = false := by
    rw [← Bool.not_eq_true, CodePoint.isDigit, Bool.and_eq_true, decide_eq_true_eq,
      decide_eq_true_eq]
    omega
  rw [isWordPart, start, digit, Bool.false_or, Bool.false_or, decide_eq_false_iff_not, Fin.ext_iff,
    dollar]
  omega

theorem ne_of_isBreak {point : CodePoint} (breaks : isBreak point = true) (character : Char)
    (other : isBreak (CodePoint.ofChar character) = false) :
    point ≠ CodePoint.ofChar character := by
  rintro rfl
  rw [breaks] at other
  cases other

theorem isDigit_of_isBreak {point : CodePoint} (breaks : isBreak point = true) :
    point.isDigit = false := by
  have part := isWordPart_of_isBreak breaks
  simp only [isWordPart, Bool.or_eq_false_iff] at part
  exact part.1.2

namespace Reads

variable {piece other : Text} {tokens more : List Token}

theorem nil : Reads [] [] := by
  intro rest _
  simp

theorem append (first : Reads piece tokens) (second : Reads other more) (breaks : Breaks other)
    (present : other ≠ []) : Reads (piece ++ other) (tokens ++ more) := by
  intro rest ends
  have starts : Breaks (other ++ rest) := by
    cases other with
    | nil => exact absurd rfl present
    | cons point others => exact breaks
  rw [List.append_assoc, first _ starts, second _ ends, Option.map_map]
  congr 1
  funext later
  simp

theorem space_cons {point : CodePoint} (blank : isSpace point = true) (read : Reads piece tokens) :
    Reads (point :: piece) tokens := by
  intro rest ends
  rw [List.cons_append, tokens?_of_isSpace blank]
  exact read rest ends

theorem mark_cons {point : CodePoint} (present : isSpace point = false)
    (mark : ∀ rest, next? point (piece ++ rest) = some (.mark point, piece ++ rest))
    (read : Reads piece tokens) :
    Reads (point :: piece) (.mark point :: tokens) := by
  intro rest ends
  rw [List.cons_append, tokens?_of_next? present (mark _), read rest ends, Option.map_map]
  rfl

/-- A piece at the end of a text. -/
theorem tokens? (read : Reads piece tokens) : Sql.tokens? piece = some tokens := by
  have whole := read [] (by simp [Breaks])
  rw [List.append_nil, tokens?_nil, Option.map_some, List.append_nil] at whole
  exact whole

end Reads

/-! ## Quotes -/

section Unquote

variable {quote : CodePoint} {rest : Text}

theorem unquote?_single (ends : rest.head? ≠ some quote) :
    unquote? quote (quote :: rest) = some ([], rest) := by
  cases rest with
  | nil => simp [unquote?]
  | cons second later =>
      have single : second ≠ quote := fun same => ends (congrArg some same)
      simp [unquote?, single]

theorem unquote?_double (later : Text) : unquote? quote (quote :: quote :: later) =
    (unquote? quote later).map fun parts => (quote :: parts.1, parts.2) := by
  rw [unquote?.eq_def]
  simp

theorem unquote?_of_ne {first : CodePoint} (other : first ≠ quote) (rest : Text) :
    unquote? quote (first :: rest) =
      (unquote? quote rest).map fun parts => (first :: parts.1, parts.2) := by
  rw [unquote?.eq_def]
  simp [other]

/-- **A text in which every quote is doubled is found again before a quote that stands alone.** -/
theorem unquote?_replace (ends : rest.head? ≠ some quote) (text : Text) :
    unquote? quote (text.replace quote [quote, quote] ++ quote :: rest) = some (text, rest) := by
  induction text with
  | nil => exact unquote?_single ends
  | cons point points ih =>
      rw [Text.replace] at ih
      rw [Text.replace, List.flatMap_cons, List.append_assoc]
      by_cases same : point = quote
      · subst same
        rw [if_pos rfl, List.cons_append, List.cons_append, List.nil_append, unquote?_double, ih]
        rfl
      · rw [if_neg same, List.singleton_append, unquote?_of_ne same, ih]
        rfl

end Unquote

theorem head?_ne_of_breaks {rest : Text} (ends : Breaks rest) (character : Char)
    (other : isBreak (CodePoint.ofChar character) = false) :
    rest.head? ≠ some (CodePoint.ofChar character) :=
  fun first => ne_of_isBreak (ends _ first) character other rfl

/-- **A quoted name is read as one name, whatever it holds.** -/
theorem reads_quoteName (name : Text) : Reads (Table.quoteName name) [.name name] := by
  intro rest ends
  have closed := unquote?_replace (head?_ne_of_breaks ends '"' rfl) name
  have opened : Table.quoteName name ++ rest = CodePoint.ofChar '"' ::
      (name.replace '"' ['"', '"'] ++ CodePoint.ofChar '"' :: rest) := by
    simp [Table.quoteName, Text.concat]
    rfl
  rw [opened, tokens?_of_next? rfl (by rw [next?, if_pos rfl, closed]; rfl)]
  rfl

/-- **A quoted text is read as one literal, whatever it holds.** -/
theorem reads_quoteLiteral (text : Text) : Reads (Table.quoteLiteral text) [.literal text] := by
  intro rest ends
  have closed := unquote?_replace (head?_ne_of_breaks ends '\'' rfl) text
  have opened : Table.quoteLiteral text ++ rest = CodePoint.ofChar '\'' ::
      (text.replace '\'' ['\'', '\''] ++ CodePoint.ofChar '\'' :: rest) := by
    simp [Table.quoteLiteral, Text.concat]
    rfl
  rw [opened, tokens?_of_next? rfl (by rw [next?, if_neg (by decide), if_pos rfl, closed]; rfl)]
  rfl

/-! ## Words and numerals -/

/-- A part that a test takes, and the rest behind it that begins with something else. -/
theorem span_append {test : CodePoint → Bool} {part rest : Text}
    (all : ∀ point ∈ part, test point = true) (stops : ∀ point ∈ rest.head?, test point = false) :
    (part ++ rest).takeWhile test = part ∧ (part ++ rest).dropWhile test = rest := by
  have none : rest.takeWhile test = [] ∧ rest.dropWhile test = rest := by
    cases rest with
    | nil => exact ⟨rfl, rfl⟩
    | cons point others =>
        have other := stops point rfl
        exact ⟨List.takeWhile_cons_of_neg (by simp [other]),
          List.dropWhile_cons_of_neg (by simp [other])⟩
  rw [List.takeWhile_append_of_pos all, List.dropWhile_append_of_pos all, none.1, none.2,
    List.append_nil]
  exact ⟨rfl, rfl⟩

/-- A word of SQL. -/
def isWord : Text → Bool
  | [] => false
  | first :: rest => isWordStart first && rest.all isWordPart

/-- A word is read as one. -/
theorem reads_word {word : Text} (proper : isWord word = true) : Reads word [.word word] := by
  intro rest ends
  cases word with
  | nil => cases proper
  | cons first others =>
      rw [isWord, Bool.and_eq_true, List.all_eq_true] at proper
      obtain ⟨start, parts⟩ := proper
      have value := isWordStart_iff.mp start
      have blank : isSpace first = false := isSpace_of_lt (by omega)
      have double : first ≠ CodePoint.ofChar '"' := by
        rintro rfl
        cases start
      have single : first ≠ CodePoint.ofChar '\'' := by
        rintro rfl
        cases start
      obtain ⟨taken, left⟩ := span_append parts fun point member =>
        isWordPart_of_isBreak (ends point member)
      have read : next? first (others ++ rest) = some (.word (first :: others), rest) := by
        rw [next?, if_neg double, if_neg single, if_pos start, taken, left]
      rw [List.cons_append, tokens?_of_next? blank read]
      rfl

section Numerals

open Layout (pointed ending)

/-- After the digits of a numeral an exponent follows, or a break. -/
theorem head?_ending_append (exponent : Option Int) {rest : Text} (ends : Breaks rest) :
    ∀ point ∈ (ending exponent ++ rest).head?,
      point = CodePoint.ofChar 'e' ∨ isBreak point = true := by
  cases exponent with
  | none => exact fun point first => .inr (ends point first)
  | some exponent =>
      intro point first
      rw [ending, Option.map_some, Option.getD_some, Numeral.exponentText_eq] at first
      exact .inl (Option.some.inj first).symm

theorem isDigit_of_ending (exponent : Option Int) {rest : Text} (ends : Breaks rest) :
    ∀ point ∈ (ending exponent ++ rest).head?, point.isDigit = false := by
  intro point first
  rcases head?_ending_append exponent ends point first with rfl | breaks
  · rfl
  · exact isDigit_of_isBreak breaks

theorem spanFraction_append {fraction : Text} (exponent : Option Int) {rest : Text}
    (digits : ∀ point ∈ fraction, point.isDigit = true) (ends : Breaks rest) :
    spanFraction (pointed fraction ++ (ending exponent ++ rest)) =
      (pointed fraction, ending exponent ++ rest) := by
  cases fraction with
  | nil =>
      -- What follows begins with an exponent or a break, and so with no point.
      have head := head?_ending_append exponent ends
      rw [pointed, List.isEmpty_nil, if_pos rfl, List.nil_append]
      generalize ending exponent ++ rest = others at head ⊢
      cases others with
      | nil => rfl
      | cons first more =>
          have other : first ≠ CodePoint.ofChar '.' := by
            rcases head first rfl with rfl | breaks
            · decide
            · exact ne_of_isBreak breaks '.' rfl
          rw [spanFraction, if_neg other]
  | cons first more =>
      obtain ⟨taken, left⟩ := span_append digits (isDigit_of_ending exponent ends)
      rw [pointed, List.isEmpty_cons, if_neg Bool.false_ne_true, List.cons_append, spanFraction,
        if_pos rfl, taken, left]

theorem spanExponent_append (exponent : Option Int) {rest : Text} (ends : Breaks rest) :
    spanExponent (ending exponent ++ rest) = (ending exponent, rest) := by
  cases exponent with
  | none =>
      cases rest with
      | nil => rfl
      | cons first more =>
          have breaks := ends first rfl
          have small := ne_of_isBreak breaks 'e' rfl
          have large := ne_of_isBreak breaks 'E' rfl
          simp [ending, spanExponent, small, large]
  | some exponent =>
      obtain ⟨first, more, written, -⟩ := Text.exists_ofNat exponent.natAbs
      have digits : ∀ point ∈ Text.padded 2 exponent.natAbs, point.isDigit = true :=
        Numeral.isDigit_of_mem_padded
      have stops : ∀ point ∈ rest.head?, point.isDigit = false :=
        fun point first => isDigit_of_isBreak (ends point first)
      obtain ⟨taken, left⟩ := span_append digits stops
      have some : (Text.padded 2 exponent.natAbs).isEmpty = false := by
        simp [Text.padded, written]
      have sign : ∀ more, spanSign
          (CodePoint.ofChar (if exponent < 0 then '-' else '+') :: more) =
            ([CodePoint.ofChar (if exponent < 0 then '-' else '+')], more) := by
        intro more
        split <;> rfl
      rw [ending, Option.map_some, Option.getD_some, Numeral.exponentText_eq, List.cons_append,
        List.cons_append, spanExponent, sign]
      simp [taken, left, some]

/-- The digits, the point and the exponent of a numeral are taken together. -/
theorem spanNumber_append {layout : Layout} (proper : layout.Proper) {rest : Text}
    (ends : Breaks rest) : spanNumber (layout.text ++ rest) = (layout.text, rest) := by
  obtain ⟨whole, fraction, exponent⟩ := layout
  obtain ⟨-, wholeDigits, fractionDigits⟩ := proper
  simp only at wholeDigits fractionDigits
  have stops : ∀ point ∈ (pointed fraction ++ (ending exponent ++ rest)).head?,
      point.isDigit = false := by
    cases fraction with
    | nil => exact isDigit_of_ending exponent ends
    | cons first more =>
        intro point first
        cases first
        rfl
  obtain ⟨taken, left⟩ := span_append wholeDigits stops
  rw [spanNumber, Layout.text, List.append_assoc, List.append_assoc]
  simp only [taken, left, spanFraction_append exponent fractionDigits ends,
    spanExponent_append exponent ends]

/-- A numeral begins with a digit. -/
theorem exists_text_eq {layout : Layout} (proper : layout.Proper) :
    ∃ first more, layout.text = first :: more ∧ first.isDigit = true := by
  obtain ⟨first, others, written⟩ := List.exists_cons_of_ne_nil proper.present
  refine ⟨first, _, by rw [Layout.text, written]; rfl, proper.whole first ?_⟩
  rw [written]
  exact List.mem_cons_self

/-- A numeral is read as one. -/
theorem reads_numeral {layout : Layout} (proper : layout.Proper) :
    Reads layout.text [.number layout.text] := by
  intro rest ends
  have taken := spanNumber_append proper ends
  obtain ⟨first, more, opened, digit⟩ := exists_text_eq proper
  have value : 48 ≤ first.val ∧ first.val ≤ 57 := by
    simpa [CodePoint.isDigit] using digit
  have blank : isSpace first = false := isSpace_of_lt (by omega)
  have start : isWordStart first = false := by
    rw [← Bool.not_eq_true, isWordStart_iff]
    omega
  have double : first ≠ CodePoint.ofChar '"' := by
    rintro rfl
    cases digit
  have single : first ≠ CodePoint.ofChar '\'' := by
    rintro rfl
    cases digit
  have read : next? first (more ++ rest) = some (.number layout.text, rest) := by
    rw [next?, if_neg double, if_neg single, start, if_neg Bool.false_ne_true, if_pos digit,
      ← List.cons_append, ← opened, taken]
  rw [opened, List.cons_append, tokens?_of_next? blank read, opened]
  rfl

/-- A minus sign before a numeral begins no comment. -/
theorem reads_negative {layout : Layout} (proper : layout.Proper) :
    Reads (CodePoint.ofChar '-' :: layout.text)
      [.mark (CodePoint.ofChar '-'), .number layout.text] := by
  refine .mark_cons rfl (fun rest => ?_) (reads_numeral proper)
  obtain ⟨first, more, opened, digit⟩ := exists_text_eq proper
  have other : first ≠ CodePoint.ofChar '-' := by
    rintro rfl
    cases digit
  have slash : CodePoint.ofChar '-' ≠ CodePoint.ofChar '/' := by decide
  have plain : isComment (CodePoint.ofChar '-') (first :: (more ++ rest)) = false := by
    simp [isComment, other, slash]
  rw [opened, List.cons_append, next?, plain]
  rfl

end Numerals

/-! ## Pieces with separators -/

/-- Tokens of several pieces, with a token between neighbours. -/
def separated (separator : List Token) : List (List Token) → List Token
  | [] => []
  | [only] => only
  | first :: second :: rest => first ++ (separator ++ separated separator (second :: rest))

theorem separated_nil : ∀ parts, separated [] parts = parts.flatten
  | [] => rfl
  | [only] => (List.append_nil only).symm
  | first :: second :: rest => congrArg (first ++ ·) (separated_nil (second :: rest))

/-- Pieces with a separator between neighbours are read one by one. -/
theorem Reads.join {separator : Text} {between : List Token}
    (opens : ∀ {piece : Text} {tokens : List Token}, Reads piece tokens →
      Reads (separator ++ piece) (between ++ tokens))
    (breaks : Breaks separator) (present : separator ≠ []) {pieces : List Text}
    {parts : List (List Token)} (read : List.Forall₂ Reads pieces parts) :
    Reads (Text.join separator pieces) (separated between parts) := by
  induction read with
  | nil => exact .nil
  | @cons piece tokens others more first rest ih =>
      cases rest with
      | nil => exact first
      | cons second rest =>
          rw [Text.join, List.append_assoc]
          refine first.append (opens ih) ?_ (by simp [present])
          cases separator with
          | nil => exact absurd rfl present
          | cons point points => exact breaks

/-- Pieces with a blank between neighbours. -/
theorem Reads.join_blank {pieces : List Text} {parts : List (List Token)}
    (read : List.Forall₂ Reads pieces parts) : Reads (Text.join " " pieces) parts.flatten := by
  rw [← separated_nil]
  exact Reads.join (fun next => next.space_cons rfl) (breaks_cons rfl _) (List.cons_ne_nil _ _) read

/-- Pieces on lines of their own with a comma between neighbours. -/
theorem Reads.join_comma {pieces : List Text} {parts : List (List Token)}
    (read : List.Forall₂ Reads pieces parts) :
    Reads (Text.join ",\n  " pieces) (separated [.mark (CodePoint.ofChar ',')] parts) := by
  refine Reads.join (fun next => ?_) (breaks_cons rfl _) (List.cons_ne_nil _ _) read
  exact .mark_cons rfl (fun _ => rfl) (.space_cons rfl (.space_cons rfl (.space_cons rfl next)))

end GovernedRecords.Sql
