import GovernedRecords.Text.Utf8

/-!
# The bytes of a text are read back

A text without surrogates has bytes, and one with a surrogate has none (`isSome_encode?_iff`).
The bytes of a text are read back as that text (`decode?_of_encode?`): each code point is put
together from its own bytes, and the bytes that follow are left alone.
-/

set_option autoImplicit false

namespace GovernedRecords

/-- A text without lone surrogates. -/
def Text.IsPlain (text : Text) : Prop := ∀ point ∈ text, point.isSurrogate = false

theorem Text.any_isSurrogate_eq_false {text : Text} :
    text.any CodePoint.isSurrogate = false ↔ text.IsPlain := by
  simp [Text.IsPlain]

theorem Text.IsPlain.append {first second : Text} (left : first.IsPlain) (right : second.IsPlain) :
    Text.IsPlain (first ++ second) := by
  intro point member
  rcases List.mem_append.mp member with inFirst | inSecond
  · exact left point inFirst
  · exact right point inSecond

namespace Utf8

@[simp] theorem val_octet (number : Nat) : (octet number).val = number % 256 := rfl

theorem isSurrogate_eq_false {point : CodePoint} :
    point.isSurrogate = false ↔ point.val < 0xD800 ∨ 0xDFFF < point.val := by
  simp only [CodePoint.isSurrogate, Bool.and_eq_false_iff, decide_eq_false_iff_not, Nat.not_le]

theorem isSome_encodePoint?_iff (point : CodePoint) :
    (encodePoint? point).isSome = true ↔ point.isSurrogate = false := by
  rw [encodePoint?]
  split
  · next one => simp [isSurrogate_eq_false.mpr (.inl (Nat.lt_trans one (by decide)))]
  · split
    · next two => simp [isSurrogate_eq_false.mpr (.inl (Nat.lt_trans two (by decide)))]
    · split
      · cases point.isSurrogate <;> simp
      · next four =>
          simp [isSurrogate_eq_false.mpr (.inr (Nat.lt_of_lt_of_le (by decide)
            (Nat.le_of_not_lt four)))]

/-- **A text has bytes exactly when it holds no surrogate.** -/
theorem isSome_encode?_iff (text : Text) : (encode? text).isSome = true ↔ text.IsPlain := by
  induction text with
  | nil => simp [encode?, Text.IsPlain]
  | cons point rest ih =>
      have first := isSome_encodePoint?_iff point
      simp only [Text.IsPlain, List.mem_cons, forall_eq_or_imp] at ih ⊢
      rw [← first, ← ih, encode?]
      cases encodePoint? point <;> cases encode? rest <;> simp

/-- The bytes of two texts, one after the other. -/
theorem encode?_append {first second : Text} {octets others : List Octet}
    (left : encode? first = some octets) (right : encode? second = some others) :
    encode? (first ++ second) = some (octets ++ others) := by
  induction first generalizing octets with
  | nil =>
      cases left
      exact right
  | cons point rest ih =>
      rw [encode?] at left
      split at left
      · next start more encoded restEncoded =>
          cases left
          rw [List.cons_append, encode?, encoded, ih restEncoded, List.append_assoc]
      · cases left

/-- A text of ASCII has as many bytes as code points. -/
theorem encode?_of_ascii {text : Text} (ascii : ∀ point ∈ text, point.val < 128) :
    ∃ octets, encode? text = some octets ∧ octets.length = text.length := by
  induction text with
  | nil => exact ⟨[], rfl, rfl⟩
  | cons point rest ih =>
      obtain ⟨small, others⟩ := List.forall_mem_cons.mp ascii
      obtain ⟨octets, encoded, long⟩ := ih others
      refine ⟨octet point.val :: octets, ?_, congrArg (· + 1) long⟩
      have alone : encodePoint? point = some [octet point.val] := if_pos small
      rw [encode?, alone, encoded]
      rfl

/-! ## Reading -/

theorem tail?_octet {number : Nat} (small : number < 64) :
    tail? (octet (0x80 + number)) = some number := by
  rw [tail?, if_pos (by rw [val_octet]; omega), val_octet]
  congr 1
  omega

theorem assemble?_val {lenient : Bool} {least : Nat} {point : CodePoint}
    (large : least ≤ point.val) (plain : point.isSurrogate = false) :
    assemble? lenient least point.val = some point := by
  rw [assemble?, if_neg (Nat.not_lt.mpr large), dif_pos point.isLt]
  simp [plain]

/-! The bytes of a code point are put together one case at a time.  The bits are bound by rewriting
alone, so that no check ever has to open `assemble?` at its large bounds. -/

section CodePoints

variable {lenient : Bool} {point : CodePoint}

theorem decodeWith?_one (small : point.val < 0x80) (rest : List Octet) :
    decodeWith? lenient (octet point.val :: rest) =
      (decodeWith? lenient rest).map (point :: ·) := by
  have low : (octet point.val).val = point.val := by
    rw [val_octet]
    omega
  have same : CodePoint.ofNat point.val = point := by
    rw [CodePoint.ofNat, dif_pos point.isLt]
  rw [decodeWith?.eq_def]
  simp only [low, if_pos small, same]

theorem decodeWith?_two (large : 0x80 ≤ point.val) (small : point.val < 0x800)
    (plain : point.isSurrogate = false) (rest : List Octet) :
    decodeWith? lenient
        (octet (0xC0 + point.val / 64) :: octet (0x80 + point.val % 64) :: rest) =
      (decodeWith? lenient rest).map (point :: ·) := by
  have first : (octet (0xC0 + point.val / 64)).val = 0xC0 + point.val / 64 := by
    rw [val_octet]
    omega
  have whole : (0xC0 + point.val / 64) % 32 * 64 + point.val % 64 = point.val := by omega
  rw [decodeWith?, first, if_neg (by omega), if_pos (by omega)]
  simp only [Option.bind_eq_bind]
  rw [tail?_octet (Nat.mod_lt _ (by decide)), Option.bind_some, whole,
    assemble?_val large plain, Option.bind_some]

theorem decodeWith?_three (large : 0x800 ≤ point.val) (small : point.val < 0x10000)
    (plain : point.isSurrogate = false) (rest : List Octet) :
    decodeWith? lenient (octet (0xE0 + point.val / 4096) ::
        octet (0x80 + point.val / 64 % 64) :: octet (0x80 + point.val % 64) :: rest) =
      (decodeWith? lenient rest).map (point :: ·) := by
  have first : (octet (0xE0 + point.val / 4096)).val = 0xE0 + point.val / 4096 := by
    rw [val_octet]
    omega
  have whole : (0xE0 + point.val / 4096) % 16 * 4096 + point.val / 64 % 64 * 64 +
      point.val % 64 = point.val := by omega
  rw [decodeWith?, first, if_neg (by omega), if_neg (by omega), if_pos (by omega)]
  simp only [Option.bind_eq_bind]
  rw [tail?_octet (Nat.mod_lt _ (by decide)), Option.bind_some,
    tail?_octet (Nat.mod_lt _ (by decide)), Option.bind_some, whole,
    assemble?_val large plain, Option.bind_some]

theorem decodeWith?_four (large : 0x10000 ≤ point.val) (plain : point.isSurrogate = false)
    (rest : List Octet) :
    decodeWith? lenient (octet (0xF0 + point.val / 262144) ::
        octet (0x80 + point.val / 4096 % 64) :: octet (0x80 + point.val / 64 % 64) ::
        octet (0x80 + point.val % 64) :: rest) =
      (decodeWith? lenient rest).map (point :: ·) := by
  have bound := point.isLt
  have first : (octet (0xF0 + point.val / 262144)).val = 0xF0 + point.val / 262144 := by
    rw [val_octet]
    omega
  have whole : (0xF0 + point.val / 262144) % 8 * 262144 + point.val / 4096 % 64 * 4096 +
      point.val / 64 % 64 * 64 + point.val % 64 = point.val := by omega
  rw [decodeWith?, first, if_neg (by omega), if_neg (by omega), if_neg (by omega),
    if_pos (by omega)]
  simp only [Option.bind_eq_bind]
  rw [tail?_octet (Nat.mod_lt _ (by decide)), Option.bind_some,
    tail?_octet (Nat.mod_lt _ (by decide)), Option.bind_some,
    tail?_octet (Nat.mod_lt _ (by decide)), Option.bind_some, whole,
    assemble?_val large plain, Option.bind_some]

/-- The bytes of a code point are read as that code point. -/
theorem decodeWith?_append {octets : List Octet}
    (encoded : encodePoint? point = some octets) (rest : List Octet) :
    decodeWith? lenient (octets ++ rest) = (decodeWith? lenient rest).map (point :: ·) := by
  have plain : point.isSurrogate = false :=
    (isSome_encodePoint?_iff point).mp (by rw [encoded]; rfl)
  rw [encodePoint?] at encoded
  split at encoded
  · next one =>
      cases encoded
      exact decodeWith?_one one rest
  · split at encoded
    · next large two =>
        cases encoded
        exact decodeWith?_two (Nat.le_of_not_lt large) two plain rest
    · split at encoded
      · next large three =>
          rw [if_neg (by simp [plain])] at encoded
          cases encoded
          exact decodeWith?_three (Nat.le_of_not_lt large) three plain rest
      · next large =>
          cases encoded
          exact decodeWith?_four (Nat.le_of_not_lt large) plain rest

end CodePoints

/-- **The bytes of a text are read back as that text.** -/
theorem decodeWith?_of_encode? {lenient : Bool} {text : Text} {octets : List Octet}
    (encoded : encode? text = some octets) : decodeWith? lenient octets = some text := by
  induction text generalizing octets with
  | nil =>
      cases encoded
      rfl
  | cons point rest ih =>
      rw [encode?] at encoded
      split at encoded
      · next these those point_bytes rest_bytes =>
          cases encoded
          rw [decodeWith?_append point_bytes, ih rest_bytes]
          rfl
      · cases encoded

end Utf8

end GovernedRecords
