import GovernedRecords.Value.Equality

/-!
# Equality of values is symmetric

Sets and objects are compared from one side: every member or entry of the first must have an
equal one in the second, and the sizes agree.  This says the same from the other side when no
value equals two members of the first (`exists_of_apart`), so equality is symmetric on values in
which no member of a set and no key of an object occurs twice (`Value.equals_symm`).
-/

set_option autoImplicit false

namespace GovernedRecords

/-- When every item of one list is related to one of another that is as long, and no two to the
same, every item of the other is related to one of the first. -/
theorem exists_of_apart {α β : Type} (related : α → β → Prop) {items : List α} {others : List β}
    (lengths : items.length = others.length)
    (covered : ∀ item ∈ items, ∃ other ∈ others, related item other)
    (apart : items.Pairwise fun first second =>
      ∀ other, ¬(related first other ∧ related second other)) :
    ∀ other ∈ others, ∃ item ∈ items, related item other := by
  induction items generalizing others with
  | nil =>
      rw [List.length_eq_zero_iff.mp lengths.symm]
      exact List.forall_mem_nil _
  | cons first rest ih =>
      obtain ⟨different, apart⟩ := List.pairwise_cons.mp apart
      obtain ⟨partner, member, meets⟩ := covered first List.mem_cons_self
      obtain ⟨before, after, rfl⟩ := List.append_of_mem member
      -- The rest of the items is related to what is left without the partner of the first.
      have remaining : ∀ other ∈ before ++ after, ∃ item ∈ rest, related item other := by
        refine ih (by simp at lengths ⊢; omega) (fun item later => ?_) apart
        obtain ⟨other, member, meetsOther⟩ := covered item (List.mem_cons_of_mem _ later)
        refine ⟨other, ?_, meetsOther⟩
        have distinct : other ≠ partner := by
          rintro rfl
          exact different item later other ⟨meets, meetsOther⟩
        simpa [distinct] using member
      intro other member
      by_cases same : other = partner
      · exact ⟨first, List.mem_cons_self, same ▸ meets⟩
      · obtain ⟨item, later, meetsOther⟩ := remaining other (by simpa [same] using member)
        exact ⟨item, List.mem_cons_of_mem _ later, meetsOther⟩

namespace Value

/-- No value equals two of some values. -/
def Apart (values : List Value) : Prop :=
  values.Pairwise fun first second =>
    ∀ value : Value, ¬(value.equals first = true ∧ value.equals second = true)

mutual
/-- A value in which no member of a set and no key of an object occurs twice. -/
def IsProper : Value → Prop
  | .list items => AreProper items
  | .tuple items => AreProper items
  | .set items => Apart items ∧ AreProper items
  | .object entries => Apart (entries.map Prod.fst) ∧ EntriesProper entries
  | _ => True

/-- Values that are all proper. -/
def AreProper : List Value → Prop
  | [] => True
  | first :: rest => IsProper first ∧ AreProper rest

/-- Entries with keys and values that are all proper. -/
def EntriesProper : List (Value × Value) → Prop
  | [] => True
  | (key, value) :: rest => (IsProper key ∧ IsProper value) ∧ EntriesProper rest
end

theorem isProper_text (characters : Text) : (text characters).IsProper := trivial

theorem entriesProper_iff {entries : Entries} :
    EntriesProper entries ↔ ∀ entry ∈ entries, entry.1.IsProper ∧ entry.2.IsProper := by
  induction entries with
  | nil => simp [EntriesProper]
  | cons entry rest ih =>
      obtain ⟨key, value⟩ := entry
      rw [EntriesProper, ih, List.forall_mem_cons]

/-- Texts are apart when they are different. -/
theorem apart_texts (names : List Text) (distinct : names.Nodup) :
    Apart (names.map .text) := by
  refine List.pairwise_map.mpr (distinct.imp fun different value both => different ?_)
  have text : ∀ name : Text, value.equals (.text name) = true → value = .text name := by
    intro name same
    cases value <;>
      simp_all [equals, isNull, numeric?, isText]
  have same := (text _ both.1).symm.trans (text _ both.2)
  cases same
  rfl

/-! ## Equality inside containers -/

/-- Equality of items and entries, for which not a number equals itself. -/
def alike (first second : Value) : Bool := (first.isNan && second.isNan) || first.equals second

theorem alike_symm {first second : Value}
    (symmetric : first.equals second = true → second.equals first = true)
    (same : alike first second = true) : alike second first = true := by
  simp only [alike, Bool.or_eq_true, Bool.and_eq_true] at same ⊢
  exact same.imp And.symm symmetric

theorem subset_iff (items others : List Value) :
    subset items others = true ↔
      ∀ item ∈ items, ∃ other ∈ others, item.equals other = true := by
  induction items with
  | nil => simp [subset]
  | cons first rest ih => simp [subset, ih]

/-- The entry of an object that is found under a key. -/
def underKey? (key : Value) (entries : Entries) : Option (Value × Value) :=
  entries.find? fun entry => equals key entry.1

theorem equalEntries_iff (entries others : Entries) :
    equalEntries entries others = true ↔
      ∀ entry ∈ entries, ∃ other, underKey? entry.1 others = some other ∧
        alike entry.2 other.2 = true := by
  induction entries with
  | nil => simp [equalEntries]
  | cons entry rest ih =>
      obtain ⟨key, value⟩ := entry
      rw [equalEntries, Bool.and_eq_true, ih, List.forall_mem_cons]
      refine and_congr_left' ?_
      rw [underKey?]
      cases others.find? fun other => equals key other.1 with
      | none => simp
      | some other => simp [alike]

/-- With keys that are apart, an entry is found under every value that equals its key. -/
theorem underKey?_eq_some {entries : Entries} (apart : Apart (entries.map Prod.fst))
    {entry : Value × Value} (member : entry ∈ entries) {key : Value}
    (same : key.equals entry.1 = true) : underKey? key entries = some entry := by
  induction entries with
  | nil => cases member
  | cons first rest ih =>
      obtain ⟨different, apart⟩ := List.pairwise_cons.mp apart
      rw [underKey?, List.find?_cons]
      rcases List.mem_cons.mp member with rfl | later
      · rw [same]
      · have other : equals key first.1 = false := by
          rw [← Bool.not_eq_true]
          intro meets
          exact different entry.1 (List.mem_map_of_mem later) key ⟨meets, same⟩
        rw [other]
        exact ih apart later

/-! ## Symmetry -/

theorem numeric_equals_symm {first second : Numeric} (same : first.equals second = true) :
    second.equals first = true := by
  cases first <;> cases second <;> simp_all [Numeric.equals]
  next first second =>
    cases first <;> cases second <;> simp_all [Double.equals] <;> grind

theorem sameMoment_symm {first second : DateTime} (same : sameMoment first second = true) :
    sameMoment second first = true := by
  obtain ⟨clock, offset⟩ := first
  obtain ⟨other, another⟩ := second
  cases offset with
  | none =>
      cases another with
      | none => simpa [sameMoment, eq_comm] using same
      | some _ => cases same
  | some _ =>
      cases another with
      | none => cases same
      | some _ => simpa [sameMoment, eq_comm] using same

/-- Equality of numbers of any kinds is symmetric. -/
theorem equals_symm_of_numeric {value other : Value} {number : Numeric}
    (counts : value.numeric? = some number) (same : value.equals other = true) :
    other.equals value = true := by
  obtain ⟨another, read, equal⟩ : ∃ another, other.numeric? = some another ∧
      number.equals another = true := by
    cases value <;> cases counts <;> (rw [equals] at same; split at same)
    all_goals first | exact ⟨_, ‹_›, same⟩ | cases same
  have back := numeric_equals_symm equal
  cases other <;> cases read <;> rw [equals, counts] <;> exact back

/-- Sets of the same size with members that are symmetric and apart. -/
theorem set_equals_symm {items others : List Value} (apart : Apart items)
    (symmetric : ∀ item ∈ items, ∀ other, item.equals other = true → other.equals item = true)
    (same : (set items).equals (set others) = true) : (set others).equals (set items) = true := by
  rw [equals, Bool.and_eq_true, decide_eq_true_eq, subset_iff] at same ⊢
  refine ⟨same.1.symm, fun other member => ?_⟩
  obtain ⟨item, there, meets⟩ := exists_of_apart
    (fun item other => item.equals other = true) same.1 same.2
    (apart.imp_of_mem fun first second different other both =>
      different other ⟨symmetric _ first _ both.1, symmetric _ second _ both.2⟩) other member
  exact ⟨item, there, symmetric item there other meets⟩

/-- Objects of the same size with keys that are symmetric and apart, and symmetric values. -/
theorem object_equals_symm {entries others : Entries} (apart : Apart (entries.map Prod.fst))
    (keys : ∀ entry ∈ entries, ∀ other, entry.1.equals other = true → other.equals entry.1 = true)
    (values : ∀ entry ∈ entries, ∀ other, entry.2.equals other = true →
      other.equals entry.2 = true)
    (same : (object entries).equals (object others) = true) :
    (object others).equals (object entries) = true := by
  rw [equals, Bool.and_eq_true, decide_eq_true_eq, equalEntries_iff] at same ⊢
  obtain ⟨lengths, covered⟩ := same
  refine ⟨lengths.symm, fun other member => ?_⟩
  have met : ∀ entry ∈ entries, ∃ other ∈ others,
      entry.1.equals other.1 = true ∧ alike entry.2 other.2 = true := by
    intro entry member
    obtain ⟨other, found, like⟩ := covered entry member
    have meets := List.find?_some (l := others) found
    exact ⟨other, List.mem_of_find?_eq_some found, meets, like⟩
  obtain ⟨entry, there, meets, like⟩ := exists_of_apart _ lengths met
    ((List.pairwise_map.mp apart).imp_of_mem fun first second different other both =>
      different other.1 ⟨keys _ first _ both.1.1, keys _ second _ both.2.1⟩) other member
  exact ⟨entry, underKey?_eq_some apart there (keys entry there _ meets),
    alike_symm (values entry there _) like⟩

mutual
/-- **Equality is symmetric on proper values.** -/
theorem equals_symm : ∀ value : Value, value.IsProper → ∀ other,
    value.equals other = true → other.equals value = true
  | .null, _, other, same => by
      cases other <;> simp_all [equals, isNull]
  | .bool _, _, other, same => equals_symm_of_numeric rfl same
  | .int _, _, other, same => equals_symm_of_numeric rfl same
  | .float _, _, other, same => equals_symm_of_numeric rfl same
  | .text _, _, other, same => by
      cases other <;> simp_all [equals, isText]
  | .list items, proper, other, same => by
      cases other with
      | list others =>
          rw [equals] at same ⊢
          exact equalItems_symm items proper others same
      | _ => simp [equals] at same
  | .tuple items, proper, other, same => by
      cases other with
      | tuple others =>
          rw [equals] at same ⊢
          exact equalItems_symm items proper others same
      | _ => simp [equals] at same
  | .set items, proper, other, same => by
      cases other with
      | set others => exact set_equals_symm proper.1 (members_symm items proper.2) same
      | _ => simp [equals] at same
  | .object entries, proper, other, same => by
      cases other with
      | object others =>
          exact object_equals_symm proper.1 (fun entry member => (entries_symm entries proper.2
            entry member).1) (fun entry member => (entries_symm entries proper.2 entry member).2)
            same
      | _ => simp [equals] at same
  | .bytes _, _, other, same => by
      cases other <;> simp_all [equals]
  | .date _, _, other, same => by
      cases other <;> simp_all [equals]
  | .datetime _, _, other, same => by
      cases other with
      | datetime moment =>
          rw [equals] at same ⊢
          exact sameMoment_symm same
      | _ => simp [equals] at same

theorem equalItems_symm : ∀ items : List Value, AreProper items → ∀ others,
    equalItems items others = true → equalItems others items = true
  | [], _, [], same => same
  | [], _, _ :: _, same => by simp [equalItems] at same
  | _ :: _, _, [], same => by simp [equalItems] at same
  | first :: rest, proper, other :: others, same => by
      rw [equalItems, Bool.and_eq_true] at same ⊢
      exact ⟨alike_symm (equals_symm first proper.1 other) same.1,
        equalItems_symm rest proper.2 others same.2⟩

theorem members_symm : ∀ items : List Value, AreProper items → ∀ item ∈ items, ∀ other,
    item.equals other = true → other.equals item = true
  | [], _ => List.forall_mem_nil _
  | first :: rest, proper =>
      List.forall_mem_cons.mpr ⟨equals_symm first proper.1, members_symm rest proper.2⟩

theorem entries_symm : ∀ entries : List (Value × Value), EntriesProper entries →
    ∀ entry ∈ entries,
      (∀ other, entry.1.equals other = true → other.equals entry.1 = true) ∧
        ∀ other, entry.2.equals other = true → other.equals entry.2 = true
  | [], _ => List.forall_mem_nil _
  | (key, value) :: rest, proper =>
      List.forall_mem_cons.mpr ⟨⟨equals_symm key proper.1.1, equals_symm value proper.1.2⟩,
        entries_symm rest proper.2⟩
end

end Value

end GovernedRecords
