import GovernedRecords.Json.Canonical
import GovernedRecords.Proofs.Json.RoundTrip
import GovernedRecords.Proofs.Json.Unambiguous
import GovernedRecords.Proofs.Text.Order

/-!
# Canonical texts

A document has a canonical text exactly when the host gets to the bottom of it and its integers have
numerals (`exists_canonicalText_iff`), and two documents have the same one exactly when they are the
same once their keys are in order (`canonicalText_eq_iff`).  Putting the keys of an object in order
changes nothing of what stands under them (`Canonical.get_sortEntries`), and neither how deep they
are nor which integers there are.

Putting the keys of a plain value in order leaves it plain, so its canonical text has bytes to be
hashed (`exists_contentHash`).
-/

set_option autoImplicit false

namespace GovernedRecords

/-- Entries are plain when every one of them is and no key occurs twice, in whatever order. -/
theorem Entries.arePlain_iff (entries : Entries) :
    Entries.ArePlain entries ↔
      (∀ entry ∈ entries, (∃ name, entry.1 = .text name ∧ name.IsPlain) ∧ entry.2.IsPlain) ∧
        (entries.map Prod.fst).Nodup := by
  induction entries with
  | nil => simp [Entries.ArePlain]
  | cons entry rest ih =>
      obtain ⟨key, value⟩ := entry
      rw [Entries.ArePlain, ih, List.forall_mem_cons, List.map_cons, List.nodup_cons]
      constructor
      · rintro ⟨⟨name, rfl, plain, fresh⟩, valuePlain, others, distinct⟩
        exact ⟨⟨⟨⟨name, rfl, plain⟩, valuePlain⟩, others⟩, get?_eq_none_iff.mp fresh, distinct⟩
      · rintro ⟨⟨⟨⟨name, rfl, plain⟩, valuePlain⟩, others⟩, fresh, distinct⟩
        exact ⟨⟨name, rfl, plain, get?_eq_none_iff.mpr fresh⟩, valuePlain, others, distinct⟩

theorem Entries.ArePlain.perm {first second : Entries} (plain : Entries.ArePlain first)
    (same : first.Perm second) : Entries.ArePlain second := by
  rw [Entries.arePlain_iff] at plain ⊢
  exact ⟨fun entry member => plain.1 entry (same.mem_iff.mpr member),
    (same.map Prod.fst).nodup_iff.mp plain.2⟩

namespace Canonical

theorem keys_sortKeysEntries (entries : Entries) :
    (sortKeysEntries entries).map Prod.fst = entries.map Prod.fst := by
  induction entries with
  | nil => rfl
  | cons entry rest ih => rw [sortKeysEntries, List.map_cons, List.map_cons, ih]

mutual
/-- A plain value stays plain when its keys are put in order. -/
theorem isPlain_sortKeys : ∀ value : Value, value.IsPlain → (sortKeys value).IsPlain
  | .null, _ => trivial
  | .bool _, _ => trivial
  | .text _, plain => plain
  | .list items, plain => arePlain_sortKeysItems items plain
  | .object entries, plain =>
      (arePlain_sortKeysEntries entries plain).perm (perm_arrange _ _).symm

theorem arePlain_sortKeysItems : ∀ items : List Value, Value.ArePlain items →
    Value.ArePlain (sortKeysItems items)
  | [], _ => trivial
  | first :: rest, plain =>
      ⟨isPlain_sortKeys first plain.1, arePlain_sortKeysItems rest plain.2⟩

theorem arePlain_sortKeysEntries : ∀ entries : List (Value × Value), Entries.ArePlain entries →
    Entries.ArePlain (sortKeysEntries entries)
  | [], _ => trivial
  | (key, value) :: rest, plain => by
      obtain ⟨⟨name, same, namePlain, fresh⟩, valuePlain, restPlain⟩ := plain
      refine ⟨⟨name, same, namePlain, ?_⟩, isPlain_sortKeys value valuePlain,
        arePlain_sortKeysEntries rest restPlain⟩
      rw [Entries.get?_eq_none_iff, keys_sortKeysEntries]
      exact Entries.get?_eq_none_iff.mp fresh
end

/-! ## Documents -/

mutual
/-- Nothing in a document stands in the way of its canonical text but its depth. -/
theorem obstacle?_eq_none_iff : ∀ (value : Value) (room : Nat) (path : Text), value.IsDocument →
    (obstacle? room path value = none ↔ value.nesting ≤ room)
  | .null, _, _, _ | .bool _, _, _, _ | .int _, _, _, _ | .text _, _, _, _ => by
      simp [obstacle?, Value.nesting]
  | .list items, 0, path, _ => by simp [obstacle?, Value.nesting]
  | .list items, room + 1, path, documents => by
      rw [obstacle?, itemsObstacle?_eq_none_iff items room path 0 documents, Value.nesting,
        Nat.add_le_add_iff_right]
  | .object entries, 0, path, _ => by simp [obstacle?, Value.nesting]
  | .object entries, room + 1, path, documents => by
      rw [obstacle?, entriesObstacle?_eq_none_iff entries room path documents, Value.nesting,
        Nat.add_le_add_iff_right]

theorem itemsObstacle?_eq_none_iff : ∀ (items : List Value) (room : Nat) (path : Text)
    (index : Nat), Value.AreDocuments items →
      (itemsObstacle? room path index items = none ↔ Value.nestingOfItems items ≤ room)
  | [], _, _, _, _ => by simp [itemsObstacle?, Value.nestingOfItems]
  | first :: rest, room, path, index, documents => by
      rw [itemsObstacle?, Value.nestingOfItems, Nat.max_le,
        ← obstacle?_eq_none_iff first room (itemPath path index) documents.1,
        ← itemsObstacle?_eq_none_iff rest room path (index + 1) documents.2]
      split <;> simp_all

theorem entriesObstacle?_eq_none_iff : ∀ (entries : List (Value × Value)) (room : Nat)
    (path : Text), Entries.AreDocuments entries →
      (entriesObstacle? room path entries = none ↔ Value.nestingOfEntries entries ≤ room)
  | [], _, _, _ => by simp [entriesObstacle?, Value.nestingOfEntries]
  | (key, value) :: rest, room, path, documents => by
      obtain ⟨⟨name, rfl⟩, document, others⟩ := documents
      rw [entriesObstacle?, Value.nestingOfEntries, Nat.max_le, Nat.max_le,
        ← obstacle?_eq_none_iff value room (entryPath path name) document,
        ← entriesObstacle?_eq_none_iff rest room path others]
      simp only [Value.asText?, Value.nesting, Nat.zero_le, true_and]
      split <;> simp_all
end

mutual
/-- Putting the keys in order leaves a value as deep as it is. -/
theorem nesting_sortKeys : ∀ value : Value, (sortKeys value).nesting = value.nesting
  | .list items => by
      rw [sortKeys, Value.nesting, Value.nesting, nestingOfItems_sortKeysItems items]
  | .tuple items => by
      rw [sortKeys, Value.nesting, Value.nesting, nestingOfItems_sortKeysItems items]
  | .object entries => by
      rw [sortKeys, Value.nesting, Value.nesting, sortEntries,
        Value.nestingOfEntries_perm (perm_arrange _ _), nestingOfEntries_sortKeysEntries entries]
  | .null | .bool _ | .int _ | .float _ | .text _ | .set _ | .bytes _ | .date _ | .datetime _ => rfl

theorem nestingOfItems_sortKeysItems : ∀ items : List Value,
    Value.nestingOfItems (sortKeysItems items) = Value.nestingOfItems items
  | [] => rfl
  | first :: rest => by
      rw [sortKeysItems, Value.nestingOfItems, Value.nestingOfItems, nesting_sortKeys first,
        nestingOfItems_sortKeysItems rest]

theorem nestingOfEntries_sortKeysEntries : ∀ entries : List (Value × Value),
    Value.nestingOfEntries (sortKeysEntries entries) = Value.nestingOfEntries entries
  | [] => rfl
  | (key, value) :: rest => by
      rw [sortKeysEntries, Value.nestingOfEntries, Value.nestingOfEntries, nesting_sortKeys value,
        nestingOfEntries_sortKeysEntries rest]
end

mutual
/-- Putting the keys in order keeps the integers. -/
theorem hasNumerals_sortKeys : ∀ value : Value, (sortKeys value).HasNumerals ↔ value.HasNumerals
  | .list items => by
      rw [sortKeys, Value.HasNumerals, Value.HasNumerals, haveNumerals_sortKeysItems items]
  | .tuple items => by
      rw [sortKeys, Value.HasNumerals, Value.HasNumerals, haveNumerals_sortKeysItems items]
  | .object entries => by
      rw [sortKeys, Value.HasNumerals, Value.HasNumerals, sortEntries,
        Value.entriesHaveNumerals_perm (perm_arrange _ _), haveNumerals_sortKeysEntries entries]
  | .null | .bool _ | .int _ | .float _ | .text _ | .set _ | .bytes _ | .date _ | .datetime _ =>
      Iff.rfl

theorem haveNumerals_sortKeysItems : ∀ items : List Value,
    Value.HaveNumerals (sortKeysItems items) ↔ Value.HaveNumerals items
  | [] => Iff.rfl
  | first :: rest => by
      rw [sortKeysItems, Value.HaveNumerals, Value.HaveNumerals, hasNumerals_sortKeys first,
        haveNumerals_sortKeysItems rest]

theorem haveNumerals_sortKeysEntries : ∀ entries : List (Value × Value),
    Value.EntriesHaveNumerals (sortKeysEntries entries) ↔ Value.EntriesHaveNumerals entries
  | [] => Iff.rfl
  | (key, value) :: rest => by
      rw [sortKeysEntries, Value.EntriesHaveNumerals, Value.EntriesHaveNumerals,
        hasNumerals_sortKeys value, haveNumerals_sortKeysEntries rest]
end

mutual
/-- A document stays one when its keys are put in order. -/
theorem isDocument_sortKeys : ∀ value : Value, value.IsDocument → (sortKeys value).IsDocument
  | .null, _ => trivial
  | .bool _, _ => trivial
  | .int _, _ => trivial
  | .text _, _ => trivial
  | .list items, documents => areDocuments_sortKeysItems items documents
  | .object entries, documents => by
      have sorted := areDocuments_sortKeysEntries entries documents
      rw [Entries.areDocuments_iff] at sorted
      exact (Entries.areDocuments_iff _).mpr fun entry member =>
        sorted entry ((perm_arrange _ _).mem_iff.mp member)

theorem areDocuments_sortKeysItems : ∀ items : List Value, Value.AreDocuments items →
    Value.AreDocuments (sortKeysItems items)
  | [], _ => trivial
  | first :: rest, documents =>
      ⟨isDocument_sortKeys first documents.1, areDocuments_sortKeysItems rest documents.2⟩

theorem areDocuments_sortKeysEntries : ∀ entries : List (Value × Value),
    Entries.AreDocuments entries → Entries.AreDocuments (sortKeysEntries entries)
  | [], _ => trivial
  | (_, value) :: rest, documents =>
      ⟨documents.1, isDocument_sortKeys value documents.2.1,
        areDocuments_sortKeysEntries rest documents.2.2⟩
end

theorem get?_sortKeysEntries (entries : Entries) (name : Text) :
    Entries.get? (sortKeysEntries entries) name = (entries.get? name).map sortKeys := by
  induction entries with
  | nil => rfl
  | cons entry rest ih =>
      obtain ⟨key, value⟩ := entry
      rw [sortKeysEntries, Entries.get?_cons, Entries.get?_cons, ih]
      split <;> rfl

/-- **What stands under a key keeps its place when the keys are put in order.** -/
theorem get_sortEntries {entries : Entries} (distinct : (entries.map Prod.fst).Nodup)
    (name : Text) :
    Entries.get (sortEntries (sortKeysEntries entries)) name = sortKeys (entries.get name) := by
  have keys : ((sortKeysEntries entries).map Prod.fst).Nodup := by
    rw [keys_sortKeysEntries]
    exact distinct
  rw [Entries.get, Entries.get, sortEntries, Entries.get?_perm (perm_arrange _ _).symm keys,
    get?_sortKeysEntries]
  cases entries.get? name <;> rfl

end Canonical

section Texts

variable [Host] {value other : Value} {text : Text}

/-- A canonical text is the text of the value with its keys in order, where nothing stands in its
way. -/
theorem canonicalText_eq_ok_iff : canonicalText value = .ok text ↔
    Canonical.obstacle? Host.checked "$" value = none ∧
      (Canonical.sortKeys value).textError? Host.written = none ∧
      Json.write Json.Style.compact (Canonical.sortKeys value) = .ok text := by
  rw [canonicalText]
  split
  · simp [*]
  · split
    · simp [*]
    · split <;> simp [*]

/-- **Which documents have a canonical text**: those that the host gets to the bottom of and whose
integers have numerals. -/
theorem exists_canonicalText_iff (document : value.IsDocument) :
    (∃ text, canonicalText value = .ok text) ↔
      value.nesting ≤ Host.checked ∧ value.nesting ≤ Host.written ∧ value.HasNumerals := by
  simp only [canonicalText_eq_ok_iff, exists_and_left,
    Canonical.obstacle?_eq_none_iff value _ _ document, Value.textError?_eq_none_iff,
    Canonical.nesting_sortKeys, Canonical.hasNumerals_sortKeys]
  constructor
  · rintro ⟨checked, ⟨written, numerals⟩, -⟩
    exact ⟨checked, written, numerals⟩
  · rintro ⟨checked, written, numerals⟩
    exact ⟨checked, ⟨written, numerals⟩, Json.exists_writeAt_compact _ 0
      (Canonical.isDocument_sortKeys value document)
      ((Canonical.hasNumerals_sortKeys value).mpr numerals)⟩

/-- **Documents with the same canonical text differ in the order of their keys alone.** -/
theorem canonicalText_eq_iff (document : value.IsDocument) (otherDocument : other.IsDocument)
    (written : canonicalText value = .ok text) :
    canonicalText other = .ok text ↔ Canonical.sortKeys value = Canonical.sortKeys other := by
  obtain ⟨free, short, done⟩ := canonicalText_eq_ok_iff.mp written
  constructor
  · intro otherWritten
    exact Json.write_compact_injective (Canonical.isDocument_sortKeys value document)
      (Canonical.isDocument_sortKeys other otherDocument) done
      (canonicalText_eq_ok_iff.mp otherWritten).2.2
  · intro same
    rw [Canonical.obstacle?_eq_none_iff value _ _ document, ← Canonical.nesting_sortKeys, same,
      Canonical.nesting_sortKeys, ← Canonical.obstacle?_eq_none_iff other _ _ otherDocument] at free
    rw [same] at short done
    exact canonicalText_eq_ok_iff.mpr ⟨free, short, done⟩

end Texts

/-! ## Plain values -/

mutual
theorem Value.isDocument_of_isPlain : ∀ value : Value, value.IsPlain → value.IsDocument
  | .null, _ => trivial
  | .bool _, _ => trivial
  | .text _, _ => trivial
  | .list items, plain => Value.areDocuments_of_arePlain items plain
  | .object entries, plain => Entries.areDocuments_of_arePlain entries plain

theorem Value.areDocuments_of_arePlain : ∀ items : List Value, Value.ArePlain items →
    Value.AreDocuments items
  | [], _ => trivial
  | first :: rest, plain =>
      ⟨Value.isDocument_of_isPlain first plain.1, Value.areDocuments_of_arePlain rest plain.2⟩

theorem Entries.areDocuments_of_arePlain : ∀ entries : List (Value × Value),
    Entries.ArePlain entries → Entries.AreDocuments entries
  | [], _ => trivial
  | (_, value) :: rest, ⟨⟨name, same, _⟩, valuePlain, restPlain⟩ =>
      ⟨⟨name, same⟩, Value.isDocument_of_isPlain value valuePlain,
        Entries.areDocuments_of_arePlain rest restPlain⟩
end

mutual
/-- There are no integers in a plain value. -/
theorem Value.hasNumerals_of_isPlain : ∀ value : Value, value.IsPlain → value.HasNumerals
  | .null, _ => trivial
  | .bool _, _ => trivial
  | .text _, _ => trivial
  | .list items, plain => Value.haveNumerals_of_arePlain items plain
  | .object entries, plain => Value.entriesHaveNumerals_of_arePlain entries plain

theorem Value.haveNumerals_of_arePlain : ∀ items : List Value, Value.ArePlain items →
    Value.HaveNumerals items
  | [], _ => trivial
  | first :: rest, plain =>
      ⟨Value.hasNumerals_of_isPlain first plain.1, Value.haveNumerals_of_arePlain rest plain.2⟩

theorem Value.entriesHaveNumerals_of_arePlain : ∀ entries : List (Value × Value),
    Entries.ArePlain entries → Value.EntriesHaveNumerals entries
  | [], _ => trivial
  | (_, value) :: rest, ⟨⟨_, same, _⟩, valuePlain, restPlain⟩ =>
      ⟨⟨same ▸ trivial, Value.hasNumerals_of_isPlain value valuePlain⟩,
        Value.entriesHaveNumerals_of_arePlain rest restPlain⟩
end

theorem Json.compact_readable : Json.Style.compact.Readable where
  items := ⟨[], rfl, List.forall_mem_nil _⟩
  keys := ⟨[], rfl, List.forall_mem_nil _⟩
  whole := rfl

/-- **A plain value has a content hash**, if it can be copied. -/
theorem exists_contentHash [Host] {value : Value} (plain : value.IsPlain)
    (shallow : value.nesting ≤ Host.copied) : ∃ hash, contentHash value = .ok hash := by
  obtain ⟨text, canonical⟩ :=
    (exists_canonicalText_iff (Value.isDocument_of_isPlain value plain)).mpr
      ⟨Nat.le_trans shallow Host.copied_le_checked, Nat.le_trans shallow Host.copied_le_written,
        Value.hasNumerals_of_isPlain value plain⟩
  obtain ⟨_, done, reads⟩ := Json.exists_writeAt Json.compact_readable
    (Canonical.sortKeys value) 0 (Canonical.isPlain_sortKeys value plain)
  cases done.symm.trans (canonicalText_eq_ok_iff.mp canonical).2.2
  obtain ⟨octets, encoded⟩ := Option.isSome_iff_exists.mp
    ((Utf8.isSome_encode?_iff text).mpr reads.plain)
  refine ⟨Text.concat ["sha256:", Sha256.digest octets], ?_⟩
  rw [contentHash, canonical]
  simp only [encoded]

end GovernedRecords
