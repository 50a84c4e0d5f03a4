import GovernedRecords.Proofs.Json.Canonical
import Mathlib.Data.List.Nodup
import Mathlib.Data.List.Perm.Basic

/-!
# Canonical texts are canonical

Trees are built from null, truth values, integers, texts, lists or tuples, and objects whose keys
are different texts.  Two of them are the same (`Same`) when they differ at most in the order of the
entries of an object, at any level, and in which sequences are lists and which are tuples.

Every tree has a canonical text that the host gets to the bottom of and whose integers have
numerals, and two trees have one text exactly when they are the same
(`canonicalText_eq_iff_same`).  Both halves go through the normal form of a tree, in which every
sequence is a list and all keys are in order: the text is that of the normal form, which is a
document, and documents are read off their texts; and trees are the same exactly when they have one
normal form (`normal_eq_iff`).
-/

set_option autoImplicit false

namespace GovernedRecords

mutual
/-- Whether a value is built from null, truth values, integers, texts, lists or tuples, and objects
whose keys are different texts. -/
def Value.IsTree : Value → Prop
  | .null => True
  | .bool _ => True
  | .int _ => True
  | .text _ => True
  | .list items => Value.AreTrees items
  | .tuple items => Value.AreTrees items
  | .object entries => (entries.map Prod.fst).Nodup ∧ Entries.AreTrees entries
  | _ => False

/-- Whether all values of a list are trees. -/
def Value.AreTrees : List Value → Prop
  | [] => True
  | first :: rest => first.IsTree ∧ Value.AreTrees rest

/-- Whether all entries have a text for a key and a tree for a value. -/
def Entries.AreTrees : List (Value × Value) → Prop
  | [] => True
  | (key, value) :: rest =>
    (∃ name, key = .text name) ∧ value.IsTree ∧ Entries.AreTrees rest
end

mutual
/-- Two values are the same up to the order of entries, at every level, and up to lists and
tuples. -/
inductive Same : Value → Value → Prop where
  | null : Same .null .null
  | bool (truth : Bool) : Same (.bool truth) (.bool truth)
  | int (integer : Int) : Same (.int integer) (.int integer)
  | text (characters : Text) : Same (.text characters) (.text characters)
  | sequence {first second : Value} {items others : List Value}
      (isFirst : first = .list items ∨ first = .tuple items)
      (isSecond : second = .list others ∨ second = .tuple others)
      (each : SameItems items others) : Same first second
  | object {entries arranged others : List (Value × Value)}
      (each : SameEntries entries arranged) (order : arranged.Perm others) :
      Same (.object entries) (.object others)

/-- Items that are the same one by one. -/
inductive SameItems : List Value → List Value → Prop where
  | nil : SameItems [] []
  | cons {first second : Value} {rest others : List Value} (head : Same first second)
      (tail : SameItems rest others) : SameItems (first :: rest) (second :: others)

/-- Entries whose keys are equal and whose values are the same, one by one. -/
inductive SameEntries : List (Value × Value) → List (Value × Value) → Prop where
  | nil : SameEntries [] []
  | cons {key first second : Value} {rest others : List (Value × Value)}
      (head : Same first second) (tail : SameEntries rest others) :
      SameEntries ((key, first) :: rest) ((key, second) :: others)
end

namespace Canonical

/-! ## Lists for tuples -/

mutual
/-- The value with lists in place of tuples. -/
def listed : Value → Value
  | .list items => .list (listedItems items)
  | .tuple items => .list (listedItems items)
  | .object entries => .object (listedEntries entries)
  | other => other

/-- Every item with lists in place of tuples. -/
def listedItems : List Value → List Value
  | [] => []
  | first :: rest => listed first :: listedItems rest

/-- Every entry with lists in place of tuples in its value. -/
def listedEntries : List (Value × Value) → List (Value × Value)
  | [] => []
  | (key, value) :: rest => (key, listed value) :: listedEntries rest
end

theorem listedEntries_eq_map (entries : List (Value × Value)) :
    listedEntries entries = entries.map fun entry => (entry.1, listed entry.2) := by
  induction entries with
  | nil => rfl
  | cons entry rest ih => rw [listedEntries, List.map_cons, ih]

mutual
/-- Lists stand in the way of a canonical text no more and no less than tuples. -/
theorem obstacle?_listed : ∀ (value : Value) (room : Nat) (path : Text),
    obstacle? room path (listed value) = obstacle? room path value
  | .list _, 0, _ | .tuple _, 0, _ | .object _, 0, _ => rfl
  | .list items, room + 1, path => itemsObstacle?_listed items room path 0
  | .tuple items, room + 1, path => itemsObstacle?_listed items room path 0
  | .object entries, room + 1, path => entriesObstacle?_listed entries room path
  | .null, _, _ | .bool _, _, _ | .int _, _, _ | .float _, _, _ | .text _, _, _ | .set _, _, _
  | .bytes _, _, _ | .date _, _, _ | .datetime _, _, _ => rfl

theorem itemsObstacle?_listed : ∀ (items : List Value) (room : Nat) (path : Text) (index : Nat),
    itemsObstacle? room path index (listedItems items) = itemsObstacle? room path index items
  | [], _, _, _ => rfl
  | first :: rest, room, path, index => by
      rw [listedItems, itemsObstacle?, itemsObstacle?, obstacle?_listed first,
        itemsObstacle?_listed rest]

theorem entriesObstacle?_listed : ∀ (entries : List (Value × Value)) (room : Nat) (path : Text),
    entriesObstacle? room path (listedEntries entries) = entriesObstacle? room path entries
  | [], _, _ => rfl
  | (key, value) :: rest, room, path => by
      rw [listedEntries, entriesObstacle?, entriesObstacle?, entriesObstacle?_listed rest]
      simp only [obstacle?_listed value]
end

mutual
/-- Lists are as deep as tuples. -/
theorem nesting_listed : ∀ value : Value, (listed value).nesting = value.nesting
  | .list items => by
      rw [listed, Value.nesting, Value.nesting, nestingOfItems_listedItems items]
  | .tuple items => by
      rw [listed, Value.nesting, Value.nesting, nestingOfItems_listedItems items]
  | .object entries => by
      rw [listed, Value.nesting, Value.nesting, nestingOfEntries_listedEntries entries]
  | .null | .bool _ | .int _ | .float _ | .text _ | .set _ | .bytes _ | .date _ | .datetime _ => rfl

theorem nestingOfItems_listedItems : ∀ items : List Value,
    Value.nestingOfItems (listedItems items) = Value.nestingOfItems items
  | [] => rfl
  | first :: rest => by
      rw [listedItems, Value.nestingOfItems, Value.nestingOfItems, nesting_listed first,
        nestingOfItems_listedItems rest]

theorem nestingOfEntries_listedEntries : ∀ entries : List (Value × Value),
    Value.nestingOfEntries (listedEntries entries) = Value.nestingOfEntries entries
  | [] => rfl
  | (key, value) :: rest => by
      rw [listedEntries, Value.nestingOfEntries, Value.nestingOfEntries, nesting_listed value,
        nestingOfEntries_listedEntries rest]
end

mutual
/-- There are the same integers in lists as in tuples. -/
theorem hasNumerals_listed : ∀ value : Value, (listed value).HasNumerals ↔ value.HasNumerals
  | .list items => by
      rw [listed, Value.HasNumerals, Value.HasNumerals, haveNumerals_listedItems items]
  | .tuple items => by
      rw [listed, Value.HasNumerals, Value.HasNumerals, haveNumerals_listedItems items]
  | .object entries => by
      rw [listed, Value.HasNumerals, Value.HasNumerals, haveNumerals_listedEntries entries]
  | .null | .bool _ | .int _ | .float _ | .text _ | .set _ | .bytes _ | .date _ | .datetime _ =>
      Iff.rfl

theorem haveNumerals_listedItems : ∀ items : List Value,
    Value.HaveNumerals (listedItems items) ↔ Value.HaveNumerals items
  | [] => Iff.rfl
  | first :: rest => by
      rw [listedItems, Value.HaveNumerals, Value.HaveNumerals, hasNumerals_listed first,
        haveNumerals_listedItems rest]

theorem haveNumerals_listedEntries : ∀ entries : List (Value × Value),
    Value.EntriesHaveNumerals (listedEntries entries) ↔ Value.EntriesHaveNumerals entries
  | [] => Iff.rfl
  | (key, value) :: rest => by
      rw [listedEntries, Value.EntriesHaveNumerals, Value.EntriesHaveNumerals,
        hasNumerals_listed value, haveNumerals_listedEntries rest]
end

mutual
/-- Lists are written as tuples are. -/
theorem writeAt_listed (style : Json.Style) : ∀ (value : Value) (level : Nat),
    Json.writeAt style level (listed value) = Json.writeAt style level value
  | .list items, level => by
      rw [listed, Json.writeAt, Json.writeAt, writeItems_listed style items]
  | .tuple items, level => by
      rw [listed, Json.writeAt, Json.writeAt, writeItems_listed style items]
  | .object entries, level => by
      rw [listed, Json.writeAt, Json.writeAt, writeEntries_listed style entries]
  | .null, _ => rfl
  | .bool _, _ => rfl
  | .int _, _ => rfl
  | .float _, _ => rfl
  | .text _, _ => rfl
  | .set _, _ => rfl
  | .bytes _, _ => rfl
  | .date _, _ => rfl
  | .datetime _, _ => rfl

theorem writeItems_listed (style : Json.Style) : ∀ (items : List Value) (level : Nat),
    Json.writeItems style level (listedItems items) = Json.writeItems style level items
  | [], _ => rfl
  | first :: rest, level => by
      rw [listedItems, Json.writeItems, Json.writeItems, writeAt_listed style first,
        writeItems_listed style rest]

theorem writeEntries_listed (style : Json.Style) : ∀ (entries : List (Value × Value))
    (level : Nat),
    Json.writeEntries style level (listedEntries entries) = Json.writeEntries style level entries
  | [], _ => rfl
  | (key, value) :: rest, level => by
      rw [listedEntries, Json.writeEntries, Json.writeEntries, writeAt_listed style value,
        writeEntries_listed style rest]
end

theorem listedEntries_sortEntries (entries : List (Value × Value)) :
    listedEntries (sortEntries entries) = sortEntries (listedEntries entries) := by
  rw [listedEntries_eq_map, listedEntries_eq_map, sortEntries, sortEntries]
  exact map_arrange (fun first second => Text.le first.1.display second.1.display)
    (fun entry => (entry.1, listed entry.2)) entries

mutual
/-- It does not matter whether the keys are put in order before or after. -/
theorem listed_sortKeys : ∀ value : Value, listed (sortKeys value) = sortKeys (listed value)
  | .list items => by rw [sortKeys, listed, listed, sortKeys, listedItems_sortKeysItems items]
  | .tuple items => by rw [sortKeys, listed, listed, sortKeys, listedItems_sortKeysItems items]
  | .object entries => by
      rw [sortKeys, listed, listed, sortKeys, listedEntries_sortEntries,
        listedEntries_sortKeysEntries entries]
  | .null => rfl
  | .bool _ => rfl
  | .int _ => rfl
  | .float _ => rfl
  | .text _ => rfl
  | .set _ => rfl
  | .bytes _ => rfl
  | .date _ => rfl
  | .datetime _ => rfl

theorem listedItems_sortKeysItems : ∀ items : List Value,
    listedItems (sortKeysItems items) = sortKeysItems (listedItems items)
  | [] => rfl
  | first :: rest => by
      rw [sortKeysItems, listedItems, listedItems, sortKeysItems, listed_sortKeys first,
        listedItems_sortKeysItems rest]

theorem listedEntries_sortKeysEntries : ∀ entries : List (Value × Value),
    listedEntries (sortKeysEntries entries) = sortKeysEntries (listedEntries entries)
  | [] => rfl
  | (key, value) :: rest => by
      rw [sortKeysEntries, listedEntries, listedEntries, sortKeysEntries, listed_sortKeys value,
        listedEntries_sortKeysEntries rest]
end

mutual
/-- With lists in place of its tuples, a tree is a document. -/
theorem isDocument_listed : ∀ value : Value, value.IsTree → (listed value).IsDocument
  | .null, _ => trivial
  | .bool _, _ => trivial
  | .int _, _ => trivial
  | .text _, _ => trivial
  | .list items, trees => areDocuments_listedItems items trees
  | .tuple items, trees => areDocuments_listedItems items trees
  | .object entries, trees => areDocuments_listedEntries entries trees.2

theorem areDocuments_listedItems : ∀ items : List Value, Value.AreTrees items →
    Value.AreDocuments (listedItems items)
  | [], _ => trivial
  | first :: rest, trees =>
      ⟨isDocument_listed first trees.1, areDocuments_listedItems rest trees.2⟩

theorem areDocuments_listedEntries : ∀ entries : List (Value × Value), Entries.AreTrees entries →
    Entries.AreDocuments (listedEntries entries)
  | [], _ => trivial
  | (_, value) :: rest, trees =>
      ⟨trees.1, isDocument_listed value trees.2.1, areDocuments_listedEntries rest trees.2.2⟩
end

/-- The value with lists in place of tuples and all keys in order. -/
def normal (value : Value) : Value := sortKeys (listed value)

/-- The entry with the normal form of its value. -/
def normalEntry (entry : Value × Value) : Value × Value := (entry.1, normal entry.2)

theorem sortKeysItems_listedItems (items : List Value) :
    sortKeysItems (listedItems items) = items.map normal := by
  induction items with
  | nil => rfl
  | cons first rest ih => rw [listedItems, sortKeysItems, ih, List.map_cons, normal]

theorem sortKeysEntries_listedEntries (entries : List (Value × Value)) :
    sortKeysEntries (listedEntries entries) = entries.map normalEntry := by
  induction entries with
  | nil => rfl
  | cons entry rest ih =>
      rw [listedEntries, sortKeysEntries, ih, List.map_cons, normalEntry, normal]

theorem normal_sequence {value : Value} {items : List Value}
    (sequence : value = .list items ∨ value = .tuple items) :
    normal value = .list (items.map normal) := by
  rcases sequence with rfl | rfl <;> rw [normal, listed, sortKeys, sortKeysItems_listedItems]

theorem normal_object (entries : List (Value × Value)) :
    normal (.object entries) = .object (sortEntries (entries.map normalEntry)) := by
  rw [normal, listed, sortKeys, sortKeysEntries_listedEntries]

/-- Only a list or a tuple has a list for its normal form. -/
theorem normal_eq_list {value : Value} {forms : List Value} (same : normal value = .list forms) :
    ∃ items, (value = .list items ∨ value = .tuple items) ∧ items.map normal = forms := by
  cases value with
  | list items =>
      rw [normal_sequence (.inl rfl)] at same
      exact ⟨items, .inl rfl, Value.list.inj same⟩
  | tuple items =>
      rw [normal_sequence (.inr rfl)] at same
      exact ⟨items, .inr rfl, Value.list.inj same⟩
  | _ => cases same

/-- Only an object has an object for its normal form. -/
theorem normal_eq_object {value : Value} {forms : List (Value × Value)}
    (same : normal value = .object forms) :
    ∃ entries, value = .object entries ∧ sortEntries (entries.map normalEntry) = forms := by
  cases value with
  | object entries =>
      rw [normal_object] at same
      exact ⟨entries, rfl, Value.object.inj same⟩
  | _ => cases same

/-- Entries under different texts have one ascending order. -/
theorem sortEntries_eq_of_perm {entries others : List (Value × Value)}
    (keyed : ∀ entry ∈ entries, ∃ name, entry.1 = .text name)
    (distinct : (entries.map Prod.fst).Nodup) (order : entries.Perm others) :
    sortEntries entries = sortEntries others := by
  have ordered : ∀ entries, (sortEntries entries).Pairwise fun first second =>
      Text.le first.1.display second.1.display :=
    pairwise_arrange (fun _ _ => Text.le_total _ _) Text.le_trans
  refine ((perm_arrange _ _).trans (order.trans (perm_arrange _ _).symm)).eq_of_pairwise ?_
    (ordered entries) (ordered others)
  intro first second inFirst inSecond left right
  have firstMember : first ∈ entries := (perm_arrange _ _).mem_iff.mp inFirst
  have secondMember : second ∈ entries :=
    order.mem_iff.mpr ((perm_arrange _ _).mem_iff.mp inSecond)
  obtain ⟨name, named⟩ := keyed first firstMember
  obtain ⟨other, otherNamed⟩ := keyed second secondMember
  rw [named, otherNamed] at left right
  have names : name = other := Text.le_antisymm left right
  exact List.inj_on_of_nodup_map distinct firstMember secondMember
    (by rw [named, otherNamed, names])

theorem keyed_of_areTrees {entries : List (Value × Value)} (trees : Entries.AreTrees entries) :
    ∀ entry ∈ entries.map normalEntry, ∃ name, entry.1 = .text name := by
  induction entries with
  | nil => exact List.forall_mem_nil _
  | cons entry rest ih =>
      obtain ⟨keyed, -, others⟩ := trees
      exact List.forall_mem_cons.mpr ⟨keyed, ih others⟩

theorem keys_normalEntries (entries : List (Value × Value)) :
    (entries.map normalEntry).map Prod.fst = entries.map Prod.fst := by
  rw [List.map_map]
  rfl

mutual
/-- Trees that are the same have one normal form. -/
theorem normal_eq_of_same : ∀ {value other : Value}, Same value other → value.IsTree →
    normal value = normal other
  | _, _, .null, _ => rfl
  | _, _, .bool _, _ => rfl
  | _, _, .int _, _ => rfl
  | _, _, .text _, _ => rfl
  | _, _, @Same.sequence _ _ items _ isFirst isSecond each, tree => by
      have trees : Value.AreTrees items := by rcases isFirst with rfl | rfl <;> exact tree
      rw [normal_sequence isFirst, normal_sequence isSecond,
        map_normal_eq_of_sameItems each trees]
  | _, _, .object each order, tree => by
      have forms := map_normalEntry_eq_of_sameEntries each tree.2
      rw [normal_object, normal_object]
      refine congrArg _ (sortEntries_eq_of_perm (keyed_of_areTrees tree.2) ?_ ?_)
      · rw [keys_normalEntries]
        exact tree.1
      · rw [forms]
        exact order.map normalEntry

theorem map_normal_eq_of_sameItems : ∀ {items others : List Value}, SameItems items others →
    Value.AreTrees items → items.map normal = others.map normal
  | _, _, .nil, _ => rfl
  | _, _, .cons head tail, trees => by
      rw [List.map_cons, List.map_cons, normal_eq_of_same head trees.1,
        map_normal_eq_of_sameItems tail trees.2]

theorem map_normalEntry_eq_of_sameEntries : ∀ {entries others : List (Value × Value)},
    SameEntries entries others → Entries.AreTrees entries →
      entries.map normalEntry = others.map normalEntry
  | _, _, .nil, _ => rfl
  | _, _, .cons head tail, trees => by
      rw [List.map_cons, List.map_cons, normalEntry, normalEntry,
        normal_eq_of_same head trees.2.1, map_normalEntry_eq_of_sameEntries tail trees.2.2]
end

mutual
/-- Trees with one normal form are the same. -/
theorem same_of_normal_eq : ∀ {value other : Value}, value.IsTree → normal value = normal other →
    Same value other
  | .null, .null, _, _ => .null
  | .bool _, .bool _, _, rfl => .bool _
  | .int _, .int _, _, rfl => .int _
  | .text _, .text _, _, rfl => .text _
  | .list items, other, trees, same => by
      rw [normal_sequence (.inl rfl)] at same
      obtain ⟨others, sequence, forms⟩ := normal_eq_list same.symm
      exact .sequence (.inl rfl) sequence (sameItems_of_map_normal_eq trees forms.symm)
  | .tuple items, other, trees, same => by
      rw [normal_sequence (.inr rfl)] at same
      obtain ⟨others, sequence, forms⟩ := normal_eq_list same.symm
      exact .sequence (.inr rfl) sequence (sameItems_of_map_normal_eq trees forms.symm)
  | .object entries, other, trees, same => by
      rw [normal_object] at same
      obtain ⟨others, rfl, sorted⟩ := normal_eq_object same.symm
      have order := (perm_arrange _ _).symm.trans ((List.Perm.of_eq sorted.symm).trans
        (perm_arrange _ _))
      obtain ⟨arranged, each, order⟩ := exists_sameEntries_of_perm trees.2 order
      exact .object each order

theorem sameItems_of_map_normal_eq : ∀ {items others : List Value}, Value.AreTrees items →
    items.map normal = others.map normal → SameItems items others
  | [], [], _, _ => .nil
  | _ :: _, _ :: _, trees, same =>
      .cons (same_of_normal_eq trees.1 (List.cons.inj same).1)
        (sameItems_of_map_normal_eq trees.2 (List.cons.inj same).2)

/-- Entries with the same normal forms in some order are the same in some order. -/
theorem exists_sameEntries_of_perm : ∀ {entries others : List (Value × Value)},
    Entries.AreTrees entries → (entries.map normalEntry).Perm (others.map normalEntry) →
      ∃ arranged, SameEntries entries arranged ∧ arranged.Perm others
  | [], others, _, order => by
      rw [List.map_nil, List.nil_perm, List.map_eq_nil_iff] at order
      exact ⟨[], .nil, by rw [order]⟩
  | (key, value) :: rest, others, trees, order => by
      -- The entry with this normal form may stand anywhere among the others.
      obtain ⟨⟨otherKey, other⟩, member, form⟩ :=
        List.mem_map.mp (order.mem_iff.mp List.mem_cons_self)
      have keys : key = otherKey := (congrArg Prod.fst form).symm
      have same : normal value = normal other := (congrArg Prod.snd form).symm
      subst keys
      obtain ⟨before, after, rfl⟩ := List.append_of_mem member
      have middle : (before ++ (key, other) :: after).Perm ((key, other) :: (before ++ after)) :=
        List.perm_middle
      have restOrder := order.trans (middle.map normalEntry)
      rw [List.map_cons, List.map_cons, form] at restOrder
      obtain ⟨arranged, each, others⟩ := exists_sameEntries_of_perm trees.2.2 restOrder.cons_inv
      exact ⟨(key, other) :: arranged, .cons (same_of_normal_eq trees.2.1 same) each,
        (others.cons _).trans middle.symm⟩
end

end Canonical

end GovernedRecords
