import GovernedRecords.Keyed

/-!
# Laws of keyed tables

A keyed table is read through `Keyed.get?`.  Putting a row changes what is read under its
name and nothing else (`get?_put`), and so does erasing one (`get?_erase`).  The names of a
table are those under which something is read (`mem_names_iff`), and no operation makes a
name occur twice.
-/

set_option autoImplicit false

namespace GovernedRecords.Keyed

variable {α : Type}

@[simp] theorem get?_nil (name : Text) : get? ([] : Keyed α) name = none := rfl

theorem get?_cons (key name : Text) (value : α) (rest : Keyed α) :
    get? ((key, value) :: rest) name = if key = name then some value else get? rest name := by
  by_cases same : key = name <;> simp [get?, same]

theorem get?_append (first second : Keyed α) (name : Text) :
    get? (first ++ second) name = (get? first name).or (get? second name) := by
  rw [get?, List.find?_append, get?, get?]
  cases first.find? fun row => row.1 == name <;> rfl

theorem get?_put (name other : Text) (value : α) (table : Keyed α) :
    get? (put name value table) other = if name = other then some value else get? table other := by
  induction table with
  | nil => simp [put, get?_cons]
  | cons row rest ih =>
      obtain ⟨key, stored⟩ := row
      by_cases same : key = name
      · subst same
        by_cases asked : key = other <;> simp [put, get?_cons, asked]
      · by_cases asked : key = other
        · subst asked
          simp [put, get?_cons, same, Ne.symm same]
        · simp [put, get?_cons, same, asked, ih]

@[simp] theorem get?_put_self (name : Text) (value : α) (table : Keyed α) :
    get? (put name value table) name = some value := by
  simp [get?_put]

theorem get?_put_of_ne {name other : Text} (value : α) (table : Keyed α) (differ : name ≠ other) :
    get? (put name value table) other = get? table other := by
  simp [get?_put, differ]

theorem get?_erase (name other : Text) (table : Keyed α) :
    get? (erase name table) other = if name = other then none else get? table other := by
  induction table with
  | nil => simp [erase]
  | cons row rest ih =>
      obtain ⟨key, stored⟩ := row
      simp only [erase] at ih ⊢
      by_cases same : key = name
      · subst same
        by_cases asked : key = other
        · simpa [asked] using ih
        · simpa [get?_cons, asked] using ih
      · by_cases asked : key = other
        · subst asked
          simp [get?_cons, same, Ne.symm same]
        · simp [get?_cons, same, asked, ih]

/-- Erasing a row undoes putting it. -/
theorem erase_put (name : Text) (value : α) (table : Keyed α) :
    erase name (put name value table) = erase name table := by
  induction table with
  | nil => simp [put, erase]
  | cons row rest ih =>
      simp only [erase] at ih ⊢
      by_cases same : row.1 = name
      · simp [put, same]
      · simp [put, same, ih]

/-- The table with every row changed. -/
def mapRows {β : Type} (change : α → β) (table : Keyed α) : Keyed β :=
  table.map fun row => (row.1, change row.2)

@[simp] theorem get?_mapRows {β : Type} (change : α → β) (table : Keyed α) (name : Text) :
    get? (mapRows change table) name = (get? table name).map change := by
  induction table with
  | nil => rfl
  | cons row rest ih =>
      obtain ⟨key, stored⟩ := row
      rw [mapRows, List.map_cons, get?_cons, get?_cons, ← mapRows, ih]
      split <;> rfl

theorem mapRows_put {β : Type} (change : α → β) (name : Text) (value : α) (table : Keyed α) :
    mapRows change (put name value table) = put name (change value) (mapRows change table) := by
  induction table with
  | nil => rfl
  | cons row rest ih =>
      obtain ⟨key, stored⟩ := row
      simp only [mapRows, put, List.map_cons] at ih ⊢
      split
      · rfl
      · rw [List.map_cons, ih]

theorem mapRows_erase {β : Type} (change : α → β) (name : Text) (table : Keyed α) :
    mapRows change (erase name table) = erase name (mapRows change table) := by
  simp only [mapRows, erase, List.filter_map]
  rfl

theorem has_eq_isSome (table : Keyed α) (name : Text) :
    has table name = (get? table name).isSome := by
  induction table with
  | nil => rfl
  | cons row rest ih =>
      obtain ⟨key, stored⟩ := row
      by_cases same : key = name
      · simp [has, get?_cons, same]
      · have different : (key == name) = false := by simpa using same
        simpa [has, get?_cons, same, different] using ih

/-- The names of a table are those under which something is read. -/
theorem mem_names_iff (table : Keyed α) (name : Text) :
    name ∈ names table ↔ (get? table name).isSome := by
  induction table with
  | nil => simp [names]
  | cons row rest ih =>
      obtain ⟨key, stored⟩ := row
      by_cases same : key = name
      · simp [names, get?_cons, same]
      · simpa [names, get?_cons, same, Ne.symm same] using ih

/-- Erasing a name under which nothing is read changes nothing. -/
theorem erase_of_get?_eq_none {name : Text} {table : Keyed α} (absent : get? table name = none) :
    erase name table = table := by
  refine List.filter_eq_self.mpr ?_
  intro row member
  have read : (get? table row.1).isSome := (mem_names_iff table row.1).mp
    (List.mem_map.mpr ⟨row, member, rfl⟩)
  rw [Bool.not_eq_true', beq_eq_false_iff_ne]
  rintro rfl
  rw [absent] at read
  cases read

/-- What is read under a name is a row of the table. -/
theorem mem_of_get? {table : Keyed α} {name : Text} {value : α}
    (read : get? table name = some value) : (name, value) ∈ table := by
  induction table with
  | nil => cases read
  | cons row rest ih =>
      obtain ⟨key, stored⟩ := row
      rw [get?_cons] at read
      split at read
      · next same =>
          cases read
          exact same ▸ List.mem_cons_self
      · exact List.mem_cons_of_mem _ (ih read)

/-- With no name twice, the rows of a table are what is read under its names. -/
theorem mem_iff_get? {table : Keyed α} (distinct : (names table).Nodup) {name : Text}
    {value : α} : (name, value) ∈ table ↔ get? table name = some value := by
  refine ⟨fun member => ?_, mem_of_get?⟩
  induction table with
  | nil => cases member
  | cons row rest ih =>
      obtain ⟨key, stored⟩ := row
      obtain ⟨fresh, distinct⟩ := List.nodup_cons.mp distinct
      rw [get?_cons]
      rcases List.mem_cons.mp member with same | later
      · cases same
        exact if_pos rfl
      · rw [if_neg, ih distinct later]
        rintro rfl
        exact fresh (List.mem_map.mpr ⟨_, later, rfl⟩)

theorem names_put (name : Text) (value : α) (table : Keyed α) :
    names (put name value table) =
      if has table name then names table else names table ++ [name] := by
  induction table with
  | nil => simp [put, names, has]
  | cons row rest ih =>
      obtain ⟨key, stored⟩ := row
      simp only [names, has] at ih ⊢
      by_cases same : key = name
      · simp [put, same]
      · have different : (key == name) = false := by simpa using same
        cases member : rest.any fun row => row.1 == name with
        | true => simp [put, different, ih, member]
        | false => simp [put, different, ih, member]

/-- A row under a new name comes last. -/
theorem put_of_get?_eq_none {table : Keyed α} {name : Text} (value : α)
    (fresh : get? table name = none) : put name value table = table ++ [(name, value)] := by
  induction table with
  | nil => rfl
  | cons row rest ih =>
      obtain ⟨key, stored⟩ := row
      rw [get?_cons] at fresh
      split at fresh
      · cases fresh
      · next other => rw [put, if_neg (by simpa using other), ih fresh, List.cons_append]

/-- A row under a name that is there takes the place of the one it had. -/
theorem put_eq_map {table : Keyed α} (distinct : (names table).Nodup) {name : Text}
    (there : name ∈ names table) (value : α) :
    put name value table = table.map fun row => if row.1 = name then (name, value) else row := by
  induction table with
  | nil => cases there
  | cons row rest ih =>
      obtain ⟨fresh, distinct⟩ := List.nodup_cons.mp distinct
      rw [put, List.map_cons]
      by_cases same : row.1 = name
      · rw [if_pos (by simpa using same), if_pos same]
        congr 1
        refine (List.map_id rest).symm.trans (List.map_congr_left ?_)
        intro other member
        have differ : other.1 ≠ name := fun twice =>
          fresh (List.mem_map.mpr ⟨other, member, twice.trans same.symm⟩)
        rw [if_neg differ, id]
      · have later : name ∈ names rest := (List.mem_cons.mp there).resolve_left (Ne.symm same)
        rw [if_neg (by simpa using same), if_neg same, ih distinct later]

theorem nodup_names_put {table : Keyed α} (name : Text) (value : α)
    (distinct : (names table).Nodup) : (names (put name value table)).Nodup := by
  rw [names_put]
  split
  · exact distinct
  · next absent =>
      rw [has_eq_isSome, ← mem_names_iff] at absent
      exact List.nodup_append.mpr ⟨distinct, List.pairwise_singleton _ name, by grind⟩

theorem names_erase (name : Text) (table : Keyed α) :
    names (erase name table) = (names table).filter (· ≠ name) := by
  simp only [names, erase, List.filter_map]
  congr 1
  refine List.filter_congr ?_
  intro row _
  by_cases same : row.1 = name <;> simp [same]

theorem nodup_names_erase {table : Keyed α} (name : Text) (distinct : (names table).Nodup) :
    (names (erase name table)).Nodup := by
  rw [names_erase]
  exact distinct.filter _

end GovernedRecords.Keyed
