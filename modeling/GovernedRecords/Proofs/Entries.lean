import GovernedRecords.Keyed
import GovernedRecords.Value.Basic

/-!
# Laws of entries

The entries of an object are read through `Entries.get?` under text keys.  Putting a value
changes what is read under its key and nothing else (`get?_put`).  Merging puts the changes
one after another, so whatever every single one of them keeps, the merge keeps
(`merge_induction`).
-/

set_option autoImplicit false

namespace GovernedRecords

theorem Value.isText_iff (name : Text) (value : Value) :
    value.isText name = true ↔ value = .text name := by
  cases value <;> simp [Value.isText]

@[simp] theorem Value.isText_text (name other : Text) :
    (Value.text name).isText other = (name == other) := rfl

theorem Value.asText?_eq_some {value : Value} {name : Text} :
    value.asText? = some name ↔ value = .text name := by
  cases value <;> simp [Value.asText?]

/-- Null is missing, so what is not missing is not null. -/
theorem Value.isNull_of_not_isMissing {value : Value} (present : value.isMissing = false) :
    value.isNull = false := by
  cases value <;> simp_all [Value.isMissing, Value.isNull]

namespace Entries

@[simp] theorem get?_nil (name : Text) : get? [] name = none := rfl

theorem get?_cons (key value : Value) (rest : Entries) (name : Text) :
    get? ((key, value) :: rest) name =
      if key.isText name then some value else get? rest name := by
  cases same : key.isText name <;> simp [get?, same]

/-- The entries that fields make hold under a name what the fields do. -/
theorem get?_ofFields (fields : List (Text × Value)) (name : Text) :
    get? (fields.map fun field => (.text field.1, field.2)) name = Keyed.get? fields name := by
  rw [get?, List.find?_map, Option.map_map]
  rfl

theorem get_ofFields (fields : List (Text × Value)) (name : Text) :
    get (fields.map fun field => (.text field.1, field.2)) name =
      (Keyed.get? fields name).getD .null := by
  rw [get, get?_ofFields]

theorem get?_put (name other : Text) (value : Value) (entries : Entries) :
    get? (put name value entries) other =
      if name = other then some value else get? entries other := by
  induction entries with
  | nil => simp [put, get?_cons]
  | cons entry rest ih =>
      obtain ⟨key, stored⟩ := entry
      cases same : key.isText name with
      | true =>
          rw [Value.isText_iff] at same
          subst same
          by_cases asked : name = other <;> simp [put, get?_cons, asked]
      | false =>
          by_cases asked : name = other
          · subst asked
            simp [put, get?_cons, same, ih]
          · simp [put, get?_cons, same, asked, ih]

@[simp] theorem get?_put_self (name : Text) (value : Value) (entries : Entries) :
    get? (put name value entries) name = some value := by
  simp [get?_put]

theorem get?_put_of_ne {name other : Text} (value : Value) (entries : Entries)
    (differ : name ≠ other) : get? (put name value entries) other = get? entries other := by
  simp [get?_put, differ]

/-- A value under a new key comes last. -/
theorem put_of_get?_eq_none {entries : Entries} {name : Text} (value : Value)
    (fresh : get? entries name = none) :
    put name value entries = entries ++ [(.text name, value)] := by
  induction entries with
  | nil => rfl
  | cons entry rest ih =>
      obtain ⟨key, stored⟩ := entry
      rw [get?_cons] at fresh
      split at fresh
      · cases fresh
      · next other => rw [put, if_neg other, ih fresh, List.cons_append]

theorem isSome_get?_put {name other : Text} {value : Value} {entries : Entries}
    (there : (get? entries name).isSome) : (get? (put other value entries) name).isSome := by
  rw [get?_put]
  split
  · rfl
  · exact there

/-- A value is put into an entry of its own, or into the place of the one under its key. -/
theorem mem_put {name : Text} {value : Value} {entries : Entries} {entry : Value × Value}
    (member : entry ∈ put name value entries) :
    entry = (.text name, value) ∨ entry ∈ entries := by
  induction entries with
  | nil => simpa [put] using member
  | cons first rest ih =>
      rw [put] at member
      split at member
      · next same =>
          rcases List.mem_cons.mp member with rfl | later
          · rw [(Value.isText_iff _ _).mp same]
            exact .inl rfl
          · exact .inr (List.mem_cons_of_mem _ later)
      · rcases List.mem_cons.mp member with rfl | later
        · exact .inr List.mem_cons_self
        · exact (ih later).imp_right (List.mem_cons_of_mem _)

/-- No key comes to occur twice when a value is put. -/
theorem nodup_keys_put {entries : Entries} (name : Text) (value : Value)
    (distinct : (entries.map Prod.fst).Nodup) :
    ((put name value entries).map Prod.fst).Nodup := by
  induction entries with
  | nil => exact List.pairwise_singleton _ _
  | cons entry rest ih =>
      obtain ⟨fresh, distinct⟩ := List.nodup_cons.mp distinct
      rw [put]
      split
      · exact List.nodup_cons.mpr ⟨fresh, distinct⟩
      · next other =>
          refine List.nodup_cons.mpr ⟨?_, ih distinct⟩
          intro member
          obtain ⟨twin, put, same⟩ := List.mem_map.mp member
          rcases mem_put put with rfl | old
          · exact other ((Value.isText_iff _ _).mpr same.symm)
          · exact fresh (same ▸ List.mem_map_of_mem old)

/-- What is read under a key is an entry. -/
theorem mem_of_get? {entries : Entries} {name : Text} {value : Value}
    (read : get? entries name = some value) : (.text name, value) ∈ entries := by
  induction entries with
  | nil => cases read
  | cons entry rest ih =>
      obtain ⟨key, stored⟩ := entry
      rw [get?_cons] at read
      split at read
      · next same =>
          cases read
          rw [(Value.isText_iff _ _).mp same]
          exact List.mem_cons_self
      · exact List.mem_cons_of_mem _ (ih read)

/-- A text key that occurs is read. -/
theorem isSome_get?_of_mem {entries : Entries} {name : Text} {value : Value}
    (member : (.text name, value) ∈ entries) : (get? entries name).isSome := by
  induction entries with
  | nil => cases member
  | cons entry rest ih =>
      obtain ⟨key, stored⟩ := entry
      rw [get?_cons]
      split
      · rfl
      · next different =>
          rcases List.mem_cons.mp member with same | later
          · cases same
            simp at different
          · exact ih later

/-- Nothing is read under a key that does not occur. -/
theorem get?_eq_none_iff {entries : Entries} {name : Text} :
    get? entries name = none ↔ .text name ∉ entries.map Prod.fst := by
  rw [← Option.not_isSome_iff_eq_none]
  refine not_congr ⟨fun there => ?_, fun member => ?_⟩
  · obtain ⟨value, read⟩ := Option.isSome_iff_exists.mp there
    exact List.mem_map.mpr ⟨_, mem_of_get? read, rfl⟩
  · obtain ⟨⟨key, value⟩, member, rfl⟩ := List.mem_map.mp member
    exact isSome_get?_of_mem member

/-- Where no key stands twice, the order of the entries does not matter. -/
theorem get?_perm {first second : Entries} (same : first.Perm second)
    (distinct : (first.map Prod.fst).Nodup) (name : Text) : get? second name = get? first name := by
  induction same with
  | nil => rfl
  | @cons entry _ _ _ ih =>
      rw [get?_cons, get?_cons, ih (List.nodup_cons.mp distinct).2]
  | swap second first rest =>
      obtain ⟨fresh, -⟩ := List.nodup_cons.mp distinct
      rw [get?_cons, get?_cons, get?_cons, get?_cons]
      split
      · next named =>
          split
          · next other =>
              rw [Value.isText_iff] at named other
              exact absurd (List.mem_cons.mpr (.inl (other.trans named.symm))) fresh
          · rfl
      · rfl
  | @trans _ _ _ left _ ih laterIh =>
      rw [laterIh ((left.map Prod.fst).nodup_iff.mp distinct), ih distinct]

theorem get?_erase (name other : Text) (entries : Entries) :
    get? (erase name entries) other = if name = other then none else get? entries other := by
  induction entries with
  | nil => simp [erase]
  | cons entry rest ih =>
      obtain ⟨key, stored⟩ := entry
      simp only [erase] at ih ⊢
      cases same : key.isText name with
      | true =>
          rw [Value.isText_iff] at same
          subst same
          by_cases asked : name = other
          · simpa [asked] using ih
          · simpa [get?_cons, asked] using ih
      | false =>
          by_cases asked : name = other
          · subst asked
            simpa [get?_cons, same] using ih
          · simp [get?_cons, same, asked, ih]

theorem erase_put (name : Text) (value : Value) (entries : Entries) :
    erase name (put name value entries) = erase name entries := by
  induction entries with
  | nil => simp [erase, put]
  | cons entry rest ih =>
      obtain ⟨key, stored⟩ := entry
      simp only [erase] at ih ⊢
      by_cases same : key.isText name
      · simp [put, same]
      · simp [put, same, ih]

theorem get?_of_get {entries : Entries} {name : Text} {value : Value}
    (read : get entries name = value) (present : value.isNull = false) :
    get? entries name = some value := by
  unfold get at read
  cases found : get? entries name with
  | some stored =>
      rw [found] at read
      exact congrArg some read
  | none =>
      rw [found] at read
      subst read
      cases present

/-- Whatever holds of the entries and is kept by every single change holds of the merge. -/
theorem merge_induction {holds : Entries → Prop} {existing changes : Entries}
    (start : holds existing)
    (step : ∀ entries name value, (.text name, value) ∈ changes → holds entries →
      holds (put name value entries)) : holds (merge existing changes) := by
  unfold merge
  induction changes generalizing existing with
  | nil => exact start
  | cons change rest ih =>
      obtain ⟨key, value⟩ := change
      refine ih ?_ fun entries name other member => step entries name other
        (List.mem_cons_of_mem _ member)
      cases found : key.asText? with
      | none => simpa [found] using start
      | some name =>
          rw [Value.asText?_eq_some] at found
          subst found
          exact step existing name value List.mem_cons_self start

/-- With no key twice among the changes, the merge reads as the changes, and as the entries
before where there is no change. -/
theorem get?_merge {existing changes : Entries} (distinct : (changes.map Prod.fst).Nodup)
    (name : Text) :
    get? (merge existing changes) name = (get? changes name).or (get? existing name) := by
  unfold merge
  induction changes generalizing existing with
  | nil => rfl
  | cons change rest ih =>
      obtain ⟨key, value⟩ := change
      obtain ⟨fresh, distinct⟩ := List.nodup_cons.mp distinct
      rw [List.foldl_cons, ih distinct, get?_cons]
      cases found : key.asText? with
      | none =>
          have other : key.isText name = false := by
            cases key <;> simp_all [Value.asText?, Value.isText]
          simp [other]
      | some text =>
          rw [Value.asText?_eq_some] at found
          subst found
          by_cases same : text = name
          · subst same
            simp [get?_eq_none_iff.mpr fresh]
          · simp [get?_put, same]

end Entries

end GovernedRecords
