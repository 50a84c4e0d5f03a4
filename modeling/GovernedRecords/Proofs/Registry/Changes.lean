import GovernedRecords.Proofs.Definition.Plain
import GovernedRecords.Proofs.Operation
import GovernedRecords.Registry.Basic

/-!
# Changes of a document

The changes of an update are applied to the entries of a document one after another.  A change
replaces what stands under its key, or removes it where it is null; the name and the stamps are out
of its reach, and so is a document from a key that is no text (`get?_applyChange`).  When no key
stands twice among them, the changes together do what each of them does (`get?_applyChanges`).

Whether a change can be applied depends on the change alone, so some of the changes can be applied
to any document where all of them could be to one (`exists_applyChanges`).  What an update does
besides is little: the changed document is read as a definition, and that is saved (`updating`).
-/

set_option autoImplicit false

namespace GovernedRecords.Registry

variable [Host]

/-- The keys that no change touches. -/
def fixedKeys : List Text := ["name", "createdAt", "updatedAt"]

/-- What a change puts under its key, nothing where it is null. -/
def replacement (value : Value) : Option Value := if value.isNull then none else some value

omit [Host] in
@[simp] theorem getD_replacement (value : Value) : (replacement value).getD .null = value := by
  cases value <;> rfl

omit [Host] in
theorem changeEntries_object (entries : Entries) :
    changeEntries (.object entries) = .ok entries := by
  cases entries <;> rfl

/-! ## One change -/

theorem applyChange_fixed {key : Text} (fixed : key ∈ fixedKeys) (value : Value)
    (entries : Entries) : applyChange entries (.text key, value) = .ok entries := by
  rw [applyChange, Value.asText?]
  refine if_pos ?_
  simpa only [fixedKeys, List.mem_cons, List.not_mem_nil, or_false, Bool.or_eq_true,
    decide_eq_true_eq, or_assoc] using fixed

theorem applyChange_free {key : Text} (free : key ∉ fixedKeys) (value : Value)
    (entries : Entries) :
    applyChange entries (.text key, value) =
      if value.isNull then .ok (Entries.erase key entries)
      else value.copy.map fun copied => Entries.put key copied entries := by
  rw [applyChange, Value.asText?]
  refine if_neg ?_
  simpa only [fixedKeys, List.mem_cons, List.not_mem_nil, or_false, Bool.or_eq_true,
    decide_eq_true_eq, or_assoc] using free

theorem applyChange_other {key : Value} (other : key.asText? = none) (value : Value)
    (entries : Entries) : applyChange entries (key, value) = .ok entries := by
  simp only [applyChange, other]

/-- A change does nothing, or it does what it says under its key. -/
theorem applyChange_cases {entries changed : Entries} {key value : Value}
    (done : applyChange entries (key, value) = .ok changed) :
    changed = entries ∧ (∀ name ∉ fixedKeys, key ≠ .text name) ∨
      ∃ name ∉ fixedKeys, key = .text name ∧
        changed = (replacement value).elim (Entries.erase name entries)
          fun other => Entries.put name other entries := by
  cases found : key.asText? with
  | none =>
      rw [applyChange_other found] at done
      refine .inl ⟨(Except.ok.inj done).symm, ?_⟩
      rintro name - rfl
      cases found
  | some name =>
      rw [Value.asText?_eq_some] at found
      subst found
      by_cases fixed : name ∈ fixedKeys
      · rw [applyChange_fixed fixed] at done
        refine .inl ⟨(Except.ok.inj done).symm, ?_⟩
        rintro _ free ⟨⟩
        exact free fixed
      · refine .inr ⟨name, fixed, rfl, ?_⟩
        rw [applyChange_free fixed] at done
        rw [replacement]
        split at done
        · next null =>
            rw [if_pos null]
            exact (Except.ok.inj done).symm
        · next present =>
            rw [if_neg present]
            cases copy : value.copy with
            | error fault =>
                rw [copy] at done
                cases done
            | ok copied =>
                rw [copy, Value.copy_eq_ok copy] at done
                exact (Except.ok.inj done).symm

/-- A change leaves the name and the stamps as they are. -/
theorem get?_applyChange_of_fixed {entries changed : Entries} {key value : Value}
    (done : applyChange entries (key, value) = .ok changed) {name : Text}
    (fixed : name ∈ fixedKeys) : Entries.get? changed name = Entries.get? entries name := by
  obtain ⟨rfl, -⟩ | ⟨other, free, rfl, rfl⟩ := applyChange_cases done
  · rfl
  · have differ : other ≠ name := fun same => free (same ▸ fixed)
    cases replacement value with
    | none => rw [Option.elim_none, Entries.get?_erase, if_neg differ]
    | some put => exact Entries.get?_put_of_ne _ _ differ

/-- **What a change does under any other name.** -/
theorem get?_applyChange {entries changed : Entries} {key value : Value}
    (done : applyChange entries (key, value) = .ok changed) {name : Text}
    (free : name ∉ fixedKeys) :
    Entries.get? changed name =
      if key.isText name then replacement value else Entries.get? entries name := by
  obtain ⟨rfl, untouched⟩ | ⟨other, -, rfl, rfl⟩ := applyChange_cases done
  · rw [if_neg fun named => untouched name free ((Value.isText_iff _ _).mp named)]
  · simp only [Value.isText_text, beq_iff_eq]
    by_cases same : other = name
    · subst same
      cases replacement value <;> simp [Entries.get?_erase]
    · rw [if_neg same]
      cases replacement value with
      | none => rw [Option.elim_none, Entries.get?_erase, if_neg same]
      | some put => exact Entries.get?_put_of_ne _ _ same

/-- A change that cannot be applied is nested too deeply. -/
theorem eq_tooDeep_of_applyChange {entries : Entries} {change : Value × Value} {fault : Fault}
    (failed : applyChange entries change = .error fault) : fault = .tooDeep := by
  rw [applyChange] at failed
  split at failed
  · cases failed
  · split at failed
    · cases failed
    · split at failed
      · cases failed
      · cases copy : change.2.copy with
        | ok copied =>
            rw [copy] at failed
            cases failed
        | error other =>
            rw [copy] at failed
            cases failed
            exact Value.eq_tooDeep_of_copy copy

/-- A change that can be applied to some entries can be applied to any. -/
theorem exists_applyChange {entries changed : Entries} {change : Value × Value}
    (done : applyChange entries change = .ok changed) (others : Entries) :
    ∃ otherChanged, applyChange others change = .ok otherChanged := by
  obtain ⟨key, value⟩ := change
  cases found : key.asText? with
  | none => exact ⟨others, applyChange_other found value others⟩
  | some name =>
      rw [Value.asText?_eq_some] at found
      subst found
      by_cases fixed : name ∈ fixedKeys
      · exact ⟨others, applyChange_fixed fixed value others⟩
      · rw [applyChange_free fixed] at done ⊢
        split at done
        · next null => exact ⟨_, if_pos null⟩
        · next present =>
            rw [if_neg present]
            cases copy : value.copy with
            | error fault =>
                rw [copy] at done
                cases done
            | ok copied => exact ⟨_, rfl⟩

/-! ## All changes -/

theorem applyChanges_cons {change : Value × Value} {rest entries changed : Entries} :
    applyChanges (change :: rest) entries = .ok changed ↔
      ∃ between, applyChange entries change = .ok between ∧
        applyChanges rest between = .ok changed := by
  rw [applyChanges, List.foldlM_cons]
  cases applyChange entries change with
  | error fault => simp [bind, Except.bind]
  | ok between => simp [bind, Except.bind, applyChanges]

/-- Changes that cannot be applied are nested too deeply. -/
theorem eq_tooDeep_of_applyChanges {changes entries : Entries} {fault : Fault}
    (failed : applyChanges changes entries = .error fault) : fault = .tooDeep := by
  induction changes generalizing entries with
  | nil => cases failed
  | cons change rest ih =>
      rw [applyChanges, List.foldlM_cons] at failed
      cases first : applyChange entries change with
      | error other =>
          rw [first] at failed
          cases failed
          exact eq_tooDeep_of_applyChange first
      | ok between =>
          rw [first] at failed
          exact ih failed

/-- The name and the stamps stay as they are. -/
theorem get?_applyChanges_of_fixed {changes entries changed : Entries}
    (done : applyChanges changes entries = .ok changed) {name : Text} (fixed : name ∈ fixedKeys) :
    Entries.get? changed name = Entries.get? entries name := by
  induction changes generalizing entries with
  | nil =>
      cases done
      rfl
  | cons change rest ih =>
      obtain ⟨between, first, others⟩ := applyChanges_cons.mp done
      rw [ih others, get?_applyChange_of_fixed first fixed]

/-- **What changes do under any other name**, if no key stands twice among them. -/
theorem get?_applyChanges {changes entries changed : Entries}
    (distinct : (changes.map Prod.fst).Nodup) (done : applyChanges changes entries = .ok changed)
    {name : Text} (free : name ∉ fixedKeys) :
    Entries.get? changed name =
      ((Entries.get? changes name).map replacement).getD (Entries.get? entries name) := by
  induction changes generalizing entries with
  | nil =>
      cases done
      rfl
  | cons change rest ih =>
      obtain ⟨key, value⟩ := change
      obtain ⟨fresh, distinct⟩ := List.nodup_cons.mp distinct
      obtain ⟨between, first, others⟩ := applyChanges_cons.mp done
      rw [ih distinct others, get?_applyChange first free, Entries.get?_cons]
      by_cases named : key.isText name = true
      · have last : Entries.get? rest name = none :=
          Entries.get?_eq_none_iff.mpr ((Value.isText_iff _ _).mp named ▸ fresh)
        simp [named, last]
      · simp [named]

theorem get_applyChanges {changes entries changed : Entries}
    (distinct : (changes.map Prod.fst).Nodup) (done : applyChanges changes entries = .ok changed)
    {name : Text} (free : name ∉ fixedKeys) :
    changed.get name = (Entries.get? changes name).getD (entries.get name) := by
  rw [Entries.get, get?_applyChanges distinct done free, Entries.get]
  cases Entries.get? changes name <;> simp

/-- Some of the changes that can be applied to some entries can be applied to any. -/
theorem exists_applyChanges {some changes entries changed : Entries} (among : some.Sublist changes)
    (done : applyChanges changes entries = .ok changed) (others : Entries) :
    ∃ otherChanged, applyChanges some others = .ok otherChanged := by
  induction among generalizing entries others with
  | slnil => exact ⟨others, rfl⟩
  | cons change _ ih =>
      obtain ⟨between, -, rest⟩ := applyChanges_cons.mp done
      exact ih rest others
  | cons_cons change _ ih =>
      obtain ⟨between, first, rest⟩ := applyChanges_cons.mp done
      obtain ⟨otherBetween, otherFirst⟩ := exists_applyChange first others
      obtain ⟨otherChanged, otherRest⟩ := ih rest otherBetween
      exact ⟨otherChanged, applyChanges_cons.mpr ⟨otherBetween, otherFirst, otherRest⟩⟩

/-! ## The name -/

/-- The definition that a change makes keeps its name. -/
theorem name_of_changed {current updated : Definition} {changes changed : Entries}
    (done : applyChanges changes (current.toDocument.asObject?.getD []) = .ok changed)
    (read : Definition.ofDocument (.object changed) = .ok updated) :
    updated.name = current.name := by
  have name := Definition.get_name_of_ofDocument read
  rw [Entries.get, get?_applyChanges_of_fixed done (by decide), ← Entries.get,
    Document.get_name_toDocument] at name
  exact (Value.text.inj name).symm

/-! ## Updates -/

section Update

variable {σ : Type} {store : DefinitionStore σ} {now : Instant} {name : Text}
  {current : Definition} {registry between : Registry σ}

/-- The ways an update ends once the definition is loaded. -/
inductive Updating (store : DefinitionStore σ) (now : Instant) (name : Text)
    (changes actor : Value) (current : Definition) (between : Registry σ) :
    Except Fault Definition × Registry σ → Prop where
  /-- The changes are no object. -/
  | unlisted {fault : Fault} (failed : changeEntries changes = .error fault) :
      Updating store now name changes actor current between (.error fault, between)
  /-- One of the changes is nested too deeply. -/
  | unapplied {entries : Entries} (given : changeEntries changes = .ok entries)
      (failed : applyChanges entries (current.toDocument.asObject?.getD []) = .error .tooDeep) :
      Updating store now name changes actor current between (.error .tooDeep, between)
  /-- The changed document has problems. -/
  | refused {entries changed : Entries} {problems : List Issue}
      (given : changeEntries changes = .ok entries)
      (done : applyChanges entries (current.toDocument.asObject?.getD []) = .ok changed)
      (unread : Definition.ofDocument (.object changed) = .error (.issues problems)) :
      Updating store now name changes actor current between
        (.error (.refused (invalid name problems)), between)
  /-- A stamp of the changed document lies beyond the calendar. -/
  | outOfRange {entries changed : Entries} {cause : OutOfRange}
      (given : changeEntries changes = .ok entries)
      (done : applyChanges entries (current.toDocument.asObject?.getD []) = .ok changed)
      (unread : Definition.ofDocument (.object changed) = .error (.outOfRange cause)) :
      Updating store now name changes actor current between (.error (.outOfRange cause), between)
  /-- A part of the changed document has no text. -/
  | textless {entries changed : Entries} {error : TextError}
      (given : changeEntries changes = .ok entries)
      (done : applyChanges entries (current.toDocument.asObject?.getD []) = .ok changed)
      (unread : Definition.ofDocument (.object changed) = .error (.text error)) :
      Updating store now name changes actor current between (.error (.ofText error), between)
  /-- The changed document is a definition, and the update goes on to its save. -/
  | saving {entries changed : Entries} {updated : Definition}
      (given : changeEntries changes = .ok entries)
      (done : applyChanges entries (current.toDocument.asObject?.getD []) = .ok changed)
      (read : Definition.ofDocument (.object changed) = .ok updated) :
      Updating store now name changes actor current between
        ((save store now updated actor).on between)

/-- **An update of a definition that is loaded ends in one of these ways.** -/
theorem updating (loaded : (load store now name).on registry = (.ok current, between))
    (changes actor : Value) :
    Updating store now name changes actor current between
      ((update store now name changes actor).on registry) := by
  rw [update, Operation.on_bind_of_ok loaded, Operation.on_bind, Operation.on_ofExcept]
  cases given : changeEntries changes with
  | error fault => exact .unlisted given
  | ok entries =>
      simp only [Operation.on_bind, Operation.on_ofExcept]
      cases done : applyChanges entries (current.toDocument.asObject?.getD []) with
      | error fault =>
          cases eq_tooDeep_of_applyChanges done
          exact .unapplied given done
      | ok changed =>
          simp only
          cases read : Definition.ofDocument (.object changed) with
          | error error =>
              cases error with
              | issues problems => exact .refused given done read
              | outOfRange cause => exact .outOfRange given done read
              | text error => exact .textless given done read
          | ok updated => exact .saving given done read

end Update

end GovernedRecords.Registry
