import GovernedRecords.Definition.Check
import Mathlib.Data.List.Nodup

/-!
# Definitions without problems

The check of a definition reports no structural problem exactly when the definition is well
formed (`structuralProblems_eq_nil_iff`), and it reports no problem at all exactly when besides
every default can be coerced to the type of its field.  Whether a value can be coerced does not
depend on the instant, so a definition without problems at one instant has none at any other
(`problems_at`).
-/

set_option autoImplicit false

namespace GovernedRecords.Definition

variable {definition : Definition} {now : Instant}

/-- What the check asks of a definition: its name is an identifier, it has fields, with
different names that are not those of the record store, and its owner field is one of them or
an identity column. -/
structure WellFormed (definition : Definition) : Prop where
  named : definition.name.isModelName = true
  nonempty : definition.fields ≠ []
  distinct : definition.fieldNames.Nodup
  unreserved : ∀ name ∈ definition.fieldNames, name ∉ systemKeys
  owned : ∀ owner, definition.owner? = some owner →
    owner ∈ definition.fieldNames ∨ owner ∈ identityColumns

theorem fieldNameProblems_eq_nil_iff (seen : List Text) (index : Nat) (fields : List Field) :
    fieldNameProblems seen index fields = [] ↔
      (∀ field ∈ fields, field.name ∉ seen ∧ field.name ∉ systemKeys) ∧
        (fields.map Field.name).Nodup := by
  induction fields generalizing seen index with
  | nil => simp [fieldNameProblems]
  | cons field rest ih =>
      rw [fieldNameProblems]
      simp only [List.append_eq_nil_iff, ih]
      have tested : ∀ (names : List Text) (problem : Issue),
          (if names.contains field.name then [problem] else []) = [] ↔ field.name ∉ names := by
        intro names problem
        split <;> simp_all
      rw [tested, tested]
      simp only [List.mem_cons, forall_eq_or_imp, List.map_cons, List.nodup_cons, List.mem_map,
        not_or]
      constructor
      · rintro ⟨⟨unseen, free⟩, others, distinct⟩
        refine ⟨⟨⟨unseen, free⟩, fun other member => ⟨(others other member).1.2,
          (others other member).2⟩⟩, ?_, distinct⟩
        rintro ⟨other, member, same⟩
        exact (others other member).1.1 same
      · rintro ⟨⟨⟨unseen, free⟩, others⟩, first, distinct⟩
        refine ⟨⟨unseen, free⟩, fun other member => ⟨⟨?_, (others other member).1⟩,
          (others other member).2⟩, distinct⟩
        exact fun same => first ⟨other, member, same⟩

theorem ownerProblems_eq_nil_iff :
    definition.ownerProblems = [] ↔ ∀ owner, definition.owner? = some owner →
      owner ∈ definition.fieldNames ∨ owner ∈ identityColumns := by
  rw [ownerProblems]
  cases definition.owner? with
  | none => simp
  | some owner =>
      simp only [Option.some.injEq, forall_eq']
      split <;> simp_all

theorem nameProblems_eq_nil_iff :
    definition.nameProblems = [] ↔ definition.name.isModelName = true := by
  rw [nameProblems]
  split <;> simp_all

/-- **The check reports no structural problem exactly when a definition is well formed.** -/
theorem structuralProblems_eq_nil_iff :
    definition.structuralProblems = [] ↔ WellFormed definition := by
  have nonempty_iff : ∀ problem : Issue,
      (if definition.fields.isEmpty then [problem] else []) = [] ↔ definition.fields ≠ [] := by
    intro problem
    split <;> simp_all
  simp only [structuralProblems, List.append_eq_nil_iff, fieldNameProblems_eq_nil_iff,
    ownerProblems_eq_nil_iff, nameProblems_eq_nil_iff, nonempty_iff]
  constructor
  · rintro ⟨⟨⟨named, nonempty⟩, others, distinct⟩, owned⟩
    refine ⟨named, nonempty, distinct, ?_, owned⟩
    intro name member
    obtain ⟨field, declared, rfl⟩ := List.mem_map.mp member
    exact (others field declared).2
  · intro formed
    refine ⟨⟨⟨formed.named, formed.nonempty⟩, ?_, formed.distinct⟩, formed.owned⟩
    intro field declared
    exact ⟨List.not_mem_nil, formed.unreserved _ (List.mem_map_of_mem declared)⟩

/-! ## Defaults -/

/-- Whether a value can be coerced does not depend on the instant. -/
theorem coerces_at {type : FieldType} {value coerced : Value}
    (done : type.coerce now value = .ok coerced) (other : Instant) :
    ∃ result, type.coerce other value = .ok result := by
  cases type with
  | string => exact ⟨_, done⟩
  | text => exact ⟨_, done⟩
  | number => exact ⟨_, done⟩
  | boolean => exact ⟨_, done⟩
  | date =>
      simp only [FieldType.coerce, Coercion.date] at done ⊢
      split
      · exact ⟨_, rfl⟩
      · next plain =>
          rw [if_neg plain] at done
          exact ⟨_, done⟩

theorem defaultProblem_eq_nil_iff {index : Nat} {field : Field} :
    defaultProblem now index field = .ok [] ↔ ∀ default, field.default = some default →
      ∃ coerced, field.type.coerce now (.text default) = .ok coerced := by
  rw [defaultProblem]
  cases given : field.default with
  | none => simp
  | some default =>
      simp only [Option.some.injEq, forall_eq']
      cases field.type.coerce now (.text default) with
      | ok coerced => simp
      | error error =>
          simp only [reduceCtorEq, exists_false, iff_false]
          cases error.outOfRange? <;> simp

theorem defaultProblemsFrom_eq_nil_iff {index : Nat} {fields : List Field} :
    defaultProblemsFrom now index fields = .ok [] ↔
      ∀ field ∈ fields, ∀ default, field.default = some default →
        ∃ coerced, field.type.coerce now (.text default) = .ok coerced := by
  induction fields generalizing index with
  | nil => simp [defaultProblemsFrom]
  | cons field rest ih =>
      rw [defaultProblemsFrom, List.forall_mem_cons, ← @defaultProblem_eq_nil_iff now index field,
        ← @ih (index + 1)]
      cases defaultProblem now index field with
      | error cause => simp [bind, Except.bind]
      | ok first =>
          cases defaultProblemsFrom now (index + 1) rest with
          | error cause => simp [bind, Except.bind]
          | ok others => simp [bind, Except.bind, pure, Except.pure]

/-- **The check reports nothing exactly when a definition is well formed and every default can be
coerced.** -/
theorem problems_eq_nil_iff : definition.problems now = .ok [] ↔
    WellFormed definition ∧ ∀ field ∈ definition.fields, ∀ default, field.default = some default →
      ∃ coerced, field.type.coerce now (.text default) = .ok coerced := by
  rw [problems, ← structuralProblems_eq_nil_iff, ← @defaultProblemsFrom_eq_nil_iff now 0]
  change _ ↔ _ ∧ definition.defaultProblems now = .ok []
  cases definition.defaultProblems now with
  | error cause => simp [Except.map]
  | ok found => simp [Except.map]

/-- **A definition without problems at one instant has none at any other.** -/
theorem problems_at (clean : definition.problems now = .ok []) (other : Instant) :
    definition.problems other = .ok [] := by
  obtain ⟨formed, coerces⟩ := problems_eq_nil_iff.mp clean
  refine problems_eq_nil_iff.mpr ⟨formed, fun field declared default given => ?_⟩
  obtain ⟨coerced, done⟩ := coerces field declared default given
  exact coerces_at done other

theorem wellFormed_of_problems (clean : definition.problems now = .ok []) :
    WellFormed definition :=
  (problems_eq_nil_iff.mp clean).1

/-- In a well formed definition a name belongs to one field. -/
theorem WellFormed.eq_of_name_eq (formed : WellFormed definition) {field other : Field}
    (declared : field ∈ definition.fields) (also : other ∈ definition.fields)
    (same : field.name = other.name) : field = other :=
  List.inj_on_of_nodup_map formed.distinct declared also same

end GovernedRecords.Definition
