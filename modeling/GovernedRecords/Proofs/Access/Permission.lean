import GovernedRecords.Access.Permission
import GovernedRecords.Proofs.Value.Texts

/-!
# What a permission means

An action is allowed only to a role that has it, and a change of a record that may have an
owner only to an administrator or to the owner that is known.
-/

set_option autoImplicit false

namespace GovernedRecords

namespace Definition

variable [Host] {definition : Definition} {principal : Principal} {action : Action} {owner : Value}

/-- An action is refused for the lack of a grant whatever the owner of the record. -/
theorem evaluate_eq_insufficient_iff :
    definition.evaluate principal (some action) owner = .denied .insufficientPermission ↔
      (definition.actionsFor principal.role).has action = false := by
  cases granted : (definition.actionsFor principal.role).has action with
  | false => simp [Definition.evaluate, granted]
  | true =>
      simp only [Definition.evaluate, granted, Bool.not_true, Bool.false_eq_true, if_false]
      repeat' split
      all_goals simp

theorem granted_of_allowed
    (allowed : definition.evaluate principal (some action) owner = .allowed) :
    (definition.actionsFor principal.role).has action = true := by
  cases granted : (definition.actionsFor principal.role).has action with
  | true => rfl
  | false =>
      rw [evaluate_eq_insufficient_iff.mpr granted] at allowed
      cases allowed

/-- Where a record may have an owner, a change of it is allowed to no one else. -/
theorem owner_of_allowed {field : Text} (mutating : action.isMutating = true)
    (owned : definition.owner? = some field) (member : principal.isAdmin = false)
    (allowed : definition.evaluate principal (some action) owner = .allowed) :
    owner.isNull = false ∧ owner.ReadsAs principal.id := by
  have granted := granted_of_allowed allowed
  simp only [evaluate, granted, mutating, owned, member, Bool.not_true, Bool.false_eq_true,
    if_false, Option.isNone_some] at allowed
  split at allowed
  · cases allowed
  · next known =>
    split at allowed
    · next same => exact ⟨by simpa using known, Value.sameText_eq_true_iff.mp same⟩
    · cases allowed
    · cases allowed

/-- A role that has an action may perform it on what belongs to the principal. -/
theorem allowed_of_owner (granted : (definition.actionsFor principal.role).has action = true)
    (known : owner.isNull = false) (same : owner.ReadsAs principal.id) :
    definition.evaluate principal (some action) owner = .allowed := by
  simp only [evaluate, granted, known, Value.sameText_eq_true_iff.mpr same, Bool.not_true,
    Bool.false_eq_true, if_false, ite_self]

/-- Where the verdict does not depend on the owner, it is the same for any other. -/
theorem evaluate_of_not_needsOwner
    (needless : definition.needsOwner principal (some action) = false) (other : Value) :
    definition.evaluate principal (some action) owner =
      definition.evaluate principal (some action) other := by
  unfold evaluate
  cases mutating : action.isMutating with
  | false => simp only [mutating, Bool.not_false, if_true]
  | true =>
      cases owned : definition.owner? with
      | none => simp only [Option.isNone_none, if_true]
      | some field =>
          have admin : principal.isAdmin = true := by
            simpa [needsOwner, mutating, owned] using needless
          simp only [admin, if_true]

omit [Host] in
theorem ownerField_of_owner? {field : Text} (owned : definition.owner? = some field) :
    definition.ownerField = some field := by
  rw [owner?, Option.filter_eq_some_iff] at owned
  exact owned.1

end Definition

/-- Notes with a title, which managers may create, read and, when they own them, update. -/
def noteDefinition : Definition where
  name := "note"
  fields := [⟨"title", .string, true, false, none, none⟩]
  grants := ⟨none, some ⟨true, true, true, false⟩, none⟩
  tableName := none
  ownerField := some "ownerId"
  createdAt := none
  updatedAt := none

example : noteDefinition.evaluate ⟨.text "u2", .text "Manager"⟩ (some .update) (.text "u1") =
    .denied .notOwner := rfl

end GovernedRecords
