import GovernedRecords.Proofs.Schema.Columns
import GovernedRecords.Proofs.Validation.Limits

/-!
# Defaults that were checked never fail

Three places read the default of a field: the check before a definition is saved, the validation of
a payload that leaves the field open, and the statement that creates the table.  The check coerces
it at one instant and the others at later ones, but whether a text can be coerced does not depend on
the instant.  So a definition that had no problems once never has a problem with a default again
(`Definition.defaults_never_fail`): no field of a payload is reported for its default, validation
ends without a report only where the payload itself has a value beyond its type, and the statement
is always made.
-/

set_option autoImplicit false

namespace GovernedRecords

variable {now : Instant} {mode : Mode} {entries : Entries} {field : Field}

/-- The type of a field takes its default, if it has one. -/
def Field.TakesDefault (now : Instant) (field : Field) : Prop :=
  ∀ default, field.default = some default →
    ∃ coerced, field.type.coerce now (.text default) = .ok coerced

/-- A default that was taken at one instant is taken at any other. -/
theorem Field.TakesDefault.at (taken : field.TakesDefault now) (later : Instant) :
    field.TakesDefault later := by
  intro default given
  obtain ⟨coerced, done⟩ := taken default given
  exact Definition.coerces_at done later

/-- A default that is taken is not beyond its type. -/
theorem Field.TakesDefault.not_beyond (taken : field.TakesDefault now) {default : Text}
    (given : field.default = some default) : ¬ field.type.Beyond (.text default) := by
  intro beyond
  obtain ⟨coerced, done⟩ := taken default given
  obtain ⟨error, failed, -⟩ := (FieldType.beyond_iff now).mp beyond
  rw [failed] at done
  cases done

namespace Validation

/-- The code of the problem of a default that is not of its type. -/
def invalidDefault : Text := "INVALID_DEFAULT"

theorem eq_of_coerced {type : FieldType} {value : Value} {problem issue : Issue}
    (made : coerced now type value problem = .ok (.problem issue)) : issue = problem := by
  unfold coerced at made
  split at made
  · cases made
  · split at made <;> cases made
    rfl

/-- A field that is left open is not reported for a default that its type takes. -/
theorem code_of_filled (taken : field.TakesDefault now) {issue : Issue}
    (made : filled now field = .ok (.problem issue)) : issue.code ≠ invalidDefault := by
  have required : Text.ofString "MISSING_REQUIRED" ≠ invalidDefault := by decide
  unfold filled at made
  cases given : field.default with
  | some default =>
      obtain ⟨value, done⟩ := taken default given
      rw [given] at made
      simp only [coerced, done] at made
      cases made
  | none =>
      rw [given] at made
      dsimp only at made
      split at made
      · cases made
        exact required
      · split at made <;> cases made

/-- No field is reported for a default that its type takes. -/
theorem code_of_fieldOutcome (taken : field.TakesDefault now) {issue : Issue}
    (made : fieldOutcome now mode entries field = .ok (.problem issue)) :
    issue.code ≠ invalidDefault := by
  have mismatch : Text.ofString "TYPE_MISMATCH" ≠ invalidDefault := by decide
  have required : Text.ofString "MISSING_REQUIRED" ≠ invalidDefault := by decide
  unfold fieldOutcome at made
  split at made
  · next value named =>
      split at made
      · rw [eq_of_coerced made]
        exact mismatch
      · cases mode with
        | create => exact code_of_filled taken made
        | update =>
            simp only [cleared] at made
            split at made
            · cases made
              exact required
            · cases made
  · cases mode with
    | create => exact code_of_filled taken made
    | update => cases made

theorem mem_problems {outcomes : List (Field × FieldOutcome)} {issue : Issue} :
    issue ∈ problems outcomes ↔ ∃ field, (field, .problem issue) ∈ outcomes := by
  rw [problems, List.mem_filterMap]
  constructor
  · rintro ⟨⟨field, outcome⟩, member, shown⟩
    cases outcome with
    | problem other =>
        cases shown
        exact ⟨field, member⟩
    | absent => cases shown
    | value value => cases shown
  · rintro ⟨field, member⟩
    exact ⟨_, member, rfl⟩

/-- Where the types take the defaults, a value beyond its type that a field is asked to take is one
that the payload has. -/
theorem supplied_of_asked? (taken : field.TakesDefault now) {value : Value}
    (asked : asked? mode entries field = some value) (beyond : field.type.Beyond value) :
    Entries.get? entries field.name = some value ∧ value.isMissing = false := by
  have preset : preset? mode field ≠ some value := by
    intro preset
    cases mode with
    | update => cases preset
    | create =>
        obtain ⟨default, given, rfl⟩ := Option.map_eq_some_iff.mp preset
        exact taken.not_beyond given beyond
  unfold asked? at asked
  split at asked
  · next named =>
      split at asked
      · exact absurd asked preset
      · next present =>
          cases asked
          exact ⟨named, Bool.eq_false_iff.mpr present⟩
  · exact absurd asked preset

end Validation

namespace Definition

open Validation

variable {definition : Definition} {payload : Value}

theorem takesDefault_of_problems (clean : definition.problems now = .ok []) (later : Instant) :
    ∀ field ∈ definition.fields, field.TakesDefault later := by
  intro field declared
  have taken : field.TakesDefault now := (problems_eq_nil_iff.mp clean).2 field declared
  exact taken.at later

/-- Where the types of the fields take their defaults, no payload is reported for one. -/
theorem code_of_validate (taken : ∀ field ∈ definition.fields, field.TakesDefault now)
    {errors : List Issue} (found : definition.validate now payload mode = .ok (.invalid errors)) :
    ∀ issue ∈ errors, issue.code ≠ invalidDefault := by
  intro issue member
  cases payload with
  | object entries =>
      rw [validate_object] at found
      cases made : fieldOutcomes now mode entries definition.fields with
      | error cause =>
          rw [made] at found
          cases found
      | ok outcomes =>
          have reported : issue ∈ Validation.problems outcomes := by
            rw [made] at found
            simp only [Except.map, ofOutcomes, Except.ok.injEq] at found
            split at found
            · cases found
            · next listed =>
                cases found
                rw [listed]
                exact member
          obtain ⟨field, outcome⟩ := mem_problems.mp reported
          obtain ⟨fields, each⟩ := fieldOutcomes_eq_ok made
          have declared : field ∈ definition.fields := fields ▸ List.mem_map_of_mem outcome
          exact code_of_fieldOutcome (taken field declared) (each _ outcome)
  | _ =>
      cases found
      cases List.mem_singleton.mp member
      have payload : Text.ofString "INVALID_PAYLOAD" ≠ invalidDefault := by decide
      exact payload

/-- Where the types of the fields take their defaults, validation ends without a report only for a
value that the payload has. -/
theorem supplied_of_validate (taken : ∀ field ∈ definition.fields, field.TakesDefault now)
    {cause : OutOfRange} (ended : definition.validate now payload mode = .error cause) :
    ∃ entries, payload = .object entries ∧ ∃ field ∈ definition.fields, ∃ value,
      Entries.get? entries field.name = some value ∧ value.isMissing = false ∧
        field.type.Beyond value := by
  have unanswered : ¬ ∃ made, definition.validate now payload mode = .ok made := by
    rintro ⟨made, done⟩
    rw [ended] at done
    cases done
  rw [exists_validate_iff] at unanswered
  push Not at unanswered
  obtain ⟨entries, object, field, declared, value, asked, beyond⟩ := unanswered
  obtain ⟨named, present⟩ := supplied_of_asked? (taken field declared) asked beyond
  exact ⟨entries, object, field, declared, value, named, present, beyond⟩

/-- **A definition that had no problems once never fails on its defaults.**  At every instant and
for every payload, no problem is that of a default, and validation that ends without a report ends
for a value that the payload has; and the statement that creates the table is made. -/
theorem defaults_never_fail (clean : definition.problems now = .ok []) (later : Instant) :
    (∀ payload mode,
      (∀ errors, definition.validate later payload mode = .ok (.invalid errors) →
        ∀ issue ∈ errors, issue.code ≠ "INVALID_DEFAULT") ∧
      (∀ cause, definition.validate later payload mode = .error cause →
        ∃ entries, payload = .object entries ∧ ∃ field ∈ definition.fields, ∃ value,
          Entries.get? entries field.name = some value ∧ value.isMissing = false ∧
            field.type.Beyond value)) ∧
    ∃ statement, definition.tableStatement later = .ok statement := by
  have taken := takesDefault_of_problems clean later
  refine ⟨fun payload mode => ⟨fun errors found => ?_, fun cause ended => ?_⟩, ?_⟩
  · exact code_of_validate taken found
  · exact supplied_of_validate taken ended
  · obtain ⟨columns, made, -⟩ := tableStatement_eq clean later
    exact ⟨_, made⟩

/-- Tickets have a title, and defaults in words and digits of several scripts with blanks around
them. -/
def ticket : Definition where
  name := "ticket"
  fields := [⟨"title", .string, true, false, none, none⟩,
    ⟨"soldAt", .date, false, false, some "\u2003NoW\n", none⟩,
    ⟨"price", .number, true, false, some "\u0663.5e2 ", none⟩,
    ⟨"open", .boolean, false, false, some "\tTRUE", none⟩]
  grants := .empty
  tableName := none
  ownerField := none
  createdAt := none
  updatedAt := none

/-- A ticket without a title is refused in the first instant of all for its title alone, and there
is a statement for its table. -/
theorem ticket_defaults_taken :
    ticket.problems opening = .ok [] ∧
      (∃ issue, ticket.validate ⟨0, by decide⟩ (.object []) .create = .ok (.invalid [issue]) ∧
        issue.path = some "title" ∧ issue.code ≠ "INVALID_DEFAULT") ∧
      ∃ statement, ticket.tableStatement ⟨0, by decide⟩ = .ok statement := by
  have clean : ticket.problems opening = .ok [] := rfl
  obtain ⟨reported, made⟩ := defaults_never_fail clean ⟨0, by decide⟩
  have refused : ticket.validate ⟨0, by decide⟩ (.object []) .create =
      .ok (.invalid [.located "MISSING_REQUIRED" "Missing required field: title" "title"]) := rfl
  exact ⟨clean, ⟨_, refused, rfl, (reported _ _).1 _ refused _ List.mem_cons_self⟩, made⟩

end Definition

end GovernedRecords
