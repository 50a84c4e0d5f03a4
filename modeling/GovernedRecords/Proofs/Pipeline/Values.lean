import GovernedRecords.Pipeline.Run
import GovernedRecords.Proofs.Validation.Payload
import GovernedRecords.Proofs.Value.Texts

/-!
# The values of a request

The values that a request stores are put one after another: one for each field that has an
outcome, then the owner that the payload names, then the principal.  Whatever no entry has to
begin with and each of these three keeps holds of the values (`validated_induction`); no key
occurs twice in them, for one.  There are no values where the owner in the payload has no text.
-/

set_option autoImplicit false

namespace GovernedRecords.Run

variable [Host] {now : Instant} {definition : Definition} {request : RecordRequest}
  {action : Action} {record : NormalizedRecord}

/-- The mode in which the payload for an action is validated. -/
def modeOf (action : Action) : Mode := if action = .create then .create else .update

theorem keepOwner_induction {holds : Entries → Prop} {payload : Value} {values kept : Entries}
    (done : keepOwner definition payload values = .ok kept) (start : holds values)
    (owner : ∀ entries name text, definition.owner? = some name →
      (payloadOwner definition payload).toText = .ok text → holds entries →
        holds (Entries.put name (.text text) entries)) : holds kept := by
  unfold keepOwner at done
  cases owned : definition.owner? with
  | none =>
      rw [owned] at done
      cases done
      exact start
  | some field =>
      rw [owned] at done
      dsimp only at done
      split at done
      · cases shown : (payloadOwner definition payload).toText with
        | error error =>
            rw [shown] at done
            cases done
        | ok text =>
            rw [shown] at done
            cases done
            exact owner _ _ _ owned shown start
      · cases done
        exact start

omit [Host] in
theorem stampOwner_induction {holds : Entries → Prop} {values : Entries} {principal : Principal}
    (action : Action) (start : holds values)
    (stamp : ∀ entries name, definition.owner? = some name → holds entries →
      holds (Entries.put name principal.id entries)) :
    holds (stampOwner definition principal action values) := by
  unfold stampOwner
  cases owned : definition.owner? with
  | none => exact start
  | some field =>
      simp only
      split
      · exact stamp _ _ owned start
      · exact start

/-- A valid request has a payload with entries and an owner that can be kept, and its unique
fields are those of the definition. -/
theorem validated_eq_ok (valid : validated now definition request action = .ok record) :
    ∃ entries outcomes kept, request.payload = .object entries ∧
      Validation.fieldOutcomes now (modeOf action) entries definition.fields = .ok outcomes ∧
      record.uniqueFields = definition.uniqueFields ∧
      keepOwner definition request.payload (Validation.values outcomes) = .ok kept ∧
      record.values = stampOwner definition request.principal action kept := by
  unfold validated at valid
  split at valid
  · cases valid
  · cases valid
  · next normal checked =>
      obtain ⟨entries, outcomes, payload, done, -, rfl⟩ := Validation.validate_eq_valid checked
      split at valid
      · cases valid
      · next kept keeps =>
          cases valid
          exact ⟨entries, outcomes, kept, payload, done, rfl, keeps, rfl⟩

/-- What holds of no entries, and is kept by the value of every field, by the text of the owner in
the payload and by the principal, holds of the values of a valid request. -/
theorem validated_induction (holds : Entries → Prop)
    (valid : validated now definition request action = .ok record) (start : holds [])
    (field : ∀ given entries field value, request.payload = .object given →
      field ∈ definition.fields →
      Validation.fieldOutcome now (modeOf action) given field = .ok (.value value) →
      holds entries → holds (Entries.put field.name value entries))
    (owner : ∀ entries name text, definition.owner? = some name →
      (payloadOwner definition request.payload).toText = .ok text → holds entries →
        holds (Entries.put name (.text text) entries))
    (stamp : ∀ entries name, definition.owner? = some name → holds entries →
      holds (Entries.put name request.principal.id entries)) : holds record.values := by
  obtain ⟨given, outcomes, kept, payload, done, -, keeps, values⟩ := validated_eq_ok valid
  obtain ⟨names, each⟩ := Validation.fieldOutcomes_eq_ok done
  rw [values]
  refine stampOwner_induction action (keepOwner_induction keeps ?_ owner) stamp
  refine Validation.putOutcomes_induction holds start fun entries outcome value member kept => ?_
  exact field given entries outcome value payload (names ▸ List.mem_map_of_mem member)
    (each _ member) kept

/-- No key occurs twice in the values of a valid request. -/
theorem nodup_validated (valid : validated now definition request action = .ok record) :
    (record.values.map Prod.fst).Nodup :=
  validated_induction (fun entries => (entries.map Prod.fst).Nodup) valid List.nodup_nil
    (fun _ _ _ _ _ _ _ distinct => Entries.nodup_keys_put _ _ distinct)
    (fun _ _ _ _ _ distinct => Entries.nodup_keys_put _ _ distinct)
    (fun _ _ _ distinct => Entries.nodup_keys_put _ _ distinct)

end GovernedRecords.Run
