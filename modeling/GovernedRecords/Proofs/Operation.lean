import GovernedRecords.Operation

/-!
# What operations do to a state

An operation is opened by running it on a state.  The lemmas here say what each way of
building an operation does there; they are simplification rules, so an operation written
as a block opens into a chain of cases.

A sequence that ends with a result went through a result of its first part
(`on_bind_eq_ok`), and a property of states that every part keeps is kept by the whole
(`Keeps`).
-/

set_option autoImplicit false

namespace GovernedRecords.Operation

variable {σ τ α β : Type}

@[simp] theorem on_of (effect : σ → Except Fault α × σ) (state : σ) :
    (of effect).on state = effect state := rfl

@[simp] theorem on_pure (value : α) (state : σ) :
    (pure value : Operation σ α).on state = (.ok value, state) := rfl

@[simp] theorem on_throw (fault : Fault) (state : σ) :
    (throw fault : Operation σ α).on state = (.error fault, state) := rfl

@[simp] theorem on_fail (fault : Fault) (state : σ) :
    (fail fault : Operation σ α).on state = (.error fault, state) := rfl

@[simp] theorem on_refuse (refusal : Refusal) (state : σ) :
    (refuse refusal : Operation σ α).on state = (.error (.refused refusal), state) := rfl

@[simp] theorem on_get (state : σ) : (get : Operation σ σ).on state = (.ok state, state) := rfl

@[simp] theorem on_modify (step : σ → σ) (state : σ) :
    (modify step : Operation σ PUnit).on state = (.ok ⟨⟩, step state) := rfl

@[simp] theorem on_ofExcept (result : Except Fault α) (state : σ) :
    (ofExcept result : Operation σ α).on state = (result, state) := by
  cases result <;> rfl

@[simp] theorem on_attempt (operation : Operation σ α) (state : σ) :
    operation.attempt.on state = (.ok (operation.on state).1, (operation.on state).2) := rfl

@[simp] theorem on_within (part : τ → σ) (replace : τ → σ → τ) (operation : Operation σ α)
    (whole : τ) :
    (within part replace operation).on whole =
      ((operation.on (part whole)).1, replace whole (operation.on (part whole)).2) := rfl

@[simp] theorem on_onFirst (operation : Operation σ α) (pair : σ × τ) :
    operation.onFirst.on pair = ((operation.on pair.1).1, ((operation.on pair.1).2, pair.2)) := rfl

@[simp] theorem on_onSecond (operation : Operation τ α) (pair : σ × τ) :
    operation.onSecond.on pair = ((operation.on pair.2).1, (pair.1, (operation.on pair.2).2)) := rfl

@[simp] theorem mapError_ok {ε δ : Type} (change : ε → δ) (value : α) :
    (Except.ok value : Except ε α).mapError change = .ok value := rfl

@[simp] theorem mapError_error {ε δ : Type} (change : ε → δ) (error : ε) :
    (Except.error error : Except ε α).mapError change = .error (change error) := rfl

/-- A sequence runs its second part on what the first one leaves, unless that ended with a
fault. -/
theorem on_bind (first : Operation σ α) (next : α → Operation σ β) (state : σ) :
    (first >>= next).on state =
      match first.on state with
      | (.ok value, after) => (next value).on after
      | (.error fault, after) => (.error fault, after) := by
  unfold on ExceptT.run StateT.run
  simp only [bind, ExceptT.bind, ExceptT.mk, StateT.bind, ExceptT.bindCont]
  cases first state with
  | mk result after => cases result <;> rfl

theorem on_bind_of_ok {first : Operation σ α} {next : α → Operation σ β} {state after : σ}
    {value : α} (done : first.on state = (.ok value, after)) :
    (first >>= next).on state = (next value).on after := by
  rw [on_bind, done]

theorem on_bind_of_error {first : Operation σ α} {next : α → Operation σ β} {state after : σ}
    {fault : Fault} (failed : first.on state = (.error fault, after)) :
    (first >>= next).on state = (.error fault, after) := by
  rw [on_bind, failed]

/-- A sequence has a result exactly when its first part has one and its second part has
that result after it. -/
theorem on_bind_eq_ok {first : Operation σ α} {next : α → Operation σ β} {state after : σ}
    {result : β} :
    (first >>= next).on state = (.ok result, after) ↔
      ∃ value between, first.on state = (.ok value, between) ∧
        (next value).on between = (.ok result, after) := by
  rw [on_bind]
  cases opened : first.on state with
  | mk outcome between =>
      cases outcome with
      | error fault => simp
      | ok value =>
          constructor
          · intro done
            exact ⟨value, between, rfl, done⟩
          · rintro ⟨_, _, same, done⟩
            cases same
            exact done

@[simp] theorem on_map (change : α → β) (operation : Operation σ α) (state : σ) :
    (change <$> operation).on state =
      ((operation.on state).1.map change, (operation.on state).2) := by
  have mapped : (change <$> operation) = operation >>= fun value => pure (change value) :=
    (bind_pure_comp change operation).symm
  rw [mapped, on_bind]
  cases operation.on state with
  | mk result after => cases result <;> rfl

theorem on_map_eq_error {change : α → β} {operation : Operation σ α} {state after : σ}
    {fault : Fault} :
    (change <$> operation).on state = (.error fault, after) ↔
      operation.on state = (.error fault, after) := by
  rw [on_map]
  cases operation.on state with
  | mk result left => cases result <;> simp [Except.map]

/-- Every run of an operation keeps a property of the state, however it ends, and its result
has a property of its own. -/
def Ensures (holds : σ → Prop) (operation : Operation σ α) (returns : α → Prop) : Prop :=
  ∀ state, holds state →
    holds (operation.on state).2 ∧ ∀ value, (operation.on state).1 = .ok value → returns value

/-- Every run of an operation keeps a property of the state, however it ends. -/
abbrev Keeps (holds : σ → Prop) (operation : Operation σ α) : Prop :=
  Ensures holds operation fun _ => True

namespace Ensures

variable {holds : σ → Prop}

theorem bind {first : Operation σ α} {next : α → Operation σ β} {middle : α → Prop}
    {returns : β → Prop} (kept : Ensures holds first middle)
    (later : ∀ value, middle value → Ensures holds (next value) returns) :
    Ensures holds (first >>= next) returns := by
  intro state before
  obtain ⟨between, given⟩ := kept state before
  rw [on_bind]
  cases opened : first.on state with
  | mk result after =>
      rw [opened] at between given
      cases result with
      | ok value => exact later value (given value rfl) after between
      | error fault =>
          refine ⟨between, ?_⟩
          intro value ended
          cases ended

theorem weaken {operation : Operation σ α} {returns weaker : α → Prop}
    (kept : Ensures holds operation returns) (implied : ∀ value, returns value → weaker value) :
    Ensures holds operation weaker :=
  fun state before => ⟨(kept state before).1,
    fun value ended => implied value ((kept state before).2 value ended)⟩

theorem pure {value : α} {returns : α → Prop} (given : returns value) :
    Ensures holds (Pure.pure value : Operation σ α) returns := by
  intro state before
  refine ⟨before, ?_⟩
  intro result ended
  cases ended
  exact given

theorem fail (fault : Fault) (returns : α → Prop) :
    Ensures holds (Operation.fail fault : Operation σ α) returns := by
  intro state before
  refine ⟨before, ?_⟩
  intro result ended
  cases ended

theorem refuse (refusal : Refusal) (returns : α → Prop) :
    Ensures holds (Operation.refuse refusal : Operation σ α) returns := by
  intro state before
  refine ⟨before, ?_⟩
  intro result ended
  cases ended

theorem ofExcept {result : Except Fault α} {returns : α → Prop}
    (given : ∀ value, result = .ok value → returns value) :
    Ensures holds (Operation.ofExcept result : Operation σ α) returns := by
  intro state before
  rw [on_ofExcept]
  exact ⟨before, given⟩

theorem keepsOfExcept (result : Except Fault α) :
    Keeps holds (Operation.ofExcept result : Operation σ α) :=
  .ofExcept fun _ _ => trivial

theorem get {returns : σ → Prop} (given : ∀ state, holds state → returns state) :
    Ensures holds (MonadState.get : Operation σ σ) returns := by
  intro state before
  refine ⟨before, ?_⟩
  intro result ended
  cases ended
  exact given state before

theorem mapTo {operation : Operation σ α} {change : α → β} {returns : α → Prop} {mapped : β → Prop}
    (kept : Ensures holds operation returns)
    (implied : ∀ value, returns value → mapped (change value)) :
    Ensures holds (change <$> operation) mapped := by
  intro state before
  obtain ⟨after, given⟩ := kept state before
  rw [on_map]
  refine ⟨after, ?_⟩
  intro result ended
  cases opened : (operation.on state).1 with
  | error fault =>
      rw [opened] at ended
      cases ended
  | ok value =>
      rw [opened] at ended
      cases ended
      exact implied value (given value opened)

theorem map {operation : Operation σ α} (change : α → β) {returns : α → Prop}
    (kept : Ensures holds operation returns) : Keeps holds (change <$> operation) :=
  kept.mapTo fun _ _ => trivial

/-- Where every result has a property, nothing is asked of what it is made from. -/
theorem mapAll {operation : Operation σ α} {change : α → β} {mapped : β → Prop}
    (kept : Keeps holds operation) (all : ∀ value, mapped (change value)) :
    Ensures holds (change <$> operation) mapped :=
  kept.mapTo fun value _ => all value

theorem attempt {operation : Operation σ α} {returns : α → Prop}
    (kept : Ensures holds operation returns) :
    Ensures holds operation.attempt fun result =>
      ∀ value, result = .ok value → returns value := by
  intro state before
  refine ⟨(kept state before).1, ?_⟩
  intro result ended
  cases ended
  exact (kept state before).2

end Ensures

end GovernedRecords.Operation

namespace GovernedRecords

/-- Only a text is the text it is used as a key for. -/
theorem Value.asKey_eq_some {value : Value} {name : Text} :
    value.asKey = .ok (some name) ↔ value = .text name := by
  unfold asKey
  split
  · simp
  · split <;> simp_all

end GovernedRecords
