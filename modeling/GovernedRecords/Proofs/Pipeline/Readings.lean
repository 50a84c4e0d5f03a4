import GovernedRecords.Proofs.Pipeline.Passage

/-!
# The trail of a request and its readings of the cancel flag

The stages that a request enters follow one path, which its action fixes, and the cancel
flag is read once before each of them up to the call of the record store.

How often a flag is read shows in what depends on it: a run reads some first answers of a
flag when exactly the flags with these answers make the same run (`AnswersRead`).
-/

set_option autoImplicit false

namespace GovernedRecords

/-- A run reads the first answers of a flag: it is the same run under exactly those flags that
give the same ones. -/
def AnswersRead {β : Type} (run : (Nat → Bool) → β) (flag : Nat → Bool) (count : Nat) : Prop :=
  ∀ other, run other = run flag ↔ ∀ reading < count, other reading = flag reading

/-- The stages that a request with an action may enter, in their order. -/
def Stage.path (action : Option Action) : List Stage :=
  if action = some .create ∨ action = some .update then
    [.resolveModel, .authorize, .validatePayload, .execute, .respond]
  else [.resolveModel, .authorize, .execute, .respond]

namespace Run

variable [Host] {τ : Type} {resolve : Value → Operation τ Definition} {store : RecordStore τ}
  {now : Instant} {cancel other : Nat → Bool} {request : RecordRequest} {state after between : τ}
  {definition : Definition} {action : Action} {owner : Value} {trail : List Stage}
  {record : NormalizedRecord} {stage : Stage}

/-! ## The trail -/

omit [Host] in
theorem path_starts (named : Option Action) :
    [Stage.resolveModel, .authorize] <+: Stage.path named := by
  rw [Stage.path]
  split <;> simp

/-- A prepared action has come along the path up to its performance. -/
theorem path_of_prepared (prepared : Prepared now cancel request definition action trail record) :
    Stage.path (some action) = trail ++ [.execute, .respond] := by
  cases prepared with
  | validated writes => rw [Stage.path, if_pos (by simpa using writes)]; rfl
  | unwritten reads => rw [Stage.path, if_neg (by simpa using reads)]; rfl

theorem path_of_reached
    (reached : Reached resolve store now cancel request state stage after trail) :
    trail ++ [stage] <+: Stage.path (Action.ofValue? request.action) := by
  cases reached with
  | start => exact (List.prefix_append [Stage.resolveModel] [.authorize]).trans (path_starts _)
  | resolved => exact path_starts _
  | authorized admitted writes =>
      rw [admitted.named, Stage.path, if_pos (by simpa using writes)]
      simp
  | prepared admitted prepared =>
      rw [admitted.named, path_of_prepared prepared]
      simp

/-- The stages entered are a beginning of the path, and all of it when there is a response. -/
theorem trail_of_passage {result : Except Fault Response × Run τ}
    (passage : Passage resolve store now cancel request state result) :
    result.2.trail <+: Stage.path (Action.ofValue? request.action) ∧
      (∀ response, result.1 = .ok response →
        result.2.trail = Stage.path (Action.ofValue? request.action)) := by
  cases passage with
  | cancelled reached =>
      exact ⟨(List.prefix_append _ _).trans (path_of_reached reached),
        fun _ ended => by cases ended⟩
  | unresolved =>
      refine ⟨?_, fun _ ended => by cases ended⟩
      exact (List.prefix_append [Stage.resolveModel] [.authorize]).trans (path_starts _)
  | denied => exact ⟨path_starts _, fun _ ended => by cases ended⟩
  | invalid admitted writes =>
      refine ⟨?_, fun _ ended => by cases ended⟩
      rw [admitted.named, Stage.path, if_pos (by simpa using writes)]
      simp
  | failed admitted prepared =>
      refine ⟨?_, fun _ ended => by cases ended⟩
      rw [admitted.named, path_of_prepared prepared]
      simp
  | answered admitted prepared =>
      rw [admitted.named, path_of_prepared prepared]
      exact ⟨List.prefix_refl _, fun _ _ => rfl⟩

/-- A request that enters its last stage has an answer of the record store. -/
theorem answer_of_respond {result : Except Fault Response × Run τ}
    (passage : Passage resolve store now cancel request state result)
    (responded : Stage.respond ∈ result.2.trail) :
    ∃ action answer, result.1 = Response.ofAnswer action answer := by
  cases passage with
  | cancelled reached =>
      cases reached with
      | prepared _ prepared => cases prepared <;> simp at responded
      | _ => simp at responded
  | failed _ prepared => cases prepared <;> simp at responded
  | answered => exact ⟨_, _, rfl⟩
  | _ => simp at responded

/-! ## The readings -/

theorem Admitted.of_agree
    (admitted : Admitted resolve store cancel request state between after definition action owner)
    (agree : ∀ reading < 2, other reading = cancel reading) :
    Admitted resolve store other request state between after definition action owner :=
  { admitted with
    began := (agree 0 (by omega)).trans admitted.began
    went := (agree 1 (by omega)).trans admitted.went }

theorem Prepared.of_agree (prepared : Prepared now cancel request definition action trail record)
    (agree : ∀ reading < trail.length, other reading = cancel reading) :
    Prepared now other request definition action trail record := by
  cases prepared with
  | validated writes went valid =>
      exact .validated writes ((agree 2 (by simp)).trans went) valid
  | unwritten reads => exact .unwritten reads

theorem Prepared.two_le_length
    (prepared : Prepared now cancel request definition action trail record) :
    2 ≤ trail.length := by
  cases prepared <;> simp

theorem prepared_of_agree
    (admitted : Admitted resolve store cancel request state between after definition action owner)
    (prepared : Prepared now cancel request definition action trail record)
    (ready : cancel trail.length = false)
    (agree : ∀ reading < trail.length + 1, other reading = cancel reading) :
    Admitted resolve store other request state between after definition action owner ∧
      Prepared now other request definition action trail record ∧ other trail.length = false := by
  have two := prepared.two_le_length
  refine ⟨admitted.of_agree fun reading early => agree reading (by omega), ?_, ?_⟩
  · exact prepared.of_agree fun reading early => agree reading (by omega)
  · exact (agree _ (Nat.lt_succ_self _)).trans ready

theorem Reached.of_agree
    (reached : Reached resolve store now cancel request state stage after trail)
    (agree : ∀ reading < trail.length, other reading = cancel reading) :
    Reached resolve store now other request state stage after trail := by
  cases reached with
  | start => exact .start
  | resolved began resolved => exact .resolved ((agree 0 (by simp)).trans began) resolved
  | authorized admitted writes =>
      exact .authorized (admitted.of_agree agree) writes
  | prepared admitted prepared =>
      have two := prepared.two_le_length
      exact .prepared (admitted.of_agree fun reading early => agree reading (by omega))
        (prepared.of_agree agree)

/-- Nothing stopped a request before a stage it reached. -/
theorem Reached.not_stopped
    (reached : Reached resolve store now cancel request state stage after trail) :
    ∀ reading < trail.length, cancel reading = false := by
  cases reached with
  | start => simp
  | resolved began => simpa using began
  | authorized admitted =>
      intro reading early
      match reading, early with
      | 0, _ => exact admitted.began
      | 1, _ => exact admitted.went
  | prepared admitted prepared =>
      intro reading early
      cases prepared with
      | validated _ went =>
          match reading, early with
          | 0, _ => exact admitted.began
          | 1, _ => exact admitted.went
          | 2, _ => exact went
      | unwritten =>
          match reading, early with
          | 0, _ => exact admitted.began
          | 1, _ => exact admitted.went

/-- How many of the stages of a trail the flag was read before. -/
def entered (trail : List Stage) : Nat := (trail.filter (· ≠ .respond)).length

theorem entered_of_prepared
    (prepared : Prepared now cancel request definition action trail record) :
    entered (trail ++ [.execute]) = trail.length + 1 ∧
      entered (trail ++ [.execute, .respond]) = trail.length + 1 := by
  cases prepared <;> exact ⟨rfl, rfl⟩

/-- Nothing stopped a request before a stage it entered. -/
theorem not_stopped_of_passage {result : Except Fault Response × Run τ}
    (passage : Passage resolve store now cancel request state result) :
    ∀ reading < entered result.2.trail, cancel reading = false := by
  have ready : ∀ {between after definition action owner trail record},
      Admitted resolve store cancel request state between after definition action owner →
      Prepared now cancel request definition action trail record →
      cancel trail.length = false → ∀ reading < trail.length + 1, cancel reading = false := by
    intro between after definition action owner trail record admitted prepared ready reading early
    rcases Nat.lt_succ_iff_lt_or_eq.mp early with earlier | rfl
    · exact (Reached.prepared admitted prepared).not_stopped reading earlier
    · exact ready
  cases passage with
  | cancelled reached =>
      exact fun reading early => reached.not_stopped reading
        (Nat.lt_of_lt_of_le early (List.length_filter_le _ _))
  | unresolved began =>
      intro reading early
      match reading, early with
      | 0, _ => exact began
  | denied began _ went =>
      intro reading early
      match reading, early with
      | 0, _ => exact began
      | 1, _ => exact went
  | invalid admitted _ went =>
      intro reading early
      match reading, early with
      | 0, _ => exact admitted.began
      | 1, _ => exact admitted.went
      | 2, _ => exact went
  | failed admitted prepared went =>
      rw [(entered_of_prepared prepared).1]
      exact ready admitted prepared went
  | answered admitted prepared went =>
      rw [(entered_of_prepared prepared).2]
      exact ready admitted prepared went

/-- A flag is read before every stage of the trail, and not again, by a request that takes
the same way whenever these answers are the same. -/
theorem answersRead_of_passage {result : Except Fault Response × Run τ} {count : Nat}
    (passage : Passage resolve store now cancel request state result)
    (counted : entered result.2.trail = count)
    (again : ∀ other, (∀ reading < count, other reading = cancel reading) →
      Passage resolve store now other request state result) :
    AnswersRead (fun flag => (stages resolve store now flag request).on ⟨state, []⟩) cancel
      count := by
  subst counted
  intro other
  have ended := stages_eq_of_passage passage
  constructor
  · intro same reading early
    have passed := not_stopped_of_passage (stages_eq_iff_passage.mp (same.trans ended))
    rw [passed reading early, not_stopped_of_passage passage reading early]
  · intro agree
    exact (stages_eq_of_passage (again other agree)).trans ended.symm

theorem entered_of_reached
    (reached : Reached resolve store now cancel request state stage after trail) :
    entered trail = trail.length := by
  cases reached with
  | prepared _ prepared => cases prepared <;> rfl
  | _ => rfl

theorem Reached.execute_not_mem
    (reached : Reached resolve store now cancel request state stage after trail) :
    Stage.execute ∉ trail := by
  cases reached with
  | prepared _ prepared => cases prepared <;> simp
  | _ => simp

/-- The owner that is read is decided by the record store. -/
theorem authorized_of_admitted
    (admitted : Admitted resolve store cancel request state between after definition action owner) :
    (authorize store definition request (Action.ofValue? request.action)).on
      ⟨between, [.resolveModel, .authorize]⟩ = (.ok (), ⟨after, [.resolveModel, .authorize]⟩) := by
  rw [admitted.named]
  exact authorize_eq_ok_iff.mpr ⟨owner, admitted.read, admitted.judged, rfl⟩

/-- A request that reached a stage ends there only if it is stopped there. -/
theorem stopped_of_passage {result : Except Fault Response × Run τ}
    (reached : Reached resolve store now cancel request state stage after trail)
    (passage : Passage resolve store now other request state result)
    (ended : result.2 = ⟨after, trail⟩) : other trail.length = true := by
  cases passage with
  | cancelled _ stopped =>
      cases ended
      exact stopped
  | unresolved began unresolved =>
      cases ended
      cases reached with
      | resolved _ resolved =>
          rw [resolved] at unresolved
          cases unresolved
      | prepared _ prepared => cases prepared
  | denied began resolved went refused =>
      cases ended
      have admitted : ∃ cancel between definition action owner,
          Admitted resolve store cancel request state between after definition action owner := by
        cases reached with
        | authorized admitted => exact ⟨_, _, _, _, _, admitted⟩
        | prepared admitted => exact ⟨_, _, _, _, _, admitted⟩
      obtain ⟨_, _, _, _, _, admitted⟩ := admitted
      cases resolved.symm.trans admitted.resolved
      cases refused.symm.trans (authorized_of_admitted admitted)
  | invalid admitted writes went invalid =>
      cases ended
      cases reached with
      | prepared before prepared =>
          cases prepared with
          | validated _ _ valid =>
              cases admitted.resolved.symm.trans before.resolved
              cases admitted.named.symm.trans before.named
              cases invalid.symm.trans valid
  | failed =>
      cases ended
      exact absurd (by simp) reached.execute_not_mem
  | answered =>
      cases ended
      exact absurd (by simp) reached.execute_not_mem

/-- **A request reads the flag before every stage up to the call of the record store.**  It
reads some number of answers; when one of them stops it, it ends before a stage it reached. -/
theorem readings_of_passage {result : Except Fault Response × Run τ}
    (passage : Passage resolve store now cancel request state result) :
    ∃ count,
      AnswersRead (fun flag => (stages resolve store now flag request).on ⟨state, []⟩) cancel
        count ∧
      ((∃ reading < count, cancel reading = true) → ∃ stage after trail,
        Reached resolve store now cancel request state stage after trail ∧
          result = (.error (.refused (Run.cancelled stage)), ⟨after, trail⟩)) := by
  have unstopped : ∀ count, entered result.2.trail = count →
      (∃ reading < count, cancel reading = true) →
      ∃ stage after trail, Reached resolve store now cancel request state stage after trail ∧
        result = (.error (.refused (Run.cancelled stage)), ⟨after, trail⟩) := by
    rintro _ rfl ⟨reading, early, stopped⟩
    rw [not_stopped_of_passage passage reading early] at stopped
    cases stopped
  cases passage with
  | @cancelled stage after trail reached stopped =>
      refine ⟨trail.length + 1, ?_, fun _ => ⟨stage, after, trail, reached, rfl⟩⟩
      intro other
      have ended := stages_eq_of_passage (.cancelled reached stopped)
      constructor
      · intro same reading early
        have passage := stages_eq_iff_passage.mp (same.trans ended)
        rcases Nat.lt_succ_iff_lt_or_eq.mp early with earlier | rfl
        · have passed : reading < entered trail := entered_of_reached reached ▸ earlier
          rw [not_stopped_of_passage passage reading passed, reached.not_stopped reading earlier]
        · rw [stopped, stopped_of_passage reached passage rfl]
      · intro agree
        refine (stages_eq_of_passage
          (.cancelled (reached.of_agree fun reading early => ?_) ?_)).trans ended.symm
        · exact agree reading (Nat.lt_succ_of_lt early)
        · exact (agree _ (Nat.lt_succ_self _)).trans stopped
  | unresolved began unresolved =>
      refine ⟨1, answersRead_of_passage (.unresolved began unresolved) rfl ?_, unstopped 1 rfl⟩
      intro other agree
      exact .unresolved ((agree 0 (by decide)).trans began) unresolved
  | denied began resolved went refused =>
      refine ⟨2, answersRead_of_passage (.denied began resolved went refused) rfl ?_,
        unstopped 2 rfl⟩
      intro other agree
      exact .denied ((agree 0 (by decide)).trans began) resolved
        ((agree 1 (by decide)).trans went) refused
  | invalid admitted writes went invalid =>
      refine ⟨3, answersRead_of_passage (.invalid admitted writes went invalid) rfl ?_,
        unstopped 3 rfl⟩
      intro other agree
      exact .invalid (admitted.of_agree fun reading early => agree reading (by omega)) writes
        ((agree 2 (by decide)).trans went) invalid
  | failed admitted prepared ready failed =>
      have counted := (entered_of_prepared prepared).1
      refine ⟨_, answersRead_of_passage (.failed admitted prepared ready failed) counted ?_,
        unstopped _ counted⟩
      intro other agree
      obtain ⟨first, second, third⟩ := prepared_of_agree admitted prepared ready agree
      exact .failed first second third failed
  | answered admitted prepared ready answered =>
      have counted := (entered_of_prepared prepared).2
      refine ⟨_, answersRead_of_passage (.answered admitted prepared ready answered) counted ?_,
        unstopped _ counted⟩
      intro other agree
      obtain ⟨first, second, third⟩ := prepared_of_agree admitted prepared ready agree
      exact .answered first second third answered

end Run

end GovernedRecords
