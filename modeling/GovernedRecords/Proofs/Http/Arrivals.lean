import GovernedRecords.Proofs.Http.Administrators
import GovernedRecords.Proofs.Registry.History
import Mathlib.Data.List.Induction

/-!
# Requests one after another

A service is used through requests that come in one after another, each at its moment and with
what is known of whose it is.  What a request does is what the handler does that it leads to, and a
request that leads nowhere does nothing (`leaves_of_leadsTo`, `leaves_of_not_leadsTo`).

Whatever comes in, no history loses an entry, and every history can still be shown: only
administrators write into it, and what is recorded of them are texts (`goesOn_after`).
-/

set_option autoImplicit false

namespace GovernedRecords

open Operation

/-! ## Histories that go on -/

namespace Registry

variable [Host] {σ : Type} {before registry : Registry σ} {now : Instant}

/-- A registry whose histories go on from those of another one, and can all be shown. -/
structure GoesOn (before after : Registry σ) : Prop where
  recorded : ∀ name, before.historyOf name <:+ after.historyOf name
  shown : ∀ name, ∀ entry ∈ after.historyOf name, IsShown entry

theorem goesOn_ofStore (initial : σ) : GoesOn (ofStore initial) (ofStore initial) :=
  ⟨fun _ => List.suffix_rfl, fun _ => List.forall_mem_nil _⟩

theorem GoesOn.refl (goes : GoesOn before registry) : GoesOn registry registry :=
  ⟨fun _ => List.suffix_rfl, goes.shown⟩

theorem GoesOn.trans {after : Registry σ} (first : GoesOn before registry)
    (second : GoesOn registry after) : GoesOn before after :=
  ⟨fun name => (first.recorded name).trans (second.recorded name), second.shown⟩

theorem goesOn_ofHistories : OfHistories (GoesOn before) := by
  intro registry after same goes
  refine ⟨fun name => ?_, fun name => ?_⟩
  · rw [historyOf_congr same]
    exact goes.recorded name
  · rw [historyOf_congr same]
    exact goes.shown name

theorem GoesOn.record (goes : GoesOn before registry) (target : Text) (action : AuditAction)
    (hash : Option Text) {shown : Value}
    (fits : IsShown ⟨registry.entries + 1, target, action, hash, shown, now.stamp⟩) :
    GoesOn before (record now target action hash shown registry) := by
  refine ⟨fun name => ?_, fun name => ?_⟩
  all_goals rw [historyOf_record]; split
  · exact (goes.recorded name).trans (List.suffix_cons _ _)
  · exact goes.recorded name
  · exact List.forall_mem_cons.mpr ⟨fits, goes.shown name⟩
  · exact goes.shown name

end Registry

namespace Service

variable [Host] {σ : Type} {store : DefinitionStore σ} {service : Service σ}

/-! ## Requests -/

/-- A request as it comes in, with the moment, with what is known of whose it is, and with whether
its client has gone before the engine is asked. -/
structure Arrival where
  now : Instant
  identity : Identity
  request : HttpRequest
  gone : Bool

namespace Arrival

/-- What is left of a service by the answer to a request. -/
def leaves (store : DefinitionStore σ) (service : Service σ) (arrival : Arrival) : Service σ :=
  (answerTo store arrival.now arrival.identity arrival.request arrival.gone service).2

/-- A request that asks for something other than whether it may be sent, and leads there. -/
structure LeadsTo (arrival : Arrival) (resource : Resource) (verb : Verb) : Prop where
  asked : Preflight.ofRequest? arrival.request = none
  found : Destination.ofRequest arrival.request.method arrival.request.path = .found resource verb

/-- A request made by an administrator. -/
structure MadeBy (arrival : Arrival) (principal : Principal) : Prop where
  found : principal? arrival.identity arrival.request = .ok (some principal)
  admin : principal.isAdmin = true

variable {arrival : Arrival} {resource other : Resource} {verb another : Verb}

omit [Host] in
theorem LeadsTo.unique (led : arrival.LeadsTo resource verb)
    (also : arrival.LeadsTo other another) : resource = other ∧ verb = another := by
  have found := also.found
  rw [led.found] at found
  cases found
  exact ⟨rfl, rfl⟩

omit [Host] in
/-- A resource takes the verb of a request that leads to it. -/
theorem LeadsTo.takes (led : arrival.LeadsTo resource verb) : verb ∈ resource.verbs := by
  have found := led.found
  unfold Destination.ofRequest at found
  split at found
  · split at found
    · split at found
      · next taken =>
          cases found
          exact taken
      · cases found
    · cases found
  · split at found <;> cases found

end Arrival

/-- The service after some requests, one after another. -/
def after (store : DefinitionStore σ) (service : Service σ) (arrivals : List Arrival) :
    Service σ :=
  arrivals.foldl (Arrival.leaves store) service

variable {arrival : Arrival}

theorem after_snoc (service : Service σ) (arrivals : List Arrival) (arrival : Arrival) :
    after store service (arrivals ++ [arrival]) =
      arrival.leaves store (after store service arrivals) := by
  rw [after, List.foldl_append]
  rfl

theorem leaves_of_leadsTo {resource : Resource} {verb : Verb}
    (led : arrival.LeadsTo resource verb) :
    arrival.leaves store service =
      ((handle store arrival.now arrival.identity arrival.request arrival.gone resource verb).on
        service).2 := by
  rw [Arrival.leaves, answerTo, led.asked, response, led.found]
  dsimp only
  rw [respond, on_bind, on_attempt]
  dsimp only
  split <;> simp only [on_ofExcept, on_fail]

/-- A request that leads nowhere leaves a service as it is. -/
theorem leaves_of_not_leadsTo (nowhere : ∀ resource verb, ¬ arrival.LeadsTo resource verb) :
    arrival.leaves store service = service := by
  rw [Arrival.leaves, answerTo]
  cases asked : Preflight.ofRequest? arrival.request with
  | some question => rfl
  | none =>
      dsimp only
      rw [response]
      cases found : Destination.ofRequest arrival.request.method arrival.request.path with
      | found resource verb => exact absurd ⟨asked, found⟩ (nowhere resource verb)
      | wrongMethod => rw [on_ofExcept]
      | otherPath => rw [on_ofExcept]
      | nowhere => rw [on_ofExcept]

/-! ## What becomes of the histories -/

/-- A principal is known by a text. -/
theorem id_of_principal? {identity : Identity} {request : HttpRequest} {principal : Principal}
    (found : principal? identity request = .ok (some principal)) :
    ∃ known, principal.id = .text known := by
  unfold principal? at found
  split at found
  · cases found
    exact ⟨_, rfl⟩
  · split at found
    · split at found
      · dsimp only at found
        split at found
        · split at found <;> cases found
          exact ⟨_, rfl⟩
        · cases found
      · cases found
    · cases found

/-- What is recorded of an administrator are texts. -/
theorem nesting_actorOf {principal : Principal} (made : arrival.MadeBy principal) :
    (actorOf principal).nesting + 2 ≤ Host.copied := by
  obtain ⟨known, id⟩ := id_of_principal? made.found
  have admin := made.admin
  rw [Principal.isAdmin, decide_eq_true_eq, Role.ofValue?] at admin
  have role := List.find?_some admin
  rw [Value.isText_iff] at role
  have flat : (actorOf principal).nesting = 1 := by
    rw [actorOf, id, role]
    rfl
  rw [flat]
  exact Nat.le_trans (by decide) Host.room

theorem goesOn_record {before : Registry σ} {principal : Principal}
    (made : arrival.MadeBy principal) (name : Text) (action : AuditAction) (hash : Option Text)
    (shown : Value) (copied : Registry.shownActor (actorOf principal) = .ok shown)
    (registry : Registry σ) (goes : Registry.GoesOn before registry) :
    Registry.GoesOn before (Registry.record arrival.now name action hash shown registry) := by
  have nested := Registry.nesting_of_shownActor copied
  have fits := nesting_actorOf made
  refine goes.record name action hash ((Registry.isShown_iff _).mpr ?_)
  simp only
  omega

/-- Whoever it is, what it may change is recorded. -/
theorem permitted_goesOn (resource : Resource) (before : Registry σ) :
    Permitted store arrival.now arrival.identity arrival.request resource (Registry.GoesOn before)
      (fun _ => True) (fun _ => True) where
  loads _ _ := Registry.goesOn_ofHistories.keeps_load
  names _ _ := Registry.goesOn_ofHistories.storeFree.keeps_onStore _
  saves _ found admin := Registry.goesOn_ofHistories.keeps_save (goesOn_record ⟨found, admin⟩)
  deletes _ found admin :=
    Registry.goesOn_ofHistories.keeps_delete (goesOn_record ⟨found, admin⟩)
  drafts _ _ _ _ _ _ := fun _ _ => ⟨trivial, fun _ _ => trivial⟩
  engine _ _ _ := keeps_engine Registry.goesOn_ofHistories.keeps_load

/-- The histories of a service can be shown. -/
abbrev Shown (service : Service σ) : Prop :=
  Registry.GoesOn service.registry service.registry

/-- **A request leaves histories that go on** from those that could be shown before. -/
theorem goesOn_leaves (store : DefinitionStore σ) (arrival : Arrival) (shown : Shown service) :
    Registry.GoesOn service.registry (arrival.leaves store service).registry :=
  (holds_answer (fun resource _ _ => permitted_goesOn resource service.registry)
    ⟨shown, trivial, trivial⟩).registry

/-- **No request in a run loses an entry of a history**, and all histories can still be shown. -/
theorem goesOn_after (store : DefinitionStore σ) (arrivals : List Arrival) (shown : Shown service) :
    Registry.GoesOn service.registry (after store service arrivals).registry := by
  induction arrivals using List.reverseRecOn with
  | nil => exact shown
  | append_singleton arrivals arrival ih =>
      rw [after_snoc]
      exact ih.trans (goesOn_leaves store arrival ih.refl)

end Service

end GovernedRecords
