import GovernedRecords.Http.Service
import GovernedRecords.Proofs.Engine.Runs
import GovernedRecords.Proofs.Registry.Writes

/-!
# Who changes what through the service

Every handler of the service acts on the registry, the records and the drafts through a few
operations, each behind its own guard: reading behind a principal, saving, removing and drafts
behind an administrator, the engine behind the routes for records.  A property of each of the
three parts that is kept by the operations behind the guards that a request passes is kept by
the whole answer (`Permitted`, `holds_answer`).

From this, what changes is read off the guards alone (`only_administrators_change`).  Without an
administrator the stored documents, the histories and the drafts stay as they are, although the
registry may fill its cache; without a principal nothing changes at all; and only the routes for
records change records.
-/

set_option autoImplicit false

namespace GovernedRecords

open Operation

/-- Whether a resource is one of the routes for records. -/
def Resource.isRecords : Resource → Bool
  | .records _ => true
  | .record _ _ => true
  | _ => false

/-- Whether a resource is one of the routes that may change drafts. -/
def Resource.isDrafts : Resource → Bool
  | .draft _ => true
  | .publication _ => true
  | _ => false

namespace Registry

variable {σ : Type} {store : DefinitionStore σ}
  {content : σ → Text → Except Fault (Option Value)} {before after : Registry σ}

/-- Two registries that may differ in their caches. -/
structure SameButCache (before after : Registry σ) : Prop where
  store : after.store = before.store
  histories : after.histories = before.histories
  entries : after.entries = before.entries

theorem SameButCache.keep (same : SameButCache before after) (name : Text)
    (definition : Definition) : SameButCache before (after.keep name definition) :=
  ⟨same.store, same.histories, same.entries⟩

/-- Loading fills the cache and does nothing else. -/
theorem sameButCache_load [Host] (reads : store.ReadsAs content) (now : Instant) (name : Text) :
    Keeps (SameButCache before) (load store now name) := by
  intro registry same
  refine ⟨?_, fun _ _ => trivial⟩
  rw [on_load reads]
  cases Keyed.get? registry.cache name with
  | some definition => exact same
  | none =>
      dsimp only
      cases loadOf now name (content registry.store name) with
      | error fault => exact same
      | ok definition => exact same.keep name definition

end Registry

namespace Service

variable [Host] {σ α : Type} {store : DefinitionStore σ} {now : Instant} {identity : Identity}
  {request : HttpRequest} {gone : Bool} {name : Text} {principal : Principal}

/-! ## The parts of a service -/

/-- Each of the three parts of a service has a property. -/
structure Holds (ofRegistry : Registry σ → Prop) (ofRecords : MemoryRecords → Prop)
    (ofDrafts : Drafts → Prop) (service : Service σ) : Prop where
  registry : ofRegistry service.registry
  records : ofRecords service.records
  drafts : ofDrafts service.drafts

section Handlers

variable {ofRegistry : Registry σ → Prop} {ofRecords : MemoryRecords → Prop}
  {ofDrafts : Drafts → Prop}

omit [Host] in
theorem keeps_onRegistry {operation : Operation (Registry σ) α}
    (kept : Keeps ofRegistry operation) :
    Keeps (Holds ofRegistry ofRecords ofDrafts) (onRegistry operation) := by
  intro service held
  exact ⟨⟨(kept _ held.registry).1, held.records, held.drafts⟩, fun _ _ => trivial⟩

omit [Host] in
theorem keeps_onDrafts {operation : Operation Drafts α} (kept : Keeps ofDrafts operation) :
    Keeps (Holds ofRegistry ofRecords ofDrafts) (onDrafts operation) := by
  intro service held
  exact ⟨⟨held.registry, held.records, (kept _ held.drafts).1⟩, fun _ _ => trivial⟩

omit [Host] in
theorem keeps_onEngine {operation : Operation (Registry σ × MemoryRecords) α}
    (kept : Keeps (fun pair => ofRegistry pair.1 ∧ ofRecords pair.2) operation) :
    Keeps (Holds ofRegistry ofRecords ofDrafts) (onEngine operation) := by
  intro service held
  obtain ⟨⟨registry, records⟩, -⟩ :=
    kept (service.registry, service.records) ⟨held.registry, held.records⟩
  exact ⟨⟨registry, records, held.drafts⟩, fun _ _ => trivial⟩

/-! ## Guards -/

section Guards

variable {holds : Service σ → Prop}

theorem keeps_withPrincipal {run : Principal → Serving σ Reply}
    (kept : ∀ principal, principal? identity request = .ok (some principal) →
      Keeps holds (run principal)) :
    Keeps holds (withPrincipal identity request run) := by
  refine (Ensures.ofExcept fun found read => read).bind ?_
  intro found read
  cases found with
  | some principal => exact kept principal read
  | none => exact .pure trivial

theorem keeps_withAdmin {run : Principal → Serving σ Reply}
    (kept : ∀ principal, principal? identity request = .ok (some principal) →
      principal.isAdmin = true → Keeps holds (run principal)) :
    Keeps holds (withAdmin identity request run) := by
  apply keeps_withPrincipal
  intro principal found
  split
  · next admin => exact kept principal found admin
  · exact .pure trivial

theorem keeps_withEntries {refused : Reply} {run : Entries → Serving σ Reply}
    (kept : ∀ entries, Keeps holds (run entries)) :
    Keeps holds (withEntries request refused run) := by
  refine (Ensures.keepsOfExcept _).bind ?_
  intro body _
  split
  · exact kept _
  · exact .pure trivial

omit [Host] in
theorem keeps_withName {run : Serving σ Reply} (kept : Keeps holds run) :
    Keeps holds (withName name run) := by
  unfold withName
  split
  · exact kept
  · exact .pure trivial

theorem keeps_replyOf (definition : Definition) :
    Keeps holds (replyOf definition : Serving σ Reply) :=
  (Ensures.keepsOfExcept _).bind fun _ _ => .pure trivial

omit [Host] in
theorem keeps_respond {handler : Serving σ Reply} (kept : Keeps holds handler) :
    Keeps holds (respond handler) := by
  refine kept.attempt.bind ?_
  intro result _
  split
  · exact .keepsOfExcept _
  · exact .keepsOfExcept _
  · exact .fail _ _

end Guards

/-! ## Reading -/

section Reading

variable (loads : ∀ name, Keeps ofRegistry (Registry.load store now name))
include loads

theorem keeps_listModels (names : Keeps ofRegistry (Registry.onStore store.names)) :
    Keeps (Holds ofRegistry ofRecords ofDrafts) (listModels store now) := by
  refine (keeps_onRegistry (names.bind fun found _ => Registry.keeps_loadAll loads found)).bind ?_
  intro definitions _
  exact (Ensures.keepsOfExcept _).bind fun _ _ => .pure trivial

theorem keeps_schema : Keeps ofRegistry (Engine.schema store now (.text name)) := by
  refine (Registry.keeps_loadValue loads _).bind ?_
  intro definition _
  split
  · exact .pure trivial
  · exact .fail _ _

theorem keeps_authorize :
    Keeps (Holds ofRegistry ofRecords ofDrafts) (authorize store now name request principal) := by
  apply keeps_withEntries
  intro entries
  have kept : Keeps ofRegistry (Engine.authorize store now (.text name) principal
      (Entries.get entries "action") (Entries.get entries "owner_value")) := by
    refine (Registry.keeps_loadValue loads _).bind ?_
    intro definition _
    split
    · exact .fail _ _
    · exact .pure trivial
  exact (keeps_onRegistry kept).bind fun _ _ => .pure trivial

theorem keeps_validate :
    Keeps (Holds ofRegistry ofRecords ofDrafts) (validate store now name request) := by
  apply keeps_withEntries
  intro entries
  have kept : ∀ payload mode, Keeps ofRegistry
      (Engine.validate store now (.text name) payload mode) := by
    intro payload mode
    refine (Registry.keeps_loadValue loads _).bind ?_
    intro definition _
    refine (Ensures.keepsOfExcept _).bind ?_
    intro mode _
    split
    · exact .pure trivial
    · exact .fail _ _
  dsimp only
  generalize (if (Entries.get entries "mode").isTruthy = true then Entries.get entries "mode"
    else .text Mode.create.name) = mode
  split
  · exact .pure trivial
  · refine (keeps_onRegistry (kept _ _)).bind ?_
    intro validation _
    cases validation with
    | invalid errors => exact .pure trivial
    | valid record => exact .pure trivial

end Reading

theorem keeps_history : Keeps ofRegistry (Registry.history name) := by
  refine (Ensures.get fun _ held => held).bind ?_
  intro registry _
  exact (Ensures.keepsOfExcept _).bind fun _ _ => .pure trivial

/-! ## Changing -/

section Saving

variable (saves : ∀ definition,
  Keeps ofRegistry (Registry.save store now definition (actorOf principal)))
include saves

theorem keeps_saveDocument (document : Value) :
    Keeps ofRegistry (Engine.saveDocument store now document (actorOf principal)) :=
  (Ensures.keepsOfExcept _).bind fun definition _ => saves definition

theorem keeps_saveModel :
    Keeps (Holds ofRegistry ofRecords ofDrafts) (saveModel store now name request principal) := by
  apply keeps_withName
  apply keeps_withEntries
  intro entries
  dsimp only
  generalize (if Entries.has entries "name" = true then entries
    else Entries.put "name" (.text name) entries) = document
  split
  · exact (keeps_onRegistry (keeps_saveDocument saves _)).bind fun _ _ => keeps_replyOf _
  · exact .pure trivial

theorem keeps_amendModel (loads : ∀ name, Keeps ofRegistry (Registry.load store now name)) :
    Keeps (Holds ofRegistry ofRecords ofDrafts) (amendModel store now name request principal) := by
  apply keeps_withEntries
  intro entries
  exact (keeps_onRegistry (Registry.keeps_update loads saves name _)).bind fun _ _ =>
    keeps_replyOf _

theorem keeps_publishDraft
    (drafts : ∀ hash, Keeps ofDrafts (.step (Drafts.publish now name hash))) :
    Keeps (Holds ofRegistry ofRecords ofDrafts) (publishDraft store now name principal) := by
  refine (Ensures.get fun _ held => held).bind ?_
  intro service _
  split
  · exact .pure trivial
  · refine (Ensures.keepsOfExcept _).bind ?_
    intro document _
    refine (keeps_onRegistry (keeps_saveDocument saves _)).bind ?_
    intro definition _
    refine (Ensures.keepsOfExcept _).bind ?_
    intro described _
    exact (keeps_onDrafts (drafts _)).bind fun _ _ => .pure trivial

end Saving

theorem keeps_saveDraft (drafts : ∀ document, Keeps ofDrafts
      (Drafts.submit now (.text name) document principal.id)) :
    Keeps (Holds ofRegistry ofRecords ofDrafts)
      (saveDraft now name request principal : Serving σ Reply) := by
  apply keeps_withName
  apply keeps_withEntries
  intro entries
  exact (keeps_onDrafts (drafts _)).bind fun _ _ => .pure trivial

omit [Host] in
theorem keeps_removeDraft (drafts : Keeps ofDrafts (.step (Drafts.delete name))) :
    Keeps (Holds ofRegistry ofRecords ofDrafts) (removeDraft name : Serving σ Reply) :=
  (keeps_onDrafts drafts).bind fun _ _ => .pure trivial

theorem keeps_onRecords {model : Text} {action : Action} {id : Value}
    {payload : Except Fault Value}
    (engine : ∀ cancel asked, Keeps (fun pair => ofRegistry pair.1 ∧ ofRecords pair.2)
      (Engine.handle store (MemoryRecords.store now) now cancel asked)) :
    Keeps (Holds ofRegistry ofRecords ofDrafts)
      (onRecords store now gone model action id payload principal) := by
  refine (Ensures.keepsOfExcept _).bind ?_
  intro payload _
  refine (keeps_onEngine (engine _ _)).bind ?_
  intro outcome _
  split
  · exact .pure trivial
  · exact .pure trivial

end Handlers

/-! ## All requests -/

/-- Properties of the three parts of a service that are kept by whatever a request reaches
behind the guards it passes. -/
structure Permitted (store : DefinitionStore σ) (now : Instant) (identity : Identity)
    (request : HttpRequest) (resource : Resource) (ofRegistry : Registry σ → Prop)
    (ofRecords : MemoryRecords → Prop) (ofDrafts : Drafts → Prop) : Prop where
  loads : ∀ principal, principal? identity request = .ok (some principal) →
    ∀ name, Keeps ofRegistry (Registry.load store now name)
  names : ∀ principal, principal? identity request = .ok (some principal) →
    Keeps ofRegistry (Registry.onStore store.names)
  saves : ∀ principal, principal? identity request = .ok (some principal) →
    principal.isAdmin = true → ∀ definition,
      Keeps ofRegistry (Registry.save store now definition (actorOf principal))
  deletes : ∀ principal, principal? identity request = .ok (some principal) →
    principal.isAdmin = true → ∀ name,
      Keeps ofRegistry (Registry.delete store now name (actorOf principal))
  drafts : ∀ principal, principal? identity request = .ok (some principal) →
    principal.isAdmin = true → resource.isDrafts = true →
      ∀ (β : Type) (operation : Operation Drafts β), Keeps ofDrafts operation
  engine : ∀ principal, principal? identity request = .ok (some principal) →
    resource.isRecords = true → ∀ cancel asked,
      Keeps (fun pair => ofRegistry pair.1 ∧ ofRecords pair.2)
        (Engine.handle store (MemoryRecords.store now) now cancel asked)

section Requests

variable {resource : Resource} {ofRegistry : Registry σ → Prop}
  {ofRecords : MemoryRecords → Prop} {ofDrafts : Drafts → Prop}

/-- What is permitted is kept by every handler, each behind its guard. -/
theorem keeps_handle
    (permitted : Permitted store now identity request resource ofRegistry ofRecords ofDrafts)
    (verb : Verb) :
    Keeps (Holds ofRegistry ofRecords ofDrafts)
      (handle store now identity request gone resource verb) := by
  obtain ⟨loads, names, saves, deletes, drafts, engine⟩ := permitted
  unfold handle
  dsimp only
  split
  · exact .pure trivial
  · exact .pure trivial
  · exact keeps_withPrincipal fun _ found => keeps_listModels (loads _ found) (names _ found)
  · apply keeps_withPrincipal
    intro principal found
    exact (keeps_onRegistry (loads _ found _)).bind fun _ _ => keeps_replyOf _
  · exact keeps_withAdmin fun _ found admin => keeps_saveModel (saves _ found admin)
  · exact keeps_withAdmin fun _ found admin =>
      keeps_amendModel (saves _ found admin) (loads _ found)
  · apply keeps_withAdmin
    intro principal found admin
    exact (keeps_onRegistry (deletes _ found admin _)).bind fun _ _ => .pure trivial
  · apply keeps_withPrincipal
    intro principal found
    exact (keeps_onRegistry (keeps_schema (loads _ found))).bind fun _ _ => .pure trivial
  · apply keeps_withPrincipal
    intro principal found
    exact (keeps_onRegistry keeps_history).bind fun _ _ => .pure trivial
  · exact keeps_withPrincipal fun _ found => keeps_authorize (loads _ found)
  · exact keeps_withPrincipal fun _ found => keeps_validate (loads _ found)
  · apply keeps_withAdmin
    intro principal found admin
    exact (Ensures.get fun _ held => held).bind fun _ _ => .pure trivial
  · apply keeps_withAdmin
    intro principal found admin
    exact (Ensures.get fun _ held => held).bind fun _ _ => .pure trivial
  · exact keeps_withAdmin fun _ found admin => keeps_saveDraft fun _ => drafts _ found admin rfl _ _
  · exact keeps_withAdmin fun _ found admin => keeps_removeDraft (drafts _ found admin rfl _ _)
  · exact keeps_withAdmin fun _ found admin =>
      keeps_publishDraft (saves _ found admin) fun _ => drafts _ found admin rfl _ _
  · exact keeps_withPrincipal fun _ found => keeps_onRecords (engine _ found rfl)
  · exact keeps_withPrincipal fun _ found => keeps_onRecords (engine _ found rfl)
  · exact keeps_withPrincipal fun _ found => keeps_onRecords (engine _ found rfl)
  · exact keeps_withPrincipal fun _ found => keeps_onRecords (engine _ found rfl)
  · exact keeps_withPrincipal fun _ found => keeps_onRecords (engine _ found rfl)

/-- **What is permitted holds after the answer**, wherever the request leads. -/
theorem holds_answer {service : Service σ}
    (permitted : ∀ resource verb,
      Destination.ofRequest request.method request.path = .found resource verb →
        Permitted store now identity request resource ofRegistry ofRecords ofDrafts)
    (before : Holds ofRegistry ofRecords ofDrafts service) :
    Holds ofRegistry ofRecords ofDrafts (answerTo store now identity request gone service).2 := by
  have kept : Keeps (Holds ofRegistry ofRecords ofDrafts)
      (response store now identity request gone) := by
    unfold response
    split
    · next led => exact keeps_respond (keeps_handle (permitted _ _ led) _)
    · exact .keepsOfExcept _
    · exact .keepsOfExcept _
    · exact .keepsOfExcept _
  unfold answerTo
  split
  · exact before
  · exact (kept service before).1

end Requests

/-! ## What changes -/

/-- A request for records does to the registry what loading does. -/
theorem keeps_engine {ofRegistry : Registry σ → Prop}
    (loads : ∀ name, Keeps ofRegistry (Registry.load store now name)) (cancel : Nat → Bool)
    (asked : RecordRequest) :
    Keeps (fun pair => ofRegistry pair.1 ∧ True)
      (Engine.handle store (MemoryRecords.store now) now cancel asked) := by
  rintro pair ⟨held, -⟩
  refine ⟨⟨?_, trivial⟩, fun _ _ => trivial⟩
  have left : Engine.LeftByLoad store now asked.model pair.1
      ((Engine.handle store (MemoryRecords.store now) now cancel asked).on pair).2.1 :=
    Engine.handle_left
  rcases left with unchanged | loaded
  · rw [unchanged]
    exact held
  · rw [loaded]
    exact (Registry.keeps_loadValue loads _ pair.1 held).1

/-- Whoever is no administrator may fill the cache and change records. -/
theorem permitted_of_member
    (member : ∀ principal, principal? identity request = .ok (some principal) →
      principal.isAdmin = false) (resource : Resource) (before : Registry MemoryDefinitions)
    (drafts : Drafts) :
    Permitted MemoryDefinitions.store now identity request resource
      (Registry.SameButCache before) (fun _ => True) (· = drafts) where
  loads _ _ := Registry.sameButCache_load Registry.reads_memory now
  names _ _ _ same := ⟨same, fun _ _ => trivial⟩
  saves principal found admin := by simp [member principal found] at admin
  deletes principal found admin := by simp [member principal found] at admin
  drafts principal found admin := by simp [member principal found] at admin
  engine _ _ _ := keeps_engine (Registry.sameButCache_load Registry.reads_memory now)

/-- Away from the routes for records, whoever it is may change anything but records. -/
theorem permitted_of_noRecords {resource : Resource} (away : resource.isRecords = false)
    (records : MemoryRecords) :
    Permitted store now identity request resource (fun _ => True) (· = records)
      (fun _ => True) where
  loads _ _ _ _ _ := ⟨trivial, fun _ _ => trivial⟩
  names _ _ _ _ := ⟨trivial, fun _ _ => trivial⟩
  saves _ _ _ _ _ _ := ⟨trivial, fun _ _ => trivial⟩
  deletes _ _ _ _ _ _ := ⟨trivial, fun _ _ => trivial⟩
  drafts _ _ _ _ _ _ _ _ := ⟨trivial, fun _ _ => trivial⟩
  engine _ _ led := by simp [away] at led

/-- Without a principal no guard is passed. -/
theorem permitted_of_nobody
    (nobody : ∀ principal, principal? identity request ≠ .ok (some principal))
    (resource : Resource) (ofRegistry : Registry σ → Prop) (ofRecords : MemoryRecords → Prop)
    (ofDrafts : Drafts → Prop) :
    Permitted store now identity request resource ofRegistry ofRecords ofDrafts where
  loads principal found := absurd found (nobody principal)
  names principal found := absurd found (nobody principal)
  saves principal found := absurd found (nobody principal)
  deletes principal found := absurd found (nobody principal)
  drafts principal found := absurd found (nobody principal)
  engine principal found := absurd found (nobody principal)

/-- A verified user without an id is no principal. -/
theorem principal?_ne_of_unknown {user : Value}
    (unknown : ∀ entries, user = .object entries → (Entries.get entries "id").isTruthy = false)
    (principal : Principal) :
    principal? (.verified user) request ≠ .ok (some principal) := by
  intro found
  unfold principal? at found
  dsimp only at found
  split at found
  · cases user with
    | object entries =>
        simp only [unknown entries rfl, Bool.false_eq_true, if_false] at found
        cases found
    | _ => cases found
  · cases found

/-- **Only administrators change definitions and drafts.**  Whatever the state of the service in
memory, the request and the way its principal is found, and whether or not its client waits: if no
principal of the request is an administrator, the stored documents, the histories and the drafts
are afterwards as they were; if it has no principal, as when users are verified and there is none
with an id, everything is; and if it does not lead to the routes for records, the records are. -/
theorem only_administrators_change (now : Instant) (identity : Identity) (request : HttpRequest)
    (gone : Bool) (service : Service MemoryDefinitions) :
    let after := (answerTo MemoryDefinitions.store now identity request gone service).2
    ((∀ principal, principal? identity request = .ok (some principal) →
        principal.isAdmin = false) →
      after.registry.store = service.registry.store ∧
        after.registry.histories = service.registry.histories ∧
        after.registry.entries = service.registry.entries ∧ after.drafts = service.drafts) ∧
    ((∀ principal, principal? identity request ≠ .ok (some principal)) → after = service) ∧
    (∀ user, identity = .verified user →
      (∀ entries, user = .object entries → (Entries.get entries "id").isTruthy = false) →
        after = service) ∧
    ((∀ resource verb, Destination.ofRequest request.method request.path = .found resource verb →
        resource.isRecords = false) → after.records = service.records) := by
  intro after
  have nothing : (∀ principal, principal? identity request ≠ .ok (some principal)) →
      after = service := by
    intro nobody
    obtain ⟨registry, records, drafts⟩ : Holds (· = service.registry) (· = service.records)
        (· = service.drafts) after :=
      holds_answer (fun resource _ _ => permitted_of_nobody nobody resource _ _ _) ⟨rfl, rfl, rfl⟩
    obtain ⟨keptRegistry, keptRecords, keptDrafts⟩ := service
    exact (Service.mk.injEq ..).mpr ⟨registry, records, drafts⟩
  refine ⟨?_, nothing, ?_, ?_⟩
  · intro member
    obtain ⟨same, -, drafts⟩ : Holds (Registry.SameButCache service.registry) (fun _ => True)
        (· = service.drafts) after :=
      holds_answer (fun resource _ _ => permitted_of_member member resource _ _)
        ⟨⟨rfl, rfl, rfl⟩, trivial, rfl⟩
    exact ⟨same.store, same.histories, same.entries, drafts⟩
  · rintro user rfl unknown
    exact nothing (principal?_ne_of_unknown unknown)
  · intro away
    obtain ⟨-, records, -⟩ : Holds (fun _ => True) (· = service.records) (fun _ => True) after :=
      holds_answer (fun resource verb led => permitted_of_noRecords (away resource verb led) _)
        ⟨trivial, rfl, trivial⟩
    exact records

end Service

/-! ## Notes -/

namespace Service

/-- The removal of the definition of notes. -/
def noteRemoval : HttpRequest := ⟨"DELETE", "/models/note", [], []⟩

/-- A verified user with a role. -/
def userAs (role : String) : Identity :=
  .verified (.object [(.text "id", .text "u1"), (.text "role", .text role)])

/-- A service that stores the definition of notes. -/
def noteService : Service MemoryDefinitions where
  registry := .ofStore ([("note", noteDefinition.toDocument)] : MemoryDefinitions)
  records := .empty
  drafts := []

/-- A manager does not remove the definition of notes. -/
theorem note_kept_from_manager :
    let after := (answerTo MemoryDefinitions.store ⟨0, by decide⟩ (userAs "Manager") noteRemoval
      false noteService).2
    after.registry.store = noteService.registry.store ∧ after.registry.histories = [] ∧
      after.drafts = [] ∧ after.records = .empty := by
  obtain ⟨members, -, -, elsewhere⟩ := only_administrators_change ⟨0, by decide⟩ (userAs "Manager")
    noteRemoval false noteService
  have member : ∀ principal, principal? (userAs "Manager") noteRemoval = .ok (some principal) →
      principal.isAdmin = false := by
    intro principal found
    cases found
    rfl
  have away : ∀ resource verb, Destination.ofRequest noteRemoval.method noteRemoval.path =
      .found resource verb → resource.isRecords = false := by
    intro resource verb led
    cases led
    rfl
  obtain ⟨store, histories, -, drafts⟩ := members member
  exact ⟨store, histories, drafts, elsewhere away⟩

/-- An administrator does. -/
example : (answerTo MemoryDefinitions.store ⟨0, by decide⟩ (userAs "Admin") noteRemoval false
    noteService).2.registry.store.isEmpty = true := by decide +kernel

end Service

end GovernedRecords
