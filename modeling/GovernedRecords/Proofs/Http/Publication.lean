import GovernedRecords.Proofs.Definition.Codec
import GovernedRecords.Proofs.Http.Arrivals

/-!
# Published drafts

A draft that was published bears the content hash of the definition that was saved for it.  The
mark is set by one request and stays while others come in: they set drafts, remove and publish
them, and change the definitions and the records behind the drafts.

A single request leaves the drafts as they are, sets the document of one, removes one, or
publishes one that was saved (`redrafted`).  A draft that is not set keeps what its mark says
(`Sound.snoc`), one that is published has it from the definition that was saved (`Sound.publish`),
and one that is set has no mark.  So after every run of requests on a service that starts without
drafts and histories every mark is true of the document that the draft has now, and a publication
that saves nothing changes no draft (`published_mark_truthful`).
-/

set_option autoImplicit false

namespace GovernedRecords

open Operation

namespace Registry

variable [Host] {σ : Type} {before registry : Registry σ} {name hash : Text}

/-- The history of a name, as it is shown, has a save with a hash. -/
def ShowsSave (registry : Registry σ) (name hash : Text) : Prop :=
  ∃ entries, ((history name).on registry).1 = .ok entries ∧
    ∃ entry ∈ entries, entry.action = .save ∧ entry.hash = some hash

theorem GoesOn.showsSave (goes : GoesOn before registry) {entry : AuditEntry}
    (recorded : entry ∈ registry.historyOf name) (saved : entry.action = .save)
    (hashed : entry.hash = some hash) : ShowsSave registry name hash :=
  ⟨_, congrArg Prod.fst (on_history (goes.shown name)), entry, recorded, saved, hashed⟩

/-- A save that was shown is shown when the histories have gone on. -/
theorem ShowsSave.goesOn (shows : ShowsSave before name hash) (shown : GoesOn before before)
    (goes : GoesOn before registry) : ShowsSave registry name hash := by
  obtain ⟨entries, found, entry, member, saved, hashed⟩ := shows
  rw [on_history (shown.shown name)] at found
  cases found
  exact goes.showsSave ((goes.recorded name).subset member) saved hashed

end Registry

namespace Service

variable [Host] {σ : Type} {store : DefinitionStore σ} {service : Service σ} {name : Text}
  {arrival : Arrival}

/-! ## Requests for drafts -/

namespace Arrival

variable {resource : Resource} {verb : Verb}

/-- A request that sets the document of the draft under a name.  Whoever is no administrator, a
name that no model can have, and a body that is no object or cannot be copied are turned away. -/
structure Sets (arrival : Arrival) (name : Text) : Prop where
  led : arrival.LeadsTo (.draft name) .replace
  made : ∃ principal, arrival.MadeBy principal
  named : name.isModelName = true
  copied : ∃ entries copy, arrival.request.json = .ok (.object entries) ∧
    (Value.object entries).copy = .ok copy

/-- A request that leads elsewhere sets no draft. -/
theorem LeadsTo.not_sets (led : arrival.LeadsTo resource verb)
    (elsewhere : ∀ name, resource = .draft name → verb ≠ .replace) (name : Text) :
    ¬ arrival.Sets name := by
  intro sets
  obtain ⟨there, replaces⟩ := led.unique sets.led
  exact elsewhere name there replaces

theorem Sets.unique {first second : Text} (sets : arrival.Sets first)
    (also : arrival.Sets second) : first = second :=
  Resource.draft.inj (sets.led.unique also.led).1

end Arrival

/-- A request by which the draft under a name is published as a definition: an administrator makes
it, and the document of the draft is saved under its name. -/
structure Publishes (store : DefinitionStore σ) (service : Service σ) (arrival : Arrival)
    (name : Text) (saved : Definition) : Prop where
  led : arrival.LeadsTo (.publication name) .submit
  saves : ∃ principal draft document, arrival.MadeBy principal ∧
    service.drafts.get? name = some draft ∧ publishedDocument draft = .ok document ∧
    ((Engine.saveDocument store arrival.now document (actorOf principal)).on
      service.registry).1 = .ok saved

/-! ## What becomes of the drafts -/

/-- What a request makes of the drafts. -/
inductive Redrafted (store : DefinitionStore σ) (service : Service σ) (arrival : Arrival)
    (left : Service σ) : Prop where
  | kept (unset : ∀ name, ¬ arrival.Sets name) (same : left.drafts = service.drafts)
  | set {name : Text} {entries : Entries} {updatedBy : Value} (sets : arrival.Sets name)
      (same : left.drafts =
        (Drafts.put arrival.now (.text name) (.object entries) updatedBy service.drafts).2)
  | removed {name : Text} (led : arrival.LeadsTo (.draft name) .remove)
      (same : left.drafts = (Drafts.delete name service.drafts).2)
  | published {name hash : Text} {saved : Definition}
      (publishes : Publishes store service arrival name saved) (hashed : saved.hash = .ok hash)
      (recorded : ∃ entry ∈ left.registry.historyOf saved.name,
        entry.action = .save ∧ entry.hash = some hash)
      (same : left.drafts = (Drafts.publish arrival.now name (.text hash) service.drafts).2)

/-- A handler for administrators runs for one, or leaves the service as it is. -/
theorem on_withAdmin_snd {holds : Service σ → Prop} {run : Principal → Serving σ Reply}
    (turned : (∀ principal, ¬ arrival.MadeBy principal) → holds service)
    (ran : ∀ principal, arrival.MadeBy principal → holds ((run principal).on service).2) :
    holds ((withAdmin arrival.identity arrival.request run).on service).2 := by
  rw [withAdmin, withPrincipal, on_bind, on_ofExcept]
  cases found : principal? arrival.identity arrival.request with
  | error fault =>
      refine turned fun principal made => ?_
      cases found.symm.trans made.found
  | ok caller =>
      cases caller with
      | none =>
          refine turned fun principal made => ?_
          cases found.symm.trans made.found
      | some principal =>
          dsimp only
          split
          · next admin => exact ran principal ⟨found, admin⟩
          · next member =>
              refine turned fun other made => ?_
              cases found.symm.trans made.found
              exact member made.admin

theorem redrafted_saveDraft {principal : Principal} (led : arrival.LeadsTo (.draft name) .replace)
    (made : arrival.MadeBy principal) :
    Redrafted store service arrival
      ((saveDraft arrival.now name arrival.request principal : Serving σ Reply).on service).2 := by
  by_cases sets : arrival.Sets name
  · obtain ⟨-, -, named, entries, copy, read, copied⟩ := id sets
    cases Value.copy_eq_ok copied
    have put : ((saveDraft arrival.now name arrival.request principal : Serving σ Reply).on
        service).2.drafts = (Drafts.put arrival.now (.text name) (.object entries) principal.id
          service.drafts).2 := by
      rw [saveDraft, withName, if_pos named, withEntries, on_bind, read, on_ofExcept]
      dsimp only
      rw [on_bind, onDrafts, on_within, Drafts.submit, on_of, copied]
      rfl
    exact .set sets put
  · refine .kept (fun other also => ?_) ?_
    · cases (led.unique also.led).1
      exact sets also
    · rw [saveDraft, withName]
      split
      · next named =>
          rw [withEntries, on_bind, on_ofExcept]
          cases read : arrival.request.json with
          | error fault => rfl
          | ok body =>
              cases body with
              | object entries =>
                  dsimp only
                  rw [on_bind, onDrafts, on_within, Drafts.submit, on_of]
                  cases copied : (Value.object entries).copy with
                  | error fault => rfl
                  | ok copy =>
                      have also : arrival.Sets name :=
                        ⟨led, ⟨principal, made⟩, named, entries, copy, read, copied⟩
                      exact absurd also sets
              | _ => rfl
      · rfl

/-- What a document is saved as is its definition with other stamps, and is recorded. -/
theorem saveDocument_eq_ok {now : Instant} {document actor : Value} {saved : Definition}
    {registry left : Registry σ}
    (done : (Engine.saveDocument store now document actor).on registry = (.ok saved, left)) :
    (∃ parsed, Definition.ofDocument document = .ok parsed ∧
      saved = parsed.withStamps saved.createdAt saved.updatedAt) ∧
    ∃ hash, saved.hash = .ok hash ∧ ∃ entry ∈ left.historyOf saved.name,
      entry.action = .save ∧ entry.hash = some hash := by
  rw [Engine.saveDocument, on_bind, on_ofExcept] at done
  cases read : Definition.coerce document with
  | error fault =>
      rw [read] at done
      cases done
  | ok parsed =>
      rw [read] at done
      obtain ⟨stamped, hash, shown, between, hashed, rfl⟩ := Registry.save_eq_ok done
      refine ⟨⟨parsed, ?_, stamped⟩, hash, hashed, ?_⟩
      · unfold Definition.coerce at read
        split at read
        · next made =>
            cases read
            exact made
        · cases read
        · cases read
      · rw [Registry.historyOf_record, if_pos rfl]
        exact ⟨_, List.mem_cons_self, rfl, rfl⟩

theorem redrafted_publishDraft {principal : Principal}
    (led : arrival.LeadsTo (.publication name) .submit) (made : arrival.MadeBy principal) :
    Redrafted store service arrival
      ((publishDraft store arrival.now name principal).on service).2 := by
  have unset := led.not_sets (by simp)
  rw [publishDraft, on_bind, on_get]
  dsimp only
  cases found : service.drafts.get? name with
  | none => exact .kept unset rfl
  | some draft =>
      dsimp only
      rw [on_bind, on_ofExcept]
      cases read : publishedDocument draft with
      | error fault => exact .kept unset rfl
      | ok document =>
          dsimp only
          rw [on_bind, onRegistry, on_within]
          cases done : (Engine.saveDocument store arrival.now document (actorOf principal)).on
              service.registry with
          | mk result registry =>
              cases result with
              | error fault => exact .kept unset rfl
              | ok saved =>
                  obtain ⟨-, hash, hashed, recorded⟩ := saveDocument_eq_ok done
                  have publishes : Publishes store service arrival name saved :=
                    ⟨led, principal, draft, document, made, found, read, by rw [done]⟩
                  have shown : described saved = .ok ([(.text "definition", saved.toDocument),
                      (.text "definition_hash", .text hash)], hash) := by
                    rw [described, hashed]
                    rfl
                  dsimp only
                  rw [shown]
                  exact .published publishes hashed recorded rfl

/-- Away from the routes for drafts, whoever it is may change anything but drafts. -/
theorem permitted_of_noDrafts {resource : Resource} (away : resource.isDrafts = false)
    (drafts : Drafts) :
    Permitted store arrival.now arrival.identity arrival.request resource (fun _ => True)
      (fun _ => True) (· = drafts) where
  loads _ _ _ _ _ := ⟨trivial, fun _ _ => trivial⟩
  names _ _ _ _ := ⟨trivial, fun _ _ => trivial⟩
  saves _ _ _ _ _ _ := ⟨trivial, fun _ _ => trivial⟩
  deletes _ _ _ _ _ _ := ⟨trivial, fun _ _ => trivial⟩
  drafts _ _ _ there := by simp [away] at there
  engine _ _ _ _ _ _ _ := ⟨⟨trivial, trivial⟩, fun _ _ => trivial⟩

/-- **A request leaves the drafts as they are, sets or removes one, or publishes one** that was
saved. -/
theorem redrafted (store : DefinitionStore σ) (service : Service σ) (arrival : Arrival) :
    Redrafted store service arrival (arrival.leaves store service) := by
  by_cases leads : ∃ resource verb, arrival.LeadsTo resource verb
  · obtain ⟨resource, verb, led⟩ := leads
    rw [leaves_of_leadsTo led]
    cases drafts : resource.isDrafts with
    | false =>
        have kept : Keeps (Holds (fun _ => True) (fun _ => True) (· = service.drafts))
            (handle store arrival.now arrival.identity arrival.request arrival.gone resource
              verb) :=
          keeps_handle (permitted_of_noDrafts drafts service.drafts) verb
        refine .kept (led.not_sets ?_) (kept service ⟨trivial, trivial, rfl⟩).1.drafts
        rintro name rfl
        cases drafts
    | true =>
        unfold handle
        cases resource with
        | draft name =>
            have taken := led.takes
            simp only [Resource.verbs, List.mem_cons, List.not_mem_nil, or_false] at taken
            rcases taken with rfl | rfl | rfl
            · have unset := led.not_sets (by simp)
              exact on_withAdmin_snd (fun _ => .kept unset rfl) fun _ _ => .kept unset rfl
            · refine on_withAdmin_snd (fun nobody => .kept (fun other sets => ?_) rfl)
                fun _ made => redrafted_saveDraft led made
              obtain ⟨principal, made⟩ := sets.made
              exact nobody principal made
            · have unset := led.not_sets (by simp)
              refine on_withAdmin_snd (fun _ => .kept unset rfl) fun _ _ => ?_
              exact .removed led rfl
        | publication name =>
            cases List.mem_singleton.mp led.takes
            exact on_withAdmin_snd (fun _ => .kept (led.not_sets (by simp)) rfl)
              fun _ made => redrafted_publishDraft led made
        | _ => cases drafts
  · have nowhere : ∀ resource verb, ¬ arrival.LeadsTo resource verb :=
      fun resource verb led => leads ⟨resource, verb, led⟩
    rw [leaves_of_not_leadsTo nowhere]
    exact .kept (fun _ sets => nowhere _ _ sets.led) rfl

/-- A publication that saves nothing changes no draft. -/
theorem drafts_of_unpublished (led : arrival.LeadsTo (.publication name) .submit)
    (unsaved : ∀ saved, ¬ Publishes store service arrival name saved) :
    (arrival.leaves store service).drafts = service.drafts := by
  cases redrafted store service arrival with
  | kept _ same => exact same
  | set sets _ => exact absurd sets (led.not_sets (by simp) _)
  | removed elsewhere _ => cases (led.unique elsewhere).1
  | published publishes _ _ _ =>
      cases (led.unique publishes.led).1
      exact absurd publishes (unsaved _)

/-! ## What a mark says -/

/-- Among some requests, one published the draft under a name as a definition, and none has set
the draft since. -/
def PublishedSince (store : DefinitionStore σ) (start : Service σ) (arrivals : List Arrival)
    (name : Text) (saved : Definition) : Prop :=
  ∃ earlier arrival later, arrivals = earlier ++ arrival :: later ∧
    Publishes store (after store start earlier) arrival name saved ∧
    ∀ next ∈ later, ¬ next.Sets name

/-- A draft bears a mark that is true after some requests: since it was last set it was published
as a definition, the mark is the content hash of that definition, the history shows that it was
saved, and it is, but for its stamps, what the document of the draft defines under its name. -/
structure Truthful (store : DefinitionStore σ) (start : Service σ) (arrivals : List Arrival)
    (name : Text) (draft : Draft) (hash : Text) (saved : Definition) : Prop where
  marked : draft.publishedHash = .text hash
  hashed : saved.hash = .ok hash
  published : PublishedSince store start arrivals name saved
  recorded : Registry.ShowsSave (after store start arrivals).registry name hash
  current : ∃ entries parsed, draft.definition = .object entries ∧
    Definition.ofDocument (.object (Entries.put "name" (.text name) entries)) = .ok parsed ∧
    saved = parsed.withStamps saved.createdAt saved.updatedAt

/-- A draft under a name has an object for its document, and its mark is true if it has one. -/
structure Sound (store : DefinitionStore σ) (start : Service σ) (arrivals : List Arrival)
    (name : Text) (draft : Draft) : Prop where
  named : draft.name = .text name
  entries : ∃ entries, draft.definition = .object entries
  mark : draft.publishedHash ≠ .null → ∃ hash saved,
    Truthful store start arrivals name draft hash saved

variable {start : Service σ} {arrivals : List Arrival} {draft : Draft}

theorem PublishedSince.snoc {saved : Definition}
    (published : PublishedSince store start arrivals name saved) (unset : ¬ arrival.Sets name) :
    PublishedSince store start (arrivals ++ [arrival]) name saved := by
  obtain ⟨earlier, publishing, later, rfl, publishes, since⟩ := published
  refine ⟨earlier, publishing, later ++ [arrival], by simp, publishes, ?_⟩
  intro next member
  rcases List.mem_append.mp member with before | last
  · exact since next before
  · cases List.mem_singleton.mp last
    exact unset

/-- A draft that a request does not set stays sound. -/
theorem Sound.snoc (sound : Sound store start arrivals name draft)
    (shown : Shown (after store start arrivals)) (unset : ¬ arrival.Sets name) :
    Sound store start (arrivals ++ [arrival]) name draft := by
  refine ⟨sound.named, sound.entries, fun marked => ?_⟩
  obtain ⟨hash, saved, truthful⟩ := sound.mark marked
  refine ⟨hash, saved, truthful.marked, truthful.hashed, truthful.published.snoc unset, ?_,
    truthful.current⟩
  rw [after_snoc]
  exact truthful.recorded.goesOn shown (goesOn_leaves store arrival shown)

omit [Host] in
/-- The document that a draft puts in force is its object with its name. -/
theorem publishedDocument_object {entries : Entries} (named : draft.name = .text name)
    (definition : draft.definition = .object entries) :
    publishedDocument draft = .ok (.object (Entries.put "name" (.text name) entries)) := by
  rw [publishedDocument, named, definition]
  cases entries <;> rfl

/-- A draft that has just been published is sound. -/
theorem Sound.publish {hash : Text} {saved : Definition}
    (sound : Sound store start arrivals name draft)
    (found : (after store start arrivals).drafts.get? name = some draft)
    (publishes : Publishes store (after store start arrivals) arrival name saved)
    (hashed : saved.hash = .ok hash)
    (shows : Registry.ShowsSave (after store start (arrivals ++ [arrival])).registry saved.name
      hash) :
    Sound store start (arrivals ++ [arrival]) name
      (draft.published arrival.now (.text hash)) := by
  refine ⟨sound.named, sound.entries, fun _ => ⟨hash, saved, rfl, hashed, ?_, ?_, ?_⟩⟩
  · exact ⟨arrivals, arrival, [], rfl, publishes, List.forall_mem_nil _⟩
  all_goals
    obtain ⟨principal, same, document, -, there, read, saves⟩ := publishes.saves
    cases found.symm.trans there
    obtain ⟨entries, definition⟩ := sound.entries
    cases (publishedDocument_object sound.named definition).symm.trans read
    obtain ⟨⟨parsed, defined, stamped⟩, -⟩ := saveDocument_eq_ok (Prod.ext saves rfl)
  · have named := Definition.get_name_of_ofDocument defined
    rw [Entries.get, Entries.get?_put_self] at named
    have same : saved.name = name := by
      rw [stamped]
      exact (Value.text.inj named).symm
    rwa [same] at shows
  · exact ⟨entries, parsed, definition, defined, stamped⟩

/-- A draft that was just set is not marked. -/
theorem Sound.revise {entries : Entries} {updatedBy : Value} (existing : Option Draft) :
    Sound store start arrivals name
      (Draft.revise arrival.now (.text name) (.object entries) updatedBy existing) :=
  ⟨rfl, ⟨entries, rfl⟩, fun marked => absurd rfl marked⟩

/-- All drafts after some requests are sound. -/
def AllSound (store : DefinitionStore σ) (start : Service σ) (arrivals : List Arrival) : Prop :=
  ∀ name draft, (after store start arrivals).drafts.get? name = some draft →
    Sound store start arrivals name draft

/-- **A request keeps the drafts sound.** -/
theorem AllSound.snoc (sound : AllSound store start arrivals)
    (shown : Shown (after store start arrivals)) (arrival : Arrival) :
    AllSound store start (arrivals ++ [arrival]) := by
  intro name draft found
  have old : ∀ {name draft}, (after store start arrivals).drafts.get? name = some draft →
      ¬ arrival.Sets name → Sound store start (arrivals ++ [arrival]) name draft :=
    fun found unset => (sound _ _ found).snoc shown unset
  rw [after_snoc] at found
  cases redrafted store (after store start arrivals) arrival with
  | kept unset same =>
      rw [same] at found
      exact old found (unset name)
  | set sets same =>
      rw [same, Drafts.get?, Drafts.put, Keyed.get?_put] at found
      split at found
      · next this =>
          cases this
          cases found
          exact .revise _
      · next another => exact old found fun also => another (sets.unique also)
  | removed led same =>
      rw [same, Drafts.get?, Drafts.delete, Keyed.get?_erase] at found
      split at found
      · cases found
      · exact old found (led.not_sets (by simp) name)
  | @published target hash saved publishes hashed recorded same =>
      have unset := publishes.led.not_sets (by simp)
      rw [same, Drafts.publish] at found
      cases there : (after store start arrivals).drafts.get? target with
      | none =>
          rw [there] at found
          exact old found (unset name)
      | some draft =>
          rw [there] at found
          dsimp only at found
          rw [Drafts.get?, Keyed.get?_put] at found
          split at found
          · next this =>
              cases this
              cases found
              obtain ⟨entry, member, action, hash⟩ := recorded
              refine (sound _ _ there).publish there publishes hashed ?_
              rw [after_snoc]
              exact (goesOn_leaves store arrival shown).showsSave member action hash
          · exact old found (unset name)

/-- A service that starts without drafts and histories. -/
def starting (initial : σ) (records : MemoryRecords) : Service σ :=
  ⟨.ofStore initial, records, []⟩

/-- **Every run of requests keeps the drafts sound.** -/
theorem allSound_after (store : DefinitionStore σ) (initial : σ) (records : MemoryRecords)
    (arrivals : List Arrival) : AllSound store (starting initial records) arrivals := by
  induction arrivals using List.reverseRecOn with
  | nil =>
      intro name draft found
      cases found
  | append_singleton arrivals arrival ih =>
      have shown : Shown (starting initial records) := Registry.goesOn_ofStore initial
      exact ih.snoc (goesOn_after store arrivals shown).refl arrival

/-- **The mark of a published draft is true.**  In a service that starts without drafts and
histories, whatever its definition store does and whatever requests have come in: the mark of a
draft is the content hash of the definition that a publication saved since the draft was last set;
the history shows a save with that hash; and that definition is, but for its stamps, what the
document that the draft has now defines under the name of the draft.  And in any service a
publication that saves nothing leaves every draft as it is. -/
theorem published_mark_truthful (store : DefinitionStore σ) (initial : σ)
    (records : MemoryRecords) (arrivals : List Arrival) :
    (∀ name draft,
      (after store (starting initial records) arrivals).drafts.get? name = some draft →
      draft.publishedHash ≠ .null →
      ∃ hash saved, Truthful store (starting initial records) arrivals name draft hash saved) ∧
    ∀ (service : Service σ) (arrival : Arrival) (name : Text),
      arrival.LeadsTo (.publication name) .submit →
      (∀ saved, ¬ Publishes store service arrival name saved) →
      (arrival.leaves store service).drafts = service.drafts := by
  refine ⟨fun name draft found marked => ?_, fun _ _ _ => drafts_of_unpublished⟩
  exact (allSound_after store initial records arrivals name draft found).mark marked

end Service

/-! ## A draft of notes -/

namespace Service

/-- A request of an administrator. -/
def adminArrival (method path : Text) (body : String) : Arrival :=
  ⟨Registry.noon, userAs "Admin", ⟨method, path, [], (Utf8.encode? body).getD []⟩, false⟩

/-- A run that sets a draft of the definition of notes, publishes it, and removes the definition. -/
def noteArrivals : List Arrival :=
  [adminArrival "PUT" "/drafts/note"
      "\x7b\"fields\": [\x7b\"name\": \"title\", \"type\": \"string\"\x7d]\x7d",
    adminArrival "POST" "/drafts/note/publish" "",
    adminArrival "DELETE" "/models/note" ""]

/-- What that run leaves of a service that starts with nothing. -/
def noteLeft : Service MemoryDefinitions :=
  after MemoryDefinitions.store (starting [] .empty) noteArrivals

/-- A service with a draft that defines nothing. -/
def blankService : Service MemoryDefinitions :=
  { starting [] .empty with
    drafts := [("page", Draft.revise Registry.noon (.text "page") (.object []) .null none)] }

/-- The mark of the draft of notes is true although their definition has been removed, and a draft
that defines nothing stays as it is when it is published. -/
theorem note_mark_truthful :
    let blank := adminArrival "POST" "/drafts/page/publish" ""
    noteLeft.registry.store.isEmpty = true ∧
      (∃ draft hash saved, noteLeft.drafts.get? "note" = some draft ∧
        Truthful MemoryDefinitions.store (starting [] .empty) noteArrivals "note" draft hash
          saved) ∧
      (blank.leaves MemoryDefinitions.store blankService).drafts = blankService.drafts := by
  obtain ⟨marks, failures⟩ :=
    published_mark_truthful MemoryDefinitions.store [] .empty noteArrivals
  have marked : (noteLeft.registry.store.isEmpty &&
      (noteLeft.drafts.get? "note").any (!·.publishedHash.isNull)) = true := by
    decide +kernel
  obtain ⟨removed, marked⟩ := Bool.and_eq_true_iff.mp marked
  refine ⟨removed, ?_, ?_⟩
  · cases found : noteLeft.drafts.get? "note" with
    | none =>
        rw [found] at marked
        cases marked
    | some draft =>
        rw [found] at marked
        obtain ⟨hash, saved, truthful⟩ := marks "note" draft found (by
          intro unmarked
          rw [Option.any_some, unmarked] at marked
          cases marked)
        exact ⟨draft, hash, saved, rfl, truthful⟩
  · refine failures blankService _ "page" ⟨by decide +kernel, rfl⟩ fun saved publishes => ?_
    obtain ⟨principal, draft, document, -, found, read, saves⟩ := publishes.saves
    cases found
    cases read
    cases saves

end Service

end GovernedRecords
