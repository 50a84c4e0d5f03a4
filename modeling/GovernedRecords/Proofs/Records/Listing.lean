import GovernedRecords.Proofs.Records.Reachable
import GovernedRecords.Proofs.Time.Order
import Mathlib.Data.List.Induction
import Mathlib.Data.List.Permutation

/-!
# The listing of a model

A run of creates, updates and removals leaves some records alive.  They are kept here in a ledger
beside the store, made from the calls alone and from which of them succeeded: a create adds a live
record, an update changes the values of one, a removal takes one out.

When the ids that the creates draw are all different, the rows of a model are its live records in
order of creation (`Tabulates.rows`).  So the list of a model has each of its live records once, with
its present values and no others, by the instant of creation and, for equal instants, in order of
creation (`list_complete`).
-/

set_option autoImplicit false

namespace GovernedRecords

/-! ## Calls and the ledger -/

/-- A record that was created and not removed, with the number of the call that created it and the
reading of the clock at its creation. -/
structure LiveRecord where
  number : Nat
  model : Text
  id : Text
  createdAt : Instant
  entries : Entries

namespace LiveRecord

/-- Whether a record is the one of a model with an id. -/
def isAt (live : LiveRecord) (model : Text) (id : Value) : Bool :=
  live.model == model && id.isText live.id

/-- A record whose values are changed at some instant. -/
def changed (now : Instant) (changes : Entries) (live : LiveRecord) : LiveRecord :=
  { live with
    entries := MemoryRecords.stamped live.id (.text live.createdAt.stamp) (.text now.stamp)
      (Entries.merge live.entries changes) }

/-- The row of a record. -/
def row (live : LiveRecord) : Text × Entries := (live.id, live.entries)

/-- The live records of a model. -/
def ofModel (live : List LiveRecord) (model : Text) : List LiveRecord :=
  live.filter fun each => each.model == model

end LiveRecord

/-- A call that changes records, with the reading of the clock that it meets; a create also with
the id that is drawn for it. -/
inductive RecordChange where
  | create (id : Text) (now : Instant) (model : Text) (values : Entries) (unique : List Text)
  | update (now : Instant) (model : Text) (id : Value) (changes : Entries) (unique : List Text)
  | delete (model : Text) (id : Value)

namespace RecordChange

/-- The answer of a call and the records after it. -/
def perform [Host] : RecordChange → MemoryRecords → Except Fault Value × MemoryRecords
  | .create id now model values unique, records =>
    let (answer, after) := records.createUnder id now model values unique
    (answer.map .object, after)
  | .update now model id changes unique, records =>
    let (answer, after) := records.update now model id changes unique
    (answer.map .object, after)
  | .delete model id, records =>
    let (answer, after) := records.delete model id
    (answer.map .bool, after)

/-- The id that is drawn for a call. -/
def drawn? : RecordChange → Option Text
  | .create id _ _ _ _ => some id
  | _ => none

/-- The reading of the clock that a call meets. -/
def reading? : RecordChange → Option Instant
  | .create _ now _ _ _ => some now
  | .update now _ _ _ _ => some now
  | .delete _ _ => none

/-- The record that a call creates when it succeeds. -/
def created? (number : Nat) : RecordChange → Option LiveRecord
  | .create id now model values _ =>
    some ⟨number, model, id, now,
      MemoryRecords.stamped id (.text now.stamp) (.text now.stamp) values⟩
  | _ => none

/-- The live records after a call that succeeded. -/
def note (call : RecordChange) (number : Nat) (live : List LiveRecord) : List LiveRecord :=
  match call with
  | .update now model id changes _ =>
    live.map fun each => if each.isAt model id then each.changed now changes else each
  | .delete model id => live.filter fun each => !each.isAt model id
  | .create .. => live ++ (call.created? number).toList

/-- Whether an answer is of a call that did something. -/
def succeeded : Except Fault Value → Bool
  | .ok (.bool done) => done
  | .ok _ => true
  | .error _ => false

end RecordChange

/-- The records after some calls, the number of the calls, and the live records in order of
creation. -/
structure RecordRun where
  records : MemoryRecords
  made : Nat
  live : List LiveRecord

namespace RecordRun

variable [Host]

/-- A run before its first call. -/
def start : RecordRun := ⟨.empty, 0, []⟩

/-- The run after one more call. -/
def step (run : RecordRun) (call : RecordChange) : RecordRun :=
  let (answer, after) := call.perform run.records
  ⟨after, run.made + 1,
    if RecordChange.succeeded answer then call.note run.made run.live else run.live⟩

/-- The run of some calls on an empty store. -/
def after (calls : List RecordChange) : RecordRun := calls.foldl step start

theorem after_append (calls : List RecordChange) (call : RecordChange) :
    after (calls ++ [call]) = (after calls).step call := by
  rw [after, List.foldl_append, ← after]
  rfl

theorem made_after (calls : List RecordChange) : (after calls).made = calls.length := by
  induction calls using List.reverseRecOn with
  | nil => rfl
  | append_singleton calls call ih =>
      rw [after_append, step, ih, List.length_append]
      rfl

end RecordRun

/-- What a run of calls brings: ids that are all different, and readings of the clock from the year
1000 on. -/
structure Orderly (calls : List RecordChange) : Prop where
  distinct : (calls.filterMap RecordChange.drawn?).Nodup
  legible : ∀ now ∈ calls.filterMap RecordChange.reading?, 1000 ≤ now.year

/-! ## Where live records come from -/

section Origins

variable {β : Type} {trait : LiveRecord → β}

/-- A call adds the record it creates, and changes nothing of the others but their values. -/
theorem RecordChange.map_note_sublist (call : RecordChange) (number : Nat) (live : List LiveRecord)
    (blind : ∀ now changes each, trait (LiveRecord.changed now changes each) = trait each) :
    ((call.note number live).map trait).Sublist
      (live.map trait ++ ((call.created? number).map trait).toList) := by
  cases call with
  | create id now model values unique =>
      simp [note, created?]
  | update now model id changes unique =>
      have same : ∀ each : LiveRecord,
          trait (if each.isAt model id then each.changed now changes else each) = trait each := by
        intro each
        split
        · exact blind now changes each
        · rfl
      simp [note, created?, Function.comp_def, same]
  | delete model id =>
      simpa [note, created?] using List.filter_sublist.map trait

theorem RecordRun.map_step_sublist [Host] (run : RecordRun) (call : RecordChange)
    (blind : ∀ now changes each, trait (LiveRecord.changed now changes each) = trait each) :
    ((run.step call).live.map trait).Sublist
      (run.live.map trait ++ ((call.created? run.made).map trait).toList) := by
  rw [RecordRun.step]
  simp only
  split
  · exact call.map_note_sublist run.made run.live blind
  · exact List.sublist_append_left _ _

/-- What every call has that creates a record is found in order in the live records. -/
theorem RecordRun.map_live_sublist [Host] (known : RecordChange → Option β)
    (blind : ∀ now changes each, trait (LiveRecord.changed now changes each) = trait each)
    (told : ∀ call number live, RecordChange.created? number call = some live →
      known call = some (trait live)) (calls : List RecordChange) :
    ((after calls).live.map trait).Sublist (calls.filterMap known) := by
  induction calls using List.reverseRecOn with
  | nil => exact .slnil
  | append_singleton calls call ih =>
      rw [after_append, List.filterMap_append]
      refine (map_step_sublist _ call blind).trans (ih.append ?_)
      cases made : call.created? (after calls).made with
      | none => exact List.nil_sublist _
      | some live => simp [told call _ live made]

end Origins

/-! ## The rows of a model -/

namespace MemoryRecords

open LiveRecord

variable {records : MemoryRecords} {live : List LiveRecord} {model : Text}

/-- The rows of every model are its live records in order of creation, and every live record
carries its id and the stamp of its creation. -/
structure Tabulates (records : MemoryRecords) (live : List LiveRecord) : Prop where
  rows : ∀ model, records.table model = (ofModel live model).map row
  id : ∀ each ∈ live, Entries.get? each.entries "id" = some (.text each.id)
  createdAt : ∀ each ∈ live,
    Entries.get? each.entries "createdAt" = some (.text each.createdAt.stamp)

theorem tabulates_empty : Tabulates empty [] where
  rows _ := rfl
  id _ member := by cases member
  createdAt _ member := by cases member

theorem names_rows (live : List LiveRecord) (model : Text) :
    Keyed.names ((ofModel live model).map row) = (ofModel live model).map LiveRecord.id := by
  simp [Keyed.names, row, Function.comp_def]

theorem ofModel_sublist (live : List LiveRecord) (model : Text) :
    ((ofModel live model).map LiveRecord.id).Sublist (live.map LiveRecord.id) :=
  List.filter_sublist.map _

theorem mem_ofModel {each : LiveRecord} :
    each ∈ ofModel live model ↔ each ∈ live ∧ each.model = model := by
  rw [ofModel, List.mem_filter, beq_iff_eq]

/-- A record of one model is not the one of another model with an id. -/
theorem not_isAt {other : Text} {each : LiveRecord} (member : each ∈ ofModel live model)
    (apart : other ≠ model) (id : Value) : each.isAt other id = false := by
  have elsewhere : each.model ≠ other := by
    rw [(mem_ofModel.mp member).2]
    exact apart.symm
  simp [isAt, elsewhere]

theorem Tabulates.names_nodup (tabulates : Tabulates records live)
    (distinct : (live.map LiveRecord.id).Nodup) (model : Text) :
    (Keyed.names (records.table model)).Nodup := by
  rw [tabulates.rows, names_rows]
  exact distinct.sublist (ofModel_sublist live model)

/-- With no id twice, a live record is the one that is found under its id. -/
theorem Tabulates.find?_live {each : LiveRecord} (tabulates : Tabulates records live)
    (distinct : (live.map LiveRecord.id).Nodup) (member : each ∈ ofModel live model) :
    records.find? model each.id = some each.entries := by
  rw [find?, ← Keyed.mem_iff_get? (tabulates.names_nodup distinct model), tabulates.rows]
  exact List.mem_map_of_mem member

theorem Tabulates.create {id : Text} {now : Instant} {values : Entries} {number : Nat}
    (tabulates : Tabulates records live) (fresh : id ∉ live.map LiveRecord.id) :
    Tabulates (records.addUnder model id (stamped id (.text now.stamp) (.text now.stamp) values))
      (live ++ [⟨number, model, id, now,
        stamped id (.text now.stamp) (.text now.stamp) values⟩]) where
  rows other := by
    rw [table_addUnder, ofModel, List.filter_append, List.map_append]
    by_cases same : model = other
    · subst same
      have absent : Keyed.get? (records.table model) id = none := by
        rw [← Option.not_isSome_iff_eq_none, ← Keyed.mem_names_iff, tabulates.rows, names_rows]
        exact fun member => fresh ((ofModel_sublist live model).mem member)
      rw [if_pos rfl, Keyed.put_of_get?_eq_none _ absent, tabulates.rows]
      simp [ofModel, row]
    · simp [same, tabulates.rows, ofModel]
  id each member := by
    rcases List.mem_append.mp member with old | new
    · exact tabulates.id each old
    · rw [List.mem_singleton.mp new, get?_stamped]
      rfl
  createdAt each member := by
    rcases List.mem_append.mp member with old | new
    · exact tabulates.createdAt each old
    · rw [List.mem_singleton.mp new, get?_stamped]
      rfl

/-- Changing values moves no record to another model. -/
theorem ofModel_changed (live : List LiveRecord) (model other : Text) (id : Value) (now : Instant)
    (changes : Entries) :
    ofModel (live.map fun each => if each.isAt other id then each.changed now changes else each)
        model =
      (ofModel live model).map fun each =>
        if each.isAt other id then each.changed now changes else each := by
  rw [ofModel, List.filter_map, ofModel]
  congr 1
  refine List.filter_congr ?_
  intro each _
  rw [Function.comp_apply]
  split <;> rfl

theorem ofModel_filter (live : List LiveRecord) (model : Text) (test : LiveRecord → Bool) :
    ofModel (live.filter test) model = (ofModel live model).filter test := by
  simp only [ofModel, List.filter_filter, Bool.and_comm]

/-- The row of a record after an update of the one with an id. -/
theorem Tabulates.row_changed {id : Text} {existing changes : Entries} {now : Instant}
    {each : LiveRecord} (tabulates : Tabulates records live)
    (distinct : (live.map LiveRecord.id).Nodup) (there : records.find? model id = some existing)
    (member : each ∈ ofModel live model) :
    row (if each.isAt model (.text id) then each.changed now changes else each) =
      if each.id = id then
        (id, stamped id (Entries.get existing "createdAt") (.text now.stamp)
          (Entries.merge existing changes))
      else row each := by
  by_cases same : each.id = id
  · subst same
    have found := tabulates.find?_live distinct member
    rw [there] at found
    cases found
    simp [row, isAt, (mem_ofModel.mp member).2, changed, Entries.get,
      tabulates.createdAt each (mem_ofModel.mp member).1]
  · simp [row, isAt, Ne.symm same, same]

theorem Tabulates.update {id : Text} {existing changes : Entries} {now : Instant}
    (tabulates : Tabulates records live) (distinct : (live.map LiveRecord.id).Nodup)
    (there : records.find? model id = some existing) :
    Tabulates (records.putRecord model id (stamped id (Entries.get existing "createdAt")
        (.text now.stamp) (Entries.merge existing changes)))
      (live.map fun each =>
        if each.isAt model (.text id) then each.changed now changes else each) where
  rows other := by
    rw [table_putRecord, ofModel_changed]
    split
    · next same =>
        subst same
        have named : id ∈ Keyed.names (records.table model) := by
          rw [Keyed.mem_names_iff, ← find?, there, Option.isSome_some]
        rw [Keyed.put_eq_map (tabulates.names_nodup distinct model) named, tabulates.rows,
          List.map_map, List.map_map]
        refine List.map_congr_left fun each member => ?_
        exact (tabulates.row_changed distinct there member).symm
    · next apart =>
        rw [tabulates.rows, List.map_map]
        refine List.map_congr_left fun each member => ?_
        rw [Function.comp_apply, not_isAt member apart, if_neg Bool.false_ne_true]
  id each member := by
    obtain ⟨before, old, rfl⟩ := List.mem_map.mp member
    split
    · rw [changed, get?_stamped]
      rfl
    · exact tabulates.id before old
  createdAt each member := by
    obtain ⟨before, old, rfl⟩ := List.mem_map.mp member
    split
    · rw [changed, get?_stamped]
      rfl
    · exact tabulates.createdAt before old

theorem Tabulates.delete {id : Text} (tabulates : Tabulates records live) :
    Tabulates (records.remove model id) (live.filter fun each => !each.isAt model (.text id)) where
  rows other := by
    rw [table_remove, ofModel_filter]
    split
    · next same =>
        subst same
        rw [Keyed.erase, tabulates.rows, List.filter_map]
        congr 1
        refine List.filter_congr ?_
        intro each member
        simp [isAt, row, (mem_ofModel.mp member).2, eq_comm]
    · next apart =>
        rw [tabulates.rows, List.filter_eq_self.mpr]
        intro each member
        rw [not_isAt member apart, Bool.not_false]
  id each member := tabulates.id each (List.mem_filter.mp member).1
  createdAt each member := tabulates.createdAt each (List.mem_filter.mp member).1

/-- One call. -/
theorem Tabulates.step [Host] {run : RecordRun} {call : RecordChange}
    (tabulates : Tabulates run.records run.live) (distinct : (run.live.map LiveRecord.id).Nodup)
    (fresh : ∀ id, call.drawn? = some id → id ∉ run.live.map LiveRecord.id) :
    Tabulates (run.step call).records (run.step call).live := by
  cases call with
  | create id now model values unique =>
      rcases createUnder_cases id now model values unique run.records with
        ⟨_, failed⟩ | ⟨-, done⟩
      · rw [RecordRun.step, RecordChange.perform, failed]
        exact tabulates
      · rw [RecordRun.step, RecordChange.perform, done]
        exact tabulates.create (fresh id rfl)
  | update now model id changes unique =>
      rcases update_cases now model id changes unique run.records with
        ⟨_, failed⟩ | ⟨key, existing, rfl, there, -, done⟩
      · rw [RecordRun.step, RecordChange.perform, failed]
        exact tabulates
      · rw [RecordRun.step, RecordChange.perform, done]
        exact tabulates.update distinct there
  | delete model id =>
      rcases delete_cases model id run.records with
        ⟨_, failed⟩ | none | ⟨key, _, rfl, -, done⟩
      · rw [RecordRun.step, RecordChange.perform, failed]
        exact tabulates
      · rw [RecordRun.step, RecordChange.perform, none]
        exact tabulates
      · rw [RecordRun.step, RecordChange.perform, done]
        exact tabulates.delete

end MemoryRecords

namespace RecordRun

open LiveRecord MemoryRecords

variable [Host] {calls : List RecordChange}

theorem ids_sublist (calls : List RecordChange) :
    ((after calls).live.map LiveRecord.id).Sublist (calls.filterMap RecordChange.drawn?) := by
  refine map_live_sublist RecordChange.drawn? (fun _ _ _ => rfl) ?_ calls
  intro call number live created
  cases call <;> cases created
  rfl

theorem createdAt_sublist (calls : List RecordChange) :
    ((after calls).live.map createdAt).Sublist (calls.filterMap RecordChange.reading?) := by
  refine map_live_sublist RecordChange.reading? (fun _ _ _ => rfl) ?_ calls
  intro call number live created
  cases call <;> cases created
  rfl

theorem numbers_sublist (calls : List RecordChange) :
    ((after calls).live.map number).Sublist (List.range calls.length) := by
  induction calls using List.reverseRecOn with
  | nil => exact .slnil
  | append_singleton calls call ih =>
      rw [after_append, List.length_append, List.length_singleton, List.range_succ]
      refine (map_step_sublist _ call fun _ _ _ => rfl).trans (ih.append ?_)
      rw [made_after]
      cases call with
      | create id now model values unique => exact .refl _
      | update now model id changes unique => exact List.nil_sublist _
      | delete model id => exact List.nil_sublist _

/-- The whole run. -/
theorem tabulates_after (distinct : (calls.filterMap RecordChange.drawn?).Nodup) :
    Tabulates (after calls).records (after calls).live := by
  induction calls using List.reverseRecOn with
  | nil => exact tabulates_empty
  | append_singleton calls call ih =>
      rw [List.filterMap_append, List.nodup_append] at distinct
      obtain ⟨before, -, apart⟩ := distinct
      rw [after_append]
      refine (ih before).step (before.sublist (ids_sublist calls)) ?_
      intro id drawn member
      exact apart id ((ids_sublist calls).mem member) id (by simp [drawn]) rfl

/-! ## The list of a model -/

/-- The list of a model after a run: an order of its live records in which each occurs once, by the
instant of creation, and for equal instants by the call of creation. -/
structure Lists (run : RecordRun) (model : Text) (order : List LiveRecord) : Prop where
  complete : order.Perm (ofModel run.live model)
  distinct : (order.map LiveRecord.id).Nodup
  current : run.records.list model = order.map entries
  identified : ∀ each ∈ order, Entries.get? each.entries "id" = some (.text each.id)
  ordered : order.Pairwise fun first second =>
    first.createdAt.microseconds < second.createdAt.microseconds ∨
      first.createdAt = second.createdAt ∧ first.number < second.number

/-- The live records of a model by the instant of creation. -/
def arranged (run : RecordRun) (model : Text) : List LiveRecord :=
  arrange (fun first second => first.createdAt.le second.createdAt) (ofModel run.live model)

omit [Host] in
/-- By their stamps, records are arranged as by the instants they were created at. -/
theorem list_eq {run : RecordRun} (tabulates : Tabulates run.records run.live)
    (legible : ∀ each ∈ run.live, 1000 ≤ each.createdAt.year) (model : Text) :
    run.records.list model = (run.arranged model).map entries := by
  have stamp : ∀ each ∈ ofModel run.live model,
      creationText each.entries = each.createdAt.stamp := by
    intro each member
    rw [creationText, Entries.get, tabulates.createdAt each (mem_ofModel.mp member).1]
    rfl
  rw [MemoryRecords.list, tabulates.rows, List.map_map, arranged]
  refine (map_arrange (fun first second => Text.le (creationText first) (creationText second))
    entries (ofModel run.live model)).symm.trans (congrArg _ (arrange_congr ?_))
  intro first member second also
  rw [stamp first member, stamp second also]
  exact Instant.le_stamp (legible first (mem_ofModel.mp member).1)
    (legible second (mem_ofModel.mp also).1)

omit [Host] in
theorem ordered_arranged {run : RecordRun}
    (numbered : run.live.Pairwise fun first second => first.number < second.number)
    (model : Text) : (run.arranged model).Pairwise fun first second =>
      first.createdAt.microseconds < second.createdAt.microseconds ∨
        first.createdAt = second.createdAt ∧ first.number < second.number := by
  have byTime : (run.arranged model).Pairwise fun first second =>
      first.createdAt.le second.createdAt := by
    refine pairwise_arrange ?_ ?_ _
    · intro first second
      simp only [Instant.le, Bool.or_eq_true, decide_eq_true_eq]
      exact Nat.le_total _ _
    · intro first second third left right
      simp only [Instant.le, decide_eq_true_eq] at left right ⊢
      exact Nat.le_trans left right
  have byNumber : (run.arranged model).Pairwise fun first second =>
      second.createdAt.le first.createdAt → first.number < second.number :=
    stable_arrange (numbered.sublist List.filter_sublist)
  refine (byTime.and byNumber).imp ?_
  rintro first second ⟨leads, stands⟩
  simp only [Instant.le, decide_eq_true_eq] at leads stands
  rcases Nat.lt_or_eq_of_le leads with less | same
  · exact .inl less
  · exact .inr ⟨Instant.eq_of_microseconds_eq same, stands (Nat.le_of_eq same.symm)⟩

theorem numbered_after (calls : List RecordChange) :
    (after calls).live.Pairwise fun first second => first.number < second.number :=
  List.pairwise_map.mp (List.pairwise_lt_range.sublist (numbers_sublist calls))

theorem legible_after (orderly : Orderly calls) :
    ∀ each ∈ (after calls).live, 1000 ≤ each.createdAt.year := by
  intro each member
  exact orderly.legible _ ((createdAt_sublist calls).mem (List.mem_map_of_mem member))

omit [Host] in
theorem lists_arranged {run : RecordRun} (tabulates : Tabulates run.records run.live)
    (distinct : (run.live.map LiveRecord.id).Nodup)
    (numbered : run.live.Pairwise fun first second => first.number < second.number)
    (legible : ∀ each ∈ run.live, 1000 ≤ each.createdAt.year) (model : Text) :
    Lists run model (run.arranged model) where
  complete := perm_arrange _ _
  distinct := ((perm_arrange _ _).map _).nodup_iff.mpr
    (distinct.sublist (ofModel_sublist run.live model))
  current := list_eq tabulates legible model
  identified each member :=
    tabulates.id each (mem_ofModel.mp ((perm_arrange _ _).mem_iff.mp member)).1
  ordered := ordered_arranged numbered model

/-- What the place of a record in the list depends on. -/
def place (live : LiveRecord) : Instant × Nat := (live.createdAt, live.number)

theorem places_step (run : RecordRun) (now : Instant) (other : Text) (id : Value)
    (changes : Entries) (unique : List Text) (model : Text) :
    (ofModel (run.step (.update now other id changes unique)).live model).map place =
      (ofModel run.live model).map place := by
  rw [step]
  simp only
  split
  · rw [RecordChange.note, ofModel_changed, List.map_map]
    refine List.map_congr_left ?_
    intro each _
    rw [Function.comp_apply]
    split <;> rfl
  · rfl

omit [Host] in
theorem places_arranged (run : RecordRun) (model : Text) :
    (run.arranged model).map place =
      arrange (fun first second => first.1.le second.1) ((ofModel run.live model).map place) :=
  map_arrange (fun first second : Instant × Nat => first.1.le second.1) place _

/-- An update leaves every record at its place in the list. -/
theorem numbers_arranged_step (run : RecordRun) (now : Instant) (other : Text) (id : Value)
    (changes : Entries) (unique : List Text) (model : Text) :
    ((run.step (.update now other id changes unique)).arranged model).map number =
      (run.arranged model).map number := by
  have places := congrArg (List.map Prod.snd) ((places_arranged _ model).trans
    ((congrArg (arrange fun first second => first.1.le second.1)
      (places_step run now other id changes unique model)).trans (places_arranged run model).symm))
  rwa [List.map_map, List.map_map] at places

omit [Host] in
theorem orderly_append_update (orderly : Orderly calls) {now : Instant}
    (legible : 1000 ≤ now.year) (model : Text) (id : Value) (changes : Entries)
    (unique : List Text) : Orderly (calls ++ [.update now model id changes unique]) where
  distinct := by
    rw [List.filterMap_append]
    exact (List.append_nil _).symm ▸ orderly.distinct
  legible reading member := by
    rw [List.filterMap_append] at member
    rcases List.mem_append.mp member with earlier | last
    · exact orderly.legible reading earlier
    · rw [List.mem_singleton.mp last]
      exact legible

theorem lists_after (orderly : Orderly calls) (model : Text) :
    Lists (after calls) model ((after calls).arranged model) :=
  lists_arranged (tabulates_after orderly.distinct) (orderly.distinct.sublist (ids_sublist calls))
    (numbered_after calls) (legible_after orderly) model

/-- **A list is complete and in order of creation.**  Whatever creates, updates and removals were
made, with ids that are all different and a clock that may also go back, the list of a model is an
order of its live records as `Lists` says.  An update changes the place of no record, and when the
clock never goes back the order is the order of creation. -/
theorem list_complete (orderly : Orderly calls) (model : Text) :
    ∃ order, Lists (after calls) model order ∧
      (∀ now other id changes unique, 1000 ≤ now.year →
        ∃ later, Lists (after (calls ++ [.update now other id changes unique])) model later ∧
          later.map number = order.map number) ∧
      ((calls.filterMap RecordChange.reading?).Pairwise (fun first second => first.le second) →
        order = ofModel (after calls).live model) := by
  refine ⟨(after calls).arranged model, lists_after orderly model, ?_, ?_⟩
  · intro now other id changes unique legible
    have also := orderly_append_update orderly legible other id changes unique
    refine ⟨_, lists_after also model, ?_⟩
    rw [after_append]
    exact numbers_arranged_step _ now other id changes unique model
  · intro steady
    have ordered := steady.sublist (createdAt_sublist calls)
    exact arrange_of_pairwise ((List.pairwise_map.mp ordered).sublist List.filter_sublist)

end RecordRun

/-! ## A clock that is set back -/

namespace RecordRun

open LiveRecord MemoryRecords

/-- The moment at which a first note is created. -/
def saturday : Instant := ⟨63840114000000000, by decide⟩

/-- The moment to which the clock is set back. -/
def friday : Instant := ⟨63840027600000000, by decide⟩

/-- Two notes, the second of which is created after the clock was set back; then the first one is
changed. -/
def setBack : List RecordChange :=
  [.create "n1" saturday "note" [("title", "Plan")] [],
    .create "n2" friday "note" [("title", "Budget")] [],
    .update friday "note" "n1" [("title", "Outline")] []]

theorem set_back_listed_first : Orderly setBack ∧
    ∃ order, Lists (after setBack) "note" order ∧ order.map LiveRecord.id = ["n2", "n1"] := by
  have orderly : Orderly setBack := ⟨by decide, by decide +kernel⟩
  have live : (ofModel (after setBack).live "note").map (fun each => (each.createdAt, each.id)) =
      [(saturday, ("n1" : Text)), (friday, ("n2" : Text))] := rfl
  obtain ⟨order, lists, -⟩ := list_complete orderly "note"
  refine ⟨orderly, order, lists, ?_⟩
  have complete := lists.complete.map fun each => (each.createdAt, each.id)
  have ordered : (order.map fun each => (each.createdAt, each.id)).Pairwise
      fun first second => first.1.microseconds ≤ second.1.microseconds := by
    refine List.pairwise_map.mpr (lists.ordered.imp ?_)
    rintro first second (less | ⟨same, -⟩)
    · exact Nat.le_of_lt less
    · exact Nat.le_of_eq (congrArg Instant.microseconds same)
  rw [live] at complete
  rcases List.perm_pair.mp complete with kept | turned
  · rw [kept] at ordered
    exact absurd ordered (by decide)
  · have ids := congrArg (List.map Prod.snd) turned
    rwa [List.map_map] at ids

end RecordRun

end GovernedRecords
