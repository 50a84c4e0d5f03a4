import GovernedRecords.Proofs.Store.Directory

/-!
# A directory and memory are the same store

The calls of a definition store are made one after another on a directory that is not there and on
empty memory.  As long as every document that is written is a plain object that can be copied,
under a name that leaves room for the name and the path of the file beside its own, both stores
answer every call alike (`stores_agree`).  A document is read back as it was written, no two
names have one file, and the names that are listed are those under which something is read.

One answer differs: where the path of a file would be longer than any file's, or its name in a
directory that is there, a directory refuses to look, where memory has nothing.  Without the two
conditions on what is written the stores part (`stores_differ`).

The run keeps the directory and memory in step: the directory holds the files of the documents that
are in memory (`Mirrors`).
-/

set_option autoImplicit false

namespace GovernedRecords

/-- A call of a definition store. -/
inductive StoreCall where
  | read (name : Text)
  | write (now : Instant) (name : Text) (document : Value)
  | delete (name : Text)
  | names

/-- What a call of a definition store returns. -/
inductive StoreAnswer where
  | document (found : Option Value)
  | done
  | removed (there : Bool)
  | names (listed : List Text)

/-- A document that every store keeps: a plain object of which there is a copy. -/
structure Value.IsStorable [Host] (document : Value) : Prop where
  object : ∃ entries, document = .object entries
  plain : document.IsPlain
  copyable : ∃ copied, document.copy = .ok copied

namespace Value.IsStorable

variable [Host] {document : Value}

theorem copy (storable : document.IsStorable) : document.copy = .ok document := by
  obtain ⟨copied, copy⟩ := storable.copyable
  rw [copy, Value.copy_eq_ok copy]

theorem isNull (storable : document.IsStorable) : document.isNull = false := by
  obtain ⟨entries, rfl⟩ := storable.object
  rfl

theorem exists_contents (storable : document.IsStorable) :
    ∃ octets, Directory.contents document = .ok octets ∧
      ∀ file, Directory.document file octets = .ok document := by
  have shallow := Value.nesting_le_of_copy storable.copy
  obtain ⟨entries, rfl⟩ := storable.object
  exact Directory.exists_contents_object storable.plain
    (Nat.le_trans shallow Host.copied_le_written) (Nat.le_trans shallow Host.copied_le_parsed)

end Value.IsStorable

namespace StoreCall

/-- A call with the name of a model; a write has a storable document and a name that leaves room
for the file beside its own. -/
def Fits [Host] : StoreCall → Prop
  | .read name => name.isModelName = true
  | .write _ name document => name.isModelName = true ∧
      Directory.hasRoomBeside name = true ∧ document.IsStorable
  | .delete name => name.isModelName = true
  | .names => True

/-- Whether a directory looks for a file whose name or path is longer than any file's. -/
def isBeyond [Host] (directory : Directory) : StoreCall → Bool
  | .read name => directory.isBeyond (Directory.fileName name)
  | .delete name => directory.isBeyond (Directory.fileName name)
  | _ => false

end StoreCall

namespace DefinitionStore

variable {σ : Type}

/-- A call of a store, with its answer. -/
def perform (store : DefinitionStore σ) : StoreCall → Operation σ StoreAnswer
  | .read name => StoreAnswer.document <$> store.read name
  | .write now name document => (fun _ => StoreAnswer.done) <$> store.write now name document
  | .delete name => StoreAnswer.removed <$> store.delete name
  | .names => StoreAnswer.names <$> store.names

/-- The state that some calls leave, one after another. -/
def after (store : DefinitionStore σ) (calls : List StoreCall) (state : σ) : σ :=
  calls.foldl (fun state call => ((store.perform call).on state).2) state

end DefinitionStore

/-- A directory holds the files of the documents that are in memory. -/
structure Mirrors [Host] (directory : Directory) (documents : MemoryDefinitions) : Prop where
  files : directory.HoldsFiles documents
  storable : ∀ name document, Keyed.get? documents name = some document → document.IsStorable
  distinct : (Keyed.names documents).Nodup

namespace Mirrors

variable [Host] {directory : Directory} {documents : MemoryDefinitions} {name : Text}

theorem empty : Mirrors none [] where
  files := Directory.holdsFiles_nil .nil rfl
  storable := by
    intro _ _ impossible
    cases impossible
  distinct := .nil

/-- What is in memory is read as it is. -/
theorem document?_eq (mirrors : Mirrors directory documents) (name : Text) :
    MemoryDefinitions.document? documents name = Keyed.get? documents name := by
  rw [MemoryDefinitions.document?]
  cases stored : Keyed.get? documents name with
  | none => rfl
  | some document => simp [Option.filter, (mirrors.storable name document stored).isNull]

/-- What is in memory can be copied. -/
theorem mapM_copy (mirrors : Mirrors directory documents) (name : Text) :
    (MemoryDefinitions.document? documents name).mapM Value.copy =
      .ok (Keyed.get? documents name) := by
  rw [mirrors.document?_eq]
  cases stored : Keyed.get? documents name with
  | none => rfl
  | some document =>
      rw [Option.mapM_some, (mirrors.storable name document stored).copy]
      rfl

theorem put (mirrors : Mirrors directory documents) {document : Value} {other : Directory}
    (storable : document.IsStorable)
    (files : other.HoldsFiles (Keyed.put name document documents)) :
    Mirrors other (Keyed.put name document documents) where
  files := files
  storable := by
    intro asked found stored
    rw [Keyed.get?_put] at stored
    split at stored
    · cases stored
      exact storable
    · exact mirrors.storable asked found stored
  distinct := Keyed.nodup_names_put _ _ mirrors.distinct

theorem erase (mirrors : Mirrors directory documents) {other : Directory}
    (files : other.HoldsFiles (Keyed.erase name documents)) :
    Mirrors other (Keyed.erase name documents) where
  files := files
  storable := by
    intro asked found stored
    rw [Keyed.get?_erase] at stored
    split at stored
    · cases stored
    · exact mirrors.storable asked found stored
  distinct := Keyed.nodup_names_erase _ mirrors.distinct

/-- The same names are listed. -/
theorem modelNames_eq (mirrors : Mirrors directory documents) :
    directory.modelNames = Text.sorted (Keyed.names documents) := by
  refine Text.sorted_eq_of_mem_iff (Directory.nodup_modelOf? mirrors.files.distinct)
    mirrors.distinct fun name => ?_
  rw [mirrors.files.modelOf? name, Keyed.mem_names_iff]

/-- A storable document is written, in a directory and in memory. -/
theorem write (mirrors : Mirrors directory documents) (now : Instant)
    (named : name.isModelName = true)
    (room : Directory.hasRoomBeside name = true) {document : Value}
    (storable : document.IsStorable) :
    ∃ other, (Directory.store.write now name document).on directory = (.ok (), other) ∧
      (MemoryDefinitions.store.write now name document).on documents =
        (.ok (), Keyed.put name document documents) ∧
      Mirrors other (Keyed.put name document documents) := by
  obtain ⟨octets, written, readable⟩ := storable.exists_contents
  obtain ⟨other, done, files⟩ := mirrors.files.write named room written readable
  refine ⟨other, done, ?_, mirrors.put storable files⟩
  simp only [MemoryDefinitions.store, Operation.on_of, named, storable.copy, if_true]

/-- **A call that fits has the same answer from both stores**, unless the directory looks for a name
that is longer than any file's, and leaves them in step. -/
theorem perform (mirrors : Mirrors directory documents) {call : StoreCall} (fits : call.Fits) :
    ∃ answer other remaining,
      (MemoryDefinitions.store.perform call).on documents = (.ok answer, remaining) ∧
      (Directory.store.perform call).on directory =
        (if call.isBeyond directory then .error .longName else .ok answer, other) ∧
      Mirrors other remaining := by
  cases call with
  | read name =>
      have found := mirrors.files.read fits
      refine ⟨.document (Keyed.get? documents name), directory, documents, ?_, ?_, mirrors⟩
      · simp only [DefinitionStore.perform, Operation.on_map, MemoryDefinitions.store,
          Operation.on_of, mirrors.mapM_copy, Except.map]
      · cases beyond : directory.isBeyond (Directory.fileName name) <;>
          simp [DefinitionStore.perform, Directory.store, StoreCall.isBeyond, found, beyond,
            Except.map]
  | write now name document =>
      obtain ⟨named, room, storable⟩ := fits
      obtain ⟨other, done, put, kept⟩ := mirrors.write now named room storable
      refine ⟨.done, other, _, ?_, ?_, kept⟩
      · simp only [DefinitionStore.perform, Operation.on_map, put, Except.map]
      · simp only [DefinitionStore.perform, Operation.on_map, done, StoreCall.isBeyond, Except.map,
          Bool.false_eq_true, if_false]
  | delete name =>
      obtain ⟨other, done, kept⟩ := mirrors.files.delete fits
      refine ⟨.removed (Keyed.get? documents name).isSome, other, Keyed.erase name documents, ?_,
        ?_, mirrors.erase kept⟩
      · simp only [DefinitionStore.perform, Operation.on_map, MemoryDefinitions.store,
          Operation.on_of, MemoryDefinitions.delete, Keyed.has_eq_isSome, Except.map]
      · cases beyond : directory.isBeyond (Directory.fileName name) <;>
          simp [DefinitionStore.perform, Directory.store, StoreCall.isBeyond, done, beyond,
            Except.map]
  | names =>
      refine ⟨.names directory.modelNames, directory, documents, ?_, rfl, mirrors⟩
      simp only [DefinitionStore.perform, Operation.on_map, MemoryDefinitions.store,
        Operation.on_of, mirrors.modelNames_eq, Except.map]

/-- Calls that fit leave the stores in step. -/
theorem after (mirrors : Mirrors directory documents) {calls : List StoreCall}
    (fit : ∀ call ∈ calls, call.Fits) :
    Mirrors (Directory.store.after calls directory)
      (MemoryDefinitions.store.after calls documents) := by
  induction calls generalizing directory documents with
  | nil => exact mirrors
  | cons call rest ih =>
      obtain ⟨first, others⟩ := List.forall_mem_cons.mp fit
      obtain ⟨answer, other, remaining, inMemory, inDirectory, kept⟩ := mirrors.perform first
      rw [DefinitionStore.after, DefinitionStore.after, List.foldl_cons, List.foldl_cons, inMemory,
        inDirectory]
      exact ih kept others

end Mirrors

/-- **A directory and memory are the same store.**  After any run of calls that fit, on a directory
that is not there and on empty memory, every call that fits has the same answer from both, unless
it looks in a directory for a name that is longer than any file's; what is written is read back;
the names listed are those under which something is read; and no two names have one file. -/
theorem stores_agree [Host] {calls : List StoreCall} (fit : ∀ call ∈ calls, call.Fits) :
    let directory := Directory.store.after calls none
    let documents := MemoryDefinitions.store.after calls []
    (∀ call : StoreCall, call.Fits → ∃ answer,
      ((MemoryDefinitions.store.perform call).on documents).1 = .ok answer ∧
        ((Directory.store.perform call).on directory).1 =
          if call.isBeyond directory then .error .longName else .ok answer) ∧
    (∀ now name document, (StoreCall.write now name document).Fits →
      ((Directory.store.read name).on
        ((Directory.store.write now name document).on directory).2).1 = .ok (some document)) ∧
    (∃ listed, (Directory.store.names.on directory).1 = .ok listed ∧ ∀ name, name ∈ listed ↔
      ∃ document, ((Directory.store.read name).on directory).1 = .ok (some document)) ∧
    ∀ first second, Directory.fileName first = Directory.fileName second → first = second := by
  intro directory documents
  have mirrors : Mirrors directory documents := Mirrors.empty.after fit
  refine ⟨fun call fits => ?_, fun now name document fits => ?_, ?_, fun _ _ =>
    Directory.fileName_injective⟩
  · obtain ⟨answer, other, remaining, inMemory, inDirectory, -⟩ := mirrors.perform fits
    exact ⟨answer, by rw [inMemory], by rw [inDirectory]⟩
  · obtain ⟨named, room, storable⟩ := fits
    obtain ⟨other, done, -, kept⟩ := mirrors.write now named room storable
    have short := (Directory.isPlaceable_of_hasRoomBeside named room).isBeyond_eq_false other
    have read := kept.files.read named
    rw [short, if_neg Bool.false_ne_true, Keyed.get?_put_self] at read
    rw [done]
    exact read
  · refine ⟨_, rfl, fun name => ?_⟩
    rw [mirrors.modelNames_eq, (Text.perm_sorted _).mem_iff, Keyed.mem_names_iff]
    have read : ((Directory.store.read name).on directory).1 = Directory.read name directory := rfl
    rw [read]
    cases named : name.isModelName with
    | false =>
        have absent : (Keyed.get? documents name).isSome = false := by
          rw [← Bool.not_eq_true]
          intro there
          rw [(mirrors.files.short name there).1] at named
          cases named
        simp [Directory.read, named, absent]
    | true =>
        rw [mirrors.files.read named, Option.isSome_iff_exists]
        split
        · next beyond => simp [mirrors.files.get?_of_isBeyond beyond]
        · simp

/-- A document whose text holds a quote, a backslash, controls and letters beyond ASCII. -/
def quotedDocument : Value :=
  .ofFields [("title", "\"\\\n\u0001é😀"), ("parts", .list [.null, .bool true])]

/-- A run that writes two documents and removes one of them. -/
def quotedCalls (now : Instant) : List StoreCall :=
  [.write now "note" (.ofFields []), .write now "task" (.ofFields []), .delete "task", .names]

/-- Whatever stands in the text of a document, it is read back. -/
theorem quoted_document_read_back :
    let now : Instant := ⟨0, by decide⟩
    (∀ call ∈ quotedCalls now, call.Fits) ∧ (StoreCall.write now "note" quotedDocument).Fits ∧
      ((Directory.store.read "note").on ((Directory.store.write now "note" quotedDocument).on
        (Directory.store.after (quotedCalls now) none)).2).1 = .ok (some quotedDocument) := by
  intro now
  have empty : (Value.ofFields []).IsStorable := ⟨⟨[], rfl⟩, trivial, _, rfl⟩
  have quoted : quotedDocument.IsStorable := by
    refine ⟨⟨_, rfl⟩, Value.isPlain_ofFields (by decide) ?_, _, rfl⟩
    simp only [List.forall_mem_cons]
    exact ⟨⟨Text.isPlain_ofString, Text.isPlain_ofString⟩,
      ⟨Text.isPlain_ofString, trivial, trivial, trivial⟩, List.forall_mem_nil _⟩
  have fits : (StoreCall.write now "note" quotedDocument).Fits := ⟨by decide, by decide, quoted⟩
  have fit : ∀ call ∈ quotedCalls now, call.Fits := by
    simp only [quotedCalls, List.forall_mem_cons]
    have named : Text.isModelName "task" = true := by decide
    exact ⟨⟨by decide, by decide, empty⟩, ⟨named, by decide, empty⟩, named, trivial,
      List.forall_mem_nil _⟩
  exact ⟨fit, fits, (stores_agree fit).2.1 _ _ _ fits⟩

/-! ## Where the stores part -/

/-- Under a name that is too long for a file, memory takes a document that a directory refuses. -/
theorem kept_by_memory_only [Host] {name : Text} (named : name.isModelName = true)
    (long : Directory.hasRoomBeside name = false) {document : Value}
    (storable : document.IsStorable) (now : Instant) (directory : Directory)
    (documents : MemoryDefinitions) :
    ((MemoryDefinitions.store.perform (.write now name document)).on documents).1 = .ok .done ∧
      ((Directory.store.perform (.write now name document)).on directory).1 =
        .error .longName := by
  constructor
  · simp only [DefinitionStore.perform, Operation.on_map, MemoryDefinitions.store, Operation.on_of,
      named, storable.copy, if_true, Except.map]
  · simp only [DefinitionStore.perform, Operation.on_map, Directory.store, Operation.on_of,
      Directory.write_eq, named, long, Bool.not_false, if_true, Except.map]

/-- A plain object that is nested too deeply for memory to copy is kept by a directory, as long as
it is not nested too deeply to be written and read. -/
theorem kept_by_directory_only [Host] {name : Text} (named : name.isModelName = true)
    (room : Directory.hasRoomBeside name = true) {document : Value}
    (object : ∃ entries, document = .object entries) (plain : document.IsPlain)
    (deep : Host.copied < document.nesting) (writable : document.nesting ≤ Host.written)
    (parsable : document.nesting ≤ Host.parsed) (now : Instant) :
    ((MemoryDefinitions.store.perform (.write now name document)).on []).1 = .error .tooDeep ∧
      ∃ directory, (Directory.store.perform (.write now name document)).on none =
          (.ok .done, directory) ∧
        ((Directory.store.perform (.read name)).on directory).1 =
          .ok (.document (some document)) := by
  obtain ⟨entries, rfl⟩ := object
  have uncopied : (Value.object entries).copy = .error .tooDeep := if_pos deep
  obtain ⟨octets, written, readable⟩ :=
    Directory.exists_contents_object plain writable parsable
  obtain ⟨directory, done, kept⟩ := Mirrors.empty.files.write named room written readable
  have short := (Directory.isPlaceable_of_hasRoomBeside named room).isBeyond_eq_false directory
  have read := kept.read named
  rw [short, if_neg Bool.false_ne_true, Keyed.get?_put_self] at read
  refine ⟨?_, directory, ?_, ?_⟩
  · simp only [DefinitionStore.perform, Operation.on_map, MemoryDefinitions.store, Operation.on_of,
      named, uncopied, if_true, Except.map]
  · simp only [DefinitionStore.perform, Operation.on_map, Directory.store, Operation.on_of, done,
      Except.map]
  · simp only [DefinitionStore.perform, Operation.on_map, Directory.store, Operation.on_of, read,
      Except.map]

/-- Objects inside one another. -/
def nestedObjects : Nat → Value
  | 0 => .ofFields []
  | depth + 1 => .ofFields [("a", nestedObjects depth)]

theorem nesting_nestedObjects (depth : Nat) : (nestedObjects depth).nesting = depth + 1 := by
  induction depth with
  | zero => rfl
  | succ depth ih =>
      simp [nestedObjects, Value.ofFields, Value.nesting, Value.nestingOfEntries, ih]

theorem isPlain_nestedObjects (depth : Nat) : (nestedObjects depth).IsPlain := by
  induction depth with
  | zero => trivial
  | succ depth ih =>
      refine Value.isPlain_ofFields (List.nodup_singleton _) (List.forall_mem_singleton.mpr ?_)
      exact ⟨Text.isPlain_ofString, ih⟩

theorem exists_nestedObjects (depth : Nat) : ∃ entries, nestedObjects depth = .object entries := by
  cases depth <;> exact ⟨_, rfl⟩

/-- Without the conditions on what is written the stores part: memory alone takes an empty document
under a name of three hundred letters, and a directory alone takes and gives back six hundred
objects inside one another. -/
theorem stores_differ :
    let name : Text := List.replicate 300 (CodePoint.ofChar 'a')
    (name.isModelName = true ∧ (nestedObjects 0).IsPlain ∧
      ((MemoryDefinitions.store.perform (.write ⟨0, by decide⟩ name (nestedObjects 0))).on []).1 =
        .ok .done ∧
      ((Directory.store.perform (.write ⟨0, by decide⟩ name (nestedObjects 0))).on none).1 =
        .error .longName) ∧
    (nestedObjects 599).IsPlain ∧
      ((MemoryDefinitions.store.perform
        (.write ⟨0, by decide⟩ "note" (nestedObjects 599))).on []).1 = .error .tooDeep ∧
      ∃ directory, (Directory.store.perform
          (.write ⟨0, by decide⟩ "note" (nestedObjects 599))).on none = (.ok .done, directory) ∧
        ((Directory.store.perform (.read "note")).on directory).1 =
          .ok (.document (some (nestedObjects 599))) := by
  have named : Text.isModelName (List.replicate 300 (CodePoint.ofChar 'a')) = true := by decide
  have long : Directory.hasRoomBeside (List.replicate 300 (CodePoint.ofChar 'a')) = false := by
    rw [Directory.hasRoomBeside, List.length_replicate]
    decide
  have shallow : (nestedObjects 0).IsStorable :=
    ⟨exists_nestedObjects 0, isPlain_nestedObjects 0, _, rfl⟩
  exact ⟨⟨named, isPlain_nestedObjects 0, kept_by_memory_only named long shallow _ _ _⟩,
    isPlain_nestedObjects 599, kept_by_directory_only (by decide) (by decide)
      (exists_nestedObjects 599) (isPlain_nestedObjects 599)
      (by rw [nesting_nestedObjects]; decide) (by rw [nesting_nestedObjects]; decide)
      (by rw [nesting_nestedObjects]; decide) _⟩

end GovernedRecords
