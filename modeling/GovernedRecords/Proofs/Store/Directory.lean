import GovernedRecords.Proofs.Store.Lawful
import GovernedRecords.Proofs.Store.Replacement

/-!
# A directory keeps definitions as a table does

The file of a model holds the bytes of its document, and those are read back as the document if
it is a plain object that is not nested too deeply (`exists_contents_object`): its JSON is read
back, and so are the bytes of its JSON.  The names of the files are the names of the models with
an ending, so different models have different files.  A directory that holds the files of a table
of documents, and the file of no other model, does to them what the table does (`HoldsFiles`); the
documents of definitions are such documents, so a directory is a lawful store
(`Directory.lawful`).

Some names are too long for a file.  No document is ever stored under such a name, but looking
for one in a directory that is there is a fault.
-/

set_option autoImplicit false

namespace GovernedRecords

/-- A model name is made of ASCII characters. -/
theorem Text.ascii_of_isModelName {name : Text} (named : name.isModelName = true) :
    ∀ point ∈ name, point.val < 128 := by
  have part : ∀ point : CodePoint, point.isNamePart = true → point.val < 128 := by
    intro point isPart
    have underscore : (CodePoint.ofChar '_').val = 95 := rfl
    simp only [CodePoint.isNamePart, CodePoint.isUpperLetter, CodePoint.isLowerLetter,
      CodePoint.isDigit, Bool.or_eq_true, Bool.and_eq_true, decide_eq_true_eq, Fin.ext_iff,
      underscore] at isPart
    omega
  cases name with
  | nil => exact List.forall_mem_nil _
  | cons first rest =>
      simp only [isModelName, Bool.and_eq_true] at named
      obtain ⟨⟨firstPart, -⟩, ends⟩ := named
      refine List.forall_mem_cons.mpr ⟨part first firstPart, fun point member => ?_⟩
      rw [← List.takeWhile_append_dropWhile (p := CodePoint.isNamePart) (l := rest)] at member
      rcases List.mem_append.mp member with inPart | inEnd
      · exact part point (List.all_eq_true.mp List.all_takeWhile point inPart)
      · split at ends
        · next none => simp [none] at inEnd
        · next last one =>
            rw [one, List.mem_singleton] at inEnd
            rw [inEnd, of_decide_eq_true ends]
            decide
        · cases ends

namespace Directory

variable [Host]

omit [Host] in
/-- Different models have different files. -/
theorem fileName_injective {first second : Text} (same : fileName first = fileName second) :
    first = second := by
  simpa [fileName, Text.concat] using same

omit [Host] in
/-- A file belongs to a model exactly when it has its name. -/
theorem modelOf?_eq_some {file name : Text} :
    modelOf? file = some name ↔ file = fileName name ∧ name.isModelName = true := by
  have whole : ∀ stem, fileName stem = stem ++ ending := by
    intro stem
    simp [fileName, Text.concat]
  rw [modelOf?, whole]
  by_cases ended : ending.isSuffixOf file
  · obtain ⟨stem, rfl⟩ := List.isSuffixOf_iff_suffix.mp ended
    have start : (stem ++ ending).take ((stem ++ ending).length - ending.length) = stem := by
      rw [List.length_append, Nat.add_sub_cancel, List.take_left]
    rw [if_pos ended, start, List.append_left_inj]
    by_cases named : Text.isModelName stem = true
    · rw [if_pos named, Option.some.injEq]
      constructor
      · rintro rfl
        exact ⟨rfl, named⟩
      · rintro ⟨rfl, -⟩
        rfl
    · rw [if_neg named]
      constructor
      · intro impossible
        cases impossible
      · rintro ⟨rfl, isName⟩
        exact absurd isName named
  · rw [if_neg ended]
    constructor
    · intro impossible
      cases impossible
    · rintro ⟨rfl, -⟩
      exact absurd (List.isSuffixOf_iff_suffix.mpr ⟨name, rfl⟩) ended

omit [Host] in
/-- Different files belong to different models. -/
theorem nodup_modelOf? {files : List Text} (distinct : files.Nodup) :
    (files.filterMap modelOf?).Nodup := by
  refine distinct.filterMap ?_
  intro first second name inFirst inSecond
  rw [(modelOf?_eq_some.mp inFirst).1, (modelOf?_eq_some.mp inSecond).1]

/-- A file whose name and path the system takes. -/
structure IsPlaceable (file : Text) : Prop where
  name : isFileName file = true
  path : hasPath file = true

/-- A file that the system takes is never beyond what is looked for. -/
theorem IsPlaceable.isBeyond_eq_false {file : Text} (placeable : IsPlaceable file)
    (directory : Directory) : directory.isBeyond file = false := by
  rw [isBeyond, placeable.name, placeable.path, Bool.not_true, Bool.and_false, Bool.or_false]

/-- The file of a model is one that the system takes if there is room for the file beside it. -/
theorem isPlaceable_of_hasRoomBeside {name : Text} (named : name.isModelName = true)
    (room : hasRoomBeside name = true) : IsPlaceable (fileName name) := by
  have ascii : ∀ point ∈ fileName name, point.val < 128 := by
    have ended : ∀ point ∈ ending, point.val < 128 := by
      intro point member
      have all : ending.all (·.val < 128) = true := by decide
      exact of_decide_eq_true (List.all_eq_true.mp all point member)
    intro point member
    rw [fileName, Text.concat, List.flatten_cons, List.flatten_cons, List.flatten_nil,
      List.append_nil] at member
    rcases List.mem_append.mp member with inName | inEnding
    · exact Text.ascii_of_isModelName named point inName
    · exact ended point inEnding
  obtain ⟨octets, encoded, long⟩ := Utf8.encode?_of_ascii ascii
  have lengths : (fileName name).length = name.length + 5 := by
    rw [fileName, Text.concat, List.flatten_cons, List.flatten_cons, List.flatten_nil,
      List.append_nil, List.length_append]
    rfl
  rw [hasRoomBeside, Bool.and_eq_true, decide_eq_true_eq, decide_eq_true_eq] at room
  have added : besideLength = 14 := rfl
  constructor
  · rw [isFileName, encoded]
    simp only [decide_eq_true_eq]
    omega
  · rw [hasPath, encoded]
    simp only [decide_eq_true_eq]
    omega

/-! ## Bytes of documents -/

/-- **The bytes of a plain object are read back as that object**, whatever file they stand in. -/
theorem exists_contents_object {entries : Entries} (plain : (Value.object entries).IsPlain)
    (writable : (Value.object entries).nesting ≤ Host.written)
    (parsable : (Value.object entries).nesting ≤ Host.parsed) :
    ∃ octets, contents (.object entries) = .ok octets ∧
      ∀ file, document file octets = .ok (.object entries) := by
  obtain ⟨text, written, encodable, read⟩ :=
    Json.read_write Json.indented_readable plain parsable
  obtain ⟨octets, encoded⟩ :=
    Option.isSome_iff_exists.mp ((Utf8.isSome_encode?_iff text).mpr encodable)
  have decoded : Utf8.decode? octets = some text := Utf8.decodeWith?_of_encode? encoded
  refine ⟨octets, ?_, fun file => ?_⟩
  · rw [contents, written]
    simp only [Nat.not_lt.mpr writable, encoded, if_false]
  · rw [document, decoded]
    simp only [read]

/-- The bytes of a definition without lone surrogates are read back as its document. -/
theorem exists_contents {definition : Definition} (plain : definition.IsPlain) :
    ∃ octets, contents definition.toDocument = .ok octets ∧
      ∀ file, document file octets = .ok definition.toDocument :=
  exists_contents_object (Definition.isPlain_toDocument plain)
    (Nat.le_trans definition.nesting_toDocument_le_copied Host.copied_le_written)
    (Nat.le_trans definition.nesting_toDocument_le_copied Host.copied_le_parsed)

/-- A document without bytes is not refused: it has another fault. -/
theorem contents_ne_refused (document : Value) (refusal : Refusal) :
    contents document ≠ .error (.refused refusal) := by
  intro failed
  rw [contents] at failed
  split at failed
  · next error _ =>
      cases error with
      | text error => exact Fault.ofText_ne_refused error refusal (Except.error.inj failed)
      | _ => cases failed
  · split at failed
    · cases failed
    · split at failed <;> cases failed

/-! ## The documents of a directory -/

/-- A directory holds a file for every document of a table, and a file of no other model. -/
structure HoldsFiles (directory : Directory) (documents : Keyed Value) : Prop where
  kept : ∀ name stored, Keyed.get? documents name = some stored →
    ∃ octets, Keyed.get? directory.files (fileName name) = some octets ∧
      ∀ file, document file octets = .ok stored
  only : ∀ name, name.isModelName = true →
    (Keyed.get? directory.files (fileName name)).isSome = true →
      (Keyed.get? documents name).isSome = true
  short : ∀ name, (Keyed.get? documents name).isSome = true →
    name.isModelName = true ∧ IsPlaceable (fileName name)
  distinct : (Keyed.names directory.files).Nodup

/-- A directory in which no model has a file holds the empty table. -/
theorem holdsFiles_nil {directory : Directory} (distinct : (Keyed.names directory.files).Nodup)
    (empty : directory.modelNames = []) : HoldsFiles directory [] where
  kept := by
    intro _ _ impossible
    cases impossible
  only := by
    intro name named there
    have listed : name ∈ directory.modelNames := by
      rw [modelNames, (Text.perm_sorted _).mem_iff, List.mem_filterMap]
      exact ⟨fileName name, (Keyed.mem_names_iff _ _).mpr there, modelOf?_eq_some.mpr ⟨rfl, named⟩⟩
    rw [empty] at listed
    cases listed
  short := by
    intro _ impossible
    cases impossible
  distinct := distinct

namespace HoldsFiles

variable {directory other : Directory} {documents : Keyed Value} {name : Text}

/-- What a directory holds depends on its files alone. -/
theorem of_files (holds : HoldsFiles directory documents) (same : other.files = directory.files) :
    HoldsFiles other documents where
  kept := by rw [same]; exact holds.kept
  only := by rw [same]; exact holds.only
  short := holds.short
  distinct := by rw [same]; exact holds.distinct

/-- There is a file for a model exactly when there is a document. -/
theorem isSome_get? (holds : HoldsFiles directory documents) (named : name.isModelName = true) :
    (Keyed.get? directory.files (fileName name)).isSome = (Keyed.get? documents name).isSome := by
  cases saved : Keyed.get? documents name with
  | some stored =>
      obtain ⟨octets, there, -⟩ := holds.kept name stored saved
      rw [there]
      rfl
  | none =>
      cases there : Keyed.get? directory.files (fileName name) with
      | none => rfl
      | some octets =>
          have found := holds.only name named (by rw [there]; rfl)
          rw [saved] at found
          cases found

theorem put (holds : HoldsFiles directory documents) {stored : Value} {octets : List Octet}
    (readable : ∀ file, document file octets = .ok stored) (named : name.isModelName = true)
    (short : IsPlaceable (fileName name)) :
    HoldsFiles (directory.putFile (fileName name) octets) (Keyed.put name stored documents) := by
  have files : (directory.putFile (fileName name) octets).files =
      Keyed.put (fileName name) octets directory.files := rfl
  refine ⟨fun other found read => ?_, fun other otherNamed there => ?_, fun other there => ?_, ?_⟩
  · rw [Keyed.get?_put] at read
    rw [files, Keyed.get?_put]
    split at read
    · next same =>
        cases read
        exact ⟨octets, if_pos (congrArg fileName same), readable⟩
    · next differ =>
        rw [if_neg fun same => differ (fileName_injective same)]
        exact holds.kept other found read
  · rw [files, Keyed.get?_put] at there
    rw [Keyed.get?_put]
    split
    · rfl
    · next differ =>
        rw [if_neg fun same => differ (fileName_injective same)] at there
        exact holds.only other otherNamed there
  · rw [Keyed.get?_put] at there
    split at there
    · next same => exact same ▸ ⟨named, short⟩
    · exact holds.short other there
  · rw [files]
    exact Keyed.nodup_names_put _ _ holds.distinct

theorem erase (holds : HoldsFiles directory documents) (name : Text) :
    HoldsFiles (directory.map (Keyed.erase (fileName name))) (Keyed.erase name documents) := by
  have files : (files (directory.map (Keyed.erase (fileName name)))) =
      Keyed.erase (fileName name) directory.files := by
    cases directory <;> rfl
  refine ⟨fun other found read => ?_, fun other named there => ?_, fun other there => ?_, ?_⟩
  · rw [Keyed.get?_erase] at read
    rw [files, Keyed.get?_erase]
    split at read
    · cases read
    · next differ =>
        rw [if_neg fun same => differ (fileName_injective same)]
        exact holds.kept other found read
  · rw [files, Keyed.get?_erase] at there
    split at there
    · cases there
    · next differ =>
        rw [Keyed.get?_erase, if_neg fun same => differ (congrArg fileName same)]
        exact holds.only other named there
  · rw [Keyed.get?_erase] at there
    split at there
    · cases there
    · exact holds.short other there
  · rw [files]
    exact Keyed.nodup_names_erase _ holds.distinct

/-- Under a name that is too long there is no document. -/
theorem get?_of_isBeyond (holds : HoldsFiles directory documents)
    (beyond : directory.isBeyond (fileName name) = true) : Keyed.get? documents name = none := by
  rw [← Option.not_isSome_iff_eq_none]
  intro there
  rw [(holds.short name there).2.isBeyond_eq_false] at beyond
  cases beyond

/-! ## The calls of a directory -/

/-- The document under a name is read, unless the name is too long to be looked for. -/
theorem read (holds : HoldsFiles directory documents) (named : name.isModelName = true) :
    Directory.read name directory =
      if directory.isBeyond (fileName name) then .error .longName
      else .ok (Keyed.get? documents name) := by
  rw [Directory.read, if_pos named]
  split
  · rfl
  · have there := holds.isSome_get? named
    cases saved : Keyed.get? documents name with
    | none =>
        rw [saved, Option.isSome_none, Option.isSome_eq_false_iff,
          Option.isNone_iff_eq_none] at there
        simp only [bytes?, there]
    | some stored =>
        obtain ⟨octets, found, readable⟩ := holds.kept name stored saved
        simp only [bytes?, found, readable]
        rfl

/-- A document with bytes is put under a name that leaves room for the file beside its own. -/
theorem write (holds : HoldsFiles directory documents) (named : name.isModelName = true)
    (room : hasRoomBeside name = true) {stored : Value} {octets : List Octet}
    (written : contents stored = .ok octets)
    (readable : ∀ file, document file octets = .ok stored) :
    ∃ after, Directory.write name stored directory = (.ok (), after) ∧
      HoldsFiles after (Keyed.put name stored documents) := by
  refine ⟨_, ?_, holds.put readable named (isPlaceable_of_hasRoomBeside named room)⟩
  rw [write_eq, if_pos named, if_neg (by simpa using room), written]

/-- The document under a name is removed, unless the name is too long to be looked for. -/
theorem delete (holds : HoldsFiles directory documents) (named : name.isModelName = true) :
    ∃ after, Directory.delete name directory =
        (if directory.isBeyond (fileName name) then .error .longName
         else .ok (Keyed.get? documents name).isSome, after) ∧
      HoldsFiles after (Keyed.erase name documents) := by
  rw [Directory.delete, if_pos named]
  by_cases beyond : directory.isBeyond (fileName name) = true
  · refine ⟨directory, by rw [if_pos beyond, if_pos beyond], ?_⟩
    rw [Keyed.erase_of_get?_eq_none (holds.get?_of_isBeyond beyond)]
    exact holds
  · refine ⟨_, ?_, holds.erase name⟩
    rw [if_neg beyond, if_neg beyond, Keyed.has_eq_isSome, holds.isSome_get? named]

/-- The names that are listed are those of the documents. -/
theorem modelOf? (holds : HoldsFiles directory documents) (name : Text) :
    name ∈ (Keyed.names directory.files).filterMap Directory.modelOf? ↔
      (Keyed.get? documents name).isSome = true := by
  rw [List.mem_filterMap]
  constructor
  · rintro ⟨file, member, model⟩
    obtain ⟨rfl, named⟩ := modelOf?_eq_some.mp model
    exact holds.only name named ((Keyed.mem_names_iff _ _).mp member)
  · intro there
    obtain ⟨named, -⟩ := holds.short name there
    refine ⟨_, ?_, modelOf?_eq_some.mpr ⟨rfl, named⟩⟩
    rw [Keyed.mem_names_iff, holds.isSome_get? named, there]

end HoldsFiles

/-! ## Definitions in a directory -/

/-- A directory holds the files of the definitions of a table, and no file of any other model. -/
def Holds (directory : Directory) (saves : Keyed Definition) : Prop :=
  HoldsFiles directory (Keyed.mapRows Definition.toDocument saves)

theorem holds_empty {directory : Directory} (distinct : (Keyed.names directory.files).Nodup)
    (empty : directory.modelNames = []) : Holds directory [] :=
  holdsFiles_nil distinct empty

/-- **A directory keeps definitions as a table does.** -/
theorem lawful : DefinitionStore.Lawful store Holds
    fun directory name => directory.isBeyond (fileName name) where
  read := by
    intro directory saves name holds _ named
    have read := HoldsFiles.read holds named
    rw [Keyed.get?_mapRows] at read
    exact congrArg (·, directory) read
  short := by
    intro directory saves name holds there
    have short := holds.short name (by rwa [Keyed.get?_mapRows, Option.isSome_map])
    exact short.2.isBeyond_eq_false directory
  write := by
    intro directory saves definition now holds _ stored
    obtain ⟨octets, written, readable⟩ := exists_contents stored.plain
    cases room : hasRoomBeside definition.name with
    | false =>
        refine ⟨some directory.files, .inr ⟨?_, holds.of_files rfl⟩⟩
        simp only [store, Operation.on_of, write_eq, stored.named, room, Bool.not_false, if_true]
    | true =>
        obtain ⟨after, done, kept⟩ := holds.write stored.named room written readable
        refine ⟨after, .inl ⟨done, ?_⟩⟩
        rw [Holds, Keyed.mapRows_put]
        exact kept
  delete := by
    intro directory saves name holds _ named
    obtain ⟨after, done, kept⟩ := HoldsFiles.delete holds named
    rw [← Keyed.mapRows_erase] at kept
    rw [Keyed.get?_mapRows, Option.isSome_map] at done
    exact ⟨after, kept, done⟩
  names := by
    intro directory saves holds _
    refine ⟨_, rfl, nodup_modelOf? holds.distinct, fun name => ?_⟩
    rw [HoldsFiles.modelOf? holds, Keyed.get?_mapRows, Option.isSome_map]

end Directory

end GovernedRecords
