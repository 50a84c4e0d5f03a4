import GovernedRecords.Proofs.Json.Pieces
import GovernedRecords.Proofs.Keyed
import GovernedRecords.Proofs.Operation
import GovernedRecords.Proofs.Text.Digits
import GovernedRecords.Store.Directory
import Mathlib.Data.List.Nodup
import Mathlib.Data.List.Perm.Subperm

/-!
# A write that fails leaves no trace

A write puts a document together in a file that was not there, and that file is the only one that
differs from before until it is moved (`Aside`).  So removing it is all that a failure asks for,
wherever it comes from: a piece without bytes, a document that ends early, or the system.  When
the file is moved it holds the bytes of the whole document (`aside_appendDocument`), since the
pieces make up its text.

Hence a write either fails and the files are as before, or it ends and the file of its model has
been replaced (`write_leaves_no_trace`).  Where the system fails nothing, only the name and the
document decide between the two (`write_eq`).
-/

set_option autoImplicit false

namespace GovernedRecords

namespace Directory

variable {conditions : Conditions} {beside : Text} {files : Keyed (List Octet)}

@[simp] theorem files_some : Directory.files (some files) = files := rfl

@[simp] theorem files_putFile (file : Text) (octets : List Octet) (directory : Directory) :
    (directory.putFile file octets).files = Keyed.put file octets directory.files := rfl

theorem bytes?_putFile (file other : Text) (octets : List Octet) (directory : Directory) :
    (directory.putFile file octets).bytes? other =
      if file = other then some octets else directory.bytes? other :=
  Keyed.get?_put file other octets directory.files

/-! ## The file beside -/

/-- A directory has some files and a file beside them, with some bytes. -/
structure Aside (files : Keyed (List Octet)) (beside : Text) (octets : List Octet)
    (directory : Directory) : Prop where
  others : Keyed.erase beside directory.files = files
  holds : directory.bytes? beside = some octets

namespace Aside

variable {octets : List Octet} {directory : Directory}

/-- A file that is not there is made. -/
theorem create (free : Keyed.get? files beside = none) :
    Aside files beside [] (putFile beside [] (some files)) where
  others := by rw [files_putFile, Keyed.erase_put, files_some, Keyed.erase_of_get?_eq_none free]
  holds := by rw [bytes?_putFile, if_pos rfl]

theorem append (aside : Aside files beside octets directory) (more : List Octet) :
    Aside files beside (octets ++ more) (directory.appendFile beside more) where
  others := by rw [appendFile, files_putFile, Keyed.erase_put, aside.others]
  holds := by rw [appendFile, bytes?_putFile, if_pos rfl, aside.holds, Option.getD_some]

/-- Without the file beside, the files are those there were. -/
theorem remove (aside : Aside files beside octets directory) :
    directory.removeFile beside = some files := by
  cases directory with
  | none => cases aside.holds
  | some rows => exact congrArg some aside.others

/-- The file beside takes the place of another one. -/
theorem move (aside : Aside files beside octets directory) (target : Text) :
    directory.moveFile beside target = some (Keyed.put target octets files) := by
  rw [moveFile, aside.holds]
  simp only [aside.remove]
  rfl

end Aside

/-! ## Steps of the system -/

/-- The system fails no step. -/
def Conditions.Undisturbed (conditions : Conditions) : Prop :=
  ∀ step, conditions.fault? step = none

theorem Conditions.undisturbed_calm (directory : Directory) : (calm directory).Undisturbed :=
  fun _ => rfl

/-- A step of the system leaves the directory alone. -/
theorem Conditions.on_take (conditions : Conditions) (step : WriteStep) (directory : Directory) :
    (conditions.take step).on directory =
      (match conditions.fault? step with
        | none => .ok ()
        | some fault => .error fault, directory) := by
  rw [take]
  cases conditions.fault? step <;> rfl

theorem Conditions.Undisturbed.on_take (undisturbed : conditions.Undisturbed) (step : WriteStep)
    (directory : Directory) : (conditions.take step).on directory = (.ok (), directory) := by
  rw [Conditions.on_take, undisturbed step]

/-! ## The document in the file beside -/

/-- What is added to the file beside are the bytes of the pieces, if all of them are added. -/
theorem aside_appendPieces (conditions : Conditions) (pieces : List Text) :
    ∀ (count : Nat) {octets : List Octet} {directory : Directory},
      Aside files beside octets directory →
        ∃ more, Aside files beside (octets ++ more)
            ((appendPieces conditions beside count pieces).on directory).2 ∧
          (((appendPieces conditions beside count pieces).on directory).1 = .ok () →
            Utf8.encode? pieces.flatten = some more) := by
  induction pieces with
  | nil =>
      intro count octets directory aside
      exact ⟨[], by rwa [List.append_nil], fun _ => rfl⟩
  | cons piece rest ih =>
      intro count octets directory aside
      -- A fault at this piece leaves the file with the bytes of those before it.
      have stopped : ∀ fault : Fault,
          ∃ more, Aside files beside (octets ++ more) directory ∧
            ((Except.error fault : Except Fault Unit) = .ok () →
              Utf8.encode? (piece :: rest).flatten = some more) := by
        intro fault
        refine ⟨[], by rwa [List.append_nil], ?_⟩
        intro impossible
        cases impossible
      rw [appendPieces, Operation.on_bind, Conditions.on_take]
      cases conditions.fault? (.append count) with
      | some fault => exact stopped fault
      | none =>
          cases encoded : Utf8.encode? piece with
          | none => exact stopped .unencodable
          | some added =>
              obtain ⟨more, kept, whole⟩ := ih (count + 1) (aside.append added)
              refine ⟨added ++ more, by rwa [← List.append_assoc], ?_⟩
              intro done
              rw [List.flatten_cons]
              exact Utf8.encode?_append encoded (whole done)

/-- When a document has been added, the file beside holds its bytes. -/
theorem aside_appendDocument [Host] {directory : Directory} (conditions : Conditions)
    (document : Value) (aside : Aside files beside [] directory) :
    ∃ octets, Aside files beside octets
        ((appendDocument conditions beside document).on directory).2 ∧
      (((appendDocument conditions beside document).on directory).1 = .ok () →
        contents document = .ok octets) := by
  obtain ⟨octets, kept, whole⟩ := aside_appendPieces conditions
    (Json.put Json.Style.streamed document).pieces 0 aside
  have failed : ∀ fault : Fault,
      (Except.error fault : Except Fault Unit) = .ok () → contents document = .ok octets := by
    intro fault impossible
    cases impossible
  rw [List.nil_append] at kept
  refine ⟨octets, ?_⟩
  rw [appendDocument, Operation.on_bind]
  cases ran : (appendPieces conditions beside 0 (Json.put Json.Style.streamed document).pieces).on
      directory with
  | mk outcome after =>
      rw [ran] at kept whole
      cases outcome with
      | error fault => exact ⟨kept, failed fault⟩
      | ok _ =>
          -- Every piece had bytes, so no lone surrogate is in them and only the error is left.
          have encoded := whole rfl
          have plain := (Utf8.isSome_encode?_iff _).mp (Option.isSome_of_eq_some encoded)
          have text := Json.whole_put document
          rw [Json.Output.whole, if_neg (by rw [Text.any_isSurrogate_eq_false.mpr plain]; decide)]
            at text
          cases ended : (Json.put Json.Style.streamed document).error with
          | some error => exact ⟨kept, failed _⟩
          | none =>
              rw [ended] at text
              by_cases deep : Host.written < document.nesting
              · simp only [if_pos deep]
                exact ⟨kept, failed _⟩
              · simp only [if_neg deep, Conditions.on_take]
                refine ⟨kept, ?_⟩
                intro _
                simp only [contents, ← text, if_neg deep, encoded]

/-! ## The outcome -/

/-- **Putting a document in the place of a file fails and leaves the files there were, or it ends
and that file holds the document.** -/
theorem replaceBy_cases [Host] (conditions : Conditions) (document : Value) (target : Text)
    (free : Keyed.get? files beside = none) :
    (∃ fault, (replaceBy conditions beside target document).on (some files) =
        (.error fault, some files)) ∨
      ∃ octets, contents document = .ok octets ∧
        (replaceBy conditions beside target document).on (some files) =
          (.ok (), some (Keyed.put target octets files)) := by
  rw [replaceBy, Operation.on_bind, Conditions.on_take]
  cases conditions.fault? .create with
  | some fault => exact .inl ⟨fault, rfl⟩
  | none =>
      obtain ⟨octets, kept, whole⟩ :=
        aside_appendDocument conditions document (Aside.create free)
      simp only [Operation.on_bind, Operation.on_modify, Operation.on_attempt, Conditions.on_take]
      cases ran : (appendDocument conditions beside document).on
          (putFile beside [] (some files)) with
      | mk outcome after =>
          rw [ran] at kept whole
          cases outcome with
          | error fault => exact .inl ⟨fault, congrArg (Except.error fault, ·) kept.remove⟩
          | ok _ =>
              cases conditions.fault? .move with
              | some fault => exact .inl ⟨fault, congrArg (Except.error fault, ·) kept.remove⟩
              | none =>
                  exact .inr ⟨octets, whole rfl, congrArg (Except.ok (), ·) (kept.move target)⟩

/-- What may come of a write: it fails and leaves the files there were, or it ends and exactly the
file of the model has the bytes of the document. -/
inductive Traceless [Host] (directory : Directory) (name : Text) (document : Value) :
    Except Fault Unit × Directory → Prop where
  | failed (fault : Fault) (after : Directory) (same : after.files = directory.files) :
      Traceless directory name document (.error fault, after)
  | replaced (octets : List Octet) (after : Directory) (written : contents document = .ok octets)
      (bytes : ∀ file, after.bytes? file =
        if file = fileName name then some octets else directory.bytes? file) :
      Traceless directory name document (.ok (), after)

/-- The file that is tried is not there. -/
theorem get?_of_freeFile? {letters : List Text} {name : Text} {directory : Directory}
    (free : freeFile? letters name directory = some beside) :
    Keyed.get? directory.files beside = none := by
  have absent := List.find?_some free
  rw [Keyed.has_eq_isSome] at absent
  simpa using absent

/-- A write leaves nothing behind, whatever the system does. -/
theorem traceless_writeUnder [Host] (conditions : Conditions) (name : Text) (document : Value)
    (directory : Directory) :
    Traceless directory name document ((writeUnder conditions name document).on directory) := by
  by_cases named : name.isModelName = true
  · rw [writeUnder, if_pos named, Operation.on_bind, Conditions.on_take]
    cases conditions.fault? .makeDirectory with
    | some fault => exact .failed fault directory rfl
    | none =>
        by_cases long : (!hasRoomBeside name) = true
        · simp only [if_pos long]
          exact .failed .longName (some directory.files) rfl
        · simp only [if_neg long, Operation.on_bind, Operation.on_modify, Operation.on_get]
          cases tried : freeFile? conditions.letters name (some directory.files) with
          | none => exact .failed conditions.exhausted (some directory.files) rfl
          | some beside =>
              rcases replaceBy_cases conditions document (fileName name) (get?_of_freeFile? tried)
                with ⟨fault, ran⟩ | ⟨octets, written, ran⟩
              · simp only [files_some] at ran
                simp only [ran]
                exact .failed fault (some directory.files) rfl
              · simp only [files_some] at ran
                simp only [ran]
                refine .replaced octets (directory.putFile (fileName name) octets) written ?_
                intro file
                simp only [bytes?_putFile, eq_comm]
  · rw [writeUnder, if_neg named]
    exact .failed (.invalidName (.text name)) directory rfl

/-! ## A system that fails nothing -/

namespace Conditions.Undisturbed

theorem appendPieces (undisturbed : conditions.Undisturbed) (beside : Text) (pieces : List Text) :
    ∀ (count : Nat) (directory : Directory),
      ((Directory.appendPieces conditions beside count pieces).on directory).1 =
        if pieces.flatten.any CodePoint.isSurrogate then .error .unencodable else .ok () := by
  induction pieces with
  | nil =>
      intro count directory
      rfl
  | cons piece rest ih =>
      intro count directory
      rw [Directory.appendPieces, Operation.on_bind, undisturbed.on_take, List.flatten_cons,
        List.any_append]
      cases encoded : Utf8.encode? piece with
      | none =>
          have lone : piece.any CodePoint.isSurrogate = true := by
            rw [← Bool.not_eq_false, Text.any_isSurrogate_eq_false, ← Utf8.isSome_encode?_iff,
              encoded]
            decide
          rw [lone]
          rfl
      | some octets =>
          have plain : piece.any CodePoint.isSurrogate = false := by
            rw [Text.any_isSurrogate_eq_false, ← Utf8.isSome_encode?_iff, encoded]
            rfl
          rw [plain, Bool.false_or]
          exact ih (count + 1) (directory.appendFile beside octets)

/-- Adding a document fails when it has no bytes. -/
theorem appendDocument [Host] (undisturbed : conditions.Undisturbed) (beside : Text)
    (document : Value) (directory : Directory) :
    ((Directory.appendDocument conditions beside document).on directory).1 =
      (contents document).map fun _ => () := by
  have text := Json.whole_put document
  have added := undisturbed.appendPieces beside
    (Json.put Json.Style.streamed document).pieces 0 directory
  rw [Directory.appendDocument, Operation.on_bind]
  cases ran : (Directory.appendPieces conditions beside 0
      (Json.put Json.Style.streamed document).pieces).on directory with
  | mk outcome after =>
      rw [ran] at added
      subst added
      rw [Json.Output.whole] at text
      split at text
      · next lone =>
          rw [if_pos lone, contents, ← text]
          rfl
      · next plain =>
          rw [if_neg plain, contents, ← text]
          cases (Json.put Json.Style.streamed document).error with
          | some error => rfl
          | none =>
              by_cases deep : Host.written < document.nesting
              · simp only [if_pos deep]
                rfl
              · have bytes := (Utf8.isSome_encode?_iff _).mpr
                  (Text.any_isSurrogate_eq_false.mp (Bool.eq_false_iff.mpr plain))
                obtain ⟨octets, encoded⟩ := Option.isSome_iff_exists.mp bytes
                simp only [if_neg deep, undisturbed.on_take, encoded]
                rfl

theorem replaceBy [Host] (undisturbed : conditions.Undisturbed) (document : Value) (target : Text)
    (free : Keyed.get? files beside = none) :
    (Directory.replaceBy conditions beside target document).on (some files) =
      match contents document with
      | .ok octets => (.ok (), some (Keyed.put target octets files))
      | .error fault => (.error fault, some files) := by
  have outcome : ((Directory.replaceBy conditions beside target document).on (some files)).1 =
      (contents document).map fun _ => () := by
    rw [← undisturbed.appendDocument beside document (putFile beside [] (some files)),
      Directory.replaceBy, Operation.on_bind, undisturbed.on_take]
    simp only [Operation.on_bind, Operation.on_modify, Operation.on_attempt, undisturbed.on_take]
    cases (Directory.appendDocument conditions beside document).on
        (putFile beside [] (some files)) with
    | mk added after => cases added <;> rfl
  rcases replaceBy_cases conditions document target free with ⟨fault, ran⟩ | ⟨octets, written, ran⟩
  · rw [ran] at outcome ⊢
    cases written : contents document with
    | ok octets =>
        rw [written] at outcome
        cases outcome
    | error reason =>
        rw [written] at outcome
        cases outcome
        rfl
  · rw [ran, written]

end Conditions.Undisturbed

/-- Different letters make different names. -/
theorem besideFile_injective (name : Text) : Function.Injective (besideFile name) := by
  intro first second same
  simpa [besideFile, Text.concat] using same

/-- Among more names than there are files one is free. -/
theorem exists_freeFile? (name : Text) (directory : Directory) :
    ∃ beside, freeFile? (Conditions.calm directory).letters name directory = some beside := by
  rw [← Option.ne_none_iff_exists']
  intro none
  have distinct : (((List.range (directory.files.length + 1)).map (Text.padded 8)).map
      (besideFile name)).Nodup :=
    (List.nodup_range.map fun _ _ => Text.padded_injective).map (besideFile_injective name)
  have taken : ((List.range (directory.files.length + 1)).map (Text.padded 8)).map
      (besideFile name) ⊆ Keyed.names directory.files := by
    intro file tried
    have there := List.find?_eq_none.mp none file tried
    rw [Keyed.mem_names_iff, ← Keyed.has_eq_isSome]
    simpa using there
  have few := (List.Nodup.subperm distinct taken).length_le
  simp only [Keyed.names, List.length_map, List.length_range] at few
  omega

/-- **A write where the system fails nothing**: a document that has bytes is put under a model name
with room for the file beside, and anything else is refused and leaves the files there were. -/
theorem write_eq [Host] (name : Text) (document : Value) (directory : Directory) :
    write name document directory =
      if name.isModelName then
        if !hasRoomBeside name then
          (.error .longName, some directory.files)
        else
          match contents document with
          | .ok octets => (.ok (), directory.putFile (fileName name) octets)
          | .error fault => (.error fault, some directory.files)
      else (.error (.invalidName (.text name)), directory) := by
  have undisturbed := Conditions.undisturbed_calm directory
  rw [write, writeUnder]
  by_cases named : name.isModelName = true
  · rw [if_pos named, if_pos named, Operation.on_bind, undisturbed.on_take]
    by_cases long : (!hasRoomBeside name) = true
    · simp only [if_pos long]
      rfl
    · obtain ⟨beside, free⟩ := exists_freeFile? name (some directory.files)
      simp only [if_neg long, Operation.on_bind, Operation.on_modify, Operation.on_get]
      have calm : Conditions.calm (some directory.files) = Conditions.calm directory := rfl
      rw [← calm, free]
      exact undisturbed.replaceBy document (fileName name) (get?_of_freeFile? free)
  · rw [if_neg named, if_neg named]
    rfl

/-- **A write leaves no trace when it fails.**  Whatever the document, the name, the files there are
and what the system does, a write either fails and the files are as before, or it ends and exactly
the file of the model is new; so does a write to the store. -/
theorem write_leaves_no_trace [Host] (name : Text) (document : Value) (directory : Directory) :
    (∀ conditions, Traceless directory name document
        ((writeUnder conditions name document).on directory)) ∧
      ∀ now, Traceless directory name document
        ((store.write now name document).on directory) :=
  ⟨fun conditions => traceless_writeUnder conditions name document directory,
    fun _ => traceless_writeUnder (.calm directory) name document directory⟩

end Directory

end GovernedRecords
