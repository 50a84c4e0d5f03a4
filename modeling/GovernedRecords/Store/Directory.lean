import GovernedRecords.Json.Pieces
import GovernedRecords.Json.Reader
import GovernedRecords.Store.Definitions

/-!
# Definitions in a directory

A directory of files keeps one document a file, under the name of its model and an ending.
A document is written as indented JSON in UTF-8 and read back as JSON; whatever else a file
holds is unreadable.  A directory that does not exist holds no file.

A document is put out piece by piece into a new file beside its own, which is moved to the
place of its own when it is complete and removed when anything fails before that.  What may
fail besides the document are the steps that the system takes (`Directory.Conditions`).
A write makes the directory even when it fails.

Names of files are bounded, and so are their paths, of which the host takes a part.  A path that
is too long is found out before the directory is looked at, and a name only in a directory that
is there.  Name and path of the file beside are longer, so that some documents may be looked for
and never written.
-/

set_option autoImplicit false

namespace GovernedRecords

/-- The files of a directory by name, or none when there is no directory. -/
abbrev Directory := Option (Keyed (List Octet))

namespace Directory

variable [Host]

/-- The ending of a document's file name. -/
def ending : Text := ".json"

/-- The file of a model. -/
def fileName (name : Text) : Text := Text.concat [name, ending]

/-- The files there are. -/
def files (directory : Directory) : Keyed (List Octet) := directory.getD []

/-- The bytes of a file. -/
def bytes? (directory : Directory) (file : Text) : Option (List Octet) :=
  Keyed.get? directory.files file

/-- Writes a file, making the directory if there is none. -/
def putFile (file : Text) (octets : List Octet) (directory : Directory) : Directory :=
  some (Keyed.put file octets directory.files)

/-- The greatest number of bytes of a file name. -/
def longestFileName : Nat := 255

/-- The greatest number of bytes of the path of a file. -/
def longestPath : Nat := 4095

/-- What the name of the file beside that of a document adds to the name of its model. -/
def besideLength : Nat := 14

/-- The file beside that of a model, with letters of its own. -/
def besideFile (name letters : Text) : Text := Text.concat [".", name, ".", letters, ".tmp"]

/-- Whether a file may have a name, whose bytes are counted; one that has none may not. -/
def isFileName (file : Text) : Bool :=
  match Utf8.encode? file with
  | some octets => octets.length ≤ longestFileName
  | none => false

/-- Whether a file of a name has a path. -/
def hasPath (file : Text) : Bool :=
  match Utf8.encode? file with
  | some octets => Host.prefixLength + octets.length ≤ longestPath
  | none => false

/-- Whether a file is looked for under a path or a name that is longer than any file's. -/
def isBeyond (directory : Directory) (file : Text) : Bool :=
  !hasPath file || directory.isSome && !isFileName file

/-- Whether the file beside that of a model, all of whose letters are single bytes, has a name and a
path. -/
def hasRoomBeside (name : Text) : Bool :=
  name.length + besideLength ≤ longestFileName &&
    Host.prefixLength + (name.length + besideLength) ≤ longestPath

/-- Writes bytes to a file of any name, making the directory if there is none. -/
def placeFile (file : Text) (octets : List Octet) (directory : Directory) :
    Except Fault Unit × Directory :=
  if isBeyond (some directory.files) file then (.error .longName, some directory.files)
  else (.ok (), directory.putFile file octets)

/-- The bytes of a file of any name. -/
def fileBytes (file : Text) (directory : Directory) : Except Fault (List Octet) :=
  if directory.isBeyond file then .error .longName
  else
    match directory.bytes? file with
    | some octets => .ok octets
    | none => .error .noFile

/-- The document that bytes hold. -/
def document (file : Text) (octets : List Octet) : Except Fault Value :=
  match Utf8.decode? octets with
  | none => .error .undecodable
  | some text =>
    match Json.read text with
    | .error .malformed => .error .malformedFile
    | .error cause => .error (Fault.ofReading cause)
    | .ok (.object entries) => .ok (.object entries)
    | .ok _ => .error (.notObject file)

/-- The bytes of a document; one that is nested more deeply than the host writes has none. -/
def contents (document : Value) : Except Fault (List Octet) :=
  match Json.write Json.Style.indented document with
  | .error error => .error (Fault.ofWriting error)
  | .ok text =>
    if Host.written < document.nesting then .error .tooDeep
    else
      match Utf8.encode? text with
      | some octets => .ok octets
      | none => .error .unencodable

/-- The name of the model whose document a file holds, if it is the file of one. -/
def modelOf? (file : Text) : Option Text :=
  if ending.isSuffixOf file then
    let stem : Text := file.take (file.length - ending.length)
    if stem.isModelName then some stem else none
  else none

/-- The names of the models that have a file, in ascending order. -/
def modelNames (directory : Directory) : List Text :=
  Text.sorted ((Keyed.names directory.files).filterMap modelOf?)

/-- Reads the document of a model. -/
def read (name : Text) (directory : Directory) : Except Fault (Option Value) :=
  if name.isModelName then
    if directory.isBeyond (fileName name) then .error .longName
    else
      match directory.bytes? (fileName name) with
      | none => .ok none
      | some octets => (document (fileName name) octets).map some
  else .error (.invalidName (.text name))

/-! ## Writing by way of a file beside -/

/-- Adds bytes to the end of a file. -/
def appendFile (file : Text) (octets : List Octet) (directory : Directory) : Directory :=
  directory.putFile file ((directory.bytes? file).getD [] ++ octets)

/-- Removes a file. -/
def removeFile (file : Text) (directory : Directory) : Directory :=
  directory.map (Keyed.erase file)

/-- Moves a file to the place of another one, if it is there. -/
def moveFile (source target : Text) (directory : Directory) : Directory :=
  match directory.bytes? source with
  | some octets => (directory.removeFile source).putFile target octets
  | none => directory

/-- The steps of a write that the system takes. -/
inductive WriteStep where
  | makeDirectory
  /-- The file beside is made. -/
  | create
  /-- A piece is added to the file beside, after a count of others. -/
  | append (count : Nat)
  /-- What was added is made to last. -/
  | flush
  /-- The file beside is moved. -/
  | move

/-- What a write meets outside of the library. -/
structure Conditions where
  /-- The letters that are tried one after another for the name of the file beside. -/
  letters : List Text
  /-- The fault when all these names are taken. -/
  exhausted : Fault
  /-- The fault with which the system fails a step, if it does. -/
  fault? : WriteStep → Option Fault

/-- Takes a step unless the system fails it. -/
def Conditions.take (conditions : Conditions) (step : WriteStep) : Operation Directory Unit :=
  match conditions.fault? step with
  | none => pure ()
  | some fault => .fail fault

/-- A system that fails no step, where eight digits are tried in ascending order. -/
def Conditions.calm (directory : Directory) : Conditions where
  letters := (List.range (directory.files.length + 1)).map (Text.padded 8)
  exhausted := .longName
  fault? _ := none

/-- Adds pieces to a file, the first of them after a count of others. -/
def appendPieces (conditions : Conditions) (file : Text) :
    Nat → List Text → Operation Directory Unit
  | _, [] => pure ()
  | count, piece :: rest => do
    conditions.take (.append count)
    match Utf8.encode? piece with
    | none => .fail .unencodable
    | some octets =>
      modify (appendFile file octets)
      appendPieces conditions file (count + 1) rest

/-- Adds a document to a file. -/
def appendDocument (conditions : Conditions) (file : Text) (document : Value) :
    Operation Directory Unit := do
  let output := Json.put Json.Style.streamed document
  appendPieces conditions file 0 output.pieces
  match output.error with
  | some error => .fail (Fault.ofWriting error)
  | none =>
    if Host.written < document.nesting then .fail .tooDeep
    else conditions.take .flush

/-- Puts a document in the place of a file by way of a file beside it that is not there yet. -/
def replaceBy (conditions : Conditions) (beside file : Text) (document : Value) :
    Operation Directory Unit := do
  conditions.take .create
  modify (putFile beside [])
  let placed ← Operation.attempt do
    appendDocument conditions beside document
    conditions.take .move
    modify (moveFile beside file)
  match placed with
  | .ok _ => pure ()
  | .error fault =>
    modify (removeFile beside)
    .fail fault

/-- The first of the files beside that of a model that is not there. -/
def freeFile? (letters : List Text) (name : Text) (directory : Directory) : Option Text :=
  (letters.map (besideFile name)).find? fun file => !Keyed.has directory.files file

/-- Writes the document of a model under some conditions. -/
def writeUnder (conditions : Conditions) (name : Text) (document : Value) :
    Operation Directory Unit :=
  if name.isModelName then do
    conditions.take .makeDirectory
    modify fun directory : Directory => some directory.files
    if !hasRoomBeside name then .fail .longName
    else
      match freeFile? conditions.letters name (← get) with
      | none => .fail conditions.exhausted
      | some beside => replaceBy conditions beside (fileName name) document
  else .fail (.invalidName (.text name))

/-- Writes the document of a model. -/
def write (name : Text) (document : Value) (directory : Directory) :
    Except Fault Unit × Directory :=
  (writeUnder (.calm directory) name document).on directory

/-- Removes the file of a model. -/
def delete (name : Text) (directory : Directory) : Except Fault Bool × Directory :=
  if name.isModelName then
    if directory.isBeyond (fileName name) then (.error .longName, directory)
    else (.ok (Keyed.has directory.files (fileName name)),
      directory.map (Keyed.erase (fileName name)))
  else (.error (.invalidName (.text name)), directory)

/-- The store in a directory. -/
def store : DefinitionStore Directory where
  read name := .of fun directory => (read name directory, directory)
  write _ name document := .of fun directory => write name document directory
  delete name := .of fun directory => delete name directory
  names := .of fun directory => (.ok directory.modelNames, directory)

end Directory

end GovernedRecords
