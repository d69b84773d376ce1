import SealedEnvelope.Command.FileTree
import SealedEnvelope.Toolkit.Keys

/-!
The parts of commands: what they work on, why they fail, and how they read, write
and remove files and load keys from them.
-/

namespace SealedEnvelope

/-- Options that parse but leave nothing to be done. -/
inductive UsageFault where
  | noTarget
  | noAccess
deriving DecidableEq, Repr

def UsageFault.message : UsageFault → String
  | .noTarget => "need at least one --recipient or --password-file"
  | .noAccess => "give either --key with --key-password-file, or --password-file"

/-- Why a command failed. -/
inductive CommandFailure where
  | crypto (failure : Failure)
  | file (path : String) (fault : FileFault)
  | usage (fault : UsageFault)
deriving DecidableEq, Repr

def CommandFailure.message : CommandFailure → String
  | .crypto failure => failure.message
  | .file path fault => path ++ ": " ++ fault.message
  | .usage fault => fault.message

/-- What commands work on. -/
structure Workplace where
  files : FileTree
  surroundings : Surroundings

/-- A part of a command. -/
abbrev Task := ExceptT CommandFailure (StateM Workplace)

namespace Task

def ofAction {α : Type} (action : Action α) : Task α := fun w =>
  let (result, surroundings) := action w.surroundings
  (result.mapError .crypto, { w with surroundings })

/-- The bytes that an operation writes, and its result. -/
def collect (action : StreamAction) : StateM Workplace (Except Failure Nat × Bytes) := fun w =>
  let ((result, sink), surroundings) := action .unlimited w.surroundings
  ((result, sink.accepted.toList), { w with surroundings })

def readFile (path : String) : Task Bytes := fun w =>
  ((w.files.read path).mapError (.file path), w)

/-- Replaces or makes a file. -/
def writeFile (path : String) (content : Bytes) : Task Unit := fun w =>
  match w.files.write path content with
  | .ok files => (.ok (), { w with files })
  | .error fault => (.error (.file path fault), w)

/-- Makes an empty file, or empties the one that is there. -/
def createFile (path : String) : Task Unit := writeFile path []

def removeFile (path : String) : Task Unit := fun w =>
  (.ok (), { w with files := w.files.remove path })

/-- Opens a file, or a folder, to be read later. -/
def openFile (path : String) : Task Place := fun w =>
  ((w.files.find path).mapError (.file path), w)

/-- What is read now from what has been opened. Reading a folder fails. -/
def sourceOf (place : Place) : Task Source := fun w =>
  match place with
  | .folder => (.ok ⟨[], some (.device FileFault.isFolder.message)⟩, w)
  | place => (.ok (.ofBytes (w.files.contentOf place)), w)

/-- The content of a password file without the line ends at its end. -/
def readPassword (path : String) : Task Bytes := do
  let content ← readFile path
  return (content.reverse.dropWhile fun byte => byte = 10 ∨ byte = 13).reverse

def loadPublic (t : Toolkit) (path : String) : Task PublicKey := do
  let content ← readFile path
  ofAction (t.importPublicKey content)

def loadPrivate (t : Toolkit) (path passwordFile : String) : Task PrivateKey := do
  let password ← readPassword passwordFile
  let content ← readFile path
  ofAction (t.importPrivateKey content password)

end Task

end SealedEnvelope
