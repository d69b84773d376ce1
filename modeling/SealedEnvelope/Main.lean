import SealedEnvelope.Command.Arguments
import SealedEnvelope.Command.Run

/-!
The command line. The files that a command may touch are loaded, the command is
carried out on them, and what it changed is written back.
-/

namespace SealedEnvelope.CommandLine

def pathText (location : Location) : String := "/".intercalate location

/-- Whether there is a folder at a location. -/
def folderExists (location : Location) : IO Bool :=
  try
    let _ ← IO.FS.realPath (pathText location ++ "/.")
    return true
  catch _ => return false

/-- The locations at which the steps of a path arrive one after the other. -/
def locationsOnTheWay (path : String) : List Location :=
  let steps := Path.steps path
  (List.range steps.length).map fun n =>
    (steps.take (n + 1)).foldl Location.follow (Path.start path)

/-- The files at the paths, and the folders on the way to them. -/
def load (paths : List String) : IO FileTree := do
  let mut tree := FileTree.empty
  for path in paths do
    for location in locationsOnTheWay path do
      if ← folderExists location then tree := { tree with folders := location :: tree.folders }
    let location := Path.destination path
    let content? ← try
        let content ← IO.FS.readBinFile (pathText location)
        pure (some content.toList)
      catch _ => pure none
    if let some content := content? then tree := tree.put location content
  return tree

/-- Writes and removes files so that those at the paths are as in the second tree. -/
def store (paths : List String) (old new : FileTree) : IO Unit := do
  for location in (paths.map Path.destination).eraseDups do
    match old.content? location, new.content? location with
    | some _, none => IO.FS.removeFile (pathText location)
    | before, some content =>
        if before ≠ some content then
          IO.FS.writeBinFile (pathText location) ⟨content.toArray⟩
    | none, none => pure ()

/-- More random bytes than a command draws: 64 for a key pair, 44 and up to 32 for each recipient
for an envelope. -/
def randomNeed (command : Command) : Nat := 64 + 32 * command.paths.length

def execute (invocation : Invocation) : IO UInt32 := do
  let command := invocation.command
  let files ← load command.paths
  let random ← IO.getRandomBytes (USize.ofNat (randomNeed command))
  let (result, w) := command.runWith invocation.settings
    ⟨files, ⟨Entropy.ofBytes random.toList, []⟩⟩
  store command.paths files w.files
  match result with
  | .ok printed =>
      IO.print printed
      return 0
  | .error failure =>
      IO.eprintln ("Error: " ++ failure.message)
      return 1

def usage : String :=
  "Usage: sealed-envelope [OPTIONS] COMMAND\n" ++
    "Options: --log-level LEVEL, --fingerprint SCHEME, --buffer-size BYTES\n" ++
    "Commands: keygen, encrypt, decrypt, sign, verify, fingerprint, help"

def refuse (refusal : Refusal) : IO UInt32 := do
  match refusal with
  | .helpWanted | .versionWanted =>
      IO.println usage
      return 0
  | _ =>
      IO.eprintln usage
      return 2

end SealedEnvelope.CommandLine

def main (arguments : List String) : IO UInt32 :=
  match SealedEnvelope.Invocation.ofArguments arguments with
  | .ok invocation => SealedEnvelope.CommandLine.execute invocation
  | .error refusal => SealedEnvelope.CommandLine.refuse refusal
