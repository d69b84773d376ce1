import SealedEnvelope.Bytes
import SealedEnvelope.Command.Path

/-!
The files that a command works on: the current folder with the folders known
below it, and what reading, writing and removing a file at a path does.
-/

namespace SealedEnvelope

/-- Why there is nothing to be done at a path. -/
inductive FileFault where
  | missing
  | notFolder
  | isFolder
  | tooLong
  | holdsNul
deriving DecidableEq, Repr

def FileFault.message : FileFault → String
  | .missing => "No such file or directory (os error 2)"
  | .notFolder => "Not a directory (os error 20)"
  | .isFolder => "Is a directory (os error 21)"
  | .tooLong => "File name too long (os error 36)"
  | .holdsNul => "file name contained an unexpected NUL byte"

/-- What a path leads to. There need not be a file yet. -/
inductive Place where
  | folder
  | nullDevice
  | file (location : Location)
deriving DecidableEq, Repr

/-- The folders that are known besides those that every system has, and the files with their
content, all by their locations. -/
structure FileTree where
  folders : List Location
  files : List (Location × Bytes)
deriving Repr

namespace FileTree

/-- The current folder, empty and without others below it. -/
def empty : FileTree := ⟨[], []⟩

def content? (t : FileTree) (location : Location) : Option Bytes := t.files.lookup location

/-- Makes the content of a file, which need not exist before. -/
def put (location : Location) (content : Bytes) (t : FileTree) : FileTree :=
  { t with files := (location, content) :: t.files.filter fun file => file.1 ≠ location }

def erase (location : Location) (t : FileTree) : FileTree :=
  { t with files := t.files.filter fun file => file.1 ≠ location }

theorem lookup_filter_ne (files : List (Location × Bytes)) (location other : Location) :
    (files.filter fun file => file.1 ≠ location).lookup other =
      if other = location then none else files.lookup other := by
  induction files with
  | nil => simp
  | cons file files ih =>
      obtain ⟨name, content⟩ := file
      by_cases hname : name = location
      · subst hname
        rw [List.filter_cons_of_neg (by simp), ih]
        by_cases hother : other = name
        · simp [hother]
        · have hbeq : (other == name) = false := by simpa using hother
          simp [hother, hbeq, List.lookup_cons]
      · rw [List.filter_cons_of_pos (by simpa using hname), List.lookup_cons, List.lookup_cons, ih]
        by_cases hother : other = name
        · simp [hother, hname]
        · have hbeq : (other == name) = false := by simpa using hother
          simp [hbeq]

theorem content?_put (t : FileTree) (location other : Location) (content : Bytes) :
    (t.put location content).content? other =
      if other = location then some content else t.content? other := by
  unfold put content?
  by_cases hother : other = location
  · simp [hother]
  · have hbeq : (other == location) = false := by simpa using hother
    rw [List.lookup_cons, hbeq]
    simp only
    rw [lookup_filter_ne]
    simp [hother]

theorem content?_erase (t : FileTree) (location other : Location) :
    (t.erase location).content? other = if other = location then none else t.content? other :=
  lookup_filter_ne t.files location other

/-- Whether there is a folder. The current one and those above it always are. -/
def isFolder (t : FileTree) (location : Location) : Bool :=
  location.all (· = aboveName) || systemFolders.contains location || t.folders.contains location

/-- Whether there is something to be read or written. -/
def holds (t : FileTree) : Place → Bool
  | .folder | .nullDevice => true
  | .file location => (t.content? location).isSome

/-- What there is, or may be, at a location in a folder. -/
def placeAt (t : FileTree) (location : Location) : Place :=
  if t.isFolder location then .folder
  else if location = nullDevice then .nullDevice
  else .file location

/-- One step to what there is, or may be. -/
def step (t : FileTree) (here : Location) (name : String) : Except FileFault Place :=
  if Path.maxNameLength < name.utf8ByteSize then .error .tooLong
  else .ok (t.placeAt (here.follow name))

/-- One step to a folder. -/
def enter (t : FileTree) (here : Location) (name : String) : Except FileFault Location := do
  match ← t.step here name with
  | .folder => return here.follow name
  | place => .error (if t.holds place then .notFolder else .missing)

/-- The folder in which the last step of a path is to be taken. -/
def approach (t : FileTree) (path : String) : Except FileFault Location :=
  if path.toList.contains '\x00' then .error .holdsNul
  else if Path.maxLength < path.utf8ByteSize then .error .tooLong
  else if path = "" then .error .missing
  else (Path.steps path).dropLast.foldlM t.enter (Path.start path)

/-- The last step of a path, once the folder is known in which it is to be taken. -/
def arrive (t : FileTree) (here : Location) (path : String) : Except FileFault Place :=
  match (Path.steps path).getLast? with
  | none => .ok .folder
  | some name => t.step here name

/-- What there is at a path. A slash at its end is only good behind a folder. -/
def find (t : FileTree) (path : String) : Except FileFault Place := do
  let place ← t.arrive (← t.approach path) path
  if t.holds place then
    if Path.endsInSlash path ∧ place ≠ .folder then .error .notFolder else return place
  else .error .missing

/-- Where a file can be made or replaced. With a slash at its end a path is that of a folder. -/
def target (t : FileTree) (path : String) : Except FileFault Place := do
  let here ← t.approach path
  if Path.endsInSlash path then .error .isFolder
  else
    match ← t.arrive here path with
    | .folder => .error .isFolder
    | place => return place

def contentOf (t : FileTree) : Place → Bytes
  | .folder | .nullDevice => []
  | .file location => (t.content? location).getD []

def read (t : FileTree) (path : String) : Except FileFault Bytes := do
  match ← t.find path with
  | .folder => .error .isFolder
  | place => return t.contentOf place

/-- Replaces the file at a path, or makes it. -/
def write (path : String) (content : Bytes) (t : FileTree) : Except FileFault FileTree := do
  match ← t.target path with
  | .file location => return t.put location content
  | _ => return t

/-- Removes the file at a path, if there is one. -/
def remove (path : String) (t : FileTree) : FileTree :=
  match t.target path with
  | .ok (.file location) => t.erase location
  | _ => t

end FileTree

end SealedEnvelope
