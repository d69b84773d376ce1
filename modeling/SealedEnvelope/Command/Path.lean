/-!
Paths: steps between slashes, taken from the current folder or from the root, and
the locations to which they lead.
-/

namespace SealedEnvelope

/-- The names on the way from the current folder. Each folder above it is two dots, and the root is
a name of its own. -/
abbrev Location := List String

def rootName : String := "/"

def aboveName : String := ".."

/-- The location of the device that is always empty, whatever is written to it. -/
def nullDevice : Location := [rootName, "dev", "null"]

/-- The folders that every system has. -/
def systemFolders : List Location := [[rootName], [rootName, "dev"], [rootName, "tmp"]]

/-- The folder that holds a location. Nothing is above the root. -/
def Location.above (here : Location) : Location :=
  if here = [rootName] then here
  else if here.all (· = aboveName) then here ++ [aboveName]
  else here.dropLast

/-- One step further: one dot stays, two dots lead to the folder above. -/
def Location.follow (here : Location) (step : String) : Location :=
  if step = "." then here
  else if step = aboveName then here.above
  else here ++ [step]

namespace Path

/-- The longest path and the longest name in it, in bytes. -/
def maxLength : Nat := 4095

def maxNameLength : Nat := 255

/-- The pieces between slashes. -/
def cutAtSlashes : List Char → List (List Char)
  | [] => [[]]
  | '/' :: later => [] :: cutAtSlashes later
  | c :: later =>
      match cutAtSlashes later with
      | [] => [[c]]
      | piece :: pieces => (c :: piece) :: pieces

/-- The pieces that are not empty. -/
def steps (path : String) : List String :=
  ((cutAtSlashes path.toList).map String.ofList).filter (· ≠ "")

/-- Where the first step is taken. -/
def start (path : String) : Location :=
  if path.toList.head? = some '/' then [rootName] else []

/-- Where the steps lead, if there is nothing in the way. -/
def destination (path : String) : Location := (steps path).foldl Location.follow (start path)

def endsInSlash (path : String) : Bool := path.toList.getLast? = some '/'

end Path

end SealedEnvelope
