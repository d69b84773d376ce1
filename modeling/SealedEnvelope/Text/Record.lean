/-!
The text of structured values, for messages and diagnostic output.
-/

namespace SealedEnvelope.Text

/-- A name and named parts in braces; `more` marks parts that are left out. -/
def record (name : String) (parts : List (String × String)) (more : Bool) : String :=
  let shown := parts.map fun (label, value) => label ++ ": " ++ value
  let shown := if more then shown ++ [".."] else shown
  name ++ " \x7b " ++ ", ".intercalate shown ++ " \x7d"

/-- A name and a part in parentheses. -/
def wrapped (name part : String) : String := name ++ "(" ++ part ++ ")"

end SealedEnvelope.Text
