import SealedEnvelope.Text.Invisible

/-!
Text in double quotes, for diagnostic output: quotes and backslashes are escaped,
and so is every character that does not show by itself.
-/

namespace SealedEnvelope.Text

/-- A code point in hexadecimal: \u{301}. -/
def codePoint (c : Char) : List Char :=
  ['\\', 'u', '\x7b'] ++ Nat.toDigits 16 c.toNat ++ ['\x7d']

def quoteChar (c : Char) : List Char :=
  if c = '\x00' then ['\\', '0']
  else if c = '\t' then ['\\', 't']
  else if c = '\r' then ['\\', 'r']
  else if c = '\n' then ['\\', 'n']
  else if c = '"' ∨ c = '\\' then ['\\', c]
  else if isInvisible c then codePoint c
  else [c]

def quote (s : String) : String :=
  String.ofList ('"' :: s.toList.flatMap quoteChar ++ ['"'])

end SealedEnvelope.Text
