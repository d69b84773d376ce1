import SealedEnvelope.Bytes

/-!
The heads of CBOR items (RFC 8949): what kind of item follows and its number,
written in the shortest form and read in any.
-/

namespace SealedEnvelope.Cbor

/-- A head. A missing length stands for an item that ends with a break. -/
inductive Head where
  | unsigned (n : Nat)
  | negative (n : Nat)
  | bytes (length : Option Nat)
  | text (length : Option Nat)
  | array (length : Option Nat)
  | map (length : Option Nat)
  | tag (n : Nat)
  | simple (n : Nat)
  | float
  | stop
deriving DecidableEq, Repr

/-- The head of a kind with a number below 2^64, as short as possible. -/
def encodeHead (major n : Nat) : Bytes :=
  let first (info : Nat) : UInt8 := UInt8.ofNat (32 * major + info)
  if n < 24 then [first n]
  else if n < UInt8.size then first 24 :: Bytes.bigEndian 1 n
  else if n < UInt16.size then first 25 :: Bytes.bigEndian 2 n
  else if n < UInt32.size then first 26 :: Bytes.bigEndian 4 n
  else first 27 :: Bytes.bigEndian 8 n

/-- The first `n` bytes and the rest, if there are as many. -/
def splitExactly (n : Nat) (input : Bytes) : Option (Bytes × Bytes) :=
  let front := input.take n
  if front.length = n then some (front, input.drop n) else none

/-- How many bytes behind the first hold the number, for the four values that say so. -/
def numberWidth (info : Nat) : Nat :=
  if info = 24 then 1 else if info = 25 then 2 else if info = 26 then 4 else 8

/-- The number of a head with `info` in its low five bits; none if it has no end. -/
def readNumber (info : Nat) (input : Bytes) : Option (Option Nat × Bytes) :=
  if info < 24 then some (some info, input)
  else if info < 28 then
    (splitExactly (numberWidth info) input).map fun (digits, rest) =>
      (some (Bytes.ofBigEndian digits), rest)
  else if info = 31 then some (none, input)
  else none

/-- The head that a major type, its low bits and its number make. Integers and tags have a number,
and the last major type tells simple values from floats by the width of theirs. -/
def assembleHead (major info : Nat) (number : Option Nat) : Option Head :=
  match major with
  | 0 => number.map .unsigned
  | 1 => number.map .negative
  | 2 => some (.bytes number)
  | 3 => some (.text number)
  | 4 => some (.array number)
  | 5 => some (.map number)
  | 6 => number.map .tag
  | _ =>
      match number with
      | none => some .stop
      | some n => if info < 25 then some (.simple n) else some .float

/-- Reads a head from the front of the input. -/
def readHead : Bytes → Option (Head × Bytes)
  | [] => none
  | first :: input => do
      let info := first.toNat % 32
      let (number, rest) ← readNumber info input
      let head ← assembleHead (first.toNat / 32) info number
      return (head, rest)

end SealedEnvelope.Cbor
