import SealedEnvelope.Cbor.Head
import SealedEnvelope.Bytes.Utf8

/-!
Decoders of CBOR items from the front of the input. What an item leaves over is
what the next one reads: arrays of fixed size take no more elements than they
need, and nothing checks that an announced length has been used up.
-/

namespace SealedEnvelope.Cbor

/-- A decoder gets a bound on the number of steps of each of its loops, and the input. A loop takes
at least one byte per step, so the length of the input is bound enough. -/
abbrev Decoder := ReaderT Nat (StateT Bytes Option)

namespace Decoder

/-- Runs a decoder on a whole input; what is left over is dropped. -/
def decode? {α : Type} (d : Decoder α) (input : Bytes) : Option α :=
  (d (input.length + 1) input).map Prod.fst

def head : Decoder Head := fun _ input => readHead input

/-- The head that comes next, which is not taken. -/
def peek : Decoder Head := fun _ input => (readHead input).map fun (head, _) => (head, input)

/-- Exactly `n` bytes. -/
def take (n : Nat) : Decoder Bytes := fun _ input => splitExactly n input

/-- Skips tags in front of an item; other tags than `stays` are of no account. -/
def pastTags (stays : Nat → Bool) : Decoder Head := fun fuel input => go fuel input
where
  go : Nat → Bytes → Option (Head × Bytes)
    | 0, _ => none
    | fuel + 1, input =>
        match readHead input with
        | some (.tag n, rest) => if stays n then some (.tag n, rest) else go fuel rest
        | other => other

/-- The head behind any tags. -/
def untagged : Decoder Head := pastTags fun _ => false

/-- The chunks of a string whose head was taken, each checked by `valid`. Strings without a length
may be nested; `open` counts those not yet ended. -/
def chunks (length? : Head → Option (Option Nat)) (valid : Bytes → Bool) (depth : Nat)
    (acc : List Bytes) : Decoder Bytes := fun fuel input => go fuel depth acc input
where
  go : Nat → Nat → List Bytes → Bytes → Option (Bytes × Bytes)
    | _, 0, acc, input => some (acc.reverse.flatten, input)
    | 0, _ + 1, _, _ => none
    | fuel + 1, depth + 1, acc, input =>
        match readHead input with
        | some (.stop, rest) => go fuel depth acc rest
        | some (head, rest) =>
            match length? head with
            | some none => go fuel (depth + 2) acc rest
            | some (some n) =>
                match splitExactly n rest with
                | some (chunk, rest) =>
                    if valid chunk then go fuel (depth + 1) (chunk :: acc) rest else none
                | none => none
            | none => none
        | none => none

/-- The content of a string of a kind with the given length. -/
def content (length? : Head → Option (Option Nat)) (valid : Bytes → Bool) :
    (length : Option Nat) → Decoder Bytes
  | some n => do
      let bytes ← take n
      if valid bytes then pure bytes else failure
  | none => chunks length? valid 1 []

def byteLength? : Head → Option (Option Nat)
  | .bytes length => some length
  | _ => none

def textLength? : Head → Option (Option Nat)
  | .text length => some length
  | _ => none

def byteContent (length : Option Nat) : Decoder Bytes := content byteLength? (fun _ => true) length

def textContent (length : Option Nat) : Decoder Bytes := content textLength? Utf8.isValid length

/-- Repeats a step as often as the length says or, without one, up to the break. -/
def iterate {σ : Type} (step : σ → Decoder σ) (length : Option Nat) (s : σ) : Decoder σ :=
  fun fuel input => go fuel fuel length s input
where
  go (bound : Nat) : Nat → Option Nat → σ → Bytes → Option (σ × Bytes)
    | _, some 0, s, input => some (s, input)
    | 0, _, _, _ => none
    | fuel + 1, some (n + 1), s, input =>
        match step s bound input with
        | some (s, rest) => go bound fuel (some n) s rest
        | none => none
    | fuel + 1, none, s, input =>
        match readHead input with
        | some (.stop, rest) => some (s, rest)
        | _ =>
            match step s bound input with
            | some (s, rest) => go bound fuel none s rest
            | none => none

/-- Puts one more element in front of those read before. -/
def collect {α : Type} (item : Decoder α) (done : List α) : Decoder (List α) := do
  let x ← item
  return x :: done

/-- The elements of an array whose head was taken. -/
def elements {α : Type} (item : Decoder α) (length : Option Nat) : Decoder (List α) := do
  let done ← iterate (collect item) length []
  return done.reverse

/-- An integer that is not negative. A bignum is a tagged byte string of at most sixteen bytes,
zeros in front apart. -/
def unsigned : Decoder Nat := do
  match ← pastTags fun n => n == 2 || n == 3 with
  | .unsigned n => pure n
  | .tag 2 =>
      match ← head with
      | .bytes length =>
          let digits := (← byteContent length).dropWhile (· == 0)
          if digits.length ≤ 16 then pure (Bytes.ofBigEndian digits) else failure
      | _ => failure
  | _ => failure

/-- An integer below `limit`. -/
def below (limit : Nat) : Decoder Nat := do
  let n ← unsigned
  if n < limit then pure n else failure

def byte : Decoder UInt8 := UInt8.ofNat <$> below UInt8.size

def word : Decoder UInt32 := UInt32.ofNat <$> below UInt32.size

/-- Any number of bytes: an array of integers, or a byte string. -/
def byteList : Decoder Bytes := do
  match ← untagged with
  | .array length => elements byte length
  | .bytes length => byteContent length
  | _ => failure

/-- Exactly `n` bytes from the front of an array of integers or of a byte string. -/
def octets (n : Nat) : Decoder (Octets n) := do
  let bytes ← match ← untagged with
    | .array (some length) => if length < n then failure else elements byte (some n)
    | .array none => elements byte (some n)
    | .bytes length => (·.take n) <$> byteContent length
    | _ => failure
  match Octets.ofBytes? n bytes with
  | some bytes => pure bytes
  | none => failure

/-- Null and undefined stand for nothing. -/
def nullable {α : Type} (item : Decoder α) : Decoder (Option α) := do
  match ← peek with
  | .simple 22 | .simple 23 =>
      let _ ← head
      pure none
  | _ => some <$> item

/-- The longest name of a field or a variant. -/
def maxNameLength : Nat := 4096

/-- The rest of a name whose head was taken: text or a byte string, of a length given in front. -/
def nameContent : Head → Decoder Bytes
  | .text (some n) => if n ≤ maxNameLength then textContent (some n) else failure
  | .bytes (some n) => if n ≤ maxNameLength then byteContent (some n) else failure
  | _ => failure

/-- The name of a field. -/
def name : Decoder Bytes := do nameContent (← untagged)

/-- The name of a variant: text, or the key of a map with a single entry. The value of the entry,
or the item after the text, is left to be read. -/
def variant : Decoder Bytes := do
  match ← untagged with
  | .map (some 1) => name
  | .text length => nameContent (.text length)
  | _ => failure

/-- Negative bignums are skipped up to this one, 2^127, and refused from it on. -/
def bignumLimit : Nat := 0x80000000000000000000000000000000

/-- An item of any kind that nests at most as deep as `nested` allows, which skips an item inside
this one; without it, this one must be flat. -/
def skipOne (nested : Option (Decoder Unit)) : Decoder Unit := do
  let inside : Decoder Unit := nested.getD failure
  match ← head with
  | .unsigned _ | .negative _ | .float => pure ()
  | .simple n => if 20 ≤ n ∧ n ≤ 23 then pure () else failure
  | .bytes length =>
      let _ ← byteContent length
  | .text length =>
      let _ ← textContent length
  | .array length => if nested.isSome then iterate (fun _ => inside) length () else failure
  | .map length =>
      if nested.isSome then
        iterate (fun _ => do
          inside
          inside) length ()
      else failure
  | .tag n =>
      match ← peek with
      | .bytes (some length) =>
          if (n = 2 ∨ n = 3) ∧ length ≤ 16 then
            let _ ← head
            let digits ← take length
            if n = 3 ∧ bignumLimit ≤ Bytes.ofBigEndian digits then failure else pure ()
          else inside
      | _ => inside
  | .stop => failure

/-- An item of any kind with at most `depth` items around each other in it. -/
def skip : (depth : Nat) → Decoder Unit
  | 0 => skipOne none
  | depth + 1 => skipOne (some (skip depth))

/-- The greatest nesting, the outermost item included. -/
def maxDepth : Nat := 256

/-- The fields of a map at level `level` whose head was taken, in any order: `field` reads the
value of a field it knows by name, and other values are skipped. -/
def fields {σ : Type} (level : Nat) (field : Bytes → σ → Option (Decoder σ)) (length : Option Nat)
    (s : σ) : Decoder σ :=
  iterate (fun s => do
    let key ← name
    match field key s with
    | some d => d
    | none =>
        skip (maxDepth - level)
        pure s) length s

/-- Fills a field that has not been filled yet. -/
def once {α σ : Type} (old : Option α) (item : Decoder α) (set : α → σ) : Decoder σ :=
  if old.isSome then failure else set <$> item

end Decoder

end SealedEnvelope.Cbor
