import SealedEnvelope.Failure

/-!
The source of random bytes as a value: what it will hand out, and how much of it
has been taken. A draw that cannot be met takes nothing.
-/

namespace SealedEnvelope

/-- Byte number `i` of the source is `byteAt i`; `limit` is their number, if there is an end. -/
structure Entropy where
  byteAt : Nat → UInt8
  limit : Option Nat
  position : Nat

namespace Entropy

/-- A source that hands out the given bytes in order. -/
def ofBytes (bytes : Bytes) : Entropy :=
  let tape := bytes.toArray
  ⟨fun i => tape.getD i 0, some tape.size, 0⟩

/-- The output function of the SplitMix64 generator. -/
def scramble (n : UInt64) : UInt64 :=
  let n := (n ^^^ (n >>> 30)) * 0xBF58476D1CE4E5B9
  let n := (n ^^^ (n >>> 27)) * 0x94D049BB133111EB
  n ^^^ (n >>> 31)

/-- The endless and reproducible bytes of a SplitMix64 generator, eight of each output. -/
def ofSeed (seed : UInt64) : Entropy :=
  ⟨fun i =>
      let word := scramble (seed + UInt64.ofNat (i / 8 + 1) * 0x9E3779B97F4A7C15)
      (word >>> UInt64.ofNat (8 * (i % 8))).toUInt8,
   none, 0⟩

/-- The same source, cut off after `n` bytes in all. -/
def limitTo (n : Nat) (e : Entropy) : Entropy :=
  { e with limit := some (match e.limit with | some m => min m n | none => n) }

/-- Whether `n` more bytes can be had. -/
def holds (e : Entropy) (n : Nat) : Bool :=
  match e.limit with
  | some limit => e.position + n ≤ limit
  | none => true

/-- The next `n` bytes, without taking them. -/
def peek (e : Entropy) (n : Nat) : Octets n :=
  ⟨(List.range n).map fun i => e.byteAt (e.position + i), by simp⟩

end Entropy

/-- A computation that may draw random bytes and may fail; what was drawn stays drawn. -/
abbrev Random := ExceptT Failure (StateM Entropy)

/-- Draws `n` bytes. -/
def Random.draw (n : Nat) : Random (Octets n) := fun e =>
  if e.holds n then (.ok (e.peek n), { e with position := e.position + n })
  else (.error .randomSource, e)

/-- A computation that draws nothing. -/
def Random.lift {α : Type} (result : Except Failure α) : Random α := fun e => (result, e)

end SealedEnvelope
