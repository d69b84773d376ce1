import SealedEnvelope.Bytes

/-!
Arithmetic modulo 2^255 - 19, the field under both Curve25519 and Edwards25519.
-/

namespace SealedEnvelope

/-- The prime 2^255 - 19. -/
def fieldPrime : Nat := 0x7fffffffffffffffffffffffffffffffffffffffffffffffffffffffffffffed

instance : @NeZero Nat Zero.ofOfNat0 fieldPrime := ⟨by decide⟩

/-- A residue modulo the field prime. -/
abbrev FieldElement := Fin fieldPrime

namespace FieldElement

def ofNat (n : Nat) : FieldElement := Fin.ofNat fieldPrime n

/-- Squares and multiplies along the bits of the exponent, from bit `bits - 1` down. -/
def powBits (x : FieldElement) (exponent : Nat) (acc : FieldElement) : (bits : Nat) → FieldElement
  | 0 => acc
  | bits + 1 =>
      let square := acc * acc
      powBits x exponent (if exponent.testBit bits then square * x else square) bits

/-- The power with an exponent below 2^255. -/
def pow (x : FieldElement) (exponent : Nat) : FieldElement := powBits x exponent 1 255

/-- The multiplicative inverse, and zero for zero. -/
def inverse (x : FieldElement) : FieldElement := pow x (fieldPrime - 2)

/-- The place value of the highest bit of thirty-two bytes, 2^255. -/
def highBit : Nat :=
  0x8000000000000000000000000000000000000000000000000000000000000000

/-- Reads thirty-two bytes, least significant first; the highest bit is not part of the number. -/
def ofBytes (bytes : Octets 32) : FieldElement :=
  ofNat (Bytes.ofLittleEndian bytes.toBytes % highBit)

def toBytes (x : FieldElement) : Octets 32 :=
  ⟨Bytes.littleEndian 32 x.val, Bytes.length_littleEndian _ _⟩

/-- A square root of minus one. -/
def rootOfMinusOne : FieldElement :=
  ofNat 0x2b8324804fc1df0b2b4d00993dfbd7a72f431806ad2fe478c4ee1b274a0ea0b0

/-- A number `x` with `v * x * x = u`, if there is one. -/
def squareRootOfRatio (u v : FieldElement) : Option FieldElement :=
  let v3 := v * v * v
  let x := u * v3 * pow (u * v3 * v3 * v) ((fieldPrime - 5) / 8)
  let check := v * x * x
  if check = u then some x
  else if check = -u then some (x * rootOfMinusOne)
  else none

end FieldElement

end SealedEnvelope
