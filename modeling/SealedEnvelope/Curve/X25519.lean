import SealedEnvelope.Curve.Field
import SealedEnvelope.Curve.Scalar

/-!
X25519 (RFC 7748): scalar multiplication on the u coordinates of Curve25519.
-/

namespace SealedEnvelope.X25519

/-- The scalar of a private key. -/
def scalarOf (bytes : Octets 32) : Nat := clampScalar (Bytes.ofLittleEndian bytes.toBytes)

/-- The u coordinates, as fractions, of a multiple of the point and of the next multiple. -/
structure Ladder where
  x2 : FieldElement
  z2 : FieldElement
  x3 : FieldElement
  z3 : FieldElement

def Ladder.swap (l : Ladder) : Ladder := ⟨l.x3, l.z3, l.x2, l.z2⟩

/-- Doubles the first multiple and adds the two, which differ by the point with coordinate `u`. -/
def Ladder.step (u : FieldElement) (l : Ladder) : Ladder :=
  let a := l.x2 + l.z2
  let b := l.x2 - l.z2
  let aa := a * a
  let bb := b * b
  let e := aa - bb
  let da := (l.x3 - l.z3) * a
  let cb := (l.x3 + l.z3) * b
  let sum := da + cb
  let difference := da - cb
  ⟨aa * bb, e * (aa + FieldElement.ofNat 121665 * e), sum * sum, u * (difference * difference)⟩

/-- Climbs along the bits of the scalar, from bit `bits - 1` down. -/
def Ladder.climb (u : FieldElement) (scalar : Nat) (l : Ladder) : (bits : Nat) → Ladder
  | 0 => l
  | bits + 1 =>
      let next := if scalar.testBit bits then (l.swap.step u).swap else l.step u
      next.climb u scalar bits

/-- The coordinate of the multiple; the result zero stands for the point at infinity. -/
def multiply (scalar point : Octets 32) : Octets 32 :=
  let u := FieldElement.ofBytes point
  let l := Ladder.climb u (scalarOf scalar) ⟨1, 0, u, 1⟩ 255
  (l.x2 * l.z2.inverse).toBytes

/-- The coordinate nine, of a point of prime order. -/
def basePoint : Octets 32 := .ofPadded 32 [9]

end SealedEnvelope.X25519
