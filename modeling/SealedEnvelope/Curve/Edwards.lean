import SealedEnvelope.Curve.Field

/-!
The curve Edwards25519 (RFC 8032): extended coordinates, the complete addition
law, and the 32-byte form of a point.
-/

namespace SealedEnvelope

/-- The point (x / z, y / z), with t * z = x * y. -/
structure EdwardsPoint where
  x : FieldElement
  y : FieldElement
  z : FieldElement
  t : FieldElement

namespace EdwardsPoint

/-- The curve constant -121665 / 121666. -/
def curveConstant : FieldElement :=
  FieldElement.ofNat 0x52036cee2b6ffe738cc740797779e89800700a4d4141d8ab75eb4dca135978a3

def ofAffine (x y : FieldElement) : EdwardsPoint := ⟨x, y, 1, x * y⟩

def identity : EdwardsPoint := ⟨0, 1, 1, 0⟩

def base : EdwardsPoint :=
  ofAffine
    (FieldElement.ofNat 0x216936d3cd6e53fec0a4e231fdd6dc5c692cc7609525a7b2c9562d608f25d51a)
    (FieldElement.ofNat 0x6666666666666666666666666666666666666666666666666666666666666658)

def add (p q : EdwardsPoint) : EdwardsPoint :=
  let a := (p.y - p.x) * (q.y - q.x)
  let b := (p.y + p.x) * (q.y + q.x)
  let c := p.t * (curveConstant + curveConstant) * q.t
  let d := (p.z + p.z) * q.z
  let e := b - a
  let f := d - c
  let g := d + c
  let h := b + a
  ⟨e * f, g * h, f * g, e * h⟩

def neg (p : EdwardsPoint) : EdwardsPoint := ⟨-p.x, p.y, p.z, -p.t⟩

/-- Doubles and adds along the bits of the scalar, from bit `bits - 1` down. -/
def scaleBits (p : EdwardsPoint) (scalar : Nat) (acc : EdwardsPoint) : (bits : Nat) → EdwardsPoint
  | 0 => acc
  | bits + 1 =>
      let twice := acc.add acc
      scaleBits p scalar (if scalar.testBit bits then twice.add p else twice) bits

/-- The multiple of a point by a scalar below 2^256. -/
def scale (scalar : Nat) (p : EdwardsPoint) : EdwardsPoint := scaleBits p scalar identity 256

def isIdentity (p : EdwardsPoint) : Bool := p.x == 0 && p.y == p.z

/-- True of the eight points whose order divides eight. -/
def isSmallOrder (p : EdwardsPoint) : Bool := (p.scale 8).isIdentity

/-- The y coordinate, with the lowest bit of the x coordinate as the highest bit. -/
def toBytes (p : EdwardsPoint) : Octets 32 :=
  let inverse := p.z.inverse
  let x := p.x * inverse
  let y := p.y * inverse
  ⟨Bytes.littleEndian 32 (y.val + FieldElement.highBit * (x.val % 2)),
    Bytes.length_littleEndian _ _⟩

/-- The point with a given y coordinate and a given lowest bit of x, if it is on the curve.
A y coordinate of the prime or more is reduced, and x = 0 is taken with either bit. -/
def ofBytes? (bytes : Octets 32) : Option EdwardsPoint :=
  let odd := FieldElement.highBit ≤ Bytes.ofLittleEndian bytes.toBytes
  let y := FieldElement.ofBytes bytes
  let square := y * y
  (FieldElement.squareRootOfRatio (square - 1) (curveConstant * square + 1)).map fun root =>
    ofAffine (if (root.val % 2 = 1) = odd then root else -root) y

/-- The coordinate (1 + y) / (1 - y) of the same point on Curve25519, zero for the identity. -/
def toMontgomery (p : EdwardsPoint) : Octets 32 :=
  ((p.z + p.y) * (p.z - p.y).inverse).toBytes

end EdwardsPoint

end SealedEnvelope
