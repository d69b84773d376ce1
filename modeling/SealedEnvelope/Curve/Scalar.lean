/-!
Scalars of both forms of the curve as they come from key bytes.
-/

namespace SealedEnvelope

/-- The place value of the highest bit of a clamped scalar, 2^254. -/
def scalarHighBit : Nat := 0x4000000000000000000000000000000000000000000000000000000000000000

/-- The number with its three low bits cleared and its highest bit at place 254, so that every
clamped scalar is a multiple of the cofactor and takes the same number of steps. -/
def clampScalar (n : Nat) : Nat := scalarHighBit + n % scalarHighBit / 8 * 8

end SealedEnvelope
