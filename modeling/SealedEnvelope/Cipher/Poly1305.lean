import SealedEnvelope.Bytes

/-!
The Poly1305 one-time authenticator (RFC 8439): a polynomial in the first half
of the key, modulo a prime, plus the second half.
-/

namespace SealedEnvelope.Poly1305

/-- The prime 2^130 - 5. -/
def prime : Nat := 0x3fffffffffffffffffffffffffffffffb

/-- Twenty-two bits of the sixteen key bytes that choose the point must be zero. -/
def clamp (n : Nat) : Nat := n &&& 0x0ffffffc0ffffffc0ffffffc0fffffff

/-- A block is read with a one byte behind it. -/
def absorb (point acc : Nat) (block : Bytes) : Nat :=
  (acc + Bytes.ofLittleEndian (block ++ [1])) * point % prime

def tag (key : Octets 32) (message : Bytes) : Bytes :=
  let point := clamp (Bytes.ofLittleEndian (key.toBytes.take 16))
  let sum := (Bytes.cut 16 message).foldl (absorb point) 0
  Bytes.littleEndian 16 (sum + Bytes.ofLittleEndian (key.toBytes.drop 16))

@[simp]
theorem length_tag (key : Octets 32) (message : Bytes) : (tag key message).length = 16 := by
  simp [tag]

end SealedEnvelope.Poly1305
