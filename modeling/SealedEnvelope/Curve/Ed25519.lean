import SealedEnvelope.Curve.Edwards
import SealedEnvelope.Curve.Scalar
import SealedEnvelope.Hash.Sha512

/-!
Ed25519 signatures (RFC 8032). Verification compares the encoded commitment with
the one in the signature, without multiplying by the cofactor.
-/

namespace SealedEnvelope.Ed25519

/-- The order of the base point. -/
def groupOrder : Nat :=
  0x1000000000000000000000000000000014def9dea2f79cd65812631a5cf5d3ed

/-- The secret scalar of a seed: the first half of its hash, clamped. -/
def secretScalar (seed : Octets 32) : Nat :=
  clampScalar (Bytes.ofLittleEndian ((Sha512.digest seed.toBytes).toBytes.take 32))

/-- The encoded public point of a seed. -/
def publicPoint (seed : Octets 32) : Octets 32 :=
  (EdwardsPoint.base.scale (secretScalar seed)).toBytes

/-- A hash taken as a scalar. -/
def hashToScalar (bytes : Bytes) : Nat :=
  Bytes.ofLittleEndian (Sha512.digest bytes).toBytes % groupOrder

def sign (seed : Octets 32) (message : Bytes) : Octets 64 :=
  let secret := secretScalar seed
  let point := publicPoint seed
  let nonce := hashToScalar ((Sha512.digest seed.toBytes).toBytes.drop 32 ++ message)
  let commitment := (EdwardsPoint.base.scale nonce).toBytes
  let challenge := hashToScalar (commitment.toBytes ++ point.toBytes ++ message)
  let response := (nonce + challenge * secret) % groupOrder
  ⟨commitment.toBytes ++ Bytes.littleEndian 32 response, by simp⟩

/-- The response of a signature is below the group order, and the commitment that the response,
the challenge and the public point determine is the one that the signature starts with. -/
def verify (encodedPoint : Octets 32) (point : EdwardsPoint) (message : Bytes)
    (signature : Octets 64) : Bool :=
  let commitment := signature.toBytes.take 32
  let response := Bytes.ofLittleEndian (signature.toBytes.drop 32)
  let challenge := hashToScalar (commitment ++ encodedPoint.toBytes ++ message)
  let expected := (EdwardsPoint.base.scale response).add (point.neg.scale challenge)
  response < groupOrder && expected.toBytes.toBytes == commitment

end SealedEnvelope.Ed25519
