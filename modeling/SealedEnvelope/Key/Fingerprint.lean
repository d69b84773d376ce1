import SealedEnvelope.Hash.Sha256
import SealedEnvelope.Hash.Sha512
import SealedEnvelope.Bytes.Hex

/-!
Fingerprints of byte strings, and the identifiers by which envelopes address keys.
-/

namespace SealedEnvelope

/-- How fingerprints are computed. Sender and receiver of an envelope must agree on it. -/
inductive FingerprintAlgorithm where
  | sha256
  | sha512Truncated
deriving DecidableEq, Repr

/-- SHA-256 in full, or the first eight bytes of SHA-512. -/
def FingerprintAlgorithm.fingerprint : FingerprintAlgorithm → Bytes → Bytes
  | .sha256, data => (Sha256.digest data).toBytes
  | .sha512Truncated, data => (Sha512.digest data).toBytes.take 8

/-- The identifier of a public key: the fingerprint of its encoded form. -/
structure KeyId where
  bytes : Bytes
deriving DecidableEq, Repr

def KeyId.text (id : KeyId) : String := Hex.encode id.bytes

end SealedEnvelope
