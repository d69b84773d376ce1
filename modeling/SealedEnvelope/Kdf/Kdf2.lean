import SealedEnvelope.Failure

/-!
KDF2 (ISO 18033-2): the hashes of a secret followed by a 32-bit counter that
starts at one, cut off at the length wanted.
-/

namespace SealedEnvelope.Kdf2

/-- The hash that the output is made of. Its digests have one size, which is not zero. -/
structure HashAlgorithm where
  size : Nat
  digest : Bytes → Octets size
  size_pos : 0 < size

namespace HashAlgorithm

def sha256 : HashAlgorithm := ⟨32, Sha256.digest, by decide⟩

def sha384 : HashAlgorithm := ⟨48, Sha512.digest384, by decide⟩

def sha512 : HashAlgorithm := ⟨64, Sha512.digest, by decide⟩

end HashAlgorithm

/-- The number of hashes that `length` bytes take. -/
def blockCount (h : HashAlgorithm) (length : Nat) : Nat := (length + h.size - 1) / h.size

/-- The first `length` bytes of output, whatever the counter then is. -/
def output (h : HashAlgorithm) (secret : Bytes) (length : Nat) : Bytes :=
  ((List.range (blockCount h length)).flatMap fun i =>
    (h.digest (secret ++ Bytes.bigEndian 4 (i + 1))).toBytes).take length

/-- The first `length` bytes of output, if the counter reaches that far. -/
def derive (h : HashAlgorithm) (secret : Bytes) (length : Nat) : Except Failure Bytes :=
  if blockCount h length < UInt32.size then .ok (output h secret length)
  else .error (.invalidParameter (.derivedLength length))

end SealedEnvelope.Kdf2
