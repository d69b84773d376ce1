import SealedEnvelope.Segment.ChunkCipher

/-!
The settings of a toolkit, and the segment ciphers that its sizes describe.
-/

namespace SealedEnvelope

structure Settings where
  fingerprint : FingerprintAlgorithm
  streamBufferSize : Nat
  chunkSize : Nat
  passwordCosts : Argon2id.Costs
  diagnostics : Bool
deriving DecidableEq

namespace Settings

def defaultCosts : Argon2id.Costs := ⟨19456, 2, 1⟩

def standard : Settings := ⟨.sha256, 65536, 1048576, defaultCosts, false⟩

/-- The ciphers with these sizes. Envelope readers limit that of streams further. -/
def ciphers (s : Settings) : Except Failure (StreamCipher × ChunkCipher) := do
  if maxStreamBufferSize < s.streamBufferSize then
    .error (.invalidParameter (.streamBufferTooLarge s.streamBufferSize))
  let stream ← StreamCipher.ofSize s.streamBufferSize
  let chunk ← ChunkCipher.ofSize s.chunkSize
  return (stream, chunk)

end Settings

end SealedEnvelope
