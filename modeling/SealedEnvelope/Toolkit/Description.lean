import SealedEnvelope.Toolkit.Envelopes
import SealedEnvelope.Session.Basic
import SealedEnvelope.Text.Quoted

/-!
Diagnostic descriptions of keys, settings and sessions. Secrets are left out.
-/

namespace SealedEnvelope

def KeyId.describe (id : KeyId) : String := Text.wrapped "KeyId" id.text

def Ed25519PublicKey.describe (key : Ed25519PublicKey) : String :=
  Text.wrapped "Ed25519PublicKey" (Hex.encode key.bytes.toBytes)

def Ed25519PrivateKey.describe (_ : Ed25519PrivateKey) : String :=
  Text.wrapped "Ed25519PrivateKey" ".."

def Ed25519Keypair.describe (pair : Ed25519Keypair) : String :=
  Text.record "Ed25519Keypair"
    [("private", pair.privateKey.describe), ("public", pair.publicKey.describe)] false

def ForeignKey.describe (key : ForeignKey) : String :=
  Text.record "ForeignKey"
    [("algorithm", Text.quote key.algorithm), ("len", toString key.material.length)] false

def PublicKey.describe : PublicKey → String
  | .ed25519 key => Text.wrapped "Ed25519" key.describe
  | .foreign key => Text.wrapped "Foreign" key.describe

def PrivateKey.describe : PrivateKey → String
  | .ed25519 key => Text.wrapped "Ed25519" key.describe
  | .foreign key => Text.wrapped "Foreign" key.describe

def Recipient.describe : Recipient → String
  | .key publicKey => Text.wrapped "Key" publicKey.describe
  | .password _ => Text.wrapped "Password" ".."

def EnvelopeRecipient.describe : EnvelopeRecipient → String
  | .key publicKey => Text.wrapped "Key" publicKey.describe
  | .password _ => Text.wrapped "Password" ".."

def StreamCipher.describe (c : StreamCipher) : String :=
  Text.record "StreamCipher" [("buffer_size", toString c.bufferSize.val)] false

def ChunkCipher.describe (c : ChunkCipher) : String :=
  Text.record "ChunkCipher" [("chunk_size", toString c.chunkSize.val)] false

def FingerprintAlgorithm.describe : FingerprintAlgorithm → String
  | .sha256 => "Sha256"
  | .sha512Truncated => "Sha512Truncated"

def Settings.describe (s : Settings) : String :=
  Text.record "CryptoConfig"
    [("fingerprint", s.fingerprint.describe),
     ("stream_buffer_size", toString s.streamBufferSize),
     ("chunk_size", toString s.chunkSize),
     ("password_kdf", s.passwordCosts.describe),
     ("diagnostics", toString s.diagnostics)] false

def Toolkit.describe (t : Toolkit) : String :=
  Text.record "Crypto" [("config", t.settings.describe)] true

def Session.describe (s : Session) : String :=
  Text.record "Session"
    [("session_id", Text.quote (Hex.encode s.sessionId.toBytes)), ("role", s.role.name)] true

end SealedEnvelope
