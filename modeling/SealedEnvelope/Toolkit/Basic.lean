import SealedEnvelope.Toolkit.AnyKey
import SealedEnvelope.Toolkit.Event
import SealedEnvelope.Toolkit.Settings
import SealedEnvelope.Envelope.Cipher
import SealedEnvelope.Transfer.Sink

/-!
The toolkit: settings that have been checked, the state its operations work in,
and the one way in which all of them end.
-/

namespace SealedEnvelope

/-- Checked settings and the ciphers that they describe. -/
structure Toolkit where
  settings : Settings
  stream : StreamCipher
  chunk : ChunkCipher

/-- What the operations of a toolkit share: the random source and the events recorded so far. -/
structure Surroundings where
  entropy : Entropy
  events : List Event

/-- An operation of a toolkit. -/
abbrev Action (α : Type) := StateM Surroundings (Except Failure α)

/-- An operation of a toolkit that also writes. -/
abbrev StreamAction := Sink → StateM Surroundings (Except Failure Nat × Sink)

namespace Toolkit

def ofSettings (settings : Settings) : Except Failure Toolkit :=
  settings.ciphers.map fun (stream, chunk) => ⟨settings, stream, chunk⟩

/-- The cipher for envelopes. -/
def envelope (t : Toolkit) : EnvelopeCipher :=
  ⟨t.settings.fingerprint, t.settings.passwordCosts, t.stream⟩

/-- The identifier of a public key that can be used. -/
def publicId? (t : Toolkit) (key : PublicKey) : Option KeyId :=
  match key with
  | .ed25519 key => if key.isEmpty then none else some (key.identifier t.settings.fingerprint)
  | .foreign _ => none

/-- The identifier of the public key of a private key that can be used. -/
def privateId? (t : Toolkit) (key : PrivateKey) : Option KeyId :=
  match key with
  | .ed25519 key => key.publicKey.toOption.map fun k => k.identifier t.settings.fingerprint
  | .foreign _ => none

/-- Runs a computation on the random source. -/
def draw {α : Type} (computation : Random α) : Action α := fun s =>
  let (result, entropy) := computation s.entropy
  (result, { s with entropy })

/-- Records how an operation ended, if that is wanted. -/
def record {α : Type} (t : Toolkit) (operation : Operation) (keyId : Option KeyId)
    (result : Except Failure α) : StateM Surroundings Unit :=
  if t.settings.diagnostics then
    let failure := match result with
      | .ok _ => none
      | .error failure => some failure
    modify fun s => { s with events := s.events ++ [⟨operation, keyId, failure⟩] }
  else pure ()

/-- Carries out an operation and records its end, with a key identifier that may depend on it. -/
def report {α : Type} (t : Toolkit) (operation : Operation)
    (keyId : Except Failure α → Option KeyId) (action : StateM Surroundings (Except Failure α)) :
    StateM Surroundings (Except Failure α) := do
  let result ← action
  t.record operation (keyId result) result
  pure result

/-- An operation that prepares something to write, then writes it. -/
def reportStream (t : Toolkit) (operation : Operation) (keyId : Option KeyId)
    (action : StateM Surroundings (Except Failure (Emission Nat))) : StreamAction := fun sink => do
  let (result, sink) ← do
    match ← action with
    | .error failure => pure (.error failure, sink)
    | .ok emission => pure (sink.deliver emission)
  t.record operation keyId result
  pure (result, sink)

end Toolkit

end SealedEnvelope
