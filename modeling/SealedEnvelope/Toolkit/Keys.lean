import SealedEnvelope.Toolkit.Basic
import SealedEnvelope.Key.Protected

/-!
Making, storing and identifying keys.
-/

namespace SealedEnvelope.Toolkit

/-- The identifier of the key that an operation gave. -/
def resultId {α : Type} (id? : α → Option KeyId) (result : Except Failure α) : Option KeyId :=
  result.toOption.bind id?

def generateKeypair (t : Toolkit) : Action Keypair :=
  t.report .generateKeypair (resultId fun pair => t.publicId? pair.publicKey)
    (draw do
      let pair ← Ed25519Keypair.generate
      return ⟨.ed25519 pair.privateKey, .ed25519 pair.publicKey⟩)

/-- Recovers a private key that is stored under a password. -/
def importPrivateKey (t : Toolkit) (data password : Bytes) : Action PrivateKey :=
  t.report .importPrivateKey (resultId t.privateId?)
    (pure ((ProtectedKey.recover data password).map .ed25519))

/-- The form of a private key to be stored, under a password. -/
def exportPrivateKey (t : Toolkit) (key : PrivateKey) (password : Bytes) : Action Bytes :=
  t.report .exportPrivateKey (fun _ => t.privateId? key)
    (draw do
      let key ← Random.lift (key.resolve .exportPrivateKey)
      ProtectedKey.protect key password)

def importPublicKey (t : Toolkit) (data : Bytes) : Action PublicKey :=
  t.report .importPublicKey (resultId t.publicId?)
    (pure ((Ed25519PublicKey.decode data).map .ed25519))

def exportPublicKey (t : Toolkit) (key : PublicKey) : Action Bytes :=
  t.report .exportPublicKey (fun _ => t.publicId? key)
    (pure ((key.resolve .exportPublicKey).map Ed25519PublicKey.encode))

/-- The public key of a private key. -/
def extractPublicKey (t : Toolkit) (key : PrivateKey) : Action PublicKey :=
  t.report .extractPublicKey (resultId t.publicId?)
    (pure do
      let key ← key.resolve .extractPublicKey
      return .ed25519 (← key.publicKey))

/-- The fingerprint of any bytes; nothing is reported. -/
def fingerprint (t : Toolkit) (data : Bytes) : Bytes := t.settings.fingerprint.fingerprint data

/-- The identifier by which envelopes address a key. -/
def keyIdentifier (t : Toolkit) (key : PublicKey) : Action KeyId :=
  t.report .keyIdentifier (resultId some)
    (pure ((key.resolve .keyIdentifier).map fun key => key.identifier t.settings.fingerprint))

end SealedEnvelope.Toolkit
