import SealedEnvelope.Envelope.Header
import SealedEnvelope.Key.Ed25519Key
import SealedEnvelope.Kdf.Kdf2
import SealedEnvelope.Cipher.Gcm

/-!
The content key of an envelope, wrapped for each recipient: for the holder of a
key by agreement with a fresh ephemeral key, or for whoever knows a password by
Argon2id. The costs travel with the entry.
-/

namespace SealedEnvelope

/-- Whom an envelope is encrypted for. -/
inductive Recipient where
  | key (publicKey : Ed25519PublicKey)
  | password (phrase : Bytes)
deriving DecidableEq

/-- The key and the nonce that wrap a content key. -/
structure WrapSecret where
  key : Octets 32
  nonce : Octets 12
deriving DecidableEq

namespace WrapSecret

/-- Derived by KDF2 with SHA-384 from what only the two sides know. -/
def derive (secret : Bytes) : WrapSecret :=
  let material := Kdf2.output .sha384 secret 44
  ⟨.ofPadded 32 (material.take 32), .ofPadded 12 (material.drop 32)⟩

def ofAgreement (shared ephemeralKey recipientPoint : Octets 32) : WrapSecret :=
  derive (shared.toBytes ++ ephemeralKey.toBytes ++ recipientPoint.toBytes)

def ofPassword (costs : Argon2id.Costs) (phrase : Bytes) (salt : Octets 16) :
    Except ParameterFault WrapSecret :=
  match Argon2id.derive costs phrase salt.toBytes with
  | .ok derived => .ok (derive (derived.toBytes ++ salt.toBytes))
  | .error fault => .error (.passwordHash fault)

def wrap (s : WrapSecret) (label : Bytes) (contentKey : Octets 32) : Bytes :=
  Gcm.encrypt s.key s.nonce label contentKey.toBytes

def unwrap? (s : WrapSecret) (label wrappedKey : Bytes) : Option Bytes :=
  Gcm.decrypt s.key s.nonce label wrappedKey

end WrapSecret

/-- What was unwrapped, if it is a content key. -/
def contentKey (operation : Operation) (bytes : Bytes) : Except Failure (Octets 32) :=
  match Octets.ofBytes? 32 bytes with
  | some key => .ok key
  | none => .error (.invalidKey operation .contentKeyLength)

namespace RecipientEntry

/-- Wraps a content key for the holder of a public key, under a given ephemeral key. -/
def forKey (algorithm : FingerprintAlgorithm) (contentKey ephemeral recipientPoint : Octets 32)
    (publicKey : Ed25519PublicKey) : Except Failure RecipientEntry := do
  let ephemeralKey := X25519.multiply ephemeral X25519.basePoint
  let shared ← agreeX25519 .encrypt ephemeral recipientPoint
  let id := publicKey.identifier algorithm
  let secret := WrapSecret.ofAgreement shared ephemeralKey recipientPoint
  return .key id ephemeralKey (secret.wrap id.bytes contentKey)

/-- Wraps a content key under a password and a given salt. -/
def forPassword (costs : Argon2id.Costs) (contentKey : Octets 32) (salt : Octets 16)
    (phrase : Bytes) : Except Failure RecipientEntry :=
  match WrapSecret.ofPassword costs phrase salt with
  | .ok secret => .ok (.password salt costs (secret.wrap salt.toBytes contentKey))
  | .error fault => .error (.invalidParameter fault)

/-- Wraps a content key for a recipient, with fresh randomness. A public key is checked first. -/
def wrapFor (algorithm : FingerprintAlgorithm) (costs : Argon2id.Costs) (contentKey : Octets 32) :
    Recipient → Random RecipientEntry
  | .key publicKey => do
      let recipientPoint ← Random.lift (publicKey.toX25519 .encrypt)
      let ephemeral ← Random.draw 32
      Random.lift (forKey algorithm contentKey ephemeral recipientPoint publicKey)
  | .password phrase => do
      let salt ← Random.draw 16
      Random.lift (forPassword costs contentKey salt phrase)

/-- The ephemeral key and wrapped key of an entry for a key with this identifier. -/
def forKeyId? (id : KeyId) : RecipientEntry → Option (Octets 32 × Bytes)
  | .key keyId ephemeralKey wrappedKey =>
      if keyId = id then some (ephemeralKey, wrappedKey) else none
  | .password _ _ _ => none

/-- The content key of the first entry for a private key. -/
def unwrapForKey (operation : Operation) (algorithm : FingerprintAlgorithm)
    (entries : List RecipientEntry) (key : Ed25519PrivateKey) : Except Failure (Octets 32) := do
  let publicKey ← key.publicKey
  let id := publicKey.identifier algorithm
  match entries.findSome? (forKeyId? id) with
  | none => .error (.recipientNotFound (.key id))
  | some (ephemeralKey, wrappedKey) =>
      let recipientPoint ← publicKey.toX25519 operation
      let shared ← key.agreeWithPoint operation ephemeralKey
      let secret := WrapSecret.ofAgreement shared ephemeralKey recipientPoint
      match secret.unwrap? id.bytes wrappedKey with
      | none => .error (.authenticationFailed operation)
      | some bytes => contentKey operation bytes

/-- The highest costs that a reader of untrusted envelopes pays. -/
def maxCosts : Argon2id.Costs := ⟨1048576, 64, 64⟩

def costsTooHigh (c : Argon2id.Costs) : Bool :=
  maxCosts.memoryKib < c.memoryKib || maxCosts.iterations < c.iterations ||
    maxCosts.parallelism < c.parallelism

/-- The secret that a password gives with the costs and the salt of an entry. -/
def passwordSecret (costs : Argon2id.Costs) (salt : Octets 16) (phrase : Bytes) :
    Except FormatFault WrapSecret :=
  if costsTooHigh costs then .error (.passwordCostsTooHigh costs)
  else (WrapSecret.ofPassword costs phrase salt).mapError .passwordCostsInvalid

/-- What has come of the password entries tried so far. -/
structure PasswordTrial where
  tried : Bool
  unusable : Option FormatFault

/-- The failure when no entry opened. -/
def PasswordTrial.failure (operation : Operation) (t : PasswordTrial) : Failure :=
  if t.tried then .authenticationFailed operation
  else
    match t.unusable with
    | some fault => .invalidFormat fault
    | none => .recipientNotFound .password

/-- Tries the password entries in order. Entries with unusable costs are passed over; the first
that opens is the last that is tried. -/
def tryPassword (operation : Operation) (phrase : Bytes) (t : PasswordTrial) :
    List RecipientEntry → Except Failure (Octets 32)
  | [] => .error (t.failure operation)
  | .key _ _ _ :: rest => tryPassword operation phrase t rest
  | .password salt costs wrappedKey :: rest =>
      match passwordSecret costs salt phrase with
      | .error fault => tryPassword operation phrase { t with unusable := some fault } rest
      | .ok secret =>
          match secret.unwrap? salt.toBytes wrappedKey with
          | some bytes => contentKey operation bytes
          | none => tryPassword operation phrase { t with tried := true } rest

def unwrapForPassword (operation : Operation) (entries : List RecipientEntry) (phrase : Bytes) :
    Except Failure (Octets 32) :=
  tryPassword operation phrase ⟨false, none⟩ entries

end RecipientEntry

end SealedEnvelope
