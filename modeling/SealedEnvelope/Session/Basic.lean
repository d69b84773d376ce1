import SealedEnvelope.Failure
import SealedEnvelope.Entropy
import SealedEnvelope.Kdf.Kdf2
import SealedEnvelope.Cipher.XChaCha20Poly1305

/-!
An established session: one key per direction, from which every message derives
its own key and nonce with a fresh salt. Nothing advances between messages, so
they can be decrypted in any order and any number of times.
-/

namespace SealedEnvelope

/-- Which side of the handshake a session comes from. -/
inductive Role where
  | initiator
  | responder
deriving DecidableEq, Repr

def Role.name : Role → String
  | .initiator => "Initiator"
  | .responder => "Responder"

def Role.opposite : Role → Role
  | .initiator => .responder
  | .responder => .initiator

/-- An encrypted message: its salt, and the ciphertext with the tag. -/
structure SessionMessage where
  salt : Octets 16
  ciphertext : Bytes
deriving DecidableEq

namespace SessionMessage

/-- The salt followed by the ciphertext. -/
def encode (m : SessionMessage) : Bytes := m.salt.toBytes ++ m.ciphertext

def decode (data : Bytes) : Except Failure SessionMessage :=
  match Octets.ofBytes? 16 (data.take 16) with
  | some salt => .ok ⟨salt, data.drop 16⟩
  | none => .error (.invalidFormat .messageTooShort)

end SessionMessage

/-- The initiator sends with the first key and the responder with the second. -/
structure Session where
  initiatorKey : Octets 64
  responderKey : Octets 64
  additionalData : Octets 32
  sessionId : Octets 32
  role : Role
deriving DecidableEq

namespace Session

/-- The label in additional data and identifiers. -/
def label : Bytes := "sealframe-pfs".toUTF8.toList

/-- The additional data of a session whose parties agreed on `callerData`. -/
def bindData (callerData : Bytes) : Octets 32 := Sha256.digest (callerData ++ label)

/-- What is fed into the derivation: the agreed secrets and the additional data. -/
def keyInput (secrets : Bytes) (additionalData : Octets 32) : Bytes :=
  secrets ++ additionalData.toBytes

/-- Derives a session from the concatenated secrets of the handshake. -/
def establish (secrets callerData : Bytes) (role : Role) : Session :=
  let additionalData := bindData callerData
  let material := Kdf2.output .sha512 (keyInput secrets additionalData) 128
  { initiatorKey := .ofPadded 64 (material.take 64)
    responderKey := .ofPadded 64 (material.drop 64)
    additionalData
    sessionId := Sha256.digest (material ++ additionalData.toBytes ++ label)
    role }

/-- Overrides the role, for restoring state by hand: the other role swaps the keys of the two
directions. -/
def setRole (s : Session) (role : Role) : Session := { s with role }

def sendKey (s : Session) : Octets 64 :=
  match s.role with
  | .initiator => s.initiatorKey
  | .responder => s.responderKey

def receiveKey (s : Session) : Octets 64 :=
  match s.role with
  | .initiator => s.responderKey
  | .responder => s.initiatorKey

/-- The key and nonce of the message with a given salt, in the direction of a given key. -/
def messageSecret (s : Session) (direction : Octets 64) (salt : Octets 16) :
    Octets 32 × Octets 24 :=
  let input := direction.toBytes ++ salt.toBytes ++ s.additionalData.toBytes
  let material := Kdf2.output .sha256 input 56
  (.ofPadded 32 (material.take 32), .ofPadded 24 (material.drop 32))

/-- The longest text of a message that the block counter of the cipher covers. -/
def maxMessageLength : Nat := 64 * (UInt32.size - 1) - 1

/-- Encrypts a message under a given salt. -/
def encryptWith (s : Session) (salt : Octets 16) (text : Bytes) : Except Failure SessionMessage :=
  if text.length ≤ maxMessageLength then
    let (key, nonce) := s.messageSecret s.sendKey salt
    .ok ⟨salt, XChaCha20Poly1305.encrypt key nonce s.additionalData.toBytes text⟩
  else .error (.invalidParameter .messageTooLong)

/-- Encrypts a message under a fresh salt. -/
def encrypt (s : Session) (text : Bytes) : Random SessionMessage := do
  let salt ← Random.draw 16
  Random.lift (s.encryptWith salt text)

/-- Decrypts a message from the other side. -/
def decrypt (s : Session) (m : SessionMessage) : Except Failure Bytes :=
  let (key, nonce) := s.messageSecret s.receiveKey m.salt
  match XChaCha20Poly1305.decrypt key nonce s.additionalData.toBytes m.ciphertext with
  | some text =>
      if text.length ≤ maxMessageLength then .ok text
      else .error (.authenticationFailed .sessionDecrypt)
  | none => .error (.authenticationFailed .sessionDecrypt)

end Session

end SealedEnvelope
