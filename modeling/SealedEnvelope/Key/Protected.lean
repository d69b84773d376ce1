import SealedEnvelope.Key.Ed25519Key
import SealedEnvelope.Kdf.Hkdf
import SealedEnvelope.Segment.Basic

/-!
Private keys at rest: a random salt and the encoded key, encrypted under a key
and nonce that HKDF derives from a password. An empty password wraps as well.
-/

namespace SealedEnvelope.ProtectedKey

def saltLength : Nat := 32

/-- What the derivation is for. -/
def purpose : Bytes := "sealframe key export v1".toUTF8.toList

/-- The wrapping key and nonce of a password and a salt. -/
def wrapping (password salt : Bytes) : Octets 32 × Octets 12 :=
  let material := Hkdf.expand (Hkdf.extract salt password).toBytes purpose 44
  (.ofPadded 32 (material.take 32), .ofPadded 12 (material.drop 32))

/-- The stored form of a key under a given salt. -/
def wrap (salt : Octets 32) (key : Ed25519PrivateKey) (password : Bytes) : Bytes :=
  let (wrapKey, nonce) := wrapping password salt.toBytes
  salt.toBytes ++ Gcm.encrypt wrapKey nonce [] key.encode

/-- The stored form of a key under a fresh salt. -/
def protect (key : Ed25519PrivateKey) (password : Bytes) : Random Bytes := do
  let _ ← Random.lift (key.usableSeed .exportPrivateKey)
  let salt ← Random.draw saltLength
  return wrap salt key password

/-- The key of a stored form. -/
def recover (data password : Bytes) : Except Failure Ed25519PrivateKey :=
  if data.length < saltLength + 16 then .error (.invalidKey .importPrivateKey .exportTruncated)
  else
    let (wrapKey, nonce) := wrapping password (data.take saltLength)
    (openText .importPrivateKey wrapKey nonce [] (data.drop saltLength)).bind
      Ed25519PrivateKey.decode

end SealedEnvelope.ProtectedKey
