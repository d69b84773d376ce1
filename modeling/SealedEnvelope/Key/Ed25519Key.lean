import SealedEnvelope.Failure
import SealedEnvelope.Entropy
import SealedEnvelope.Curve.Ed25519
import SealedEnvelope.Curve.X25519

/-!
Ed25519 keys: encoding, checks, and key agreement over the corresponding X25519
keys. The key of zeros is empty: it can be held, but no operation uses it.
-/

namespace SealedEnvelope

/-- A compressed point. -/
structure Ed25519PublicKey where
  bytes : Octets 32
deriving DecidableEq

/-- A seed. -/
structure Ed25519PrivateKey where
  seed : Octets 32
deriving DecidableEq

/-- A seed and its point. -/
structure Ed25519Keypair where
  privateKey : Ed25519PrivateKey
  publicKey : Ed25519PublicKey
deriving DecidableEq

/-- The first byte of an encoded key. -/
def ed25519Tag : UInt8 := 0x01

/-- The thirty-two bytes behind the tag of an encoded key. -/
def decodeTagged (operation : Operation) : Bytes → Except Failure (Octets 32)
  | [] => .error (.invalidKey operation .encodingEmpty)
  | tag :: body =>
      if tag ≠ ed25519Tag then .error (.unsupportedKeyType operation (.tag tag))
      else
        match Octets.ofBytes? 32 body with
        | some bytes => .ok bytes
        | none => .error (.invalidKey operation (.encodingLength body.length))

/-- X25519, refusing a shared secret of zeros. -/
def agreeX25519 (operation : Operation) (scalar point : Octets 32) : Except Failure (Octets 32) :=
  let shared := X25519.multiply scalar point
  if shared.isZero then .error (.invalidKey operation .zeroSecret) else .ok shared

namespace Ed25519PublicKey

def empty : Ed25519PublicKey := ⟨.zero 32⟩

def isEmpty (key : Ed25519PublicKey) : Bool := key.bytes.isZero

/-- The point of a usable key: not empty, on the curve, and not of small order. -/
def point (operation : Operation) (key : Ed25519PublicKey) : Except Failure EdwardsPoint :=
  if key.isEmpty then .error (.invalidKey operation .publicEmpty)
  else
    match EdwardsPoint.ofBytes? key.bytes with
    | none => .error (.invalidKey operation .notOnCurve)
    | some point =>
        if point.isSmallOrder then .error (.invalidKey operation .smallOrder) else .ok point

def ofBytes (bytes : Octets 32) : Except Failure Ed25519PublicKey :=
  (point .importPublicKey ⟨bytes⟩).map fun _ => ⟨bytes⟩

def encode (key : Ed25519PublicKey) : Bytes := ed25519Tag :: key.bytes.toBytes

def decode (data : Bytes) : Except Failure Ed25519PublicKey :=
  (decodeTagged .importPublicKey data).bind ofBytes

def identifier (algorithm : FingerprintAlgorithm) (key : Ed25519PublicKey) : KeyId :=
  ⟨algorithm.fingerprint key.encode⟩

/-- The X25519 key of the same point. -/
def toX25519 (operation : Operation) (key : Ed25519PublicKey) : Except Failure (Octets 32) :=
  (key.point operation).map EdwardsPoint.toMontgomery

end Ed25519PublicKey

namespace Ed25519PrivateKey

def empty : Ed25519PrivateKey := ⟨.zero 32⟩

def isEmpty (key : Ed25519PrivateKey) : Bool := key.seed.isZero

/-- The seed of a usable key. -/
def usableSeed (operation : Operation) (key : Ed25519PrivateKey) : Except Failure (Octets 32) :=
  if key.isEmpty then .error (.invalidKey operation .privateEmpty) else .ok key.seed

def generate : Random Ed25519PrivateKey := do
  let seed ← Random.draw 32
  return ⟨seed⟩

def publicKey (key : Ed25519PrivateKey) : Except Failure Ed25519PublicKey :=
  (key.usableSeed .extractPublicKey).map fun seed => ⟨Ed25519.publicPoint seed⟩

def encode (key : Ed25519PrivateKey) : Bytes := ed25519Tag :: key.seed.toBytes

def decode (data : Bytes) : Except Failure Ed25519PrivateKey := do
  let seed ← decodeTagged .importPrivateKey data
  let key : Ed25519PrivateKey := ⟨seed⟩
  if key.isEmpty then .error (.invalidKey .importPrivateKey .privateEmpty) else .ok key

/-- The X25519 scalar of a seed, before clamping: the first half of its hash. -/
def x25519Scalar (seed : Octets 32) : Octets 32 :=
  .ofPadded 32 ((Sha512.digest seed.toBytes).toBytes.take 32)

/-- Agreement with an X25519 key. -/
def agreeWithPoint (operation : Operation) (key : Ed25519PrivateKey) (point : Octets 32) :
    Except Failure (Octets 32) := do
  let seed ← key.usableSeed operation
  agreeX25519 operation (x25519Scalar seed) point

/-- Agreement with the owner of a public key, which is checked first. -/
def agree (operation : Operation) (key : Ed25519PrivateKey) (peer : Ed25519PublicKey) :
    Except Failure (Octets 32) := do
  let point ← peer.toX25519 operation
  key.agreeWithPoint operation point

end Ed25519PrivateKey

namespace Ed25519Keypair

def ofPrivate (key : Ed25519PrivateKey) : Except Failure Ed25519Keypair :=
  key.publicKey.map fun point => ⟨key, point⟩

def generate : Random Ed25519Keypair := do
  let key ← Ed25519PrivateKey.generate
  Random.lift (ofPrivate key)

end Ed25519Keypair

end SealedEnvelope
