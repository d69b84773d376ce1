import SealedEnvelope.Key.Ed25519Key

/-!
Keys as they are handed in: of any algorithm. Only Ed25519 keys can be used, and
every operation resolves all its keys before it does any work.
-/

namespace SealedEnvelope

/-- Key material of an algorithm that no operation implements. -/
structure ForeignKey where
  algorithm : String
  material : Bytes
deriving DecidableEq

/-- A public key of any algorithm. -/
inductive PublicKey where
  | ed25519 (key : Ed25519PublicKey)
  | foreign (key : ForeignKey)
deriving DecidableEq

/-- A private key of any algorithm. -/
inductive PrivateKey where
  | ed25519 (key : Ed25519PrivateKey)
  | foreign (key : ForeignKey)
deriving DecidableEq

/-- A private key and its public key, made together. -/
structure Keypair where
  privateKey : PrivateKey
  publicKey : PublicKey
deriving DecidableEq

def ed25519Name : String := "ed25519"

namespace PublicKey

def algorithm : PublicKey → String
  | .ed25519 _ => ed25519Name
  | .foreign key => key.algorithm

def isEmpty : PublicKey → Bool
  | .ed25519 key => key.isEmpty
  | .foreign key => key.material.isEmpty

/-- The key that an operation can use. -/
def resolve (operation : Operation) : PublicKey → Except Failure Ed25519PublicKey
  | .ed25519 key => if key.isEmpty then .error (.invalidKey operation .publicEmpty) else .ok key
  | .foreign key => .error (.unsupportedKeyType operation (.named key.algorithm))

end PublicKey

namespace PrivateKey

def algorithm : PrivateKey → String
  | .ed25519 _ => ed25519Name
  | .foreign key => key.algorithm

def isEmpty : PrivateKey → Bool
  | .ed25519 key => key.isEmpty
  | .foreign key => key.material.isEmpty

/-- The key that an operation can use. -/
def resolve (operation : Operation) : PrivateKey → Except Failure Ed25519PrivateKey
  | .ed25519 key => if key.isEmpty then .error (.invalidKey operation .privateEmpty) else .ok key
  | .foreign key => .error (.unsupportedKeyType operation (.named key.algorithm))

end PrivateKey

end SealedEnvelope
