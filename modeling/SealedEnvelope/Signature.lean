import SealedEnvelope.Key.Ed25519Key
import SealedEnvelope.Transfer.Source

/-!
Detached signatures over byte strings, and over the SHA-512 digest of everything
that a reader yields.
-/

namespace SealedEnvelope.Signature

def sign (data : Bytes) (key : Ed25519PrivateKey) : Except Failure (Octets 64) :=
  (key.usableSeed .sign).map fun seed => Ed25519.sign seed data

/-- A signature of any other length than 64 bytes is as bad as one that does not match. -/
def parse (operation : Operation) (signature : Bytes) : Except Failure (Octets 64) :=
  match Octets.ofBytes? 64 signature with
  | some signature => .ok signature
  | none => .error (.signatureVerificationFailed operation)

/-- Fails unless the signature over `data` is valid. -/
def check (operation : Operation) (key : Ed25519PublicKey) (point : EdwardsPoint) (data : Bytes)
    (signature : Octets 64) : Except Failure Unit :=
  if Ed25519.verify key.bytes point data signature then .ok ()
  else .error (.signatureVerificationFailed operation)

def verify (data signature : Bytes) (key : Ed25519PublicKey) : Except Failure Unit := do
  let point ← key.point .verify
  let signature ← parse .verify signature
  check .verify key point data signature

/-- The digest of everything that a reader yields. -/
def digestAll {ρ : Type} [ByteReader ρ] (operation : Operation) (r : ρ) : Except Failure Bytes :=
  match (ByteReader.readAll r).1 with
  | .ok bytes => .ok (Sha512.digest bytes).toBytes
  | .error fault => .error (.io operation fault)

def signStream {ρ : Type} [ByteReader ρ] (r : ρ) (key : Ed25519PrivateKey) :
    Except Failure (Octets 64) := do
  let seed ← key.usableSeed .signStream
  let digest ← digestAll .signStream r
  return Ed25519.sign seed digest

def verifyStream {ρ : Type} [ByteReader ρ] (r : ρ) (signature : Bytes) (key : Ed25519PublicKey) :
    Except Failure Unit := do
  let point ← key.point .verifyStream
  let signature ← parse .verifyStream signature
  let digest ← digestAll .verifyStream r
  check .verifyStream key point digest signature

end SealedEnvelope.Signature
