import SealedEnvelope.Key.Fingerprint

/-!
What the command line can ask for.
-/

namespace SealedEnvelope

/-- A command. Files are given by their paths, and a private key by its file and the file with the
password that protects it. -/
inductive Command where
  /-- Makes a key pair in `out.key` and `out.pub`. -/
  | keygen (out passwordFile : String)
  | encrypt (input output : String) (recipients : List String) (passwordFile : Option String)
      (signer : Option (String × String))
  | decrypt (input output : String) (key keyPasswordFile passwordFile : Option String)
      (verifiers : List String)
  | sign (input output key keyPasswordFile : String)
  | verify (input signature publicKey : String)
  | fingerprint (publicKey : String)
deriving DecidableEq, Repr

/-- The file of the private key that `keygen` makes. -/
def privateKeyPath (out : String) : String := out ++ ".key"

/-- The file of the public key that `keygen` makes. -/
def publicKeyPath (out : String) : String := out ++ ".pub"

/-- All paths that a command may read or write. -/
def Command.paths : Command → List String
  | .keygen out passwordFile => [privateKeyPath out, publicKeyPath out, passwordFile]
  | .encrypt input output recipients passwordFile signer =>
      [input, output] ++ recipients ++ passwordFile.toList ++
        signer.toList.flatMap fun (key, password) => [key, password]
  | .decrypt input output key keyPasswordFile passwordFile verifiers =>
      [input, output] ++ key.toList ++ keyPasswordFile.toList ++ passwordFile.toList ++ verifiers
  | .sign input output key keyPasswordFile => [input, output, key, keyPasswordFile]
  | .verify input signature publicKey => [input, signature, publicKey]
  | .fingerprint publicKey => [publicKey]

/-- A command with the settings that go for any. -/
structure Invocation where
  logLevel : String
  fingerprint : FingerprintAlgorithm
  bufferSize : Nat
  command : Command
deriving DecidableEq, Repr

end SealedEnvelope
