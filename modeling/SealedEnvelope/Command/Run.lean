import SealedEnvelope.Command.Basic
import SealedEnvelope.Command.Task
import SealedEnvelope.Toolkit.Envelopes
import SealedEnvelope.Toolkit.Payloads
import SealedEnvelope.Transfer.Loopback

/-!
Carrying out commands on files. Every command gathers its inputs, does one
operation of the toolkit and writes the result; what it did to the files before a
failure stays done.
-/

namespace SealedEnvelope

namespace Task

/-- The rounds after which work on its own output is given up. -/
def loopbackRounds : Nat := 64

/-- The text to encrypt. Where the output goes to the same file, that is already empty, and what is
read is the output itself as far as it has been written by then. -/
def plaintext (opened : Place) (output : String) (work : Random (Source → Emission Nat)) :
    Task Source := fun w =>
  match opened, w.files.target output with
  | .file input, .ok (.file location) =>
      if input = location then
        match (work w.surroundings.entropy).1 with
        | .ok work => (.ok (Emission.loopback work [] loopbackRounds), w)
        | .error _ => (.ok (.ofBytes []), w)
      else sourceOf opened w
  | _, _ => sourceOf opened w

def keygen (t : Toolkit) (out passwordFile : String) : Task String := do
  let password ← readPassword passwordFile
  let pair ← ofAction t.generateKeypair
  let privateKey ← ofAction (t.exportPrivateKey pair.privateKey password)
  writeFile (privateKeyPath out) privateKey
  let publicKey ← ofAction (t.exportPublicKey pair.publicKey)
  writeFile (publicKeyPath out) publicKey
  let id ← ofAction (t.keyIdentifier pair.publicKey)
  return id.text ++ "\n"

/-- A failure after the output has been made leaves there what was written. -/
def encrypt (t : Toolkit) (input output : String) (recipients : List String)
    (passwordFile : Option String) (signer : Option (String × String)) : Task String := do
  let keys ← recipients.mapM (loadPublic t)
  let password ← passwordFile.mapM readPassword
  let signer ← signer.mapM fun (key, keyPassword) => loadPrivate t key keyPassword
  let targets := keys.map EnvelopeRecipient.key ++ password.toList.map .password
  if targets.isEmpty then throw (.usage .noTarget)
  let opened ← openFile input
  createFile output
  let work := match signer with
    | some signer => t.signedEncryption signer targets
    | none => t.encryption targets
  let source ← plaintext opened output work
  let (result, bytes) ← collect (match signer with
    | some signer => t.signThenEncryptStream signer targets source
    | none => t.encryptStream targets source)
  writeFile output bytes
  match result with
  | .ok _ => return ""
  | .error failure => throw (.crypto failure)

/-- Decrypts what has been opened with the key or the password that is given. -/
def access (t : Toolkit) (key keyPasswordFile passwordFile : Option String)
    (verifiers : List PublicKey) (opened : Place) : Task StreamAction := do
  match key, keyPasswordFile, passwordFile with
  | some key, some keyPassword, none =>
      let key ← loadPrivate t key keyPassword
      let source ← sourceOf opened
      return if verifiers.isEmpty then t.decryptStream key source
        else t.decryptThenVerifyStream key verifiers source
  | none, none, some passwordFile =>
      let password ← readPassword passwordFile
      let source ← sourceOf opened
      return t.decryptStreamWithPassword password source
  | _, _, _ => throw (.usage .noAccess)

/-- The output is made before the key or password is read, and removed after any failure. -/
def decrypt (t : Toolkit) (input output : String)
    (key keyPasswordFile passwordFile : Option String) (verifiers : List String) :
    Task String := do
  let verifiers ← verifiers.mapM (loadPublic t)
  let opened ← openFile input
  createFile output
  try
    let action ← access t key keyPasswordFile passwordFile verifiers opened
    let (result, bytes) ← collect action
    match result with
    | .ok _ => writeFile output bytes
    | .error failure => throw (.crypto failure)
  catch failure =>
    removeFile output
    throw failure
  return ""

def sign (t : Toolkit) (input output key keyPasswordFile : String) : Task String := do
  let key ← loadPrivate t key keyPasswordFile
  let opened ← openFile input
  let source ← sourceOf opened
  let signature ← ofAction (t.signStream source key)
  writeFile output signature
  return ""

def verify (t : Toolkit) (input signature publicKey : String) : Task String := do
  let key ← loadPublic t publicKey
  let signature ← readFile signature
  let opened ← openFile input
  let source ← sourceOf opened
  ofAction (t.verifyStream source signature key)
  return "signature ok\n"

def fingerprint (t : Toolkit) (publicKey : String) : Task String := do
  let key ← loadPublic t publicKey
  let id ← ofAction (t.keyIdentifier key)
  return id.text ++ "\n"

end Task

/-- Carries out a command. The result is what it prints. -/
def Command.run (t : Toolkit) : Command → Task String
  | .keygen out passwordFile => Task.keygen t out passwordFile
  | .encrypt input output recipients passwordFile signer =>
      Task.encrypt t input output recipients passwordFile signer
  | .decrypt input output key keyPasswordFile passwordFile verifiers =>
      Task.decrypt t input output key keyPasswordFile passwordFile verifiers
  | .sign input output key keyPasswordFile => Task.sign t input output key keyPasswordFile
  | .verify input signature publicKey => Task.verify t input signature publicKey
  | .fingerprint publicKey => Task.fingerprint t publicKey

/-- The settings that an invocation asks for. Its events go to the log. -/
def Invocation.settings (i : Invocation) : Settings :=
  { Settings.standard with
    fingerprint := i.fingerprint
    streamBufferSize := i.bufferSize
    diagnostics := true }

/-- Carries out a command under settings, which are checked first. -/
def Command.runWith (settings : Settings) (command : Command) : Task String := do
  match Toolkit.ofSettings settings with
  | .error failure => throw (.crypto failure)
  | .ok toolkit => command.run toolkit

end SealedEnvelope
