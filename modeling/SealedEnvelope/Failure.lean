import SealedEnvelope.Key.Fingerprint
import SealedEnvelope.Kdf.Argon2id
import SealedEnvelope.Text.Record

/-!
Why operations fail: one cause per kind of fault, and the wording of each in
`message`. Failures name the operation where it matters and never carry key
material or plaintext.
-/

namespace SealedEnvelope

/-- The operations that failures and diagnostic events name. -/
inductive Operation where
  | generateKeypair
  | importPrivateKey
  | exportPrivateKey
  | importPublicKey
  | exportPublicKey
  | extractPublicKey
  | keyIdentifier
  | encrypt
  | decrypt
  | decryptWithPassword
  | signThenEncrypt
  | decryptThenVerify
  | encryptStream
  | decryptStream
  | decryptStreamWithPassword
  | signThenEncryptStream
  | decryptThenVerifyStream
  | sign
  | verify
  | signStream
  | verifyStream
  | streamEncrypt
  | streamDecrypt
  | chunkEncrypt
  | chunkDecrypt
  | readHeader
  | writeHeader
  | agreeKeys
  | startSession
  | receiveSession
  | startPfsSession
  | receivePfsSession
  | sessionEncrypt
  | sessionDecrypt
deriving DecidableEq, Repr

def Operation.name : Operation → String
  | .generateKeypair => "generate keypair"
  | .importPrivateKey => "import private key"
  | .exportPrivateKey => "export private key"
  | .importPublicKey => "import public key"
  | .exportPublicKey => "export public key"
  | .extractPublicKey => "extract public key"
  | .keyIdentifier => "key identifier"
  | .encrypt => "encrypt"
  | .decrypt => "decrypt"
  | .decryptWithPassword => "decrypt with password"
  | .signThenEncrypt => "sign then encrypt"
  | .decryptThenVerify => "decrypt then verify"
  | .encryptStream => "encrypt stream"
  | .decryptStream => "decrypt stream"
  | .decryptStreamWithPassword => "decrypt stream with password"
  | .signThenEncryptStream => "sign then encrypt stream"
  | .decryptThenVerifyStream => "decrypt then verify stream"
  | .sign => "sign"
  | .verify => "verify"
  | .signStream => "sign stream"
  | .verifyStream => "verify stream"
  | .streamEncrypt => "stream encrypt"
  | .streamDecrypt => "stream decrypt"
  | .chunkEncrypt => "chunk encrypt"
  | .chunkDecrypt => "chunk decrypt"
  | .readHeader => "read envelope header"
  | .writeHeader => "write envelope header"
  | .agreeKeys => "dh"
  | .startSession => "start session"
  | .receiveSession => "receive session"
  | .startPfsSession => "start pfs session"
  | .receivePfsSession => "receive pfs session"
  | .sessionEncrypt => "session encrypt"
  | .sessionDecrypt => "session decrypt"

/-- The algorithm of a key that no operation implements. -/
inductive KeyAlgorithm where
  | named (name : String)
  | tag (byte : UInt8)
deriving DecidableEq, Repr

def KeyAlgorithm.text : KeyAlgorithm → String
  | .named name => name
  | .tag byte => "tag " ++ Hex.marked byte

/-- What makes a key unusable. -/
inductive KeyFault where
  | encodingEmpty
  | encodingLength (got : Nat)
  | publicEmpty
  | privateEmpty
  | notOnCurve
  | smallOrder
  | zeroSecret
  | contentKeyLength
  | exportTruncated
deriving DecidableEq, Repr

def KeyFault.message : KeyFault → String
  | .encodingEmpty => "encoded key is empty"
  | .encodingLength got => s!"expected 32 key bytes, got {got}"
  | .publicEmpty => "public key is empty"
  | .privateEmpty => "private key is empty"
  | .notOnCurve => "not a valid Ed25519 point"
  | .smallOrder => "small-order Ed25519 point"
  | .zeroSecret => "key agreement produced a zero secret"
  | .contentKeyLength => "wrapped content key has wrong length"
  | .exportTruncated => "exported key is truncated"

/-- What makes a reader or a writer fail. -/
inductive IoFault where
  | device (reason : String)
  | wroteNothing
deriving DecidableEq, Repr

def IoFault.message : IoFault → String
  | .device reason => reason
  | .wroteNothing => "failed to write whole buffer"

/-- The two sizes that cut a text into pieces. -/
inductive SizeName where
  | streamBuffer
  | chunk
deriving DecidableEq, Repr

def SizeName.text : SizeName → String
  | .streamBuffer => "stream buffer size"
  | .chunk => "chunk size"

/-- The longest encoded header, length field apart. -/
def maxHeaderLength : Nat := 1048576

/-- The largest segment size of a streaming envelope. -/
def maxStreamBufferSize : Nat := 16777216

/-- What makes a parameter unusable. -/
inductive ParameterFault where
  | derivedLength (length : Nat)
  | passwordHash (fault : Argon2id.Fault)
  | sizeZero (name : SizeName)
  | sizeTooLarge (name : SizeName) (size : Nat)
  | streamBufferTooLarge (size : Nat)
  | countersExhausted
  | textTooLong (length : Nat)
  | messageTooLong
  | noRecipients
  | headerTooLong (length : Nat)
deriving DecidableEq, Repr

def ParameterFault.message : ParameterFault → String
  | .derivedLength length => s!"kdf2 output of {length} bytes exceeds counter range"
  | .passwordHash .saltTooShort => "argon2: " ++ Argon2id.Fault.saltTooShort.message
  | .passwordHash fault => "argon2 parameters: " ++ fault.message
  | .sizeZero name => name.text ++ " must be non-zero"
  | .sizeTooLarge name size => name.text ++ s!" {size} is too large"
  | .streamBufferTooLarge size => s!"stream buffer size {size} exceeds {maxStreamBufferSize}"
  | .countersExhausted => "segment counter exhausted"
  | .textTooLong length => s!"plaintext of {length} bytes exceeds AES-GCM limit"
  | .messageTooLong => "session message too large"
  | .noRecipients => "no recipients"
  | .headerTooLong length => s!"envelope header of {length} bytes exceeds {maxHeaderLength}"

/-- The text of password costs. -/
def Argon2id.Costs.describe (c : Argon2id.Costs) : String :=
  Text.record "PasswordKdf"
    [("memory_kib", toString c.memoryKib.toNat), ("iterations", toString c.iterations.toNat),
     ("parallelism", toString c.parallelism.toNat)] false

/-- The fields of a session snapshot that hold a fixed number of bytes. -/
inductive SnapshotField where
  | initiatorKey
  | responderKey
  | additionalData
  | sessionId
deriving DecidableEq, Repr

def SnapshotField.text : SnapshotField → String
  | .initiatorKey => "initiator key"
  | .responderKey => "responder key"
  | .additionalData => "additional data"
  | .sessionId => "session id"

/-- What makes encoded data unreadable. -/
inductive FormatFault where
  | envelopeTooShort
  | headerLength (length : Nat)
  | headerTruncated
  | headerSyntax
  | headerVersion (version : Nat)
  | streamBufferSize (size : Nat)
  | streamSignature
  | passwordCostsTooHigh (costs : Argon2id.Costs)
  | passwordCostsInvalid (fault : ParameterFault)
  | chunkLength (index length limit : Nat)
  | chunkLengthTruncated (got : Nat)
  | messageTooShort
  | snapshotSyntax
  | snapshotVersion (version : Nat)
  | snapshotLength (field : SnapshotField) (expected got : Nat)
deriving DecidableEq, Repr

def FormatFault.message : FormatFault → String
  | .envelopeTooShort => "envelope shorter than header length"
  | .headerLength length => s!"envelope header length {length} exceeds {maxHeaderLength}"
  | .headerTruncated => "envelope header truncated"
  | .headerSyntax => "envelope header: cbor"
  | .headerVersion version => s!"unsupported envelope version {version}"
  | .streamBufferSize size => s!"stream buffer size {size} outside 1..={maxStreamBufferSize}"
  | .streamSignature => "streaming envelope carries a header signature"
  | .passwordCostsTooHigh costs => "password entry costs too high: " ++ costs.describe
  | .passwordCostsInvalid fault =>
      "password entry costs invalid: invalid parameter: " ++ fault.message
  | .chunkLength index length limit => s!"chunk {index} length {length} outside 16..={limit}"
  | .chunkLengthTruncated got => s!"truncated chunk length prefix ({got} bytes)"
  | .messageTooShort => "session message shorter than salt"
  | .snapshotSyntax => "session snapshot: cbor"
  | .snapshotVersion version => s!"unsupported session snapshot version {version}"
  | .snapshotLength field expected got =>
      "session snapshot " ++ field.text ++ s!": expected {expected} bytes, got {got}"

/-- Whom an envelope was searched for. -/
inductive Addressee where
  | key (id : KeyId)
  | password
deriving DecidableEq, Repr

def Addressee.text : Addressee → String
  | .key id => id.text
  | .password => "password"

/-- Why an operation failed. -/
inductive Failure where
  | unsupportedKeyType (operation : Operation) (algorithm : KeyAlgorithm)
  | invalidKey (operation : Operation) (fault : KeyFault)
  | authenticationFailed (operation : Operation)
  | recipientNotFound (addressee : Addressee)
  | signatureVerificationFailed (operation : Operation)
  | randomSource
  | invalidFormat (fault : FormatFault)
  | invalidParameter (fault : ParameterFault)
  | io (operation : Operation) (fault : IoFault)
deriving DecidableEq, Repr

def Failure.message : Failure → String
  | .unsupportedKeyType operation algorithm =>
      operation.name ++ ": unsupported key type " ++ algorithm.text
  | .invalidKey operation fault => operation.name ++ ": invalid key: " ++ fault.message
  | .authenticationFailed operation => operation.name ++ ": authentication failed"
  | .recipientNotFound addressee => "recipient not found: " ++ addressee.text
  | .signatureVerificationFailed operation => operation.name ++ ": signature verification failed"
  | .randomSource => "random source failure: entropy exhausted"
  | .invalidFormat fault => "invalid format: " ++ fault.message
  | .invalidParameter fault => "invalid parameter: " ++ fault.message
  | .io operation fault => operation.name ++ ": i/o error: " ++ fault.message

/-- True of the failures that mean tampering, a wrong key or a wrong signature. -/
def Failure.isAuthentication : Failure → Bool
  | .authenticationFailed _ | .signatureVerificationFailed _ => true
  | _ => false

end SealedEnvelope
