import SealedEnvelope.Failure

/-!
What stands in front of the body of an envelope: how the body is laid out, the
nonce, one entry per recipient, and the encrypted signature of a buffered body.
-/

namespace SealedEnvelope

/-- How the body is laid out. Streams have segments of the given size; a signed one ends with an
encrypted signature over the digest of the text. -/
inductive BodyLayout where
  | sealed
  | stream (bufferSize : UInt32)
  | signedStream (bufferSize : UInt32)
deriving DecidableEq

def BodyLayout.bufferSize? : BodyLayout → Option Nat
  | .sealed => none
  | .stream size | .signedStream size => some size.toNat

/-- One way to recover the content key. -/
inductive RecipientEntry where
  | key (keyId : KeyId) (ephemeralKey : Octets 32) (wrappedKey : Bytes)
  | password (salt : Octets 16) (costs : Argon2id.Costs) (wrappedKey : Bytes)
deriving DecidableEq

/-- Everything that a recipient needs before the body. -/
structure EnvelopeHeader where
  version : UInt8
  layout : BodyLayout
  nonce : Octets 12
  recipients : List RecipientEntry
  signature : Option Bytes
deriving DecidableEq

namespace EnvelopeHeader

/-- The version that is written and read. -/
def currentVersion : UInt8 := 1

/-- The first thing that is wrong with a header that was read. -/
def fault? (h : EnvelopeHeader) : Option FormatFault :=
  if h.version ≠ currentVersion then some (.headerVersion h.version.toNat)
  else
    match h.layout.bufferSize? with
    | none => none
    | some size =>
        if size = 0 ∨ maxStreamBufferSize < size then some (.streamBufferSize size)
        else if h.signature.isSome then some .streamSignature
        else none

end EnvelopeHeader

end SealedEnvelope
