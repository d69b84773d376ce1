import SealedEnvelope.Envelope.HeaderCodec
import SealedEnvelope.Envelope.Recipient
import SealedEnvelope.Segment.StreamCipher
import SealedEnvelope.Signature
import SealedEnvelope.Transfer.Withholding

/-!
Envelopes: a header that wraps one random content key for every recipient, and
a body encrypted once under that key. The body is bound to the encoded header by
its digest. A signature over the text is encrypted under the same key, in the
header of a buffered body and behind the last segment of a signed stream.
-/

namespace SealedEnvelope

/-- What shapes new envelopes. For opening one, only the fingerprint algorithm counts. -/
structure EnvelopeCipher where
  fingerprint : FingerprintAlgorithm
  passwordCosts : Argon2id.Costs
  stream : StreamCipher

namespace EnvelopeCipher

def bodyLabel : Bytes := "sealframe envelope body v1".toUTF8.toList

def signatureLabel : Bytes := "sealframe envelope signature v1".toUTF8.toList

def trailerLabel : Bytes := "sealframe envelope trailer v1".toUTF8.toList

/-- A label and the digest of the encoded header. -/
def boundTo (label encodedHeader : Bytes) : Bytes :=
  label ++ (Sha512.digest encodedHeader).toBytes

/-- A nonce with `mask` added into its first byte, which segments leave alone. -/
def aside (mask : UInt8) (nonce : Octets 12) : Octets 12 :=
  ⟨Bytes.xor nonce.toBytes (mask :: List.replicate 11 0), by simp⟩

def signatureNonce (nonce : Octets 12) : Octets 12 := aside 0x80 nonce

def trailerNonce (nonce : Octets 12) : Octets 12 := aside 0x40 nonce

/-- What encrypts the segments of a body. -/
def bodyKeys (contentKey : Octets 32) (nonce : Octets 12) (encodedHeader : Bytes) : SegmentKeys :=
  ⟨contentKey, nonce, boundTo bodyLabel encodedHeader⟩

/-- The segment size for the header of a stream. -/
def headerBufferSize (c : EnvelopeCipher) : Except Failure UInt32 :=
  let size := c.stream.bufferSize.val
  if size ≤ maxStreamBufferSize then .ok (UInt32.ofNat size)
  else .error (.invalidParameter (.streamBufferTooLarge size))

/-- A header with a fresh content key and nonce, wrapped for the recipients in order, and that key.
A signature is encrypted into it. -/
def buildHeader (c : EnvelopeCipher) (layout : BodyLayout) (signature : Option (Octets 64))
    (recipients : List Recipient) : Random (EnvelopeHeader × Octets 32) := do
  if recipients.isEmpty then Random.lift (.error (.invalidParameter .noRecipients))
  let contentKey ← Random.draw 32
  let nonce ← Random.draw 12
  let entries ← recipients.mapM (RecipientEntry.wrapFor c.fingerprint c.passwordCosts contentKey)
  let encrypted := signature.map fun s =>
    Gcm.encrypt contentKey (signatureNonce nonce) signatureLabel s.toBytes
  return (⟨EnvelopeHeader.currentVersion, layout, nonce, entries, encrypted⟩, contentKey)

/-- A buffered envelope. -/
def pack (c : EnvelopeCipher) (data : Bytes) (signature : Option (Octets 64))
    (recipients : List Recipient) : Random Bytes := do
  let (header, contentKey) ← c.buildHeader .sealed signature recipients
  let encoded ← Random.lift header.encode
  let body ← Random.lift (sealText contentKey header.nonce (boundTo bodyLabel encoded) data)
  return encoded ++ body

def encrypt (c : EnvelopeCipher) (data : Bytes) (recipients : List Recipient) : Random Bytes :=
  c.pack data none recipients

/-- Signs the text first; the signature goes into the header. -/
def signThenEncrypt (c : EnvelopeCipher) (data : Bytes) (signer : Ed25519PrivateKey)
    (recipients : List Recipient) : Random Bytes := do
  let signature ← Random.lift (Signature.sign data signer)
  c.pack data (some signature) recipients

/-- Draws all randomness of a stream. What is left to do with the text of a reader, which has not
been touched, is the result: to write the header and the segments. -/
def encryptStream (c : EnvelopeCipher) (recipients : List Recipient) :
    Random (Source → Emission Nat) := do
  let size ← Random.lift c.headerBufferSize
  let (header, contentKey) ← c.buildHeader (.stream size) none recipients
  return fun source => do
    let encoded ← header.write
    c.stream.encrypt (bodyKeys contentKey header.nonce encoded) source

/-- The same with a signature over the digest of the text behind the last segment. The signer is
checked before anything else. -/
def signThenEncryptStream (c : EnvelopeCipher) (signer : Ed25519PrivateKey)
    (recipients : List Recipient) : Random (Source → Emission Nat) := do
  let operation := Operation.signThenEncryptStream
  let _ ← Random.lift (signer.usableSeed operation)
  let size ← Random.lift c.headerBufferSize
  let (header, contentKey) ← c.buildHeader (.signedStream size) none recipients
  return fun source => do
    let encoded ← header.write
    let run := c.stream.plainRun source
    let consumed ← StreamCipher.encryptRun (bodyKeys contentKey header.nonce encoded) run
    let signature ← .ofExcept (Signature.sign (Sha512.digest run.text).toBytes signer)
    .write operation (Gcm.encrypt contentKey (trailerNonce header.nonce)
      (boundTo trailerLabel encoded) signature.toBytes)
    .flush operation
    pure consumed

/-- The segment cipher that a header asks for. -/
def segmentCipher (size : UInt32) : Except Failure StreamCipher :=
  (StreamCipher.ofSize size.toNat).mapError fun _ => .invalidFormat (.streamBufferSize size.toNat)

/-- Decrypts the body that a reader holds. The result is the length of the text and the decrypted
signature, if the envelope carries one. -/
def openBody (operation : Operation) (header : EnvelopeHeader) (encodedHeader : Bytes)
    (contentKey : Octets 32) (body : Source) : Emission (Nat × Option Bytes) :=
  let keys := bodyKeys contentKey header.nonce encodedHeader
  match header.layout with
  | .sealed => do
      let sealedText ← .ofExcept ((ByteReader.readAll body).1.mapError (.io operation))
      let text ← .ofExcept (openText operation contentKey header.nonce keys.ad sealedText)
      let signature ← .ofExcept (header.signature.mapM
        (openText operation contentKey (signatureNonce header.nonce) signatureLabel))
      .write operation text
      .flush operation
      pure (text.length, signature)
  | .stream size => do
      let cipher ← .ofExcept (segmentCipher size)
      let written ← (cipher.decrypt keys body).1
      pure (written, none)
  | .signedStream size => do
      let cipher ← .ofExcept (segmentCipher size)
      let (emission, rest) := cipher.decrypt keys (Withholding.ofSource body)
      let written ← emission
      match rest.trailer? with
      | none => .fail (.authenticationFailed operation)
      | some trailer =>
          let signature ← .ofExcept (openText operation contentKey (trailerNonce header.nonce)
            (boundTo trailerLabel encodedHeader) trailer)
          pure (written, some signature)

/-- Decrypts a buffered body: the text and the signature, if there is one. -/
def openBuffered (operation : Operation) (header : EnvelopeHeader) (encodedHeader : Bytes)
    (contentKey : Octets 32) (body : Bytes) : Except Failure (Bytes × Option Bytes) :=
  (openBody operation header encodedHeader contentKey (.ofBytes body)).collect.map
    fun (text, _, signature) => (text, signature)

/-- Decrypts an envelope whose content key `unwrap` finds in the header. -/
def decryptWith (operation : Operation) (unwrap : EnvelopeHeader → Except Failure (Octets 32))
    (data : Bytes) : Except Failure (EnvelopeHeader × Bytes × Option Bytes) := do
  let (header, offset) ← EnvelopeHeader.decode data
  let contentKey ← unwrap header
  let opened ← openBuffered operation header (data.take offset) contentKey (data.drop offset)
  return (header, opened)

def unwrapForKey (c : EnvelopeCipher) (operation : Operation) (key : Ed25519PrivateKey)
    (header : EnvelopeHeader) : Except Failure (Octets 32) :=
  RecipientEntry.unwrapForKey operation c.fingerprint header.recipients key

def unwrapForPassword (operation : Operation) (phrase : Bytes) (header : EnvelopeHeader) :
    Except Failure (Octets 32) :=
  RecipientEntry.unwrapForPassword operation header.recipients phrase

/-- The text of an envelope of any layout, for the holder of a key. -/
def decrypt (c : EnvelopeCipher) (data : Bytes) (key : Ed25519PrivateKey) : Except Failure Bytes :=
  (decryptWith .decrypt (c.unwrapForKey .decrypt key) data).map fun (_, text, _) => text

/-- The text of an envelope of any layout, for whoever knows a password. -/
def decryptWithPassword (data phrase : Bytes) : Except Failure Bytes :=
  (decryptWith .decrypt (unwrapForPassword .decrypt phrase) data).map fun (_, text, _) => text

/-- Fails unless the signature is valid for one of the verifiers. -/
def verifyAny (operation : Operation) (message signature : Bytes)
    (verifiers : List Ed25519PublicKey) : Except Failure Unit :=
  if verifiers.any fun v => (Signature.verify message signature v).isOk then .ok ()
  else .error (.signatureVerificationFailed operation)

/-- What the signature of an envelope with this layout is over. -/
def signedMessage (layout : BodyLayout) (text : Bytes) : Bytes :=
  match layout with
  | .signedStream _ => (Sha512.digest text).toBytes
  | .sealed | .stream _ => text

/-- The text of an envelope with a signature that is valid for one of the verifiers. -/
def decryptThenVerify (c : EnvelopeCipher) (data : Bytes) (key : Ed25519PrivateKey)
    (verifiers : List Ed25519PublicKey) : Except Failure Bytes := do
  let operation := Operation.decryptThenVerify
  if verifiers.isEmpty then .error (.signatureVerificationFailed operation)
  let (header, text, signature) ← decryptWith operation (c.unwrapForKey operation key) data
  match signature with
  | none => .error (.signatureVerificationFailed operation)
  | some signature =>
      verifyAny operation (signedMessage header.layout text) signature verifiers
      return text

/-- Decrypts the envelope that a source holds, whose content key `unwrap` finds in the header. -/
def decryptStreamWith (operation : Operation)
    (unwrap : EnvelopeHeader → Except Failure (Octets 32)) (source : Source) :
    Emission (Nat × Option Bytes) :=
  match EnvelopeHeader.readFrom source with
  | (.error failure, _) => .fail failure
  | (.ok (header, encoded), body) => do
      let contentKey ← .ofExcept (unwrap header)
      openBody operation header encoded contentKey body

/-- Segments are written as they authenticate, so on a failure the output is to be discarded. -/
def decryptStream (c : EnvelopeCipher) (key : Ed25519PrivateKey) (source : Source) :
    Emission Nat :=
  Prod.fst <$> decryptStreamWith .decryptStream (c.unwrapForKey .decryptStream key) source

def decryptStreamWithPassword (phrase : Bytes) (source : Source) : Emission Nat :=
  Prod.fst <$> decryptStreamWith .decryptStream (unwrapForPassword .decryptStream phrase) source

/-- Only signed streams can be verified; that is settled before a key is tried. -/
def unwrapSigned (operation : Operation) (unwrap : EnvelopeHeader → Except Failure (Octets 32))
    (header : EnvelopeHeader) : Except Failure (Octets 32) :=
  match header.layout with
  | .signedStream _ => unwrap header
  | .sealed | .stream _ => .error (.signatureVerificationFailed operation)

/-- Decrypts a signed stream. The signature is checked last, over the digest of all that has been
written. -/
def decryptThenVerifyStream (c : EnvelopeCipher) (key : Ed25519PrivateKey)
    (verifiers : List Ed25519PublicKey) (source : Source) : Emission Nat :=
  let operation := Operation.decryptThenVerifyStream
  if verifiers.isEmpty then .fail (.signatureVerificationFailed operation)
  else
    let opened := decryptStreamWith operation
      (unwrapSigned operation (c.unwrapForKey operation key)) source
    opened.andThen fun (written, signature) =>
      match signature with
      | none => .fail (.signatureVerificationFailed operation)
      | some signature => do
          .ofExcept (verifyAny operation (Sha512.digest opened.bytes).toBytes signature verifiers)
          pure written

end EnvelopeCipher

end SealedEnvelope
