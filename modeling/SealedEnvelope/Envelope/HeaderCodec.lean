import SealedEnvelope.Envelope.Header
import SealedEnvelope.Cbor.Decoder
import SealedEnvelope.Cbor.Encoder
import SealedEnvelope.Transfer.Source
import SealedEnvelope.Transfer.Emission

/-!
The encoded form of a header: its length as four bytes, then a CBOR map. It is
read from the front of a byte string, or of a reader without taking a byte more.
-/

namespace SealedEnvelope

open Cbor

def BodyLayout.encode : BodyLayout → Bytes
  | .sealed => encodeText (nameBytes "Sealed")
  | .stream size => encodeVariant "Stream" size
  | .signedStream size => encodeVariant "SignedStream" size
where
  encodeVariant (name : String) (size : UInt32) : Bytes :=
    encodeMap [(nameBytes name, encodeMap [(nameBytes "buffer_size", encodeUnsigned size.toNat)])]

def RecipientEntry.encode : RecipientEntry → Bytes
  | .key keyId ephemeralKey wrappedKey =>
      encodeMap [(nameBytes "Key", encodeMap
        [(nameBytes "key_id", encodeByteList keyId.bytes),
         (nameBytes "ephemeral_public", encodeByteList ephemeralKey.toBytes),
         (nameBytes "wrapped_key", encodeByteList wrappedKey)])]
  | .password salt costs wrappedKey =>
      encodeMap [(nameBytes "Password", encodeMap
        [(nameBytes "salt", encodeByteList salt.toBytes),
         (nameBytes "memory_kib", encodeUnsigned costs.memoryKib.toNat),
         (nameBytes "iterations", encodeUnsigned costs.iterations.toNat),
         (nameBytes "parallelism", encodeUnsigned costs.parallelism.toNat),
         (nameBytes "wrapped_key", encodeByteList wrappedKey)])]

namespace EnvelopeHeader

/-- The CBOR form, without the length in front. -/
def encodeMap (h : EnvelopeHeader) : Bytes :=
  Cbor.encodeMap
    [(nameBytes "version", encodeUnsigned h.version.toNat),
     (nameBytes "layout", h.layout.encode),
     (nameBytes "nonce", encodeByteList h.nonce.toBytes),
     (nameBytes "recipients", encodeArray (h.recipients.map RecipientEntry.encode)),
     (nameBytes "signature", match h.signature with
       | some signature => encodeByteList signature
       | none => encodeNull)]

def encode (h : EnvelopeHeader) : Except Failure Bytes :=
  let encoded := h.encodeMap
  if encoded.length ≤ maxHeaderLength then .ok (Bytes.bigEndian 4 encoded.length ++ encoded)
  else .error (.invalidParameter (.headerTooLong encoded.length))

/-- Writes the encoded form, which is the result. -/
def write (h : EnvelopeHeader) : Emission Bytes := do
  let encoded ← .ofExcept h.encode
  .write .writeHeader encoded
  pure encoded

end EnvelopeHeader

namespace HeaderDecoder

open Decoder

/-- The only field of the content of a streaming layout. -/
def bufferSize : Decoder UInt32 := do
  let size ← match ← head with
    | .map length =>
        fields 3 (fun key old =>
          if key = nameBytes "buffer_size" then some (once old word some) else none) length none
    | .array length => if length = some 0 then failure else some <$> word
    | _ => failure
  match size with
  | some size => pure size
  | none => failure

def layout : Decoder BodyLayout := do
  let name ← variant
  if name = nameBytes "Sealed" then pure .sealed
  else if name = nameBytes "Stream" then .stream <$> bufferSize
  else if name = nameBytes "SignedStream" then .signedStream <$> bufferSize
  else failure

/-- The fields of a key entry that have been read. -/
structure KeyFields where
  keyId : Option Bytes
  ephemeralKey : Option (Octets 32)
  wrappedKey : Option Bytes

def KeyFields.read (key : Bytes) (f : KeyFields) : Option (Decoder KeyFields) :=
  if key = nameBytes "key_id" then
    some (once f.keyId byteList fun x => { f with keyId := some x })
  else if key = nameBytes "ephemeral_public" then
    some (once f.ephemeralKey (octets 32) fun x => { f with ephemeralKey := some x })
  else if key = nameBytes "wrapped_key" then
    some (once f.wrappedKey byteList fun x => { f with wrappedKey := some x })
  else none

def KeyFields.entry? (f : KeyFields) : Option RecipientEntry := do
  return .key ⟨← f.keyId⟩ (← f.ephemeralKey) (← f.wrappedKey)

/-- The fields of a password entry that have been read. -/
structure PasswordFields where
  salt : Option (Octets 16)
  memoryKib : Option UInt32
  iterations : Option UInt32
  parallelism : Option UInt32
  wrappedKey : Option Bytes

def PasswordFields.read (key : Bytes) (f : PasswordFields) : Option (Decoder PasswordFields) :=
  if key = nameBytes "salt" then
    some (once f.salt (octets 16) fun x => { f with salt := some x })
  else if key = nameBytes "memory_kib" then
    some (once f.memoryKib word fun x => { f with memoryKib := some x })
  else if key = nameBytes "iterations" then
    some (once f.iterations word fun x => { f with iterations := some x })
  else if key = nameBytes "parallelism" then
    some (once f.parallelism word fun x => { f with parallelism := some x })
  else if key = nameBytes "wrapped_key" then
    some (once f.wrappedKey byteList fun x => { f with wrappedKey := some x })
  else none

def PasswordFields.entry? (f : PasswordFields) : Option RecipientEntry := do
  return .password (← f.salt) ⟨← f.memoryKib, ← f.iterations, ← f.parallelism⟩ (← f.wrappedKey)

/-- A decoded value that must be there. -/
def present {α : Type} : Option α → Decoder α
  | some x => pure x
  | none => failure

/-- Whether an array with this length can hold `n` elements. -/
def holds (n : Nat) : Option Nat → Bool
  | some length => n ≤ length
  | none => true

/-- The content of a key entry: a map, or an array of its fields in order. -/
def keyEntry : Decoder RecipientEntry := do
  match ← head with
  | .map length =>
      let f ← fields 4 KeyFields.read length ⟨none, none, none⟩
      present f.entry?
  | .array length =>
      if holds 3 length then return .key ⟨← byteList⟩ (← octets 32) (← byteList) else failure
  | _ => failure

/-- The content of a password entry: a map, or an array of its fields in order. -/
def passwordEntry : Decoder RecipientEntry := do
  match ← head with
  | .map length =>
      let f ← fields 4 PasswordFields.read length ⟨none, none, none, none, none⟩
      present f.entry?
  | .array length =>
      if holds 5 length then
        return .password (← octets 16) ⟨← word, ← word, ← word⟩ (← byteList)
      else failure
  | _ => failure

def entry : Decoder RecipientEntry := do
  let name ← variant
  if name = nameBytes "Key" then keyEntry
  else if name = nameBytes "Password" then passwordEntry
  else failure

/-- An array of entries; a byte string will do if it is empty. -/
def entries : Decoder (List RecipientEntry) := do
  match ← untagged with
  | .array length => elements entry length
  | .bytes length => if (← byteContent length) = [] then pure [] else failure
  | _ => failure

/-- The fields of a header that have been read. -/
structure HeaderFields where
  version : Option UInt8
  layout : Option BodyLayout
  nonce : Option (Octets 12)
  recipients : Option (List RecipientEntry)
  signature : Option (Option Bytes)

def HeaderFields.read (key : Bytes) (f : HeaderFields) : Option (Decoder HeaderFields) :=
  if key = nameBytes "version" then
    some (once f.version byte fun x => { f with version := some x })
  else if key = nameBytes "layout" then
    some (once f.layout HeaderDecoder.layout fun x => { f with layout := some x })
  else if key = nameBytes "nonce" then
    some (once f.nonce (octets 12) fun x => { f with nonce := some x })
  else if key = nameBytes "recipients" then
    some (once f.recipients entries fun x => { f with recipients := some x })
  else if key = nameBytes "signature" then
    some (once f.signature (nullable byteList) fun x => { f with signature := some x })
  else none

/-- All fields but the signature must be there. -/
def HeaderFields.header? (f : HeaderFields) : Option EnvelopeHeader := do
  return ⟨← f.version, ← f.layout, ← f.nonce, ← f.recipients, f.signature.getD none⟩

def header : Decoder EnvelopeHeader := do
  match ← untagged with
  | .map length =>
      let f ← fields 1 HeaderFields.read length ⟨none, none, none, none, none⟩
      present f.header?
  | _ => failure

end HeaderDecoder

namespace EnvelopeHeader

/-- The header with a given CBOR form; what follows it there is of no account. -/
def ofCbor (encoded : Bytes) : Except Failure EnvelopeHeader :=
  match HeaderDecoder.header.decode? encoded with
  | none => .error (.invalidFormat .headerSyntax)
  | some h =>
      match h.fault? with
      | some fault => .error (.invalidFormat fault)
      | none => .ok h

/-- The length that four bytes give, if no longer than a header may be. -/
def lengthOf (field : Bytes) : Except Failure Nat :=
  let length := Bytes.ofBigEndian field
  if length ≤ maxHeaderLength then .ok length else .error (.invalidFormat (.headerLength length))

/-- The header at the front of the data, and where the body starts. -/
def decode (data : Bytes) : Except Failure (EnvelopeHeader × Nat) := do
  let field := data.take 4
  if field.length < 4 then .error (.invalidFormat .envelopeTooShort)
  let length ← lengthOf field
  let encoded := (data.drop 4).take length
  if encoded.length < length then .error (.invalidFormat .headerTruncated)
  let h ← ofCbor encoded
  return (h, 4 + length)

/-- Reads exactly `n` bytes. -/
def readExactly {ρ : Type} [ByteReader ρ] (n : Nat) (r : ρ) : Except Failure Bytes × ρ :=
  match ByteReader.fill n r with
  | (.error fault, next) => (.error (.io .readHeader fault), next)
  | (.ok bytes, next) =>
      if bytes.length < n then (.error (.invalidFormat .headerTruncated), next)
      else (.ok bytes, next)

/-- Reads a header and its encoded form, leaving the reader at the body. -/
def readFrom {ρ : Type} [ByteReader ρ] (r : ρ) : Except Failure (EnvelopeHeader × Bytes) × ρ :=
  match readExactly 4 r with
  | (.error failure, next) => (.error failure, next)
  | (.ok field, next) =>
      match lengthOf field with
      | .error failure => (.error failure, next)
      | .ok length =>
          match readExactly length next with
          | (.error failure, last) => (.error failure, last)
          | (.ok encoded, last) => ((ofCbor encoded).map fun h => (h, field ++ encoded), last)

end EnvelopeHeader

end SealedEnvelope
