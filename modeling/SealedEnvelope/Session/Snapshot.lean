import SealedEnvelope.Session.Basic
import SealedEnvelope.Cbor.Decoder
import SealedEnvelope.Cbor.Encoder

/-!
Sessions at rest: a CBOR map with a version, the role and the four byte strings.
It holds key material.
-/

namespace SealedEnvelope

open Cbor

namespace Session

def snapshotVersion : UInt8 := 1

def toBytes (s : Session) : Bytes :=
  encodeMap
    [(nameBytes "version", encodeUnsigned snapshotVersion.toNat),
     (nameBytes "role", encodeText (nameBytes s.role.name)),
     (nameBytes "initiator_key", encodeByteList s.initiatorKey.toBytes),
     (nameBytes "responder_key", encodeByteList s.responderKey.toBytes),
     (nameBytes "additional_data", encodeByteList s.additionalData.toBytes),
     (nameBytes "session_id", encodeByteList s.sessionId.toBytes)]

end Session

/-- A snapshot as read, before its version and lengths are checked. -/
structure SessionSnapshot where
  version : UInt8
  role : Role
  initiatorKey : Bytes
  responderKey : Bytes
  additionalData : Bytes
  sessionId : Bytes

namespace SnapshotDecoder

open Decoder

/-- The fields of a snapshot that have been read. -/
structure Fields where
  version : Option UInt8
  role : Option Role
  initiatorKey : Option Bytes
  responderKey : Option Bytes
  additionalData : Option Bytes
  sessionId : Option Bytes

def role : Decoder Role := do
  let name ← variant
  if name = nameBytes Role.initiator.name then pure .initiator
  else if name = nameBytes Role.responder.name then pure .responder
  else failure

def Fields.read (key : Bytes) (f : Fields) : Option (Decoder Fields) :=
  if key = nameBytes "version" then
    some (once f.version byte fun x => { f with version := some x })
  else if key = nameBytes "role" then
    some (once f.role SnapshotDecoder.role fun x => { f with role := some x })
  else if key = nameBytes "initiator_key" then
    some (once f.initiatorKey byteList fun x => { f with initiatorKey := some x })
  else if key = nameBytes "responder_key" then
    some (once f.responderKey byteList fun x => { f with responderKey := some x })
  else if key = nameBytes "additional_data" then
    some (once f.additionalData byteList fun x => { f with additionalData := some x })
  else if key = nameBytes "session_id" then
    some (once f.sessionId byteList fun x => { f with sessionId := some x })
  else none

/-- All fields must be there. -/
def Fields.snapshot? (f : Fields) : Option SessionSnapshot := do
  return ⟨← f.version, ← f.role, ← f.initiatorKey, ← f.responderKey, ← f.additionalData,
    ← f.sessionId⟩

def snapshot : Decoder SessionSnapshot := do
  match ← untagged with
  | .map length =>
      let f ← Decoder.fields 1 Fields.read length ⟨none, none, none, none, none, none⟩
      match f.snapshot? with
      | some s => pure s
      | none => failure
  | _ => failure

end SnapshotDecoder

namespace SessionSnapshot

/-- A field of exactly `n` bytes. -/
def exactly (n : Nat) (field : SnapshotField) (bytes : Bytes) : Except Failure (Octets n) :=
  match Octets.ofBytes? n bytes with
  | some bytes => .ok bytes
  | none => .error (.invalidFormat (.snapshotLength field n bytes.length))

def session (s : SessionSnapshot) : Except Failure Session := do
  if s.version ≠ Session.snapshotVersion then
    .error (.invalidFormat (.snapshotVersion s.version.toNat))
  let initiatorKey ← exactly 64 .initiatorKey s.initiatorKey
  let responderKey ← exactly 64 .responderKey s.responderKey
  let additionalData ← exactly 32 .additionalData s.additionalData
  let sessionId ← exactly 32 .sessionId s.sessionId
  return { initiatorKey, responderKey, additionalData, sessionId, role := s.role }

end SessionSnapshot

/-- Restores a session; what follows the snapshot is of no account. -/
def Session.ofBytes (data : Bytes) : Except Failure Session :=
  match SnapshotDecoder.snapshot.decode? data with
  | none => .error (.invalidFormat .snapshotSyntax)
  | some s => s.session

end SealedEnvelope
