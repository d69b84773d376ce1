import SealedEnvelope.Proofs.Cbor.Reads
import SealedEnvelope.Proofs.Computation
import SealedEnvelope.Session.Snapshot

/-!
A session that has been put away comes back as it was, whatever follows its snapshot.
-/

namespace SealedEnvelope

open Cbor SnapshotDecoder

/-- The names of the fields and of the roles. -/
def snapshotNames : List String :=
  ["version", "role", "initiator_key", "responder_key", "additional_data", "session_id",
    "Initiator", "Responder"]

theorem isName_of_snapshot : ∀ name ∈ snapshotNames, IsName (nameBytes name) := by
  decide +kernel

theorem reads_role (role : Role) :
    Reads SnapshotDecoder.role (encodeText (nameBytes role.name)) role := by
  cases role with
  | initiator =>
      apply (isName_of_snapshot "Initiator" (by simp [snapshotNames])).reads_variant.bind_pure
      simp only [Role.name, if_true]
      exact Reads.pure _
  | responder =>
      apply (isName_of_snapshot "Responder" (by simp [snapshotNames])).reads_variant.bind_pure
      simp only [Role.name, nameBytes_inj, String.reduceEq, if_false, if_true]
      exact Reads.pure _

/-- The bytes of a fixed number are few enough to be read back. -/
theorem reads_bytes {n : Nat} (x : Octets n) (h : n < UInt64.size) :
    Reads Decoder.byteList (encodeByteList x.toBytes) x.toBytes :=
  reads_byteList (x.length_toBytes.trans_lt h)

namespace Session

variable (s : Session)

/-- What is read of a snapshot before it is checked. -/
def snapshotFields : Fields :=
  ⟨some snapshotVersion, some s.role, some s.initiatorKey.toBytes, some s.responderKey.toBytes,
    some s.additionalData.toBytes, some s.sessionId.toBytes⟩

theorem fieldsRead_snapshot :
    FieldsRead Fields.read ⟨none, none, none, none, none, none⟩
      [(nameBytes "version", encodeUnsigned snapshotVersion.toNat),
       (nameBytes "role", encodeText (nameBytes s.role.name)),
       (nameBytes "initiator_key", encodeByteList s.initiatorKey.toBytes),
       (nameBytes "responder_key", encodeByteList s.responderKey.toBytes),
       (nameBytes "additional_data", encodeByteList s.additionalData.toBytes),
       (nameBytes "session_id", encodeByteList s.sessionId.toBytes)]
      s.snapshotFields := by
  have hname {name : String} (h : name ∈ snapshotNames) := isName_of_snapshot name h
  apply FieldsRead.cons (hname (by simp [snapshotNames])) _
    (reads_once (reads_byte snapshotVersion) fun x => ⟨some x, none, none, none, none, none⟩)
  apply FieldsRead.cons (hname (by simp [snapshotNames])) _ (reads_once (reads_role s.role)
    fun x => ⟨some snapshotVersion, some x, none, none, none, none⟩)
  apply FieldsRead.cons (hname (by simp [snapshotNames])) _
    (reads_once (reads_bytes s.initiatorKey (by decide))
      fun x => ⟨some snapshotVersion, some s.role, some x, none, none, none⟩)
  apply FieldsRead.cons (hname (by simp [snapshotNames])) _
    (reads_once (reads_bytes s.responderKey (by decide))
      fun x => { s.snapshotFields with
        responderKey := some x, additionalData := none, sessionId := none })
  apply FieldsRead.cons (hname (by simp [snapshotNames])) _
    (reads_once (reads_bytes s.additionalData (by decide))
      fun x => { s.snapshotFields with additionalData := some x, sessionId := none })
  apply FieldsRead.cons (hname (by simp [snapshotNames])) _
    (reads_once (reads_bytes s.sessionId (by decide))
      fun x => { s.snapshotFields with sessionId := some x })
  · exact FieldsRead.nil _
  all_goals simp only [Fields.read, nameBytes_inj, String.reduceEq, if_false, if_true] <;> rfl

/-- What a snapshot holds. -/
def snapshot : SessionSnapshot :=
  ⟨snapshotVersion, s.role, s.initiatorKey.toBytes, s.responderKey.toBytes,
    s.additionalData.toBytes, s.sessionId.toBytes⟩

theorem reads_snapshot : Reads SnapshotDecoder.snapshot s.toBytes s.snapshot := by
  apply Reads.bind (reads_untagged (n := 6) (by decide) (by decide) rfl)
  exact (s.fieldsRead_snapshot.reads 1).bind_pure (Reads.pure _)

end Session

theorem SessionSnapshot.exactly_eq_ok {n : Nat} {field : SnapshotField} {bytes : Bytes}
    {x : Octets n} : exactly n field bytes = .ok x ↔ bytes = x.toBytes := by
  rw [exactly]
  constructor
  · intro h
    cases hbytes : Octets.ofBytes? n bytes with
    | none =>
        rw [hbytes] at h
        cases h
    | some found =>
        rw [hbytes] at h
        cases h
        exact (Octets.toBytes_of_ofBytes? hbytes).symm
  · rintro rfl
    rw [Octets.ofBytes?_toBytes]

/-- A snapshot is good for a session if it is what a snapshot of that session holds. -/
theorem SessionSnapshot.session_eq_ok {snapshot : SessionSnapshot} {s : Session} :
    snapshot.session = .ok s ↔ snapshot = s.snapshot := by
  obtain ⟨version, role, initiatorKey, responderKey, additionalData, sessionId⟩ := snapshot
  rw [session]
  dsimp only
  by_cases hversion : version = Session.snapshotVersion
  · subst hversion
    simp only [ne_eq, not_true_eq_false, if_false, bind_eq_ok, exactly_eq_ok]
    constructor
    · rintro ⟨initiatorKey, rfl, responderKey, rfl, additionalData, rfl, sessionId, rfl, h⟩
      cases h
      rfl
    · intro h
      cases h
      exact ⟨_, rfl, _, rfl, _, rfl, _, rfl, rfl⟩
  · rw [if_pos hversion]
    constructor
    · nofun
    · intro h
      cases h
      exact absurd rfl hversion

namespace Session

theorem ofBytes_eq_ok {data : Bytes} {s : Session} :
    Session.ofBytes data = .ok s ↔ SnapshotDecoder.snapshot.decode? data = some s.snapshot := by
  rw [Session.ofBytes]
  cases SnapshotDecoder.snapshot.decode? data with
  | none => simp
  | some snapshot => simp [SessionSnapshot.session_eq_ok]

/-- A snapshot is restored to the session that it was taken of. -/
theorem ofBytes_toBytes (s : Session) (rest : Bytes) :
    Session.ofBytes (s.toBytes ++ rest) = .ok s :=
  ofBytes_eq_ok.mpr (s.reads_snapshot.decode? rest)

end Session

end SealedEnvelope
