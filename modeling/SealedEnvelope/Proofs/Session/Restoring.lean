import SealedEnvelope.Proofs.Cbor.Local
import SealedEnvelope.Proofs.Session.Snapshot

/-!
Sessions at rest. A session comes back from its snapshot and from nothing shorter, and
whatever is taken for a snapshot has all that one has.
-/

namespace SealedEnvelope

open Cbor

section Reading

theorem local_role : Local SnapshotDecoder.role :=
  local_variant.bind fun _ => .ite (.pure _) (.ite (.pure _) .failure)

theorem local_snapshotField (key : Bytes) (f : SnapshotDecoder.Fields)
    (d : Decoder SnapshotDecoder.Fields) (h : f.read key = some d) : Local d := by
  unfold SnapshotDecoder.Fields.read at h
  split_ifs at h <;> cases h
  · exact local_once _ local_byte _
  · exact local_once _ local_role _
  · exact local_once _ local_byteList _
  · exact local_once _ local_byteList _
  · exact local_once _ local_byteList _
  · exact local_once _ local_byteList _

theorem local_snapshot : Local SnapshotDecoder.snapshot := by
  apply local_untagged.bind
  intro head
  split
  · apply (local_fields local_snapshotField _ _ _).bind
    intro f
    split
    · exact .pure _
    · exact .failure
  · exact .failure

end Reading

/-- The version and the lengths are those that a snapshot has. -/
structure SessionSnapshot.Complete (snapshot : SessionSnapshot) : Prop where
  version : snapshot.version = 1
  initiatorKey : snapshot.initiatorKey.length = 64
  responderKey : snapshot.responderKey.length = 64
  additionalData : snapshot.additionalData.length = 32
  sessionId : snapshot.sessionId.length = 32

theorem SessionSnapshot.exists_session_iff {snapshot : SessionSnapshot} :
    (∃ s, snapshot.session = .ok s) ↔ snapshot.Complete := by
  simp only [session_eq_ok]
  constructor
  · rintro ⟨s, rfl⟩
    exact ⟨rfl, s.initiatorKey.length_toBytes, s.responderKey.length_toBytes,
      s.additionalData.length_toBytes, s.sessionId.length_toBytes⟩
  · obtain ⟨version, role, initiatorKey, responderKey, additionalData, sessionId⟩ := snapshot
    rintro ⟨rfl, hinitiator, hresponder, hdata, hid⟩
    exact ⟨⟨⟨initiatorKey, hinitiator⟩, ⟨responderKey, hresponder⟩, ⟨additionalData, hdata⟩,
      ⟨sessionId, hid⟩, role⟩, rfl⟩

theorem SessionSnapshot.exactly_eq_error {n : Nat} {field : SnapshotField} {bytes : Bytes}
    {failure : Failure} (h : exactly n field bytes = .error failure) :
    failure = .invalidFormat (.snapshotLength field n bytes.length) := by
  unfold exactly at h
  split at h <;> cases h
  rfl

namespace Session

/-- All that is wrong with a snapshot is a matter of its format. -/
theorem exists_fault_of_ofBytes {data : Bytes} {failure : Failure}
    (h : Session.ofBytes data = .error failure) : ∃ fault, failure = .invalidFormat fault := by
  unfold Session.ofBytes at h
  split at h
  · cases h
    exact ⟨_, rfl⟩
  · rename_i snapshot _
    unfold SessionSnapshot.session at h
    dsimp only at h
    split at h
    · cases h
      exact ⟨_, rfl⟩
    · simp only [bind_eq_error] at h
      obtain h | ⟨_, -, h | ⟨_, -, h | ⟨_, -, h | ⟨_, -, h⟩⟩⟩⟩ := h
      · exact ⟨_, SessionSnapshot.exactly_eq_error h⟩
      · exact ⟨_, SessionSnapshot.exactly_eq_error h⟩
      · exact ⟨_, SessionSnapshot.exactly_eq_error h⟩
      · exact ⟨_, SessionSnapshot.exactly_eq_error h⟩
      · cases h

/-- A session, whatever its keys are and its role has become, is restored from its snapshot just as
it was, and no proper front part of the snapshot is accepted. What is accepted has the version and
the lengths of a snapshot and holds just what the restored session has, which then is restored again
from its own snapshot. Everything else is refused for its format. -/
theorem snapshots_restore_exactly :
    (∀ s : Session, Session.ofBytes s.toBytes = .ok s ∧
      ∀ n < s.toBytes.length,
        Session.ofBytes (s.toBytes.take n) = .error (.invalidFormat .snapshotSyntax)) ∧
    (∀ data, (∃ s, Session.ofBytes data = .ok s) ↔
      ∃ snapshot, SnapshotDecoder.snapshot.decode? data = some snapshot ∧ snapshot.Complete) ∧
    (∀ data s, Session.ofBytes data = .ok s →
      SnapshotDecoder.snapshot.decode? data = some s.snapshot ∧ s.snapshot.Complete ∧
        Session.ofBytes s.toBytes = .ok s ∧ ∀ more, Session.ofBytes (data ++ more) = .ok s) ∧
    ∀ data failure, Session.ofBytes data = .error failure →
      ∃ fault, failure = .invalidFormat fault := by
  have hrestored (s : Session) : Session.ofBytes s.toBytes = .ok s := by
    have hread := s.ofBytes_toBytes []
    rwa [List.append_nil] at hread
  refine ⟨fun s => ⟨hrestored s, ?_⟩, ?_, ?_, fun data failure => exists_fault_of_ofBytes⟩
  · intro n hn
    have hcut : SnapshotDecoder.snapshot.decode? (s.toBytes.take n) = none :=
      s.reads_snapshot.decode?_take local_snapshot hn
    rw [Session.ofBytes, hcut]
  · intro data
    simp only [ofBytes_eq_ok]
    constructor
    · rintro ⟨s, hread⟩
      exact ⟨s.snapshot, hread,
        SessionSnapshot.exists_session_iff.mp ⟨s, SessionSnapshot.session_eq_ok.mpr rfl⟩⟩
    · rintro ⟨snapshot, hread, hcomplete⟩
      obtain ⟨s, hsession⟩ := SessionSnapshot.exists_session_iff.mpr hcomplete
      exact ⟨s, hread.trans (congrArg some (SessionSnapshot.session_eq_ok.mp hsession))⟩
  · intro data s h
    have hread := ofBytes_eq_ok.mp h
    have hcomplete : s.snapshot.Complete :=
      SessionSnapshot.exists_session_iff.mp ⟨s, SessionSnapshot.session_eq_ok.mpr rfl⟩
    exact ⟨hread, hcomplete, hrestored s, fun more =>
      ofBytes_eq_ok.mpr (local_snapshot.decode?_append hread more)⟩

/-- A session whose role has been changed, its snapshot cut in the middle, and one with a byte too
many. -/
theorem snapshots_restore_exactly_changed : ∃ s : Session,
    Session.ofBytes (s.setRole .responder).toBytes = .ok (s.setRole .responder) ∧
      50 < (s.setRole .responder).toBytes.length ∧
      Session.ofBytes ((s.setRole .responder).toBytes.take 50) =
        .error (.invalidFormat .snapshotSyntax) ∧
      Session.ofBytes (s.toBytes ++ [0]) = .ok s ∧ s.snapshot.Complete := by
  let s : Session := ⟨.zero 64, .zero 64, .zero 32, .zero 32, .initiator⟩
  obtain ⟨hall, -, haccepted, -⟩ := snapshots_restore_exactly
  obtain ⟨hrestored, hcut⟩ := hall (s.setRole .responder)
  have hlength : 50 < (s.setRole .responder).toBytes.length := by decide +kernel
  have hlonger : Session.ofBytes (s.toBytes ++ [0]) = .ok s := s.ofBytes_toBytes [0]
  exact ⟨s, hrestored, hlength, hcut 50 hlength, hlonger, (haccepted _ _ hlonger).2.1⟩

end Session

end SealedEnvelope
