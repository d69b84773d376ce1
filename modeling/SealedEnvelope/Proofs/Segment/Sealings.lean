import SealedEnvelope.Proofs.Segment.StreamCipher

/-!
What a run of segments has encrypted, whether or not it comes to an end. Segment after
segment is encrypted and written, each under its own number, until one is too long or
the numbers are used up; so no two are encrypted under one nonce.
-/

namespace SealedEnvelope

/-- What encryption makes of a text under a nonce. -/
def Piece.encrypt (key : Octets 32) (nonce : Octets 12) (ad text : Bytes) : Piece :=
  ⟨nonce, ad, Gcm.encrypt key nonce ad text⟩

/-- Numbers do not start again: the next one is one more. -/
theorem toNat_of_nextIndex {index next : UInt64} (h : nextIndex index = .ok next) :
    next.toNat = index.toNat + 1 := by
  rw [nextIndex] at h
  split at h
  case isTrue hlt =>
    cases h
    rw [UInt64.toNat_add, UInt64.toNat_one]
    exact Nat.mod_eq_of_lt hlt
  case isFalse => cases h

/-- Behind the last number there is none. -/
theorem nextIndex_exhausted {index : UInt64} :
    nextIndex index = .error (.invalidParameter .countersExhausted) ↔
      index.toNat + 1 = UInt64.size := by
  have hlt : index.toNat < UInt64.size := index.toNat_lt
  rw [nextIndex]
  split
  case isTrue hnext => simp [Nat.ne_of_lt hnext]
  case isFalse hlast =>
    have hend : index.toNat + 1 = UInt64.size := by omega
    simp [hend]

namespace SegmentKeys

variable (k : SegmentKeys)

/-- What is encrypted of segments that are numbered from `i` on. -/
def sealings (i : Nat) : List Segment → List Piece
  | [] => []
  | segment :: rest =>
      if segment.text.length ≤ maxTextLength then
        .encrypt k.key (segmentNonce k.nonce (UInt64.ofNat i) segment.final) k.ad segment.text ::
          if i + 1 < UInt64.size then sealings (i + 1) rest else []
      else []

variable {k}

theorem sealings_cons_of_le {i : Nat} {segment : Segment} {rest : List Segment}
    (h : segment.text.length ≤ maxTextLength) :
    k.sealings i (segment :: rest) =
      .encrypt k.key (segmentNonce k.nonce (UInt64.ofNat i) segment.final) k.ad segment.text ::
        if i + 1 < UInt64.size then k.sealings (i + 1) rest else [] := by
  rw [sealings, if_pos h]

theorem sealings_cons_of_lt {i : Nat} {segment : Segment} {rest : List Segment}
    (h : ¬ segment.text.length ≤ maxTextLength) : k.sealings i (segment :: rest) = [] := by
  rw [sealings, if_neg h]

/-- Of segments that fit, all are encrypted. -/
theorem sealings_of_fits {i : Nat} {segments : List Segment} (h : Fits i segments) :
    k.sealings i segments = k.pieces i (k.encryptFrom i segments) := by
  induction segments generalizing i with
  | nil => rfl
  | cons segment rest ih =>
      obtain ⟨hshort, hcount⟩ := h
      obtain ⟨hle, hall⟩ := List.forall_mem_cons.mp hshort
      rw [List.length_cons] at hcount
      rw [sealings_cons_of_le hle, encryptFrom, pieces]
      congr 1
      cases rest with
      | nil => exact ite_self []
      | cons second later =>
          rw [List.length_cons] at hcount
          rw [if_pos (by omega)]
          apply ih
          rw [Fits, List.length_cons]
          exact ⟨hall, by omega⟩

section Work

variable (index : UInt64) {segment : Segment}

theorem sealWork_of_le (h : segment.text.length ≤ maxTextLength) :
    segmentWork .streamEncrypt k.sealSegment (fun s _ => s.text) index segment =
      ⟨[.write .streamEncrypt
        (Gcm.encrypt k.key (segmentNonce k.nonce index segment.final) k.ad segment.text)],
        .ok segment.text.length⟩ := by
  rw [segmentWork, sealSegment, sealText, if_pos h]
  rfl

theorem sealWork_of_lt (h : ¬ segment.text.length ≤ maxTextLength) :
    segmentWork .streamEncrypt k.sealSegment (fun s _ => s.text) index segment =
      ⟨[], .error (.invalidParameter (.textTooLong segment.text.length))⟩ := by
  rw [segmentWork, sealSegment, sealText, if_neg h]
  rfl

end Work

/-- The steps that encryption has taken are to write what it has encrypted. -/
theorem steps_emitSegments_seal {i : Nat} (hi : i < UInt64.size) (segments : List Segment) :
    (emitSegments (segmentWork .streamEncrypt k.sealSegment fun s _ => s.text) (UInt64.ofNat i)
      segments).steps =
        (k.sealings i segments).map fun piece => .write .streamEncrypt piece.sealedText := by
  induction segments generalizing i with
  | nil => rfl
  | cons segment rest ih =>
      by_cases hle : segment.text.length ≤ maxTextLength
      · have hwork := sealWork_of_le (k := k) (UInt64.ofNat i) hle
        have hending := congrArg Emission.ending hwork
        rw [sealings_cons_of_le hle, List.map_cons]
        by_cases hrest : rest = []
        · subst hrest
          rw [emitSegments, hwork, sealings, ite_self]
          rfl
        · by_cases hnext : i + 1 < UInt64.size
          · rw [emitSegments_cons_of_ok hrest hending hnext, if_pos hnext, ih hnext, hwork]
            rfl
          · rw [emitSegments_cons_of_last hrest hending (by omega), if_neg hnext, hwork]
            rfl
      · have hwork := sealWork_of_lt (k := k) (UInt64.ofNat i) hle
        rw [emitSegments_cons_of_error (congrArg Emission.ending hwork), hwork,
          sealings_cons_of_lt hle]
        rfl

/-- A run has written what it has encrypted, and nothing else. -/
theorem bytes_encryptRun (run : SegmentRun) :
    (StreamCipher.encryptRun k run).bytes =
      (k.sealings 0 run.segments).flatMap Piece.sealedText := by
  have hsteps := steps_emitSegments_seal (k := k) (i := 0) (by decide) run.segments
  refine (run.bytes_emit _ _).trans ?_
  refine (congrArg (List.flatMap OutputStep.bytes) hsteps).trans ?_
  rw [List.flatMap_map]
  rfl

/-- What has been encrypted has a nonce with a number that is still to be used. -/
theorem exists_index_of_mem_sealings {i : Nat} (hi : i < UInt64.size) {segments : List Segment}
    {piece : Piece} (h : piece ∈ k.sealings i segments) :
    ∃ j final text, i ≤ j ∧ j < UInt64.size ∧
      piece = .encrypt k.key (segmentNonce k.nonce (UInt64.ofNat j) final) k.ad text := by
  induction segments generalizing i with
  | nil => cases h
  | cons segment rest ih =>
      by_cases hle : segment.text.length ≤ maxTextLength
      · rw [sealings_cons_of_le hle] at h
        rcases List.mem_cons.mp h with rfl | hlater
        · exact ⟨i, segment.final, segment.text, le_rfl, hi, rfl⟩
        · by_cases hnext : i + 1 < UInt64.size
          · rw [if_pos hnext] at hlater
            obtain ⟨j, final, text, hij, hj, rfl⟩ := ih hnext hlater
            exact ⟨j, final, text, Nat.le_of_succ_le hij, hj, rfl⟩
          · rw [if_neg hnext] at hlater
            cases hlater
      · rw [sealings_cons_of_lt hle] at h
        cases h

/-- No nonce is used for two segments. -/
theorem nodup_sealings {i : Nat} (hi : i < UInt64.size) (segments : List Segment) :
    ((k.sealings i segments).map Piece.nonce).Nodup := by
  induction segments generalizing i with
  | nil => exact List.nodup_nil
  | cons segment rest ih =>
      by_cases hle : segment.text.length ≤ maxTextLength
      · rw [sealings_cons_of_le hle, List.map_cons, List.nodup_cons]
        by_cases hnext : i + 1 < UInt64.size
        · rw [if_pos hnext]
          refine ⟨?_, ih hnext⟩
          intro hmem
          obtain ⟨piece, hpiece, hnonce⟩ := List.mem_map.mp hmem
          obtain ⟨j, final, text, hij, hj, rfl⟩ := exists_index_of_mem_sealings hnext hpiece
          obtain ⟨hindex, -⟩ := segmentNonce_inj hnonce
          have hnumber := congrArg UInt64.toNat hindex
          rw [UInt64.toNat_ofNat_of_lt' hj, UInt64.toNat_ofNat_of_lt' hi] at hnumber
          omega
        · rw [if_neg hnext]
          exact ⟨List.not_mem_nil, List.nodup_nil⟩
      · rw [sealings_cons_of_lt hle]
        exact List.nodup_nil

end SegmentKeys

end SealedEnvelope
