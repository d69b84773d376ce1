import SealedEnvelope.Proofs.Segment.Nonce
import SealedEnvelope.Proofs.Segment.Run

/-!
Segments as pieces of ciphertext that each come with a nonce. Since the nonce tells
number and flag, segments whose pieces are all among those of a run are its first ones,
and a run of such segments is that other run: nothing was left out, repeated or put
elsewhere.
-/

namespace SealedEnvelope

/-- Authenticated ciphertext, with the nonce and the associated data that it belongs to. -/
structure Piece where
  nonce : Octets 12
  ad : Bytes
  sealedText : Bytes
deriving DecidableEq

/-- Decryption accepts the piece. -/
def Piece.opens (key : Octets 32) (piece : Piece) : Bool :=
  (openText .decrypt key piece.nonce piece.ad piece.sealedText).isOk

theorem Piece.opens_iff {key : Octets 32} {piece : Piece} (operation : Operation) :
    piece.opens key = true ↔
      ∃ text, openText operation key piece.nonce piece.ad piece.sealedText = .ok text := by
  have hok : piece.opens key = true ↔
      ∃ text, openText .decrypt key piece.nonce piece.ad piece.sealedText = .ok text := by
    rw [opens]
    cases openText .decrypt key piece.nonce piece.ad piece.sealedText <;> simp [Except.isOk,
      Except.toBool]
  rw [hok]
  exact exists_congr fun text => openText_eq_ok.trans openText_eq_ok.symm

/-- What is not accepted does not authenticate. -/
theorem Piece.openText_of_refused {key : Octets 32} {piece : Piece} (h : piece.opens key = false)
    (operation : Operation) :
    openText operation key piece.nonce piece.ad piece.sealedText =
      .error (.authenticationFailed operation) := by
  rcases hopen : openText operation key piece.nonce piece.ad piece.sealedText with failure | text
  · unfold openText at hopen
    split at hopen
    · split at hopen <;> cases hopen
      rfl
    · cases hopen
      rfl
  · rw [(opens_iff operation).mpr ⟨text, hopen⟩] at h
    cases h

/-- What has no room for a tag is not accepted. -/
theorem Piece.opens_of_short {key : Octets 32} {piece : Piece} (h : piece.sealedText.length < 16) :
    piece.opens key = false := by
  rw [Bool.eq_false_iff, Ne, opens_iff .decrypt]
  rintro ⟨text, hopen⟩
  rw [(openText_eq_ok.mp hopen).2, Gcm.length_encrypt] at h
  omega

namespace SegmentKeys

variable (k : SegmentKeys)

/-- The pieces that encrypted segments are, numbered from `i` on. -/
def pieces (i : Nat) : List Segment → List Piece
  | [] => []
  | segment :: rest =>
      ⟨segmentNonce k.nonce (UInt64.ofNat i) segment.final, k.ad, segment.text⟩ ::
        pieces (i + 1) rest

theorem flatMap_pieces (i : Nat) (segments : List Segment) :
    (k.pieces i segments).flatMap Piece.sealedText = segments.flatMap Segment.text := by
  induction segments generalizing i with
  | nil => rfl
  | cons segment rest ih => rw [pieces, List.flatMap_cons, List.flatMap_cons, ih]

theorem mem_pieces {i : Nat} {segments : List Segment} {piece : Piece} :
    piece ∈ k.pieces i segments ↔ ∃ j, ∃ h : j < segments.length,
      piece = ⟨segmentNonce k.nonce (UInt64.ofNat (i + j)) segments[j].final, k.ad,
        segments[j].text⟩ := by
  induction segments generalizing i with
  | nil => simp [pieces]
  | cons segment rest ih =>
      rw [pieces, List.mem_cons, ih]
      constructor
      · rintro (rfl | ⟨j, hj, rfl⟩)
        · exact ⟨0, by simp, rfl⟩
        · refine ⟨j + 1, by simpa using hj, ?_⟩
          simp only [List.getElem_cons_succ, Nat.add_right_comm i 1 j, ← Nat.add_assoc]
      · rintro ⟨j, hj, rfl⟩
        cases j with
        | zero => exact Or.inl rfl
        | succ j =>
            refine Or.inr ⟨j, by simpa using hj, ?_⟩
            simp only [List.getElem_cons_succ, Nat.add_right_comm i 1 j, ← Nat.add_assoc]

theorem ad_of_mem_pieces {i : Nat} {segments : List Segment} {piece : Piece}
    (h : piece ∈ k.pieces i segments) : piece.ad = k.ad := by
  obtain ⟨j, hj, rfl⟩ := k.mem_pieces.mp h
  rfl

/-- What has been encrypted is accepted. -/
theorem opens_pieces {i : Nat} {segments : List Segment}
    (h : ∀ segment ∈ segments, segment.text.length ≤ maxTextLength) :
    ∀ piece ∈ k.pieces i (k.encryptFrom i segments), piece.opens k.key = true := by
  induction segments generalizing i with
  | nil => simp [encryptFrom, pieces]
  | cons segment rest ih =>
      obtain ⟨hfirst, hrest⟩ := List.forall_mem_cons.mp h
      rw [encryptFrom, pieces, List.forall_mem_cons]
      refine ⟨?_, ih hrest⟩
      rw [Piece.opens_iff .decrypt]
      exact ⟨segment.text, openText_eq_ok.mpr ⟨hfirst, rfl⟩⟩

/-- Segments of which every piece belongs to others are the first of them, since the nonce of a
piece tells its place. -/
theorem prefix_of_pieces {segments segments' : List Segment}
    (hcount : segments.length ≤ UInt64.size) (hcount' : segments'.length ≤ UInt64.size)
    (hmem : ∀ piece ∈ k.pieces 0 segments', piece ∈ k.pieces 0 segments) :
    segments' <+: segments := by
  rw [List.prefix_iff_getElem?]
  intro j hj
  obtain ⟨i, hi, hpiece⟩ := k.mem_pieces.mp (hmem _ (k.mem_pieces.mpr ⟨j, hj, rfl⟩))
  obtain ⟨hnonce, -, htext⟩ := Piece.mk.inj hpiece
  obtain ⟨hindex, hflag⟩ := segmentNonce_inj hnonce
  have hsame : j = i := by
    have hnumber := congrArg UInt64.toNat hindex
    rwa [UInt64.toNat_ofNat_of_lt' (by omega), UInt64.toNat_ofNat_of_lt' (by omega),
      Nat.zero_add, Nat.zero_add] at hnumber
  subst hsame
  rw [List.getElem?_eq_getElem hi, Option.some.injEq]
  change Segment.mk segments[j].final segments[j].text =
    Segment.mk segments'[j].final segments'[j].text
  rw [hflag, htext]

/-- A run of which every piece belongs to another run, is that run. -/
theorem flagLast_eq_of_pieces {blocks blocks' : List Bytes}
    (hcount : (flagLast blocks).length ≤ UInt64.size)
    (hcount' : (flagLast blocks').length ≤ UInt64.size)
    (hmem : ∀ piece ∈ k.pieces 0 (flagLast blocks'), piece ∈ k.pieces 0 (flagLast blocks)) :
    flagLast blocks' = flagLast blocks :=
  flagLast_eq_of_front (k.prefix_of_pieces hcount hcount' hmem)

end SegmentKeys

end SealedEnvelope
