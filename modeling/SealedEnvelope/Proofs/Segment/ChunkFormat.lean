import SealedEnvelope.Proofs.Segment.ChunkCipher
import SealedEnvelope.Proofs.Transfer.Delivery

/-!
The format of segments with a length before each. Encryption writes the frames of as few
pieces as possible; decryption takes the frames of any pieces that are not too long. So
what one size encrypts another decrypts, unless a chunk exceeds it.
-/

namespace SealedEnvelope

/-- A text in pieces of any lengths up to the size, so many that the numbers last. -/
structure Chunking (size : SegmentSize) (text : Bytes) where
  pieces : List Bytes
  pieces_ne_nil : pieces ≠ []
  length_le : ∀ piece ∈ pieces, piece.length ≤ size.val
  numbered : pieces.length ≤ UInt64.size
  joined : pieces.flatten = text

theorem Chunking.fits {size : SegmentSize} {text : Bytes} (c : Chunking size text) :
    SegmentKeys.Fits 0 (flagLast c.pieces) :=
  SegmentKeys.fits_flagLast c.pieces_ne_nil
    (fun piece hpiece => (c.length_le piece hpiece).trans size.le_maxTextLength) c.numbered

namespace Cutting

variable {size : SegmentSize} {text : Bytes}

/-- Pieces are no longer than the text, so they suit a smaller size that the text is within. -/
def chunking (c : Cutting size text) (other : SegmentSize) (htext : text.length < UInt64.size)
    (h : min size.val text.length ≤ other.val) : Chunking other text where
  pieces := c.pieces
  pieces_ne_nil := c.pieces_ne_nil
  length_le := by
    intro piece hpiece
    have hsize := c.length_le piece hpiece
    have hwhole := (List.sublist_flatten_of_mem hpiece).length_le
    rw [c.flatten_pieces] at hwhole
    exact (Nat.le_min.mpr ⟨hsize, hwhole⟩).trans h
  numbered := c.numbered htext
  joined := c.flatten_pieces

/-- The first piece is full, or it is the text. -/
theorem exists_first (c : Cutting size text) :
    ∃ piece later, c.pieces = piece :: later ∧ piece.length = min size.val text.length := by
  have hlength := c.length_eq
  rw [pieces]
  rcases hfull : c.full with _ | ⟨piece, full⟩
  · rw [hfull, List.length_nil, Nat.mul_zero, Nat.zero_add] at hlength
    have hlast := c.length_last
    exact ⟨c.last, [], rfl, by omega⟩
  · have hpiece := c.length_full piece (by rw [hfull]; exact List.mem_cons_self)
    rw [hfull, List.length_cons, Nat.mul_succ] at hlength
    exact ⟨piece, full ++ [c.last], rfl, by omega⟩

end Cutting

namespace ChunkCipher

/-- The frames of encrypted pieces, one after the other. -/
def ciphertext (k : SegmentKeys) (pieces : List Bytes) : Bytes :=
  (k.sealedPieces pieces).flatMap frame

variable (c : ChunkCipher) (k : SegmentKeys)

theorem ciphertext_eq {pieces : List Bytes} (h : pieces ≠ []) :
    ciphertext k pieces =
      (k.encryptFrom 0 (flagLast pieces)).flatMap (fun s => frame s.text) := by
  rw [ciphertext, ← k.map_text_encryptFrom h, List.flatMap_map]

/-- The encryptor cuts a text into as few pieces as possible. -/
theorem delivers_encrypt_iff {source : Source} {n : Nat} {bytes : Bytes} :
    (c.encrypt k source).Delivers (.ok n) bytes ↔
      source.fault = none ∧
        SegmentKeys.Fits 0 (flagLast (Cutting.fewest c.chunkSize source.bytes).pieces) ∧
        bytes = ciphertext k (Cutting.fewest c.chunkSize source.bytes).pieces ∧
        n = source.bytes.length := by
  rw [Emission.delivers_ok_iff, encrypt_eq,
    k.collect_emit_blocksRun (encrypts_sealChunk k) c.chunkSize.pos, Cutting.flagLast_cut,
    ciphertext_eq k (Cutting.pieces_ne_nil _)]

theorem delivers_encrypt {source : Source} (hsource : source.fault = none)
    (htext : source.bytes.length < UInt64.size) :
    (c.encrypt k source).Delivers (.ok source.bytes.length)
      (ciphertext k (Cutting.fewest c.chunkSize source.bytes).pieces) :=
  (c.delivers_encrypt_iff k).mpr ⟨hsource, Cutting.fits _ htext, rfl, rfl⟩

theorem admits_sealedPieces {size : SegmentSize} {pieces : List Bytes}
    (h : ∀ piece ∈ pieces, piece.length ≤ size.val) :
    ∀ block ∈ k.sealedPieces pieces, size.Admits block := by
  intro block hblock
  obtain ⟨piece, hpiece, heq⟩ := k.exists_piece_of_mem hblock
  have hsize := h piece hpiece
  exact ⟨by omega, by omega⟩

theorem chunksFrom_ciphertext {size : SegmentSize} {pieces : List Bytes} (hne : pieces ≠ [])
    (h : ∀ piece ∈ pieces, piece.length ≤ size.val) :
    chunksFrom size 0 (ciphertext k pieces) = ⟨k.encryptFrom 0 (flagLast pieces), none⟩ := by
  rw [ciphertext, chunksFrom_frames (k.sealedPieces_ne_nil hne) (admits_sealedPieces k h),
    k.flagLast_sealedPieces hne]

/-- What is decrypted are the frames of pieces that are not too long. -/
theorem delivers_decrypt_iff {source : Source} (hsource : source.fault = none) {text : Bytes}
    {n : Nat} :
    (c.decrypt k source).Delivers (.ok n) text ↔
      n = text.length ∧ ∃ chunking : Chunking c.chunkSize text,
        source.bytes = ciphertext k chunking.pieces := by
  rw [decrypt_eq c k Source.view ⟨rfl, hsource⟩, Emission.delivers_ok_iff]
  constructor
  · intro h
    rcases chunksFrom_cases c.chunkSize 0 source.bytes with ⟨blocks, hne, hadmits, hbytes, hrun⟩ |
      ⟨blocks, failure, -, hrun⟩
    · rw [hrun, k.collect_decryptRun] at h
      obtain ⟨plain, hsegments, ⟨-, hcount⟩, rfl, rfl⟩ := h
      obtain ⟨pieces, hpieces, rfl, rfl⟩ := k.exists_pieces hne hsegments
      rw [length_flagLast hpieces] at hcount
      refine ⟨rfl, ⟨pieces, hpieces, ?_, by omega, (text_flagLast _).symm⟩, hbytes⟩
      intro piece hpiece
      obtain ⟨block, hblock, heq⟩ := k.exists_sealed_of_mem hpiece
      have hshort := (hadmits block hblock).length_le
      omega
    · exact absurd h (SegmentRun.collect_emit_of_failure (by rw [hrun]))
  · rintro ⟨rfl, chunking, hbytes⟩
    rw [hbytes, chunksFrom_ciphertext k chunking.pieces_ne_nil chunking.length_le,
      k.collect_decryptRun]
    exact ⟨_, rfl, chunking.fits, by rw [text_flagLast, chunking.joined], rfl⟩

/-- A chunk above the size is refused from its length. -/
theorem delivers_decrypt_of_too_long {source : Source} (hsource : source.fault = none)
    {piece : Bytes} {later : List Bytes}
    (hbytes : source.bytes = ciphertext k (piece :: later)) (hlong : c.chunkSize.val < piece.length)
    (hframed : piece.length + 16 < UInt32.size) :
    (c.decrypt k source).Delivers
      (.error (.invalidFormat (.chunkLength 0 (piece.length + 16) (c.chunkSize.val + 16)))) [] := by
  rw [ciphertext, SegmentKeys.sealedPieces, List.mapIdx_cons, List.flatMap_cons] at hbytes
  rw [decrypt_eq c k Source.view ⟨rfl, hsource⟩, hbytes, Emission.delivers_iff,
    chunksFrom_of_error (firstBlock_of_too_long ?_ ?_), Gcm.length_encrypt]
  · exact ⟨rfl, rfl⟩
  · rw [Gcm.length_encrypt]
    omega
  · rw [Gcm.length_encrypt]
    exact hframed

/-- How the frame of a block is written. -/
def frameWrites (block : Bytes) : List OutputStep :=
  [.write .chunkEncrypt (Bytes.bigEndian 4 block.length), .write .chunkEncrypt block]

/-- Whatever stops the encryption of segments, frames of blocks that are not too long have been
written. -/
theorem steps_emitSegments {size : SegmentSize} {segments : List Segment}
    (h : ∀ segment ∈ segments, segment.text.length ≤ size.val) {i : Nat} (hi : i < UInt64.size) :
    ∃ blocks : List Bytes, (emitSegments (sealChunk k) (UInt64.ofNat i) segments).steps =
        blocks.flatMap frameWrites ∧
      ∀ block ∈ blocks, size.Admits block := by
  induction segments generalizing i with
  | nil => exact ⟨[], rfl, by simp⟩
  | cons segment rest ih =>
      obtain ⟨hshort, hrest⟩ := List.forall_mem_cons.mp h
      rcases hsealed : k.sealSegment (UInt64.ofNat i) segment with failure | sealedText
      · have hwork := sealChunk_of_error k hsealed
        rw [emitSegments_cons_of_error (congrArg Emission.ending hwork), hwork]
        exact ⟨[], rfl, by simp⟩
      have hwork := sealChunk_of_ok k hsealed
      have hadmits : size.Admits sealedText := by
        have hlength := congrArg List.length (sealText_eq_ok.mp hsealed).2
        rw [Gcm.length_encrypt] at hlength
        exact ⟨by omega, by omega⟩
      by_cases hnil : rest = []
      · subst hnil
        rw [emitSegments, hwork]
        exact ⟨[sealedText], by simp [frameWrites], by simpa using hadmits⟩
      have hending := congrArg Emission.ending hwork
      rcases Nat.lt_or_eq_of_le (Nat.succ_le_of_lt hi) with hnext | hlast
      · obtain ⟨blocks, hsteps, hblocks⟩ := ih hrest hnext
        rw [emitSegments_cons_of_ok hnil hending hnext, hwork, hsteps]
        exact ⟨sealedText :: blocks, by simp [frameWrites],
          List.forall_mem_cons.mpr ⟨hadmits, hblocks⟩⟩
      · rw [emitSegments_cons_of_last hnil hending hlast, hwork]
        exact ⟨[sealedText], by simp [frameWrites], by simpa using hadmits⟩

/-- Whatever a reader does, encryption writes frames, and each length fits into its field. -/
theorem steps_encrypt {ρ : Type} [ByteReader ρ] (r : ρ) :
    ∃ (blocks : List Bytes) (ending : List OutputStep),
      (c.encrypt k r).steps = blocks.flatMap frameWrites ++ ending ∧
      (ending = [] ∨ ending = [.flush .chunkEncrypt]) ∧
      ∀ block ∈ blocks, block.length < UInt32.size := by
  have hshort : ∀ segment ∈ (blocksRun .chunkEncrypt c.chunkSize.val r).segments,
      segment.text.length ≤ c.chunkSize.val := by
    intro segment hsegment
    exact length_le_of_mem_blocksRun hsegment
  obtain ⟨blocks, hsteps, hadmits⟩ := steps_emitSegments k hshort (by decide : 0 < UInt64.size)
  obtain ⟨ending, hemit, hending⟩ := (blocksRun .chunkEncrypt c.chunkSize.val r).steps_emit
    .chunkEncrypt (sealChunk k)
  refine ⟨blocks, ending, ?_, hending, ?_⟩
  · rw [encrypt_eq, hemit]
    exact congrArg (· ++ ending) hsteps
  · intro block hblock
    exact (hadmits block hblock).length_le.trans_lt c.chunkSize.sealed_lt

end ChunkCipher

open ChunkCipher in
/-- The format of a text in chunks. A ciphertext is decrypted just if it consists of the frames of
pieces of the text, in any cut that keeps to the chunk size. Encryption writes those of as few
pieces as possible, and no length exceeds its field whatever it reads from. So a ciphertext is
decrypted with another chunk size as well, unless its first chunk is too long for that, and then
nothing is written. -/
theorem chunk_format_exact (k : SegmentKeys) {text : Bytes} (htext : text.length < UInt64.size) :
    (∀ (c : ChunkCipher) (source : Source), source.fault = none → ∀ n,
        (c.decrypt k source).Delivers (.ok n) text ↔
          n = text.length ∧ ∃ chunking : Chunking c.chunkSize text,
            source.bytes = ciphertext k chunking.pieces) ∧
      (∀ (c : ChunkCipher) (source : Source), source.bytes = text → source.fault = none →
        (c.encrypt k source).Delivers (.ok text.length)
            (ciphertext k (Cutting.fewest c.chunkSize text).pieces) ∧
          (Cutting.fewest c.chunkSize text).pieces.length =
            max 1 ((text.length + c.chunkSize.val - 1) / c.chunkSize.val)) ∧
      (∀ (c : ChunkCipher) (ρ : Type) [ByteReader ρ] (r : ρ),
        ∃ (blocks : List Bytes) (ending : List OutputStep),
          (c.encrypt k r).steps = blocks.flatMap frameWrites ++ ending ∧
          (ending = [] ∨ ending = [.flush .chunkEncrypt]) ∧
          ∀ block ∈ blocks, block.length < UInt32.size) ∧
      ∀ (c other : ChunkCipher) (source : Source), source.fault = none →
        source.bytes = ciphertext k (Cutting.fewest c.chunkSize text).pieces →
        (min c.chunkSize.val text.length ≤ other.chunkSize.val →
          (other.decrypt k source).Delivers (.ok text.length) text) ∧
        (other.chunkSize.val < min c.chunkSize.val text.length →
          (other.decrypt k source).Delivers
            (.error (.invalidFormat (.chunkLength 0 (min c.chunkSize.val text.length + 16)
              (other.chunkSize.val + 16)))) []) := by
  refine ⟨?_, ?_, ?_, ?_⟩
  · exact fun c source hsource n => c.delivers_decrypt_iff k hsource
  · rintro c source rfl hsource
    exact ⟨c.delivers_encrypt k hsource htext, Cutting.length_pieces_fewest _ _⟩
  · exact fun c ρ _ r => c.steps_encrypt k r
  · intro c other source hsource hbytes
    constructor
    · intro hsmall
      rw [other.delivers_decrypt_iff k hsource]
      exact ⟨rfl, (Cutting.fewest c.chunkSize text).chunking other.chunkSize htext hsmall, hbytes⟩
    · intro hlarge
      obtain ⟨piece, later, hpieces, hpiece⟩ := (Cutting.fewest c.chunkSize text).exists_first
      have hframed := c.chunkSize.sealed_lt
      rw [hpieces] at hbytes
      rw [← hpiece] at hlarge ⊢
      exact other.delivers_decrypt_of_too_long k hsource hbytes hlarge (by omega)

/-- Pieces of different lengths, an empty one among them, are all taken. -/
theorem chunk_format_exact_uneven : ([1, 2, 3] : Bytes).length < UInt64.size ∧
    ∀ (k : SegmentKeys) (source : Source), source.fault = none →
      source.bytes = ChunkCipher.ciphertext k [[1], [], [2, 3]] →
      ((ChunkCipher.mk ⟨2, by decide, by decide⟩).decrypt k source).Delivers (.ok 3) [1, 2, 3] := by
  refine ⟨by decide, ?_⟩
  intro k source hsource hbytes
  have htext : ([1, 2, 3] : Bytes).length < UInt64.size := by decide
  obtain ⟨hdecrypt, -⟩ := chunk_format_exact k htext
  rw [hdecrypt _ source hsource]
  exact ⟨rfl, ⟨[[1], [], [2, 3]], by simp, by simp, by decide, rfl⟩, hbytes⟩

end SealedEnvelope
