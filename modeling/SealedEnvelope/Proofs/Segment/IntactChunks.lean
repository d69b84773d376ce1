import SealedEnvelope.Proofs.Segment.ChunkFormat

/-!
What chunked decryption has written when it meets something bad behind intact chunks.
All of these have been written if a length can be read behind them, whatever it is. Where
the input ends within that length, decryption stops before it opens the last of them.
-/

namespace SealedEnvelope

namespace SegmentKeys

variable (k : SegmentKeys) {pieces : List Bytes} {j : Nat}

/-- Before the last piece no flag is set. -/
theorem map_take_sealedPieces (hj : j < pieces.length) :
    ((k.sealedPieces pieces).take j).map (Segment.mk false) =
      k.encryptFrom 0 ((pieces.take j).map (Segment.mk false)) := by
  apply List.ext_getElem?
  intro i
  rw [List.getElem?_map, List.getElem?_take, k.getElem?_encryptFrom, List.getElem?_map,
    List.getElem?_take]
  by_cases hi : i < j
  · have hfinal : decide (i + 1 = pieces.length) = false := decide_eq_false (by omega)
    rw [if_pos hi, if_pos hi, sealedPieces, List.getElem?_mapIdx, hfinal, Nat.zero_add]
    cases pieces[i]? <;> rfl
  · rw [if_neg hi, if_neg hi]
    rfl

/-- Encrypted pieces before the last are opened before what comes behind them. -/
theorem decryptRun_of_intact (operation : Operation) (hj : j < pieces.length)
    (hfits : Fits 0 (flagLast pieces)) (later : List Segment) (failure : Option Failure) :
    (k.decryptRun operation
        ⟨((k.sealedPieces pieces).take j).map (Segment.mk false) ++ later, failure⟩).bytes =
        (pieces.take j).flatten ++ (k.decryptFrom operation j later).bytes ∧
      (k.decryptRun operation
          ⟨((k.sealedPieces pieces).take j).map (Segment.mk false) ++ later, failure⟩).ending =
        (k.decryptFrom operation j later).ending >>= fun n =>
          match failure with
          | some failure => .error failure
          | none => .ok ((pieces.take j).flatten.length + n) := by
  have hne : pieces ≠ [] := List.ne_nil_of_length_pos (by omega)
  obtain ⟨hshort, hcount⟩ := hfits
  rw [length_flagLast hne] at hcount
  have hlength : ((pieces.take j).map (Segment.mk false)).length = j := by
    rw [List.length_map, List.length_take_of_le hj.le]
  have htexts : ((pieces.take j).map (Segment.mk false)).flatMap Segment.text =
      (pieces.take j).flatten := by
    rw [List.flatMap_map, List.flatMap_id']
  have hfront : Fits 0 ((pieces.take j).map (Segment.mk false)) := by
    refine ⟨?_, by omega⟩
    intro segment hsegment
    obtain ⟨piece, hpiece, rfl⟩ := List.mem_map.mp hsegment
    have hmem := List.mem_of_mem_take hpiece
    rw [← map_text_flagLast hne] at hmem
    obtain ⟨whole, hwhole, rfl⟩ := List.mem_map.mp hmem
    exact hshort whole hwhole
  rw [k.map_take_sealedPieces hj]
  have hsegments : (SegmentRun.mk
      (k.encryptFrom 0 ((pieces.take j).map (Segment.mk false)) ++ later) failure).segments =
        k.encryptFrom 0 ((pieces.take j).map (Segment.mk false)) ++ later := rfl
  obtain ⟨hbytes, hending⟩ := decryptRun_of_front operation hsegments hfront (fun _ => by omega)
  rw [hlength, htexts] at hbytes hending
  exact ⟨hbytes, hending⟩

end SegmentKeys

namespace ChunkCipher

variable (c : ChunkCipher) (k : SegmentKeys) {pieces : List Bytes} {j : Nat} {rest : Bytes}
  {source : Source}

/-- Where a length can be read behind intact chunks, they have all been written. -/
theorem delivers_decrypt_of_intact (hshort : ∀ piece ∈ pieces, piece.length ≤ c.chunkSize.val)
    (hfits : SegmentKeys.Fits 0 (flagLast pieces)) (hj : j < pieces.length)
    (hsource : source.fault = none)
    (hbytes : source.bytes = ((k.sealedPieces pieces).take j).flatMap frame ++ rest)
    (hrest : 4 ≤ rest.length) :
    ∃ result more, (c.decrypt k source).Delivers result ((pieces.take j).flatten ++ more) := by
  have hadmits : ∀ block ∈ (k.sealedPieces pieces).take j, c.chunkSize.Admits block :=
    fun block hblock => admits_sealedPieces k hshort block (List.mem_of_mem_take hblock)
  rw [decrypt_eq c k Source.view ⟨rfl, hsource⟩, hbytes, chunksFrom_append hadmits hrest]
  exact ⟨_, _, Emission.delivers_iff.mpr
    ⟨rfl, (k.decryptRun_of_intact .chunkDecrypt hj hfits _ _).1⟩⟩

/-- Where the input ends within the length behind intact chunks, the last of them is withheld. -/
theorem delivers_decrypt_of_cut (hshort : ∀ piece ∈ pieces, piece.length ≤ c.chunkSize.val)
    (hfits : SegmentKeys.Fits 0 (flagLast pieces)) (hj : j < pieces.length)
    (hsource : source.fault = none)
    (hbytes : source.bytes = ((k.sealedPieces pieces).take j).flatMap frame ++ rest)
    (hne : rest ≠ []) (hrest : rest.length < 4) :
    (c.decrypt k source).Delivers
      (.error (.invalidFormat (.chunkLengthTruncated rest.length)))
      (pieces.take (j - 1)).flatten := by
  have hrun : chunksFrom c.chunkSize 0 source.bytes =
      ⟨((k.sealedPieces pieces).take (j - 1)).map (Segment.mk false),
        some (.invalidFormat (.chunkLengthTruncated rest.length))⟩ := by
    rw [hbytes]
    cases j with
    | zero => exact chunksFrom_of_error (firstBlock_of_lt hne hrest)
    | succ j =>
        have hblocks : j < (k.sealedPieces pieces).length := by
          rw [SegmentKeys.sealedPieces, List.length_mapIdx]
          omega
        rw [List.take_succ_eq_append_getElem hblocks]
        apply chunksFrom_cut _ hne hrest
        intro block hblock
        rw [← List.take_succ_eq_append_getElem hblocks] at hblock
        exact admits_sealedPieces k hshort block (List.mem_of_mem_take hblock)
  have hdecrypt := k.decryptRun_of_intact .chunkDecrypt (by omega : j - 1 < pieces.length) hfits []
    (some (.invalidFormat (.chunkLengthTruncated rest.length)))
  rw [List.append_nil, ← hrun, ← decrypt_eq c k Source.view ⟨rfl, hsource⟩] at hdecrypt
  obtain ⟨hwritten, hending⟩ := hdecrypt
  exact Emission.delivers_iff.mpr ⟨hending, hwritten.trans (List.append_nil _)⟩

end ChunkCipher

open ChunkCipher in
/-- What chunked decryption writes before it fails. Behind the first chunks of a ciphertext anything
may follow. They have all been written if at least a length follows. If less follows, decryption
fails for that reason, and the last intact chunk has not been written. -/
theorem intact_chunks_delivered (c : ChunkCipher) (k : SegmentKeys) {plain : Source} {n : Nat}
    {ciphertext : Bytes} (hencrypt : (c.encrypt k plain).Delivers (.ok n) ciphertext) :
    let pieces := (Cutting.fewest c.chunkSize plain.bytes).pieces
    ciphertext = (k.sealedPieces pieces).flatMap frame ∧
      ∀ j < pieces.length, ∀ rest ≠ [], ∀ source : Source, source.fault = none →
        source.bytes = ((k.sealedPieces pieces).take j).flatMap frame ++ rest →
        (4 ≤ rest.length → ∃ result more,
          (c.decrypt k source).Delivers result ((pieces.take j).flatten ++ more)) ∧
        (rest.length < 4 → (c.decrypt k source).Delivers
          (.error (.invalidFormat (.chunkLengthTruncated rest.length)))
          (pieces.take (j - 1)).flatten) := by
  intro pieces
  obtain ⟨-, hfits, hciphertext, -⟩ := (c.delivers_encrypt_iff k).mp hencrypt
  have hshort := (Cutting.fewest c.chunkSize plain.bytes).length_le
  refine ⟨hciphertext, ?_⟩
  intro j hj rest hne source hsource hbytes
  constructor
  · exact c.delivers_decrypt_of_intact k hshort hfits hj hsource hbytes
  · exact c.delivers_decrypt_of_cut k hshort hfits hj hsource hbytes hne

def fourByteChunks : ChunkCipher := ⟨⟨4, by decide, by decide⟩⟩

namespace ChunkCipher

theorem fewest_fiveBytes :
    (Cutting.fewest fourByteChunks.chunkSize [1, 2, 3, 4, 5]).pieces = [[1, 2, 3, 4], [5]] := by
  have hcut : Bytes.cut 4 ([[1, 2, 3, 4]].flatten ++ [5]) = [[1, 2, 3, 4]] ++ [[5]] :=
    Bytes.cut_flatten (by simp) (by decide) (by decide)
  rw [show [[1, 2, 3, 4]].flatten ++ [5] = ([1, 2, 3, 4, 5] : Bytes) from rfl] at hcut
  simp [Cutting.pieces, Cutting.fewest, fourByteChunks, hcut]

/-- Five bytes are encrypted in two chunks. -/
theorem delivers_encrypt_fiveBytes (k : SegmentKeys) :
    (fourByteChunks.encrypt k (Source.ofBytes [1, 2, 3, 4, 5])).Delivers (.ok 5)
      (ciphertext k [[1, 2, 3, 4], [5]]) := by
  have htext : (Source.ofBytes [1, 2, 3, 4, 5]).bytes = [1, 2, 3, 4, 5] := Source.bytes_ofBytes _
  have hfault : (Source.ofBytes [1, 2, 3, 4, 5]).fault = none := rfl
  have hencrypt := fourByteChunks.delivers_encrypt k hfault (by rw [htext]; decide)
  rw [htext, fewest_fiveBytes] at hencrypt
  exact hencrypt

theorem take_ciphertext_fiveBytes (k : SegmentKeys) :
    (ciphertext k [[1, 2, 3, 4], [5]]).take 24 =
      ((k.sealedPieces [[1, 2, 3, 4], [5]]).take 1).flatMap frame := by
  rw [ciphertext, SegmentKeys.sealedPieces, List.mapIdx_cons, List.flatMap_cons]
  rw [List.take_left' (by rw [length_frame, Gcm.length_encrypt]; rfl)]
  simp

end ChunkCipher

open ChunkCipher

/-- The first of two chunks is written although the second is none. -/
theorem intact_chunks_delivered_first : ∃ ciphertext : Bytes,
    (fourByteChunks.encrypt .zero (Source.ofBytes [1, 2, 3, 4, 5])).Delivers (.ok 5) ciphertext ∧
      ∃ result more, (fourByteChunks.decrypt .zero
        (Source.ofBytes (ciphertext.take 24 ++ [0, 0, 0, 0]))).Delivers result
          ([1, 2, 3, 4] ++ more) := by
  have hencrypt := delivers_encrypt_fiveBytes .zero
  refine ⟨_, hencrypt, ?_⟩
  obtain ⟨-, hintact⟩ := intact_chunks_delivered fourByteChunks .zero hencrypt
  rw [Source.bytes_ofBytes, fewest_fiveBytes] at hintact
  obtain ⟨hwritten, -⟩ := hintact 1 (by decide) [0, 0, 0, 0] (by decide)
    (Source.ofBytes ((ciphertext .zero [[1, 2, 3, 4], [5]]).take 24 ++ [0, 0, 0, 0])) rfl
    (by rw [Source.bytes_ofBytes, take_ciphertext_fiveBytes])
  exact hwritten (by decide)

/-- With one byte behind the first of two chunks, not even that chunk is written. So it is not true
that all chunks before a bad one are. -/
theorem intact_chunk_withheld : ∃ ciphertext : Bytes,
    (fourByteChunks.encrypt .zero (Source.ofBytes [1, 2, 3, 4, 5])).Delivers (.ok 5) ciphertext ∧
      ciphertext.take 24 = frame (Gcm.encrypt SegmentKeys.zero.key
        (segmentNonce SegmentKeys.zero.nonce 0 false) [] [1, 2, 3, 4]) ∧
      (fourByteChunks.decrypt .zero (Source.ofBytes (ciphertext.take 24 ++ [0]))).Delivers
        (.error (.invalidFormat (.chunkLengthTruncated 1))) [] ∧
      ¬ [1, 2, 3, 4] <+: ([] : Bytes) := by
  refine ⟨_, delivers_encrypt_fiveBytes .zero, ?_, ?_, by decide⟩
  · rw [take_ciphertext_fiveBytes]
    simp [SegmentKeys.sealedPieces, SegmentKeys.zero]
  · have hshort := (Cutting.fewest fourByteChunks.chunkSize [1, 2, 3, 4, 5]).length_le
    have hfits := (Cutting.fewest fourByteChunks.chunkSize [1, 2, 3, 4, 5]).fits (by decide)
    rw [fewest_fiveBytes] at hshort hfits
    have hbytes : (Source.ofBytes ((ciphertext .zero [[1, 2, 3, 4], [5]]).take 24 ++ [0])).bytes =
        ((SegmentKeys.zero.sealedPieces [[1, 2, 3, 4], [5]]).take 1).flatMap frame ++ [0] := by
      rw [Source.bytes_ofBytes, take_ciphertext_fiveBytes]
    exact fourByteChunks.delivers_decrypt_of_cut .zero hshort hfits (by decide) rfl hbytes
      (by decide) (by decide)

end SealedEnvelope
