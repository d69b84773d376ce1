import SealedEnvelope.Proofs.Segment.Cutting
import SealedEnvelope.Proofs.Segment.StreamCipher
import SealedEnvelope.Proofs.Transfer.Delivery

/-!
The format of segments without framing. What is encrypted are the pieces of a cutting,
one after the other, and just the ciphertexts of cuttings are decrypted. So a text has
one ciphertext, or two if it consists of whole pieces.
-/

namespace SealedEnvelope

namespace SegmentKeys

variable (k : SegmentKeys)

theorem length_flatMap_encryptFrom (i : Nat) (segments : List Segment) :
    ((k.encryptFrom i segments).flatMap Segment.text).length =
      (segments.flatMap Segment.text).length + 16 * segments.length := by
  induction segments generalizing i with
  | nil => rfl
  | cons segment rest ih =>
      rw [encryptFrom, List.flatMap_cons, List.flatMap_cons, List.length_append,
        List.length_append, ih, Gcm.length_encrypt, List.length_cons]
      omega

end SegmentKeys

namespace StreamCipher

/-- Encrypted pieces, one after the other. -/
def ciphertext (k : SegmentKeys) (pieces : List Bytes) : Bytes := (k.sealedPieces pieces).flatten

variable (c : StreamCipher) (k : SegmentKeys)

theorem ciphertext_eq {pieces : List Bytes} (h : pieces ≠ []) :
    ciphertext k pieces = (k.encryptFrom 0 (flagLast pieces)).flatMap Segment.text := by
  rw [ciphertext, ← k.map_text_encryptFrom h, List.flatMap_def]

theorem length_ciphertext {pieces : List Bytes} (h : pieces ≠ []) :
    (ciphertext k pieces).length = pieces.flatten.length + 16 * pieces.length := by
  rw [ciphertext_eq k h, k.length_flatMap_encryptFrom, text_flagLast, length_flagLast h]

/-- The encryptor cuts a text into as few pieces as possible. -/
theorem delivers_encrypt_iff {source : Source} {n : Nat} {bytes : Bytes} :
    (c.encrypt k source).Delivers (.ok n) bytes ↔
      source.fault = none ∧
        SegmentKeys.Fits 0 (flagLast (Cutting.fewest c.bufferSize source.bytes).pieces) ∧
        bytes = ciphertext k (Cutting.fewest c.bufferSize source.bytes).pieces ∧
        n = source.bytes.length := by
  rw [Emission.delivers_ok_iff, encrypt, collect_encryptRun_plainRun, Cutting.flagLast_cut,
    ciphertext_eq k (Cutting.pieces_ne_nil _)]

theorem delivers_encrypt {source : Source} (hsource : source.fault = none)
    (htext : source.bytes.length < UInt64.size) :
    (c.encrypt k source).Delivers (.ok source.bytes.length)
      (ciphertext k (Cutting.fewest c.bufferSize source.bytes).pieces) :=
  (c.delivers_encrypt_iff k).mpr ⟨hsource, Cutting.fits _ htext, rfl, rfl⟩

/-- Segments that come out as encrypted ones are the pieces of a cutting. -/
theorem exists_cutting_of_segments {size : SegmentSize} {bytes : Bytes} {plain : List Segment}
    (h : flagLast (Bytes.cut (size.val + 16) bytes) = k.encryptFrom 0 plain) :
    ∃ cutting : Cutting size (plain.flatMap Segment.text),
      plain = flagLast cutting.pieces ∧ bytes = ciphertext k cutting.pieces := by
  have hbytes : bytes = (k.encryptFrom 0 plain).flatMap Segment.text := by
    rw [← h, text_flagLast, Bytes.flatten_cut (by omega)]
  -- Each segment holds a tag at least, so there is something to cut.
  have hnil : bytes ≠ [] := by
    apply List.ne_nil_of_length_pos
    have hpos := List.length_pos_iff.mpr (flagLast_ne_nil (Bytes.cut (size.val + 16) bytes))
    rw [h, k.length_encryptFrom] at hpos
    rw [hbytes, k.length_flatMap_encryptFrom]
    omega
  obtain ⟨full, last, hcut, hfull, -, hlast⟩ :=
    Bytes.exists_cut_eq (by omega : 0 < size.val + 16) hnil
  obtain ⟨pieces, hne, rfl, hblocks⟩ := k.exists_pieces (by simp [hcut]) h
  have hlengths : pieces.map (fun piece => piece.length + 16) =
      full.map List.length ++ [last.length] := by
    rw [← k.map_length_sealedPieces, ← hblocks, hcut, List.map_append, List.map_singleton]
  obtain ⟨front, back, rfl, hfront, hback⟩ := List.map_eq_append_iff.mp hlengths
  obtain ⟨piece, rfl, hpiece⟩ := List.map_eq_singleton_iff.mp hback
  have hall : ∀ piece ∈ front, piece.length = size.val := by
    intro piece hmem
    have hlength : piece.length + 16 ∈ full.map List.length := by
      rw [← hfront]
      exact List.mem_map_of_mem hmem
    obtain ⟨block, hblock, heq⟩ := List.mem_map.mp hlength
    have hsize := hfull block hblock
    omega
  refine ⟨⟨front, piece, hall, by omega, by simp [text_flagLast]⟩, rfl, ?_⟩
  rw [ciphertext, Cutting.pieces, ← hblocks, Bytes.flatten_cut (by omega)]

/-- What is decrypted are the ciphertexts of cuttings. -/
theorem delivers_decrypt_iff {source : Source} (hsource : source.fault = none) {text : Bytes}
    (htext : text.length < UInt64.size) {n : Nat} :
    (c.decrypt k source).1.Delivers (.ok n) text ↔
      n = text.length ∧ ∃ cutting : Cutting c.bufferSize text,
        source.bytes = ciphertext k cutting.pieces := by
  obtain ⟨last, hdecrypt, -⟩ := decrypt_eq Source.view c k ⟨rfl, hsource⟩
  rw [hdecrypt, Emission.delivers_ok_iff, collect_decryptBytes]
  constructor
  · rintro ⟨plain, hsegments, -, rfl, rfl⟩
    obtain ⟨cutting, -, hbytes⟩ := exists_cutting_of_segments k hsegments
    exact ⟨rfl, cutting, hbytes⟩
  · rintro ⟨rfl, cutting, hbytes⟩
    refine ⟨flagLast cutting.pieces, ?_, cutting.fits htext, ?_, rfl⟩
    · rw [hbytes, ciphertext_eq k cutting.pieces_ne_nil, Cutting.pieces,
        k.cut_encryptFrom cutting.length_full cutting.length_last]
      exact flagLast_map_text (k.map_final_encryptFrom 0 _)
    · rw [text_flagLast, cutting.flatten_pieces]

end StreamCipher

open StreamCipher in
/-- The format of a text in segments. It is encrypted in as few pieces as possible and only the
last is flagged; a ciphertext is decrypted just if it is that of a cutting; and besides its own
ciphertext a text has one more if it consists of whole pieces, which ends with an empty one. -/
theorem stream_format_exact (c : StreamCipher) (k : SegmentKeys) {text : Bytes}
    (htext : text.length < UInt64.size) :
    (Cutting.fewest c.bufferSize text).pieces.length =
        max 1 ((text.length + c.bufferSize.val - 1) / c.bufferSize.val) ∧
      (ciphertext k (Cutting.fewest c.bufferSize text).pieces).length =
        text.length + 16 * max 1 ((text.length + c.bufferSize.val - 1) / c.bufferSize.val) ∧
      (∀ source : Source, source.bytes = text → source.fault = none →
        (c.encrypt k source).Delivers (.ok text.length)
          (ciphertext k (Cutting.fewest c.bufferSize text).pieces)) ∧
      (∀ source : Source, source.fault = none → ∀ n,
        (c.decrypt k source).1.Delivers (.ok n) text ↔
          n = text.length ∧ ∃ cutting : Cutting c.bufferSize text,
            source.bytes = ciphertext k cutting.pieces) ∧
      (∀ source : Source, source.fault = none → ∀ n,
        (c.decrypt k source).1.Delivers (.ok n) text ↔
          n = text.length ∧
            (source.bytes = ciphertext k (Cutting.fewest c.bufferSize text).pieces ∨
              text ≠ [] ∧ c.bufferSize.val ∣ text.length ∧
                source.bytes =
                  ciphertext k ((Cutting.fewest c.bufferSize text).pieces ++ [[]]))) ∧
      ciphertext k ((Cutting.fewest c.bufferSize text).pieces ++ [[]]) ≠
        ciphertext k (Cutting.fewest c.bufferSize text).pieces := by
  have hcount := Cutting.length_pieces_fewest c.bufferSize text
  have hlength := length_ciphertext k (Cutting.fewest c.bufferSize text).pieces_ne_nil
  rw [Cutting.flatten_pieces] at hlength
  refine ⟨hcount, by rw [hlength, hcount], ?_, ?_, ?_, ?_⟩
  · rintro source rfl hsource
    exact c.delivers_encrypt k hsource htext
  · exact fun source hsource n => c.delivers_decrypt_iff k hsource htext
  · intro source hsource n
    rw [c.delivers_decrypt_iff k hsource htext]
    refine and_congr_right fun _ => ?_
    constructor
    · rintro ⟨cutting, hbytes⟩
      rcases cutting.eq_fewest_or with rfl | ⟨hne, hdvd, rfl⟩
      · exact .inl hbytes
      · exact .inr ⟨hne, hdvd, hbytes⟩
    · rintro (hbytes | ⟨hne, hdvd, hbytes⟩)
      · exact ⟨_, hbytes⟩
      · exact ⟨Cutting.withEmptyEnd hne hdvd, hbytes⟩
  · intro hsame
    have hlonger := length_ciphertext k
      (List.append_ne_nil_of_right_ne_nil (Cutting.fewest c.bufferSize text).pieces
        (List.cons_ne_nil [] []))
    rw [hsame, hlength, List.flatten_append, Cutting.flatten_pieces] at hlonger
    simp at hlonger

/-- A text of one whole piece has two ciphertexts. -/
theorem stream_format_exact_whole : ([1, 2, 3, 4] : Bytes).length < UInt64.size ∧
    ∀ (k : SegmentKeys) (source : Source), source.fault = none →
      (((StreamCipher.mk ⟨4, by decide, by decide⟩).decrypt k source).1.Delivers (.ok 4)
          [1, 2, 3, 4] ↔
        source.bytes = Gcm.encrypt k.key (segmentNonce k.nonce 0 true) k.ad [1, 2, 3, 4] ∨
          source.bytes = Gcm.encrypt k.key (segmentNonce k.nonce 0 false) k.ad [1, 2, 3, 4] ++
            Gcm.encrypt k.key (segmentNonce k.nonce 1 true) k.ad []) := by
  have hcut : Bytes.cut 4 [1, 2, 3, 4] = [[1, 2, 3, 4]] :=
    Bytes.cut_of_length_le (by decide) (by decide)
  have hpieces : (Cutting.fewest ⟨4, by decide, by decide⟩ [1, 2, 3, 4]).pieces =
      [[1, 2, 3, 4]] := by
    simp [Cutting.pieces, Cutting.fewest, hcut]
  refine ⟨by decide, ?_⟩
  intro k source hsource
  obtain ⟨-, -, -, -, hexact, -⟩ := stream_format_exact (StreamCipher.mk ⟨4, by decide, by decide⟩)
    k (by decide : ([1, 2, 3, 4] : Bytes).length < UInt64.size)
  rw [hexact source hsource, hpieces]
  simp [StreamCipher.ciphertext, SegmentKeys.sealedPieces]

end SealedEnvelope
