import SealedEnvelope.Proofs.Segment.ChunkFormat
import SealedEnvelope.Proofs.Segment.StreamFormat

/-!
Tampering with a segmented ciphertext. As long as nothing is accepted that was not
encrypted with the text, decryption follows the encrypted segments: it writes whole
pieces of the text, and ends well only with the ciphertext itself.
-/

namespace SealedEnvelope

theorem Gcm.encrypt_inj {key : Octets 32} {nonce : Octets 12} {ad text text' : Bytes}
    (h : Gcm.encrypt key nonce ad text = Gcm.encrypt key nonce ad text') : text = text' := by
  have hopened := Gcm.decrypt_eq_some_iff.mpr h
  rw [Gcm.decrypt_eq_some_iff.mpr rfl] at hopened
  exact Option.some.inj hopened

/-- How segments are read: a whole text, of which the last is flagged, or the segments before a
failure, none of which is known to be the last. -/
inductive SegmentRun.OfBlocks : SegmentRun → Prop
  | whole (blocks : List Bytes) : OfBlocks ⟨flagLast blocks, none⟩
  | broken (blocks : List Bytes) (failure : Failure) :
      OfBlocks ⟨blocks.map (Segment.mk false), some failure⟩

theorem SegmentRun.OfBlocks.final_eq_false {run : SegmentRun} (h : run.OfBlocks)
    {front rest : List Segment} {segment : Segment}
    (hsegments : run.segments = front ++ segment :: rest) (hrest : rest ≠ []) :
    segment.final = false := by
  cases h with
  | whole blocks =>
      dsimp only at hsegments
      have hpos := List.length_pos_iff.mpr hrest
      have hlength := congrArg List.length hsegments
      rw [List.length_append, List.length_cons] at hlength
      have hplace : front.length < (flagLast blocks).length := by omega
      have hflag := final_flagLast hplace
      rw [decide_eq_false (by omega)] at hflag
      rw [← hflag]
      simp [hsegments]
  | broken blocks failure =>
      dsimp only at hsegments
      have hmem : segment ∈ blocks.map (Segment.mk false) := by
        rw [hsegments]
        exact List.mem_append_right _ List.mem_cons_self
      obtain ⟨block, -, rfl⟩ := List.mem_map.mp hmem
      rfl

namespace SegmentKeys

variable (k : SegmentKeys)

theorem prefix_of_encryptFrom {i : Nat} {plain plain' : List Segment}
    (h : k.encryptFrom i plain <+: k.encryptFrom i plain') : plain <+: plain' := by
  induction plain generalizing i plain' with
  | nil => exact List.nil_prefix
  | cons segment plain ih =>
      cases plain' with
      | nil => exact absurd (List.prefix_nil.mp h) (by simp [encryptFrom])
      | cons segment' plain' =>
          rw [encryptFrom, encryptFrom, List.cons_prefix_cons] at h
          obtain ⟨hfirst, hrest⟩ := h
          obtain ⟨final, text⟩ := segment
          obtain ⟨final', text'⟩ := segment'
          obtain ⟨hfinal, htext⟩ := Segment.mk.inj hfirst
          dsimp only at hfinal htext
          subst hfinal
          obtain rfl := Gcm.encrypt_inj htext
          exact List.cons_prefix_cons.mpr ⟨rfl, ih hrest⟩

/-- A decryption that accepts no piece but those of an encrypted text writes pieces of the text from
the first on. It has read just the encrypted segments, or it fails as reading did or because the
next segment does not authenticate. -/
theorem decryptRun_of_sealed (operation : Operation) {pieces : List Bytes} (hne : pieces ≠ [])
    (hfits : Fits 0 (flagLast pieces)) {run : SegmentRun} (hrun : run.OfBlocks)
    (hsealed : ∀ piece ∈ k.acceptedFrom 0 run.segments,
      piece ∈ k.pieces 0 (k.encryptFrom 0 (flagLast pieces))) :
    ∃ j, (k.decryptRun operation run).bytes = (pieces.take j).flatten ∧
      (run = ⟨k.encryptFrom 0 (flagLast pieces), none⟩ ∨
        (∃ failure, run.failure = some failure ∧
          (k.decryptRun operation run).ending = .error failure) ∨
        (k.decryptRun operation run).ending = .error (.authenticationFailed operation)) := by
  obtain ⟨plain, rest, hsegments, ⟨-, hcount⟩, haccepted, hbytes, hend⟩ :=
    k.decryptRun_cases operation run
  have hfitsCount := hfits.2
  rw [haccepted] at hsealed
  rw [Nat.zero_add] at hcount hfitsCount
  -- The accepted segments are those of the text, in order.
  have hprefix : k.encryptFrom 0 plain <+: k.encryptFrom 0 (flagLast pieces) := by
    apply k.prefix_of_pieces _ _ hsealed
    · rw [length_encryptFrom]
      exact hfitsCount
    · rw [length_encryptFrom]
      exact hcount
  have hplain := k.prefix_of_encryptFrom hprefix
  refine ⟨plain.length, ?_, ?_⟩
  · rw [hbytes, List.flatMap_def]
    congr 1
    calc plain.map Segment.text
        = ((flagLast pieces).take plain.length).map Segment.text := by
          rw [← List.prefix_iff_eq_take.mp hplain]
      _ = pieces.take plain.length := by rw [List.map_take, map_text_flagLast hne]
  · rcases hend with ⟨rfl, hending⟩ | ⟨-, -, hending⟩ | ⟨hrest, hlast, -⟩
    · rw [List.append_nil] at hsegments
      cases hrun with
      | whole blocks =>
          left
          dsimp only at hsegments
          rw [← k.flagLast_sealedPieces hne, ← hsegments] at hprefix
          rw [flagLast_eq_of_front hprefix, k.flagLast_sealedPieces hne]
      | broken blocks failure => exact .inr (.inl ⟨failure, rfl, hending⟩)
    · exact .inr (.inr hending)
    · -- All numbers are used up only by the last piece of the text, which is flagged as such.
      have hall : plain = flagLast pieces := hplain.eq_of_length (by
        have hle := hplain.length_le
        omega)
      obtain ⟨front, last, rfl⟩ := (List.eq_nil_or_concat' pieces).resolve_left hne
      rw [hall, flagLast_concat, encryptFrom_append, List.append_assoc] at hsegments
      have hflag := hrun.final_eq_false hsegments hrest
      cases hflag

end SegmentKeys

/-- The two ways to encrypt a text in segments. -/
inductive SegmentedCipher where
  | stream (cipher : StreamCipher)
  | chunk (cipher : ChunkCipher)

namespace SegmentedCipher

def size : SegmentedCipher → SegmentSize
  | .stream cipher => cipher.bufferSize
  | .chunk cipher => cipher.chunkSize

def encrypt (k : SegmentKeys) (source : Source) : SegmentedCipher → Emission Nat
  | .stream cipher => cipher.encrypt k source
  | .chunk cipher => cipher.encrypt k source

def decrypt (k : SegmentKeys) (source : Source) : SegmentedCipher → Emission Nat
  | .stream cipher => (cipher.decrypt k source).1
  | .chunk cipher => cipher.decrypt k source

/-- The operation that a decryption is blamed on. -/
def decryption : SegmentedCipher → Operation
  | .stream _ => .streamDecrypt
  | .chunk _ => .chunkDecrypt

/-- The failures of a decryption whose input is to blame. -/
def Refuses : SegmentedCipher → Failure → Prop
  | .stream _ => fun failure => failure = .authenticationFailed .streamDecrypt
  | .chunk _ => ChunkCipher.Refuses

/-- The segments that a ciphertext is taken apart into. -/
def runOf (bytes : Bytes) : SegmentedCipher → SegmentRun
  | .stream cipher => ⟨flagLast (Bytes.cut (cipher.bufferSize.val + 16) bytes), none⟩
  | .chunk cipher => ChunkCipher.chunksFrom cipher.chunkSize 0 bytes

/-- What a segment becomes in the ciphertext. -/
def wrap : SegmentedCipher → Bytes → Bytes
  | .stream _ => id
  | .chunk _ => ChunkCipher.frame

/-- The pieces of plain text that a text is encrypted in. -/
def plainPieces (text : Bytes) (c : SegmentedCipher) : List Bytes :=
  (Cutting.fewest c.size text).pieces

/-- What is encrypted with a text. -/
def sealedPieces (k : SegmentKeys) (text : Bytes) (c : SegmentedCipher) : List Piece :=
  k.pieces 0 (k.encryptFrom 0 (flagLast (c.plainPieces text)))

/-- What the decryption of a ciphertext opens and accepts, up to the first piece that it does not
accept. -/
def acceptedPieces (k : SegmentKeys) (bytes : Bytes) (c : SegmentedCipher) : List Piece :=
  k.acceptedFrom 0 (c.runOf bytes).segments

variable (c : SegmentedCipher) (k : SegmentKeys)

theorem plainPieces_ne_nil (text : Bytes) : c.plainPieces text ≠ [] :=
  Cutting.pieces_ne_nil _

/-- Encryption succeeds on what fits, and gives the encrypted pieces in the form of the cipher. -/
theorem delivers_encrypt_iff {source : Source} {n : Nat} {ciphertext : Bytes} :
    (c.encrypt k source).Delivers (.ok n) ciphertext ↔
      source.fault = none ∧ SegmentKeys.Fits 0 (flagLast (c.plainPieces source.bytes)) ∧
        ciphertext = (k.encryptFrom 0 (flagLast (c.plainPieces source.bytes))).flatMap
          (fun s => c.wrap s.text) ∧
        n = source.bytes.length := by
  cases c with
  | stream cipher =>
      refine (cipher.delivers_encrypt_iff k).trans ?_
      rw [StreamCipher.ciphertext_eq k (Cutting.pieces_ne_nil _)]
      rfl
  | chunk cipher =>
      refine (cipher.delivers_encrypt_iff k).trans ?_
      rw [ChunkCipher.ciphertext_eq k (Cutting.pieces_ne_nil _)]
      rfl

theorem decrypt_eq {source : Source} (h : source.fault = none) :
    c.decrypt k source = k.decryptRun c.decryption (c.runOf source.bytes) := by
  cases c with
  | stream cipher =>
      obtain ⟨last, hdecrypt, -⟩ := cipher.decrypt_eq Source.view k ⟨rfl, h⟩
      exact congrArg Prod.fst hdecrypt
  | chunk cipher => exact cipher.decrypt_eq k Source.view ⟨rfl, h⟩

/-- The pieces that are accepted are those whose texts are written. -/
theorem bytes_decrypt {source : Source} (h : source.fault = none) :
    ∃ opened, c.acceptedPieces k source.bytes = k.pieces 0 (k.encryptFrom 0 opened) ∧
      (c.decrypt k source).bytes = opened.flatMap Segment.text := by
  obtain ⟨opened, rest, -, -, haccepted, hbytes, -⟩ :=
    k.decryptRun_cases c.decryption (c.runOf source.bytes)
  rw [c.decrypt_eq k h]
  exact ⟨opened, haccepted, hbytes⟩

theorem refuses_authenticationFailed : c.Refuses (.authenticationFailed c.decryption) := by
  cases c <;> rfl

/-- A ciphertext consists of segments throughout, or reading it is refused. -/
theorem runOf_cases (bytes : Bytes) :
    (c.runOf bytes).OfBlocks ∧
      ((c.runOf bytes).failure = none →
        bytes = (c.runOf bytes).segments.flatMap (fun s => c.wrap s.text)) ∧
      ∀ failure, (c.runOf bytes).failure = some failure → c.Refuses failure := by
  cases c with
  | stream cipher =>
      refine ⟨.whole _, fun _ => ?_, ?_⟩
      · change bytes = (flagLast (Bytes.cut (cipher.bufferSize.val + 16) bytes)).flatMap
          Segment.text
        rw [text_flagLast, Bytes.flatten_cut (by omega)]
      · rintro failure ⟨⟩
  | chunk cipher =>
      rw [runOf]
      rcases ChunkCipher.chunksFrom_cases cipher.chunkSize 0 bytes with
        ⟨blocks, hne, -, hbytes, hrun⟩ | ⟨blocks, failure, hrefuses, hrun⟩
      · rw [hrun]
        refine ⟨.whole _, fun _ => ?_, ?_⟩
        · rw [hbytes, wrap]
          conv_lhs => rw [← map_text_flagLast hne, List.flatMap_map]
        · rintro failure ⟨⟩
      · rw [hrun]
        refine ⟨.broken _ _, ?_, ?_⟩
        · rintro ⟨⟩
        · rintro _ ⟨⟩
          exact hrefuses

end SegmentedCipher

/-- Truncation, reordering, repetition, extension and corruption are detected. Whatever is
decrypted in place of a ciphertext, either a piece has been accepted that was not encrypted with
the text, or decryption succeeds only on the ciphertext itself, answers everything else with a
failure that blames the input, and has written whole pieces from the front of the text. -/
theorem segment_tampering_detected (c : SegmentedCipher) (k : SegmentKeys) {plain : Source}
    {n : Nat} {ciphertext : Bytes} (hencrypt : (c.encrypt k plain).Delivers (.ok n) ciphertext)
    {source : Source} (hsource : source.fault = none) :
    (∃ piece ∈ c.acceptedPieces k source.bytes, piece ∉ c.sealedPieces k plain.bytes) ∨
      ∃ result written, (c.decrypt k source).Delivers result written ∧
        ((∃ m, result = .ok m) → source.bytes = ciphertext) ∧
        (source.bytes ≠ ciphertext → ∃ failure, result = .error failure ∧ c.Refuses failure) ∧
        written <+: plain.bytes ∧
        ∃ j, written = ((c.plainPieces plain.bytes).take j).flatten := by
  by_cases hforged : ∃ piece ∈ c.acceptedPieces k source.bytes, piece ∉ c.sealedPieces k plain.bytes
  · exact .inl hforged
  right
  push Not at hforged
  obtain ⟨-, hfits, hciphertext, -⟩ := (c.delivers_encrypt_iff k).mp hencrypt
  obtain ⟨hblocks, hwhole, hbroken⟩ := c.runOf_cases source.bytes
  obtain ⟨j, hwritten, hend⟩ := k.decryptRun_of_sealed c.decryption (c.plainPieces_ne_nil _)
    hfits hblocks hforged
  rw [← c.decrypt_eq k hsource] at hwritten hend
  have hfront : (c.decrypt k source).bytes <+: plain.bytes := by
    rw [hwritten]
    have hpieces : (c.plainPieces plain.bytes).flatten = plain.bytes := Cutting.flatten_pieces _
    conv_rhs => rw [← hpieces, ← List.take_append_drop j (c.plainPieces plain.bytes),
      List.flatten_append]
    exact List.prefix_append _ _
  refine ⟨_, _, Emission.delivers_iff.mpr ⟨rfl, rfl⟩, ?_, ?_, hfront, j, hwritten⟩
  · rintro ⟨m, hok⟩
    rcases hend with hrun | ⟨failure, -, hending⟩ | hending
    · rw [hwhole (by rw [hrun]), hrun, hciphertext]
    · cases hok.symm.trans hending
    · cases hok.symm.trans hending
  · intro hother
    rcases hend with hrun | ⟨failure, hfailure, hending⟩ | hending
    · rw [hwhole (by rw [hrun]), hrun, hciphertext] at hother
      exact absurd rfl hother
    · exact ⟨failure, hending, hbroken failure hfailure⟩
    · exact ⟨_, hending, c.refuses_authenticationFailed⟩

/-- A ciphertext cut within its first tag is refused, and what has been written is from the front
of the text. -/
theorem segment_tampering_detected_cut : ∃ ciphertext : Bytes,
    ((SegmentedCipher.stream ⟨⟨4, by decide, by decide⟩⟩).encrypt .zero
        (.ofBytes [1, 2, 3, 4, 5])).Delivers (.ok 5) ciphertext ∧
      ∃ written, ((SegmentedCipher.stream ⟨⟨4, by decide, by decide⟩⟩).decrypt .zero
          (.ofBytes (ciphertext.take 15))).Delivers
            (.error (.authenticationFailed .streamDecrypt)) written ∧
        written <+: [1, 2, 3, 4, 5] := by
  let cipher : StreamCipher := ⟨⟨4, by decide, by decide⟩⟩
  have htext : (Source.ofBytes [1, 2, 3, 4, 5]).bytes = [1, 2, 3, 4, 5] := Source.bytes_ofBytes _
  have hfault : (Source.ofBytes [1, 2, 3, 4, 5]).fault = none := rfl
  have hencrypt := cipher.delivers_encrypt .zero hfault (by rw [htext]; decide)
  rw [htext] at hencrypt
  refine ⟨_, hencrypt, ?_⟩
  have hlength := StreamCipher.length_ciphertext .zero (Cutting.fewest cipher.bufferSize
    [1, 2, 3, 4, 5]).pieces_ne_nil
  rw [Cutting.flatten_pieces, Cutting.length_pieces_fewest] at hlength
  generalize StreamCipher.ciphertext .zero _ = ciphertext at hencrypt hlength ⊢
  have hlong : ciphertext.length = 37 := by simpa [cipher] using hlength
  have hfront : (ciphertext.take 15).length = 15 := List.length_take_of_le (by omega)
  have hcut : (Source.ofBytes (ciphertext.take 15)).bytes = ciphertext.take 15 :=
    Source.bytes_ofBytes _
  rcases segment_tampering_detected (.stream cipher) .zero hencrypt
    (rfl : (Source.ofBytes (ciphertext.take 15)).fault = none) with
    ⟨piece, haccepted, -⟩ | ⟨result, written, hdelivers, -, hother, hwritten, -⟩
  · have hrun : ((SegmentedCipher.stream cipher).runOf (ciphertext.take 15)).segments =
        [⟨true, ciphertext.take 15⟩] := by
      have hblocks : Bytes.cut 20 (ciphertext.take 15) = [ciphertext.take 15] :=
        Bytes.cut_of_length_le (List.ne_nil_of_length_pos (by omega)) (by omega)
      exact congrArg flagLast hblocks
    have hshort : (ciphertext.take 15).length < 16 := by omega
    rw [hcut, SegmentedCipher.acceptedPieces, hrun,
      SegmentKeys.zero.acceptedFrom_of_refused (by decide) (Piece.opens_of_short hshort)] at haccepted
    cases haccepted
  · obtain ⟨failure, rfl, rfl⟩ := hother (by
      rw [hcut]
      intro hsame
      have hdifferent := congrArg List.length hsame
      omega)
    exact ⟨written, hdelivers, by rwa [htext] at hwritten⟩

end SealedEnvelope
