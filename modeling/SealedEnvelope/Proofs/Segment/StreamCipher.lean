import SealedEnvelope.Proofs.Segment.Decryption

/-!
Texts encrypted in segments of a fixed size. Cutting the encrypted text gives the
encrypted segments back, so decryption undoes encryption, however the bytes
arrive; and what it does is settled by the bytes alone.
-/

namespace SealedEnvelope

namespace SegmentKeys

variable (k : SegmentKeys) {n : Nat}

/-- An encrypted segment is as much longer than its text as the tag. Joined and cut at that
length, the encrypted segments of full pieces and a last one come out again. -/
theorem cut_encryptFrom {full : List Bytes} {last : Bytes}
    (hfull : ∀ piece ∈ full, piece.length = n) (hlast : last.length ≤ n) (i : Nat) :
    Bytes.cut (n + 16) ((k.encryptFrom i (flagLast (full ++ [last]))).flatMap Segment.text) =
      (k.encryptFrom i (flagLast (full ++ [last]))).map Segment.text := by
  induction full generalizing i with
  | nil =>
      rw [List.nil_append, flagLast, encryptFrom, encryptFrom, List.flatMap_singleton,
        List.map_singleton]
      apply Bytes.cut_of_length_le
      · apply List.ne_nil_of_length_pos
        rw [Gcm.length_encrypt]
        omega
      · rw [Gcm.length_encrypt]
        exact Nat.add_le_add_right hlast 16
  | cons piece full ih =>
      obtain ⟨hpiece, hrest⟩ := List.forall_mem_cons.mp hfull
      rw [List.cons_append, flagLast_cons (by simp), encryptFrom, List.flatMap_cons,
        List.map_cons, Bytes.cut_append (by omega) (by rw [Gcm.length_encrypt, hpiece]), ih hrest]

theorem flagLast_cut_encryptFrom (hn : 0 < n) (i : Nat) (text : Bytes) :
    flagLast (Bytes.cut (n + 16)
        ((k.encryptFrom i (flagLast (Bytes.cut n text))).flatMap Segment.text)) =
      k.encryptFrom i (flagLast (Bytes.cut n text)) := by
  have hcut : ∃ full last, flagLast (Bytes.cut n text) = flagLast (full ++ [last]) ∧
      (∀ piece ∈ full, piece.length = n) ∧ last.length ≤ n := by
    by_cases hnil : text = []
    · exact ⟨[], [], by rw [hnil, Bytes.cut_nil]; rfl, by simp, Nat.zero_le n⟩
    · obtain ⟨full, last, hcut, hfull, -, hlast⟩ := Bytes.exists_cut_eq hn hnil
      exact ⟨full, last, by rw [hcut], hfull, hlast⟩
  obtain ⟨full, last, hsame, hfull, hlast⟩ := hcut
  rw [hsame, k.cut_encryptFrom hfull hlast]
  exact flagLast_map_text (k.map_final_encryptFrom i _)

end SegmentKeys

theorem SegmentRun.collect_emit {segments : List Segment} {operation : Operation}
    {work : UInt64 → Segment → Emission Nat} {bytes : Bytes} {n : Nat} :
    (SegmentRun.emit ⟨segments, none⟩ operation work).collect = .ok (bytes, n) ↔
      (emitSegments work 0 segments).collect = .ok (bytes, n) := by
  rw [Emission.collect_eq_ok, Emission.collect_eq_ok, SegmentRun.bytes_emit,
    SegmentRun.ending_emit]
  cases (emitSegments work 0 segments).ending <;> rfl

/-- A run that ended with a failure to read does not succeed. -/
theorem SegmentRun.collect_emit_of_failure {run : SegmentRun} {failure : Failure}
    (h : run.failure = some failure) {operation : Operation}
    {work : UInt64 → Segment → Emission Nat} {result : Bytes × Nat} :
    (run.emit operation work).collect ≠ .ok result := by
  rw [Ne, Emission.collect_eq_ok, SegmentRun.ending_emit, h]
  cases (emitSegments work 0 run.segments).ending <;> rintro ⟨hending, -⟩ <;> cases hending

section Blocks

variable {ρ : Type} [ByteReader ρ]

/-- What a reader yields, in blocks of `n` bytes and as a run of segments. -/
def blocksRun (operation : Operation) (n : Nat) (r : ρ) : SegmentRun :=
  StreamCipher.segmentRun operation (StreamCipher.readBlocks n r).1
    (StreamCipher.readBlocks n r).2.1

theorem blocksRun_eq (v : ReaderView ρ) (operation : Operation) {n : Nat} (hn : 0 < n) {r : ρ}
    {text : Bytes} (h : v.Holds r text none) :
    blocksRun operation n r = ⟨flagLast (Bytes.cut n text), none⟩ := by
  obtain ⟨last, hblocks, -⟩ := v.readBlocks_eq hn h
  rw [blocksRun, hblocks]
  exact segmentRun_eq _ _

theorem failure_blocksRun (v : ReaderView ρ) (operation : Operation) {n : Nat} (hn : 0 < n) {r : ρ}
    {text : Bytes} {f : IoFault} (h : v.Holds r text (some f)) :
    (blocksRun operation n r).failure = some (.io operation f) := by
  obtain ⟨last, hblocks⟩ := v.readBlocks_of_fault hn h
  rw [blocksRun, hblocks]
  rfl

/-- No segment is longer than a block, whatever the reader does. -/
theorem length_le_of_mem_blocksRun {operation : Operation} {n : Nat} {r : ρ} {segment : Segment}
    (h : segment ∈ (blocksRun operation n r).segments) : segment.text.length ≤ n := by
  have hblocks : segment.text ∈ (StreamCipher.readBlocks n r).1 ∨ segment.text = [] := by
    rw [blocksRun] at h
    cases hfault : (StreamCipher.readBlocks n r).2.1 with
    | some f =>
        rw [hfault] at h
        obtain ⟨block, hblock, rfl⟩ := List.mem_map.mp h
        exact .inl (List.mem_of_mem_dropLast hblock)
    | none =>
        rw [hfault, segmentRun_eq] at h
        exact text_mem_of_mem_flagLast h
  rcases hblocks with hblock | hnil
  · exact StreamCipher.length_le_of_mem_readBlocks hblock
  · rw [hnil]
    exact Nat.zero_le n

/-- The text of a source is encrypted just if the source does not fail and the segments fit. -/
theorem SegmentKeys.collect_emit_blocksRun (k : SegmentKeys) {wrap : Bytes → Bytes}
    {work : UInt64 → Segment → Emission Nat} (hwork : k.Encrypts wrap work)
    {operation : Operation} {size : Nat} (hsize : 0 < size) {source : Source} {bytes : Bytes}
    {n : Nat} :
    ((blocksRun operation size source).emit operation work).collect = .ok (bytes, n) ↔
      source.fault = none ∧ Fits 0 (flagLast (Bytes.cut size source.bytes)) ∧
        bytes = (k.encryptFrom 0 (flagLast (Bytes.cut size source.bytes))).flatMap
          (fun s => wrap s.text) ∧
        n = source.bytes.length := by
  have hholds := source.view_holds
  cases hfault : source.fault with
  | some f =>
      rw [hfault] at hholds
      have hfail := failure_blocksRun Source.view operation hsize hholds
      simp only [reduceCtorEq, false_and, iff_false]
      exact SegmentRun.collect_emit_of_failure hfail
  | none =>
      rw [hfault] at hholds
      rw [blocksRun_eq Source.view operation hsize hholds, SegmentRun.collect_emit]
      refine (k.collect_encrypt hwork (i := 0) (flagLast_ne_nil _) (by decide)).trans ?_
      rw [text_flagLast, Bytes.flatten_cut hsize]
      simp only [true_and]

theorem io_of_failure_blocksRun {operation : Operation} {n : Nat} {r : ρ} {failure : Failure}
    (h : (blocksRun operation n r).failure = some failure) :
    ∃ fault, failure = .io operation fault := by
  rw [blocksRun] at h
  cases hfault : (StreamCipher.readBlocks n r).2.1 with
  | none =>
      rw [hfault] at h
      cases h
  | some fault =>
      rw [hfault] at h
      cases h
      exact ⟨fault, rfl⟩

/-- Segments are numbered by fewer than 64 bits if the text is. -/
theorem fits_blocksRun {operation : Operation} {n : Nat} (hn : 0 < n) (hle : n ≤ maxTextLength)
    {source : Source} (hsource : source.bytes.length < 2 ^ 64) :
    SegmentKeys.Fits 0 (blocksRun operation n source).segments := by
  have hsize : UInt64.size = 2 ^ 64 := rfl
  refine ⟨fun segment hsegment => (length_le_of_mem_blocksRun hsegment).trans hle, ?_⟩
  rw [Nat.zero_add, hsize]
  have hholds := source.view_holds
  cases hfault : source.fault with
  | none =>
      rw [hfault] at hholds
      rw [blocksRun_eq Source.view operation hn hholds]
      have hcut := Bytes.length_cut_le n source.bytes
      by_cases hnil : Bytes.cut n source.bytes = []
      · rw [hnil]
        simp [flagLast]
      · dsimp only
        rw [length_flagLast hnil]
        omega
  | some fault =>
      rw [hfault] at hholds
      obtain ⟨last, hblocks⟩ := Source.view.readBlocks_of_fault hn hholds
      have hcut := Bytes.length_cut_le n (source.bytes.take (source.bytes.length / n * n))
      rw [List.length_take] at hcut
      rw [blocksRun, hblocks]
      simp only [StreamCipher.segmentRun, List.length_map, List.length_dropLast]
      omega

/-- Encryption of segments that fit does not fail. -/
theorem SegmentKeys.exists_ending_of_fits (k : SegmentKeys) {wrap : Bytes → Bytes}
    {work : UInt64 → Segment → Emission Nat} (hwork : k.Encrypts wrap work)
    {segments : List Segment} (hfits : Fits 0 segments) :
    ∃ n, (emitSegments work 0 segments).ending = .ok n := by
  by_cases hnil : segments = []
  · subst hnil
    exact ⟨0, rfl⟩
  · have hcollect := (k.collect_encrypt hwork hnil (by decide)).mpr ⟨hfits, rfl, rfl⟩
    exact ⟨_, (Emission.collect_eq_ok.mp hcollect).1⟩

end Blocks

namespace StreamCipher

variable {ρ : Type} [ByteReader ρ] (v : ReaderView ρ) (c : StreamCipher) (k : SegmentKeys)

theorem plainRun_eq {r : ρ} {text : Bytes} (h : v.Holds r text none) :
    c.plainRun r = ⟨flagLast (Bytes.cut c.bufferSize.val text), none⟩ :=
  blocksRun_eq v .streamEncrypt c.bufferSize.pos h

theorem encrypts_segmentWork :
    k.Encrypts id (segmentWork .streamEncrypt k.sealSegment fun s _ => s.text) := by
  intro index segment bytes n
  rw [collect_segmentWork]
  simp

theorem collect_encryptRun_plainRun {source : Source} {bytes : Bytes} {n : Nat} :
    (encryptRun k (c.plainRun source)).collect = .ok (bytes, n) ↔
      source.fault = none ∧
        SegmentKeys.Fits 0 (flagLast (Bytes.cut c.bufferSize.val source.bytes)) ∧
        bytes = (k.encryptFrom 0 (flagLast (Bytes.cut c.bufferSize.val source.bytes))).flatMap
          Segment.text ∧
        n = source.bytes.length :=
  k.collect_emit_blocksRun (encrypts_segmentWork k) c.bufferSize.pos

/-- Decryption of a string of bytes, wherever they come from. -/
def decryptBytes (bytes : Bytes) : Emission Nat :=
  SegmentRun.emit ⟨flagLast (Bytes.cut (c.bufferSize.val + 16) bytes), none⟩ .streamDecrypt
    (segmentWork .streamDecrypt (k.openSegment .streamDecrypt) fun _ out => out)

/-- What a reader yields is decrypted as its bytes are, and decryption sees the end. -/
theorem decrypt_eq {r : ρ} {bytes : Bytes} (h : v.Holds r bytes none) :
    ∃ last, c.decrypt k r = (c.decryptBytes k bytes, last) ∧ v.Ended last := by
  obtain ⟨last, hblocks, -, hended⟩ := v.readBlocks_eq (by omega : 0 < c.bufferSize.val + 16) h
  refine ⟨last, ?_, hended⟩
  rw [decrypt, hblocks]
  simp only [segmentRun_eq]
  rfl

theorem collect_decryptBytes {bytes text : Bytes} {n : Nat} :
    (c.decryptBytes k bytes).collect = .ok (text, n) ↔
      ∃ plain, flagLast (Bytes.cut (c.bufferSize.val + 16) bytes) = k.encryptFrom 0 plain ∧
        SegmentKeys.Fits 0 plain ∧ text = plain.flatMap Segment.text ∧ n = text.length :=
  SegmentKeys.collect_decryptRun .streamDecrypt

/-- Decryption undoes encryption. -/
theorem collect_decryptBytes_encryptFrom {text : Bytes}
    (h : SegmentKeys.Fits 0 (flagLast (Bytes.cut c.bufferSize.val text))) :
    (c.decryptBytes k ((k.encryptFrom 0 (flagLast (Bytes.cut c.bufferSize.val text))).flatMap
      Segment.text)).collect = .ok (text, text.length) := by
  rw [collect_decryptBytes]
  refine ⟨_, k.flagLast_cut_encryptFrom c.bufferSize.pos 0 text, h, ?_, rfl⟩
  rw [text_flagLast, Bytes.flatten_cut c.bufferSize.pos]

/-- Nothing is written where the first segment does not open. -/
theorem bytes_decryptBytes_of_first {bytes : Bytes} {segment : Segment} {rest : List Segment}
    (hcut : flagLast (Bytes.cut (c.bufferSize.val + 16) bytes) = segment :: rest)
    {failure : Failure} (hopen : k.openSegment .streamDecrypt 0 segment = .error failure) :
    (c.decryptBytes k bytes).ending = .error failure ∧ (c.decryptBytes k bytes).bytes = [] := by
  have hwork := SegmentKeys.segmentWork_of_refused hopen
  have hfirst : emitSegments (segmentWork .streamDecrypt (k.openSegment .streamDecrypt)
      fun _ out => out) 0 (segment :: rest) = _ :=
    emitSegments_cons_of_error (congrArg Emission.ending hwork)
  constructor
  · rw [decryptBytes, hcut, SegmentRun.ending_emit]
    exact congrArg (fun e => e.ending >>= _) hfirst
  · rw [decryptBytes, hcut, SegmentRun.bytes_emit]
    refine (congrArg Emission.bytes hfirst).trans ?_
    exact congrArg (fun e => e.steps.flatMap OutputStep.bytes) hwork

end StreamCipher

end SealedEnvelope
