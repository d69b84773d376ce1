import SealedEnvelope.Proofs.Segment.ChunkCipher
import SealedEnvelope.Proofs.Transfer.Faults

/-!
Segmented texts from a reader that fails. The run that is read is cut off somewhere,
and what has been emitted for its segments is what is emitted first for those of the
whole run. So each cipher does the same without the fault, or fails within that.
-/

namespace SealedEnvelope

/-- Fewer segments have fewer steps, and the same ones. -/
theorem steps_emitSegments_mono (work : UInt64 → Segment → Emission Nat) (i : UInt64)
    {segments segments' : List Segment} (h : segments <+: segments') :
    (emitSegments work i segments).steps <+: (emitSegments work i segments').steps := by
  induction segments generalizing i segments' with
  | nil => exact List.nil_prefix
  | cons segment rest ih =>
      obtain ⟨later, rfl⟩ := h
      cases rest with
      | nil =>
          cases later with
          | nil => exact List.prefix_refl _
          | cons second later => exact Emission.steps_prefix_bind _ _
      | cons second rest =>
          apply Emission.steps_bind_mono
          intro length
          apply Emission.steps_bind_mono
          intro next
          exact ih next (List.prefix_append _ _)

namespace SegmentRun

variable {fault : Option IoFault} {run run' : SegmentRun}

/-- The same run, or with a fault one that fails after some of the segments. -/
structure UntilFault (fault : Option IoFault) (run run' : SegmentRun) : Prop where
  same : fault = none → run = run'
  failed : fault ≠ none → run.failure ≠ none
  segments : fault ≠ none → run.segments <+: run'.segments

/-- A run that fails before there is a segment. -/
theorem UntilFault.of_nil (hfault : fault ≠ none) (failure : Failure) (run' : SegmentRun) :
    UntilFault fault ⟨[], some failure⟩ run' :=
  ⟨fun hnone => absurd hnone hfault, fun _ => Option.some_ne_none _, fun _ => List.nil_prefix⟩

/-- Without a segment there may be a failure whether reading has failed or not. -/
theorem UntilFault.nil (fault : Option IoFault) (failure : Failure) :
    UntilFault fault ⟨[], some failure⟩ ⟨[], some failure⟩ :=
  ⟨fun _ => rfl, fun _ => Option.some_ne_none _, fun _ => List.nil_prefix⟩

theorem UntilFault.cons (h : run.UntilFault fault run') (segment : Segment) :
    UntilFault fault ⟨segment :: run.segments, run.failure⟩
      ⟨segment :: run'.segments, run'.failure⟩ := by
  refine ⟨fun hnone => by rw [h.same hnone], h.failed, fun hfault => ?_⟩
  exact List.cons_prefix_cons.mpr ⟨rfl, h.segments hfault⟩

theorem UntilFault.emit (h : run.UntilFault fault run') (operation : Operation)
    (work : UInt64 → Segment → Emission Nat) :
    (run.emit operation work).UntilFault fault (run'.emit operation work) := by
  refine ⟨fun hnone => by rw [h.same hnone], fun hfault => ?_⟩
  obtain ⟨failure, hfailure⟩ := Option.ne_none_iff_exists'.mp (h.failed hfault)
  constructor
  · rw [ending_emit, hfailure]
    cases (emitSegments work 0 run.segments).ending with
    | error failure => exact ⟨failure, rfl⟩
    | ok n => exact ⟨failure, rfl⟩
  · obtain ⟨ending, hsteps, hending⟩ := run'.steps_emit operation work
    have hfront : (run.emit operation work).steps = (emitSegments work 0 run.segments).steps := by
      rw [SegmentRun.emit, hfailure]
      exact Emission.steps_bind_of_nil _ fun _ => rfl
    rw [hfront, hsteps]
    exact (steps_emitSegments_mono work 0 (h.segments hfault)).trans (List.prefix_append _ _)

end SegmentRun

/-- Some of the blocks, without their last one, are segments whatever follows. -/
theorem map_dropLast_prefix_flagLast {blocks blocks' : List Bytes} (h : blocks <+: blocks') :
    blocks.dropLast.map (Segment.mk false) <+: flagLast blocks' := by
  rcases List.eq_nil_or_concat' blocks with rfl | ⟨front, last, rfl⟩
  · exact List.nil_prefix
  · obtain ⟨later, rfl⟩ := h
    rw [List.dropLast_concat, List.append_assoc, flagLast_append front (by simp)]
    exact List.prefix_append _ _

section Reader

variable {ρ : Type} [ByteReader ρ] {v v' : ReaderView ρ} {fault : Option IoFault} {r r' : ρ}

/-- The last block of a reader that fails is no segment yet; those before it are. -/
theorem untilFault_blocksRun (h : ReaderView.UntilFault v v' fault r r') (operation : Operation)
    {n : Nat} (hn : 0 < n) :
    (blocksRun operation n r).UntilFault fault (blocksRun operation n r') := by
  obtain ⟨bytes, rest, -, hwhole, -⟩ := id h
  obtain ⟨last, hlast, -⟩ := v'.readBlocks_eq hn hwhole
  have hend : (StreamCipher.readBlocks n r').2.1 = none := by rw [hlast]
  obtain ⟨hsame, hcut⟩ := h.readBlocks hn
  constructor
  · intro hnone
    obtain ⟨hblocks, hfault⟩ := hsame hnone
    rw [blocksRun, blocksRun, hblocks, hfault, hend]
  · intro hfault
    obtain ⟨f, hf⟩ := Option.ne_none_iff_exists'.mp (hcut hfault).2
    rw [blocksRun, hf]
    exact Option.some_ne_none _
  · intro hfault
    obtain ⟨hblocks, hne⟩ := hcut hfault
    obtain ⟨f, hf⟩ := Option.ne_none_iff_exists'.mp hne
    rw [blocksRun, blocksRun, hf, hend, segmentRun_eq]
    exact map_dropLast_prefix_flagLast hblocks

namespace ChunkCipher

theorem readLength_of_fault (h : ReaderView.UntilFault v v' fault r r') :
    (∃ result next next', readLength r = (result, next) ∧ readLength r' = (result, next') ∧
        ReaderView.UntilFault v v' fault next next' ∧ (result = .ok none → fault = none)) ∨
      ∃ failure next, fault ≠ none ∧ readLength r = (.error failure, next) := by
  rcases h.fill 4 with ⟨got, next, next', hfill, hfill', hnext, hshort⟩ | ⟨f, next, hfault, hfill⟩
  · left
    rw [readLength, readLength, hfill, hfill']
    cases got with
    | nil => exact ⟨_, next, next', rfl, rfl, hnext, fun _ => hshort (by decide)⟩
    | cons byte bytes =>
        dsimp only
        split
        · refine ⟨_, next, next', rfl, rfl, hnext, ?_⟩
          intro hend
          cases hend
        · refine ⟨_, next, next', rfl, rfl, hnext, ?_⟩
          intro hend
          cases hend
  · right
    rw [readLength, hfill]
    exact ⟨_, next, hfault, rfl⟩

theorem readChunks_of_error {limit index length : Nat} {f : IoFault} {next : ρ}
    (h : ¬ (length < 16 ∨ limit < length)) (hfill : ByteReader.fill length r = (.error f, next)) :
    readChunks limit index length r = ⟨[], some (.io .chunkDecrypt f)⟩ := by
  rw [readChunks, if_neg h]
  split
  case h_1 hfill' => rw [hfill] at hfill'; cases hfill'; rfl
  case h_2 hfill' => rw [hfill] at hfill'; cases hfill'

theorem untilFault_readChunks (h : ReaderView.UntilFault v v' fault r r')
    (limit index length : Nat) :
    (readChunks limit index length r).UntilFault fault (readChunks limit index length r') := by
  induction hsize : ByteReader.size r using Nat.strong_induction_on
    generalizing r r' index length with
  | h size ih =>
      subst hsize
      by_cases hrange : length < 16 ∨ limit < length
      · rw [readChunks_of_length hrange, readChunks_of_length hrange]
        exact .nil fault _
      rcases h.fill length with
        ⟨body, next, next', hfill, hfill', hnext, -⟩ | ⟨f, next, hfault, hfill⟩
      case inr =>
        rw [readChunks_of_error hrange hfill]
        exact .of_nil hfault _ _
      rcases Nat.lt_or_ge body.length length with hlt | hle
      · rw [readChunks_of_short hrange hfill hlt, readChunks_of_short hrange hfill' hlt]
        exact .nil fault _
      have hfull := Nat.le_antisymm (ByteReader.length_le_of_fill hfill) hle
      rw [readChunks_of_body hrange hfill hfull, readChunks_of_body hrange hfill' hfull]
      -- Both see the same behind the chunk, or the first one fails there.
      rcases readLength_of_fault hnext with
        ⟨result, after, after', hlength, hlength', hafter, hend⟩ | ⟨failure, after, hfault, hlength⟩
      case inr =>
        rw [hlength]
        exact .of_nil hfault _ _
      rw [hlength, hlength']
      rcases result with failure | _ | later
      · exact .nil fault failure
      · exact ⟨fun _ => rfl, fun hfault => absurd (hend rfl) hfault, fun _ => List.prefix_refl _⟩
      · have hbody := ByteReader.size_add_le_of_fill hfill
        have hfield := size_le_of_readLength hlength
        exact (ih _ (by omega) hafter (index + 1) later rfl).cons _

theorem untilFault_chunkRun (h : ReaderView.UntilFault v v' fault r r') (c : ChunkCipher) :
    (c.chunkRun r).UntilFault fault (c.chunkRun r') := by
  rw [chunkRun, chunkRun]
  rcases readLength_of_fault h with
    ⟨result, next, next', hlength, hlength', hnext, -⟩ | ⟨failure, next, hfault, hlength⟩
  · rw [hlength, hlength']
    rcases result with failure | _ | length
    · exact .nil fault failure
    · exact .nil fault _
    · exact untilFault_readChunks hnext _ 0 length
  · rw [hlength]
    exact .of_nil hfault _ _

theorem untilFault_encrypt (h : ReaderView.UntilFault v v' fault r r') (c : ChunkCipher)
    (k : SegmentKeys) : (c.encrypt k r).UntilFault fault (c.encrypt k r') :=
  (untilFault_blocksRun h .chunkEncrypt c.chunkSize.pos).emit .chunkEncrypt (sealChunk k)

theorem untilFault_decrypt (h : ReaderView.UntilFault v v' fault r r') (c : ChunkCipher)
    (k : SegmentKeys) : (c.decrypt k r).UntilFault fault (c.decrypt k r') :=
  (untilFault_chunkRun h c).emit _ _

end ChunkCipher

namespace StreamCipher

theorem untilFault_plainRun (h : ReaderView.UntilFault v v' fault r r') (c : StreamCipher) :
    (c.plainRun r).UntilFault fault (c.plainRun r') :=
  untilFault_blocksRun h .streamEncrypt c.bufferSize.pos

theorem untilFault_encrypt (h : ReaderView.UntilFault v v' fault r r') (c : StreamCipher)
    (k : SegmentKeys) : (c.encrypt k r).UntilFault fault (c.encrypt k r') :=
  (untilFault_plainRun h c).emit _ _

theorem untilFault_decrypt (h : ReaderView.UntilFault v v' fault r r') (c : StreamCipher)
    (k : SegmentKeys) : (c.decrypt k r).1.UntilFault fault (c.decrypt k r').1 :=
  (untilFault_blocksRun h .streamDecrypt (Nat.add_pos_left c.bufferSize.pos 16)).emit _ _

end StreamCipher

end Reader

end SealedEnvelope
