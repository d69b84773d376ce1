import SealedEnvelope.Proofs.Segment.Cutting
import SealedEnvelope.Proofs.Segment.StreamCipher
import SealedEnvelope.Segment.ChunkCipher

/-!
Texts encrypted in chunks with a length field before each. The chunks that a reader
yields are those of its bytes, however they arrive. Bytes that are frames throughout
give all their blocks; other bytes give the blocks in front, and a failure.
-/

namespace SealedEnvelope

/-- With the tag, a piece has a length that fits into a length field. -/
theorem SegmentSize.sealed_lt (size : SegmentSize) : size.val + 16 < UInt32.size := by
  have hle := size.le
  have hpos : 16 < UInt32.size := by decide
  omega

/-- The length of a ciphertext whose text is no longer than a piece. -/
structure SegmentSize.Admits (size : SegmentSize) (block : Bytes) : Prop where
  le_length : 16 ≤ block.length
  length_le : block.length ≤ size.val + 16

namespace ChunkCipher

/-- A block behind its length. -/
def frame (block : Bytes) : Bytes := Bytes.bigEndian 4 block.length ++ block

theorem length_frame (block : Bytes) : (frame block).length = 4 + block.length := by
  simp [frame]

theorem ofBigEndian_take_frame {block : Bytes} (h : block.length < UInt32.size) (rest : Bytes) :
    Bytes.ofBigEndian ((frame block ++ rest).take 4) = block.length := by
  rw [frame, List.append_assoc, List.take_left' (Bytes.length_bigEndian 4 _),
    Bytes.ofBigEndian_bigEndian h]

theorem drop_frame (block rest : Bytes) : (frame block ++ rest).drop 4 = block ++ rest := by
  rw [frame, List.append_assoc, List.drop_left' (Bytes.length_bigEndian 4 _)]

/-- What decryption answers to bytes that it cannot take apart or that do not authenticate. -/
def Refuses : Failure → Prop
  | .authenticationFailed operation => operation = .chunkDecrypt
  | .invalidFormat _ => True
  | _ => False

/-- The first block of a string of bytes and the bytes behind it. -/
def firstBlock (size : SegmentSize) (index : Nat) (bytes : Bytes) :
    Except Failure (Bytes × Bytes) :=
  let length := Bytes.ofBigEndian (bytes.take 4)
  if bytes = [] then .error (.authenticationFailed .chunkDecrypt)
  else if bytes.length < 4 then .error (.invalidFormat (.chunkLengthTruncated bytes.length))
  else if length < 16 ∨ size.val + 16 < length then
    .error (.invalidFormat (.chunkLength index length (size.val + 16)))
  else if (bytes.drop 4).length < length then .error (.authenticationFailed .chunkDecrypt)
  else .ok ((bytes.drop 4).take length, (bytes.drop 4).drop length)

section FirstBlock

variable {size : SegmentSize} {index : Nat} {block rest : Bytes}

theorem firstBlock_of_nil (size : SegmentSize) (index : Nat) :
    firstBlock size index [] = .error (.authenticationFailed .chunkDecrypt) := by
  rw [firstBlock, if_pos rfl]

theorem firstBlock_of_lt {bytes : Bytes} (hne : bytes ≠ []) (hlt : bytes.length < 4) :
    firstBlock size index bytes =
      .error (.invalidFormat (.chunkLengthTruncated bytes.length)) := by
  rw [firstBlock, if_neg hne, if_pos hlt]

theorem firstBlock_of_le (size : SegmentSize) (index : Nat) {bytes : Bytes} (hle : 4 ≤ bytes.length) :
    firstBlock size index bytes =
      if Bytes.ofBigEndian (bytes.take 4) < 16 ∨
          size.val + 16 < Bytes.ofBigEndian (bytes.take 4) then
        .error (.invalidFormat
          (.chunkLength index (Bytes.ofBigEndian (bytes.take 4)) (size.val + 16)))
      else if (bytes.drop 4).length < Bytes.ofBigEndian (bytes.take 4) then
        .error (.authenticationFailed .chunkDecrypt)
      else
        .ok ((bytes.drop 4).take (Bytes.ofBigEndian (bytes.take 4)),
          (bytes.drop 4).drop (Bytes.ofBigEndian (bytes.take 4))) := by
  have hne : bytes ≠ [] := List.ne_nil_of_length_pos (by omega)
  rw [firstBlock, if_neg hne, if_neg (Nat.not_lt_of_le hle)]

theorem firstBlock_frame (h : size.Admits block) :
    firstBlock size index (frame block ++ rest) = .ok (block, rest) := by
  have hframe := length_frame block
  have hlong := h.le_length
  have hshort := h.length_le
  rw [firstBlock_of_le, ofBigEndian_take_frame (hshort.trans_lt size.sealed_lt), drop_frame,
    if_neg, if_neg, List.take_left, List.drop_left]
  · rw [List.length_append]
    omega
  · omega
  · rw [List.length_append]
    omega

theorem firstBlock_of_too_long (h : size.val + 16 < block.length)
    (hlength : block.length < UInt32.size) :
    firstBlock size index (frame block ++ rest) =
      .error (.invalidFormat (.chunkLength index block.length (size.val + 16))) := by
  have hframe := length_frame block
  rw [firstBlock_of_le, ofBigEndian_take_frame hlength, if_pos (.inr h)]
  rw [List.length_append]
  omega

/-- Bytes begin with a frame, or they are refused. -/
theorem firstBlock_cases (size : SegmentSize) (index : Nat) (bytes : Bytes) :
    (∃ block rest, firstBlock size index bytes = .ok (block, rest) ∧
        bytes = frame block ++ rest ∧ size.Admits block) ∨
      ∃ failure, firstBlock size index bytes = .error failure ∧ Refuses failure := by
  rw [firstBlock]
  split
  case isTrue => exact .inr ⟨_, rfl, rfl⟩
  case isFalse =>
    split
    case isTrue => exact .inr ⟨_, rfl, trivial⟩
    case isFalse hfield =>
      split
      case isTrue => exact .inr ⟨_, rfl, trivial⟩
      case isFalse hrange =>
        split
        case isTrue => exact .inr ⟨_, rfl, rfl⟩
        case isFalse hbody =>
          have hdigits := Bytes.bigEndian_ofBigEndian
            (List.length_take_of_le (Nat.le_of_not_lt hfield))
          have hblock := List.length_take_of_le (Nat.le_of_not_lt hbody)
          refine .inl ⟨_, _, rfl, ?_, ⟨by omega, by omega⟩⟩
          rw [frame, hblock, hdigits, List.append_assoc, List.take_append_drop,
            List.take_append_drop]

end FirstBlock

/-- The chunks of a string of bytes, numbered from `index` on. A chunk counts once the length
behind it, or the end, has been seen. -/
def chunksFrom (size : SegmentSize) (index : Nat) (bytes : Bytes) : SegmentRun :=
  match _hfirst : firstBlock size index bytes with
  | .error failure => ⟨[], some failure⟩
  | .ok (block, rest) =>
      if rest = [] then ⟨[⟨true, block⟩], none⟩
      else if rest.length < 4 then
        ⟨[], some (.invalidFormat (.chunkLengthTruncated rest.length))⟩
      else
        let later := chunksFrom size (index + 1) rest
        ⟨⟨false, block⟩ :: later.segments, later.failure⟩
termination_by bytes.length
decreasing_by
  rcases firstBlock_cases size index bytes with
    ⟨_, _, hok, hbytes, -⟩ | ⟨_, herror, -⟩
  · rw [_hfirst] at hok
    cases hok
    rw [hbytes, List.length_append, length_frame]
    omega
  · rw [_hfirst] at herror
    cases herror

section ChunksFrom

variable {size : SegmentSize} {index : Nat} {block rest bytes : Bytes}

theorem chunksFrom_of_error {failure : Failure}
    (h : firstBlock size index bytes = .error failure) :
    chunksFrom size index bytes = ⟨[], some failure⟩ := by
  rw [chunksFrom]
  split
  case h_1 hfirst => rw [h] at hfirst; cases hfirst; rfl
  case h_2 hfirst => rw [h] at hfirst; cases hfirst

theorem chunksFrom_of_ok (h : firstBlock size index bytes = .ok (block, rest)) :
    chunksFrom size index bytes =
      if rest = [] then ⟨[⟨true, block⟩], none⟩
      else if rest.length < 4 then
        ⟨[], some (.invalidFormat (.chunkLengthTruncated rest.length))⟩
      else
        ⟨⟨false, block⟩ :: (chunksFrom size (index + 1) rest).segments,
          (chunksFrom size (index + 1) rest).failure⟩ := by
  rw [chunksFrom]
  split
  case h_1 hfirst => rw [h] at hfirst; cases hfirst
  case h_2 hfirst => rw [h] at hfirst; cases hfirst; rfl

/-- Frames in front are chunks before the last, as long as a length can be read behind them. -/
theorem chunksFrom_append {blocks : List Bytes} (h : ∀ block ∈ blocks, size.Admits block)
    (hrest : 4 ≤ rest.length) :
    chunksFrom size index (blocks.flatMap frame ++ rest) =
      ⟨blocks.map (Segment.mk false) ++ (chunksFrom size (index + blocks.length) rest).segments,
        (chunksFrom size (index + blocks.length) rest).failure⟩ := by
  induction blocks generalizing index with
  | nil => rfl
  | cons block blocks ih =>
      obtain ⟨hblock, hblocks⟩ := List.forall_mem_cons.mp h
      have hlong : 4 ≤ (blocks.flatMap frame ++ rest).length := by
        rw [List.length_append]
        omega
      have hne : blocks.flatMap frame ++ rest ≠ [] := List.ne_nil_of_length_pos (by omega)
      rw [List.flatMap_cons, List.append_assoc, chunksFrom_of_ok (firstBlock_frame hblock),
        if_neg hne, if_neg (Nat.not_lt_of_le hlong), ih hblocks, List.length_cons,
        Nat.add_right_comm, Nat.add_assoc]
      rfl

/-- Frames are chunks, the last one being the last. -/
theorem chunksFrom_frames {blocks : List Bytes} (hne : blocks ≠ [])
    (h : ∀ block ∈ blocks, size.Admits block) :
    chunksFrom size index (blocks.flatMap frame) = ⟨flagLast blocks, none⟩ := by
  obtain ⟨front, last, rfl⟩ := (List.eq_nil_or_concat' blocks).resolve_left hne
  obtain ⟨hfront, hlast⟩ := List.forall_mem_append.mp h
  have hadmits := hlast last (List.mem_singleton_self last)
  have hlong := length_frame last
  have hfirst : firstBlock size (index + front.length) (frame last) = .ok (last, []) := by
    rw [← firstBlock_frame hadmits, List.append_nil]
  have hend := chunksFrom_of_ok hfirst
  rw [if_pos rfl] at hend
  rw [List.flatMap_append, List.flatMap_singleton, chunksFrom_append hfront (by omega), hend,
    flagLast_concat]

/-- Too little for a length comes after frames. The last of them is no chunk then, for it is not
known what follows it. -/
theorem chunksFrom_cut {front : List Bytes} {last : Bytes}
    (h : ∀ block ∈ front ++ [last], size.Admits block) (hne : rest ≠ []) (hcut : rest.length < 4) :
    chunksFrom size index ((front ++ [last]).flatMap frame ++ rest) =
      ⟨front.map (Segment.mk false),
        some (.invalidFormat (.chunkLengthTruncated rest.length))⟩ := by
  obtain ⟨hfront, hlast⟩ := List.forall_mem_append.mp h
  have hadmits := hlast last (List.mem_singleton_self last)
  have hlong : 4 ≤ (frame last ++ rest).length := by
    rw [List.length_append, length_frame]
    omega
  rw [List.flatMap_append, List.flatMap_singleton, List.append_assoc,
    chunksFrom_append hfront hlong, chunksFrom_of_ok (firstBlock_frame hadmits), if_neg hne,
    if_pos hcut]
  simp

/-- Bytes are frames throughout, or all chunks in them come before the last and reading fails. -/
theorem chunksFrom_cases (size : SegmentSize) (index : Nat) (bytes : Bytes) :
    (∃ blocks, blocks ≠ [] ∧ (∀ block ∈ blocks, size.Admits block) ∧
        bytes = blocks.flatMap frame ∧
        chunksFrom size index bytes = ⟨flagLast blocks, none⟩) ∨
      ∃ (blocks : List Bytes) (failure : Failure), Refuses failure ∧
        chunksFrom size index bytes = ⟨blocks.map (Segment.mk false), some failure⟩ := by
  induction hn : bytes.length using Nat.strong_induction_on generalizing bytes index with
  | h n ih =>
      subst hn
      rcases firstBlock_cases size index bytes with ⟨block, rest, hfirst, rfl, hadmits⟩ |
        ⟨failure, hfirst, hrefuses⟩
      · have hrun := chunksFrom_of_ok hfirst
        by_cases hnil : rest = []
        · subst hnil
          rw [if_pos rfl] at hrun
          exact .inl ⟨[block], List.cons_ne_nil _ _, by simpa using hadmits, by simp, hrun⟩
        rw [if_neg hnil] at hrun
        by_cases hcut : rest.length < 4
        · rw [if_pos hcut] at hrun
          exact .inr ⟨[], .invalidFormat _, trivial, hrun⟩
        rw [if_neg hcut] at hrun
        have hshorter : rest.length < (frame block ++ rest).length := by
          rw [List.length_append, length_frame]
          omega
        rcases ih _ hshorter (index + 1) rest rfl with ⟨blocks, hne, hblocks, hrest, hlater⟩ |
          ⟨blocks, failure, hrefuses, hlater⟩
        · rw [hlater] at hrun
          refine .inl ⟨block :: blocks, List.cons_ne_nil _ _, ?_, ?_, ?_⟩
          · exact List.forall_mem_cons.mpr ⟨hadmits, hblocks⟩
          · rw [hrest, List.flatMap_cons]
          · rw [hrun, flagLast_cons hne]
        · rw [hlater] at hrun
          exact .inr ⟨block :: blocks, failure, hrefuses, hrun⟩
      · exact .inr ⟨[], failure, hrefuses, chunksFrom_of_error hfirst⟩

end ChunksFrom

section Reader

variable {ρ : Type} [ByteReader ρ] (v : ReaderView ρ) {size : SegmentSize} {r : ρ} {bytes : Bytes}

theorem readLength_of_nil (h : v.Holds r [] none) : ∃ next, readLength r = (.ok none, next) := by
  obtain ⟨next, hfill, -⟩ := v.fill_of_lt h (by decide : ([] : Bytes).length < 4)
  exact ⟨next, by rw [readLength, hfill]⟩

theorem readLength_of_short (h : v.Holds r bytes none) (hne : bytes ≠ [])
    (hlt : bytes.length < 4) :
    ∃ next, readLength r =
      (.error (.invalidFormat (.chunkLengthTruncated bytes.length)), next) := by
  obtain ⟨next, hfill, -⟩ := v.fill_of_lt h hlt
  obtain ⟨first, rest, rfl⟩ := List.exists_cons_of_ne_nil hne
  refine ⟨next, ?_⟩
  rw [readLength, hfill]
  exact if_neg (by omega)

theorem readLength_of_le (h : v.Holds r bytes none) (hle : 4 ≤ bytes.length) :
    ∃ next, readLength r = (.ok (some (Bytes.ofBigEndian (bytes.take 4))), next) ∧
      v.Holds next (bytes.drop 4) none := by
  obtain ⟨next, hfill, hnext⟩ := v.fill_of_le h hle
  have hfield : (bytes.take 4).length = 4 := List.length_take_of_le hle
  obtain ⟨first, rest, hcons⟩ := List.exists_cons_of_length_eq_add_one hfield
  refine ⟨next, ?_, hnext⟩
  rw [hcons] at hfield
  rw [readLength, hfill, hcons]
  exact if_pos hfield

section ReadChunks

variable {limit index length : Nat}

theorem readChunks_of_length (h : length < 16 ∨ limit < length) :
    readChunks limit index length r =
      ⟨[], some (.invalidFormat (.chunkLength index length limit))⟩ := by
  rw [readChunks, if_pos h]

theorem readChunks_of_short {body : Bytes} {next : ρ} (h : ¬ (length < 16 ∨ limit < length))
    (hfill : ByteReader.fill length r = (.ok body, next)) (hlt : body.length < length) :
    readChunks limit index length r = ⟨[], some (.authenticationFailed .chunkDecrypt)⟩ := by
  rw [readChunks, if_neg h]
  split
  case h_1 hfill' => rw [hfill] at hfill'; cases hfill'
  case h_2 hfill' => rw [hfill] at hfill'; cases hfill'; exact if_pos hlt

theorem readChunks_of_body {body : Bytes} {next : ρ} (h : ¬ (length < 16 ∨ limit < length))
    (hfill : ByteReader.fill length r = (.ok body, next)) (hfull : body.length = length) :
    readChunks limit index length r =
      match readLength next with
      | (.error failure, _) => ⟨[], some failure⟩
      | (.ok none, _) => ⟨[⟨true, body⟩], none⟩
      | (.ok (some later), after) =>
          ⟨⟨false, body⟩ :: (readChunks limit (index + 1) later after).segments,
            (readChunks limit (index + 1) later after).failure⟩ := by
  rw [readChunks, if_neg h]
  split
  case h_1 hfill' => rw [hfill] at hfill'; cases hfill'
  case h_2 hfill' =>
    rw [hfill] at hfill'
    cases hfill'
    rw [if_neg (by omega)]
    split <;> simp only [*]

end ReadChunks

/-- A reader that has delivered the first length yields the chunks of its bytes. -/
theorem readChunks_eq (hle : 4 ≤ bytes.length) (h : v.Holds r (bytes.drop 4) none) (index : Nat) :
    readChunks (size.val + 16) index (Bytes.ofBigEndian (bytes.take 4)) r =
      chunksFrom size index bytes := by
  induction hn : bytes.length using Nat.strong_induction_on generalizing r bytes index with
  | h n ih =>
      subst hn
      have hfirst := firstBlock_of_le size index hle
      by_cases hrange : Bytes.ofBigEndian (bytes.take 4) < 16 ∨
          size.val + 16 < Bytes.ofBigEndian (bytes.take 4)
      · rw [if_pos hrange] at hfirst
        rw [readChunks_of_length hrange, chunksFrom_of_error hfirst]
      rw [if_neg hrange] at hfirst
      rcases Nat.lt_or_ge (bytes.drop 4).length (Bytes.ofBigEndian (bytes.take 4)) with hlt | hbody
      · obtain ⟨next, hfill, -⟩ := v.fill_of_lt h hlt
        rw [if_pos hlt] at hfirst
        rw [readChunks_of_short hrange hfill hlt, chunksFrom_of_error hfirst]
      obtain ⟨next, hfill, hnext⟩ := v.fill_of_le h hbody
      rw [if_neg (Nat.not_lt_of_le hbody)] at hfirst
      rw [readChunks_of_body hrange hfill (List.length_take_of_le hbody), chunksFrom_of_ok hfirst]
      -- What comes behind the block is nothing, or too little for a length, or another chunk.
      generalize hrest : (bytes.drop 4).drop (Bytes.ofBigEndian (bytes.take 4)) = rest at hnext ⊢
      by_cases hnil : rest = []
      · subst hnil
        obtain ⟨after, hlength⟩ := readLength_of_nil v hnext
        rw [hlength, if_pos rfl]
      rw [if_neg hnil]
      rcases Nat.lt_or_ge rest.length 4 with hcut | hfield
      · obtain ⟨after, hlength⟩ := readLength_of_short v hnext hnil hcut
        rw [hlength, if_pos hcut]
      obtain ⟨after, hlength, hafter⟩ := readLength_of_le v hnext hfield
      have hshorter : rest.length < bytes.length := by
        rw [← hrest, List.length_drop, List.length_drop]
        omega
      rw [hlength, if_neg (Nat.not_lt_of_le hfield)]
      dsimp only
      rw [ih _ hshorter hfield hafter (index + 1) rfl]

/-- What a reader yields is taken apart as its bytes are. -/
theorem chunkRun_eq (c : ChunkCipher) (h : v.Holds r bytes none) :
    c.chunkRun r = chunksFrom c.chunkSize 0 bytes := by
  by_cases hnil : bytes = []
  · subst hnil
    obtain ⟨next, hlength⟩ := readLength_of_nil v h
    rw [chunkRun, hlength, chunksFrom_of_error (firstBlock_of_nil _ _)]
  rcases Nat.lt_or_ge bytes.length 4 with hcut | hfield
  · obtain ⟨next, hlength⟩ := readLength_of_short v h hnil hcut
    rw [chunkRun, hlength, chunksFrom_of_error (firstBlock_of_lt hnil hcut)]
  obtain ⟨next, hlength, hnext⟩ := readLength_of_le v h hfield
  rw [chunkRun, hlength]
  exact readChunks_eq v hfield hnext 0

end Reader

variable {ρ : Type} [ByteReader ρ] (c : ChunkCipher) (k : SegmentKeys)

/-- Encrypts one segment and writes its frame. -/
def sealChunk (index : UInt64) (segment : Segment) : Emission Nat := do
  let sealedText ← .ofExcept (k.sealSegment index segment)
  .write .chunkEncrypt (Bytes.bigEndian 4 sealedText.length)
  .write .chunkEncrypt sealedText
  pure segment.text.length

theorem sealChunk_of_ok {index : UInt64} {segment : Segment} {sealedText : Bytes}
    (h : k.sealSegment index segment = .ok sealedText) :
    sealChunk k index segment =
      ⟨[.write .chunkEncrypt (Bytes.bigEndian 4 sealedText.length),
        .write .chunkEncrypt sealedText], .ok segment.text.length⟩ := by
  rw [sealChunk, h]
  rfl

theorem sealChunk_of_error {index : UInt64} {segment : Segment} {failure : Failure}
    (h : k.sealSegment index segment = .error failure) :
    sealChunk k index segment = ⟨[], .error failure⟩ := by
  rw [sealChunk, h]
  rfl

theorem encrypts_sealChunk : k.Encrypts frame (sealChunk k) := by
  intro index segment bytes n
  rw [Emission.collect_eq_ok]
  rcases hsealed : k.sealSegment index segment with failure | sealedText
  · simp [sealChunk_of_error k hsealed]
  · rw [sealChunk_of_ok k hsealed]
    simp [Emission.bytes, OutputStep.bytes, frame, eq_comm, and_comm]

theorem encrypt_eq (r : ρ) :
    c.encrypt k r =
      (blocksRun .chunkEncrypt c.chunkSize.val r).emit .chunkEncrypt (sealChunk k) := rfl

/-- What a reader yields is decrypted as its bytes are. -/
theorem decrypt_eq (v : ReaderView ρ) {r : ρ} {bytes : Bytes} (h : v.Holds r bytes none) :
    c.decrypt k r = k.decryptRun .chunkDecrypt (chunksFrom c.chunkSize 0 bytes) := by
  rw [← chunkRun_eq v c h]
  rfl

end ChunkCipher

end SealedEnvelope
