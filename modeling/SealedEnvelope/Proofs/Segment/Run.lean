import SealedEnvelope.Proofs.Computation
import SealedEnvelope.Proofs.Transfer.View

/-!
Runs of segments. Encrypting a run succeeds just when the texts are short enough
and the numbers last; decrypting succeeds just on what encrypting gives. Blocks
that are flagged, encrypted, joined and cut again are the encrypted segments.
-/

namespace SealedEnvelope

theorem SegmentSize.val_of_ofNat {name : SizeName} {n : Nat} {size : SegmentSize}
    (h : SegmentSize.ofNat name n = .ok size) : size.val = n := by
  rw [SegmentSize.ofNat] at h
  split at h
  · cases h
  · split at h
    · cases h
      rfl
    · cases h

/-- Blocks as segments with the last one flagged; no blocks make one empty segment. -/
def flagLast : List Bytes → List Segment
  | [] => [⟨true, []⟩]
  | [block] => [⟨true, block⟩]
  | block :: next :: rest => ⟨false, block⟩ :: flagLast (next :: rest)

theorem segmentRun_eq (operation : Operation) (blocks : List Bytes) :
    StreamCipher.segmentRun operation blocks none = ⟨flagLast blocks, none⟩ := by
  simp only [StreamCipher.segmentRun, SegmentRun.mk.injEq, and_true]
  induction blocks with
  | nil => rfl
  | cons block blocks ih =>
      cases blocks with
      | nil => rfl
      | cons next rest =>
          rw [flagLast, ← ih, List.dropLast_cons_cons, List.map_cons, List.cons_append]
          rfl

theorem flagLast_ne_nil (blocks : List Bytes) : flagLast blocks ≠ [] := by
  cases blocks with
  | nil => simp [flagLast]
  | cons block rest => cases rest <;> simp [flagLast]

/-- Blocks keep their places, and the last place is flagged. -/
theorem getElem?_flagLast {blocks : List Bytes} (h : blocks ≠ []) (i : Nat) :
    (flagLast blocks)[i]? =
      blocks[i]?.map fun block => ⟨decide (i + 1 = blocks.length), block⟩ := by
  fun_induction flagLast blocks generalizing i with
  | case1 => exact absurd rfl h
  | case2 block => cases i <;> simp
  | case3 block next rest ih =>
      cases i with
      | zero => simp
      | succ i =>
          rw [List.getElem?_cons_succ, ih (by simp), List.getElem?_cons_succ]
          simp

theorem length_flagLast {blocks : List Bytes} (h : blocks ≠ []) :
    (flagLast blocks).length = blocks.length := by
  fun_induction flagLast blocks with
  | case1 => exact absurd rfl h
  | case2 block => rfl
  | case3 block next rest ih => rw [List.length_cons, ih (by simp)]; rfl

theorem map_text_flagLast {blocks : List Bytes} (h : blocks ≠ []) :
    (flagLast blocks).map Segment.text = blocks := by
  fun_induction flagLast blocks with
  | case1 => exact absurd rfl h
  | case2 block => rfl
  | case3 block next rest ih => rw [List.map_cons, ih (by simp)]

theorem flagLast_cons {block : Bytes} {blocks : List Bytes} (h : blocks ≠ []) :
    flagLast (block :: blocks) = ⟨false, block⟩ :: flagLast blocks := by
  obtain ⟨next, rest, rfl⟩ := List.exists_cons_of_ne_nil h
  rfl

/-- Blocks that are followed by others are not the last. -/
theorem flagLast_append (front : List Bytes) {back : List Bytes} (h : back ≠ []) :
    flagLast (front ++ back) = front.map (Segment.mk false) ++ flagLast back := by
  induction front with
  | nil => rfl
  | cons block front ih =>
      rw [List.cons_append, flagLast_cons (List.append_ne_nil_of_right_ne_nil _ h), ih]
      rfl

theorem flagLast_concat (front : List Bytes) (last : Bytes) :
    flagLast (front ++ [last]) = front.map (Segment.mk false) ++ [⟨true, last⟩] :=
  flagLast_append front (List.cons_ne_nil last [])

theorem text_mem_of_mem_flagLast {blocks : List Bytes} {segment : Segment}
    (h : segment ∈ flagLast blocks) : segment.text ∈ blocks ∨ segment.text = [] := by
  by_cases hnil : blocks = []
  · subst hnil
    rw [List.mem_singleton.mp h]
    exact .inr rfl
  · left
    rw [← map_text_flagLast hnil]
    exact List.mem_map_of_mem h

theorem text_flagLast (blocks : List Bytes) :
    (flagLast blocks).flatMap Segment.text = blocks.flatten := by
  fun_induction flagLast blocks with
  | case1 => rfl
  | case2 block => simp
  | case3 block next rest ih =>
      rw [List.flatMap_cons, ih]
      rfl

/-- Just the last segment is flagged. -/
theorem final_flagLast {blocks : List Bytes} {i : Nat} (h : i < (flagLast blocks).length) :
    (flagLast blocks)[i].final = decide (i + 1 = (flagLast blocks).length) := by
  fun_induction flagLast blocks generalizing i with
  | case1 =>
      have hi : i = 0 := by simpa using h
      subst hi
      rfl
  | case2 block =>
      have hi : i = 0 := by simpa using h
      subst hi
      rfl
  | case3 block next rest ih =>
      cases i with
      | zero =>
          have hpos := List.length_pos_iff.mpr (flagLast_ne_nil (next :: rest))
          have hne : ¬ 0 + 1 = (flagLast (next :: rest)).length + 1 := by omega
          simp only [List.getElem_cons_zero, List.length_cons, hne, decide_false]
      | succ i =>
          have hi : i < (flagLast (next :: rest)).length := by simpa using h
          rw [List.getElem_cons_succ, ih hi, List.length_cons]
          simp

/-- The flag of the last segment tells that nothing is left out behind it. -/
theorem flagLast_eq_of_front {blocks blocks' : List Bytes}
    (h : flagLast blocks' <+: flagLast blocks) : flagLast blocks' = flagLast blocks := by
  apply h.eq_of_length
  have hpos := List.length_pos_iff.mpr (flagLast_ne_nil blocks')
  have hle := h.length_le
  have hlast : (flagLast blocks').length - 1 < (flagLast blocks').length := by omega
  have hbound : (flagLast blocks').length - 1 < (flagLast blocks).length := by omega
  have hflag := congrArg Segment.final (h.getElem hlast)
  rw [final_flagLast hlast, final_flagLast hbound] at hflag
  have hend := of_decide_eq_true (hflag.symm.trans (decide_eq_true (by omega)))
  omega

/-- Segments that are flagged as blocks are, are those of their texts. -/
theorem flagLast_map_text {segments : List Segment} {blocks : List Bytes}
    (h : segments.map Segment.final = (flagLast blocks).map Segment.final) :
    flagLast (segments.map Segment.text) = segments := by
  induction segments generalizing blocks with
  | nil =>
      have hnil : flagLast blocks = [] := List.map_eq_nil_iff.mp h.symm
      exact absurd hnil (flagLast_ne_nil blocks)
  | cons segment segments ih =>
      obtain ⟨final, text⟩ := segment
      rcases blocks with _ | ⟨block, _ | ⟨next, rest⟩⟩
      · simp only [flagLast, List.map_cons, List.map_nil, List.cons.injEq,
          List.map_eq_nil_iff] at h
        obtain ⟨rfl, rfl⟩ := h
        rfl
      · simp only [flagLast, List.map_cons, List.map_nil, List.cons.injEq,
          List.map_eq_nil_iff] at h
        obtain ⟨rfl, rfl⟩ := h
        rfl
      · simp only [flagLast, List.map_cons, List.cons.injEq] at h
        obtain ⟨rfl, hlater⟩ := h
        have hrest := ih hlater
        cases segments with
        | nil =>
            have hnil := List.map_eq_nil_iff.mp hlater.symm
            exact absurd hnil (flagLast_ne_nil _)
        | cons second later =>
            rw [List.map_cons] at hrest ⊢
            rw [List.map_cons, flagLast, hrest]

theorem nextIndex_eq_ok {i : Nat} {next : UInt64} (h : i < UInt64.size) :
    nextIndex (UInt64.ofNat i) = .ok next ↔
      i + 1 < UInt64.size ∧ next = UInt64.ofNat (i + 1) := by
  have hi : (UInt64.ofNat i).toNat = i := UInt64.toNat_ofNat_of_lt' h
  rw [nextIndex, hi]
  split
  case isTrue hlt => simp [hlt, eq_comm, UInt64.ofNat_add]
  case isFalse hge => simp [hge]

/-- The segments of a run are worked on one after the other, as long as the numbers last. -/
theorem collect_emitSegments_cons {work : UInt64 → Segment → Emission Nat} {i : Nat}
    {segment : Segment} {rest : List Segment} (hrest : rest ≠ []) (hi : i < UInt64.size)
    {bytes : Bytes} {n : Nat} :
    (emitSegments work (UInt64.ofNat i) (segment :: rest)).collect = .ok (bytes, n) ↔
      ∃ first m later l, (work (UInt64.ofNat i) segment).collect = .ok (first, m) ∧
        i + 1 < UInt64.size ∧
        (emitSegments work (UInt64.ofNat (i + 1)) rest).collect = .ok (later, l) ∧
        bytes = first ++ later ∧ n = m + l := by
  obtain ⟨second, others, rfl⟩ := List.exists_cons_of_ne_nil hrest
  rw [emitSegments]
  case x_1 => simp
  simp only [Emission.collect_bind_eq_ok, Emission.collect_ofExcept_eq_ok,
    Emission.collect_map_eq_ok, nextIndex_eq_ok hi]
  constructor
  · rintro ⟨first, m, second, hfirst, ⟨_, next, later, ⟨⟨hnext, rfl⟩, rfl⟩, ⟨l, hlater, hsum⟩,
      hsecond⟩, rfl⟩
    rw [List.nil_append] at hsecond
    subst hsecond
    exact ⟨first, m, _, l, hfirst, hnext, hlater, rfl, hsum.symm⟩
  · rintro ⟨first, m, later, l, hfirst, hnext, hlater, rfl, rfl⟩
    exact ⟨first, m, later, hfirst, ⟨[], _, later, ⟨⟨hnext, rfl⟩, rfl⟩, ⟨l, hlater, rfl⟩, rfl⟩,
      rfl⟩

theorem sealText_eq_ok {key : Octets 32} {nonce : Octets 12} {ad text sealedText : Bytes} :
    sealText key nonce ad text = .ok sealedText ↔
      text.length ≤ maxTextLength ∧ sealedText = Gcm.encrypt key nonce ad text := by
  rw [sealText]
  split
  case isTrue h => simp [h, eq_comm]
  case isFalse h => simp [h]

/-- Just what encryption gives is opened. -/
theorem openText_eq_ok {operation : Operation} {key : Octets 32} {nonce : Octets 12}
    {ad sealedText text : Bytes} :
    openText operation key nonce ad sealedText = .ok text ↔
      text.length ≤ maxTextLength ∧ sealedText = Gcm.encrypt key nonce ad text := by
  rw [openText]
  cases hdecrypt : Gcm.decrypt key nonce ad sealedText with
  | none =>
      have hne : ¬ sealedText = Gcm.encrypt key nonce ad text := by
        intro h
        rw [Gcm.decrypt_eq_some_iff.mpr h] at hdecrypt
        cases hdecrypt
      split <;> simp [hne]
  | some opened =>
      have hsealed := Gcm.decrypt_eq_some_iff.mp hdecrypt
      have hlength : sealedText.length = opened.length + 16 := by rw [hsealed, Gcm.length_encrypt]
      have hiff : opened = text ↔ sealedText = Gcm.encrypt key nonce ad text := by
        rw [← Gcm.decrypt_eq_some_iff, hdecrypt, Option.some.injEq]
      split
      case isTrue hle =>
        simp only [Except.ok.injEq, hiff]
        constructor
        · intro h
          have hsame := hiff.mpr h
          exact ⟨by rw [← hsame]; omega, h⟩
        · exact fun h => h.2
      case isFalse hlt =>
        simp only [reduceCtorEq, false_iff]
        rintro ⟨hle, h⟩
        rw [← hiff.mpr h] at hle
        omega

namespace SegmentKeys

variable (k : SegmentKeys)

/-- Keys of zeros. -/
def zero : SegmentKeys := ⟨.zero 32, .zero 12, []⟩

/-- Segments of plain text, numbered from `i` on, each encrypted with its number and flag. -/
def encryptFrom (i : Nat) : List Segment → List Segment
  | [] => []
  | segment :: rest =>
      ⟨segment.final,
        Gcm.encrypt k.key (segmentNonce k.nonce (UInt64.ofNat i) segment.final) k.ad
          segment.text⟩ :: encryptFrom (i + 1) rest

@[simp]
theorem length_encryptFrom (i : Nat) (segments : List Segment) :
    (k.encryptFrom i segments).length = segments.length := by
  induction segments generalizing i with
  | nil => rfl
  | cons segment rest ih => rw [encryptFrom, List.length_cons, ih, List.length_cons]

@[simp]
theorem map_final_encryptFrom (i : Nat) (segments : List Segment) :
    (k.encryptFrom i segments).map Segment.final = segments.map Segment.final := by
  induction segments generalizing i with
  | nil => rfl
  | cons segment rest ih => rw [encryptFrom, List.map_cons, ih, List.map_cons]

theorem encryptFrom_append (i : Nat) (segments later : List Segment) :
    k.encryptFrom i (segments ++ later) =
      k.encryptFrom i segments ++ k.encryptFrom (i + segments.length) later := by
  induction segments generalizing i with
  | nil => rfl
  | cons segment rest ih =>
      rw [List.cons_append, encryptFrom, encryptFrom, List.cons_append, ih, List.length_cons,
        Nat.add_right_comm, Nat.add_assoc]

theorem getElem?_encryptFrom (i : Nat) (segments : List Segment) (j : Nat) :
    (k.encryptFrom i segments)[j]? = segments[j]?.map fun segment =>
      ⟨segment.final, Gcm.encrypt k.key
        (segmentNonce k.nonce (UInt64.ofNat (i + j)) segment.final) k.ad segment.text⟩ := by
  induction segments generalizing i j with
  | nil => rfl
  | cons segment rest ih =>
      cases j with
      | zero => rfl
      | succ j =>
          rw [encryptFrom, List.getElem?_cons_succ, ih, List.getElem?_cons_succ,
            Nat.add_right_comm, Nat.add_assoc]

/-- The pieces of a text, each encrypted with its number, and the last one with the flag. -/
def sealedPieces (pieces : List Bytes) : List Bytes :=
  pieces.mapIdx fun i piece =>
    Gcm.encrypt k.key (segmentNonce k.nonce (UInt64.ofNat i) (decide (i + 1 = pieces.length)))
      k.ad piece

theorem map_text_encryptFrom {pieces : List Bytes} (h : pieces ≠ []) :
    (k.encryptFrom 0 (flagLast pieces)).map Segment.text = k.sealedPieces pieces := by
  apply List.ext_getElem?
  intro i
  rw [List.getElem?_map, k.getElem?_encryptFrom, getElem?_flagLast h, sealedPieces,
    List.getElem?_mapIdx, Nat.zero_add]
  cases pieces[i]? <;> rfl

theorem map_length_sealedPieces (pieces : List Bytes) :
    (k.sealedPieces pieces).map List.length = pieces.map fun piece => piece.length + 16 := by
  apply List.ext_getElem?
  intro i
  rw [sealedPieces, List.getElem?_map, List.getElem?_mapIdx, List.getElem?_map]
  cases pieces[i]? <;> simp

theorem exists_piece_of_mem {pieces : List Bytes} {block : Bytes}
    (h : block ∈ k.sealedPieces pieces) : ∃ piece ∈ pieces, block.length = piece.length + 16 := by
  have hlength : block.length ∈ pieces.map fun piece => piece.length + 16 := by
    rw [← k.map_length_sealedPieces]
    exact List.mem_map_of_mem h
  obtain ⟨piece, hpiece, heq⟩ := List.mem_map.mp hlength
  exact ⟨piece, hpiece, heq.symm⟩

theorem exists_sealed_of_mem {pieces : List Bytes} {piece : Bytes} (h : piece ∈ pieces) :
    ∃ block ∈ k.sealedPieces pieces, block.length = piece.length + 16 := by
  have hlength : piece.length + 16 ∈ (k.sealedPieces pieces).map List.length := by
    rw [k.map_length_sealedPieces]
    exact List.mem_map_of_mem h
  exact List.mem_map.mp hlength

theorem sealedPieces_ne_nil {pieces : List Bytes} (h : pieces ≠ []) :
    k.sealedPieces pieces ≠ [] := by
  rw [← k.map_text_encryptFrom h, Ne, List.map_eq_nil_iff, ← List.length_eq_zero_iff,
    k.length_encryptFrom, List.length_eq_zero_iff]
  exact flagLast_ne_nil pieces

theorem flagLast_sealedPieces {pieces : List Bytes} (h : pieces ≠ []) :
    flagLast (k.sealedPieces pieces) = k.encryptFrom 0 (flagLast pieces) := by
  rw [← k.map_text_encryptFrom h]
  exact flagLast_map_text (k.map_final_encryptFrom 0 _)

/-- Blocks that are encrypted segments, are the encrypted pieces of a text. -/
theorem exists_pieces {blocks : List Bytes} {plain : List Segment} (hne : blocks ≠ [])
    (h : flagLast blocks = k.encryptFrom 0 plain) :
    ∃ pieces, pieces ≠ [] ∧ plain = flagLast pieces ∧ blocks = k.sealedPieces pieces := by
  have hflags : plain.map Segment.final = (flagLast blocks).map Segment.final := by
    rw [h, k.map_final_encryptFrom]
  have hplain := flagLast_map_text hflags
  have hpieces : plain.map Segment.text ≠ [] := by
    intro hnil
    rw [List.map_eq_nil_iff.mp hnil] at h
    exact flagLast_ne_nil _ h
  refine ⟨_, hpieces, hplain.symm, ?_⟩
  rw [← k.map_text_encryptFrom hpieces, hplain, ← h, map_text_flagLast hne]

/-- What limits a run of segments: the length of each and the number of the last. -/
def Fits (i : Nat) (segments : List Segment) : Prop :=
  (∀ segment ∈ segments, segment.text.length ≤ maxTextLength) ∧
    i + segments.length ≤ UInt64.size

theorem fits_flagLast {pieces : List Bytes} (hne : pieces ≠ [])
    (hshort : ∀ piece ∈ pieces, piece.length ≤ maxTextLength)
    (hcount : pieces.length ≤ UInt64.size) : Fits 0 (flagLast pieces) := by
  constructor
  · intro segment hsegment
    rcases text_mem_of_mem_flagLast hsegment with hpiece | hnil
    · exact hshort _ hpiece
    · rw [hnil]
      exact Nat.zero_le _
  · rw [length_flagLast hne]
    omega

end SegmentKeys

/-- A piece of work done on each segment: `cipher` is applied, its output written, and the length
of the plain text counted. -/
def segmentWork (operation : Operation) (cipher : UInt64 → Segment → Except Failure Bytes)
    (plain : Segment → Bytes → Bytes) (index : UInt64) (segment : Segment) : Emission Nat := do
  let out ← .ofExcept (cipher index segment)
  .write operation out
  pure (plain segment out).length

theorem collect_segmentWork {operation : Operation}
    {cipher : UInt64 → Segment → Except Failure Bytes} {plain : Segment → Bytes → Bytes}
    {index : UInt64} {segment : Segment} {bytes : Bytes} {n : Nat} :
    (segmentWork operation cipher plain index segment).collect = .ok (bytes, n) ↔
      cipher index segment = .ok bytes ∧ n = (plain segment bytes).length := by
  simp only [segmentWork, Emission.collect_bind_eq_ok, Emission.collect_ofExcept_eq_ok,
    Emission.collect_write, Emission.collect_pure]
  constructor
  · rintro ⟨_, out, _, ⟨hcipher, rfl⟩, ⟨_, _, _, hwrite, hpure, rfl⟩, rfl⟩
    cases hwrite
    cases hpure
    rw [List.nil_append, List.append_nil]
    exact ⟨hcipher, rfl⟩
  · rintro ⟨hcipher, rfl⟩
    exact ⟨[], bytes, bytes, ⟨hcipher, rfl⟩, ⟨bytes, (), [], rfl, rfl, by simp⟩, rfl⟩

namespace SegmentKeys

variable (k : SegmentKeys)

/-- Work that encrypts a segment and writes the ciphertext in the form `wrap`. -/
def Encrypts (wrap : Bytes → Bytes) (work : UInt64 → Segment → Emission Nat) : Prop :=
  ∀ index segment bytes n, (work index segment).collect = .ok (bytes, n) ↔
    ∃ sealedText, k.sealSegment index segment = .ok sealedText ∧ bytes = wrap sealedText ∧
      n = segment.text.length

/-- Encrypting segments succeeds just when they fit, and gives the encrypted segments in order. -/
theorem collect_encrypt {wrap : Bytes → Bytes} {work : UInt64 → Segment → Emission Nat}
    (hwork : k.Encrypts wrap work) {i : Nat} {segments : List Segment} (hne : segments ≠ [])
    (hi : i < UInt64.size) {bytes : Bytes} {n : Nat} :
    (emitSegments work (UInt64.ofNat i) segments).collect = .ok (bytes, n) ↔
      Fits i segments ∧ bytes = (k.encryptFrom i segments).flatMap (fun s => wrap s.text) ∧
        n = (segments.flatMap Segment.text).length := by
  induction segments generalizing i bytes n with
  | nil => exact absurd rfl hne
  | cons segment rest ih =>
      by_cases hrest : rest = []
      · subst hrest
        rw [emitSegments, hwork, sealSegment]
        simp only [sealText_eq_ok, Fits, encryptFrom, List.mem_singleton, forall_eq,
          List.length_singleton, List.flatMap_singleton]
        constructor
        · rintro ⟨sealedText, ⟨hle, rfl⟩, rfl, rfl⟩
          exact ⟨⟨hle, hi⟩, rfl, rfl⟩
        · rintro ⟨⟨hle, -⟩, rfl, rfl⟩
          exact ⟨_, ⟨hle, rfl⟩, rfl, rfl⟩
      · rw [collect_emitSegments_cons hrest hi]
        simp only [hwork _ _ _ _, sealSegment, sealText_eq_ok]
        constructor
        · rintro ⟨first, m, later, l, ⟨_, ⟨hle, rfl⟩, rfl, rfl⟩, hnext, hlater, rfl, rfl⟩
          obtain ⟨⟨hall, hcount⟩, rfl, rfl⟩ := (ih hrest hnext).mp hlater
          refine ⟨⟨?_, ?_⟩, ?_, ?_⟩
          · exact List.forall_mem_cons.mpr ⟨hle, hall⟩
          · rw [List.length_cons]
            omega
          · rw [encryptFrom, List.flatMap_cons]
          · rw [List.flatMap_cons, List.length_append]
        · rintro ⟨⟨hall, hcount⟩, rfl, rfl⟩
          obtain ⟨hle, hall⟩ := List.forall_mem_cons.mp hall
          have hpos := List.length_pos_iff.mpr hrest
          rw [List.length_cons] at hcount
          have hnext : i + 1 < UInt64.size := by omega
          exact ⟨_, _, _, _, ⟨_, ⟨hle, rfl⟩, rfl, rfl⟩, hnext,
            (ih hrest hnext).mpr ⟨⟨hall, by omega⟩, rfl, rfl⟩,
            by rw [encryptFrom, List.flatMap_cons],
            by rw [List.flatMap_cons, List.length_append]⟩

end SegmentKeys

end SealedEnvelope
