import SealedEnvelope.Proofs.Segment.Pieces

/-!
What the decryption of a run does. Segments are opened in order up to the first that
is not accepted, the text of each is written as soon as it has been opened, and the
pieces accepted on the way settle what has been written and how it ended.
-/

namespace SealedEnvelope

section Emission

variable {work : UInt64 → Segment → Emission Nat} {i : Nat} {segment : Segment}
  {rest : List Segment}

theorem emitSegments_cons_of_error {failure : Failure}
    (h : (work (UInt64.ofNat i) segment).ending = .error failure) :
    emitSegments work (UInt64.ofNat i) (segment :: rest) =
      ⟨(work (UInt64.ofNat i) segment).steps, .error failure⟩ := by
  cases rest with
  | nil =>
      rw [emitSegments, ← h]
  | cons second later =>
      rw [emitSegments, Emission.bind_of_error h]
      simp

theorem emitSegments_cons_of_ok (hrest : rest ≠ []) {n : Nat}
    (h : (work (UInt64.ofNat i) segment).ending = .ok n) (hi : i + 1 < UInt64.size) :
    emitSegments work (UInt64.ofNat i) (segment :: rest) =
      ⟨(work (UInt64.ofNat i) segment).steps ++
          (emitSegments work (UInt64.ofNat (i + 1)) rest).steps,
        (emitSegments work (UInt64.ofNat (i + 1)) rest).ending.map (n + ·)⟩ := by
  obtain ⟨second, later, rfl⟩ := List.exists_cons_of_ne_nil hrest
  have hnext : nextIndex (UInt64.ofNat i) = .ok (UInt64.ofNat (i + 1)) :=
    (nextIndex_eq_ok (by omega)).mpr ⟨hi, rfl⟩
  rw [emitSegments, Emission.bind_of_ok h, hnext]
  · rfl
  · simp

/-- Behind the last number there is none for another segment. -/
theorem emitSegments_cons_of_last (hrest : rest ≠ []) {n : Nat}
    (h : (work (UInt64.ofNat i) segment).ending = .ok n) (hi : i + 1 = UInt64.size) :
    emitSegments work (UInt64.ofNat i) (segment :: rest) =
      ⟨(work (UInt64.ofNat i) segment).steps, .error (.invalidParameter .countersExhausted)⟩ := by
  obtain ⟨second, later, rfl⟩ := List.exists_cons_of_ne_nil hrest
  have hnumber : (UInt64.ofNat i).toNat = i := UInt64.toNat_ofNat_of_lt' (by omega)
  have hnext : nextIndex (UInt64.ofNat i) = .error (.invalidParameter .countersExhausted) := by
    rw [nextIndex, hnumber, if_neg (by omega)]
  rw [emitSegments, Emission.bind_of_ok h, hnext]
  · simp [Emission.ofExcept, Emission.bind_of_error]
  · simp

end Emission

/-- A run ends with its segments, or with flushing the output. -/
theorem SegmentRun.steps_emit (run : SegmentRun) (operation : Operation)
    (work : UInt64 → Segment → Emission Nat) :
    ∃ ending, (run.emit operation work).steps =
        (emitSegments work 0 run.segments).steps ++ ending ∧
      (ending = [] ∨ ending = [.flush operation]) := by
  rw [SegmentRun.emit]
  cases hending : (emitSegments work 0 run.segments).ending with
  | error failure =>
      rw [Emission.bind_of_error hending]
      exact ⟨[], by simp, .inl rfl⟩
  | ok n =>
      rw [Emission.bind_of_ok hending]
      cases run.failure with
      | none => exact ⟨[.flush operation], rfl, .inr rfl⟩
      | some failure => exact ⟨[], rfl, .inl rfl⟩

theorem SegmentRun.bytes_emit (run : SegmentRun) (operation : Operation)
    (work : UInt64 → Segment → Emission Nat) :
    (run.emit operation work).bytes = (emitSegments work 0 run.segments).bytes := by
  obtain ⟨ending, hsteps, hending⟩ := run.steps_emit operation work
  rw [Emission.bytes, hsteps, List.flatMap_append]
  rcases hending with rfl | rfl <;> exact List.append_nil _

/-- A run that has been worked on ends as reading it did. -/
theorem SegmentRun.ending_emit (run : SegmentRun) (operation : Operation)
    (work : UInt64 → Segment → Emission Nat) :
    (run.emit operation work).ending = (emitSegments work 0 run.segments).ending >>= fun n =>
      match run.failure with
      | some failure => .error failure
      | none => .ok n := by
  rw [SegmentRun.emit, Emission.ending_bind]
  congr 1
  funext n
  cases run.failure <;> rfl

namespace SegmentKeys

variable (k : SegmentKeys) (operation : Operation)

/-- Opens segments one after the other, numbered from `i` on, and writes their texts. -/
def decryptFrom (i : Nat) (segments : List Segment) : Emission Nat :=
  emitSegments (segmentWork operation (k.openSegment operation) fun _ out => out)
    (UInt64.ofNat i) segments

/-- Opens the segments of a run. -/
def decryptRun (run : SegmentRun) : Emission Nat :=
  run.emit operation (segmentWork operation (k.openSegment operation) fun _ out => out)

variable {k operation}

theorem segmentWork_of_opened {index : UInt64} {segment : Segment} {text : Bytes}
    (h : k.openSegment operation index segment = .ok text) :
    segmentWork operation (k.openSegment operation) (fun _ out => out) index segment =
      ⟨[.write operation text], .ok text.length⟩ := by
  rw [segmentWork, h]
  rfl

theorem segmentWork_of_refused {index : UInt64} {segment : Segment} {failure : Failure}
    (h : k.openSegment operation index segment = .error failure) :
    segmentWork operation (k.openSegment operation) (fun _ out => out) index segment =
      ⟨[], .error failure⟩ := by
  rw [segmentWork, h]
  rfl

variable (operation)

theorem openSegment_encrypt {segment : Segment} (h : segment.text.length ≤ maxTextLength)
    (index : UInt64) :
    k.openSegment operation index ⟨segment.final,
      Gcm.encrypt k.key (segmentNonce k.nonce index segment.final) k.ad segment.text⟩ =
        .ok segment.text :=
  openText_eq_ok.mpr ⟨h, rfl⟩

/-- What has been encrypted is opened before anything that follows it. -/
theorem decryptFrom_append {i : Nat} {plain rest : List Segment} (hfits : Fits i plain)
    (hrest : rest ≠ [] → i + plain.length < UInt64.size) :
    (k.decryptFrom operation i (k.encryptFrom i plain ++ rest)).bytes =
        plain.flatMap Segment.text ++ (k.decryptFrom operation (i + plain.length) rest).bytes ∧
      (k.decryptFrom operation i (k.encryptFrom i plain ++ rest)).ending =
        (k.decryptFrom operation (i + plain.length) rest).ending.map
          ((plain.flatMap Segment.text).length + ·) := by
  induction plain generalizing i with
  | nil =>
      have hsame (result : Except Failure Nat) : result = result.map (0 + ·) := by
        cases result <;> simp [Except.map]
      exact ⟨rfl, hsame _⟩
  | cons segment plain ih =>
      obtain ⟨hshort, hcount⟩ := hfits
      obtain ⟨hle, hall⟩ := List.forall_mem_cons.mp hshort
      rw [List.length_cons] at hcount hrest
      have hwork := segmentWork_of_opened
        (openSegment_encrypt (k := k) operation hle (UInt64.ofNat i))
      rw [encryptFrom, List.cons_append, List.flatMap_cons, List.length_cons]
      by_cases hlast : k.encryptFrom (i + 1) plain ++ rest = []
      · obtain ⟨hplain, rfl⟩ := List.append_eq_nil_iff.mp hlast
        have hlength := congrArg List.length hplain
        rw [length_encryptFrom, List.length_nil] at hlength
        obtain rfl := List.length_eq_zero_iff.mp hlength
        simp only [decryptFrom, encryptFrom, List.nil_append, emitSegments, hwork]
        simp [Emission.bytes, OutputStep.bytes, Except.map, pure]
      · have hnext : i + 1 < UInt64.size := by
          by_cases hnil : rest = []
          · subst hnil
            rw [List.append_nil] at hlast
            have hpos := List.length_pos_iff.mpr hlast
            rw [length_encryptFrom] at hpos
            omega
          · have hroom := hrest hnil
            omega
        have hlater : rest ≠ [] → i + 1 + plain.length < UInt64.size := by
          intro hnil
          have hroom := hrest hnil
          omega
        obtain ⟨hbytes, hending⟩ := ih ⟨hall, by omega⟩ hlater
        have hstep := emitSegments_cons_of_ok hlast (congrArg Emission.ending hwork) hnext
        rw [show i + (plain.length + 1) = i + 1 + plain.length by omega]
        rw [decryptFrom, hstep, hwork]
        constructor
        · rw [List.append_assoc, ← hbytes]
          simp [decryptFrom, Emission.bytes, OutputStep.bytes]
        · change Except.map _ (k.decryptFrom operation (i + 1) _).ending = _
          rw [hending]
          cases (k.decryptFrom operation (i + 1 + plain.length) rest).ending <;>
            simp [Except.map, Nat.add_assoc]

variable (k)

/-- The pieces that decryption accepts one after the other, up to the first that it does not. The
numbers last for so many only. -/
def acceptedFrom (i : Nat) (segments : List Segment) : List Piece :=
  (k.pieces i (segments.take (UInt64.size - i))).takeWhile (Piece.opens k.key)

theorem acceptedFrom_cons {i : Nat} (hi : i < UInt64.size) (segment : Segment)
    (rest : List Segment) :
    k.acceptedFrom i (segment :: rest) =
      let piece : Piece :=
        ⟨segmentNonce k.nonce (UInt64.ofNat i) segment.final, k.ad, segment.text⟩
      if piece.opens k.key then piece :: k.acceptedFrom (i + 1) rest else [] := by
  have hroom : UInt64.size - i = UInt64.size - (i + 1) + 1 := by omega
  rw [acceptedFrom, hroom, List.take_succ_cons, pieces, List.takeWhile_cons]
  rfl

theorem acceptedFrom_of_refused {i : Nat} (hi : i < UInt64.size) {segment : Segment}
    {rest : List Segment}
    (h : Piece.opens k.key ⟨segmentNonce k.nonce (UInt64.ofNat i) segment.final, k.ad,
      segment.text⟩ = false) :
    k.acceptedFrom i (segment :: rest) = [] := by
  rw [k.acceptedFrom_cons hi]
  exact if_neg (by rw [h]; exact Bool.false_ne_true)

/-- Segments begin with those that have been encrypted, all of which are accepted. Then comes
nothing, or one that is not accepted, or there are no more numbers. -/
theorem exists_encrypted_front {i : Nat} (hi : i ≤ UInt64.size) (segments : List Segment) :
    ∃ plain rest, segments = k.encryptFrom i plain ++ rest ∧ Fits i plain ∧
      k.acceptedFrom i segments = k.pieces i (k.encryptFrom i plain) ∧
      (rest = [] ∨ i + plain.length = UInt64.size ∨
        ∃ segment later, rest = segment :: later ∧ i + plain.length < UInt64.size ∧
          Piece.opens k.key ⟨segmentNonce k.nonce (UInt64.ofNat (i + plain.length)) segment.final,
            k.ad, segment.text⟩ = false) := by
  induction segments generalizing i with
  | nil => exact ⟨[], [], rfl, ⟨by simp, hi⟩, by simp [acceptedFrom, pieces, encryptFrom], .inl rfl⟩
  | cons segment segments ih =>
      rcases Nat.lt_or_eq_of_le hi with hlt | rfl
      · rw [k.acceptedFrom_cons hlt]
        dsimp only
        split
        case isTrue hopens =>
          obtain ⟨text, htext⟩ := (Piece.opens_iff .decrypt).mp hopens
          obtain ⟨hle, hsealed⟩ := openText_eq_ok.mp htext
          obtain ⟨plain, rest, rfl, ⟨hshort, hcount⟩, haccepted, hend⟩ := ih hlt
          refine ⟨⟨segment.final, text⟩ :: plain, rest, ?_, ⟨?_, ?_⟩, ?_, ?_⟩
          · rw [encryptFrom, List.cons_append, ← hsealed]
          · exact List.forall_mem_cons.mpr ⟨hle, hshort⟩
          · rw [List.length_cons]
            omega
          · rw [haccepted, encryptFrom, pieces, ← hsealed]
          · rwa [List.length_cons, show i + (plain.length + 1) = i + 1 + plain.length by omega]
        case isFalse hrefused =>
          exact ⟨[], segment :: segments, rfl, ⟨by simp, hi⟩, rfl,
            .inr (.inr ⟨segment, segments, rfl, hlt, by simpa using hrefused⟩)⟩
      · exact ⟨[], segment :: segments, rfl, ⟨by simp, Nat.le_refl _⟩,
          by simp [acceptedFrom, pieces, encryptFrom], .inr (.inl rfl)⟩

variable {k} {run : SegmentRun}

theorem bytes_decryptRun (k : SegmentKeys) (run : SegmentRun) :
    (k.decryptRun operation run).bytes = (k.decryptFrom operation 0 run.segments).bytes :=
  run.bytes_emit operation _

theorem ending_decryptRun (k : SegmentKeys) (run : SegmentRun) :
    (k.decryptRun operation run).ending =
      (k.decryptFrom operation 0 run.segments).ending >>= fun n =>
        match run.failure with
        | some failure => .error failure
        | none => .ok n :=
  run.ending_emit operation _

/-- A run that begins with encrypted segments is decrypted so far, and goes on as its rest does. -/
theorem decryptRun_of_front {plain rest : List Segment}
    (hsegments : run.segments = k.encryptFrom 0 plain ++ rest) (hfits : Fits 0 plain)
    (hrest : rest ≠ [] → plain.length < UInt64.size) :
    (k.decryptRun operation run).bytes =
        plain.flatMap Segment.text ++ (k.decryptFrom operation plain.length rest).bytes ∧
      (k.decryptRun operation run).ending =
        (k.decryptFrom operation plain.length rest).ending >>= fun n =>
          match run.failure with
          | some failure => .error failure
          | none => .ok ((plain.flatMap Segment.text).length + n) := by
  obtain ⟨hbytes, hending⟩ :=
    decryptFrom_append (k := k) operation hfits (by rwa [Nat.zero_add])
  rw [Nat.zero_add] at hbytes hending
  rw [bytes_decryptRun, ending_decryptRun, hsegments, hbytes, hending]
  refine ⟨rfl, ?_⟩
  cases (k.decryptFrom operation plain.length rest).ending <;> rfl

theorem decryptFrom_of_refused {i : Nat} {segment : Segment} {rest : List Segment}
    (h : Piece.opens k.key ⟨segmentNonce k.nonce (UInt64.ofNat i) segment.final, k.ad,
      segment.text⟩ = false) :
    k.decryptFrom operation i (segment :: rest) =
      ⟨[], .error (.authenticationFailed operation)⟩ := by
  have hwork := segmentWork_of_refused (Piece.openText_of_refused h operation)
  rw [decryptFrom, emitSegments_cons_of_error (congrArg Emission.ending hwork), hwork]

/-- The last number is not followed by another. -/
theorem decryptFrom_of_last {i : Nat} {segment : Segment} {rest : List Segment}
    (hle : segment.text.length ≤ maxTextLength) (hrest : rest ≠ []) (hi : i + 1 = UInt64.size) :
    k.decryptFrom operation i (k.encryptFrom i [segment] ++ rest) =
      ⟨[.write operation segment.text], .error (.invalidParameter .countersExhausted)⟩ := by
  have hwork := segmentWork_of_opened
    (openSegment_encrypt (k := k) operation hle (UInt64.ofNat i))
  rw [decryptFrom, encryptFrom, encryptFrom, List.singleton_append,
    emitSegments_cons_of_last hrest (congrArg Emission.ending hwork) hi, hwork]

/-- What a decryption can do. It opens encrypted segments and writes their texts; then the run
ends as reading it did, or the next segment is refused, or the numbers are used up. -/
theorem decryptRun_cases (k : SegmentKeys) (operation : Operation) (run : SegmentRun) :
    ∃ plain rest, run.segments = k.encryptFrom 0 plain ++ rest ∧ Fits 0 plain ∧
      k.acceptedFrom 0 run.segments = k.pieces 0 (k.encryptFrom 0 plain) ∧
      (k.decryptRun operation run).bytes = plain.flatMap Segment.text ∧
      (rest = [] ∧ (k.decryptRun operation run).ending =
          (match run.failure with
          | some failure => .error failure
          | none => .ok (plain.flatMap Segment.text).length) ∨
        rest ≠ [] ∧ plain.length < UInt64.size ∧
          (k.decryptRun operation run).ending = .error (.authenticationFailed operation) ∨
        rest ≠ [] ∧ plain.length = UInt64.size ∧
          (k.decryptRun operation run).ending =
            .error (.invalidParameter .countersExhausted)) := by
  obtain ⟨plain, rest, hsegments, hfits, haccepted, hend⟩ :=
    k.exists_encrypted_front (Nat.zero_le _) run.segments
  refine ⟨plain, rest, hsegments, hfits, haccepted, ?_⟩
  rw [Nat.zero_add] at hend
  by_cases hrest : rest = []
  · subst hrest
    obtain ⟨hbytes, hending⟩ :=
      decryptRun_of_front operation hsegments hfits (fun h => absurd rfl h)
    refine ⟨by simpa [decryptFrom, emitSegments] using hbytes, .inl ⟨rfl, ?_⟩⟩
    rw [hending]
    rfl
  · rcases hend with hnil | hcount | ⟨segment, later, rfl, hlt, hrefused⟩
    · exact absurd hnil hrest
    · have hpos : plain ≠ [] := by
        rintro rfl
        exact absurd hcount (by decide)
      obtain ⟨front, last, rfl⟩ := (List.eq_nil_or_concat' plain).resolve_left hpos
      rw [List.length_append, List.length_singleton] at hcount
      have hle : last.text.length ≤ maxTextLength := hfits.1 last (by simp)
      have hfront : Fits 0 front :=
        ⟨fun segment hsegment => hfits.1 segment (List.mem_append_left _ hsegment), by omega⟩
      rw [encryptFrom_append, Nat.zero_add, List.append_assoc] at hsegments
      obtain ⟨hbytes, hending⟩ := decryptRun_of_front operation hsegments hfront
        fun _ => by omega
      rw [decryptFrom_of_last operation hle hrest hcount] at hbytes hending
      refine ⟨?_, .inr (.inr ⟨hrest, by simpa using hcount, hending⟩)⟩
      rw [hbytes]
      simp [Emission.bytes, OutputStep.bytes]
    · obtain ⟨hbytes, hending⟩ :=
        decryptRun_of_front operation hsegments hfits fun _ => hlt
      rw [decryptFrom_of_refused operation hrefused] at hbytes hending
      exact ⟨by simpa [Emission.bytes] using hbytes, .inr (.inl ⟨hrest, hlt, hending⟩)⟩

/-- Decryption succeeds just on encrypted segments that fit, and gives their text. -/
theorem collect_decryptRun {segments : List Segment} {text : Bytes} {n : Nat} :
    (k.decryptRun operation ⟨segments, none⟩).collect = .ok (text, n) ↔
      ∃ plain, segments = k.encryptFrom 0 plain ∧ Fits 0 plain ∧
        text = plain.flatMap Segment.text ∧ n = text.length := by
  rw [Emission.collect_eq_ok]
  constructor
  · rintro ⟨hending, rfl⟩
    obtain ⟨plain, rest, hsegments, hfits, -, hbytes, hend⟩ :=
      k.decryptRun_cases operation ⟨segments, none⟩
    rcases hend with ⟨rfl, hok⟩ | ⟨-, -, hfail⟩ | ⟨-, -, hfail⟩
    · rw [List.append_nil] at hsegments
      exact ⟨plain, hsegments, hfits, hbytes, by
        rw [hbytes]
        exact Except.ok.inj (hending.symm.trans hok)⟩
    · cases hending.symm.trans hfail
    · cases hending.symm.trans hfail
  · rintro ⟨plain, rfl, hfits, rfl, rfl⟩
    have hfront : (SegmentRun.mk (k.encryptFrom 0 plain) none).segments =
        k.encryptFrom 0 plain ++ [] := (List.append_nil _).symm
    obtain ⟨hbytes, hending⟩ := decryptRun_of_front operation hfront hfits (fun h => absurd rfl h)
    exact ⟨hending, by simpa [decryptFrom, emitSegments] using hbytes⟩

end SegmentKeys

end SealedEnvelope
