import SealedEnvelope.Proofs.Transfer.Calls

/-!
The reader that keeps back a trailer: it delivers all bytes of its source but the
last eighty, whatever the pieces, and holds just those once it has ended. What the
loop of a call does is said once, by `Refilled`.
-/

namespace SealedEnvelope.Withholding

/-- What the loop of a call does. It calls the source, once for each byte and interruption left and
once more at the most, and holds all that this brings. It ends with more than a trailer held, or at
the end of the source, or with the fault of the source. -/
structure Refilled (w : Withholding) (result : Option IoFault) (next : Withholding) : Prop where
  exists_calls : ∃ k ≤ w.source.size + 1, ∃ taken,
    ByteReader.calls (List.replicate k readAhead) w.source = (taken, next.source) ∧
      next.held = w.held ++ taken
  held_le : next.held.length ≤ max w.held.length (trailerLength + readAhead)
  of_none : result = none → trailerLength < next.held.length ∨ next.ended = true
  of_some {f : IoFault} : result = some f →
    next.held.length ≤ trailerLength ∧ next.source.bytes = [] ∧ w.source.fault = some f
  of_ended : next.ended = true →
    (w.ended = true ∧ next = w) ∨ (next.source.bytes = [] ∧ w.source.fault = none)

/-- The loop may begin with a call of the source, if no more than a trailer is held. -/
theorem Refilled.call {w next : Withholding} {result : Option IoFault} {reading : Reading}
    {source : Source} (hshort : w.held.length ≤ trailerLength)
    (hread : w.source.read readAhead = (reading, source)) (hsize : source.size < w.source.size)
    (h : Refilled ⟨source, w.held ++ reading.bytes, false⟩ result next) :
    Refilled w result next := by
  obtain ⟨-, hfault⟩ := Source.bytes_of_call hread
  have hlength := Source.length_of_call hread
  refine ⟨?_, ?_, h.of_none, fun hsome => ?_, fun hended => ?_⟩
  · obtain ⟨k, hk, taken, hcalls, hheld⟩ := h.exists_calls
    dsimp only at hk hcalls hheld
    refine ⟨k + 1, by omega, reading.bytes ++ taken, ?_, by rw [hheld, List.append_assoc]⟩
    rw [List.replicate_succ, Source.calls_cons_of_read hread, hcalls]
  · have hheld := h.held_le
    rw [List.length_append] at hheld
    omega
  · obtain ⟨hheld, hbytes, hsame⟩ := h.of_some hsome
    exact ⟨hheld, hbytes, hfault.symm.trans hsame⟩
  · rcases h.of_ended hended with ⟨hfalse, -⟩ | ⟨hbytes, hnone⟩
    · cases hfalse
    · exact Or.inr ⟨hbytes, hfault.symm.trans hnone⟩

theorem refilled (w : Withholding) : Refilled w w.refill.1 w.refill.2 := by
  fun_induction Withholding.refill w with
  | case1 w hw source hread =>
      obtain ⟨hnil, hnone⟩ := Source.bytes_eq_nil_of_read (by decide) hread
      obtain ⟨hbytes, -⟩ := Source.bytes_of_read hread
      rw [hnil, List.nil_append] at hbytes
      refine ⟨⟨1, Nat.le_add_left _ _, [], ?_, by simp⟩, le_max_left _ _, by simp, by simp,
        fun _ => Or.inr ⟨hbytes.symm, hnone⟩⟩
      exact Source.calls_cons_of_read hread []
  | case2 w hw byte piece source hread ih =>
      have hsize := (Source.read_data hread).2
      rw [List.length_cons] at hsize
      exact ih.call hw.1 hread (by omega)
  | case3 w hw source hread ih =>
      have hsize := Source.read_interrupted hread
      apply Refilled.call hw.1 hread hsize
      rwa [Reading.bytes, List.append_nil]
  | case4 w hw fault source hread =>
      obtain ⟨hnil, hfault⟩ := Source.bytes_eq_nil_of_failed hread
      obtain rfl := Source.eq_of_read_failed hread
      refine ⟨⟨1, Nat.le_add_left _ _, [], ?_, by simp⟩, le_max_left _ _, by simp, ?_, by simp⟩
      · exact Source.calls_cons_of_read hread []
      · rintro f ⟨⟩
        exact ⟨hw.1, hnil, hfault⟩
  | case5 w hw =>
      refine ⟨⟨0, Nat.zero_le _, [], rfl, by simp⟩, le_max_left _ _, fun _ => ?_, by simp,
        fun hended => Or.inl ⟨hended, rfl⟩⟩
      cases hended : w.ended with
      | true => exact Or.inr rfl
      | false => exact Or.inl (by simpa [hended] using hw)

/-- The bytes taken from the source and those still in it are the bytes to be delivered and the
tail. A tail that is shorter than a trailer leaves nothing to deliver. -/
structure Keeps (tail : Bytes) (w : Withholding) (bytes : Bytes) (fault : Option IoFault) :
    Prop where
  held : w.held ++ w.source.bytes = bytes ++ tail
  tail_le : tail.length ≤ trailerLength
  empty_of_short : tail.length < trailerLength → bytes = []
  fault_eq : w.source.fault = fault
  of_ended : w.ended = true → w.source.bytes = [] ∧ fault = none

theorem Keeps.refill {tail bytes : Bytes} {fault : Option IoFault} {w : Withholding}
    (h : Keeps tail w bytes fault) :
    (w.refill.1 = none ∧ Keeps tail w.refill.2 bytes fault ∧
        (trailerLength < w.refill.2.held.length ∨ w.refill.2.ended = true)) ∨
      (∃ f, w.refill.1 = some f ∧ bytes = [] ∧ fault = some f) := by
  have hloop := w.refilled
  obtain ⟨k, -, taken, hcalls, htaken⟩ := hloop.exists_calls
  obtain ⟨hbytes, hsame⟩ := Source.bytes_of_calls (List.replicate k readAhead) w.source
  rw [hcalls] at hbytes hsame
  have hheld : w.refill.2.held ++ w.refill.2.source.bytes = bytes ++ tail := by
    rw [htaken, List.append_assoc, ← hbytes, h.held]
  cases hresult : w.refill.1 with
  | none =>
      refine Or.inl ⟨rfl, ⟨hheld, h.tail_le, h.empty_of_short, hsame.trans h.fault_eq, ?_⟩,
        hloop.of_none hresult⟩
      intro hended
      rcases hloop.of_ended hended with ⟨hbefore, hnext⟩ | ⟨hnil, hnone⟩
      · rw [hnext]
        exact h.of_ended hbefore
      · exact ⟨hnil, h.fault_eq.symm.trans hnone⟩
  | some f =>
      obtain ⟨hshort, hnil, hfault⟩ := hloop.of_some hresult
      refine Or.inr ⟨f, rfl, ?_, h.fault_eq.symm.trans hfault⟩
      rw [hnil, List.append_nil] at hheld
      have hlength := congrArg List.length hheld
      rw [List.length_append] at hlength
      rcases Nat.lt_or_ge tail.length trailerLength with hlt | hge
      · exact h.empty_of_short hlt
      · exact List.length_eq_zero_iff.mp (by omega)

/-- What is held beyond the trailer is the front of the bytes to be delivered. -/
theorem Keeps.take_held {tail bytes : Bytes} {fault : Option IoFault} {w : Withholding}
    (h : Keeps tail w bytes fault) {count : Nat} (hcount : count ≤ w.held.length - trailerLength) :
    w.held.take count = bytes.take count ∧
      Keeps tail { w with held := w.held.drop count } (bytes.drop count) fault := by
  have hlength := congrArg List.length h.held
  simp only [List.length_append] at hlength
  have hbytes : count ≤ bytes.length := by
    rcases Nat.lt_or_ge tail.length trailerLength with hshort | hlong
    · have hnil := h.empty_of_short hshort
      rw [hnil, List.length_nil] at hlength
      omega
    · have := h.tail_le
      omega
  have htake := congrArg (List.take count) h.held
  have hdrop := congrArg (List.drop count) h.held
  rw [List.take_append_of_le_length (by omega), List.take_append_of_le_length hbytes] at htake
  rw [List.drop_append_of_le_length (by omega), List.drop_append_of_le_length hbytes] at hdrop
  refine ⟨htake, hdrop, h.tail_le, ?_, h.fault_eq, h.of_ended⟩
  intro hshort
  rw [h.empty_of_short hshort, List.drop_nil]

theorem Keeps.read_cases {tail bytes : Bytes} {fault : Option IoFault} {w next : Withholding}
    {n : Nat} {reading : Reading} (h : Keeps tail w bytes fault)
    (hread : w.read n = (reading, next)) :
    (∃ count, reading = .data (bytes.take count) ∧ Keeps tail next (bytes.drop count) fault ∧
        count ≤ bytes.length ∧
        (0 < n → count = 0 → bytes = [] ∧ fault = none ∧ next.ended = true ∧ next.held = tail)) ∨
      (∃ f, reading = .failed f ∧ bytes = [] ∧ fault = some f) := by
  unfold Withholding.read at hread
  rcases hrefill : w.refill with ⟨fault', filled⟩
  rw [hrefill] at hread
  rcases h.refill with ⟨hnone, hkeeps, hfull⟩ | ⟨f, hsome, hnil, hfault⟩
  · rw [hrefill] at hnone hkeeps hfull
    dsimp only at hnone hkeeps hfull
    rw [hnone] at hread
    cases hread
    obtain ⟨htake, hnext⟩ := hkeeps.take_held (Nat.min_le_left _ n)
    have hlength := congrArg List.length htake
    simp only [List.length_take] at hlength
    refine Or.inl ⟨_, by rw [htake], hnext, by omega, ?_⟩
    intro hn hcount
    have hshort : filled.held.length ≤ trailerLength := by omega
    have hended : filled.ended = true := hfull.resolve_left (by omega)
    obtain ⟨hsource, hfault⟩ := hkeeps.of_ended hended
    have hheld := hkeeps.held
    rw [hsource, List.append_nil] at hheld
    have hnil : bytes = [] := by
      rcases Nat.lt_or_ge tail.length trailerLength with hlt | hge
      · exact hkeeps.empty_of_short hlt
      · have hsum := congrArg List.length hheld
        rw [List.length_append] at hsum
        exact List.length_eq_zero_iff.mp (by omega)
    refine ⟨hnil, hfault, hended, ?_⟩
    rw [hnil, List.nil_append] at hheld
    rw [hcount]
    exact hheld
  · rw [hrefill] at hsome
    dsimp only at hsome
    rw [hsome] at hread
    cases hread
    exact Or.inr ⟨f, rfl, hnil, hfault⟩

/-- A reader that keeps `tail` back delivers what stands before it, and holds it at the end. -/
def view (tail : Bytes) : ReaderView Withholding where
  Holds := Keeps tail
  Ended w := w.ended = true ∧ w.held = tail
  data_read := by
    intro n w next bytes got fault _ h hread
    rcases h.read_cases hread with ⟨count, hdata, hnext, -⟩ | ⟨f, hfailed, -⟩
    · cases hdata
      exact ⟨_, (List.take_append_drop count bytes).symm, hnext⟩
    · cases hfailed
  ended_read := by
    intro n w next bytes fault hn h hread
    rcases h.read_cases hread with ⟨count, hdata, hnext, hcount, hend⟩ | ⟨f, hfailed, -⟩
    · have hempty : bytes.take count = [] := (Reading.data.inj hdata).symm
      have hlength := congrArg List.length hempty
      rw [List.length_take_of_le hcount, List.length_nil] at hlength
      exact hend hn hlength
    · cases hfailed
  interrupted_read := fun _ _ hread => absurd hread read_ne_interrupted
  failed_read := by
    intro n w next bytes fault f _ h hread
    rcases h.read_cases hread with ⟨count, hdata, -⟩ | ⟨f', hfailed, hend⟩
    · cases hdata
    · cases hfailed
      exact hend

/-- Where the source ends with a whole trailer, that is kept back and all before is delivered. -/
theorem view_holds {source : Source} {bytes tail : Bytes} (h : source.bytes = bytes ++ tail)
    (htail : tail.length = trailerLength) :
    (view tail).Holds (ofSource source) bytes source.fault :=
  ⟨h, htail.le, fun hlt => by omega, rfl, by simp [ofSource]⟩

/-- A source without a whole trailer delivers nothing. -/
theorem view_holds_of_short {source : Source} (h : source.bytes.length < trailerLength) :
    (view source.bytes).Holds (ofSource source) [] source.fault :=
  ⟨rfl, h.le, fun _ => rfl, rfl, by simp [ofSource]⟩

theorem trailer?_of_ended {tail : Bytes} {w : Withholding} (h : (view tail).Ended w) :
    w.trailer? = if tail.length = trailerLength then some tail else none := by
  obtain ⟨hended, hheld⟩ := h
  simp [trailer?, hended, hheld]

end SealedEnvelope.Withholding
