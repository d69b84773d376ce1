import SealedEnvelope.Proofs.Computation
import SealedEnvelope.Transfer.Sink

/-!
What a writer holds after an emission has been delivered to it: a front part of
what was emitted whatever the writer does, and all of it if the writer never
refuses. Portions and the number of calls have no effect, so that it makes sense to
say what an emission delivers.
-/

namespace SealedEnvelope.Sink

/-- A writer that takes something of every offer, has no limit and can be flushed. -/
structure Reliable (s : Sink) : Prop where
  capacity : s.capacity = none
  flushFault : s.flushFault = none
  portion_pos : ∀ call n, 0 < n → 0 < s.portion call n

theorem unlimited_reliable : unlimited.Reliable := ⟨rfl, rfl, fun _ _ h => h⟩

/-- The bytes that the writer has accepted. -/
def taken (s : Sink) : Bytes := s.accepted.toList

theorem Reliable.write {s : Sink} (h : s.Reliable) {bytes : Bytes} (hne : bytes ≠ []) :
    ∃ count next, s.write bytes = (.ok count, next) ∧ 0 < count ∧ next.Reliable ∧
      next.taken = s.taken ++ bytes.take count := by
  have hfull : s.isFull = false := by rw [isFull, h.capacity]
  have hshare : s.share bytes.length = min bytes.length (s.portion s.calls bytes.length) := by
    rw [share, h.capacity]
  have hlength := List.length_pos_iff.mpr hne
  have hportion := h.portion_pos s.calls bytes.length hlength
  refine ⟨s.share bytes.length, _, by rw [Sink.write, hfull], by omega, ?_, ?_⟩
  · exact ⟨h.capacity, h.flushFault, h.portion_pos⟩
  · simp [taken]

theorem Reliable.writeAll {s : Sink} (h : s.Reliable) (bytes : Bytes) :
    ∃ next, s.writeAll bytes = (.ok (), next) ∧ next.Reliable ∧
      next.taken = s.taken ++ bytes := by
  fun_induction Sink.writeAll bytes s with
  | case1 s => exact ⟨s, rfl, h, by simp⟩
  | case2 bytes s hne fault next hwrite =>
      obtain ⟨count, next', hok, -⟩ := h.write hne
      rw [hok] at hwrite
      cases hwrite
  | case3 bytes s hne next hwrite =>
      obtain ⟨count, next', hok, hpos, -⟩ := h.write hne
      rw [hok] at hwrite
      cases hwrite
      omega
  | case4 bytes s hne count next hwrite ih =>
      obtain ⟨count', next', hok, -, hnext, htaken⟩ := h.write hne
      rw [hok] at hwrite
      cases hwrite
      obtain ⟨last, hlast, hreliable, hall⟩ := ih hnext
      refine ⟨last, hlast, hreliable, ?_⟩
      rw [hall, htaken, List.append_assoc, List.take_append_drop]

theorem Reliable.performAll {s : Sink} (h : s.Reliable) (steps : List OutputStep) :
    ∃ next, s.performAll steps = (.ok (), next) ∧
      next.taken = s.taken ++ steps.flatMap OutputStep.bytes := by
  induction steps generalizing s with
  | nil => exact ⟨s, rfl, by simp⟩
  | cons step steps ih =>
      obtain ⟨middle, hstep, hmiddle, htaken⟩ : ∃ middle, s.perform step = (.ok (), middle) ∧
          middle.Reliable ∧ middle.taken = s.taken ++ step.bytes := by
        cases step with
        | write operation bytes =>
            obtain ⟨middle, hwrite, hmiddle, htaken⟩ := h.writeAll bytes
            exact ⟨middle, by rw [perform, hwrite]; rfl, hmiddle, htaken⟩
        | flush operation =>
            exact ⟨s, by rw [perform, flush, h.flushFault]; rfl, h, by simp [OutputStep.bytes]⟩
      obtain ⟨next, hnext, hall⟩ := ih hmiddle
      refine ⟨next, ?_, ?_⟩
      · rw [Sink.performAll, hstep]
        exact hnext
      · rw [hall, htaken, List.flatMap_cons, List.append_assoc]

/-- A reliable writer gets all bytes of an emission, and the result is that of the emission. -/
theorem Reliable.deliver {α : Type} {s : Sink} (h : s.Reliable) (e : Emission α) :
    ∃ next, s.deliver e = (e.ending, next) ∧ next.taken = s.taken ++ e.bytes := by
  obtain ⟨next, hsteps, htaken⟩ := h.performAll e.steps
  exact ⟨next, by rw [Sink.deliver, hsteps], htaken⟩

/-- A writer of any kind holds a front part of what it was offered. -/
theorem taken_write (s : Sink) (bytes : Bytes) :
    ∃ count, (s.write bytes).2.taken = s.taken ++ bytes.take count ∧
      ∀ n, (s.write bytes).1 = .ok n → n = count := by
  unfold Sink.write
  split
  · exact ⟨0, by simp [taken], by simp⟩
  · refine ⟨s.share bytes.length, by simp [taken], ?_⟩
    intro n hn
    exact (Except.ok.inj hn).symm

theorem taken_writeAll (s : Sink) (bytes : Bytes) :
    ∃ written, written <+: bytes ∧ (s.writeAll bytes).2.taken = s.taken ++ written ∧
      ((s.writeAll bytes).1 = .ok () → written = bytes) := by
  fun_induction Sink.writeAll bytes s with
  | case1 s => exact ⟨[], List.prefix_refl _, by simp, by simp⟩
  | case2 bytes s hne fault next hwrite =>
      obtain ⟨count, htaken, -⟩ := taken_write s bytes
      rw [hwrite] at htaken
      exact ⟨_, List.take_prefix _ _, htaken, by simp⟩
  | case3 bytes s hne next hwrite =>
      obtain ⟨count, htaken, -⟩ := taken_write s bytes
      rw [hwrite] at htaken
      exact ⟨_, List.take_prefix _ _, htaken, by simp⟩
  | case4 bytes s hne count next hwrite ih =>
      obtain ⟨count', htaken, hcount⟩ := taken_write s bytes
      rw [hwrite] at htaken hcount
      have hsame : count + 1 = count' := hcount _ rfl
      obtain ⟨written, hprefix, hrest, hall⟩ := ih
      refine ⟨bytes.take (count + 1) ++ written, ?_, ?_, ?_⟩
      · conv_rhs => rw [← List.take_append_drop (count + 1) bytes]
        exact (List.prefix_append_right_inj _).mpr hprefix
      · rw [hrest, htaken, ← hsame, List.append_assoc]
      · intro hok
        rw [hall hok, List.take_append_drop]

theorem taken_performAll (s : Sink) (steps : List OutputStep) :
    ∃ written, written <+: steps.flatMap OutputStep.bytes ∧
      (s.performAll steps).2.taken = s.taken ++ written ∧
      ((s.performAll steps).1 = .ok () → written = steps.flatMap OutputStep.bytes) := by
  induction steps generalizing s with
  | nil => exact ⟨[], List.prefix_refl _, by simp [performAll], fun _ => rfl⟩
  | cons step steps ih =>
      have hstep : ∃ written, written <+: step.bytes ∧
          (s.perform step).2.taken = s.taken ++ written ∧
          ((s.perform step).1 = .ok () → written = step.bytes) := by
        cases step with
        | write operation bytes =>
            obtain ⟨written, hprefix, htaken, hall⟩ := taken_writeAll s bytes
            exact ⟨written, hprefix, htaken, fun hok => hall (mapError_eq_ok.mp hok)⟩
        | flush operation =>
            exact ⟨[], List.nil_prefix, by simp [perform], fun _ => rfl⟩
      obtain ⟨first, hfirst, htaken, hall⟩ := hstep
      rw [performAll, List.flatMap_cons]
      rcases hperform : s.perform step with ⟨failure | _, next⟩
      · rw [hperform] at htaken
        exact ⟨first, hfirst.trans (List.prefix_append _ _), htaken, nofun⟩
      · rw [hperform] at htaken hall
        obtain ⟨second, hsecond, hrest, hlast⟩ := ih next
        rw [hall rfl] at htaken
        refine ⟨step.bytes ++ second, (List.prefix_append_right_inj _).mpr hsecond, ?_, ?_⟩
        · rw [hrest, htaken, List.append_assoc]
        · intro hok
          rw [hlast hok]

/-- Whatever a writer does, it gets a front part of the bytes of an emission, and all of them if
the delivery succeeds. -/
theorem taken_deliver {α : Type} (s : Sink) (e : Emission α) :
    ∃ written, written <+: e.bytes ∧ (s.deliver e).2.taken = s.taken ++ written ∧
      ∀ a, (s.deliver e).1 = .ok a → written = e.bytes := by
  obtain ⟨written, hprefix, htaken, hall⟩ := taken_performAll s e.steps
  refine ⟨written, hprefix, ?_⟩
  rw [deliver]
  rcases hsteps : s.performAll e.steps with ⟨failure | _, next⟩
  · rw [hsteps] at htaken
    exact ⟨htaken, nofun⟩
  · rw [hsteps] at htaken hall
    exact ⟨htaken, fun _ _ => hall rfl⟩

/-- Nothing reaches a writer of an emission without bytes. -/
theorem taken_deliver_of_nil {α : Type} (s : Sink) {e : Emission α} (h : e.bytes = []) :
    (s.deliver e).2.taken = s.taken := by
  obtain ⟨written, hprefix, htaken, -⟩ := s.taken_deliver e
  rw [h, List.prefix_nil] at hprefix
  rw [htaken, hprefix, List.append_nil]

/-- A delivery that succeeds has the result of the emission. -/
theorem ending_of_deliver {α : Type} {s : Sink} {e : Emission α} {a : α}
    (h : (s.deliver e).1 = .ok a) : e.ending = .ok a := by
  rw [deliver] at h
  rcases hsteps : s.performAll e.steps with ⟨failure | _, next⟩
  · rw [hsteps] at h
    cases h
  · rw [hsteps] at h
    exact h

section Failures

variable {α : Type} {s next : Sink} {failure : Failure}

theorem io_of_perform {step : OutputStep} (h : s.perform step = (.error failure, next)) :
    ∃ operation fault, failure = .io operation fault := by
  cases step with
  | write operation bytes =>
      obtain ⟨hresult, -⟩ := Prod.mk.inj h
      obtain ⟨fault, -, rfl⟩ := mapError_eq_error.mp hresult
      exact ⟨operation, fault, rfl⟩
  | flush operation =>
      obtain ⟨hresult, -⟩ := Prod.mk.inj h
      obtain ⟨fault, -, rfl⟩ := mapError_eq_error.mp hresult
      exact ⟨operation, fault, rfl⟩

/-- Performing steps fails for the writer only, by induction on the steps. -/
theorem io_of_performAll {steps : List OutputStep}
    (h : s.performAll steps = (.error failure, next)) :
    ∃ operation fault, failure = .io operation fault := by
  induction steps generalizing s with
  | nil => cases h
  | cons step steps ih =>
      rw [performAll] at h
      rcases hstep : s.perform step with ⟨failure' | _, middle⟩
      · rw [hstep] at h
        cases h
        exact io_of_perform hstep
      · rw [hstep] at h
        exact ih h

theorem deliver_of_nil {e : Emission α} (h : e.steps = []) : s.deliver e = (e.ending, s) := by
  rw [deliver, h]
  rfl

/-- A delivery fails for the writer, or as the emission does. -/
theorem deliver_error {e : Emission α} (h : s.deliver e = (.error failure, next)) :
    (∃ operation fault, failure = .io operation fault) ∨ e.ending = .error failure := by
  rw [deliver] at h
  rcases hsteps : s.performAll e.steps with ⟨failure' | _, last⟩
  · rw [hsteps] at h
    cases h
    exact .inl (io_of_performAll hsteps)
  · rw [hsteps] at h
    exact .inr (Prod.mk.inj h).1

end Failures

end SealedEnvelope.Sink

namespace SealedEnvelope.Emission

variable {α : Type} {e : Emission α}

/-- Every writer that never refuses gets just these bytes, and the outcome is this result. -/
def Delivers (e : Emission α) (result : Except Failure α) (written : Bytes) : Prop :=
  ∀ sink : Sink, sink.Reliable →
    ∃ next, sink.deliver e = (result, next) ∧ next.taken = sink.taken ++ written

theorem delivers_iff {result : Except Failure α} {written : Bytes} :
    e.Delivers result written ↔ e.ending = result ∧ e.bytes = written := by
  constructor
  · intro h
    obtain ⟨next, hdeliver, htaken⟩ := h _ Sink.unlimited_reliable
    obtain ⟨next', hdeliver', htaken'⟩ := Sink.unlimited_reliable.deliver e
    rw [hdeliver] at hdeliver'
    cases hdeliver'
    exact ⟨rfl, List.append_cancel_left (htaken'.symm.trans htaken)⟩
  · rintro ⟨rfl, rfl⟩ sink hsink
    exact hsink.deliver e

theorem delivers_ok_iff {a : α} {written : Bytes} :
    e.Delivers (.ok a) written ↔ e.collect = .ok (written, a) :=
  delivers_iff.trans collect_eq_ok.symm

end SealedEnvelope.Emission
