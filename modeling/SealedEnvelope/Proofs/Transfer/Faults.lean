import SealedEnvelope.Proofs.Transfer.Delivery
import SealedEnvelope.Proofs.Transfer.View

/-!
Reading that fails. Two readers deliver the same bytes until one of them fails with a
fault, if it does. What is emitted from them is the same too: without a fault all of
it, and with one the emission fails within the other, as steps are only ever appended.
-/

namespace SealedEnvelope

namespace Emission

variable {α β : Type} {e e' : Emission α} {fault : Option IoFault}

/-- Steps that are the first of another emission, and then a failure. -/
structure FailsWithin (e e' : Emission α) : Prop where
  failed : ∃ failure, e.ending = .error failure
  steps : e.steps <+: e'.steps

/-- The same emission, or with a fault one that fails within the other. -/
structure UntilFault (fault : Option IoFault) (e e' : Emission α) : Prop where
  same : fault = none → e = e'
  within : fault ≠ none → e.FailsWithin e'

theorem FailsWithin.of_nil {failure : Failure} (h : e = .fail failure) (e' : Emission α) :
    e.FailsWithin e' := by
  subst h
  exact ⟨⟨failure, rfl⟩, List.nil_prefix⟩

/-- What follows an emission comes behind its steps. -/
theorem steps_prefix_bind (e : Emission α) (f : α → Emission β) : e.steps <+: (e >>= f).steps := by
  cases h : e.ending with
  | error failure =>
      rw [bind_of_error h]
  | ok a =>
      rw [bind_of_ok h]
      exact List.prefix_append _ _

theorem steps_bind_mono (e : Emission α) {f g : α → Emission β}
    (h : ∀ a, (f a).steps <+: (g a).steps) : (e >>= f).steps <+: (e >>= g).steps := by
  cases hending : e.ending with
  | error failure =>
      rw [bind_of_error hending, bind_of_error hending]
  | ok a =>
      rw [bind_of_ok hending, bind_of_ok hending]
      exact (List.prefix_append_right_inj _).mpr (h a)

theorem steps_bind_of_nil (e : Emission α) {f : α → Emission β} (h : ∀ a, (f a).steps = []) :
    (e >>= f).steps = e.steps := by
  cases hending : e.ending with
  | error failure => rw [bind_of_error hending]
  | ok a =>
      rw [bind_of_ok hending]
      exact (congrArg (e.steps ++ ·) (h a)).trans (List.append_nil _)

/-- After a failure nothing follows, whatever it would have been. -/
theorem FailsWithin.bind (h : e.FailsWithin e') (f g : α → Emission β) :
    (e >>= f).FailsWithin (e' >>= g) := by
  obtain ⟨failure, hending⟩ := h.failed
  rw [bind_of_error hending]
  exact ⟨⟨failure, rfl⟩, h.steps.trans (steps_prefix_bind e' g)⟩

theorem FailsWithin.bind_left (e : Emission α) {f g : α → Emission β}
    (h : ∀ a, (f a).FailsWithin (g a)) : (e >>= f).FailsWithin (e >>= g) := by
  refine ⟨?_, steps_bind_mono e fun a => (h a).steps⟩
  cases hending : e.ending with
  | error failure => exact ⟨failure, by rw [bind_of_error hending]⟩
  | ok a =>
      obtain ⟨failure, hfailure⟩ := (h a).failed
      exact ⟨failure, by rw [bind_of_ok hending, hfailure]⟩

theorem UntilFault.bind (h : e.UntilFault fault e') {f g : α → Emission β}
    (hf : fault = none → f = g) : (e >>= f).UntilFault fault (e' >>= g) := by
  refine ⟨fun hnone => ?_, fun hfault => (h.within hfault).bind f g⟩
  rw [h.same hnone, hf hnone]

theorem UntilFault.bind_left (e : Emission α) {f g : α → Emission β}
    (h : ∀ a, (f a).UntilFault fault (g a)) : (e >>= f).UntilFault fault (e >>= g) := by
  refine ⟨fun hnone => ?_, fun hfault => .bind_left e fun a => (h a).within hfault⟩
  rw [funext fun a => (h a).same hnone]

theorem UntilFault.map (h : e.UntilFault fault e') (f : α → β) :
    (f <$> e).UntilFault fault (f <$> e') := by
  refine ⟨fun hnone => by rw [h.same hnone], fun hfault => ?_⟩
  obtain ⟨⟨failure, hending⟩, hsteps⟩ := h.within hfault
  refine ⟨⟨failure, ?_⟩, hsteps⟩
  rw [ending_map, hending]
  rfl

/-- A failure before anything has been written is within any emission. -/
theorem UntilFault.of_fail {failure : Failure} (hfault : fault ≠ none) (h : e = .fail failure)
    (e' : Emission α) : e.UntilFault fault e' :=
  ⟨fun hnone => absurd hnone hfault, fun _ => .of_nil h e'⟩

theorem UntilFault.fail (fault : Option IoFault) (failure : Failure) :
    (Emission.fail failure : Emission α).UntilFault fault (.fail failure) :=
  ⟨fun _ => rfl, fun _ => .of_nil rfl _⟩

/-- Whatever a writer does, it gets a front part of what is emitted without the fault, and a
delivery that succeeds gives it all of that. -/
theorem UntilFault.deliver (h : e.UntilFault fault e') (sink : Sink) :
    ∃ written, written <+: e'.bytes ∧ (sink.deliver e).2.taken = sink.taken ++ written ∧
      ∀ a, (sink.deliver e).1 = .ok a → e'.ending = .ok a ∧ written = e'.bytes := by
  obtain ⟨written, hprefix, htaken, hall⟩ := sink.taken_deliver e
  by_cases hnone : fault = none
  · have hsame := h.same hnone
    subst hsame
    exact ⟨written, hprefix, htaken, fun a hok => ⟨Sink.ending_of_deliver hok, hall a hok⟩⟩
  · obtain ⟨⟨failure, hfailure⟩, hsteps⟩ := h.within hnone
    obtain ⟨later, hlater⟩ := hsteps
    have hbytes : e.bytes <+: e'.bytes := by
      rw [Emission.bytes, Emission.bytes, ← hlater, List.flatMap_append]
      exact List.prefix_append _ _
    refine ⟨written, hprefix.trans hbytes, htaken, ?_⟩
    intro a hok
    rw [Sink.ending_of_deliver hok] at hfailure
    cases hfailure

end Emission

namespace ReaderView

variable {ρ : Type} [ByteReader ρ] (v v' : ReaderView ρ)

/-- Two readers that deliver the same until the first one fails with the fault; without one they
deliver the same to the end. -/
def UntilFault (fault : Option IoFault) (r r' : ρ) : Prop :=
  ∃ bytes rest, v.Holds r bytes fault ∧ v'.Holds r' (bytes ++ rest) none ∧
    (fault = none → rest = [])

variable {v v'} {fault : Option IoFault} {r r' : ρ}

/-- Both fill in the same bytes, too few of them only where there is no fault; or the first one
fails. -/
theorem UntilFault.fill (h : UntilFault v v' fault r r') (n : Nat) :
    (∃ got next next', ByteReader.fill n r = (.ok got, next) ∧
        ByteReader.fill n r' = (.ok got, next') ∧ UntilFault v v' fault next next' ∧
        (got.length < n → fault = none)) ∨
      ∃ f next, fault ≠ none ∧ ByteReader.fill n r = (.error f, next) := by
  obtain ⟨bytes, rest, hfirst, hsecond, hrest⟩ := h
  rcases Nat.lt_or_ge bytes.length n with hlt | hle
  · cases fault with
    | none =>
        obtain rfl := hrest rfl
        rw [List.append_nil] at hsecond
        obtain ⟨next, hfill, hnext, -⟩ := v.fill_of_lt hfirst hlt
        obtain ⟨next', hfill', hnext', -⟩ := v'.fill_of_lt hsecond hlt
        exact .inl ⟨bytes, next, next', hfill, hfill', ⟨[], [], hnext, hnext', fun _ => rfl⟩,
          fun _ => rfl⟩
    | some f =>
        obtain ⟨next, hfill⟩ := v.fill_of_fault hfirst hlt
        exact .inr ⟨f, next, Option.some_ne_none f, hfill⟩
  · obtain ⟨next, hfill, hnext⟩ := v.fill_of_le hfirst hle
    obtain ⟨next', hfill', hnext'⟩ := v'.fill_of_le hsecond (n := n) (by
      rw [List.length_append]
      omega)
    rw [List.take_append_of_le_length hle] at hfill'
    rw [List.drop_append_of_le_length hle] at hnext'
    refine .inl ⟨bytes.take n, next, next', hfill, hfill', ⟨_, rest, hnext, hnext', hrest⟩, ?_⟩
    rw [List.length_take_of_le hle]
    omega

/-- Both yield the same blocks, or the first one fails and has yielded some of them. -/
theorem UntilFault.readBlocks (h : UntilFault v v' fault r r') {n : Nat} (hn : 0 < n) :
    (fault = none → (StreamCipher.readBlocks n r).1 = (StreamCipher.readBlocks n r').1 ∧
        (StreamCipher.readBlocks n r).2.1 = none) ∧
      (fault ≠ none → (StreamCipher.readBlocks n r).1 <+: (StreamCipher.readBlocks n r').1 ∧
        (StreamCipher.readBlocks n r).2.1 ≠ none) := by
  fun_induction StreamCipher.readBlocks n r generalizing r' with
  | case1 r f next hfill =>
      rcases h.fill n with ⟨got, _, _, hgot, -⟩ | ⟨f', _, hfault, -⟩
      · rw [hfill] at hgot
        cases hgot
      · exact ⟨fun hnone => absurd hnone hfault, fun _ => ⟨List.nil_prefix, Option.some_ne_none f⟩⟩
  | case2 r next hfill =>
      rcases h.fill n with ⟨got, _, next', hgot, hfill', -, hshort⟩ | ⟨f, _, -, hfail⟩
      · rw [hfill] at hgot
        cases hgot
        have hnone := hshort hn
        rw [readBlocks_of_short hfill' hn, Bytes.cut_nil]
        exact ⟨fun _ => ⟨rfl, rfl⟩, fun hfault => absurd hnone hfault⟩
      · rw [hfill] at hfail
        cases hfail
  | case3 r byte bytes next hfill hlt =>
      rcases h.fill n with ⟨got, _, next', hgot, hfill', -, hshort⟩ | ⟨f, _, -, hfail⟩
      · rw [hfill] at hgot
        cases hgot
        have hnone := hshort hlt
        rw [readBlocks_of_short hfill' hlt, Bytes.cut_of_length_le (by simp) hlt.le]
        exact ⟨fun _ => ⟨rfl, rfl⟩, fun hfault => absurd hnone hfault⟩
      · rw [hfill] at hfail
        cases hfail
  | case4 r byte bytes next hfill hge blocks f last hlater ih =>
      rcases h.fill n with ⟨got, _, next', hgot, hfill', hnext, -⟩ | ⟨f, _, -, hfail⟩
      · rw [hfill] at hgot
        cases hgot
        have hfull : (byte :: bytes).length = n :=
          Nat.le_antisymm (ByteReader.length_le_of_fill hfill) (Nat.le_of_not_lt hge)
        have hrest := ih hnext
        rw [hlater] at hrest
        rw [readBlocks_of_full hn hfill' hfull]
        refine ⟨fun hnone => ?_, fun hfault => ?_⟩
        · obtain ⟨hblocks, hend⟩ := hrest.1 hnone
          exact ⟨congrArg ((byte :: bytes) :: ·) hblocks, hend⟩
        · obtain ⟨hblocks, hend⟩ := hrest.2 hfault
          exact ⟨List.cons_prefix_cons.mpr ⟨rfl, hblocks⟩, hend⟩
      · rw [hfill] at hfail
        cases hfail

end ReaderView

namespace Source

/-- The source delivers these bytes, or fails after the first of them. -/
structure Feeds (source : Source) (data : Bytes) : Prop where
  front : source.bytes <+: data
  whole : source.fault = none → source.bytes = data

theorem Feeds.untilFault {source source' : Source} {data : Bytes} (h : source.Feeds data)
    (hsame : source'.bytes = data) (hfault : source'.fault = none) :
    ReaderView.UntilFault view view source.fault source source' := by
  obtain ⟨rest, hrest⟩ := h.front
  refine ⟨source.bytes, rest, source.view_holds, ?_, ?_⟩
  · rw [hrest, ← hsame, ← hfault]
    exact source'.view_holds
  · intro hnone
    rw [h.whole hnone] at hrest
    exact List.append_right_eq_self.mp hrest

end Source

end SealedEnvelope
