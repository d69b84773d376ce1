import Mathlib.Tactic
import SealedEnvelope.Entropy
import SealedEnvelope.Transfer.Emission

/-!
Computations taken apart: what must have gone before when one with several steps
succeeds. One law for each way of putting steps together, for plain results, for
computations with a state, such as those that draw random bytes, and for emissions.
-/

namespace SealedEnvelope

section Results

variable {ε ε' α β : Type}

theorem bind_eq_ok {x : Except ε α} {f : α → Except ε β} {b : β} :
    (x >>= f) = .ok b ↔ ∃ a, x = .ok a ∧ f a = .ok b := by
  cases x <;> simp [bind, Except.bind]

theorem bind_eq_error {x : Except ε α} {f : α → Except ε β} {failure : ε} :
    (x >>= f) = .error failure ↔
      x = .error failure ∨ ∃ a, x = .ok a ∧ f a = .error failure := by
  cases x <;> simp [bind, Except.bind]

theorem ok_bind (a : α) (f : α → Except ε β) : (Except.ok a >>= f) = f a := rfl

theorem map_eq_ok {f : α → β} {x : Except ε α} {b : β} :
    x.map f = .ok b ↔ ∃ a, x = .ok a ∧ f a = b := by
  cases x <;> simp [Except.map]

theorem map_eq_error {f : α → β} {x : Except ε α} {failure : ε} :
    x.map f = .error failure ↔ x = .error failure := by
  cases x <;> simp [Except.map]

theorem mapError_eq_ok {f : ε → ε'} {x : Except ε α} {a : α} :
    x.mapError f = .ok a ↔ x = .ok a := by
  cases x <;> simp [Except.mapError]

theorem mapError_eq_error {f : ε → ε'} {x : Except ε α} {failure : ε'} :
    x.mapError f = .error failure ↔ ∃ cause, x = .error cause ∧ failure = f cause := by
  cases x <;> simp [Except.mapError, eq_comm]

/-- What a list of steps gives is what its steps give. -/
theorem mem_iff_of_mapM {f : α → Except ε β} {xs : List α} {ys : List β} (h : xs.mapM f = .ok ys)
    {y : β} : y ∈ ys ↔ ∃ x ∈ xs, f x = .ok y := by
  induction xs generalizing ys with
  | nil =>
      cases h
      simp
  | cons x xs ih =>
      rw [List.mapM_cons] at h
      obtain ⟨z, hz, h⟩ := bind_eq_ok.mp h
      obtain ⟨zs, hzs, h⟩ := bind_eq_ok.mp h
      cases h
      simp only [List.mem_cons, exists_eq_or_imp, hz, Except.ok.injEq, ih hzs]
      exact or_congr_left eq_comm

end Results

namespace Stateful

variable {ε σ α β : Type}

theorem bind_apply (m : ExceptT ε (StateM σ) α) (f : α → ExceptT ε (StateM σ) β) (s : σ) :
    (m >>= f) s =
      match m s with
      | (.ok a, next) => f a next
      | (.error failure, next) => (.error failure, next) := by
  change ExceptT.bind m f s = _
  simp only [ExceptT.bind, ExceptT.mk, ExceptT.bindCont, bind, StateT.bind]
  rcases m s with ⟨_ | a, next⟩ <;> rfl

theorem bind_eq_ok {m : ExceptT ε (StateM σ) α} {f : α → ExceptT ε (StateM σ) β} {s last : σ}
    {b : β} :
    (m >>= f) s = (.ok b, last) ↔
      ∃ a next, m s = (.ok a, next) ∧ f a next = (.ok b, last) := by
  rw [bind_apply]
  rcases h : m s with ⟨failure | a, next⟩
  · constructor
    · intro hf
      cases hf
    · rintro ⟨a, next', ha, -⟩
      cases ha
  · constructor
    · exact fun hf => ⟨a, next, rfl, hf⟩
    · rintro ⟨a', next', ha, hf⟩
      cases ha
      exact hf

theorem bind_of_ok {m : ExceptT ε (StateM σ) α} {s next : σ} {a : α} (h : m s = (.ok a, next))
    (f : α → ExceptT ε (StateM σ) β) : (m >>= f) s = f a next := by
  rw [bind_apply, h]

theorem bind_of_error {m : ExceptT ε (StateM σ) α} {s next : σ} {failure : ε}
    (h : m s = (.error failure, next)) (f : α → ExceptT ε (StateM σ) β) :
    (m >>= f) s = (.error failure, next) := by
  rw [bind_apply, h]

/-- A part that cannot fail. -/
theorem liftM_apply (x : StateM σ α) (s : σ) :
    (liftM x : ExceptT ε (StateM σ) α) s = (.ok (x s).1, (x s).2) := rfl

/-- What has succeeded is not caught. -/
theorem tryCatch_of_ok {m : ExceptT ε (StateM σ) α} {handle : ε → ExceptT ε (StateM σ) α}
    {s next : σ} {a : α} (h : m s = (.ok a, next)) : tryCatch m handle s = (.ok a, next) := by
  change ExceptT.tryCatch m handle s = _
  simp only [ExceptT.tryCatch, ExceptT.mk, bind, StateT.bind, h]
  rfl

theorem tryCatch_of_error {m : ExceptT ε (StateM σ) α} {handle : ε → ExceptT ε (StateM σ) α}
    {s next : σ} {failure : ε} (h : m s = (.error failure, next)) :
    tryCatch m handle s = handle failure next := by
  change ExceptT.tryCatch m handle s = _
  simp only [ExceptT.tryCatch, ExceptT.mk, bind, StateT.bind, h]

end Stateful

namespace Random

variable {α β : Type}

theorem bind_apply (m : Random α) (f : α → Random β) (e : Entropy) :
    (m >>= f) e =
      match m e with
      | (.ok a, next) => f a next
      | (.error failure, next) => (.error failure, next) := by
  rw [Stateful.bind_apply]
  rcases m e with ⟨_ | a, next⟩ <;> rfl

theorem bind_eq_ok {m : Random α} {f : α → Random β} {e last : Entropy} {b : β} :
    (m >>= f) e = (.ok b, last) ↔
      ∃ a next, m e = (.ok a, next) ∧ f a next = (.ok b, last) :=
  Stateful.bind_eq_ok

@[simp]
theorem pure_apply (a : α) (e : Entropy) : (pure a : Random α) e = (.ok a, e) := rfl

theorem lift_ok (a : α) : Random.lift (.ok a) = pure a := rfl

theorem lift_pure (a : α) : Random.lift (pure a) = pure a := rfl

theorem lift_bind (x : Except Failure α) (f : α → Except Failure β) :
    Random.lift (x >>= f) = Random.lift x >>= fun a => Random.lift (f a) := by
  funext e
  rw [bind_apply]
  cases x <;> rfl

theorem lift_map (f : α → β) (x : Except Failure α) :
    Random.lift (x.map f) = Random.lift x >>= fun a => pure (f a) := by
  funext e
  rw [bind_apply]
  cases x <;> rfl

theorem lift_eq_ok {result : Except Failure α} {e next : Entropy} {a : α} :
    Random.lift result e = (.ok a, next) ↔ result = .ok a ∧ next = e := by
  constructor
  · intro h
    cases h
    exact ⟨rfl, rfl⟩
  · rintro ⟨rfl, rfl⟩
    rfl

theorem draw_eq_ok {n : Nat} {e next : Entropy} {x : Octets n} :
    Random.draw n e = (.ok x, next) ↔
      e.holds n = true ∧ x = e.peek n ∧ next = { e with position := e.position + n } := by
  unfold Random.draw
  split
  case isTrue hholds =>
    constructor
    · intro h
      cases h
      exact ⟨hholds, rfl, rfl⟩
    · rintro ⟨-, rfl, rfl⟩
      rfl
  case isFalse hholds =>
    constructor
    · intro h
      cases h
    · exact fun h => absurd h.1 hholds

/-- A list of draws succeeds when each does in its turn. What a step keeps of the source holds
whenever a step begins, and at the end. -/
theorem forall₂_of_mapM {P : Entropy → Prop} {f : α → Random β}
    (hstep : ∀ x e y next, P e → f x e = (.ok y, next) → P next) {xs : List α} {ys : List β}
    {e last : Entropy} (hP : P e) (h : xs.mapM f e = (.ok ys, last)) :
    P last ∧ List.Forall₂ (fun x y => ∃ before after, P before ∧ f x before = (.ok y, after))
      xs ys := by
  induction xs generalizing e ys with
  | nil =>
      rw [List.mapM_nil, pure_apply] at h
      cases h
      exact ⟨hP, .nil⟩
  | cons x xs ih =>
      rw [List.mapM_cons, bind_eq_ok] at h
      obtain ⟨y, next, hy, h⟩ := h
      obtain ⟨rest, after, hrest, h⟩ := bind_eq_ok.mp h
      cases h
      obtain ⟨hlast, hall⟩ := ih (hstep x e y next hP hy) hrest
      exact ⟨hlast, .cons ⟨e, next, hP, hy⟩ hall⟩

/-- A list of draws succeeds if each step does whenever it begins. -/
theorem exists_mapM {P : Entropy → Prop} {f : α → Random β} {xs : List α}
    (hstep : ∀ x ∈ xs, ∀ e, P e → ∃ y next, f x e = (.ok y, next) ∧ P next) {e : Entropy}
    (hP : P e) : ∃ ys last, xs.mapM f e = (.ok ys, last) := by
  induction xs generalizing e with
  | nil => exact ⟨[], e, rfl⟩
  | cons x xs ih =>
      rw [List.forall_mem_cons] at hstep
      obtain ⟨y, next, hy, hnext⟩ := hstep.1 e hP
      obtain ⟨ys, last, hys⟩ := ih hstep.2 hnext
      refine ⟨y :: ys, last, ?_⟩
      rw [List.mapM_cons, bind_eq_ok]
      exact ⟨y, next, hy, bind_eq_ok.mpr ⟨ys, last, hys, rfl⟩⟩

end Random

namespace Entropy

/-- The `n` bytes of the source from a position on. -/
def window (e : Entropy) (position n : Nat) : Octets n := { e with position := position }.peek n

/-- A source that hands out just these bytes. -/
theorem exists_peek_eq {n : Nat} (x : Octets n) :
    ∃ random : Entropy, random.holds n = true ∧ random.peek n = x := by
  refine ⟨⟨fun i => x.toBytes.getD i 0, none, 0⟩, rfl, ?_⟩
  obtain ⟨bytes, hlength⟩ := x
  apply Octets.ext
  apply List.ext_getElem
  · simp [Entropy.peek, Octets.toBytes, hlength]
  · intro i hpeek hbytes
    simp [Entropy.peek, Octets.toBytes] at hbytes ⊢
    simp [hbytes]

/-- The same source at a later time. -/
def Later (e next : Entropy) : Prop :=
  next.byteAt = e.byteAt ∧ next.limit = e.limit ∧ e.position ≤ next.position

theorem Later.refl (e : Entropy) : e.Later e := ⟨rfl, rfl, Nat.le_refl _⟩

theorem Later.trans {e next last : Entropy} (h : e.Later next) (h' : next.Later last) :
    e.Later last :=
  ⟨h'.1.trans h.1, h'.2.1.trans h.2.1, h.2.2.trans h'.2.2⟩

theorem Later.advance (e : Entropy) (n : Nat) :
    e.Later { e with position := e.position + n } :=
  ⟨rfl, rfl, Nat.le_add_right _ _⟩

/-- Bytes seen later are bytes of the source. -/
theorem Later.peek_eq {e next : Entropy} (h : e.Later next) (n : Nat) :
    next.peek n = e.window next.position n := by
  obtain ⟨byteAt, limit, position⟩ := next
  obtain ⟨hbytes, hlimit, -⟩ := h
  dsimp only at hbytes hlimit
  subst hbytes hlimit
  rfl

/-- A source without an end always has more. -/
theorem Later.holds_of_endless {e next : Entropy} (h : e.Later next) (hendless : e.limit = none)
    (n : Nat) : next.holds n = true := by
  rw [Entropy.holds, h.2.1, hendless]

end Entropy

namespace Emission

variable {α β : Type}

@[simp]
theorem ending_pure (a : α) : (pure a : Emission α).ending = .ok a := rfl

@[simp]
theorem bytes_pure (a : α) : (pure a : Emission α).bytes = [] := rfl

@[simp]
theorem ending_ofExcept (result : Except Failure α) : (ofExcept result).ending = result := rfl

@[simp]
theorem bytes_ofExcept (result : Except Failure α) : (ofExcept result).bytes = [] := rfl

@[simp]
theorem ending_fail (failure : Failure) : (fail failure : Emission α).ending = .error failure := rfl

@[simp]
theorem bytes_fail (failure : Failure) : (fail failure : Emission α).bytes = [] := rfl

@[simp]
theorem ending_write (operation : Operation) (bytes : Bytes) :
    (write operation bytes).ending = .ok () := rfl

@[simp]
theorem bytes_write (operation : Operation) (bytes : Bytes) :
    (write operation bytes).bytes = bytes := by
  simp [write, Emission.bytes, OutputStep.bytes]

@[simp]
theorem ending_flush (operation : Operation) : (flush operation).ending = .ok () := rfl

@[simp]
theorem bytes_flush (operation : Operation) : (flush operation).bytes = [] := rfl

theorem bind_of_ok {e : Emission α} {f : α → Emission β} {a : α} (h : e.ending = .ok a) :
    e >>= f = ⟨e.steps ++ (f a).steps, (f a).ending⟩ := by
  change e.andThen f = _
  rw [andThen, h]

theorem bind_of_error {e : Emission α} {f : α → Emission β} {failure : Failure}
    (h : e.ending = .error failure) : e >>= f = ⟨e.steps, .error failure⟩ := by
  change e.andThen f = _
  rw [andThen, h]

@[simp]
theorem ofExcept_ok_bind (a : α) (f : α → Emission β) : (ofExcept (.ok a) >>= f) = f a := rfl

theorem ending_bind (e : Emission α) (f : α → Emission β) :
    (e >>= f).ending = e.ending >>= fun a => (f a).ending := by
  cases h : e.ending with
  | error failure => rw [bind_of_error h]; rfl
  | ok a => rw [bind_of_ok h]; rfl

@[simp]
theorem ending_map (f : α → β) (e : Emission α) : (f <$> e).ending = e.ending.map f := rfl

@[simp]
theorem bytes_map (f : α → β) (e : Emission α) : (f <$> e).bytes = e.bytes := rfl

theorem bytes_bind_of_ok {e : Emission α} {f : α → Emission β} {a : α} (h : e.ending = .ok a) :
    (e >>= f).bytes = e.bytes ++ (f a).bytes := by
  rw [bind_of_ok h, Emission.bytes, List.flatMap_append]
  rfl

theorem bytes_bind_of_error {e : Emission α} {f : α → Emission β} {failure : Failure}
    (h : e.ending = .error failure) : (e >>= f).bytes = e.bytes := by
  rw [bind_of_error h]
  rfl

theorem bytes_bind_ofExcept (e : Emission α) (f : α → Except Failure β) :
    (e >>= fun a => ofExcept (f a)).bytes = e.bytes := by
  cases h : e.ending with
  | error failure => exact bytes_bind_of_error h
  | ok a => rw [bytes_bind_of_ok h, bytes_ofExcept, List.append_nil]

theorem collect_eq_ok {e : Emission α} {bytes : Bytes} {a : α} :
    e.collect = .ok (bytes, a) ↔ e.ending = .ok a ∧ e.bytes = bytes := by
  rw [collect, map_eq_ok]
  constructor
  · rintro ⟨a', ha, h⟩
    cases h
    exact ⟨ha, rfl⟩
  · rintro ⟨ha, rfl⟩
    exact ⟨a, ha, rfl⟩

theorem collect_of_error {e : Emission α} {failure : Failure} (h : e.ending = .error failure) :
    e.collect = .error failure := by
  rw [collect, h]
  rfl

theorem collect_bind_ofExcept (e : Emission α) (f : α → Except Failure β) :
    (e >>= fun a => ofExcept (f a)).collect =
      e.collect >>= fun (bytes, a) => (f a).map fun b => (bytes, b) := by
  cases h : e.ending with
  | error failure =>
      rw [bind_of_error h, collect_of_error h, collect_of_error rfl]
      rfl
  | ok a =>
      rw [collect, collect, bytes_bind_of_ok h, ending_bind, h, bytes_ofExcept, List.append_nil]
      rfl

/-- Two emissions in a row succeed when both do, and their bytes follow each other. -/
theorem collect_bind_eq_ok {e : Emission α} {f : α → Emission β} {bytes : Bytes} {b : β} :
    (e >>= f).collect = .ok (bytes, b) ↔
      ∃ first a second, e.collect = .ok (first, a) ∧ (f a).collect = .ok (second, b) ∧
        bytes = first ++ second := by
  cases h : e.ending with
  | error failure => simp [collect_eq_ok, bind_of_error h, h]
  | ok a =>
      simp only [collect_eq_ok, bytes_bind_of_ok h, ending_bind, h]
      constructor
      · rintro ⟨hend, rfl⟩
        exact ⟨_, a, _, ⟨rfl, rfl⟩, ⟨hend, rfl⟩, rfl⟩
      · rintro ⟨first, a', second, ⟨ha, rfl⟩, ⟨hend, rfl⟩, rfl⟩
        cases ha
        exact ⟨hend, rfl⟩

theorem collect_map (f : α → β) (e : Emission α) :
    (f <$> e).collect = e.collect.map fun (bytes, a) => (bytes, f a) := by
  rw [collect, collect, ending_map, bytes_map]
  cases e.ending <;> rfl

theorem collect_map_eq_ok {f : α → β} {e : Emission α} {bytes : Bytes} {b : β} :
    (f <$> e).collect = .ok (bytes, b) ↔ ∃ a, e.collect = .ok (bytes, a) ∧ f a = b := by
  simp only [collect_eq_ok, ending_map, bytes_map, map_eq_ok]
  constructor
  · rintro ⟨⟨a, ha, rfl⟩, hbytes⟩
    exact ⟨a, ⟨ha, hbytes⟩, rfl⟩
  · rintro ⟨a, ⟨ha, hbytes⟩, rfl⟩
    exact ⟨⟨a, ha, rfl⟩, hbytes⟩

theorem collect_ofExcept_eq_ok {result : Except Failure α} {bytes : Bytes} {a : α} :
    (ofExcept result).collect = .ok (bytes, a) ↔ result = .ok a ∧ bytes = [] := by
  rw [collect_eq_ok, ending_ofExcept, bytes_ofExcept]
  exact and_congr_right fun _ => eq_comm

@[simp]
theorem collect_pure (a : α) : (pure a : Emission α).collect = .ok ([], a) := rfl

@[simp]
theorem collect_write (operation : Operation) (bytes : Bytes) :
    (write operation bytes).collect = .ok (bytes, ()) := by
  rw [collect_eq_ok]
  simp

@[simp]
theorem collect_flush (operation : Operation) : (flush operation).collect = .ok ([], ()) := rfl

end Emission

end SealedEnvelope
