import SealedEnvelope.Proofs.Cbor.Reads

/-!
Decoders see nothing but what they take: where more follows, the same is read and
the rest is left. So an item that has been cut short is not read at all.
-/

namespace SealedEnvelope.Cbor

/-- What is read stays the same when more bytes follow and more steps are allowed. -/
def Local {α : Type} (d : Decoder α) : Prop :=
  ∀ ⦃fuel fuel' : Nat⦄ ⦃input rest : Bytes⦄ ⦃x : α⦄ (more : Bytes), fuel ≤ fuel' →
    d fuel input = some (x, rest) → d fuel' (input ++ more) = some (x, rest ++ more)

/-- The decoder reads a head first, and fails where there is none. -/
def NeedsHead {α : Type} (d : Decoder α) : Prop :=
  ∀ ⦃fuel : Nat⦄ ⦃input : Bytes⦄, readHead input = none → d fuel input = none

section Combinators

variable {α β : Type} {d : Decoder α} {f : α → Decoder β}

theorem bind_apply (d : Decoder α) (f : α → Decoder β) (fuel : Nat) (input : Bytes) :
    (d >>= f) fuel input = (d fuel input).bind fun (a, left) => f a fuel left := rfl

namespace Local

theorem pure (x : α) : Local (Pure.pure x : Decoder α) := by
  intro fuel fuel' input rest y more _ h
  cases h
  rfl

theorem failure : Local (Alternative.failure : Decoder α) := nofun

theorem bind (hd : Local d) (hf : ∀ a, Local (f a)) : Local (d >>= f) := by
  intro fuel fuel' input rest y more hfuel h
  rw [bind_apply, Option.bind_eq_some_iff] at h ⊢
  obtain ⟨⟨a, left⟩, hfirst, hsecond⟩ := h
  exact ⟨(a, left ++ more), hd more hfuel hfirst, hf a more hfuel hsecond⟩

theorem map (g : α → β) (hd : Local d) : Local (g <$> d) :=
  hd.bind fun a => .pure (g a)

theorem ite {p : Prop} [Decidable p] {d' : Decoder α} (h : Local d) (h' : Local d') :
    Local (if p then d else d') := by
  split
  · exact h
  · exact h'

end Local

theorem NeedsHead.bind (h : NeedsHead d) (f : α → Decoder β) : NeedsHead (d >>= f) := by
  intro fuel input hnone
  rw [bind_apply, h hnone]
  rfl

theorem NeedsHead.map (h : NeedsHead d) (g : α → β) : NeedsHead (g <$> d) :=
  h.bind fun a => Pure.pure (g a)

/-- An item that is read when it is whole is not read from a proper front part of it. -/
theorem Reads.decode?_take {item : Bytes} {x : α} (hread : Reads d item x) (hlocal : Local d)
    {n : Nat} (h : n < item.length) : d.decode? (item.take n) = none := by
  rw [Decoder.decode?, Option.map_eq_none_iff]
  by_contra hsome
  obtain ⟨⟨y, rest⟩, hcut⟩ := Option.ne_none_iff_exists'.mp hsome
  have hfuel : (item.take n).length + 1 ≤ item.length + 1 := by
    rw [List.length_take]
    omega
  have hwhole := hlocal (item.drop n) hfuel hcut
  have hread := hread (item.length + 1) [] (Nat.le_succ _)
  rw [List.take_append_drop] at hwhole
  rw [List.append_nil, hwhole] at hread
  -- so the bytes that were cut off would have been left over
  obtain ⟨-, hleft⟩ := Prod.mk.inj (Option.some.inj hread)
  have hnothing := List.drop_eq_nil_iff.mp (List.append_eq_nil_iff.mp hleft).2
  omega

/-- What is read from the front of an input is read whatever follows. -/
theorem Local.decode?_append (hlocal : Local d) {input : Bytes} {x : α}
    (h : d.decode? input = some x) (more : Bytes) : d.decode? (input ++ more) = some x := by
  rw [Decoder.decode?, Option.map_eq_some_iff] at h ⊢
  obtain ⟨⟨y, rest⟩, hread, rfl⟩ := h
  have hfuel : input.length + 1 ≤ (input ++ more).length + 1 := by
    rw [List.length_append]
    omega
  exact ⟨(y, rest ++ more), hlocal more hfuel hread, rfl⟩

end Combinators

section Heads

theorem splitExactly_of_append {n : Nat} {input front rest : Bytes}
    (h : splitExactly n input = some (front, rest)) (more : Bytes) :
    splitExactly n (input ++ more) = some (front, rest ++ more) := by
  unfold splitExactly at h ⊢
  dsimp only at h ⊢
  split_ifs at h with hlength
  cases h
  have hle : n ≤ input.length := by
    rw [List.length_take] at hlength
    omega
  rw [List.take_append_of_le_length hle, List.drop_append_of_le_length hle, if_pos hlength]

theorem readNumber_append {info : Nat} {input rest : Bytes} {number : Option Nat}
    (h : readNumber info input = some (number, rest)) (more : Bytes) :
    readNumber info (input ++ more) = some (number, rest ++ more) := by
  unfold readNumber at h ⊢
  split_ifs at h ⊢
  · cases h
    rfl
  · obtain ⟨⟨digits, left⟩, hsplit, hnumber⟩ := Option.map_eq_some_iff.mp h
    cases hnumber
    rw [splitExactly_of_append hsplit more]
    rfl
  · cases h
    rfl

theorem readHead_append {input rest : Bytes} {head : Head}
    (h : readHead input = some (head, rest)) (more : Bytes) :
    readHead (input ++ more) = some (head, rest ++ more) := by
  cases input with
  | nil => cases h
  | cons first input =>
      simp only [readHead, List.cons_append, Option.bind_eq_bind, Option.bind_eq_some_iff] at h ⊢
      obtain ⟨⟨number, left⟩, hnumber, head', hhead, hsome⟩ := h
      cases hsome
      exact ⟨(number, left ++ more), readNumber_append hnumber more, head, hhead, rfl⟩

theorem local_head : Local Decoder.head :=
  fun _ _ _ _ _ more _ h => readHead_append h more

theorem needsHead_head : NeedsHead Decoder.head := fun _ _ h => h

theorem local_peek : Local Decoder.peek := by
  intro fuel fuel' input rest head more _ h
  obtain ⟨⟨found, left⟩, hread, hsome⟩ := Option.map_eq_some_iff.mp h
  cases hsome
  rw [Decoder.peek, readHead_append hread more]
  rfl

theorem local_take (n : Nat) : Local (Decoder.take n) :=
  fun _ _ _ _ _ more _ h => splitExactly_of_append h more

theorem local_pastTags (stays : Nat → Bool) : Local (Decoder.pastTags stays) := by
  intro fuel
  induction fuel with
  | zero => nofun
  | succ fuel ih =>
      intro fuel' input rest head more hfuel h
      obtain ⟨fuel', rfl⟩ : ∃ less, fuel' = less + 1 := ⟨fuel' - 1, by omega⟩
      unfold Decoder.pastTags Decoder.pastTags.go at h ⊢
      cases hhead : readHead input with
      | none =>
          rw [hhead] at h
          cases h
      | some found =>
          obtain ⟨first, left⟩ := found
          rw [hhead] at h
          rw [readHead_append hhead more]
          cases first with
          | tag n =>
              dsimp only at h ⊢
              split_ifs at h ⊢
              · cases h
                rfl
              · exact ih more (by omega) h
          | _ =>
              cases h
              rfl

theorem needsHead_pastTags (stays : Nat → Bool) : NeedsHead (Decoder.pastTags stays) := by
  intro fuel input h
  cases fuel with
  | zero => rfl
  | succ fuel => rw [Decoder.pastTags, Decoder.pastTags.go, h]

theorem local_untagged : Local Decoder.untagged := local_pastTags _

theorem needsHead_untagged : NeedsHead Decoder.untagged := needsHead_pastTags _

end Heads

section Strings

variable (length? : Head → Option (Option Nat)) (valid : Bytes → Bool)

theorem local_chunks (depth : Nat) (acc : List Bytes) :
    Local (Decoder.chunks length? valid depth acc) := by
  intro fuel
  induction fuel generalizing depth acc with
  | zero =>
      intro fuel' input rest x more _ h
      cases depth with
      | zero =>
          cases h
          cases fuel' <;> rfl
      | succ depth => cases h
  | succ fuel ih =>
      intro fuel' input rest x more hfuel h
      obtain ⟨fuel', rfl⟩ : ∃ less, fuel' = less + 1 := ⟨fuel' - 1, by omega⟩
      cases depth with
      | zero =>
          cases h
          rfl
      | succ depth =>
          unfold Decoder.chunks Decoder.chunks.go at h ⊢
          cases hhead : readHead input with
          | none =>
              rw [hhead] at h
              cases h
          | some found =>
              obtain ⟨head, left⟩ := found
              rw [hhead] at h
              rw [readHead_append hhead more]
              cases head with
              | stop => exact ih depth acc more (by omega) h
              | _ =>
                  dsimp only at h ⊢
                  split at h
                  · exact ih _ _ more (by omega) h
                  · split at h
                    case h_1 hsplit =>
                      rw [splitExactly_of_append hsplit more]
                      dsimp only
                      split_ifs at h ⊢
                      exact ih _ _ more (by omega) h
                    case h_2 => cases h
                  · cases h

theorem local_content (length : Option Nat) : Local (Decoder.content length? valid length) := by
  cases length with
  | none => exact local_chunks length? valid 1 []
  | some n => exact (local_take n).bind fun bytes => .ite (.pure bytes) .failure

end Strings

section Repetition

variable {α σ : Type} {step : σ → Decoder σ}

theorem go_succ (step : σ → Decoder σ) (bound fuel n : Nat) (s : σ) (input : Bytes) :
    Decoder.iterate.go step bound (fuel + 1) (some (n + 1)) s input =
      (step s bound input).bind fun found =>
        Decoder.iterate.go step bound fuel (some n) found.1 found.2 := by
  rw [Decoder.iterate.go]
  rcases step s bound input with _ | ⟨t, left⟩ <;> rfl

/-- Without a length, a loop goes on unless there is a break. -/
theorem go_of_ne_stop (step : σ → Decoder σ) (bound fuel : Nat) (s : σ) {input left : Bytes}
    {head : Head} (hread : readHead input = some (head, left)) (hstop : head ≠ .stop) :
    Decoder.iterate.go step bound (fuel + 1) none s input =
      (step s bound input).bind fun found =>
        Decoder.iterate.go step bound fuel none found.1 found.2 := by
  rw [Decoder.iterate.go, hread]
  cases head with
  | stop => exact absurd rfl hstop
  | _ => rcases step s bound input with _ | ⟨t, left⟩ <;> rfl

theorem go_of_stop (step : σ → Decoder σ) (bound fuel : Nat) (s : σ) {input left : Bytes}
    (hread : readHead input = some (.stop, left)) :
    Decoder.iterate.go step bound (fuel + 1) none s input = some (s, left) := by
  rw [Decoder.iterate.go, hread]

/-- A loop without a length asks for a head before each step, as the step itself then does. -/
theorem local_iterate (hstep : ∀ s, Local (step s)) (hhead : ∀ s, NeedsHead (step s))
    (length : Option Nat) (s : σ) : Local (Decoder.iterate step length s) := by
  have hgo (fuel : Nat) : ∀ (bound bound' fuel' : Nat) (length : Option Nat) (s last : σ)
      (input rest more : Bytes), bound ≤ bound' → fuel ≤ fuel' →
      Decoder.iterate.go step bound fuel length s input = some (last, rest) →
      Decoder.iterate.go step bound' fuel' length s (input ++ more) =
        some (last, rest ++ more) := by
    induction fuel with
    | zero =>
        intro bound bound' fuel' length s last input rest more _ _ h
        rcases length with _ | _ | n
        · cases h
        · cases h
          cases fuel' <;> rfl
        · cases h
    | succ fuel ih =>
        intro bound bound' fuel' length s last input rest more hbound hfuel h
        obtain ⟨fuel', rfl⟩ : ∃ less, fuel' = less + 1 := ⟨fuel' - 1, by omega⟩
        -- one step, and then the others
        have hnext (length : Option Nat)
            (hrest : (step s bound input).bind (fun found =>
              Decoder.iterate.go step bound fuel length found.1 found.2) = some (last, rest)) :
            (step s bound' (input ++ more)).bind (fun found =>
              Decoder.iterate.go step bound' fuel' length found.1 found.2) =
                some (last, rest ++ more) := by
          obtain ⟨⟨t, left⟩, hfirst, hrest⟩ := Option.bind_eq_some_iff.mp hrest
          rw [hstep s more hbound hfirst]
          exact ih _ _ _ _ _ _ _ _ more hbound (by omega) hrest
        rcases length with _ | _ | n
        · cases hread : readHead input with
          | none =>
              unfold Decoder.iterate.go at h
              rw [hread, hhead s hread] at h
              cases h
          | some found =>
              obtain ⟨head, left⟩ := found
              have hmore := readHead_append hread more
              by_cases hstop : head = .stop
              · subst hstop
                rw [go_of_stop step bound fuel s hread] at h
                cases h
                exact go_of_stop step bound' fuel' s hmore
              · rw [go_of_ne_stop step bound fuel s hread hstop] at h
                rw [go_of_ne_stop step bound' fuel' s hmore hstop]
                exact hnext none h
        · cases h
          rfl
        · rw [go_succ] at h ⊢
          exact hnext (some n) h
  intro fuel fuel' input rest last more hfuel h
  exact hgo fuel fuel fuel' fuel' length s last input rest more hfuel hfuel h

theorem local_elements {item : Decoder α} (hitem : Local item) (hhead : NeedsHead item)
    (length : Option Nat) : Local (Decoder.elements item length) := by
  have hstep (done : List α) : Local (Decoder.collect item done) := hitem.bind fun x => .pure _
  have hneeds (done : List α) : NeedsHead (Decoder.collect item done) := hhead.bind _
  exact (local_iterate hstep hneeds length []).bind fun done => .pure _

end Repetition

section Items

theorem local_unsigned : Local Decoder.unsigned := by
  apply (local_pastTags _).bind
  intro head
  split
  · exact .pure _
  · apply local_head.bind
    intro content
    split
    · exact (local_content _ _ _).bind fun bytes => .ite (.pure _) .failure
    · exact .failure
  · exact .failure

theorem needsHead_unsigned : NeedsHead Decoder.unsigned := (needsHead_pastTags _).bind _

theorem local_below (limit : Nat) : Local (Decoder.below limit) :=
  local_unsigned.bind fun n => .ite (.pure n) .failure

theorem local_byte : Local Decoder.byte := (local_below _).map _

theorem needsHead_byte : NeedsHead Decoder.byte := (needsHead_unsigned.bind _).map _

theorem local_byteList : Local Decoder.byteList := by
  apply local_untagged.bind
  intro head
  split
  · exact local_elements local_byte needsHead_byte _
  · exact local_content _ _ _
  · exact .failure

theorem local_nameContent (head : Head) : Local (Decoder.nameContent head) := by
  unfold Decoder.nameContent
  split
  · exact .ite (local_content _ _ _) .failure
  · exact .ite (local_content _ _ _) .failure
  · exact .failure

theorem local_name : Local Decoder.name := local_untagged.bind local_nameContent

theorem needsHead_name : NeedsHead Decoder.name := needsHead_untagged.bind _

theorem local_variant : Local Decoder.variant := by
  apply local_untagged.bind
  intro head
  split
  · exact local_name
  · exact local_nameContent _
  · exact .failure

theorem needsHead_skipOne (nested : Option (Decoder Unit)) : NeedsHead (Decoder.skipOne nested) :=
  needsHead_head.bind _

/-- To skip an item is local if to skip one inside it is. -/
theorem local_skipOne {nested : Option (Decoder Unit)}
    (h : ∀ inside, nested = some inside → Local inside ∧ NeedsHead inside) :
    Local (Decoder.skipOne nested) := by
  have hinside : Local (nested.getD failure) := by
    cases nested with
    | none => exact .failure
    | some inside => exact (h inside rfl).1
  have hneeds (hsome : nested.isSome = true) : NeedsHead (nested.getD failure) := by
    obtain ⟨inside, rfl⟩ := Option.isSome_iff_exists.mp hsome
    exact (h inside rfl).2
  apply local_head.bind
  intro head
  split
  · exact .pure ()
  · exact .pure ()
  · exact .pure ()
  · exact .ite (.pure ()) .failure
  · exact (local_content _ _ _).bind fun _ => .pure ()
  · exact (local_content _ _ _).bind fun _ => .pure ()
  · split
    case isTrue hsome =>
      exact local_iterate (fun _ => hinside) (fun _ => hneeds hsome) _ ()
    case isFalse => exact .failure
  · split
    case isTrue hsome =>
      exact local_iterate (fun _ => hinside.bind fun _ => hinside)
        (fun _ => (hneeds hsome).bind _) _ ()
    case isFalse => exact .failure
  · apply local_peek.bind
    intro next
    split
    · apply Local.ite _ hinside
      apply local_head.bind
      intro _
      exact (local_take _).bind fun _ => .ite .failure (.pure ())
    · exact hinside
  · exact .failure

theorem local_skip (depth : Nat) : Local (Decoder.skip depth) := by
  induction depth with
  | zero => exact local_skipOne nofun
  | succ depth ih =>
      apply local_skipOne
      rintro inside ⟨⟩
      refine ⟨ih, ?_⟩
      cases depth with
      | zero => exact needsHead_skipOne none
      | succ depth => exact needsHead_skipOne _

/-- A map is read locally if each field that is known is. -/
theorem local_fields {σ : Type} {field : Bytes → σ → Option (Decoder σ)}
    (h : ∀ key s d, field key s = some d → Local d) (level : Nat) (length : Option Nat) (s : σ) :
    Local (Decoder.fields level field length s) := by
  apply local_iterate
  · intro s
    apply local_name.bind
    intro key
    split
    case h_1 d hfield => exact h key s d hfield
    case h_2 => exact (local_skip _).bind fun _ => .pure s
  · exact fun s => needsHead_name.bind _

theorem local_once {α σ : Type} (old : Option α) {item : Decoder α} (h : Local item)
    (set : α → σ) : Local (Decoder.once old item set) :=
  .ite .failure (h.map set)

end Items

end SealedEnvelope.Cbor
