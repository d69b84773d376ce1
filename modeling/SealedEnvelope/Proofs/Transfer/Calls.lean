import SealedEnvelope.Proofs.Transfer.Recorded

/-!
Read calls one after another, into buffers of any sizes. What calls of a source bring is the front of
its bytes, and the rest is what it still has.
-/

namespace SealedEnvelope

namespace ByteReader

variable {ρ : Type} [ByteReader ρ]

/-- Read calls into buffers of these sizes: all bytes that they bring, and the reader after them. -/
def calls : List Nat → ρ → Bytes × ρ
  | [], r => ([], r)
  | n :: later, r =>
      let rest := calls later (read n r).2
      ((read n r).1.bytes ++ rest.1, rest.2)

theorem calls_append (front back : List Nat) (r : ρ) :
    calls (front ++ back) r =
      ((calls front r).1 ++ (calls back (calls front r).2).1,
        (calls back (calls front r).2).2) := by
  induction front generalizing r with
  | nil => rfl
  | cons n front ih =>
      rw [List.cons_append, calls, calls, ih]
      simp only [List.append_assoc]

end ByteReader

open ByteReader (calls)

namespace Source

theorem eq_of_read_failed {n : Nat} {s next : Source} {fault : IoFault}
    (h : read n s = (.failed fault, next)) : next = s := by
  obtain ⟨deliveries, fault'⟩ := s
  cases deliveries with
  | nil =>
      cases fault' with
      | none => cases h
      | some fault' =>
          cases h
          rfl
  | cons delivery later =>
      cases delivery with
      | interruption => cases h
      | piece first rest =>
          simp only [read] at h
          split at h <;> cases h

/-- One call takes what it brings from the front, and leaves the fault as it is. -/
theorem bytes_of_call {n : Nat} {s next : Source} {reading : Reading}
    (h : read n s = (reading, next)) :
    s.bytes = reading.bytes ++ next.bytes ∧ next.fault = s.fault := by
  cases reading with
  | data bytes => exact bytes_of_read h
  | interrupted => exact bytes_of_interrupted h
  | failed fault =>
      rw [eq_of_read_failed h]
      exact ⟨rfl, rfl⟩

theorem length_of_call {n : Nat} {s next : Source} {reading : Reading}
    (h : read n s = (reading, next)) : reading.bytes.length ≤ n := by
  cases reading with
  | data bytes => exact (read_data h).1
  | interrupted => exact Nat.zero_le n
  | failed fault => exact Nat.zero_le n

theorem calls_cons_of_read {n : Nat} {s next : Source} {reading : Reading}
    (h : read n s = (reading, next)) (later : List Nat) :
    calls (n :: later) s = (reading.bytes ++ (calls later next).1, (calls later next).2) := by
  have hcall : ByteReader.read n s = (reading, next) := h
  rw [calls, hcall]

theorem bytes_of_calls (sizes : List Nat) (s : Source) :
    s.bytes = (calls sizes s).1 ++ (calls sizes s).2.bytes ∧ (calls sizes s).2.fault = s.fault := by
  induction sizes generalizing s with
  | nil => exact ⟨rfl, rfl⟩
  | cons n sizes ih =>
      rcases hread : s.read n with ⟨reading, next⟩
      obtain ⟨hfirst, hsame⟩ := bytes_of_call hread
      obtain ⟨hlater, hlast⟩ := ih next
      rw [calls_cons_of_read hread]
      refine ⟨?_, hlast.trans hsame⟩
      rw [hfirst, hlater, List.append_assoc]

end Source

end SealedEnvelope
