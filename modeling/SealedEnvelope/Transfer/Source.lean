import SealedEnvelope.Transfer.Reader

/-!
A reader given by the schedule of its deliveries. How the bytes are cut into
pieces and where calls are interrupted has no effect on what is filled from it:
`fill_eq_take` and `fill_eq_fault`.
-/

namespace SealedEnvelope

/-- What a source has in store for a read call. A call takes a piece, or the front of it. -/
inductive Delivery where
  | piece (first : UInt8) (rest : Bytes)
  | interruption
deriving DecidableEq, Repr

/-- A reader given by its deliveries, after which it has ended or, where there is a fault, fails
at every call. -/
structure Source where
  deliveries : List Delivery
  fault : Option IoFault
deriving DecidableEq, Repr

namespace Source

def Delivery.bytes : Delivery → Bytes
  | .piece first rest => first :: rest
  | .interruption => []

/-- The piece that holds these bytes, if there are any. -/
def pieces : Bytes → List Delivery
  | [] => []
  | first :: rest => [.piece first rest]

/-- All bytes that are still to come. -/
def bytes (s : Source) : Bytes := s.deliveries.flatMap Delivery.bytes

/-- A source that delivers everything at the first call. -/
def ofBytes (bytes : Bytes) : Source := ⟨pieces bytes, none⟩

/-- A source that delivers pieces of at most `step` bytes, each behind an interruption if so
wanted; pieces of no bytes are its end. With a `failure`, it fails once so many bytes have been
delivered. One that is never reached has no effect. -/
def scheduled (step : Nat) (interrupting : Bool) (failure : Option (Nat × IoFault))
    (bytes : Bytes) : Source :=
  let inSteps (bytes : Bytes) : List Delivery := (Bytes.cut step bytes).flatMap fun piece =>
    if interrupting then .interruption :: pieces piece else pieces piece
  let reached := if step = 0 then 0 else bytes.length
  match failure with
  | some (position, fault) =>
      if position ≤ reached then ⟨inSteps (bytes.take position), some fault⟩
      else ⟨inSteps bytes, none⟩
  | none => ⟨inSteps bytes, none⟩

/-- One read call into a buffer of `n` bytes. -/
def read (n : Nat) (s : Source) : Reading × Source :=
  match s.deliveries with
  | [] =>
      match s.fault with
      | none => (.data [], s)
      | some fault => (.failed fault, s)
  | .interruption :: later => (.interrupted, { s with deliveries := later })
  | .piece first rest :: later =>
      match (first :: rest).drop n with
      | [] => (.data (first :: rest), { s with deliveries := later })
      | first' :: rest' =>
          (.data ((first :: rest).take n), { s with deliveries := .piece first' rest' :: later })

/-- One for every byte and one for every interruption. -/
def sizeOfDeliveries : List Delivery → Nat
  | [] => 0
  | .piece _ rest :: later => rest.length + 1 + sizeOfDeliveries later
  | .interruption :: later => 1 + sizeOfDeliveries later

def size (s : Source) : Nat := sizeOfDeliveries s.deliveries

theorem read_data {n : Nat} {s next : Source} {bytes : Bytes}
    (h : read n s = (.data bytes, next)) :
    bytes.length ≤ n ∧ next.size + bytes.length ≤ s.size := by
  obtain ⟨deliveries, fault⟩ := s
  cases deliveries with
  | nil =>
      cases fault with
      | none => cases h; simp
      | some fault => cases h
  | cons delivery later =>
      cases delivery with
      | interruption => cases h
      | piece first rest =>
          simp only [read] at h
          split at h
          case h_1 hdrop =>
            cases h
            have hle : (first :: rest).length ≤ n := List.drop_eq_nil_iff.mp hdrop
            simp only [List.length_cons] at hle
            simp only [List.length_cons, size, sizeOfDeliveries]
            omega
          case h_2 first' rest' hdrop =>
            cases h
            have hlen := congrArg List.length hdrop
            simp only [List.length_drop, List.length_cons] at hlen
            simp only [List.length_take, List.length_cons, size, sizeOfDeliveries]
            omega

theorem read_interrupted {n : Nat} {s next : Source} (h : read n s = (.interrupted, next)) :
    next.size < s.size := by
  obtain ⟨deliveries, fault⟩ := s
  cases deliveries with
  | nil => cases fault <;> cases h
  | cons delivery later =>
      cases delivery with
      | interruption => cases h; simp only [size, sizeOfDeliveries]; omega
      | piece first rest =>
          simp only [read] at h
          split at h <;> cases h

theorem size_le_of_read_failed {n : Nat} {s next : Source} {fault : IoFault}
    (h : read n s = (.failed fault, next)) : next.size ≤ s.size := by
  obtain ⟨deliveries, fault'⟩ := s
  cases deliveries with
  | nil => cases fault' <;> cases h; exact Nat.le_refl _
  | cons delivery later =>
      cases delivery with
      | interruption => cases h
      | piece first rest =>
          simp only [read] at h
          split at h <;> cases h

end Source

instance : ByteReader Source where
  read := Source.read
  size := Source.size
  length_le_of_read h := (Source.read_data h).1
  size_add_le_of_read h := (Source.read_data h).2
  size_lt_of_interrupted _ h := Source.read_interrupted h

namespace Source

/-- One call takes bytes from the front, or nothing but an interruption. -/
theorem bytes_of_read {n : Nat} {s next : Source} {bytes : Bytes}
    (h : read n s = (.data bytes, next)) :
    s.bytes = bytes ++ next.bytes ∧ next.fault = s.fault := by
  obtain ⟨deliveries, fault⟩ := s
  cases deliveries with
  | nil => cases fault <;> cases h <;> simp [Source.bytes]
  | cons delivery later =>
      cases delivery with
      | interruption => cases h
      | piece first rest =>
          simp only [read] at h
          split at h
          case h_1 => cases h; simp [Source.bytes, Delivery.bytes]
          case h_2 first' rest' hdrop =>
            cases h
            simp only [Source.bytes, List.flatMap_cons, Delivery.bytes, ← hdrop]
            simp [← List.append_assoc]

theorem bytes_of_interrupted {n : Nat} {s next : Source} (h : read n s = (.interrupted, next)) :
    s.bytes = next.bytes ∧ next.fault = s.fault := by
  obtain ⟨deliveries, fault⟩ := s
  cases deliveries with
  | nil => cases fault <;> cases h
  | cons delivery later =>
      cases delivery with
      | interruption => cases h; simp [Source.bytes, Delivery.bytes]
      | piece first rest =>
          simp only [read] at h
          split at h <;> cases h

/-- Nothing is delivered only at the end of a source without a fault. -/
theorem bytes_eq_nil_of_read {n : Nat} {s next : Source} (hn : 0 < n)
    (h : read n s = (.data [], next)) : s.bytes = [] ∧ s.fault = none := by
  obtain ⟨deliveries, fault⟩ := s
  cases deliveries with
  | nil => cases fault with
    | none => simp [Source.bytes]
    | some f => cases h
  | cons delivery later =>
      cases delivery with
      | interruption => cases h
      | piece first rest =>
          simp only [read] at h
          split at h
          case h_1 => cases h
          case h_2 =>
            simp only [Prod.mk.injEq, Reading.data.injEq, List.take_eq_nil_iff] at h
            rcases h.1 with h | h
            · omega
            · cases h

theorem bytes_eq_nil_of_failed {n : Nat} {s next : Source} {fault : IoFault}
    (h : read n s = (.failed fault, next)) : s.bytes = [] ∧ s.fault = some fault := by
  obtain ⟨deliveries, fault'⟩ := s
  cases deliveries with
  | nil => cases fault' <;> cases h; simp [Source.bytes]
  | cons delivery later =>
      cases delivery with
      | interruption => cases h
      | piece first rest =>
          simp only [read] at h
          split at h <;> cases h

theorem fillOnto_eq_take {got : Array UInt8} {want : Nat} {s : Source}
    (h : want ≤ s.bytes.length ∨ s.fault = none) :
    ∃ next, ByteReader.fillOnto got want s = (.ok (got.toList ++ s.bytes.take want), next) ∧
      next.bytes = s.bytes.drop want ∧ next.fault = s.fault := by
  fun_induction ByteReader.fillOnto got want s with
  | case1 got r => exact ⟨r, by simp⟩
  | case2 got want r hwant next hread =>
      obtain ⟨hbytes, hfault⟩ := bytes_of_read hread
      have hnil := (bytes_eq_nil_of_read (by omega) hread).1
      refine ⟨next, by simp [hnil], ?_, hfault⟩
      simpa [hnil] using hbytes.symm
  | case3 got want r hwant byte bytes next hread ih =>
      obtain ⟨hbytes, hfault⟩ := bytes_of_read hread
      have hlen : bytes.length + 1 ≤ want := (read_data hread).1
      have hnext : want - (bytes.length + 1) ≤ next.bytes.length ∨ next.fault = none := by
        rw [hbytes, ← hfault] at h
        simp only [List.length_append, List.length_cons] at h
        rcases h with h | h
        · exact Or.inl (by omega)
        · exact Or.inr h
      have hshort : (byte :: bytes).length ≤ want := hlen
      obtain ⟨last, hfill, hdrop, hlast⟩ := ih hnext
      refine ⟨last, ?_, ?_, hlast.trans hfault⟩
      · rw [hfill, hbytes, List.take_append]
        simp [List.take_of_length_le hshort]
      · rw [hdrop, hbytes, List.drop_append]
        simp [List.drop_of_length_le hshort]
  | case4 got want r hwant next hread ih =>
      obtain ⟨hbytes, hfault⟩ := bytes_of_interrupted hread
      rw [hbytes, ← hfault]
      rw [hbytes, ← hfault] at h
      exact ih h
  | case5 got want r hwant fault next hread =>
      obtain ⟨hnil, hfault⟩ := bytes_eq_nil_of_failed hread
      rw [hnil, hfault] at h
      simp at h
      omega

/-- Where enough bytes are there, or the source ends, the first bytes are filled in. -/
theorem fill_eq_take {n : Nat} {s : Source} (h : n ≤ s.bytes.length ∨ s.fault = none) :
    ∃ next, ByteReader.fill n s = (.ok (s.bytes.take n), next) ∧
      next.bytes = s.bytes.drop n ∧ next.fault = s.fault := by
  simpa [ByteReader.fill] using @fillOnto_eq_take #[] n s h

theorem fillOnto_eq_fault {got : Array UInt8} {want : Nat} {s : Source} {fault : IoFault}
    (h : s.bytes.length < want) (hfault : s.fault = some fault) :
    (ByteReader.fillOnto got want s).1 = .error fault := by
  fun_induction ByteReader.fillOnto got want s with
  | case1 got r => omega
  | case2 got want r hwant next hread =>
      rw [(bytes_eq_nil_of_read (by omega) hread).2] at hfault
      cases hfault
  | case3 got want r hwant byte bytes next hread ih =>
      obtain ⟨hbytes, hsame⟩ := bytes_of_read hread
      rw [hbytes] at h
      simp only [List.length_append, List.length_cons] at h
      exact ih (by omega) (hsame.trans hfault)
  | case4 got want r hwant next hread ih =>
      obtain ⟨hbytes, hsame⟩ := bytes_of_interrupted hread
      exact ih (hbytes ▸ h) (hsame.trans hfault)
  | case5 got want r hwant fault' next hread =>
      have hsame := (bytes_eq_nil_of_failed hread).2
      rw [hfault] at hsame
      cases hsame
      rfl

/-- Where the source fails before enough bytes are there, filling fails with its fault. -/
theorem fill_eq_fault {n : Nat} {s : Source} {fault : IoFault} (h : s.bytes.length < n)
    (hfault : s.fault = some fault) : (ByteReader.fill n s).1 = .error fault :=
  fillOnto_eq_fault h hfault

end Source

end SealedEnvelope
