import SealedEnvelope.Failure

/-!
Reading: what a reader may answer to one call, and the loop that reads on until
enough is there.
-/

namespace SealedEnvelope

/-- The answer to one read call. No bytes mean the end of the input. -/
inductive Reading where
  | data (bytes : Bytes)
  | interrupted
  | failed (fault : IoFault)
deriving DecidableEq, Repr

/-- Something that can be read. `size` bounds the bytes that it can still deliver together with
the calls that it can still interrupt. -/
class ByteReader (ρ : Type) where
  read : Nat → ρ → Reading × ρ
  size : ρ → Nat
  length_le_of_read {n : Nat} {r next : ρ} {bytes : Bytes} :
    read n r = (.data bytes, next) → bytes.length ≤ n
  size_add_le_of_read {n : Nat} {r next : ρ} {bytes : Bytes} :
    read n r = (.data bytes, next) → size next + bytes.length ≤ size r
  size_lt_of_interrupted {n : Nat} {r next : ρ} :
    0 < n → read n r = (.interrupted, next) → size next < size r

namespace ByteReader

variable {ρ : Type} [ByteReader ρ]

/-- Reads until `want` more bytes are there or the input ends; interrupted calls are repeated. -/
def fillOnto (got : Array UInt8) (want : Nat) (r : ρ) : Except IoFault Bytes × ρ :=
  if want = 0 then (.ok got.toList, r)
  else
    match h : read want r with
    | (.data [], next) => (.ok got.toList, next)
    | (.data (byte :: bytes), next) =>
        fillOnto (got ++ (byte :: bytes).toArray) (want - (bytes.length + 1)) next
    | (.interrupted, next) => fillOnto got want next
    | (.failed fault, next) => (.error fault, next)
termination_by size r
decreasing_by
  · have hsize := size_add_le_of_read h
    simp only [List.length_cons] at hsize
    omega
  · exact size_lt_of_interrupted (by omega) h

/-- Reads `n` bytes, or fewer where the input ends before. -/
def fill (n : Nat) (r : ρ) : Except IoFault Bytes × ρ := fillOnto #[] n r

/-- Reads to the end. -/
def readAll (r : ρ) : Except IoFault Bytes × ρ := fill (size r + 1) r

theorem size_add_le_of_fillOnto {got : Array UInt8} {want : Nat} {r next : ρ} {bytes : Bytes}
    (h : fillOnto got want r = (.ok bytes, next)) :
    size next + bytes.length ≤ size r + got.size := by
  fun_induction fillOnto got want r with
  | case1 got r =>
      cases h
      simp
  | case2 got want r hwant next' hread =>
      cases h
      have hsize := size_add_le_of_read hread
      simp at hsize ⊢
      omega
  | case3 got want r hwant byte bytes' next' hread ih =>
      have hsize := size_add_le_of_read hread
      have hrest := ih h
      simp at hsize hrest
      omega
  | case4 got want r hwant next' hread ih =>
      have hsize := size_lt_of_interrupted (by omega) hread
      have hrest := ih h
      omega
  | case5 => cases h

theorem size_add_le_of_fill {n : Nat} {r next : ρ} {bytes : Bytes}
    (h : fill n r = (.ok bytes, next)) : size next + bytes.length ≤ size r := by
  simpa using size_add_le_of_fillOnto h

end ByteReader

end SealedEnvelope
