import SealedEnvelope.Transfer.Source

/-!
A reader that keeps back the last bytes of its source: it delivers a byte only
when enough later ones have been seen, and at the end still holds the trailer.
-/

namespace SealedEnvelope

/-- The source, the bytes taken from it but not delivered, and whether it has ended. -/
structure Withholding where
  source : Source
  held : Bytes
  ended : Bool
deriving DecidableEq, Repr

namespace Withholding

/-- The number of bytes kept back. -/
def trailerLength : Nat := 80

/-- The number of bytes taken from the source at a time. -/
def readAhead : Nat := 8192

def ofSource (source : Source) : Withholding := ⟨source, [], false⟩

/-- Takes from the source until more than the trailer is held or the source has ended. -/
def refill (w : Withholding) : Option IoFault × Withholding :=
  if w.held.length ≤ trailerLength ∧ w.ended = false then
    match _h : w.source.read readAhead with
    | (.data [], source) => (none, ⟨source, w.held, true⟩)
    | (.data (byte :: bytes), source) => refill ⟨source, w.held ++ byte :: bytes, false⟩
    | (.interrupted, source) => refill ⟨source, w.held, false⟩
    | (.failed fault, source) => (some fault, ⟨source, w.held, false⟩)
  else (none, w)
termination_by w.source.size
decreasing_by
  · have hsize := (Source.read_data _h).2
    simp only [List.length_cons] at hsize
    omega
  · exact Source.read_interrupted _h

/-- One read call into a buffer of `n` bytes: what is held beyond the trailer, as far as it fits. -/
def read (n : Nat) (w : Withholding) : Reading × Withholding :=
  match w.refill with
  | (some fault, next) => (.failed fault, next)
  | (none, next) =>
      let count := min (next.held.length - trailerLength) n
      (.data (next.held.take count), { next with held := next.held.drop count })

/-- The trailer, if the source has ended and exactly as many bytes are left. -/
def trailer? (w : Withholding) : Option Bytes :=
  if w.ended ∧ w.held.length = trailerLength then some w.held else none

def size (w : Withholding) : Nat := w.source.size + w.held.length

theorem size_refill_le (w : Withholding) : w.refill.2.size ≤ w.size := by
  fun_induction refill w with
  | case1 w hw source hread =>
      have hsize := (Source.read_data hread).2
      simp only [size]
      omega
  | case2 w hw byte bytes source hread ih =>
      have hsize := (Source.read_data hread).2
      simp only [size, List.length_append, List.length_cons] at ih hsize ⊢
      omega
  | case3 w hw source hread ih =>
      have hsize := Source.read_interrupted hread
      simp only [size] at ih ⊢
      omega
  | case4 w hw fault source hread =>
      have hsize : source.size ≤ w.source.size := Source.size_le_of_read_failed hread
      simp only [size]
      omega
  | case5 => exact Nat.le_refl _

theorem read_data {n : Nat} {w next : Withholding} {bytes : Bytes}
    (h : read n w = (.data bytes, next)) :
    bytes.length ≤ n ∧ next.size + bytes.length ≤ w.size := by
  have hsize := size_refill_le w
  unfold read at h
  split at h
  · cases h
  · rename_i filled hfilled
    rw [hfilled] at hsize
    cases h
    simp only [size, List.length_take, List.length_drop] at hsize ⊢
    omega

theorem read_ne_interrupted {n : Nat} {w next : Withholding} :
    read n w ≠ (.interrupted, next) := by
  unfold read
  split <;> simp

end Withholding

instance : ByteReader Withholding where
  read := Withholding.read
  size := Withholding.size
  length_le_of_read h := (Withholding.read_data h).1
  size_add_le_of_read h := (Withholding.read_data h).2
  size_lt_of_interrupted _ h := absurd h Withholding.read_ne_interrupted

end SealedEnvelope
