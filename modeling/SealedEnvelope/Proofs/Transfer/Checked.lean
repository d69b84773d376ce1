import SealedEnvelope.Proofs.Transfer.View

/-!
Reading with every position in a buffer checked. An operation has no result where it would leave
its buffer, and neither has the computation that asks for it. That all of them have a result, and
which, is said by the laws that tie them to the plain readers.
-/

namespace SealedEnvelope

namespace Checked

/-- Both sides of a position in a string of bytes. -/
def split (position : Nat) (bytes : Bytes) : Option (Bytes × Bytes) :=
  if position ≤ bytes.length then some (bytes.take position, bytes.drop position) else none

/-- The room behind a position in a buffer. -/
def room (length position : Nat) : Option Nat :=
  if position ≤ length then some (length - position) else none

theorem split_of_le {position : Nat} {bytes : Bytes} (h : position ≤ bytes.length) :
    split position bytes = some (bytes.take position, bytes.drop position) := if_pos h

theorem room_of_le {length position : Nat} (h : position ≤ length) :
    room length position = some (length - position) := if_pos h

end Checked

/-- A reader whose calls check the positions in their buffers, and always have a result. -/
class CheckedReader (ρ : Type) [ByteReader ρ] where
  read : Nat → ρ → Option (Reading × ρ)
  read_eq (n : Nat) (r : ρ) : read n r = some (ByteReader.read n r)

/-- A source has no buffer of its own. -/
instance : CheckedReader Source where
  read n s := some (ByteReader.read n s)
  read_eq _ _ := rfl

namespace Checked

section Withholding

open Withholding (readAhead trailerLength)

/-- Each read call goes behind what is held, into a buffer that has been made longer for it. -/
def refill (w : Withholding) : Option (Option IoFault × Withholding) :=
  if w.held.length ≤ trailerLength ∧ w.ended = false then
    match room (w.held.length + readAhead) w.held.length with
    | none => none
    | some want =>
        match _h : w.source.read want with
        | (.data [], source) => some (none, ⟨source, w.held, true⟩)
        | (.data (byte :: bytes), source) => refill ⟨source, w.held ++ byte :: bytes, false⟩
        | (.interrupted, source) => refill ⟨source, w.held, false⟩
        | (.failed fault, source) => some (some fault, ⟨source, w.held, false⟩)
  else some (none, w)
termination_by w.source.size
decreasing_by
  · have hsize := (Source.read_data _h).2
    simp only [List.length_cons] at hsize
    omega
  · exact Source.read_interrupted _h

theorem refill_of_wanting {w : Withholding}
    (hw : w.held.length ≤ trailerLength ∧ w.ended = false) :
    refill w = match w.source.read readAhead with
      | (.data [], source) => some (none, ⟨source, w.held, true⟩)
      | (.data (byte :: bytes), source) => refill ⟨source, w.held ++ byte :: bytes, false⟩
      | (.interrupted, source) => refill ⟨source, w.held, false⟩
      | (.failed fault, source) => some (some fault, ⟨source, w.held, false⟩) := by
  rw [refill, if_pos hw, room_of_le (Nat.le_add_right _ _), Nat.add_sub_cancel_left]
  dsimp only
  generalize w.source.read readAhead = call
  rcases call with ⟨(_ | ⟨byte, bytes⟩) | _ | fault, source⟩ <;> rfl

theorem refill_eq (w : Withholding) : refill w = some w.refill := by
  fun_induction Withholding.refill w with
  | case1 w hw source hread => rw [refill_of_wanting hw, hread]
  | case2 w hw byte bytes source hread ih => rw [refill_of_wanting hw, hread, ← ih]
  | case3 w hw source hread ih => rw [refill_of_wanting hw, hread, ← ih]
  | case4 w hw fault source hread => rw [refill_of_wanting hw, hread]
  | case5 w hw => rw [refill, if_neg hw]

/-- As much of what is held as goes into the buffer is copied there, and taken out. -/
def readWithheld (n : Nat) (w : Withholding) : Option (Reading × Withholding) := do
  match ← refill w with
  | (some fault, next) => return (.failed fault, next)
  | (none, next) =>
      let count := min (next.held.length - trailerLength) n
      let _ ← room n count
      let (delivered, kept) ← split count next.held
      return (.data delivered, { next with held := kept })

theorem readWithheld_eq (n : Nat) (w : Withholding) : readWithheld n w = some (w.read n) := by
  rw [readWithheld, refill_eq, Withholding.read]
  rcases w.refill with ⟨fault | fault, next⟩
  · have hheld : min (next.held.length - trailerLength) n ≤ next.held.length :=
      (Nat.min_le_left _ _).trans (Nat.sub_le _ _)
    simp only [Option.bind_eq_bind, Option.bind_some, room_of_le (Nat.min_le_right _ n),
      split_of_le hheld]
    rfl
  · rfl

end Withholding

end Checked

instance : CheckedReader Withholding where
  read := Checked.readWithheld
  read_eq := Checked.readWithheld_eq

namespace Checked

variable {ρ : Type} [ByteReader ρ] [CheckedReader ρ]

/-- Fills a buffer; each read call goes behind what is there already. -/
def fillOnto (length : Nat) (got : Array UInt8) (r : ρ) : Option (Except IoFault Bytes × ρ) :=
  if length ≤ got.size then some (.ok got.toList, r)
  else
    match _hroom : room length got.size with
    | none => none
    | some want =>
        match _h : CheckedReader.read want r with
        | none => none
        | some (.data [], next) => some (.ok got.toList, next)
        | some (.data (byte :: bytes), next) =>
            fillOnto length (got ++ (byte :: bytes).toArray) next
        | some (.interrupted, next) => fillOnto length got next
        | some (.failed fault, next) => some (.error fault, next)
termination_by ByteReader.size r
decreasing_by
  · rw [CheckedReader.read_eq, Option.some_inj] at _h
    have hsize := ByteReader.size_add_le_of_read _h
    simp only [List.length_cons] at hsize
    omega
  · rw [CheckedReader.read_eq, Option.some_inj] at _h
    rw [room_of_le (by omega), Option.some_inj] at _hroom
    exact ByteReader.size_lt_of_interrupted (by omega) _h

theorem fillOnto_of_wanting {length want : Nat} {got : Array UInt8}
    (hlength : length = got.size + want) (hwant : want ≠ 0) (r : ρ) :
    fillOnto length got r = match ByteReader.read want r with
      | (.data [], next) => some (.ok got.toList, next)
      | (.data (byte :: bytes), next) =>
          fillOnto length (got ++ (byte :: bytes).toArray) next
      | (.interrupted, next) => fillOnto length got next
      | (.failed fault, next) => some (.error fault, next) := by
  have hroom : room length got.size = some want := by
    rw [room_of_le (by omega)]
    exact congrArg some (by omega)
  rw [fillOnto, if_neg (by omega), hroom]
  dsimp only
  rw [CheckedReader.read_eq]
  generalize ByteReader.read want r = call
  rcases call with ⟨(_ | ⟨byte, bytes⟩) | _ | fault, next⟩ <;> rfl

/-- Of a buffer for all that has been got and is wanted, only what is wanted is left. -/
theorem fillOnto_eq {length want : Nat} {got : Array UInt8} (hlength : length = got.size + want)
    (r : ρ) : fillOnto length got r = some (ByteReader.fillOnto got want r) := by
  fun_induction ByteReader.fillOnto got want r with
  | case1 got r => rw [fillOnto, if_pos (by omega)]
  | case2 got want r hwant next hread => rw [fillOnto_of_wanting hlength hwant, hread]
  | case3 got want r hwant byte bytes next hread ih =>
      have hpiece : (byte :: bytes).length ≤ want := ByteReader.length_le_of_read hread
      have hmore : length =
          (got ++ (byte :: bytes).toArray).size + (want - (bytes.length + 1)) := by
        simp only [Array.size_append, List.size_toArray, List.length_cons] at hpiece ⊢
        omega
      rw [fillOnto_of_wanting hlength hwant, hread]
      exact ih hmore
  | case4 got want r hwant next hread ih =>
      rw [fillOnto_of_wanting hlength hwant, hread]
      exact ih hlength
  | case5 got want r hwant fault next hread => rw [fillOnto_of_wanting hlength hwant, hread]

def fill (n : Nat) (r : ρ) : Option (Except IoFault Bytes × ρ) := fillOnto n #[] r

theorem fill_eq (n : Nat) (r : ρ) : fill n r = some (ByteReader.fill n r) :=
  fillOnto_eq (by simp) r

/-- Reads block after block into one buffer, and takes from it what has been filled. -/
def readBlocks (n : Nat) (r : ρ) : Option (List Bytes × Option IoFault × ρ) :=
  match _h : fill n r with
  | none => none
  | some (.error fault, next) => some ([], some fault, next)
  | some (.ok [], next) => some ([], none, next)
  | some (.ok (byte :: bytes), next) =>
      match room n (bytes.length + 1) with
      | none => none
      | some _ =>
          if bytes.length + 1 < n then some ([byte :: bytes], none, next)
          else
            match readBlocks n next with
            | none => none
            | some (blocks, fault, last) => some ((byte :: bytes) :: blocks, fault, last)
termination_by ByteReader.size r
decreasing_by
  rw [fill_eq, Option.some_inj] at _h
  have hsize := ByteReader.size_add_le_of_fill _h
  simp only [List.length_cons] at hsize
  omega

theorem readBlocks_eq (n : Nat) (r : ρ) :
    readBlocks n r = some (StreamCipher.readBlocks n r) := by
  fun_induction StreamCipher.readBlocks n r with
  | case1 r fault next hfill => rw [readBlocks, fill_eq, hfill]
  | case2 r next hfill => rw [readBlocks, fill_eq, hfill]
  | case3 r byte bytes next hfill hlt =>
      have hroom := room_of_le hlt.le
      rw [readBlocks, fill_eq, hfill]
      dsimp only
      rw [hroom]
      dsimp only
      rw [if_pos hlt]
  | case4 r byte bytes next hfill hge blocks fault last hlater ih =>
      have hfull : (byte :: bytes).length ≤ n := ByteReader.length_le_of_fill hfill
      have hroom : room n (bytes.length + 1) = _ := room_of_le hfull
      rw [hlater] at ih
      rw [readBlocks, fill_eq, hfill]
      dsimp only
      rw [hroom]
      dsimp only
      rw [if_neg hge, ih]

end Checked

end SealedEnvelope
