import Mathlib.Tactic
import SealedEnvelope.Bytes

/-!
Laws of byte strings: numbers and their fixed-width digits determine each other, exclusive
or has at most one solution, and blocks are the only way to cut a string into
full pieces and one last piece that may be shorter but holds something.
-/

namespace SealedEnvelope.Bytes

theorem ofLittleEndian_littleEndian (width n : Nat) :
    ofLittleEndian (littleEndian width n) = n % 256 ^ width := by
  induction width generalizing n with
  | zero => simp [littleEndian, ofLittleEndian, Nat.mod_one]
  | succ width ih =>
      have hrest := ih (n / 256)
      simp only [ofLittleEndian] at hrest
      have hdigit : (UInt8.ofNat n).toNat = n % 256 := by simp
      simp only [littleEndian, ofLittleEndian, List.foldr_cons]
      rw [hrest, hdigit, Nat.pow_succ', Nat.mod_mul]

theorem ofBigEndian_eq (bytes : Bytes) : ofBigEndian bytes = ofLittleEndian bytes.reverse := by
  rw [ofBigEndian, ofLittleEndian, List.foldr_reverse]
  congr 1
  funext front byte
  exact Nat.add_comm _ _

/-- A number that fits into its digits is read back from them. -/
theorem ofBigEndian_bigEndian {width n : Nat} (h : n < 256 ^ width) :
    ofBigEndian (bigEndian width n) = n := by
  rw [ofBigEndian_eq, bigEndian, List.reverse_reverse, ofLittleEndian_littleEndian,
    Nat.mod_eq_of_lt h]

theorem bigEndian_inj {width m n : Nat} (hm : m < 256 ^ width) (hn : n < 256 ^ width)
    (h : bigEndian width m = bigEndian width n) : m = n := by
  rw [← ofBigEndian_bigEndian hm, ← ofBigEndian_bigEndian hn, h]

theorem littleEndian_ofLittleEndian (bytes : Bytes) :
    littleEndian bytes.length (ofLittleEndian bytes) = bytes := by
  induction bytes with
  | nil => rfl
  | cons byte rest ih =>
      have hnumber : ofLittleEndian (byte :: rest) = byte.toNat + 256 * ofLittleEndian rest := rfl
      have hbyte := byte.toNat_lt
      have hdigit : UInt8.ofNat (byte.toNat + 256 * ofLittleEndian rest) = byte := by
        apply UInt8.toNat_inj.mp
        rw [UInt8.toNat_ofNat']
        omega
      have hlater : (byte.toNat + 256 * ofLittleEndian rest) / 256 = ofLittleEndian rest := by
        omega
      rw [List.length_cons, hnumber, littleEndian, hdigit, hlater, ih]

/-- Digits are those of the number read from them. -/
theorem bigEndian_ofBigEndian {width : Nat} {bytes : Bytes} (h : bytes.length = width) :
    bigEndian width (ofBigEndian bytes) = bytes := by
  have hdigits := littleEndian_ofLittleEndian bytes.reverse
  rw [List.length_reverse, h] at hdigits
  rw [ofBigEndian_eq, bigEndian, hdigits, List.reverse_reverse]

/-- Masks of one length that give the same result on one string are the same. -/
theorem xor_left_cancel {x m m' : Bytes} (hm : m.length = x.length) (hm' : m'.length = x.length)
    (h : xor x m = xor x m') : m = m' := by
  induction x generalizing m m' with
  | nil =>
      rw [List.length_nil, List.length_eq_zero_iff] at hm hm'
      rw [hm, hm']
  | cons b x ih =>
      obtain ⟨c, m, rfl⟩ := List.exists_cons_of_length_eq_add_one hm
      obtain ⟨c', m', rfl⟩ := List.exists_cons_of_length_eq_add_one hm'
      simp only [xor, List.zipWith_cons_cons, List.cons.injEq] at h
      have hfirst : c = c' := by
        rw [← UInt8.zero_xor (a := c), ← UInt8.zero_xor (a := c'), ← UInt8.xor_self (a := b),
          UInt8.xor_assoc, UInt8.xor_assoc, h.1]
      have hrest : m = m' := ih (by simpa using hm) (by simpa using hm') h.2
      rw [hfirst, hrest]

/-- A mask of zeros changes nothing. -/
theorem xor_zeros {x : Bytes} {n : Nat} (h : x.length = n) : xor x (List.replicate n 0) = x := by
  subst h
  induction x with
  | nil => rfl
  | cons b x ih =>
      rw [List.length_cons, List.replicate_succ, xor, List.zipWith_cons_cons, UInt8.xor_zero]
      exact congrArg (b :: ·) ih

@[simp]
theorem cut_nil (n : Nat) : cut n [] = [] := by
  rw [cut]
  simp

/-- A full piece in front is the first block. -/
theorem cut_append {n : Nat} {piece rest : Bytes} (hn : 0 < n) (h : piece.length = n) :
    cut n (piece ++ rest) = piece :: cut n rest := by
  have hpiece : piece ≠ [] := List.ne_nil_of_length_pos (by omega)
  rw [cut, if_neg (by simp [hpiece]; omega), List.take_left' h, List.drop_left' h]

/-- What fits into one block is one block. -/
theorem cut_of_length_le {n : Nat} {bytes : Bytes} (hne : bytes ≠ []) (h : bytes.length ≤ n) :
    cut n bytes = [bytes] := by
  have hpos := List.length_pos_iff.mpr hne
  rw [cut, if_neg (by simp [hne]; omega), List.take_of_length_le h, List.drop_of_length_le h,
    cut_nil]

theorem cut_of_le_length {n : Nat} {bytes : Bytes} (hn : 0 < n) (h : n ≤ bytes.length) :
    cut n bytes = bytes.take n :: cut n (bytes.drop n) := by
  have hpiece : (bytes.take n).length = n := List.length_take_of_le h
  rw [← cut_append hn hpiece, List.take_append_drop]

/-- No block is empty. -/
theorem length_cut_le (n : Nat) (bytes : Bytes) : (cut n bytes).length ≤ bytes.length := by
  fun_induction cut n bytes with
  | case1 bytes h => exact Nat.zero_le _
  | case2 bytes h ih =>
      have hpos := List.length_pos_iff.mpr fun hnil => h (Or.inr hnil)
      rw [List.length_drop] at ih
      rw [List.length_cons]
      omega

theorem length_flatten_of_full {n : Nat} {full : List Bytes}
    (h : ∀ block ∈ full, block.length = n) : full.flatten.length = n * full.length := by
  induction full with
  | nil => rfl
  | cons block full ih =>
      obtain ⟨hblock, hrest⟩ := List.forall_mem_cons.mp h
      rw [List.flatten_cons, List.length_append, ih hrest, hblock, List.length_cons, Nat.mul_succ,
        Nat.add_comm]

/-- Where the number of full blocks is given, there is one way to cut them off the front. -/
theorem full_inj {n : Nat} {full full' : List Bytes} {last last' : Bytes}
    (hfull : ∀ block ∈ full, block.length = n) (hfull' : ∀ block ∈ full', block.length = n)
    (hcount : full.length = full'.length) (h : full.flatten ++ last = full'.flatten ++ last') :
    full = full' ∧ last = last' := by
  induction full generalizing full' with
  | nil =>
      obtain rfl := List.length_eq_zero_iff.mp hcount.symm
      exact ⟨rfl, h⟩
  | cons block full ih =>
      obtain ⟨block', full', rfl⟩ := List.exists_cons_of_length_eq_add_one hcount.symm
      obtain ⟨hblock, hrest⟩ := List.forall_mem_cons.mp hfull
      obtain ⟨hblock', hrest'⟩ := List.forall_mem_cons.mp hfull'
      rw [List.flatten_cons, List.flatten_cons, List.append_assoc, List.append_assoc] at h
      obtain ⟨rfl, hlater⟩ := List.append_inj h (hblock.trans hblock'.symm)
      obtain ⟨rfl, hlast⟩ := ih hrest hrest' (Nat.succ.inj hcount) hlater
      exact ⟨rfl, hlast⟩

/-- Full blocks and a last one with something in it, joined and cut again. -/
theorem cut_flatten {n : Nat} {full : List Bytes} {last : Bytes}
    (hfull : ∀ block ∈ full, block.length = n) (hne : last ≠ []) (hlast : last.length ≤ n) :
    cut n (full.flatten ++ last) = full ++ [last] := by
  have hn : 0 < n := Nat.lt_of_lt_of_le (List.length_pos_iff.mpr hne) hlast
  induction full with
  | nil => exact cut_of_length_le hne hlast
  | cons block full ih =>
      obtain ⟨hblock, hrest⟩ := List.forall_mem_cons.mp hfull
      rw [List.flatten_cons, List.append_assoc, cut_append hn hblock, ih hrest,
        List.cons_append]

/-- All blocks but the last are full, and the last one is not empty. -/
theorem exists_cut_eq {n : Nat} {bytes : Bytes} (hn : 0 < n) (hne : bytes ≠ []) :
    ∃ full last, cut n bytes = full ++ [last] ∧ (∀ block ∈ full, block.length = n) ∧
      last ≠ [] ∧ last.length ≤ n := by
  fun_induction cut n bytes with
  | case1 bytes h =>
      rcases h with h | h
      · omega
      · exact absurd h hne
  | case2 bytes h ih =>
      by_cases hrest : bytes.drop n = []
      · have hle : bytes.length ≤ n := List.drop_eq_nil_iff.mp hrest
        refine ⟨[], bytes, ?_, by simp, hne, hle⟩
        rw [hrest, cut_nil, List.take_of_length_le hle]
        rfl
      · have hlt : n < bytes.length := by
          by_contra hge
          exact hrest (List.drop_of_length_le (by omega))
        obtain ⟨full, last, hcut, hfull, hlast⟩ := ih hrest
        refine ⟨bytes.take n :: full, last, by rw [hcut, List.cons_append], ?_, hlast⟩
        exact List.forall_mem_cons.mpr ⟨List.length_take_of_le hlt.le, hfull⟩

/-- The blocks together are the string. -/
theorem flatten_cut {n : Nat} (hn : 0 < n) (bytes : Bytes) : (cut n bytes).flatten = bytes := by
  fun_induction cut n bytes with
  | case1 bytes h =>
      rcases h with h | h
      · omega
      · exact h.symm
  | case2 bytes h ih => rw [List.flatten_cons, ih, List.take_append_drop]

end SealedEnvelope.Bytes
