import Mathlib.Algebra.Order.Floor.Div
import Mathlib.Tactic
import SealedEnvelope.Kdf.Kdf2

/-!
The output of KDF2 byte by byte. The position of a byte alone tells the counter of its hash and
where in the hash it stands. So a shorter output is the front of a longer one, and an
output is refused just if its last hash would need a counter of more than 32 bits.
-/

namespace SealedEnvelope.Kdf2

variable (h : HashAlgorithm) (secret : Bytes)

/-- The hash under a counter. -/
def block (counter : Nat) : Bytes := (h.digest (secret ++ Bytes.bigEndian 4 counter)).toBytes

/-- The hashes under the first counters, back to back. -/
def blocks (count : Nat) : Bytes := (List.range count).flatMap fun i => block h secret (i + 1)

@[simp]
theorem length_block (counter : Nat) : (block h secret counter).length = h.size :=
  Octets.length_toBytes _

theorem blocks_succ (count : Nat) :
    blocks h secret (count + 1) = blocks h secret count ++ block h secret (count + 1) := by
  rw [blocks, List.range_succ, List.flatMap_append, List.flatMap_singleton]
  rfl

@[simp]
theorem length_blocks (count : Nat) : (blocks h secret count).length = count * h.size := by
  induction count with
  | zero => simp [blocks]
  | succ count ih => rw [blocks_succ, List.length_append, ih, length_block, Nat.succ_mul]

/-- Position `i` lies in block number `i / h.size`, whose counter is one more. -/
theorem getElem?_blocks {count i : Nat} (hi : i < count * h.size) :
    (blocks h secret count)[i]? = (block h secret (i / h.size + 1))[i % h.size]? := by
  induction count with
  | zero => omega
  | succ count ih =>
      rw [blocks_succ]
      rcases Nat.lt_or_ge i (count * h.size) with hfront | hback
      · rw [List.getElem?_append_left (by rwa [length_blocks]), ih hfront]
      -- The last block begins where those before it end.
      · have hnumber : i / h.size = count := Nat.div_eq_of_lt_le hback hi
        have hplace : i - count * h.size = i % h.size := by
          rw [← hnumber, Nat.mod_eq_sub_div_mul]
        rw [List.getElem?_append_right (by rwa [length_blocks]), length_blocks, hnumber, hplace]

theorem blockCount_eq (length : Nat) : blockCount h length = length ⌈/⌉ h.size :=
  (Nat.ceilDiv_eq_add_pred_div length h.size).symm

theorem blockCount_le_iff {length count : Nat} :
    blockCount h length ≤ count ↔ length ≤ count * h.size := by
  rw [blockCount_eq, ceilDiv_le_iff_le_mul h.size_pos, Nat.mul_comm]

theorem output_eq (length : Nat) :
    output h secret length = (blocks h secret (blockCount h length)).take length := rfl

/-- No block is missing. -/
@[simp]
theorem length_output (length : Nat) : (output h secret length).length = length := by
  have hle : length ≤ blockCount h length * h.size := (blockCount_le_iff h).mp le_rfl
  rw [output_eq, List.length_take, length_blocks, Nat.min_eq_left hle]

theorem getElem?_output {length i : Nat} (hi : i < length) :
    (output h secret length)[i]? = (block h secret (i / h.size + 1))[i % h.size]? := by
  have hle : length ≤ blockCount h length * h.size := (blockCount_le_iff h).mp le_rfl
  rw [output_eq, List.getElem?_take_of_lt hi, getElem?_blocks h secret (hi.trans_le hle)]

/-- Where an output is cut off has no effect on what stands before. -/
theorem take_output {m n : Nat} (hle : m ≤ n) : (output h secret n).take m = output h secret m := by
  apply List.ext_getElem?
  intro i
  rcases Nat.lt_or_ge i m with hlt | hge
  · rw [List.getElem?_take_of_lt hlt, getElem?_output h secret hlt,
      getElem?_output h secret (hlt.trans_le hle)]
  · rw [List.getElem?_eq_none (by simp; omega), List.getElem?_eq_none (by simp; omega)]

/-- Whole blocks end with the block under the last counter. -/
theorem drop_output (count : Nat) :
    (output h secret ((count + 1) * h.size)).drop (count * h.size) = block h secret (count + 1) := by
  have hcount : blockCount h ((count + 1) * h.size) = count + 1 := by
    apply le_antisymm
    · exact (blockCount_le_iff h).mpr le_rfl
    · exact Nat.le_of_mul_le_mul_right ((blockCount_le_iff h).mp le_rfl) h.size_pos
  rw [output_eq, hcount, List.take_of_length_le (by rw [length_blocks]), blocks_succ,
    List.drop_left' (length_blocks h secret count)]

theorem blockCount_lt_iff {length : Nat} :
    blockCount h length < UInt32.size ↔ length ⌈/⌉ h.size ≤ 2 ^ 32 - 1 := by
  rw [← blockCount_eq]
  exact Nat.lt_succ_iff

theorem derive_of_le {length : Nat} (hle : length ⌈/⌉ h.size ≤ 2 ^ 32 - 1) :
    derive h secret length = .ok (output h secret length) :=
  if_pos ((blockCount_lt_iff h).mpr hle)

theorem derive_of_lt {length : Nat} (hlt : 2 ^ 32 - 1 < length ⌈/⌉ h.size) :
    derive h secret length = .error (.invalidParameter (.derivedLength length)) :=
  if_neg (mt (blockCount_lt_iff h).mp (Nat.not_le_of_lt hlt))

/-- The bytes that are prescribed: byte `i` of them stands at place `i mod size` in the hash of
the secret and the counter `i div size + 1`, which fits into its four bytes. -/
structure Prescribed (length : Nat) (bytes : Bytes) : Prop where
  length_eq : bytes.length = length
  counter_le {i : Nat} : i < length → i / h.size + 1 ≤ 2 ^ 32 - 1
  getElem?_eq {i : Nat} : i < length →
    bytes[i]? =
      (h.digest (secret ++ Bytes.bigEndian 4 (i / h.size + 1))).toBytes[i % h.size]?

theorem prescribed_output {length : Nat} (hle : length ⌈/⌉ h.size ≤ 2 ^ 32 - 1) :
    Prescribed h secret length (output h secret length) where
  length_eq := length_output h secret length
  counter_le {i} hi := by
    have hreach : length ≤ (2 ^ 32 - 1) * h.size := by
      rwa [← blockCount_le_iff, blockCount_eq]
    exact (Nat.div_lt_iff_lt_mul h.size_pos).mpr (hi.trans_le hreach)
  getElem?_eq hi := getElem?_output h secret hi

/-- Derivation fails just if its last hash would need a counter above the last 32-bit number, and
then for that reason. Otherwise all bytes are there, each at the place that is prescribed for it;
every counter from one to the last 32-bit number is used; and a shorter output is the front of a
longer one. -/
theorem derived_bytes_exact (n : Nat) :
    (∀ failure, derive h secret n = .error failure ↔
        2 ^ 32 - 1 < n ⌈/⌉ h.size ∧ failure = .invalidParameter (.derivedLength n)) ∧
      (n ⌈/⌉ h.size ≤ 2 ^ 32 - 1 →
        ∃ bytes, derive h secret n = .ok bytes ∧ Prescribed h secret n bytes) ∧
      (∀ counter, 0 < counter → counter ≤ 2 ^ 32 - 1 →
        ∃ bytes, derive h secret (counter * h.size) = .ok bytes ∧
          bytes.drop ((counter - 1) * h.size) =
            (h.digest (secret ++ Bytes.bigEndian 4 counter)).toBytes) ∧
      ∀ m ≤ n, ∀ bytes, derive h secret n = .ok bytes →
        derive h secret m = .ok (bytes.take m) := by
  refine ⟨?fails, ?succeeds, ?counters, ?fronts⟩
  case fails =>
    intro failure
    rcases Nat.lt_or_ge (2 ^ 32 - 1) (n ⌈/⌉ h.size) with hlt | hle
    · rw [derive_of_lt h secret hlt]
      simp only [Except.error.injEq, hlt, true_and]
      exact eq_comm
    · rw [derive_of_le h secret hle]
      simp only [reduceCtorEq, Nat.not_lt_of_le hle, false_and]
  case succeeds =>
    intro hle
    exact ⟨_, derive_of_le h secret hle, prescribed_output h secret hle⟩
  case counters =>
    intro counter hpos hlimit
    obtain ⟨count, rfl⟩ := Nat.exists_eq_add_one.mpr hpos
    have hle : ((count + 1) * h.size) ⌈/⌉ h.size ≤ 2 ^ 32 - 1 := by
      rw [← blockCount_eq, blockCount_le_iff]
      exact Nat.mul_le_mul_right _ hlimit
    exact ⟨_, derive_of_le h secret hle, drop_output h secret count⟩
  case fronts =>
    intro m hmn bytes hbytes
    have hle : n ⌈/⌉ h.size ≤ 2 ^ 32 - 1 := by
      by_contra hnot
      rw [derive_of_lt h secret (Nat.lt_of_not_le hnot)] at hbytes
      cases hbytes
    rw [derive_of_le h secret hle] at hbytes
    cases hbytes
    have hshorter : m ⌈/⌉ h.size ≤ 2 ^ 32 - 1 := by
      rw [← blockCount_eq, blockCount_le_iff] at hle ⊢
      exact hmn.trans hle
    rw [take_output h secret hmn, derive_of_le h secret hshorter]

/-- The longest output of SHA-512, which ends with the hash under the last 32-bit number, one of its
fronts, and the failure to derive one byte more. -/
theorem derived_bytes_exact_longest :
    ∃ bytes, derive .sha512 [7] ((2 ^ 32 - 1) * 64) = .ok bytes ∧
      Prescribed .sha512 [7] ((2 ^ 32 - 1) * 64) bytes ∧
      bytes.drop ((2 ^ 32 - 1 - 1) * 64) =
        (Sha512.digest ([7] ++ Bytes.bigEndian 4 (2 ^ 32 - 1))).toBytes ∧
      derive .sha512 [7] 100 = .ok (bytes.take 100) ∧
      derive .sha512 [7] ((2 ^ 32 - 1) * 64 + 1) =
        .error (.invalidParameter (.derivedLength ((2 ^ 32 - 1) * 64 + 1))) := by
  obtain ⟨-, hsucceeds, hcounters, hfronts⟩ :=
    derived_bytes_exact .sha512 [7] ((2 ^ 32 - 1) * 64)
  obtain ⟨bytes, hbytes, hprescribed⟩ := hsucceeds (by decide)
  obtain ⟨whole, hwhole, hlast⟩ := hcounters (2 ^ 32 - 1) (by decide) (by decide)
  obtain rfl : bytes = whole := Except.ok.inj (hbytes.symm.trans hwhole)
  obtain ⟨hfails, -⟩ := derived_bytes_exact .sha512 [7] ((2 ^ 32 - 1) * 64 + 1)
  exact ⟨bytes, hbytes, hprescribed, hlast, hfronts 100 (by decide) bytes hbytes,
    (hfails _).mpr ⟨by decide, rfl⟩⟩

end SealedEnvelope.Kdf2
