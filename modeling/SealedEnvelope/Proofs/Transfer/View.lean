import SealedEnvelope.Proofs.Bytes
import SealedEnvelope.Segment.StreamCipher
import SealedEnvelope.Transfer.Withholding

/-!
Readers seen as the bytes that they are going to deliver and the fault that they
fail with afterwards, if any. Reads may cut those bytes anywhere and may be
interrupted; a filled buffer and the blocks of a text depend on the bytes and the
fault only. Sources and readers that keep back a trailer both have such a view.
-/

namespace SealedEnvelope

theorem ByteReader.length_le_of_fillOnto {ρ : Type} [ByteReader ρ] {got : Array UInt8} {want : Nat}
    {r next : ρ} {bytes : Bytes} (h : fillOnto got want r = (.ok bytes, next)) :
    bytes.length ≤ got.size + want := by
  fun_induction fillOnto got want r with
  | case1 got r =>
      cases h
      simp
  | case2 got want r hwant next' hread =>
      cases h
      simp
  | case3 got want r hwant byte piece next' hread ih =>
      have hpiece : (byte :: piece).length ≤ want := length_le_of_read hread
      have hrest := ih h
      simp only [Array.size_append, List.size_toArray, List.length_cons] at hrest hpiece
      omega
  | case4 got want r hwant next' hread ih => exact ih h
  | case5 => cases h

/-- No reader fills in more than was wanted. -/
theorem ByteReader.length_le_of_fill {ρ : Type} [ByteReader ρ] {n : Nat} {r next : ρ}
    {bytes : Bytes} (h : fill n r = (.ok bytes, next)) : bytes.length ≤ n := by
  simpa using length_le_of_fillOnto h

theorem StreamCipher.length_le_of_mem_readBlocks {ρ : Type} [ByteReader ρ] {n : Nat} {r : ρ}
    {block : Bytes} (h : block ∈ (readBlocks n r).1) : block.length ≤ n := by
  fun_induction readBlocks n r with
  | case1 => cases h
  | case2 => cases h
  | case3 r byte bytes next hfill hlt =>
      obtain rfl := List.mem_singleton.mp h
      exact hlt.le
  | case4 r byte bytes next hfill hge blocks fault last hlater ih =>
      rcases List.mem_cons.mp h with rfl | hmem
      · exact ByteReader.length_le_of_fill hfill
      · rw [hlater] at ih
        exact ih hmem

/-- A view of readers: `Holds r bytes fault` says that `r` still delivers `bytes` and then ends or
fails with `fault`, and `Ended r` is true once a read has told the end. -/
structure ReaderView (ρ : Type) [ByteReader ρ] where
  Holds : ρ → Bytes → Option IoFault → Prop
  Ended : ρ → Prop
  data_read {n : Nat} {r next : ρ} {bytes got : Bytes} {fault : Option IoFault} :
    0 < n → Holds r bytes fault → ByteReader.read n r = (.data got, next) →
      ∃ rest, bytes = got ++ rest ∧ Holds next rest fault
  ended_read {n : Nat} {r next : ρ} {bytes : Bytes} {fault : Option IoFault} :
    0 < n → Holds r bytes fault → ByteReader.read n r = (.data [], next) →
      bytes = [] ∧ fault = none ∧ Ended next
  interrupted_read {n : Nat} {r next : ρ} {bytes : Bytes} {fault : Option IoFault} :
    0 < n → Holds r bytes fault → ByteReader.read n r = (.interrupted, next) →
      Holds next bytes fault
  failed_read {n : Nat} {r next : ρ} {bytes : Bytes} {fault : Option IoFault} {f : IoFault} :
    0 < n → Holds r bytes fault → ByteReader.read n r = (.failed f, next) →
      bytes = [] ∧ fault = some f

namespace ReaderView

variable {ρ : Type} [ByteReader ρ] (v : ReaderView ρ)

/-- A buffer of `n` bytes is filled from the bytes to come, as far as they reach; where they do
not, the end has been seen, or the fault is the result. -/
theorem fillOnto_cases {got : Array UInt8} {n : Nat} {r next : ρ} {bytes : Bytes}
    {fault : Option IoFault} {result : Except IoFault Bytes} (h : v.Holds r bytes fault)
    (hfill : ByteReader.fillOnto got n r = (result, next)) :
    (n ≤ bytes.length ∧ result = .ok (got.toList ++ bytes.take n) ∧
        v.Holds next (bytes.drop n) fault) ∨
      (bytes.length < n ∧ fault = none ∧ result = .ok (got.toList ++ bytes) ∧
        v.Holds next [] none ∧ v.Ended next) ∨
      (bytes.length < n ∧ ∃ f, fault = some f ∧ result = .error f) := by
  fun_induction ByteReader.fillOnto got n r generalizing bytes with
  | case1 got r =>
      cases hfill
      exact Or.inl ⟨Nat.zero_le _, by simp, h⟩
  | case2 got n r hn next' hread =>
      cases hfill
      obtain ⟨rfl, rfl, hended⟩ := v.ended_read (by omega) h hread
      obtain ⟨rest, hrest, hnext⟩ := v.data_read (by omega) h hread
      rw [List.nil_append] at hrest
      rw [← hrest] at hnext
      exact Or.inr (Or.inl ⟨by simp only [List.length_nil]; omega, rfl, by simp, hnext, hended⟩)
  | case3 got n r hn byte piece next' hread ih =>
      obtain ⟨rest, rfl, hnext⟩ := v.data_read (by omega) h hread
      have hlength : (byte :: piece).length ≤ n := ByteReader.length_le_of_read hread
      have htake : ((byte :: piece) ++ rest).take n =
          (byte :: piece) ++ rest.take (n - (piece.length + 1)) := by
        rw [List.take_append, List.take_of_length_le hlength]
        rfl
      have hdrop : ((byte :: piece) ++ rest).drop n = rest.drop (n - (piece.length + 1)) := by
        rw [List.drop_append, List.drop_of_length_le hlength]
        rfl
      rw [htake, hdrop]
      simp only [List.length_append, List.length_cons] at hlength ⊢
      rcases ih hnext hfill with ⟨hle, hok, hheld⟩ | ⟨hlt, hnone, hok, hheld⟩ | ⟨hlt, herror⟩
      · exact Or.inl ⟨by omega, by rw [hok]; simp, hheld⟩
      · exact Or.inr (Or.inl ⟨by omega, hnone, by rw [hok]; simp, hheld⟩)
      · exact Or.inr (Or.inr ⟨by omega, herror⟩)
  | case4 got n r hn next' hread ih => exact ih (v.interrupted_read (by omega) h hread) hfill
  | case5 got n r hn f next' hread =>
      cases hfill
      obtain ⟨rfl, rfl⟩ := v.failed_read (by omega) h hread
      exact Or.inr (Or.inr ⟨by simp only [List.length_nil]; omega, f, rfl, rfl⟩)

/-- Where enough bytes are there, the first of them are read. -/
theorem fill_of_le {n : Nat} {r : ρ} {bytes : Bytes} {fault : Option IoFault}
    (h : v.Holds r bytes fault) (hn : n ≤ bytes.length) :
    ∃ next, ByteReader.fill n r = (.ok (bytes.take n), next) ∧
      v.Holds next (bytes.drop n) fault := by
  rcases hfill : ByteReader.fill n r with ⟨result, next⟩
  rcases v.fillOnto_cases h hfill with ⟨-, rfl, hnext⟩ | ⟨hlt, -⟩ | ⟨hlt, -⟩
  · exact ⟨next, rfl, hnext⟩
  · omega
  · omega

/-- Where too few are there and the input ends, they are all read and the end has been seen. -/
theorem fill_of_lt {n : Nat} {r : ρ} {bytes : Bytes} (h : v.Holds r bytes none)
    (hn : bytes.length < n) :
    ∃ next, ByteReader.fill n r = (.ok bytes, next) ∧ v.Holds next [] none ∧ v.Ended next := by
  rcases hfill : ByteReader.fill n r with ⟨result, next⟩
  rcases v.fillOnto_cases h hfill with ⟨hle, -⟩ | ⟨-, -, rfl, hnext⟩ | ⟨-, f, hf, -⟩
  · omega
  · exact ⟨next, rfl, hnext⟩
  · cases hf

/-- Where too few are there and reading fails behind them, filling fails. -/
theorem fill_of_fault {n : Nat} {r : ρ} {bytes : Bytes} {f : IoFault}
    (h : v.Holds r bytes (some f)) (hn : bytes.length < n) :
    ∃ next, ByteReader.fill n r = (.error f, next) := by
  rcases hfill : ByteReader.fill n r with ⟨result, next⟩
  rcases v.fillOnto_cases h hfill with ⟨hle, -⟩ | ⟨-, hnone, -⟩ | ⟨-, f', hf, rfl⟩
  · omega
  · cases hnone
  · cases hf
    exact ⟨next, rfl⟩

theorem readBlocks_of_full {n : Nat} {r next : ρ} {block : Bytes} (hn : 0 < n)
    (hfill : ByteReader.fill n r = (.ok block, next)) (hlength : block.length = n) :
    StreamCipher.readBlocks n r =
      (block :: (StreamCipher.readBlocks n next).1, (StreamCipher.readBlocks n next).2) := by
  rw [StreamCipher.readBlocks]
  split
  case h_1 h => rw [hfill] at h; cases h
  case h_2 h =>
    rw [hfill] at h
    cases h
    rw [List.length_nil] at hlength
    omega
  case h_3 h =>
    rw [hfill] at h
    cases h
    rw [List.length_cons] at hlength
    rw [if_neg (by omega)]

theorem readBlocks_of_short {n : Nat} {r next : ρ} {block : Bytes}
    (hfill : ByteReader.fill n r = (.ok block, next)) (hlength : block.length < n) :
    StreamCipher.readBlocks n r = (Bytes.cut n block, none, next) := by
  rw [StreamCipher.readBlocks]
  split
  case h_1 h => rw [hfill] at h; cases h
  case h_2 h =>
    rw [hfill] at h
    cases h
    rw [Bytes.cut_nil]
  case h_3 h =>
    rw [hfill] at h
    cases h
    rw [Bytes.cut_of_length_le (by simp) hlength.le]
    rw [List.length_cons] at hlength
    rw [if_pos hlength]

theorem readBlocks_of_error {n : Nat} {r next : ρ} {f : IoFault}
    (hfill : ByteReader.fill n r = (.error f, next)) :
    StreamCipher.readBlocks n r = ([], some f, next) := by
  rw [StreamCipher.readBlocks]
  split
  case h_1 h => rw [hfill] at h; cases h; rfl
  case h_2 h => rw [hfill] at h; cases h
  case h_3 h => rw [hfill] at h; cases h

/-- The blocks that a reader yields are those of its bytes, and reading them sees the end. -/
theorem readBlocks_eq {n : Nat} {r : ρ} {bytes : Bytes} (hn : 0 < n)
    (h : v.Holds r bytes none) :
    ∃ last, StreamCipher.readBlocks n r = (Bytes.cut n bytes, none, last) ∧
      v.Holds last [] none ∧ v.Ended last := by
  induction hlength : bytes.length using Nat.strong_induction_on generalizing r bytes with
  | h length ih =>
      rcases Nat.lt_or_ge bytes.length n with hlt | hle
      · obtain ⟨next, hfill, hnext⟩ := v.fill_of_lt h hlt
        exact ⟨next, readBlocks_of_short hfill hlt, hnext⟩
      · obtain ⟨next, hfill, hnext⟩ := v.fill_of_le h hle
        obtain ⟨last, hrest, hlast⟩ :=
          ih (bytes.drop n).length (by rw [List.length_drop]; omega) hnext rfl
        refine ⟨last, ?_, hlast⟩
        rw [readBlocks_of_full hn hfill (List.length_take_of_le hle), hrest,
          Bytes.cut_of_le_length hn hle]

/-- A reader that fails in the end yields the whole blocks of its bytes, then fails. -/
theorem readBlocks_of_fault {n : Nat} {r : ρ} {bytes : Bytes} {f : IoFault} (hn : 0 < n)
    (h : v.Holds r bytes (some f)) :
    ∃ last, StreamCipher.readBlocks n r =
      (Bytes.cut n (bytes.take (bytes.length / n * n)), some f, last) := by
  induction hlength : bytes.length using Nat.strong_induction_on generalizing r bytes with
  | h length ih =>
      subst hlength
      rcases Nat.lt_or_ge bytes.length n with hlt | hle
      · obtain ⟨next, hfill⟩ := v.fill_of_fault h hlt
        refine ⟨next, ?_⟩
        rw [readBlocks_of_error hfill, Nat.div_eq_of_lt hlt, Nat.zero_mul, List.take_zero,
          Bytes.cut_nil]
      · obtain ⟨next, hfill, hnext⟩ := v.fill_of_le h hle
        obtain ⟨last, hrest⟩ :=
          ih (bytes.drop n).length (by rw [List.length_drop]; omega) hnext rfl
        refine ⟨last, ?_⟩
        have hcount : bytes.length / n * n = n + (bytes.drop n).length / n * n := by
          rw [List.length_drop, Nat.div_eq_sub_div hn hle, Nat.add_mul, Nat.one_mul, Nat.add_comm]
        have hwhole : n ≤ (bytes.take (bytes.length / n * n)).length := by
          rw [List.length_take, hcount, List.length_drop]
          have hmul := Nat.div_mul_le_self (bytes.length - n) n
          omega
        rw [readBlocks_of_full hn hfill (List.length_take_of_le hle), hrest,
          Bytes.cut_of_le_length hn hwhole, hcount, List.take_take, List.drop_take,
          Nat.add_sub_cancel_left, Nat.min_eq_left (Nat.le_add_right n _)]

/-- The blocks that are read are settled by what is delivered, and by whether reading fails. -/
theorem readBlocks_congr {ρ' : Type} [ByteReader ρ'] {v' : ReaderView ρ'} {n : Nat} {r : ρ}
    {r' : ρ'} {bytes : Bytes} {fault : Option IoFault} (hn : 0 < n) (h : v.Holds r bytes fault)
    (h' : v'.Holds r' bytes fault) :
    (StreamCipher.readBlocks n r).1 = (StreamCipher.readBlocks n r').1 ∧
      (StreamCipher.readBlocks n r).2.1 = (StreamCipher.readBlocks n r').2.1 := by
  cases fault with
  | none =>
      obtain ⟨last, hblocks, -⟩ := v.readBlocks_eq hn h
      obtain ⟨last', hblocks', -⟩ := v'.readBlocks_eq hn h'
      rw [hblocks, hblocks']
      exact ⟨rfl, rfl⟩
  | some f =>
      obtain ⟨last, hblocks⟩ := v.readBlocks_of_fault hn h
      obtain ⟨last', hblocks'⟩ := v'.readBlocks_of_fault hn h'
      rw [hblocks, hblocks']
      exact ⟨rfl, rfl⟩

end ReaderView

namespace Source

/-- A source delivers its bytes and ends with its fault. -/
def view : ReaderView Source where
  Holds s bytes fault := s.bytes = bytes ∧ s.fault = fault
  Ended s := s.bytes = []
  data_read := by
    rintro n s next _ got _ - ⟨rfl, rfl⟩ hread
    obtain ⟨hbytes, hfault⟩ := bytes_of_read hread
    exact ⟨next.bytes, hbytes, rfl, hfault⟩
  ended_read := by
    rintro n s next _ _ hn ⟨rfl, rfl⟩ hread
    obtain ⟨hnil, hfault⟩ := bytes_eq_nil_of_read hn hread
    have hbytes := (bytes_of_read hread).1
    rw [hnil, List.nil_append] at hbytes
    exact ⟨hnil, hfault, hbytes.symm⟩
  interrupted_read := by
    rintro n s next _ _ - ⟨rfl, rfl⟩ hread
    obtain ⟨hbytes, hfault⟩ := bytes_of_interrupted hread
    exact ⟨hbytes.symm, hfault⟩
  failed_read := by
    rintro n s next _ _ f - ⟨rfl, rfl⟩ hread
    exact bytes_eq_nil_of_failed hread

theorem view_holds (s : Source) : view.Holds s s.bytes s.fault := ⟨rfl, rfl⟩

@[simp]
theorem bytes_ofBytes (bytes : Bytes) : (ofBytes bytes).bytes = bytes := by
  cases bytes with
  | nil => rfl
  | cons first rest => simp [ofBytes, pieces, Source.bytes, Delivery.bytes]

theorem length_bytes_le_size (s : Source) : s.bytes.length ≤ s.size := by
  obtain ⟨deliveries, fault⟩ := s
  simp only [Source.bytes, size]
  induction deliveries with
  | nil => exact Nat.le_refl _
  | cons delivery later ih =>
      cases delivery with
      | piece first rest =>
          simp only [List.flatMap_cons, List.length_append, Delivery.bytes, List.length_cons,
            sizeOfDeliveries]
          omega
      | interruption =>
          simp only [List.flatMap_cons, List.length_append, Delivery.bytes, List.length_nil,
            sizeOfDeliveries]
          omega

/-- Reading to the end gives all bytes, or the fault. -/
theorem readAll_eq (s : Source) :
    (ByteReader.readAll s).1 = match s.fault with
      | none => .ok s.bytes
      | some f => .error f := by
  have hlt : s.bytes.length < ByteReader.size s + 1 := Nat.lt_succ_of_le s.length_bytes_le_size
  have hholds := s.view_holds
  split
  case h_1 hnone =>
    rw [hnone] at hholds
    obtain ⟨next, hfill, -⟩ := view.fill_of_lt hholds hlt
    rw [ByteReader.readAll, hfill]
  case h_2 f hsome =>
    rw [hsome] at hholds
    obtain ⟨next, hfill⟩ := view.fill_of_fault hholds hlt
    rw [ByteReader.readAll, hfill]

end Source

end SealedEnvelope
