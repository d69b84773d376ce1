/-!
Byte strings: exact-length strings, fixed-width integers in either byte order,
exclusive or, and cutting into blocks.
-/

namespace SealedEnvelope

/-- A string of bytes. -/
abbrev Bytes := List UInt8

/-- A string of exactly `n` bytes. -/
def Octets (n : Nat) := { bytes : Bytes // bytes.length = n }

namespace Octets

instance {n : Nat} : DecidableEq (Octets n) :=
  inferInstanceAs (DecidableEq { bytes : Bytes // bytes.length = n })

def toBytes {n : Nat} (x : Octets n) : Bytes := x.val

@[simp]
theorem length_toBytes {n : Nat} (x : Octets n) : x.toBytes.length = n := x.property

theorem ext {n : Nat} {x y : Octets n} (h : x.toBytes = y.toBytes) : x = y :=
  Subtype.ext h

/-- The same bytes, if there are exactly `n` of them. -/
def ofBytes? (n : Nat) (bytes : Bytes) : Option (Octets n) :=
  if h : bytes.length = n then some ⟨bytes, h⟩ else none

/-- The first `n` bytes, filled up with zeros where there are fewer. -/
def ofPadded (n : Nat) (bytes : Bytes) : Octets n :=
  ⟨bytes.take n ++ List.replicate (n - bytes.length) 0, by
    simp only [List.length_append, List.length_take, List.length_replicate]
    omega⟩

def zero (n : Nat) : Octets n := ⟨List.replicate n 0, List.length_replicate⟩

/-- True of the string that holds zeros only. -/
def isZero {n : Nat} (x : Octets n) : Bool := x.toBytes.all (· == 0)

@[simp]
theorem ofBytes?_toBytes {n : Nat} (x : Octets n) : ofBytes? n x.toBytes = some x := by
  obtain ⟨bytes, h⟩ := x
  simp [ofBytes?, toBytes, h]

theorem toBytes_of_ofBytes? {n : Nat} {bytes : Bytes} {x : Octets n}
    (h : ofBytes? n bytes = some x) : x.toBytes = bytes := by
  unfold ofBytes? at h
  split at h
  · cases h; rfl
  · cases h

@[simp]
theorem toBytes_ofPadded {n : Nat} {bytes : Bytes} (h : bytes.length = n) :
    (ofPadded n bytes).toBytes = bytes := by
  subst h
  simp [ofPadded, toBytes]

end Octets

namespace Bytes

/-- The `width` low-order bytes of `n`, least significant first. -/
def littleEndian : (width n : Nat) → Bytes
  | 0, _ => []
  | width + 1, n => UInt8.ofNat n :: littleEndian width (n / 256)

/-- The `width` low-order bytes of `n`, most significant first. -/
def bigEndian (width n : Nat) : Bytes := (littleEndian width n).reverse

/-- The number whose bytes these are, least significant first. -/
def ofLittleEndian (bytes : Bytes) : Nat :=
  bytes.foldr (fun byte rest => byte.toNat + 256 * rest) 0

/-- The number whose bytes these are, most significant first. -/
def ofBigEndian (bytes : Bytes) : Nat :=
  bytes.foldl (fun front byte => 256 * front + byte.toNat) 0

@[simp]
theorem length_littleEndian (width n : Nat) : (littleEndian width n).length = width := by
  induction width generalizing n with
  | zero => rfl
  | succ width ih => simp [littleEndian, ih]

@[simp]
theorem length_bigEndian (width n : Nat) : (bigEndian width n).length = width := by
  simp [bigEndian]

/-- Bytewise exclusive or, as long as the shorter of the two. -/
def xor (x y : Bytes) : Bytes := List.zipWith (· ^^^ ·) x y

@[simp]
theorem length_xor (x y : Bytes) : (xor x y).length = min x.length y.length := by
  simp [xor]

/-- A mask applied twice leaves what it covers unchanged. -/
theorem xor_xor_cancel {x mask : Bytes} (h : x.length ≤ mask.length) :
    xor (xor x mask) mask = x := by
  induction x generalizing mask with
  | nil => simp [xor]
  | cons b x ih =>
      cases mask with
      | nil => simp at h
      | cons m mask =>
          have hrest : xor (xor x mask) mask = x := ih (by simpa using h)
          simp only [xor, List.zipWith_cons_cons] at hrest ⊢
          rw [hrest, UInt8.xor_assoc, UInt8.xor_self, UInt8.xor_zero]

/-- Consecutive blocks of `n` bytes, the last one possibly shorter. -/
def cut (n : Nat) (bytes : Bytes) : List Bytes :=
  if n = 0 ∨ bytes = [] then [] else bytes.take n :: cut n (bytes.drop n)
termination_by bytes.length
decreasing_by
  rename_i h
  have hpos := List.length_pos_iff.mpr fun e => h (Or.inr e)
  simp only [List.length_drop]
  omega

/-- The two members of each successive pair; an odd last member is dropped. -/
def cutPairs {α : Type} : List α → List (α × α)
  | x :: y :: rest => (x, y) :: cutPairs rest
  | _ => []

/-- Zeros up to the next multiple of `n`. -/
def padTo (n : Nat) (bytes : Bytes) : Bytes :=
  bytes ++ List.replicate ((n - bytes.length % n) % n) 0

end Bytes

end SealedEnvelope
