import SealedEnvelope.Cipher.Aes256
import SealedEnvelope.Cipher.MaskAndTag

/-!
AES-256-GCM (NIST SP 800-38D) with 12-byte nonces and 16-byte tags. Decryption
accepts exactly what encryption produces: `decrypt_eq_some_iff`.
-/

namespace SealedEnvelope.Gcm

open Aes256

/-- An element of the field of 2^128 elements; the coefficient of x^0 is the high bit of `hi`. -/
structure Element where
  hi : UInt64
  lo : UInt64

def Element.zero : Element := ⟨0, 0⟩

def Element.add (x y : Element) : Element := ⟨x.hi ^^^ y.hi, x.lo ^^^ y.lo⟩

/-- Multiplication by x. -/
def Element.shift (v : Element) : Element :=
  let carry : UInt64 := if v.lo &&& 1 = 1 then 0xe100000000000000 else 0
  ⟨(v.hi >>> 1) ^^^ carry, (v.lo >>> 1) ||| (v.hi <<< 63)⟩

/-- Adds the multiples of `v` that the `bits` high-order bits of `word` select. -/
def Element.accumulate (word : UInt64) (z v : Element) : (bits : Nat) → Element × Element
  | 0 => (z, v)
  | bits + 1 =>
      accumulate (word <<< 1) (if word &&& 0x8000000000000000 = 0 then z else z.add v) v.shift bits

def Element.mul (x y : Element) : Element :=
  let (z, v) := accumulate x.hi .zero y 64
  (accumulate x.lo z v 64).1

/-- Reads up to sixteen bytes, as if zeros followed. -/
def Element.ofBytes (bytes : Bytes) : Element :=
  let n := Bytes.ofBigEndian (Bytes.padTo 16 bytes)
  ⟨UInt64.ofNat (n / UInt64.size), UInt64.ofNat n⟩

def Element.toBytes (x : Element) : Bytes :=
  Bytes.bigEndian 8 x.hi.toNat ++ Bytes.bigEndian 8 x.lo.toNat

@[simp]
theorem Element.length_toBytes (x : Element) : x.toBytes.length = 16 := by
  simp [Element.toBytes]

/-- Absorbs text in blocks of sixteen bytes into the running hash. -/
def absorb (key start : Element) (text : Bytes) : Element :=
  (Bytes.cut 16 text).foldl (fun acc block => (acc.add (.ofBytes block)).mul key) start

/-- The hash of associated data and ciphertext, each filled up to whole blocks, and of their
lengths. -/
def hash (key : Element) (ad text : Bytes) : Element :=
  let lengths : Element := ⟨UInt64.ofNat (8 * ad.length), UInt64.ofNat (8 * text.length)⟩
  ((absorb key (absorb key .zero ad) text).add lengths).mul key

/-- The cipher block for counter value `counter` under `nonce`. -/
def counterBlock (s : Schedule) (nonce : Octets 12) (counter : Nat) : Bytes :=
  (s.encrypt (.ofBytes (nonce.toBytes ++ Bytes.bigEndian 4 counter))).toBytes

/-- Enough cipher blocks, from counter value 2 on, to cover `length` bytes. -/
def keystream (s : Schedule) (nonce : Octets 12) (length : Nat) : Bytes :=
  (List.range ((length + 15) / 16)).flatMap fun i => counterBlock s nonce (i + 2)

/-- The text under the mask of the keystream. -/
def mask (s : Schedule) (nonce : Octets 12) (text : Bytes) : Bytes :=
  Bytes.xor text (keystream s nonce text.length)

/-- The authentication tag of a ciphertext. -/
def tag (s : Schedule) (nonce : Octets 12) (ad text : Bytes) : Bytes :=
  let key := Element.ofBytes (s.encrypt ⟨0, 0, 0, 0⟩).toBytes
  Bytes.xor (hash key ad text).toBytes (counterBlock s nonce 1)

/-- The ciphertext followed by its tag. -/
def encrypt (key : Octets 32) (nonce : Octets 12) (ad text : Bytes) : Bytes :=
  let s := schedule key
  MaskAndTag.encrypt (mask s nonce) (tag s nonce ad) text

/-- The text, if the last sixteen bytes are the tag of what stands before them. -/
def decrypt (key : Octets 32) (nonce : Octets 12) (ad sealedText : Bytes) : Option Bytes :=
  let s := schedule key
  MaskAndTag.decrypt (mask s nonce) (tag s nonce ad) sealedText

@[simp]
theorem length_counterBlock (s : Schedule) (nonce : Octets 12) (counter : Nat) :
    (counterBlock s nonce counter).length = 16 := by
  simp [counterBlock]

@[simp]
theorem length_tag (s : Schedule) (nonce : Octets 12) (ad text : Bytes) :
    (tag s nonce ad text).length = MaskAndTag.tagLength := by
  simp [tag, MaskAndTag.tagLength]

theorem length_keystream (s : Schedule) (nonce : Octets 12) (length : Nat) :
    length ≤ (keystream s nonce length).length := by
  have h : (keystream s nonce length).length = (length + 15) / 16 * 16 := by
    simp [keystream, List.length_flatMap, List.map_const', List.sum_replicate_nat]
  omega

@[simp]
theorem length_mask (s : Schedule) (nonce : Octets 12) (text : Bytes) :
    (mask s nonce text).length = text.length := by
  have h := length_keystream s nonce text.length
  simp only [mask, Bytes.length_xor]
  omega

@[simp]
theorem mask_mask (s : Schedule) (nonce : Octets 12) (text : Bytes) :
    mask s nonce (mask s nonce text) = text := by
  have h := length_keystream s nonce text.length
  rw [mask, length_mask, mask]
  exact Bytes.xor_xor_cancel h

@[simp]
theorem length_encrypt (key : Octets 32) (nonce : Octets 12) (ad text : Bytes) :
    (encrypt key nonce ad text).length = text.length + 16 :=
  MaskAndTag.length_encrypt text (length_mask _ _) (length_tag _ _ _)

theorem decrypt_eq_some_iff {key : Octets 32} {nonce : Octets 12} {ad sealedText text : Bytes} :
    decrypt key nonce ad sealedText = some text ↔ sealedText = encrypt key nonce ad text :=
  MaskAndTag.decrypt_eq_some_iff (mask_mask _ _) (length_tag _ _ _)

end SealedEnvelope.Gcm
