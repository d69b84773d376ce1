import SealedEnvelope.Cipher.ChaCha20
import SealedEnvelope.Cipher.MaskAndTag
import SealedEnvelope.Cipher.Poly1305

/-!
XChaCha20-Poly1305: ChaCha20-Poly1305 (RFC 8439) under a subkey that absorbs the
first sixteen bytes of a 24-byte nonce. Decryption accepts exactly what encryption
produces: `decrypt_eq_some_iff`.
-/

namespace SealedEnvelope.XChaCha20Poly1305

/-- The subkey and the twelve-byte nonce that a 24-byte nonce stands for. -/
def derive (key : Octets 32) (nonce : Octets 24) : Octets 32 × Octets 12 :=
  (ChaCha20.subkey key (.ofPadded 16 (nonce.toBytes.take 16)),
   .ofPadded 12 (List.replicate 4 0 ++ nonce.toBytes.drop 16))

/-- Enough blocks, from counter value 1 on, to cover `length` bytes. -/
def keystream (key : Octets 32) (nonce : Octets 12) (length : Nat) : Bytes :=
  (List.range ((length + 63) / 64)).flatMap fun i => ChaCha20.block key (i + 1) nonce

/-- The text under the mask of the keystream. -/
def mask (key : Octets 32) (nonce : Octets 12) (text : Bytes) : Bytes :=
  Bytes.xor text (keystream key nonce text.length)

/-- The tag of associated data and ciphertext, each filled up to whole blocks, and their lengths. -/
def tag (key : Octets 32) (nonce : Octets 12) (ad text : Bytes) : Bytes :=
  Poly1305.tag (.ofPadded 32 (ChaCha20.block key 0 nonce))
    (Bytes.padTo 16 ad ++ Bytes.padTo 16 text ++
      Bytes.littleEndian 8 ad.length ++ Bytes.littleEndian 8 text.length)

/-- The ciphertext followed by its tag. -/
def encrypt (key : Octets 32) (nonce : Octets 24) (ad text : Bytes) : Bytes :=
  let (subkey, rest) := derive key nonce
  MaskAndTag.encrypt (mask subkey rest) (tag subkey rest ad) text

/-- The text, if the last sixteen bytes are the tag of what stands before them. -/
def decrypt (key : Octets 32) (nonce : Octets 24) (ad sealedText : Bytes) : Option Bytes :=
  let (subkey, rest) := derive key nonce
  MaskAndTag.decrypt (mask subkey rest) (tag subkey rest ad) sealedText

@[simp]
theorem length_tag (key : Octets 32) (nonce : Octets 12) (ad text : Bytes) :
    (tag key nonce ad text).length = MaskAndTag.tagLength := by
  simp [tag, MaskAndTag.tagLength]

theorem length_keystream (key : Octets 32) (nonce : Octets 12) (length : Nat) :
    length ≤ (keystream key nonce length).length := by
  have h : (keystream key nonce length).length = (length + 63) / 64 * 64 := by
    simp [keystream, List.length_flatMap, List.map_const', List.sum_replicate_nat]
  omega

@[simp]
theorem length_mask (key : Octets 32) (nonce : Octets 12) (text : Bytes) :
    (mask key nonce text).length = text.length := by
  have h := length_keystream key nonce text.length
  simp only [mask, Bytes.length_xor]
  omega

@[simp]
theorem mask_mask (key : Octets 32) (nonce : Octets 12) (text : Bytes) :
    mask key nonce (mask key nonce text) = text := by
  have h := length_keystream key nonce text.length
  rw [mask, length_mask, mask]
  exact Bytes.xor_xor_cancel h

@[simp]
theorem length_encrypt (key : Octets 32) (nonce : Octets 24) (ad text : Bytes) :
    (encrypt key nonce ad text).length = text.length + 16 :=
  MaskAndTag.length_encrypt text (length_mask _ _) (length_tag _ _ _)

theorem decrypt_eq_some_iff {key : Octets 32} {nonce : Octets 24} {ad sealedText text : Bytes} :
    decrypt key nonce ad sealedText = some text ↔ sealedText = encrypt key nonce ad text :=
  MaskAndTag.decrypt_eq_some_iff (mask_mask _ _) (length_tag _ _ _)

end SealedEnvelope.XChaCha20Poly1305
