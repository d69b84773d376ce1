import SealedEnvelope.Bytes

/-!
Authenticated encryption by masking the text and appending a tag of the masked
text. Where the mask undoes itself and tags have a fixed length, decryption
accepts exactly what encryption produces: `decrypt_eq_some_iff`.
-/

namespace SealedEnvelope.MaskAndTag

/-- Tags are sixteen bytes long. -/
def tagLength : Nat := 16

/-- The masked text followed by its tag. -/
def encrypt (mask tag : Bytes → Bytes) (text : Bytes) : Bytes :=
  let masked := mask text
  masked ++ tag masked

/-- The text, if the last bytes are the tag of what stands before them. -/
def decrypt (mask tag : Bytes → Bytes) (sealedText : Bytes) : Option Bytes :=
  let length := sealedText.length
  if length < tagLength then none
  else
    let masked := sealedText.take (length - tagLength)
    if sealedText.drop (length - tagLength) = tag masked then some (mask masked) else none

theorem length_encrypt {mask tag : Bytes → Bytes} (text : Bytes)
    (hmask : ∀ t, (mask t).length = t.length) (htag : ∀ t, (tag t).length = tagLength) :
    (encrypt mask tag text).length = text.length + tagLength := by
  simp [encrypt, hmask, htag]

theorem decrypt_eq_some_iff {mask tag : Bytes → Bytes} {sealedText text : Bytes}
    (hmask : ∀ t, mask (mask t) = t) (htag : ∀ t, (tag t).length = tagLength) :
    decrypt mask tag sealedText = some text ↔ sealedText = encrypt mask tag text := by
  constructor
  · intro h
    simp only [decrypt] at h
    split at h
    · cases h
    · split at h
      case isTrue heq =>
        cases h
        rw [encrypt, hmask, ← heq, List.take_append_drop]
      case isFalse => cases h
  · rintro rfl
    have hlen : (mask text ++ tag (mask text)).length - tagLength = (mask text).length := by
      simp [htag]
    simp only [decrypt, encrypt, hlen, List.take_left, List.drop_left, hmask, if_true]
    rw [if_neg (by simp [htag])]

end SealedEnvelope.MaskAndTag
