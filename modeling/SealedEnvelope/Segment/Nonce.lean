import SealedEnvelope.Bytes

/-!
Nonces of a segmented text. Segment number and final flag are added into bytes 3
to 11 of the base nonce, so the first three bytes tell other uses of it apart.
-/

namespace SealedEnvelope

/-- The mask of a segment: three zero bytes, the number, and one for the last segment. -/
def segmentMask (index : UInt64) (final : Bool) : Bytes :=
  [0, 0, 0] ++ Bytes.bigEndian 8 index.toNat ++ [if final then 1 else 0]

@[simp]
theorem length_segmentMask (index : UInt64) (final : Bool) :
    (segmentMask index final).length = 12 := by
  simp [segmentMask]

/-- The base nonce under the mask of a segment. -/
def segmentNonce (base : Octets 12) (index : UInt64) (final : Bool) : Octets 12 :=
  ⟨Bytes.xor base.toBytes (segmentMask index final), by simp⟩

end SealedEnvelope
