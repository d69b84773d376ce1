import SealedEnvelope.Proofs.Bytes
import SealedEnvelope.Segment.Nonce

/-!
Nonces of one text: number and final flag can be read back from them, so no two
segments share one.
-/

namespace SealedEnvelope

theorem segmentMask_inj {i j : UInt64} {final final' : Bool}
    (h : segmentMask i final = segmentMask j final') : i = j ∧ final = final' := by
  have hsplit := List.append_inj h (by simp)
  have hindex : Bytes.bigEndian 8 i.toNat = Bytes.bigEndian 8 j.toNat :=
    List.append_cancel_left hsplit.1
  have hnumber : i.toNat = j.toNat := Bytes.bigEndian_inj i.toNat_lt j.toNat_lt hindex
  refine ⟨UInt64.toNat_inj.mp hnumber, ?_⟩
  cases final <;> cases final' <;> first | rfl | exact absurd hsplit.2 (by decide)

theorem segmentNonce_inj {base : Octets 12} {i j : UInt64} {final final' : Bool}
    (h : segmentNonce base i final = segmentNonce base j final') : i = j ∧ final = final' := by
  apply segmentMask_inj
  apply Bytes.xor_left_cancel (x := base.toBytes)
  · simp
  · simp
  · exact congrArg Octets.toBytes h

end SealedEnvelope
