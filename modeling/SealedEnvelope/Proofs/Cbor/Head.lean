import SealedEnvelope.Proofs.Bytes
import SealedEnvelope.Cbor.Head

/-!
Heads of CBOR items are read back as they were written, whatever follows them.
-/

namespace SealedEnvelope.Cbor

theorem splitExactly_append {n : Nat} {front : Bytes} (h : front.length = n) (rest : Bytes) :
    splitExactly n (front ++ rest) = some (front, rest) := by
  rw [splitExactly, List.take_left' h, List.drop_left' h, if_pos h]

theorem length_encodeHead_pos (major n : Nat) : 0 < (encodeHead major n).length := by
  rw [encodeHead]
  split_ifs <;> simp

/-- A number of one of the four widths is read from the digits behind the first byte. -/
theorem readNumber_digits {info n : Nat} (hinfo : 24 ≤ info) (hinfo' : info < 28)
    (hn : n < 256 ^ numberWidth info) (rest : Bytes) :
    readNumber info (Bytes.bigEndian (numberWidth info) n ++ rest) = some (some n, rest) := by
  rw [readNumber, if_neg (by omega), if_pos hinfo', splitExactly_append (by simp)]
  exact congrArg (fun m => some (some m, rest)) (Bytes.ofBigEndian_bigEndian hn)

/-- The first byte holds the major type and the information, if it follows them with what
`readNumber` takes. -/
theorem readHead_cons {major info : Nat} (hmajor : major < 7) (hinfo : info < 32)
    {number : Option Nat} {input rest : Bytes} (h : readNumber info input = some (number, rest)) :
    readHead (UInt8.ofNat (32 * major + info) :: input) =
      (assembleHead major info number).map (·, rest) := by
  have hbyte : (UInt8.ofNat (32 * major + info)).toNat = 32 * major + info := by
    rw [UInt8.toNat_ofNat']
    omega
  have hlow : (32 * major + info) % 32 = info := by omega
  have hhigh : (32 * major + info) / 32 = major := by omega
  simp only [readHead, hbyte, hlow, hhigh, h, Option.bind_eq_bind, Option.bind_some]
  cases assembleHead major info number with
  | none => rfl
  | some head => rfl

/-- Only simple values and floats need the information beside the number. -/
theorem assembleHead_info {major : Nat} (hmajor : major < 7) (info : Nat) (number : Option Nat) :
    assembleHead major info number = assembleHead major 0 number := by
  interval_cases major <;> rfl

theorem readHead_encodeHead {major n : Nat} (hmajor : major < 7) (hn : n < UInt64.size)
    (rest : Bytes) :
    readHead (encodeHead major n ++ rest) = (assembleHead major 0 (some n)).map (·, rest) := by
  have hdigits (info : Nat) (hinfo : 24 ≤ info) (hinfo' : info < 28)
      (hfits : n < 256 ^ numberWidth info) :
      readHead (UInt8.ofNat (32 * major + info) ::
        (Bytes.bigEndian (numberWidth info) n ++ rest)) =
      (assembleHead major 0 (some n)).map (·, rest) := by
    rw [readHead_cons hmajor (by omega) (readNumber_digits hinfo hinfo' hfits rest),
      assembleHead_info hmajor]
  rw [encodeHead]
  split_ifs with h24 h8 h16 h32
  · have hsmall : readNumber n rest = some (some n, rest) := by rw [readNumber, if_pos h24]
    rw [List.singleton_append, readHead_cons hmajor (by omega) hsmall, assembleHead_info hmajor]
  · exact hdigits 24 (by decide) (by decide) h8
  · exact hdigits 25 (by decide) (by decide) h16
  · exact hdigits 26 (by decide) (by decide) h32
  · exact hdigits 27 (by decide) (by decide) hn

end SealedEnvelope.Cbor
