import SealedEnvelope.Bytes

/-!
Well-formed UTF-8 (RFC 3629): no overlong forms, no surrogates, nothing above
U+10FFFF.
-/

namespace SealedEnvelope.Utf8

def isContinuation (byte : UInt8) : Bool := 0x80 ≤ byte && byte ≤ 0xbf

/-- Whether a second byte may follow the first of a three-byte form. -/
def fitsThree (first second : UInt8) : Bool :=
  isContinuation second && (first != 0xe0 || 0xa0 ≤ second) && (first != 0xed || second ≤ 0x9f)

/-- Whether a second byte may follow the first of a four-byte form. -/
def fitsFour (first second : UInt8) : Bool :=
  isContinuation second && (first != 0xf0 || 0x90 ≤ second) && (first != 0xf4 || second ≤ 0x8f)

def isValid : Bytes → Bool
  | [] => true
  | a :: rest =>
      if a < 0x80 then isValid rest
      else if 0xc2 ≤ a && a ≤ 0xdf then
        match rest with
        | b :: rest => isContinuation b && isValid rest
        | _ => false
      else if 0xe0 ≤ a && a ≤ 0xef then
        match rest with
        | b :: c :: rest => fitsThree a b && isContinuation c && isValid rest
        | _ => false
      else if 0xf0 ≤ a && a ≤ 0xf4 then
        match rest with
        | b :: c :: d :: rest =>
            fitsFour a b && isContinuation c && isContinuation d && isValid rest
        | _ => false
      else false

end SealedEnvelope.Utf8
