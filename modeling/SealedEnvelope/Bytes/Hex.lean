import SealedEnvelope.Bytes

/-!
Lower-case hexadecimal text of bytes, and small hexadecimal numbers.
-/

namespace SealedEnvelope.Hex

def digit (n : Nat) : Char := Nat.digitChar (n % 16)

/-- The two digits of a byte. -/
def ofByte (byte : UInt8) : List Char := [digit (byte.toNat / 16), digit byte.toNat]

def encode (bytes : Bytes) : String := String.ofList (bytes.flatMap ofByte)

/-- A byte with its base marked: 0x7f. -/
def marked (byte : UInt8) : String := "0x" ++ encode [byte]

end SealedEnvelope.Hex
