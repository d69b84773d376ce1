import SealedEnvelope.Cbor.Head

/-!
Writing CBOR items: shortest heads and lengths in front. Byte strings are written
as arrays of integers.
-/

namespace SealedEnvelope.Cbor

def encodeUnsigned (n : Nat) : Bytes := encodeHead 0 n

/-- A text whose UTF-8 form is given. -/
def encodeText (text : Bytes) : Bytes := encodeHead 3 text.length ++ text

/-- An array of items that are already encoded. -/
def encodeArray (items : List Bytes) : Bytes := encodeHead 4 items.length ++ items.flatten

/-- A map from names to items that are already encoded. -/
def encodeMap (entries : List (Bytes × Bytes)) : Bytes :=
  encodeHead 5 entries.length ++ entries.flatMap fun (key, value) => encodeText key ++ value

/-- Bytes as an array of integers. -/
def encodeByteList (bytes : Bytes) : Bytes :=
  encodeHead 4 bytes.length ++ bytes.flatMap fun byte => encodeUnsigned byte.toNat

def encodeNull : Bytes := [0xf6]

/-- The bytes of a field or variant name. -/
def nameBytes (name : String) : Bytes := name.toUTF8.toList

end SealedEnvelope.Cbor
