import SealedEnvelope.Hash.Sha512

/-!
HMAC and HKDF (RFC 2104, RFC 5869) over SHA-512.
-/

namespace SealedEnvelope

/-- HMAC-SHA512: keys longer than a hash block are hashed first. -/
def Hmac.sha512 (key message : Bytes) : Octets 64 :=
  let short := if key.length ≤ 128 then key else (Sha512.digest key).toBytes
  let block := Bytes.padTo 128 short
  let block := if block = [] then List.replicate 128 0 else block
  let inner := Sha512.digest (block.map (· ^^^ 0x36) ++ message)
  Sha512.digest (block.map (· ^^^ 0x5c) ++ inner.toBytes)

namespace Hkdf

/-- The pseudorandom key of a salt and keying material. -/
def extract (salt secret : Bytes) : Octets 64 := Hmac.sha512 salt secret

/-- The first `blocks` output blocks, counting on from `counter` behind the block `previous`. -/
def expandFrom (key info previous : Bytes) (counter : Nat) : (blocks : Nat) → Bytes
  | 0 => []
  | blocks + 1 =>
      let block := (Hmac.sha512 key (previous ++ info ++ [UInt8.ofNat counter])).toBytes
      block ++ expandFrom key info block (counter + 1) blocks

/-- The first `length` bytes that a pseudorandom key yields for `info`. -/
def expand (key info : Bytes) (length : Nat) : Bytes :=
  (expandFrom key info [] 1 ((length + 63) / 64)).take length

end Hkdf

end SealedEnvelope
