import SealedEnvelope.Bytes

/-!
The ChaCha20 block function (RFC 8439) and HChaCha20, which derives a subkey
from a key and sixteen bytes of nonce.
-/

namespace SealedEnvelope.ChaCha20

/-- Four words: a row of the state, or the lanes of a quarter round side by side. -/
structure Row where
  w0 : UInt32
  w1 : UInt32
  w2 : UInt32
  w3 : UInt32

def Row.map2 (f : UInt32 → UInt32 → UInt32) (x y : Row) : Row :=
  ⟨f x.w0 y.w0, f x.w1 y.w1, f x.w2 y.w2, f x.w3 y.w3⟩

def rotl (n x : UInt32) : UInt32 := (x <<< n) ||| (x >>> (32 - n))

/-- Exclusive or followed by a rotation to the left, lane by lane. -/
def Row.xorRotate (n : UInt32) (x y : Row) : Row := .map2 (fun a b => rotl n (a ^^^ b)) x y

def Row.add (x y : Row) : Row := .map2 (· + ·) x y

/-- The lanes moved one place to the left. -/
def Row.turn (x : Row) : Row := ⟨x.w1, x.w2, x.w3, x.w0⟩

def Row.words (x : Row) : List UInt32 := [x.w0, x.w1, x.w2, x.w3]

/-- The state as four rows. -/
structure State where
  a : Row
  b : Row
  c : Row
  d : Row

/-- A quarter round in each of the four columns. -/
def State.quarters (s : State) : State :=
  let a := s.a.add s.b
  let d := s.d.xorRotate 16 a
  let c := s.c.add d
  let b := s.b.xorRotate 12 c
  let a := a.add b
  let d := d.xorRotate 8 a
  let c := c.add d
  let b := b.xorRotate 7 c
  ⟨a, b, c, d⟩

/-- A column round and a diagonal round. -/
def State.doubleRound (s : State) : State :=
  let s := s.quarters
  let s := State.quarters ⟨s.a, s.b.turn, s.c.turn.turn, s.d.turn.turn.turn⟩
  ⟨s.a, s.b.turn.turn.turn, s.c.turn.turn, s.d.turn⟩

/-- The twenty rounds. -/
def State.permute (s : State) : State := (List.range 10).foldl (fun s _ => s.doubleRound) s

def State.add (s t : State) : State := ⟨s.a.add t.a, s.b.add t.b, s.c.add t.c, s.d.add t.d⟩

def Row.ofBytes (bytes : Bytes) : Row :=
  match (Bytes.cut 4 bytes).map fun w => UInt32.ofNat (Bytes.ofLittleEndian w) with
  | [w0, w1, w2, w3] => ⟨w0, w1, w2, w3⟩
  | _ => ⟨0, 0, 0, 0⟩

def Row.toBytes (x : Row) : Bytes := x.words.flatMap fun w => Bytes.littleEndian 4 w.toNat

@[simp]
theorem Row.length_toBytes (x : Row) : x.toBytes.length = 16 := by
  simp [Row.toBytes, Row.words]

/-- The constant row, the key in two rows, and the counter and nonce in the last one. -/
def State.initial (key : Octets 32) (tail : Bytes) : State :=
  ⟨⟨0x61707865, 0x3320646e, 0x79622d32, 0x6b206574⟩,
   .ofBytes (key.toBytes.take 16), .ofBytes (key.toBytes.drop 16), .ofBytes tail⟩

/-- Sixty-four bytes of keystream. -/
def block (key : Octets 32) (counter : Nat) (nonce : Octets 12) : Bytes :=
  let start := State.initial key (Bytes.littleEndian 4 counter ++ nonce.toBytes)
  let s := start.permute.add start
  s.a.toBytes ++ s.b.toBytes ++ s.c.toBytes ++ s.d.toBytes

@[simp]
theorem length_block (key : Octets 32) (counter : Nat) (nonce : Octets 12) :
    (block key counter nonce).length = 64 := by
  simp [block]

/-- The key for the rest of an extended nonce that starts with these sixteen bytes. -/
def subkey (key : Octets 32) (nonce : Octets 16) : Octets 32 :=
  let s := (State.initial key nonce.toBytes).permute
  ⟨s.a.toBytes ++ s.d.toBytes, by simp⟩

end SealedEnvelope.ChaCha20
