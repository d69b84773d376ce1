import SealedEnvelope.Bytes

/-!
AES with a 256-bit key (FIPS 197), encryption direction only. The state is four
32-bit columns, the first byte of a column in its high-order bits.
-/

namespace SealedEnvelope.Aes256

/-- The substitution of SubBytes. -/
def substitution : Array UInt8 :=
  #[0x63, 0x7c, 0x77, 0x7b, 0xf2, 0x6b, 0x6f, 0xc5, 0x30, 0x01, 0x67, 0x2b, 0xfe, 0xd7, 0xab, 0x76,
    0xca, 0x82, 0xc9, 0x7d, 0xfa, 0x59, 0x47, 0xf0, 0xad, 0xd4, 0xa2, 0xaf, 0x9c, 0xa4, 0x72, 0xc0,
    0xb7, 0xfd, 0x93, 0x26, 0x36, 0x3f, 0xf7, 0xcc, 0x34, 0xa5, 0xe5, 0xf1, 0x71, 0xd8, 0x31, 0x15,
    0x04, 0xc7, 0x23, 0xc3, 0x18, 0x96, 0x05, 0x9a, 0x07, 0x12, 0x80, 0xe2, 0xeb, 0x27, 0xb2, 0x75,
    0x09, 0x83, 0x2c, 0x1a, 0x1b, 0x6e, 0x5a, 0xa0, 0x52, 0x3b, 0xd6, 0xb3, 0x29, 0xe3, 0x2f, 0x84,
    0x53, 0xd1, 0x00, 0xed, 0x20, 0xfc, 0xb1, 0x5b, 0x6a, 0xcb, 0xbe, 0x39, 0x4a, 0x4c, 0x58, 0xcf,
    0xd0, 0xef, 0xaa, 0xfb, 0x43, 0x4d, 0x33, 0x85, 0x45, 0xf9, 0x02, 0x7f, 0x50, 0x3c, 0x9f, 0xa8,
    0x51, 0xa3, 0x40, 0x8f, 0x92, 0x9d, 0x38, 0xf5, 0xbc, 0xb6, 0xda, 0x21, 0x10, 0xff, 0xf3, 0xd2,
    0xcd, 0x0c, 0x13, 0xec, 0x5f, 0x97, 0x44, 0x17, 0xc4, 0xa7, 0x7e, 0x3d, 0x64, 0x5d, 0x19, 0x73,
    0x60, 0x81, 0x4f, 0xdc, 0x22, 0x2a, 0x90, 0x88, 0x46, 0xee, 0xb8, 0x14, 0xde, 0x5e, 0x0b, 0xdb,
    0xe0, 0x32, 0x3a, 0x0a, 0x49, 0x06, 0x24, 0x5c, 0xc2, 0xd3, 0xac, 0x62, 0x91, 0x95, 0xe4, 0x79,
    0xe7, 0xc8, 0x37, 0x6d, 0x8d, 0xd5, 0x4e, 0xa9, 0x6c, 0x56, 0xf4, 0xea, 0x65, 0x7a, 0xae, 0x08,
    0xba, 0x78, 0x25, 0x2e, 0x1c, 0xa6, 0xb4, 0xc6, 0xe8, 0xdd, 0x74, 0x1f, 0x4b, 0xbd, 0x8b, 0x8a,
    0x70, 0x3e, 0xb5, 0x66, 0x48, 0x03, 0xf6, 0x0e, 0x61, 0x35, 0x57, 0xb9, 0x86, 0xc1, 0x1d, 0x9e,
    0xe1, 0xf8, 0x98, 0x11, 0x69, 0xd9, 0x8e, 0x94, 0x9b, 0x1e, 0x87, 0xe9, 0xce, 0x55, 0x28, 0xdf,
    0x8c, 0xa1, 0x89, 0x0d, 0xbf, 0xe6, 0x42, 0x68, 0x41, 0x99, 0x2d, 0x0f, 0xb0, 0x54, 0xbb, 0x16]

def substitute (x : UInt8) : UInt8 := substitution.getD x.toNat 0

def column (b0 b1 b2 b3 : UInt8) : UInt32 :=
  (b0.toUInt32 <<< 24) ||| (b1.toUInt32 <<< 16) ||| (b2.toUInt32 <<< 8) ||| b3.toUInt32

def byte0 (w : UInt32) : UInt8 := (w >>> 24).toUInt8
def byte1 (w : UInt32) : UInt8 := (w >>> 16).toUInt8
def byte2 (w : UInt32) : UInt8 := (w >>> 8).toUInt8
def byte3 (w : UInt32) : UInt8 := w.toUInt8

def substituteColumn (w : UInt32) : UInt32 :=
  column (substitute (byte0 w)) (substitute (byte1 w)) (substitute (byte2 w)) (substitute (byte3 w))

/-- Doubling in the field of 256 elements, in all four bytes of a column. -/
def double (w : UInt32) : UInt32 :=
  ((w &&& 0x7f7f7f7f) <<< 1) ^^^ (((w >>> 7) &&& 0x01010101) * 0x1b)

def rotl (w n : UInt32) : UInt32 := (w <<< n) ||| (w >>> (32 - n))

/-- MixColumns on one column: coefficients 2, 3, 1, 1. -/
def mixColumn (w : UInt32) : UInt32 :=
  double (w ^^^ rotl w 8) ^^^ rotl w 8 ^^^ rotl w 16 ^^^ rotl w 24

/-- The state, and also a round key. -/
structure Block where
  c0 : UInt32
  c1 : UInt32
  c2 : UInt32
  c3 : UInt32

def Block.ofBytes (bytes : Bytes) : Block :=
  match (Bytes.cut 4 bytes).map fun c => UInt32.ofNat (Bytes.ofBigEndian c) with
  | [c0, c1, c2, c3] => ⟨c0, c1, c2, c3⟩
  | _ => ⟨0, 0, 0, 0⟩

def Block.toBytes (b : Block) : Bytes :=
  [b.c0, b.c1, b.c2, b.c3].flatMap fun c => [byte0 c, byte1 c, byte2 c, byte3 c]

@[simp]
theorem Block.length_toBytes (b : Block) : b.toBytes.length = 16 := by
  simp [Block.toBytes]

def Block.add (x y : Block) : Block :=
  ⟨x.c0 ^^^ y.c0, x.c1 ^^^ y.c1, x.c2 ^^^ y.c2, x.c3 ^^^ y.c3⟩

/-- SubBytes and ShiftRows together. -/
def Block.scatter (b : Block) : Block :=
  let pick (p q r s : UInt32) := column (substitute (byte0 p)) (substitute (byte1 q))
    (substitute (byte2 r)) (substitute (byte3 s))
  ⟨pick b.c0 b.c1 b.c2 b.c3, pick b.c1 b.c2 b.c3 b.c0,
   pick b.c2 b.c3 b.c0 b.c1, pick b.c3 b.c0 b.c1 b.c2⟩

def Block.mix (b : Block) : Block :=
  ⟨mixColumn b.c0, mixColumn b.c1, mixColumn b.c2, mixColumn b.c3⟩

/-- The round keys of the initial addition, of the inner rounds and of the last round. -/
structure Schedule where
  first : Block
  inner : List Block
  last : Block

/-- The next two round keys after `x` and `y`, with the round constant `constant`. -/
def nextKeys (x y : Block) (constant : UInt32) : Block × Block :=
  let c0 := x.c0 ^^^ substituteColumn (rotl y.c3 8) ^^^ (constant <<< 24)
  let c1 := x.c1 ^^^ c0
  let c2 := x.c2 ^^^ c1
  let c3 := x.c3 ^^^ c2
  let d0 := y.c0 ^^^ substituteColumn c3
  let d1 := y.c1 ^^^ d0
  let d2 := y.c2 ^^^ d1
  (⟨c0, c1, c2, c3⟩, ⟨d0, d1, d2, y.c3 ^^^ d2⟩)

/-- The round keys from `x` and `y` on, two for each round constant but the last. -/
def expand (x y : Block) : List UInt32 → List Block × Block
  | [] => ([], x)
  | [constant] => ([x, y], (nextKeys x y constant).1)
  | constant :: rest =>
      let (u, v) := nextKeys x y constant
      let (inner, last) := expand u v rest
      (x :: y :: inner, last)

def schedule (key : Octets 32) : Schedule :=
  let (keys, last) := expand (.ofBytes (key.toBytes.take 16)) (.ofBytes (key.toBytes.drop 16))
    [1, 2, 4, 8, 16, 32, 64]
  ⟨keys.headD ⟨0, 0, 0, 0⟩, keys.tail, last⟩

def Schedule.encrypt (s : Schedule) (block : Block) : Block :=
  (s.inner.foldl (fun b key => b.scatter.mix.add key) (block.add s.first)).scatter.add s.last

end SealedEnvelope.Aes256
