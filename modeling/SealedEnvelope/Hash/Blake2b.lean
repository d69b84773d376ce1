import SealedEnvelope.Bytes

/-!
BLAKE2b (RFC 7693) without a key, for any output length from 1 to 64 bytes.
-/

namespace SealedEnvelope.Blake2b

def initial : Array UInt64 :=
  #[0x6a09e667f3bcc908, 0xbb67ae8584caa73b, 0x3c6ef372fe94f82b, 0xa54ff53a5f1d36f1,
    0x510e527fade682d1, 0x9b05688c2b3e6c1f, 0x1f83d9abfb41bd6b, 0x5be0cd19137e2179]

/-- The order in which each round takes the sixteen message words. -/
def permutations : List (List Nat) :=
  [[0, 1, 2, 3, 4, 5, 6, 7, 8, 9, 10, 11, 12, 13, 14, 15],
   [14, 10, 4, 8, 9, 15, 13, 6, 1, 12, 0, 2, 11, 7, 5, 3],
   [11, 8, 12, 0, 5, 2, 15, 13, 10, 14, 3, 6, 7, 1, 9, 4],
   [7, 9, 3, 1, 13, 12, 11, 14, 2, 6, 5, 10, 4, 0, 15, 8],
   [9, 0, 5, 7, 2, 4, 10, 15, 14, 1, 11, 12, 6, 8, 3, 13],
   [2, 12, 6, 10, 0, 11, 8, 3, 4, 13, 7, 5, 15, 14, 1, 9],
   [12, 5, 1, 15, 14, 13, 4, 10, 0, 7, 6, 3, 9, 2, 8, 11],
   [13, 11, 7, 14, 12, 1, 3, 9, 5, 0, 15, 4, 8, 6, 2, 10],
   [6, 15, 14, 9, 11, 3, 0, 8, 12, 2, 13, 7, 1, 4, 10, 5],
   [10, 2, 8, 4, 7, 6, 1, 5, 15, 11, 9, 14, 3, 12, 13, 0],
   [0, 1, 2, 3, 4, 5, 6, 7, 8, 9, 10, 11, 12, 13, 14, 15],
   [14, 10, 4, 8, 9, 15, 13, 6, 1, 12, 0, 2, 11, 7, 5, 3]]

/-- The four places each of the eight mixing steps of a round works on: columns, then diagonals. -/
def lanes : List (Nat × Nat × Nat × Nat) :=
  [(0, 4, 8, 12), (1, 5, 9, 13), (2, 6, 10, 14), (3, 7, 11, 15),
   (0, 5, 10, 15), (1, 6, 11, 12), (2, 7, 8, 13), (3, 4, 9, 14)]

def rotr (x n : UInt64) : UInt64 := (x >>> n) ||| (x <<< (64 - n))

/-- One mixing step on the places of `lane` with the message words `x` and `y`. -/
def mix (v : Array UInt64) (lane : Nat × Nat × Nat × Nat) (x y : UInt64) : Array UInt64 :=
  let (ia, ib, ic, id) := lane
  let a := v.getD ia 0 + v.getD ib 0 + x
  let d := rotr (v.getD id 0 ^^^ a) 32
  let c := v.getD ic 0 + d
  let b := rotr (v.getD ib 0 ^^^ c) 24
  let a := a + b + y
  let d := rotr (d ^^^ a) 16
  let c := c + d
  let b := rotr (b ^^^ c) 63
  (((v.setIfInBounds ia a).setIfInBounds ib b).setIfInBounds ic c).setIfInBounds id d

def round (m v : Array UInt64) (order : List Nat) : Array UInt64 :=
  (lanes.zip (Bytes.cutPairs order)).foldl
    (fun v (lane, i, j) => mix v lane (m.getD i 0) (m.getD j 0)) v

/-- Absorbs one block of 128 bytes, `count` bytes having been seen up to its end. -/
def absorb (h : Array UInt64) (block : Bytes) (count : Nat) (last : Bool) : Array UInt64 :=
  let m := ((Bytes.cut 8 block).map fun w => UInt64.ofNat (Bytes.ofLittleEndian w)).toArray
  let v := h ++ initial
  let v := v.setIfInBounds 12 (v.getD 12 0 ^^^ UInt64.ofNat count)
  let v := v.setIfInBounds 13 (v.getD 13 0 ^^^ UInt64.ofNat (count / UInt64.size))
  let v := if last then v.setIfInBounds 14 (~~~ v.getD 14 0) else v
  let v := permutations.foldl (round m) v
  ((List.range 8).map fun i => h.getD i 0 ^^^ v.getD i 0 ^^^ v.getD (i + 8) 0).toArray

/-- Absorbs the blocks of a message in order, the last one filled up with zeros. -/
def absorbAll (h : Array UInt64) (seen : Nat) : List Bytes → Array UInt64
  | [] => h
  | [block] => absorb h (Bytes.padTo 128 block) (seen + block.length) true
  | block :: rest => absorbAll (absorb h block (seen + 128) false) (seen + 128) rest

/-- The first `size` bytes of the hash with output length `size`, at most 64. -/
def digest (size : Nat) (message : Bytes) : Bytes :=
  let h := initial.setIfInBounds 0 (initial.getD 0 0 ^^^ 0x01010000 ^^^ UInt64.ofNat size)
  let blocks := if message = [] then [List.replicate 128 0] else Bytes.cut 128 message
  let final := if message = [] then absorb h (List.replicate 128 0) 0 true else absorbAll h 0 blocks
  (final.toList.flatMap fun w => Bytes.littleEndian 8 w.toNat).take size

end SealedEnvelope.Blake2b
