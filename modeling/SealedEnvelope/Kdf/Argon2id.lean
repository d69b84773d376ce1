import SealedEnvelope.Hash.Blake2b

/-!
Argon2id, version 0x13 (RFC 9106), with 32 bytes of output and neither a secret
nor associated data. Memory is an array of blocks of 128 words; pass by pass and
slice by slice, every lane fills its own segment.
-/

namespace SealedEnvelope.Argon2id

/-- The costs of a derivation: memory in KiB, passes over it, and lanes. -/
structure Costs where
  memoryKib : UInt32
  iterations : UInt32
  parallelism : UInt32
deriving DecidableEq, Repr

/-- What can be wrong with the costs or the salt. -/
inductive Fault where
  | memoryTooSmall
  | timeTooSmall
  | tooFewThreads
  | tooManyThreads
  | saltTooShort
deriving DecidableEq, Repr

def Fault.message : Fault → String
  | .memoryTooSmall => "memory cost is too small"
  | .timeTooSmall => "time cost is too small"
  | .tooFewThreads => "not enough threads"
  | .tooManyThreads => "too many threads"
  | .saltTooShort => "salt is too short"

/-- The first cost that is out of range: each lane needs eight blocks. -/
def Costs.fault? (c : Costs) : Option Fault :=
  if c.memoryKib < 8 then some .memoryTooSmall
  else if c.memoryKib.toNat < 8 * c.parallelism.toNat then some .memoryTooSmall
  else if c.iterations < 1 then some .timeTooSmall
  else if c.parallelism < 1 then some .tooFewThreads
  else if c.parallelism > 0xffffff then some .tooManyThreads
  else none

abbrev Block := Array UInt64

def outputLength : Nat := 32

def le32 (n : Nat) : Bytes := Bytes.littleEndian 4 n

/-- The hash with output of any length: chained 64-byte hashes of which each gives 32 bytes. -/
def longHashFrom (v : Bytes) : (halves : Nat) → (last : Nat) → Bytes
  | 0, last => Blake2b.digest last v
  | halves + 1, last =>
      let next := Blake2b.digest 64 v
      next.take 32 ++ longHashFrom next halves last

def longHash (length : Nat) (message : Bytes) : Bytes :=
  let input := le32 length ++ message
  if length ≤ 64 then Blake2b.digest length input
  else
    let halves := (length + 31) / 32 - 2
    longHashFrom input halves (length - 32 * halves)

/-- The hash of all parameters and inputs, from which the first blocks of every lane follow. -/
def seed (c : Costs) (password salt : Bytes) : Bytes :=
  Blake2b.digest 64
    (le32 c.parallelism.toNat ++ le32 outputLength ++ le32 c.memoryKib.toNat ++
      le32 c.iterations.toNat ++ le32 0x13 ++ le32 2 ++
      le32 password.length ++ password ++ le32 salt.length ++ salt ++ le32 0 ++ le32 0)

def Block.ofBytes (bytes : Bytes) : Block :=
  ((Bytes.cut 8 bytes).map fun w => UInt64.ofNat (Bytes.ofLittleEndian w)).toArray

def Block.toBytes (b : Block) : Bytes := b.toList.flatMap fun w => Bytes.littleEndian 8 w.toNat

def Block.add (x y : Block) : Block := Array.zipWith (· ^^^ ·) x y

def low32 (x : UInt64) : UInt64 := x &&& 0xffffffff

/-- Addition with twice the product of the low halves. -/
def blend (x y : UInt64) : UInt64 := x + y + 2 * low32 x * low32 y

/-- One mixing step on four words of a block. -/
def mix (v : Block) (ia ib ic id : Nat) : Block :=
  let a := blend (v.getD ia 0) (v.getD ib 0)
  let d := Blake2b.rotr (v.getD id 0 ^^^ a) 32
  let c := blend (v.getD ic 0) d
  let b := Blake2b.rotr (v.getD ib 0 ^^^ c) 24
  let a := blend a b
  let d := Blake2b.rotr (d ^^^ a) 16
  let c := blend c d
  let b := Blake2b.rotr (b ^^^ c) 63
  (((v.setIfInBounds ia a).setIfInBounds ib b).setIfInBounds ic c).setIfInBounds id d

/-- Mixes sixteen words, which stand in pairs at `start`, `start + stride`, `start + 2 * stride`… -/
def mixSixteen (v : Block) (start stride : Nat) : Block :=
  let place (k : Nat) : Nat := start + k / 2 * stride + k % 2
  Blake2b.lanes.foldl (fun v (a, b, c, d) => mix v (place a) (place b) (place c) (place d)) v

/-- Compresses two blocks: rows of sixteen words, then columns of eight pairs. -/
def compress (x y : Block) : Block :=
  let r := x.add y
  let rows := (List.range 8).foldl (fun v i => mixSixteen v (16 * i) 2) r
  let columns := (List.range 8).foldl (fun v i => mixSixteen v (2 * i) 16) rows
  columns.add r

def zeroBlock : Block := Array.replicate 128 0

/-- The dimensions of the memory in blocks. -/
structure Layout where
  lanes : Nat
  segmentLength : Nat

def Costs.layout (c : Costs) : Layout :=
  ⟨c.parallelism.toNat, c.memoryKib.toNat / (4 * c.parallelism.toNat)⟩

def Layout.laneLength (l : Layout) : Nat := 4 * l.segmentLength

/-- A place in the order of filling; a pass has four slices. -/
structure Place where
  pass : Nat
  slice : Nat
  lane : Nat
  index : Nat

/-- Whether references are drawn from a counter and not from the block before: in the first half
of the first pass. -/
def Place.isIndependent (p : Place) : Bool := p.pass == 0 && p.slice < 2

/-- The block of 128 reference words for the `n`-th run of 128 places of a segment. -/
def addressBlock (l : Layout) (iterations : Nat) (p : Place) (n : Nat) : Block :=
  let input : Block := #[UInt64.ofNat p.pass, UInt64.ofNat p.lane, UInt64.ofNat p.slice,
    UInt64.ofNat (l.lanes * l.laneLength), UInt64.ofNat iterations, 2, UInt64.ofNat n] ++
    Array.replicate 121 0
  compress zeroBlock (compress zeroBlock input)

/-- The number of blocks of the referenced lane that may be referenced: all finished segments of
the last three slices, in the same lane also the current segment, and never the block before. -/
def Layout.referenceCount (l : Layout) (p : Place) (sameLane : Bool) : Nat :=
  let finished := if p.pass = 0 then p.slice * l.segmentLength else 3 * l.segmentLength
  if sameLane then finished + p.index - 1
  else if p.index = 0 then finished - 1 else finished

/-- The position in memory that the reference word `word` selects for a place. -/
def Layout.reference (l : Layout) (p : Place) (word : UInt64) : Nat :=
  let first := p.pass == 0 && p.slice == 0
  let lane := if first then p.lane else (word >>> 32).toNat % l.lanes
  let count := l.referenceCount p (lane == p.lane)
  let x := (low32 word).toNat
  let y := x * x / UInt32.size
  let relative := count - 1 - count * y / UInt32.size
  let start := if p.pass = 0 ∨ p.slice = 3 then 0 else (p.slice + 1) * l.segmentLength
  lane * l.laneLength + (start + relative) % l.laneLength

/-- The memory, and the current block of reference words of an independent segment. -/
structure Fill where
  memory : Array Block
  addresses : Block

/-- Fills one place from the block before it and the referenced one. -/
def fillPlace (l : Layout) (iterations : Nat) (f : Fill) (p : Place) : Fill :=
  let column := p.slice * l.segmentLength + p.index
  let here := p.lane * l.laneLength + column
  let before := if column = 0 then here + l.laneLength - 1 else here - 1
  let previous := f.memory.getD before zeroBlock
  let addresses :=
    if p.isIndependent && (p.index % 128 == 0 || (p.slice == 0 && p.index == 2)) then
      addressBlock l iterations p (p.index / 128 + 1)
    else f.addresses
  let word := if p.isIndependent then addresses.getD (p.index % 128) 0 else previous.getD 0 0
  let mixed := compress previous (f.memory.getD (l.reference p word) zeroBlock)
  let block := if p.pass = 0 then mixed else mixed.add (f.memory.getD here zeroBlock)
  ⟨f.memory.setIfInBounds here block, addresses⟩

/-- Fills a segment from its place `index` on; the first two places of a lane come from the seed. -/
def fillSegment (l : Layout) (iterations : Nat) (pass slice lane : Nat) (memory : Array Block) :
    Array Block :=
  let skipped := if pass = 0 ∧ slice = 0 then 2 else 0
  let places := (List.range (l.segmentLength - skipped)).map fun i =>
    (⟨pass, slice, lane, i + skipped⟩ : Place)
  (places.foldl (fillPlace l iterations) ⟨memory, zeroBlock⟩).memory

/-- Every segment of every pass in order. -/
def fillAll (l : Layout) (iterations : Nat) (memory : Array Block) : Array Block :=
  (List.range iterations).foldl (fun memory pass =>
    (List.range 4).foldl (fun memory slice =>
      (List.range l.lanes).foldl (fun memory lane =>
        fillSegment l iterations pass slice lane memory) memory) memory) memory

/-- The memory before the first pass: two blocks at the front of each lane. -/
def start (l : Layout) (seed : Bytes) : Array Block :=
  (List.range l.lanes).foldl (fun memory lane =>
    let block (i : Nat) := Block.ofBytes (longHash 1024 (seed ++ le32 i ++ le32 lane))
    (memory.setIfInBounds (lane * l.laneLength) (block 0)).setIfInBounds
      (lane * l.laneLength + 1) (block 1)) (Array.replicate (l.lanes * l.laneLength) zeroBlock)

/-- Derives 32 bytes from a password and a salt of at least eight bytes. -/
def derive (c : Costs) (password salt : Bytes) : Except Fault (Octets 32) :=
  match c.fault? with
  | some fault => .error fault
  | none =>
      if salt.length < 8 then .error .saltTooShort
      else
        let l := c.layout
        let memory := fillAll l c.iterations.toNat (start l (seed c password salt))
        let last := (List.range l.lanes).foldl (fun sum lane =>
          sum.add (memory.getD ((lane + 1) * l.laneLength - 1) zeroBlock)) zeroBlock
        .ok (.ofPadded 32 (longHash outputLength last.toBytes))

end SealedEnvelope.Argon2id
