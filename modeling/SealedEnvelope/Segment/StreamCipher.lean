import SealedEnvelope.Segment.Basic

/-!
Segments of a fixed size, back to back and without framing: all but the last one
are full. Empty text still makes one segment, so no ciphertext is empty.
-/

namespace SealedEnvelope

/-- The cipher with segments of `bufferSize` bytes of plain text. -/
structure StreamCipher where
  bufferSize : SegmentSize

namespace StreamCipher

def ofSize (n : Nat) : Except Failure StreamCipher :=
  (SegmentSize.ofNat .streamBuffer n).map StreamCipher.mk

/-- The blocks of `n` bytes that a reader yields, the last one possibly shorter, the fault that
reading ended with, and the reader left over. -/
def readBlocks {ρ : Type} [ByteReader ρ] (n : Nat) (r : ρ) : List Bytes × Option IoFault × ρ :=
  match _h : ByteReader.fill n r with
  | (.error fault, next) => ([], some fault, next)
  | (.ok [], next) => ([], none, next)
  | (.ok (byte :: bytes), next) =>
      if bytes.length + 1 < n then ([byte :: bytes], none, next)
      else
        let (blocks, fault, last) := readBlocks n next
        ((byte :: bytes) :: blocks, fault, last)
termination_by ByteReader.size r
decreasing_by
  have hsize := ByteReader.size_add_le_of_fill _h
  simp only [List.length_cons] at hsize
  omega

/-- Blocks as segments. One block must have been read after a segment before it can be told
whether that was the last; so where reading fails, the last block read is not yet a segment. -/
def segmentRun (operation : Operation) (blocks : List Bytes) : Option IoFault → SegmentRun
  | some fault => ⟨blocks.dropLast.map (Segment.mk false), some (.io operation fault)⟩
  | none => ⟨blocks.dropLast.map (Segment.mk false) ++ [⟨true, blocks.getLastD []⟩], none⟩

/-- Encrypts segments; the result is the length of the text. -/
def encryptRun (k : SegmentKeys) (run : SegmentRun) : Emission Nat :=
  run.emit .streamEncrypt fun index segment => do
    let sealedText ← .ofExcept (k.sealSegment index segment)
    .write .streamEncrypt sealedText
    pure segment.text.length

/-- The plain text of a reader as a run of segments. -/
def plainRun {ρ : Type} [ByteReader ρ] (c : StreamCipher) (r : ρ) : SegmentRun :=
  let (blocks, fault, _) := readBlocks c.bufferSize.val r
  segmentRun .streamEncrypt blocks fault

/-- Encrypts everything that a reader yields; the result is the length of the text. -/
def encrypt {ρ : Type} [ByteReader ρ] (c : StreamCipher) (k : SegmentKeys) (r : ρ) : Emission Nat :=
  encryptRun k (c.plainRun r)

/-- Decrypts everything that a reader yields, each segment being written only after it has
authenticated. The result is the length of the text; the reader left over comes with it. -/
def decrypt {ρ : Type} [ByteReader ρ] (c : StreamCipher) (k : SegmentKeys) (r : ρ) :
    Emission Nat × ρ :=
  let (blocks, fault, last) := readBlocks (c.bufferSize.val + 16) r
  let emission := (segmentRun .streamDecrypt blocks fault).emit .streamDecrypt
    fun index segment => do
      let text ← .ofExcept (k.openSegment .streamDecrypt index segment)
      .write .streamDecrypt text
      pure text.length
  (emission, last)

end StreamCipher

end SealedEnvelope
