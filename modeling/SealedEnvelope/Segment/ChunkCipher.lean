import SealedEnvelope.Segment.StreamCipher

/-!
Segments with a length field before each. The decryptor takes any lengths up to
its own chunk size and decrypts a chunk once it has seen what follows it.
-/

namespace SealedEnvelope

/-- The cipher with chunks of at most `chunkSize` bytes of plain text. -/
structure ChunkCipher where
  chunkSize : SegmentSize

namespace ChunkCipher

def ofSize (n : Nat) : Except Failure ChunkCipher :=
  (SegmentSize.ofNat .chunk n).map ChunkCipher.mk

/-- Encrypts everything that a reader yields; the result is the length of the text. -/
def encrypt {ρ : Type} [ByteReader ρ] (c : ChunkCipher) (k : SegmentKeys) (r : ρ) : Emission Nat :=
  let (blocks, fault, _) := StreamCipher.readBlocks c.chunkSize.val r
  (StreamCipher.segmentRun .chunkEncrypt blocks fault).emit .chunkEncrypt fun index segment => do
    let sealedText ← .ofExcept (k.sealSegment index segment)
    .write .chunkEncrypt (Bytes.bigEndian 4 sealedText.length)
    .write .chunkEncrypt sealedText
    pure segment.text.length

/-- A length field, or nothing at the end of the input. -/
def readLength {ρ : Type} [ByteReader ρ] (r : ρ) : Except Failure (Option Nat) × ρ :=
  match ByteReader.fill 4 r with
  | (.error fault, next) => (.error (.io .chunkDecrypt fault), next)
  | (.ok [], next) => (.ok none, next)
  | (.ok bytes, next) =>
      if bytes.length = 4 then (.ok (some (Bytes.ofBigEndian bytes)), next)
      else (.error (.invalidFormat (.chunkLengthTruncated bytes.length)), next)

theorem size_le_of_readLength {ρ : Type} [ByteReader ρ] {r next : ρ} {length : Option Nat}
    (h : readLength r = (.ok length, next)) : ByteReader.size next ≤ ByteReader.size r := by
  unfold readLength at h
  split at h
  case h_1 => cases h
  case h_2 hfill =>
    have hsize := ByteReader.size_add_le_of_fill hfill
    cases h
    omega
  case h_3 hfill =>
    have hsize := ByteReader.size_add_le_of_fill hfill
    split at h
    · cases h
      omega
    · cases h

/-- The chunks from number `index` on, whose length field has been read. A length must be between
that of a tag and `limit`. A chunk is ready when the length field after it, or the end, is seen. -/
def readChunks {ρ : Type} [ByteReader ρ] (limit index length : Nat) (r : ρ) : SegmentRun :=
  if length < 16 ∨ limit < length then
    ⟨[], some (.invalidFormat (.chunkLength index length limit))⟩
  else
    match _hbody : ByteReader.fill length r with
    | (.error fault, _) => ⟨[], some (.io .chunkDecrypt fault)⟩
    | (.ok body, afterBody) =>
        if body.length < length then ⟨[], some (.authenticationFailed .chunkDecrypt)⟩
        else
          match _hlength : readLength afterBody with
          | (.error failure, _) => ⟨[], some failure⟩
          | (.ok none, _) => ⟨[⟨true, body⟩], none⟩
          | (.ok (some next), afterLength) =>
              let later := readChunks limit (index + 1) next afterLength
              ⟨⟨false, body⟩ :: later.segments, later.failure⟩
termination_by ByteReader.size r
decreasing_by
  have hfirst := ByteReader.size_add_le_of_fill _hbody
  have hsecond := size_le_of_readLength _hlength
  omega

/-- Everything that a reader yields as a run of chunks; there must be at least one. -/
def chunkRun {ρ : Type} [ByteReader ρ] (c : ChunkCipher) (r : ρ) : SegmentRun :=
  match readLength r with
  | (.error failure, _) => ⟨[], some failure⟩
  | (.ok none, _) => ⟨[], some (.authenticationFailed .chunkDecrypt)⟩
  | (.ok (some length), next) => readChunks (c.chunkSize.val + 16) 0 length next

/-- Decrypts everything that a reader yields; the result is the length of the text. -/
def decrypt {ρ : Type} [ByteReader ρ] (c : ChunkCipher) (k : SegmentKeys) (r : ρ) : Emission Nat :=
  (c.chunkRun r).emit .chunkDecrypt fun index segment => do
    let text ← .ofExcept (k.openSegment .chunkDecrypt index segment)
    .write .chunkDecrypt text
    pure text.length

end ChunkCipher

end SealedEnvelope
