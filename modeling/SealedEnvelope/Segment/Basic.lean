import SealedEnvelope.Segment.Nonce
import SealedEnvelope.Cipher.Gcm
import SealedEnvelope.Transfer.Emission
import SealedEnvelope.Transfer.Source

/-!
Authenticated encryption of a text in segments: each segment is encrypted by
itself under a nonce that holds its number and whether it is the last one.
-/

namespace SealedEnvelope

/-- The longest text that AES-GCM is used for here, of 2^36 bytes. -/
def maxTextLength : Nat := 0x1000000000

/-- AES-256-GCM encryption of texts within its length limit. -/
def sealText (key : Octets 32) (nonce : Octets 12) (ad text : Bytes) : Except Failure Bytes :=
  if text.length ≤ maxTextLength then .ok (Gcm.encrypt key nonce ad text)
  else .error (.invalidParameter (.textTooLong text.length))

/-- AES-256-GCM decryption; `operation` is blamed for a text that does not authenticate. -/
def openText (operation : Operation) (key : Octets 32) (nonce : Octets 12) (ad sealedText : Bytes) :
    Except Failure Bytes :=
  if sealedText.length ≤ maxTextLength + 16 then
    match Gcm.decrypt key nonce ad sealedText with
    | some text => .ok text
    | none => .error (.authenticationFailed operation)
  else .error (.authenticationFailed operation)

/-- The length of a piece of text. With the tag it fits into a 32-bit length field. -/
structure SegmentSize where
  val : Nat
  pos : 0 < val
  le : val ≤ UInt32.size - 1 - 16

def SegmentSize.ofNat (name : SizeName) (n : Nat) : Except Failure SegmentSize :=
  if hzero : n = 0 then .error (.invalidParameter (.sizeZero name))
  else if hle : n ≤ UInt32.size - 1 - 16 then .ok ⟨n, Nat.pos_of_ne_zero hzero, hle⟩
  else .error (.invalidParameter (.sizeTooLarge name n))

/-- A piece of text or of ciphertext, and whether it is the last one. -/
structure Segment where
  final : Bool
  text : Bytes
deriving DecidableEq, Repr

/-- The segments that a reader yields, and the failure that reading them ended with, if any. -/
structure SegmentRun where
  segments : List Segment
  failure : Option Failure
deriving DecidableEq, Repr

/-- All segment texts together. -/
def SegmentRun.text (run : SegmentRun) : Bytes := run.segments.flatMap Segment.text

/-- What encrypts or decrypts a segmented text. -/
structure SegmentKeys where
  key : Octets 32
  nonce : Octets 12
  ad : Bytes

/-- The number of the next segment; there is none after the last 64-bit number. -/
def nextIndex (index : UInt64) : Except Failure UInt64 :=
  if index.toNat + 1 < UInt64.size then .ok (index + 1)
  else .error (.invalidParameter .countersExhausted)

namespace SegmentKeys

def sealSegment (k : SegmentKeys) (index : UInt64) (s : Segment) : Except Failure Bytes :=
  sealText k.key (segmentNonce k.nonce index s.final) k.ad s.text

def openSegment (k : SegmentKeys) (operation : Operation) (index : UInt64) (s : Segment) :
    Except Failure Bytes :=
  openText operation k.key (segmentNonce k.nonce index s.final) k.ad s.text

end SegmentKeys

/-- Works on segments in order, numbered from `index` on: `work` gives what to write for one and
the length of its plain text. The result is the total length. -/
def emitSegments (work : UInt64 → Segment → Emission Nat) (index : UInt64) :
    List Segment → Emission Nat
  | [] => pure 0
  | [segment] => work index segment
  | segment :: rest => do
      let length ← work index segment
      let next ← Emission.ofExcept (nextIndex index)
      (length + ·) <$> emitSegments work next rest

/-- Works on a run of segments, then fails as reading did, or flushes the output. -/
def SegmentRun.emit (run : SegmentRun) (operation : Operation)
    (work : UInt64 → Segment → Emission Nat) : Emission Nat := do
  let total ← emitSegments work 0 run.segments
  match run.failure with
  | some failure => .fail failure
  | none =>
      .flush operation
      pure total

end SealedEnvelope
