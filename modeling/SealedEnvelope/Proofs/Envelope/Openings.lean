import Mathlib.Data.List.TakeWhile
import SealedEnvelope.Proofs.Envelope.Body
import SealedEnvelope.Proofs.Segment.Pieces

/-!
What the decryption of a body has to open with the content key, in order. It stops
with the first piece that is not accepted, and writes nothing if that is the first
of all.
-/

namespace SealedEnvelope

open EnvelopeCipher

/-- A failure before anything is written. -/
def Emission.FailsSilently {α : Type} (e : Emission α) : Prop :=
  ∃ failure, e.ending = .error failure ∧ e.bytes = []

namespace Emission.FailsSilently

variable {α β : Type} {e : Emission α}

theorem ofExcept (failure : Failure) :
    (Emission.ofExcept (.error failure) : Emission α).FailsSilently := ⟨failure, rfl, rfl⟩

theorem bind (h : e.FailsSilently) (f : α → Emission β) : (e >>= f).FailsSilently := by
  obtain ⟨failure, hending, hbytes⟩ := h
  refine ⟨failure, ?_, ?_⟩
  · rw [bind_of_error hending]
  · rw [bytes_bind_of_error hending, hbytes]

theorem collect_ne_ok (h : e.FailsSilently) {result : Bytes × α} : e.collect ≠ .ok result := by
  obtain ⟨failure, hending, -⟩ := h
  rw [collect_of_error hending]
  simp

end Emission.FailsSilently

/-- The encrypted signature that a header holds. -/
def EnvelopeHeader.signaturePieces (h : EnvelopeHeader) : List Piece :=
  h.signature.toList.map (Piece.mk (signatureNonce h.nonce) signatureLabel)

namespace EnvelopeCipher

/-- The segments that a body is cut into. -/
def bodySegments (size : UInt32) (body : Bytes) : List Segment :=
  flagLast (Bytes.cut (size.toNat + 16) body)

/-- What is opened with the content key. The numbers last for so many segments, and a trailer
comes after all of them. -/
def openings (header : EnvelopeHeader) (encodedHeader : Bytes) (contentKey : Octets 32)
    (body : Bytes) : List Piece :=
  let keys := bodyKeys contentKey header.nonce encodedHeader
  match header.layout with
  | .sealed => ⟨header.nonce, keys.ad, body⟩ :: header.signaturePieces
  | .stream size => keys.pieces 0 ((bodySegments size body).take UInt64.size)
  | .signedStream size =>
      keys.pieces 0 ((bodySegments size (front body)).take UInt64.size) ++
        if (bodySegments size (front body)).length ≤ UInt64.size then
          (trailer? body).toList.map
            (Piece.mk (trailerNonce header.nonce) (boundTo trailerLabel encodedHeader))
        else []

/-- What is opened and accepted. -/
def accepted (header : EnvelopeHeader) (encodedHeader : Bytes) (contentKey : Octets 32)
    (body : Bytes) : List Piece :=
  (openings header encodedHeader contentKey body).takeWhile (Piece.opens contentKey)

theorem pieces_bodySegments (keys : SegmentKeys) (size : UInt32) (body : Bytes) :
    ∃ segment rest later, bodySegments size body = segment :: rest ∧
      keys.pieces 0 ((bodySegments size body).take UInt64.size) =
        ⟨segmentNonce keys.nonce 0 segment.final, keys.ad, segment.text⟩ :: later := by
  obtain ⟨segment, rest, hcut⟩ := List.exists_cons_of_ne_nil
    (flagLast_ne_nil (Bytes.cut (size.toNat + 16) body))
  refine ⟨segment, rest, keys.pieces 1 (rest.take (UInt64.size - 1)), hcut, ?_⟩
  rw [bodySegments, hcut, List.take_cons (by decide), SegmentKeys.pieces]
  rfl

theorem failsSilently_decryptBytes {keys : SegmentKeys} {size : UInt32} {body : Bytes}
    {segment : Segment} {rest : List Segment} (hcut : bodySegments size body = segment :: rest)
    (hfirst : Piece.opens keys.key
      ⟨segmentNonce keys.nonce 0 segment.final, keys.ad, segment.text⟩ = false)
    {cipher : StreamCipher} (hcipher : segmentCipher size = .ok cipher) :
    (cipher.decryptBytes keys body).FailsSilently := by
  have hopen := Piece.openText_of_refused hfirst .streamDecrypt
  rw [bodySegments, ← bufferSize_of_segmentCipher hcipher] at hcut
  exact ⟨_, cipher.bytes_decryptBytes_of_first keys hcut hopen⟩

/-- The first thing to be opened is bound to the header in front of the body. Unless it is
accepted, nothing is written. -/
theorem openings_cons (operation : Operation) (header : EnvelopeHeader) (encodedHeader : Bytes)
    (contentKey : Octets 32) (body : Bytes) :
    ∃ first rest, openings header encodedHeader contentKey body = first :: rest ∧
      first.ad = boundTo bodyLabel encodedHeader ∧
      (first.opens contentKey = false →
        (openBytes operation header encodedHeader contentKey body).FailsSilently) := by
  rw [openings, openBytes]
  let keys := bodyKeys contentKey header.nonce encodedHeader
  cases header.layout with
  | sealed =>
      refine ⟨_, _, rfl, rfl, ?_⟩
      intro hfirst
      have hopen := Piece.openText_of_refused hfirst operation
      dsimp only at hopen ⊢
      rw [hopen]
      exact .bind (.ofExcept _) _
  | stream size =>
      obtain ⟨segment, rest, later, hcut, hpieces⟩ := pieces_bodySegments keys size body
      refine ⟨_, later, hpieces, rfl, ?_⟩
      intro hfirst
      dsimp only
      cases hcipher : segmentCipher size with
      | error failure => exact .bind (.ofExcept failure) _
      | ok cipher =>
          rw [Emission.ofExcept_ok_bind]
          exact .bind (failsSilently_decryptBytes hcut hfirst hcipher) _
  | signedStream size =>
      obtain ⟨segment, rest, later, hcut, hpieces⟩ := pieces_bodySegments keys size (front body)
      refine ⟨_, _, congrArg (· ++ _) hpieces, rfl, ?_⟩
      intro hfirst
      dsimp only
      cases hcipher : segmentCipher size with
      | error failure => exact .bind (.ofExcept failure) _
      | ok cipher =>
          rw [Emission.ofExcept_ok_bind]
          exact .bind (failsSilently_decryptBytes hcut hfirst hcipher) _

end EnvelopeCipher

section Accepted

variable {operation : Operation} {header : EnvelopeHeader} {encodedHeader body : Bytes}
  {contentKey : Octets 32}

theorem opens_of_collect_decryptBytes {cipher : StreamCipher} {keys : SegmentKeys}
    {size : UInt32} (hcipher : segmentCipher size = .ok cipher) {text : Bytes} {n : Nat}
    (h : (cipher.decryptBytes keys body).collect = .ok (text, n)) :
    (bodySegments size body).length ≤ UInt64.size ∧
      ∀ piece ∈ keys.pieces 0 (bodySegments size body), piece.opens keys.key = true := by
  obtain ⟨plain, hsegments, ⟨hshort, hcount⟩, -, -⟩ := (cipher.collect_decryptBytes keys).mp h
  rw [bufferSize_of_segmentCipher hcipher] at hsegments
  rw [bodySegments, hsegments, SegmentKeys.length_encryptFrom]
  exact ⟨by omega, keys.opens_pieces hshort⟩

/-- Decryption that succeeds has accepted all that there is to open. -/
theorem accepted_of_collect {result : Bytes × Nat × Option Bytes}
    (h : (openBytes operation header encodedHeader contentKey body).collect = .ok result) :
    accepted header encodedHeader contentKey body =
      openings header encodedHeader contentKey body := by
  obtain ⟨text, n, signature⟩ := result
  rw [accepted, List.takeWhile_eq_self_iff, openings]
  cases hlayout : header.layout with
  | sealed =>
      obtain ⟨hopen, hsignature, -⟩ := (collect_openBytes_sealed hlayout).mp h
      rw [List.forall_mem_cons]
      refine ⟨(Piece.opens_iff operation).mpr ⟨text, hopen⟩, ?_⟩
      intro piece hpiece
      rw [EnvelopeHeader.signaturePieces] at hpiece
      cases hs : header.signature with
      | none =>
          rw [hs] at hpiece
          cases hpiece
      | some sealedText =>
          rw [hs] at hpiece hsignature
          obtain rfl := List.mem_singleton.mp hpiece
          obtain ⟨s, hopened, -⟩ := map_eq_ok.mp hsignature
          exact (Piece.opens_iff operation).mpr ⟨s, hopened⟩
  | stream size =>
      obtain ⟨cipher, hcipher, hopen, -⟩ := (collect_openBytes_stream hlayout).mp h
      obtain ⟨hcount, hall⟩ := opens_of_collect_decryptBytes hcipher hopen
      dsimp only
      rw [List.take_of_length_le hcount]
      exact hall
  | signedStream size =>
      obtain ⟨cipher, trailer, s, hcipher, hopen, htrailer, hopened, -⟩ :=
        (collect_openBytes_signedStream hlayout).mp h
      obtain ⟨hcount, hall⟩ := opens_of_collect_decryptBytes hcipher hopen
      dsimp only
      rw [List.take_of_length_le hcount, if_pos hcount, htrailer]
      intro piece hpiece
      rcases List.mem_append.mp hpiece with hsegment | hlast
      · exact hall piece hsegment
      · obtain rfl := List.mem_singleton.mp hlast
        exact (Piece.opens_iff operation).mpr ⟨s, hopened⟩

end Accepted

end SealedEnvelope
