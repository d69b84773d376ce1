import SealedEnvelope.Proofs.Segment.StreamCipher
import SealedEnvelope.Proofs.Transfer.Withholding
import SealedEnvelope.Envelope.Cipher

/-!
Bodies as byte strings. What is decrypted from a source that does not fail depends
on its bytes alone, and the body made from a text decrypts to that text in each
of the three layouts.
-/

namespace SealedEnvelope

namespace EnvelopeCipher

/-- What stands before the trailer of a signed stream; nothing if there is no whole trailer. -/
def front (body : Bytes) : Bytes := body.take (body.length - Withholding.trailerLength)

/-- The trailer of a signed stream, if the body is long enough. -/
def trailer? (body : Bytes) : Option Bytes :=
  if Withholding.trailerLength ≤ body.length then
    some (body.drop (body.length - Withholding.trailerLength))
  else none

theorem front_append {segments trailer : Bytes} (h : trailer.length = Withholding.trailerLength) :
    front (segments ++ trailer) = segments := by
  rw [front, List.length_append, h, Nat.add_sub_cancel, List.take_left]

theorem trailer?_append {segments trailer : Bytes}
    (h : trailer.length = Withholding.trailerLength) :
    trailer? (segments ++ trailer) = some trailer := by
  rw [trailer?, List.length_append, h, if_pos (by omega), Nat.add_sub_cancel, List.drop_left]

theorem length_of_trailer? {body trailer : Bytes} (h : trailer? body = some trailer) :
    trailer.length = Withholding.trailerLength := by
  rw [trailer?] at h
  split at h
  case isTrue hlong =>
    cases h
    rw [List.length_drop]
    exact Nat.sub_sub_self hlong
  case isFalse => cases h

theorem front_append_trailer {body trailer : Bytes} (h : trailer? body = some trailer) :
    front body ++ trailer = body := by
  rw [trailer?] at h
  split at h
  · cases h
    exact List.take_append_drop _ _
  · cases h

theorem front_prefix_front_append (body rest : Bytes) : front body <+: front (body ++ rest) := by
  rw [front, front, List.length_append]
  exact (List.take_prefix_take_left (by omega)).trans ((List.prefix_append body rest).take _)

/-- The front of a source is what a reader that keeps back the trailer delivers, and the trailer
is what it holds at the end. -/
theorem exists_view (source : Source) :
    ∃ tail, (Withholding.view tail).Holds (.ofSource source) (front source.bytes) source.fault ∧
      ∀ w, (Withholding.view tail).Ended w → w.trailer? = trailer? source.bytes := by
  rcases Nat.lt_or_ge source.bytes.length Withholding.trailerLength with hshort | hlong
  · refine ⟨source.bytes, ?_, ?_⟩
    · have hfront : front source.bytes = [] := by
        rw [front, Nat.sub_eq_zero_of_le hshort.le, List.take_zero]
      rw [hfront]
      exact Withholding.view_holds_of_short hshort
    · intro w hended
      rw [Withholding.trailer?_of_ended hended, trailer?, if_neg (by omega), if_neg (by omega)]
  · have htail : (source.bytes.drop (source.bytes.length - Withholding.trailerLength)).length =
        Withholding.trailerLength := by
      rw [List.length_drop]
      omega
    refine ⟨source.bytes.drop (source.bytes.length - Withholding.trailerLength), ?_, ?_⟩
    · exact Withholding.view_holds (List.take_append_drop _ _).symm htail
    · intro w hended
      rw [Withholding.trailer?_of_ended hended, trailer?, if_pos htail, if_pos hlong]

/-- Decryption of a body that is given as a string of bytes. -/
def openBytes (operation : Operation) (header : EnvelopeHeader) (encodedHeader : Bytes)
    (contentKey : Octets 32) (body : Bytes) : Emission (Nat × Option Bytes) :=
  let keys := bodyKeys contentKey header.nonce encodedHeader
  match header.layout with
  | .sealed => do
      let text ← .ofExcept (openText operation contentKey header.nonce keys.ad body)
      let signature ← .ofExcept (header.signature.mapM
        (openText operation contentKey (signatureNonce header.nonce) signatureLabel))
      .write operation text
      .flush operation
      pure (text.length, signature)
  | .stream size => do
      let cipher ← .ofExcept (segmentCipher size)
      let written ← cipher.decryptBytes keys body
      pure (written, none)
  | .signedStream size => do
      let cipher ← .ofExcept (segmentCipher size)
      let written ← cipher.decryptBytes keys (front body)
      match trailer? body with
      | none => .fail (.authenticationFailed operation)
      | some trailer =>
          let signature ← .ofExcept (openText operation contentKey (trailerNonce header.nonce)
            (boundTo trailerLabel encodedHeader) trailer)
          pure (written, some signature)

section Collect

variable {operation : Operation} {header : EnvelopeHeader} {encodedHeader body text : Bytes}
  {contentKey : Octets 32} {n : Nat} {signature : Option Bytes}

theorem collect_openBytes_sealed (hlayout : header.layout = .sealed) :
    (openBytes operation header encodedHeader contentKey body).collect =
        .ok (text, n, signature) ↔
      openText operation contentKey header.nonce (boundTo bodyLabel encodedHeader) body =
          .ok text ∧
        header.signature.mapM (openText operation contentKey (signatureNonce header.nonce)
          signatureLabel) = .ok signature ∧
        n = text.length := by
  simp only [openBytes, hlayout, Emission.collect_bind_eq_ok, Emission.collect_ofExcept_eq_ok,
    Emission.collect_write, Emission.collect_flush, Emission.collect_pure, bodyKeys]
  constructor
  · rintro ⟨_, out, _, ⟨hopen, rfl⟩, ⟨_, s, _, ⟨hsignature, rfl⟩, ⟨_, _, _, hwrite, ⟨_, _, _,
      hflush, hpure, rfl⟩, rfl⟩, rfl⟩, hbytes⟩
    cases hwrite
    cases hflush
    cases hpure
    rw [List.nil_append, List.nil_append, List.nil_append, List.append_nil] at hbytes
    subst hbytes
    exact ⟨hopen, hsignature, rfl⟩
  · rintro ⟨hopen, hsignature, rfl⟩
    exact ⟨[], text, text, ⟨hopen, rfl⟩, ⟨[], signature, text, ⟨hsignature, rfl⟩,
      ⟨text, (), [], rfl, ⟨[], (), [], rfl, rfl, rfl⟩, by simp⟩, rfl⟩, rfl⟩

theorem collect_openBytes_stream {size : UInt32} (hlayout : header.layout = .stream size) :
    (openBytes operation header encodedHeader contentKey body).collect =
        .ok (text, n, signature) ↔
      ∃ cipher, segmentCipher size = .ok cipher ∧
        (cipher.decryptBytes (bodyKeys contentKey header.nonce encodedHeader) body).collect =
          .ok (text, n) ∧ signature = none := by
  simp only [openBytes, hlayout, Emission.collect_bind_eq_ok, Emission.collect_ofExcept_eq_ok,
    Emission.collect_pure]
  constructor
  · rintro ⟨_, cipher, _, ⟨hcipher, rfl⟩, ⟨out, m, _, hopen, hpure, rfl⟩, rfl⟩
    cases hpure
    rw [List.nil_append, List.append_nil]
    exact ⟨cipher, hcipher, hopen, rfl⟩
  · rintro ⟨cipher, hcipher, hopen, rfl⟩
    exact ⟨[], cipher, text, ⟨hcipher, rfl⟩, ⟨text, n, [], hopen, rfl, by simp⟩, rfl⟩

theorem collect_openBytes_signedStream {size : UInt32}
    (hlayout : header.layout = .signedStream size) :
    (openBytes operation header encodedHeader contentKey body).collect =
        .ok (text, n, signature) ↔
      ∃ cipher trailer s, segmentCipher size = .ok cipher ∧
        (cipher.decryptBytes (bodyKeys contentKey header.nonce encodedHeader)
          (front body)).collect = .ok (text, n) ∧
        trailer? body = some trailer ∧
        openText operation contentKey (trailerNonce header.nonce)
          (boundTo trailerLabel encodedHeader) trailer = .ok s ∧
        signature = some s := by
  simp only [openBytes, hlayout, Emission.collect_bind_eq_ok, Emission.collect_ofExcept_eq_ok]
  constructor
  · rintro ⟨_, cipher, _, ⟨hcipher, rfl⟩, ⟨out, m, _, hopen, hrest, rfl⟩, rfl⟩
    cases htrailer : trailer? body with
    | none =>
        rw [htrailer] at hrest
        cases hrest
    | some trailer =>
        simp only [htrailer, Emission.collect_bind_eq_ok, Emission.collect_ofExcept_eq_ok,
          Emission.collect_pure] at hrest
        obtain ⟨_, s, _, ⟨hs, rfl⟩, hpure, rfl⟩ := hrest
        cases hpure
        rw [List.nil_append, List.append_nil]
        exact ⟨cipher, trailer, s, hcipher, hopen, rfl, hs, rfl⟩
  · rintro ⟨cipher, trailer, s, hcipher, hopen, htrailer, hs, rfl⟩
    refine ⟨[], cipher, text, ⟨hcipher, rfl⟩, ⟨text, n, [], hopen, ?_, by simp⟩, rfl⟩
    simp only [htrailer, Emission.collect_bind_eq_ok, Emission.collect_ofExcept_eq_ok]
    exact ⟨[], s, [], ⟨hs, rfl⟩, rfl, rfl⟩

end Collect

/-- However a source delivers a body, the bytes settle what is decrypted from it. -/
theorem openBody_eq {operation : Operation} {header : EnvelopeHeader} {encodedHeader : Bytes}
    {contentKey : Octets 32} {source : Source} (h : source.fault = none) :
    openBody operation header encodedHeader contentKey source =
      openBytes operation header encodedHeader contentKey source.bytes := by
  have hholds := source.view_holds
  rw [h] at hholds
  rw [openBody, openBytes]
  cases header.layout with
  | sealed =>
      have hall := source.readAll_eq
      rw [h] at hall
      simp only [hall]
      rfl
  | stream size =>
      dsimp only
      cases segmentCipher size with
      | error failure => rfl
      | ok cipher =>
          obtain ⟨last, hdecrypt, -⟩ := StreamCipher.decrypt_eq Source.view cipher
            (bodyKeys contentKey header.nonce encodedHeader) hholds
          simp only [Emission.ofExcept_ok_bind, hdecrypt]
  | signedStream size =>
      dsimp only
      cases segmentCipher size with
      | error failure => rfl
      | ok cipher =>
          obtain ⟨tail, hview, htrailer⟩ := exists_view source
          rw [h] at hview
          obtain ⟨last, hdecrypt, hended⟩ := StreamCipher.decrypt_eq (Withholding.view tail)
            cipher (bodyKeys contentKey header.nonce encodedHeader) hview
          have hrest := htrailer last hended
          cases hback : trailer? source.bytes with
          | none =>
              rw [hback] at hrest
              simp only [Emission.ofExcept_ok_bind, hdecrypt, hrest]
          | some trailer =>
              rw [hback] at hrest
              simp only [Emission.ofExcept_ok_bind, hdecrypt, hrest]

/-- A header with a segment size that passes the check when it is read, has a cipher. -/
theorem segmentCipher_eq_ok {size : UInt32} (hpos : size.toNat ≠ 0)
    (hle : size.toNat ≤ maxStreamBufferSize) :
    ∃ cipher, segmentCipher size = .ok cipher ∧ cipher.bufferSize.val = size.toNat := by
  have hmax : maxStreamBufferSize ≤ UInt32.size - 1 - 16 := by decide
  refine ⟨⟨size.toNat, Nat.pos_of_ne_zero hpos, hle.trans hmax⟩, ?_, rfl⟩
  rw [segmentCipher, StreamCipher.ofSize, SegmentSize.ofNat, dif_neg hpos,
    dif_pos (hle.trans hmax)]
  rfl

theorem bufferSize_of_segmentCipher {size : UInt32} {cipher : StreamCipher}
    (h : segmentCipher size = .ok cipher) : cipher.bufferSize.val = size.toNat := by
  rw [segmentCipher, mapError_eq_ok, StreamCipher.ofSize, map_eq_ok] at h
  obtain ⟨bufferSize, hsize, rfl⟩ := h
  exact SegmentSize.val_of_ofNat hsize

end EnvelopeCipher

end SealedEnvelope
