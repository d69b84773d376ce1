import SealedEnvelope.Proofs.Envelope.Agreement
import SealedEnvelope.Proofs.Envelope.Openings

/-!
What an envelope is bound to. Whoever makes someone with the content key accept
other bytes has made a ciphertext that was never encrypted under the key, or two
headers with one digest. Everything encrypted under the key carries associated data
that tell its use apart, and the order of the segments is in their nonces.
-/

namespace SealedEnvelope

open EnvelopeCipher

section Labels

theorem length_boundTo (label encodedHeader : Bytes) :
    (boundTo label encodedHeader).length = label.length + 64 := by
  rw [boundTo, List.length_append, Octets.length_toBytes]

theorem boundTo_inj {label label' encodedHeader encodedHeader' : Bytes}
    (h : boundTo label encodedHeader = boundTo label' encodedHeader') :
    label = label' ∧ Sha512.digest encodedHeader = Sha512.digest encodedHeader' := by
  have hlength : (Sha512.digest encodedHeader).toBytes.length =
      (Sha512.digest encodedHeader').toBytes.length := by
    rw [Octets.length_toBytes, Octets.length_toBytes]
  obtain ⟨hlabel, hdigest⟩ := List.append_inj' h hlength
  exact ⟨hlabel, Octets.ext hdigest⟩

theorem bodyLabel_ne_trailerLabel : bodyLabel ≠ trailerLabel := by
  intro h
  have hnames := Cbor.nameBytes_inj.mp h
  simp at hnames

theorem length_signatureLabel : signatureLabel.length = 31 :=
  (Cbor.length_nameBytes _).trans (by decide)

end Labels

/-- The associated data of the wrapped key and its ciphertext. -/
def RecipientEntry.Holds (piece : Piece) : RecipientEntry → Prop
  | .key keyId _ wrappedKey => piece.ad = keyId.bytes ∧ piece.sealedText = wrappedKey
  | .password salt _ wrappedKey => piece.ad = salt.toBytes ∧ piece.sealedText = wrappedKey

namespace Production

variable {p : Production}

/-- All that has been encrypted in the making, whether under the content key or, by accident,
another one that equals it: the body with its trailer, the signature in the header, and the
wrapped keys. -/
def Encrypted (p : Production) (piece : Piece) : Prop :=
  piece ∈ p.bodyPieces ∨ piece ∈ p.header.signaturePieces ∨
    ∃ entry ∈ p.header.recipients, entry.Holds piece

/-- Opening a body behind a header accepts something that has not been encrypted. -/
def Forged (p : Production) (header : EnvelopeHeader) (encodedHeader body : Bytes) : Prop :=
  ∃ piece ∈ accepted header encodedHeader p.contentKey body, ¬ p.Encrypted piece

/-- Another header with the same digest. -/
def Collision (p : Production) (encodedHeader : Bytes) : Prop :=
  encodedHeader ≠ p.encodedHeader ∧ Sha512.digest encodedHeader = Sha512.digest p.encodedHeader

/-- What else has been encrypted, has labels that are shorter than those of bodies. -/
theorem mem_bodyPieces (hshort : ∀ entry ∈ p.header.recipients, entry.Short) {piece : Piece}
    {label encodedHeader : Bytes} (hencrypted : p.Encrypted piece)
    (had : piece.ad = boundTo label encodedHeader) : piece ∈ p.bodyPieces := by
  have hlength : 64 ≤ piece.ad.length := by
    rw [had, length_boundTo]
    omega
  rcases hencrypted with hbody | hsignature | ⟨entry, hentry, hholds⟩
  · exact hbody
  · obtain ⟨sealedText, -, rfl⟩ := List.mem_map.mp hsignature
    dsimp only at hlength
    rw [length_signatureLabel] at hlength
    omega
  · have hlabel : piece.ad.length ≤ 32 := by
      cases entry with
      | key keyId ephemeralKey wrappedKey =>
          obtain ⟨hid, -⟩ := hshort _ hentry
          rw [hholds.1]
          exact hid
      | password salt costs wrappedKey =>
          rw [hholds.1, Octets.length_toBytes]
          omega
    omega

theorem ad_of_mem_trailer {piece : Piece} (h : piece ∈ p.trailer) :
    piece.ad = boundTo trailerLabel p.encodedHeader := by
  rw [trailer] at h
  cases hsignature : p.signature with
  | none =>
      rw [hsignature] at h
      cases h
  | some signature =>
      rw [hsignature] at h
      rw [List.mem_singleton.mp h]

/-- What is encrypted for a body is bound to the header as a part of it, or as the trailer. -/
theorem ad_of_mem_bodyPieces {piece : Piece} (h : piece ∈ p.bodyPieces) :
    piece.ad = boundTo bodyLabel p.encodedHeader ∨
      piece.ad = boundTo trailerLabel p.encodedHeader := by
  rw [bodyPieces] at h
  cases hlayout : p.header.layout with
  | sealed =>
      rw [hlayout] at h
      rw [List.mem_singleton.mp h]
      exact Or.inl rfl
  | stream size =>
      rw [hlayout] at h
      exact Or.inl (p.keys.ad_of_mem_pieces h)
  | signedStream size =>
      rw [hlayout] at h
      rcases List.mem_append.mp h with hsegment | htrailer
      · exact Or.inl (p.keys.ad_of_mem_pieces hsegment)
      · exact Or.inr (ad_of_mem_trailer htrailer)

/-- Whoever opens something that has been encrypted as the first part of a body, has read the
header that it was encrypted for. -/
theorem encodedHeader_eq (hshort : ∀ entry ∈ p.header.recipients, entry.Short) {piece : Piece}
    {encodedHeader : Bytes} (hencrypted : p.Encrypted piece)
    (had : piece.ad = boundTo bodyLabel encodedHeader) (hcollision : ¬ p.Collision encodedHeader) :
    encodedHeader = p.encodedHeader := by
  have hdigest : Sha512.digest encodedHeader = Sha512.digest p.encodedHeader := by
    rcases ad_of_mem_bodyPieces (mem_bodyPieces hshort hencrypted had) with hbody | htrailer
    · exact (boundTo_inj (had.symm.trans hbody)).2
    · exact absurd (boundTo_inj (had.symm.trans htrailer)).1 bodyLabel_ne_trailerLabel
  by_contra hne
  exact hcollision ⟨hne, hdigest⟩

theorem bodySegments_encryptFrom {size : UInt32} (hpos : 0 < size.toNat) :
    bodySegments size ((p.keys.encryptFrom 0 (p.segments size)).flatMap Segment.text) =
      p.keys.encryptFrom 0 (p.segments size) :=
  p.keys.flagLast_cut_encryptFrom hpos 0 p.text

theorem length_encryptFrom_le {size : UInt32} (hfits : SegmentKeys.Fits 0 (p.segments size)) :
    (p.keys.encryptFrom 0 (p.segments size)).length ≤ UInt64.size := by
  rw [SegmentKeys.length_encryptFrom]
  have hlast := hfits.2
  omega

/-- Bytes whose segments have all been encrypted for the body are its segments. -/
theorem segments_eq {size : UInt32} (hpos : 0 < size.toNat)
    (hfits : SegmentKeys.Fits 0 (p.segments size)) {data : Bytes}
    (hcount : (bodySegments size data).length ≤ UInt64.size)
    (hmem : ∀ piece ∈ p.keys.pieces 0 (bodySegments size data),
      piece ∈ p.keys.pieces 0 (p.keys.encryptFrom 0 (p.segments size))) :
    data = (p.keys.encryptFrom 0 (p.segments size)).flatMap Segment.text := by
  have hlength := length_encryptFrom_le hfits
  rw [← bodySegments_encryptFrom hpos] at hlength hmem
  have hsame := p.keys.flagLast_eq_of_pieces hlength hcount hmem
  have htexts := congrArg (List.flatMap Segment.text) hsame
  rwa [text_flagLast, text_flagLast, Bytes.flatten_cut (by omega), Bytes.flatten_cut (by omega)]
    at htexts

theorem mem_segmentPieces {size : UInt32} (hshort : ∀ entry ∈ p.header.recipients, entry.Short)
    (hparts : ∀ piece ∈ p.bodyPieces, piece ∈ p.keys.pieces 0 (p.keys.encryptFrom 0
      (p.segments size)) ∨ piece ∈ p.trailer)
    {data : Bytes} (hencrypted : ∀ piece ∈ p.keys.pieces 0 (bodySegments size data),
      p.Encrypted piece) :
    ∀ piece ∈ p.keys.pieces 0 (bodySegments size data),
      piece ∈ p.keys.pieces 0 (p.keys.encryptFrom 0 (p.segments size)) := by
  intro piece hpiece
  have had : piece.ad = boundTo bodyLabel p.encodedHeader := p.keys.ad_of_mem_pieces hpiece
  have hmem := mem_bodyPieces hshort (hencrypted piece hpiece) had
  rcases hparts piece hmem with hsegment | htrailer
  · exact hsegment
  · have hother := had.symm.trans (ad_of_mem_trailer htrailer)
    exact absurd (boundTo_inj hother).1 bodyLabel_ne_trailerLabel

theorem mem_trailer {size : UInt32} (hshort : ∀ entry ∈ p.header.recipients, entry.Short)
    (hparts : ∀ piece ∈ p.bodyPieces, piece ∈ p.keys.pieces 0 (p.keys.encryptFrom 0
      (p.segments size)) ∨ piece ∈ p.trailer)
    {piece : Piece} (had : piece.ad = boundTo trailerLabel p.encodedHeader)
    (hencrypted : p.Encrypted piece) : piece ∈ p.trailer := by
  have hmem := mem_bodyPieces hshort hencrypted had
  rcases hparts piece hmem with hsegment | htrailer
  · have hother := (p.keys.ad_of_mem_pieces hsegment).symm.trans had
    exact absurd (boundTo_inj hother).1 bodyLabel_ne_trailerLabel
  · exact htrailer

section Body

variable {operation : Operation} {data text : Bytes} {n : Nat} {signature : Option Bytes}

theorem body_eq_of_stream {size : UInt32} (hlayout : p.header.layout = .stream size)
    (hfits : p.Fits) (hshort : ∀ entry ∈ p.header.recipients, entry.Short)
    (hopen : (openBytes operation p.header p.encodedHeader p.contentKey data).collect =
      .ok (text, n, signature))
    (hencrypted : ∀ piece ∈ openings p.header p.encodedHeader p.contentKey data,
      p.Encrypted piece) : data = p.body := by
  rw [Production.Fits, hlayout] at hfits
  obtain ⟨cipher, hcipher, hcollect, -⟩ := (collect_openBytes_stream hlayout).mp hopen
  have hpos : 0 < size.toNat := bufferSize_of_segmentCipher hcipher ▸ cipher.bufferSize.pos
  obtain ⟨hcount, -⟩ := opens_of_collect_decryptBytes hcipher hcollect
  simp only [openings, hlayout, List.take_of_length_le hcount] at hencrypted
  have hparts : ∀ piece ∈ p.bodyPieces,
      piece ∈ p.keys.pieces 0 (p.keys.encryptFrom 0 (p.segments size)) ∨ piece ∈ p.trailer := by
    rw [bodyPieces, hlayout]
    exact fun piece => Or.inl
  rw [body_of_stream hlayout]
  exact segments_eq hpos hfits hcount (mem_segmentPieces hshort hparts hencrypted)

theorem body_eq_of_signedStream {size : UInt32} (hlayout : p.header.layout = .signedStream size)
    (hvalid : p.Valid) (hfits : p.Fits) (hshort : ∀ entry ∈ p.header.recipients, entry.Short)
    (hopen : (openBytes operation p.header p.encodedHeader p.contentKey data).collect =
      .ok (text, n, signature))
    (hencrypted : ∀ piece ∈ openings p.header p.encodedHeader p.contentKey data,
      p.Encrypted piece) : data = p.body := by
  rw [Production.Fits, hlayout] at hfits
  obtain ⟨cipher, last, s, hcipher, hcollect, hlast, -⟩ :=
    (collect_openBytes_signedStream hlayout).mp hopen
  have hpos : 0 < size.toNat := bufferSize_of_segmentCipher hcipher ▸ cipher.bufferSize.pos
  obtain ⟨hcount, -⟩ := opens_of_collect_decryptBytes hcipher hcollect
  simp only [openings, hlayout, List.take_of_length_le hcount, hcount, if_true, hlast,
    List.forall_mem_append] at hencrypted
  obtain ⟨hsegments, htrailing⟩ := hencrypted
  have hparts : ∀ piece ∈ p.bodyPieces,
      piece ∈ p.keys.pieces 0 (p.keys.encryptFrom 0 (p.segments size)) ∨ piece ∈ p.trailer := by
    rw [bodyPieces, hlayout]
    exact fun piece => List.mem_append.mp
  have hfront : front data = (p.keys.encryptFrom 0 (p.segments size)).flatMap Segment.text :=
    segments_eq hpos hfits hcount (mem_segmentPieces hshort hparts hsegments)
  -- The trailer has been encrypted as well, and there is one only.
  have hmem := mem_trailer hshort hparts rfl (htrailing _ (List.mem_singleton_self _))
  obtain ⟨made, hmade⟩ := Option.isSome_iff_exists.mp (hvalid.signed size hlayout)
  obtain ⟨sealedText, htrailer, -⟩ := exists_trailer hmade
  rw [htrailer] at hmem
  obtain ⟨-, -, hsame⟩ := Piece.mk.inj (List.mem_singleton.mp hmem)
  rw [body_of_signedStream hlayout htrailer, ← hfront, ← hsame, front_append_trailer hlast]

/-- What is accepted as a body behind the header, without a forgery, is the body. -/
theorem body_eq (hvalid : p.Valid) (hfits : p.Fits)
    (hshort : ∀ entry ∈ p.header.recipients, entry.Short)
    (hopen : (openBytes operation p.header p.encodedHeader p.contentKey data).collect =
      .ok (text, n, signature))
    (hforged : ¬ p.Forged p.header p.encodedHeader data) : data = p.body := by
  have hencrypted : ∀ piece ∈ openings p.header p.encodedHeader p.contentKey data,
      p.Encrypted piece := by
    rw [Forged, accepted_of_collect hopen] at hforged
    push Not at hforged
    exact hforged
  cases hlayout : p.header.layout with
  | sealed =>
      rw [openings, hlayout] at hencrypted
      have hmem := mem_bodyPieces hshort (hencrypted _ (List.mem_cons_self ..)) rfl
      rw [bodyPieces, hlayout] at hmem
      obtain ⟨-, -, htext⟩ := Piece.mk.inj (List.mem_singleton.mp hmem)
      rw [body, bodyPieces, hlayout, List.flatMap_singleton, htext]
  | stream size => exact body_eq_of_stream hlayout hfits hshort hopen hencrypted
  | signedStream size =>
      exact body_eq_of_signedStream hlayout hvalid hfits hshort hopen hencrypted

end Body

/-- The body itself is opened without a forgery. -/
theorem not_forged (hvalid : p.Valid) (hfits : p.Fits) :
    ¬ p.Forged p.header p.encodedHeader p.body := by
  rintro ⟨piece, haccepted, hnot⟩
  have hopening := (List.takeWhile_sublist _).subset haccepted
  apply hnot
  rw [openings] at hopening
  cases hlayout : p.header.layout with
  | sealed =>
      rw [hlayout] at hopening
      rcases List.mem_cons.mp hopening with rfl | hsignature
      · left
        simp [body, bodyPieces, hlayout, keys]
      · exact Or.inr (Or.inl hsignature)
  | stream size =>
      rw [Production.Fits, hlayout] at hfits
      obtain ⟨cipher, -, hsize⟩ := readable_size hvalid (by rw [hlayout]; rfl)
      have hpos : 0 < size.toNat := hsize ▸ cipher.bufferSize.pos
      simp only [hlayout, body_of_stream hlayout, bodySegments_encryptFrom hpos,
        List.take_of_length_le (length_encryptFrom_le hfits)] at hopening
      left
      rw [bodyPieces, hlayout]
      exact hopening
  | signedStream size =>
      rw [Production.Fits, hlayout] at hfits
      obtain ⟨cipher, -, hsize⟩ := readable_size hvalid (by rw [hlayout]; rfl)
      have hpos : 0 < size.toNat := hsize ▸ cipher.bufferSize.pos
      obtain ⟨signature, hs⟩ := Option.isSome_iff_exists.mp (hvalid.signed size hlayout)
      obtain ⟨sealedText, htrailer, hlength, -⟩ := exists_trailer hs
      simp only [hlayout, body_of_signedStream hlayout htrailer, front_append hlength,
        trailer?_append hlength, bodySegments_encryptFrom hpos,
        List.take_of_length_le (length_encryptFrom_le hfits), length_encryptFrom_le hfits,
        if_true] at hopening
      left
      rw [bodyPieces, hlayout, htrailer]
      exact hopening

section Tampering

variable {operation : Operation} {unwrap : EnvelopeHeader → Except Failure (Octets 32)}
  {tampered : Bytes} {header : EnvelopeHeader} {offset : Nat}

/-- Behind another header nothing is written. -/
theorem encodedHeader_eq_or (hshort : ∀ entry ∈ p.header.recipients, entry.Short)
    (hdecode : EnvelopeHeader.decode tampered = .ok (header, offset))
    (hunwrap : unwrap header = .ok p.contentKey)
    (hforged : ¬ p.Forged header (tampered.take offset) (tampered.drop offset))
    (hcollision : ¬ p.Collision (tampered.take offset)) :
    tampered.take offset = p.encodedHeader ∨
      (opening operation unwrap tampered).FailsSilently := by
  obtain ⟨first, rest, hopenings, had, hfails⟩ := openings_cons operation header
    (tampered.take offset) p.contentKey (tampered.drop offset)
  cases hopens : first.opens p.contentKey with
  | false =>
      rw [opening_of_decode hdecode hunwrap]
      exact Or.inr (hfails hopens)
  | true =>
      have haccepted : first ∈ accepted header (tampered.take offset) p.contentKey
          (tampered.drop offset) := by
        rw [accepted, hopenings, List.takeWhile_cons_of_pos hopens]
        exact List.mem_cons_self ..
      have hencrypted : p.Encrypted first := by
        by_contra hnot
        exact hforged ⟨first, haccepted, hnot⟩
      exact Or.inl (encodedHeader_eq hshort hencrypted had hcollision)

/-- Only the envelope itself is opened. -/
theorem envelope_eq (hvalid : p.Valid) (hfits : p.Fits)
    (hshort : ∀ entry ∈ p.header.recipients, entry.Short)
    (hdecode : EnvelopeHeader.decode tampered = .ok (header, offset))
    (hunwrap : unwrap header = .ok p.contentKey)
    (hforged : ¬ p.Forged header (tampered.take offset) (tampered.drop offset))
    (hcollision : ¬ p.Collision (tampered.take offset))
    {result : Bytes × Nat × Option Bytes}
    (hopen : (opening operation unwrap tampered).collect = .ok result) :
    tampered = p.envelope := by
  have hfront : tampered.take offset = p.encodedHeader := by
    rcases encodedHeader_eq_or hshort hdecode hunwrap hforged hcollision with hfront | hsilent
    · exact hfront
    · exact absurd hopen hsilent.collect_ne_ok
  have hheader : header = p.header := by
    have hwhole := EnvelopeHeader.decode_encode hvalid.encodes hvalid.readable
      (tampered.drop offset)
    rw [← hfront, List.take_append_drop, hdecode] at hwhole
    exact (Prod.mk.inj (Except.ok.inj hwhole)).1
  rw [opening_of_decode hdecode hunwrap, hfront, hheader] at hopen
  rw [hfront, hheader] at hforged
  have hbody := body_eq hvalid hfits hshort hopen hforged
  rw [envelope, ← hfront, ← hbody, List.take_append_drop]

end Tampering

end Production

/-- The ways to decrypt an envelope, each with a buffered and a streaming form. -/
inductive Decryption where
  | plain (credential : Credential)
  | verified (key : Ed25519PrivateKey) (verifiers : List Ed25519PublicKey)

namespace Decryption

def credential : Decryption → Credential
  | .plain credential => credential
  | .verified key _ => .key key

def buffered (c : EnvelopeCipher) (data : Bytes) : Decryption → Except Failure Bytes
  | .plain credential => credential.decrypt c data
  | .verified key verifiers => c.decryptThenVerify data key verifiers

def streamed (c : EnvelopeCipher) (source : Source) : Decryption → Emission Nat
  | .plain credential => credential.decryptStream c source
  | .verified key verifiers => c.decryptThenVerifyStream key verifiers source

variable {c : EnvelopeCipher} {header : EnvelopeHeader} {offset : Nat}

/-- What a buffered form gives has been opened. -/
theorem opening_of_buffered {decryption : Decryption} {data text : Bytes}
    (hdecode : EnvelopeHeader.decode data = .ok (header, offset))
    (h : decryption.buffered c data = .ok text) :
    ∃ operation result,
      (opening operation (decryption.credential.unwrap c operation) data).collect =
        .ok result := by
  cases decryption with
  | plain credential =>
      rw [buffered, Credential.decrypt_eq, map_eq_ok] at h
      obtain ⟨result, hcollect, -⟩ := h
      exact ⟨.decrypt, result, hcollect⟩
  | verified key verifiers =>
      rw [buffered, decryptThenVerify] at h
      split at h
      · cases h
      · obtain ⟨opened, hopened, -⟩ := bind_eq_ok.mp h
        rw [decryptWith_of_decode hdecode, map_eq_ok] at hopened
        obtain ⟨result, hcollect, -⟩ := hopened
        exact ⟨.decryptThenVerify, result, hcollect⟩

/-- A streaming form writes what is opened, if anything, and succeeds only with it. -/
theorem opening_of_streamed (decryption : Decryption) {source : Source}
    (hsource : source.fault = none)
    (hdecode : EnvelopeHeader.decode source.bytes = .ok (header, offset)) :
    (decryption.streamed c source).FailsSilently ∨ ∃ operation,
      (decryption.streamed c source).bytes =
        (opening operation (decryption.credential.unwrap c operation) source.bytes).bytes ∧
      ∀ n, (decryption.streamed c source).ending = .ok n → ∃ result,
        (opening operation (decryption.credential.unwrap c operation) source.bytes).collect =
          .ok result := by
  cases decryption with
  | plain credential =>
      refine Or.inr ⟨.decryptStream, ?_⟩
      rw [streamed, Credential.decryptStream_eq, decryptStreamWith_eq hsource hdecode,
        Emission.bytes_map, Emission.ending_map]
      refine ⟨rfl, ?_⟩
      intro n hending
      obtain ⟨result, hresult, -⟩ := map_eq_ok.mp hending
      exact ⟨_, Emission.collect_eq_ok.mpr ⟨hresult, rfl⟩⟩
  | verified key verifiers =>
      by_cases hsigned : (∃ size, header.layout = .signedStream size) ∧ verifiers ≠ []
      · obtain ⟨⟨size, hlayout⟩, hverifiers⟩ := hsigned
        refine Or.inr ⟨.decryptThenVerifyStream, ?_⟩
        rw [streamed, decryptThenVerifyStream_eq hsource hverifiers hdecode hlayout rfl,
          Emission.bytes_bind_ofExcept, Emission.ending_bind]
        refine ⟨rfl, ?_⟩
        intro n hending
        obtain ⟨result, hresult, -⟩ := bind_eq_ok.mp hending
        exact ⟨_, Emission.collect_eq_ok.mpr ⟨hresult, rfl⟩⟩
      · refine Or.inl ⟨.signatureVerificationFailed .decryptThenVerifyStream, ?_⟩
        rw [not_and_or, not_exists, ne_eq, not_not] at hsigned
        rcases hsigned with hlayout | rfl
        · rw [streamed, decryptThenVerifyStream_of_unsigned hsource hdecode hlayout]
          exact ⟨rfl, rfl⟩
        · exact ⟨rfl, rfl⟩

end Decryption

/-- Tampering is detected. Let an envelope be made, and other bytes be given to someone who finds
its content key in their header. Then either a ciphertext is accepted that has not been made with
the envelope, or the header has the digest of the original one, or: only the envelope itself is
decrypted, and behind any other header a streaming form writes nothing. -/
theorem tampering_detected {c : EnvelopeCipher} {recipients : List Recipient}
    {request : Encryption} {entropy last : Entropy} {envelope : Bytes} {n : Nat}
    (hrun : request.run c recipients entropy = (.ok (envelope, n), last)) :
    ∃ p, request.produce c recipients entropy = (.ok p, last) ∧ p.envelope = envelope ∧
      ∀ (c' : EnvelopeCipher) (decryption : Decryption) (tampered : Bytes)
          (header : EnvelopeHeader) (offset : Nat),
        EnvelopeHeader.decode tampered = .ok (header, offset) →
        decryption.credential.unwrap c' .decrypt header = .ok p.contentKey →
        p.Forged header (tampered.take offset) (tampered.drop offset) ∨
          p.Collision (tampered.take offset) ∨
          (∀ text, decryption.buffered c' tampered = .ok text → tampered = envelope) ∧
          ∀ source : Source, source.bytes = tampered → source.fault = none → ∀ sink : Sink,
            (∀ written, (sink.deliver (decryption.streamed c' source)).1 = .ok written →
              tampered = envelope) ∧
            (tampered.take offset ≠ p.encodedHeader →
              (sink.deliver (decryption.streamed c' source)).2.taken = sink.taken) := by
  obtain ⟨p, hproduce, hfits, rfl, -⟩ := Encryption.exists_production hrun
  have hvalid := Encryption.valid_of_produce hproduce
  have hshort : ∀ entry ∈ p.header.recipients, entry.Short := by
    obtain ⟨-, -, hmade⟩ := Encryption.recipients_of_produce hproduce
    exact RecipientEntry.short_of_made hmade
  refine ⟨p, hproduce, rfl, ?_⟩
  intro c' decryption tampered header offset hdecode hunwrap
  by_cases hforged : p.Forged header (tampered.take offset) (tampered.drop offset)
  · exact Or.inl hforged
  by_cases hcollision : p.Collision (tampered.take offset)
  · exact Or.inr (Or.inl hcollision)
  have hfound (operation : Operation) :
      decryption.credential.unwrap c' operation header = .ok p.contentKey :=
    (Credential.alike_unwrap .decrypt operation c' _ header).eq_ok_iff.mp hunwrap
  refine Or.inr (Or.inr ⟨?_, ?_⟩)
  · intro text htext
    obtain ⟨operation, result, hopen⟩ := Decryption.opening_of_buffered hdecode htext
    exact p.envelope_eq hvalid hfits hshort hdecode (hfound operation) hforged hcollision hopen
  · rintro source rfl hsource sink
    rcases decryption.opening_of_streamed (c := c') hsource hdecode with
      hsilent | ⟨operation, hbytes, hending⟩
    · obtain ⟨failure, hfails, hnothing⟩ := hsilent
      constructor
      · intro written hwritten
        rw [Sink.ending_of_deliver hwritten] at hfails
        cases hfails
      · exact fun _ => sink.taken_deliver_of_nil hnothing
    · constructor
      · intro written hwritten
        obtain ⟨result, hopen⟩ := hending written (Sink.ending_of_deliver hwritten)
        exact p.envelope_eq hvalid hfits hshort hdecode (hfound operation) hforged hcollision hopen
      · intro hother
        rcases p.encodedHeader_eq_or hshort hdecode (hfound operation) hforged hcollision with
          hsame | ⟨failure, -, hnothing⟩
        · exact absurd hsame hother
        · exact sink.taken_deliver_of_nil (hbytes.trans hnothing)

/-- Someone who knows the password does not get any text out of an envelope to which a byte has
been added. -/
theorem tampering_detected_sevens : ∃ (p : Production) (last : Entropy),
    (Encryption.encrypt shortText).run { cheapCipher with passwordCosts := ⟨8, 1, 1⟩ }
        [.password sevenPhrase] sevens = (.ok (p.envelope, 3), last) ∧
      ¬ p.Forged p.header p.encodedHeader p.body ∧
      (p.Forged p.header p.encodedHeader (p.body ++ [0]) ∨ p.Collision p.encodedHeader ∨
        ∀ text, EnvelopeCipher.decryptWithPassword (p.envelope ++ [0]) sevenPhrase ≠ .ok text) := by
  obtain ⟨envelope, last, hrun⟩ := exists_encrypt_sevenPhrase ⟨8, 1, 1⟩ (by decide)
  obtain ⟨p, hproduce, rfl, hdetected⟩ := tampering_detected hrun
  have hvalid := Encryption.valid_of_produce hproduce
  obtain ⟨-, -, hmade⟩ := Encryption.recipients_of_produce hproduce
  have hunwrap : (Decryption.plain (.password sevenPhrase)).credential.unwrap cheapCipher .decrypt
      p.header = .ok p.contentKey :=
    RecipientEntry.tryPassword_eq_ok (by decide) hmade (List.mem_singleton_self _)
      (foreign_sevenPhrase _) _
  have hdecode := EnvelopeHeader.decode_encode hvalid.encodes hvalid.readable (p.body ++ [0])
  have hfits : p.Fits := by
    obtain ⟨q, hq, hfits, -, -⟩ := Encryption.exists_production hrun
    rw [hproduce] at hq
    cases hq
    exact hfits
  refine ⟨p, last, hrun, p.not_forged hvalid hfits, ?_⟩
  have hall := hdetected cheapCipher (.plain (.password sevenPhrase)) _ p.header _ hdecode hunwrap
  rw [List.take_left, List.drop_left] at hall
  rcases hall with hforged | hcollision | ⟨hbuffered, -⟩
  · exact Or.inl hforged
  · exact Or.inr (Or.inl hcollision)
  · refine Or.inr (Or.inr ?_)
    intro text htext
    rw [Production.envelope, List.append_assoc] at htext
    have hlength := congrArg List.length (hbuffered text htext)
    simp [Production.envelope] at hlength

end SealedEnvelope
