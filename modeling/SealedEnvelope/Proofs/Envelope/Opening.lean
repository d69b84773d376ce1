import SealedEnvelope.Proofs.Envelope.Production
import SealedEnvelope.Proofs.Transfer.Delivery

/-!
Envelopes opened as byte strings. The buffered and the streaming forms both come
down to `opening`, which looks at the bytes alone; whoever finds the content key
in the header of an envelope opens it to its text.
-/

namespace SealedEnvelope

namespace EnvelopeCipher

variable {operation : Operation} {unwrap : EnvelopeHeader → Except Failure (Octets 32)}

/-- What is written for the envelope that a string of bytes is, and how that ends. -/
def opening (operation : Operation) (unwrap : EnvelopeHeader → Except Failure (Octets 32))
    (data : Bytes) : Emission (Nat × Option Bytes) := do
  let (header, offset) ← .ofExcept (EnvelopeHeader.decode data)
  let contentKey ← .ofExcept (unwrap header)
  openBytes operation header (data.take offset) contentKey (data.drop offset)

theorem opening_of_decode {data : Bytes} {header : EnvelopeHeader} {offset : Nat}
    {contentKey : Octets 32} (hdecode : EnvelopeHeader.decode data = .ok (header, offset))
    (hunwrap : unwrap header = .ok contentKey) :
    opening operation unwrap data =
      openBytes operation header (data.take offset) contentKey (data.drop offset) := by
  rw [opening, hdecode, Emission.ofExcept_ok_bind]
  dsimp only
  rw [hunwrap, Emission.ofExcept_ok_bind]

theorem collect_opening_eq_ok {data : Bytes} {result : Bytes × Nat × Option Bytes} :
    (opening operation unwrap data).collect = .ok result ↔
      ∃ header offset contentKey, EnvelopeHeader.decode data = .ok (header, offset) ∧
        unwrap header = .ok contentKey ∧
        (openBytes operation header (data.take offset) contentKey (data.drop offset)).collect =
          .ok result := by
  constructor
  · intro h
    rcases hdecode : EnvelopeHeader.decode data with failure | ⟨header, offset⟩
    · rw [opening, hdecode] at h
      cases h
    · rcases hunwrap : unwrap header with failure | contentKey
      · rw [opening, hdecode, Emission.ofExcept_ok_bind] at h
        dsimp only at h
        rw [hunwrap] at h
        cases h
      · rw [opening_of_decode hdecode hunwrap] at h
        exact ⟨header, offset, contentKey, rfl, hunwrap, h⟩
  · rintro ⟨header, offset, contentKey, hdecode, hunwrap, h⟩
    rwa [opening_of_decode hdecode hunwrap]

theorem openBuffered_eq {header : EnvelopeHeader} {encodedHeader : Bytes}
    {contentKey : Octets 32} {body : Bytes} :
    openBuffered operation header encodedHeader contentKey body =
      (openBytes operation header encodedHeader contentKey body).collect.map
        fun (text, _, signature) => (text, signature) := by
  rw [openBuffered, openBody_eq rfl, Source.bytes_ofBytes]

/-- The buffered forms collect what is written. -/
theorem decryptWith_of_decode {data : Bytes} {header : EnvelopeHeader} {offset : Nat}
    (hdecode : EnvelopeHeader.decode data = .ok (header, offset)) :
    decryptWith operation unwrap data =
      (opening operation unwrap data).collect.map
        fun (text, _, signature) => (header, text, signature) := by
  rw [decryptWith, hdecode]
  rcases hunwrap : unwrap header with failure | contentKey
  · rw [opening, hdecode, Emission.ofExcept_ok_bind]
    dsimp only [bind, Except.bind]
    rw [hunwrap]
    rfl
  · rw [opening_of_decode hdecode hunwrap]
    dsimp only [bind, Except.bind]
    rw [hunwrap]
    dsimp only
    rw [openBuffered_eq]
    cases (openBytes operation header (data.take offset) contentKey
      (data.drop offset)).collect <;> rfl

theorem decryptWith_eq (data : Bytes) :
    (decryptWith operation unwrap data).map Prod.snd =
      (opening operation unwrap data).collect.map
        fun (text, _, signature) => (text, signature) := by
  rcases hdecode : EnvelopeHeader.decode data with failure | ⟨header, offset⟩
  · rw [decryptWith, opening, hdecode]
    rfl
  · rw [decryptWith_of_decode hdecode]
    cases (opening operation unwrap data).collect <;> rfl

/-- The streaming forms write the same, unless there is no header in front. -/
theorem decryptStreamWith_eq {source : Source} (hsource : source.fault = none)
    {header : EnvelopeHeader} {offset : Nat}
    (hdecode : EnvelopeHeader.decode source.bytes = .ok (header, offset)) :
    decryptStreamWith operation unwrap source = opening operation unwrap source.bytes := by
  have hholds := source.view_holds
  rw [hsource] at hholds
  rcases EnvelopeHeader.readFrom_cases Source.view hholds with
    ⟨header', offset', next, hdecode', hread, hnext, hfault⟩ | ⟨fault, fault', next, hdecode', -⟩
  · rw [hdecode] at hdecode'
    cases hdecode'
    rw [decryptStreamWith, hread, opening, hdecode, Emission.ofExcept_ok_bind]
    dsimp only
    congr 1
    funext contentKey
    rw [openBody_eq hfault, hnext]
  · rw [hdecode] at hdecode'
    cases hdecode'

end EnvelopeCipher

namespace Production

open EnvelopeCipher

variable {p : Production}

theorem readable_size (hvalid : p.Valid) {size : UInt32}
    (hlayout : p.header.layout.bufferSize? = some size.toNat) :
    ∃ cipher, segmentCipher size = .ok cipher ∧ cipher.bufferSize.val = size.toNat := by
  obtain ⟨-, hsize⟩ := EnvelopeHeader.fault?_eq_none.mp hvalid.readable
  obtain ⟨hne, hle, -⟩ := hsize size.toNat hlayout
  exact segmentCipher_eq_ok hne hle

theorem collect_decryptBytes_segments {cipher : StreamCipher} {size : UInt32}
    (hsize : cipher.bufferSize.val = size.toNat)
    (hfits : SegmentKeys.Fits 0 (p.segments size)) :
    (cipher.decryptBytes p.keys
      ((p.keys.encryptFrom 0 (p.segments size)).flatMap Segment.text)).collect =
        .ok (p.text, p.text.length) := by
  rw [segments, ← hsize] at hfits ⊢
  exact cipher.collect_decryptBytes_encryptFrom p.keys hfits

theorem openText_encrypt (operation : Operation) (key : Octets 32) (nonce : Octets 12) (ad : Bytes)
    (signature : Octets 64) :
    openText operation key nonce ad (Gcm.encrypt key nonce ad signature.toBytes) =
      .ok signature.toBytes := by
  rw [openText_eq_ok, signature.length_toBytes]
  exact ⟨by decide, rfl⟩

theorem body_of_stream {size : UInt32} (hlayout : p.header.layout = .stream size) :
    p.body = (p.keys.encryptFrom 0 (p.segments size)).flatMap Segment.text := by
  rw [body, bodyPieces, hlayout]
  exact SegmentKeys.flatMap_pieces _ _ _

/-- The trailer of a production with a signature is one piece of the usual length. -/
theorem exists_trailer {signature : Octets 64} (h : p.signature = some signature) :
    ∃ sealedText, p.trailer = [⟨trailerNonce p.header.nonce,
        boundTo trailerLabel p.encodedHeader, sealedText⟩] ∧
      sealedText.length = Withholding.trailerLength ∧
      ∀ operation, openText operation p.contentKey (trailerNonce p.header.nonce)
        (boundTo trailerLabel p.encodedHeader) sealedText = .ok signature.toBytes := by
  refine ⟨_, by rw [trailer, h], ?_, fun operation => openText_encrypt _ _ _ _ _⟩
  rw [Gcm.length_encrypt, signature.length_toBytes]
  rfl

theorem body_of_signedStream {size : UInt32} (hlayout : p.header.layout = .signedStream size)
    {nonce : Octets 12} {ad sealedText : Bytes} (htrailer : p.trailer = [⟨nonce, ad, sealedText⟩]) :
    p.body = (p.keys.encryptFrom 0 (p.segments size)).flatMap Segment.text ++ sealedText := by
  rw [body, bodyPieces, hlayout]
  dsimp only
  rw [List.flatMap_append, SegmentKeys.flatMap_pieces, htrailer, List.flatMap_singleton]

/-- The body of a production decrypts to its text and its signature under its content key. -/
theorem collect_openBytes (hvalid : p.Valid) (hfits : p.Fits) (operation : Operation) :
    (openBytes operation p.header p.encodedHeader p.contentKey p.body).collect =
      .ok (p.text, p.text.length, p.signature.map Octets.toBytes) := by
  cases hlayout : p.header.layout with
  | sealed =>
      rw [Production.Fits, hlayout] at hfits
      have hsignature := hvalid.signature_eq
      rw [hlayout] at hsignature
      rw [collect_openBytes_sealed hlayout]
      refine ⟨?_, ?_, rfl⟩
      · rw [openText_eq_ok]
        refine ⟨hfits, ?_⟩
        simp [body, bodyPieces, hlayout, keys, bodyKeys]
      · rw [hsignature]
        cases hs : p.signature with
        | none => rfl
        | some signature => simp [BodyLayout.inHeader, openText_encrypt]
  | stream size =>
      rw [Production.Fits, hlayout] at hfits
      obtain ⟨cipher, hcipher, hsize⟩ := readable_size hvalid (by rw [hlayout]; rfl)
      rw [collect_openBytes_stream hlayout, hvalid.unsigned size hlayout, body_of_stream hlayout]
      exact ⟨cipher, hcipher, collect_decryptBytes_segments hsize hfits, rfl⟩
  | signedStream size =>
      rw [Production.Fits, hlayout] at hfits
      obtain ⟨cipher, hcipher, hsize⟩ := readable_size hvalid (by rw [hlayout]; rfl)
      obtain ⟨signature, hs⟩ := Option.isSome_iff_exists.mp (hvalid.signed size hlayout)
      obtain ⟨sealedText, htrailer, hlength, hopen⟩ := exists_trailer hs
      rw [collect_openBytes_signedStream hlayout, hs, body_of_signedStream hlayout htrailer]
      refine ⟨cipher, sealedText, signature.toBytes, hcipher, ?_, trailer?_append hlength,
        hopen operation, rfl⟩
      rw [front_append hlength]
      exact collect_decryptBytes_segments hsize hfits

/-- The envelope of a production opens for whoever finds its content key in its header. -/
theorem collect_opening (hvalid : p.Valid) (hfits : p.Fits) {operation : Operation}
    {unwrap : EnvelopeHeader → Except Failure (Octets 32)}
    (hunwrap : unwrap p.header = .ok p.contentKey) :
    (opening operation unwrap p.envelope).collect =
      .ok (p.text, p.text.length, p.signature.map Octets.toBytes) := by
  have hdecode := EnvelopeHeader.decode_encode hvalid.encodes hvalid.readable p.body
  rw [envelope, opening_of_decode hdecode hunwrap, List.take_left, List.drop_left]
  exact collect_openBytes hvalid hfits operation

end Production

/-- What someone has to open envelopes with. -/
inductive Credential where
  | key (privateKey : Ed25519PrivateKey)
  | password (phrase : Bytes)

namespace Credential

open EnvelopeCipher (opening decryptWith_eq decryptStreamWith_eq)

def unwrap (c : EnvelopeCipher) (operation : Operation) :
    Credential → EnvelopeHeader → Except Failure (Octets 32)
  | .key privateKey => c.unwrapForKey operation privateKey
  | .password phrase => EnvelopeCipher.unwrapForPassword operation phrase

def decrypt (c : EnvelopeCipher) (data : Bytes) : Credential → Except Failure Bytes
  | .key privateKey => c.decrypt data privateKey
  | .password phrase => EnvelopeCipher.decryptWithPassword data phrase

def decryptStream (c : EnvelopeCipher) (source : Source) : Credential → Emission Nat
  | .key privateKey => c.decryptStream privateKey source
  | .password phrase => EnvelopeCipher.decryptStreamWithPassword phrase source

variable {c : EnvelopeCipher}

theorem decrypt_eq (credential : Credential) (data : Bytes) :
    credential.decrypt c data =
      (opening .decrypt (credential.unwrap c .decrypt) data).collect.map Prod.fst := by
  have hwith : credential.decrypt c data =
      ((EnvelopeCipher.decryptWith .decrypt (credential.unwrap c .decrypt) data).map
        Prod.snd).map Prod.fst := by
    rcases credential with key | phrase
    · simp only [decrypt, unwrap, EnvelopeCipher.decrypt]
      rcases EnvelopeCipher.decryptWith .decrypt (c.unwrapForKey .decrypt key) data with
        failure | opened <;> rfl
    · simp only [decrypt, unwrap, EnvelopeCipher.decryptWithPassword]
      rcases EnvelopeCipher.decryptWith .decrypt (EnvelopeCipher.unwrapForPassword .decrypt phrase)
        data with failure | opened <;> rfl
  rw [hwith, decryptWith_eq]
  rcases (opening .decrypt (credential.unwrap c .decrypt) data).collect with failure | opened <;>
    rfl

theorem decryptStream_eq (credential : Credential) (source : Source) :
    credential.decryptStream c source =
      Prod.fst <$> EnvelopeCipher.decryptStreamWith .decryptStream
        (credential.unwrap c .decryptStream) source := by
  cases credential <;> rfl

/-- Whoever finds the content key of a production in its header gets the text, from the bytes of
the envelope and from any source that delivers them. -/
theorem opens_production {p : Production} (hvalid : p.Valid) (hfits : p.Fits)
    (credential : Credential)
    (hunwrap : ∀ operation, credential.unwrap c operation p.header = .ok p.contentKey) :
    credential.decrypt c p.envelope = .ok p.text ∧
      ∀ source : Source, source.bytes = p.envelope → source.fault = none →
        ∀ sink : Sink, sink.Reliable → ∃ next,
          sink.deliver (credential.decryptStream c source) = (.ok p.text.length, next) ∧
            next.taken = sink.taken ++ p.text := by
  constructor
  · rw [decrypt_eq, Production.collect_opening hvalid hfits (hunwrap .decrypt)]
    rfl
  · intro source hsource hfault sink hsink
    have hdecode := EnvelopeHeader.decode_encode hvalid.encodes hvalid.readable p.body
    have hstream : (opening .decryptStream (credential.unwrap c .decryptStream)
        p.envelope).collect = _ :=
      Production.collect_opening hvalid hfits (hunwrap .decryptStream)
    rw [← Production.envelope, ← hsource] at hdecode
    rw [← hsource, ← decryptStreamWith_eq hfault hdecode, Emission.collect_eq_ok] at hstream
    have hending : (credential.decryptStream c source).ending = .ok p.text.length := by
      rw [decryptStream_eq, Emission.ending_map, hstream.1]
      rfl
    have hbytes : (credential.decryptStream c source).bytes = p.text := by
      rw [decryptStream_eq, Emission.bytes_map, hstream.2]
    obtain ⟨next, hdeliver, htaken⟩ := hsink.deliver (credential.decryptStream c source)
    rw [hending] at hdeliver
    rw [hbytes] at htaken
    exact ⟨next, hdeliver, htaken⟩

/-- Whoever does not find a content key gets that failure, and nothing is written. -/
theorem fails_production {p : Production} (hvalid : p.Valid) (credential : Credential)
    {failure : Failure}
    (hunwrap : ∀ operation, credential.unwrap c operation p.header = .error failure) :
    credential.decrypt c p.envelope = .error failure ∧
      ∀ source : Source, source.bytes = p.envelope → source.fault = none →
        credential.decryptStream c source = .fail failure := by
  have hdecode := EnvelopeHeader.decode_encode hvalid.encodes hvalid.readable p.body
  rw [← Production.envelope] at hdecode
  have hopening (operation : Operation) :
      opening operation (credential.unwrap c operation) p.envelope = .fail failure := by
    rw [opening, hdecode, Emission.ofExcept_ok_bind]
    dsimp only
    rw [hunwrap operation]
    rfl
  constructor
  · rw [decrypt_eq, hopening]
    rfl
  · intro source hsource hfault
    rw [← hsource] at hdecode
    rw [decryptStream_eq, decryptStreamWith_eq hfault hdecode, hsource, hopening]
    rfl

end Credential

end SealedEnvelope
