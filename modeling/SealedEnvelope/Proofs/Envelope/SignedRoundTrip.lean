import SealedEnvelope.Proofs.Envelope.Acceptance

/-!
What is signed and then encrypted is accepted by whoever was meant to read it and knows
the signer. The trailer of a signed stream has no frame of its own: it is what the last
eighty bytes are, and it gives back the detached signature of the text as a stream.
-/

namespace SealedEnvelope

namespace EnvelopeCipher

/-- The holder of the key finds this signature in the last eighty bytes. -/
def SignatureBehind (c : EnvelopeCipher) (data : Bytes) (key : Ed25519PrivateKey)
    (signature : Bytes) : Prop :=
  ∃ header offset size contentKey trailer,
    EnvelopeHeader.decode data = .ok (header, offset) ∧ header.layout = .signedStream size ∧
    c.unwrapForKey .decrypt key header = .ok contentKey ∧
    trailer? (data.drop offset) = some trailer ∧ trailer.length = 80 ∧
    openText .decrypt contentKey (trailerNonce header.nonce)
      (boundTo trailerLabel (data.take offset)) trailer = .ok signature

theorem Reveals.signatureBehind {c : EnvelopeCipher} {data text : Bytes} {key : Ed25519PrivateKey}
    {header : EnvelopeHeader} {offset : Nat} {contentKey : Octets 32} {signature : Bytes}
    {size : UInt32} (h : c.Reveals data key header offset contentKey text (some signature))
    (hlayout : header.layout = .signedStream size) : c.SignatureBehind data key signature := by
  obtain ⟨_, trailer, _, -, -, htrailer, hopen, hsame⟩ :=
    (collect_openBytes_signedStream hlayout).mp (h.collect .decrypt)
  cases hsame
  exact ⟨header, offset, size, contentKey, trailer, h.decode, hlayout, h.unwrap .decrypt,
    htrailer, length_of_trailer? htrailer, hopen⟩

/-- As a stream, what an envelope reveals is decrypted whatever its layout. -/
theorem Reveals.delivers_decryptStream {c : EnvelopeCipher} {source : Source} {text : Bytes}
    {key : Ed25519PrivateKey} {header : EnvelopeHeader} {offset : Nat} {contentKey : Octets 32}
    {signature : Option Bytes} (hsource : source.fault = none)
    (h : c.Reveals source.bytes key header offset contentKey text signature) :
    (c.decryptStream key source).Delivers (.ok text.length) text := by
  have hopening : (opening .decryptStream (c.unwrapForKey .decryptStream key)
      source.bytes).collect = .ok (text, text.length, signature) := by
    rw [opening_of_decode h.decode (h.unwrap .decryptStream)]
    exact h.collect .decryptStream
  rw [Emission.collect_eq_ok] at hopening
  rw [decryptStream, decryptStreamWith_eq hsource h.decode, Emission.delivers_iff,
    Emission.ending_map, Emission.bytes_map, hopening.1, hopening.2]
  exact ⟨rfl, rfl⟩

end EnvelopeCipher

/-- Whoever finds its content key in the header reveals what a production is made of. -/
theorem Production.reveals {p : Production} {c : EnvelopeCipher} {key : Ed25519PrivateKey}
    (hvalid : p.Valid) (hfits : p.Fits)
    (hunwrap : ∀ operation, c.unwrapForKey operation key p.header = .ok p.contentKey) :
    c.Reveals p.envelope key p.header p.encodedHeader.length p.contentKey p.text
      (p.signature.map Octets.toBytes) := by
  refine ⟨EnvelopeHeader.decode_encode hvalid.encodes hvalid.readable p.body, hunwrap, ?_⟩
  intro operation
  rw [envelope, List.take_left, List.drop_left]
  exact collect_openBytes hvalid hfits operation

/-- The holder of a listed key reveals what a run has made. -/
theorem Encryption.exists_reveals {c c' : EnvelopeCipher} {recipients : List Recipient}
    {request : Encryption} {entropy last : Entropy} {envelope : Bytes} {n : Nat}
    {key : Ed25519PrivateKey} {publicKey : Ed25519PublicKey}
    (hrun : request.run c recipients entropy = (.ok (envelope, n), last))
    (hkey : key.publicKey = .ok publicKey) (hmem : .key publicKey ∈ recipients)
    (hunique : ∀ other, .key other ∈ recipients →
      other.identifier c.fingerprint = publicKey.identifier c.fingerprint → other = publicKey)
    (hcommutes : ∀ position, Commutes key (entropy.window position 32))
    (hfingerprint : c'.fingerprint = c.fingerprint) :
    n = request.text.length ∧ ∃ header offset contentKey signature,
      request.layout c = .ok header.layout ∧ request.signature = .ok signature ∧
      c'.Reveals envelope key header offset contentKey request.text
        (signature.map Octets.toBytes) := by
  obtain ⟨p, hproduce, hfits, rfl, hn⟩ := Encryption.exists_production hrun
  have hvalid := Encryption.valid_of_produce hproduce
  have hunwrap : ∀ operation, c'.unwrapForKey operation key p.header = .ok p.contentKey :=
    Encryption.unwrapForKey_of_produce hproduce hkey hmem hunique hcommutes hfingerprint
  have hreveals := Production.reveals hvalid hfits hunwrap
  obtain ⟨layout, signature, header, contentKey, encoded, hlayout, hsignature, hheader, -, rfl⟩ :=
    Encryption.produce_eq_ok.mp hproduce
  obtain ⟨-, -, rfl, -⟩ := buildHeader_eq_ok hheader
  exact ⟨hn, header, _, contentKey, signature, hlayout, hsignature, hreveals⟩

/-- A reader who holds a listed key and accepts the signer gets the text back, from an envelope
with the signature in its header and from a signed stream, whole or as a stream. Of the trailer
nothing gets into the text, and it holds the detached signature of the text as a stream. -/
theorem signed_round_trip {c c' : EnvelopeCipher} {recipients : List Recipient} {text : Bytes}
    {signer key : Ed25519PrivateKey} {verifier publicKey : Ed25519PublicKey}
    {verifiers : List Ed25519PublicKey} {entropy : Entropy}
    (hsigner : signer.publicKey = .ok verifier) (hverifier : verifier ∈ verifiers)
    (hown : SelfVerifies signer text)
    (hownDigest : SelfVerifies signer (Sha512.digest text).toBytes)
    (hkey : key.publicKey = .ok publicKey) (hmem : .key publicKey ∈ recipients)
    (hunique : ∀ other, .key other ∈ recipients →
      other.identifier c.fingerprint = publicKey.identifier c.fingerprint → other = publicKey)
    (hcommutes : ∀ position, Commutes key (entropy.window position 32))
    (hfingerprint : c'.fingerprint = c.fingerprint) :
    (∀ envelope n last, (Encryption.signThenEncrypt text signer).run c recipients entropy =
        (.ok (envelope, n), last) →
      c'.decryptThenVerify envelope key verifiers = .ok text) ∧
    ∀ source : Source, source.bytes = text → ∀ envelope n last,
      (Encryption.signThenEncryptStream source signer).run c recipients entropy =
          (.ok (envelope, n), last) →
        n = text.length ∧
        (∀ reader : Source, reader.bytes = envelope → reader.fault = none →
          (c'.decryptThenVerifyStream key verifiers reader).Delivers (.ok text.length) text ∧
            (c'.decryptStream key reader).Delivers (.ok text.length) text) ∧
        c'.decryptThenVerify envelope key verifiers = .ok text ∧
        c'.decrypt envelope key = .ok text ∧
        ∃ signature : Octets 64, c'.SignatureBehind envelope key signature.toBytes ∧
          ∀ reader : Source, reader.bytes = text → reader.fault = none →
            Signature.signStream reader signer = .ok signature ∧
              Signature.verifyStream reader signature.toBytes verifier = .ok () := by
  constructor
  · intro envelope n last hrun
    obtain ⟨-, header, offset, contentKey, signature, hlayout, hsignature, hreveals⟩ :=
      Encryption.exists_reveals hrun hkey hmem hunique hcommutes hfingerprint
    obtain ⟨s, hsign, rfl⟩ := map_eq_ok.mp hsignature
    have hsealed : header.layout = .sealed := (Except.ok.inj hlayout).symm
    have hvalid := Signature.verify_of_sign hsigner hown hsign
    apply EnvelopeCipher.decryptThenVerify_eq_ok.mpr
    refine ⟨header, offset, contentKey, s.toBytes, hreveals, verifier, hverifier, ?_⟩
    rw [hsealed]
    exact hvalid
  · rintro source rfl envelope n last hrun
    obtain ⟨hn, header, offset, contentKey, signature, hlayout, hsignature, hreveals⟩ :=
      Encryption.exists_reveals hrun hkey hmem hunique hcommutes hfingerprint
    obtain ⟨s, hsign, rfl⟩ := map_eq_ok.mp hsignature
    obtain ⟨size, -, hsize⟩ := map_eq_ok.mp hlayout
    have hstream : header.layout = .signedStream size := hsize.symm
    have hvalid := Signature.verify_of_sign hsigner hownDigest hsign
    have hdecrypt : c'.decrypt envelope key = .ok source.bytes :=
      EnvelopeCipher.decrypt_eq_ok.mpr ⟨_, _, _, _, hreveals⟩
    have hbehind : c'.SignedBehind envelope key verifiers source.bytes :=
      hreveals.signedBehind hstream ⟨verifier, hverifier, hvalid⟩
    refine ⟨hn, ?_, hbehind.accepts hdecrypt, hdecrypt, s, hreveals.signatureBehind hstream, ?_⟩
    · rintro reader rfl hreader
      constructor
      · exact (EnvelopeCipher.delivers_decryptThenVerifyStream hreader).mpr
          ⟨rfl, hdecrypt, hbehind⟩
      · exact hreveals.delivers_decryptStream hreader
    · intro reader hbytes hreader
      constructor
      · apply (Signature.signStream_eq_ok hreader).mpr
        rw [hbytes]
        exact hsign
      · apply (Signature.verifyStream_eq_ok hreader).mpr
        rw [hbytes]
        exact hvalid

section Sample

/-- The nonce and the challenge of the signature that the key of sevens makes over the text. -/
def textScalars : Nat × Nat :=
  (0x65bf46d3bc4507a3560b658f780a9432184566bbb7b424ebb3bbe4f73b28f52,
    0x309a31c77c40b10dc2aa967fc6a77012c0144e2936d714bd2bba73e4adbbebf)

/-- The nonce and the challenge of its signature over the digest of the text. -/
def digestScalars : Nat × Nat :=
  (0x3104e128987eac969a395cfe84da7d602c7374fe0903d7f5ed01a54cf3f0ec9,
    0xdc29a4b63b3ad18af6d80fa5c108118e8c37403f2db50ddd8609b645cea8901)

/-- The hashes that the signatures of the key of sevens are made of. -/
theorem hashes_sevens : ∀ signed ∈ [(shortText, textScalars),
      ((Sha512.digest shortText).toBytes, digestScalars)],
    Ed25519.hashToScalar
        ((Sha512.digest sevenKey.seed.toBytes).toBytes.drop 32 ++ signed.1) = signed.2.1 ∧
      Ed25519.hashToScalar ((EdwardsPoint.base.scale signed.2.1).toBytes.toBytes ++
        sevenPublicKey.bytes.toBytes ++ signed.1) = signed.2.2 := by
  obtain ⟨hdigest, -, hpublic⟩ := derived_sevens
  rw [hdigest, hpublic]
  decide +kernel

/-- Their responses lead back to their commitments. -/
theorem equations_sevens : ∃ point, sevenPublicKey.point .verify = .ok point ∧
    ∀ scalars ∈ [textScalars, digestScalars],
      ((EdwardsPoint.base.scale ((scalars.1 + scalars.2 * Ed25519.secretScalar sevenKey.seed) %
          Ed25519.groupOrder)).add (point.neg.scale scalars.2)).toBytes =
        (EdwardsPoint.base.scale scalars.1).toBytes := by
  have hholds : (match sevenPublicKey.point .verify with
      | .ok point => [textScalars, digestScalars].all fun scalars =>
          ((EdwardsPoint.base.scale ((scalars.1 + scalars.2 *
            Ed25519.secretScalar sevenKey.seed) % Ed25519.groupOrder)).add
              (point.neg.scale scalars.2)).toBytes = (EdwardsPoint.base.scale scalars.1).toBytes
      | .error _ => false) = true := by
    obtain ⟨-, hsecret, hpublic⟩ := derived_sevens
    rw [hpublic, hsecret]
    decide +kernel
  rcases hpoint : sevenPublicKey.point .verify with failure | point
  · rw [hpoint] at hholds
    cases hholds
  · rw [hpoint] at hholds
    simp only [List.all_eq_true, decide_eq_true_eq] at hholds
    exact ⟨point, rfl, hholds⟩

/-- Under its own key, the signatures of the key of sevens are valid. -/
theorem selfVerifies_sevenKey :
    SelfVerifies sevenKey shortText ∧
      SelfVerifies sevenKey (Sha512.digest shortText).toBytes := by
  obtain ⟨point, hpoint, hequations⟩ := equations_sevens
  have hall : ∀ signed ∈ [(shortText, textScalars),
      ((Sha512.digest shortText).toBytes, digestScalars)], SelfVerifies sevenKey signed.1 := by
    intro signed hsigned publicKey hkey
    rw [publicKey_sevenKey] at hkey
    cases hkey
    obtain ⟨hnonce, hchallenge⟩ := hashes_sevens signed hsigned
    have hscalars : signed.2 ∈ [textScalars, digestScalars] := List.mem_map_of_mem hsigned
    exact ⟨point, hpoint, (Ed25519.verify_sign hnonce hchallenge).mpr (hequations _ hscalars)⟩
  rw [List.forall_mem_cons, List.forall_mem_singleton] at hall
  exact hall

/-- Signed by the key that it is for, the text comes back from both forms. -/
theorem signed_round_trip_sevens :
    (∃ envelope last, (Encryption.signThenEncrypt shortText sevenKey).run cheapCipher
        [.key sevenPublicKey] sevens = (.ok (envelope, 3), last) ∧
      cheapCipher.decryptThenVerify envelope sevenKey [sevenPublicKey] = .ok shortText) ∧
    ∃ envelope last, (Encryption.signThenEncryptStream (.ofBytes shortText) sevenKey).run
        cheapCipher [.key sevenPublicKey] sevens = (.ok (envelope, 3), last) ∧
      (cheapCipher.decryptThenVerifyStream sevenKey [sevenPublicKey]
        (.ofBytes envelope)).Delivers (.ok 3) shortText := by
  obtain ⟨hown, hownDigest⟩ := selfVerifies_sevenKey
  have hempty := isEmpty_of_publicKey publicKey_sevenKey
  have hlength : shortText.length ≤ maxTextLength := by decide
  have hfits : SegmentKeys.Fits 0 (flagLast (Bytes.cut cheapCipher.stream.bufferSize.val
      (Source.ofBytes shortText).bytes)) := by
    rw [Source.bytes_ofBytes, Bytes.cut_of_length_le (by decide) (by decide)]
    exact ⟨by decide, by decide⟩
  obtain ⟨hbuffered, hstream⟩ := signed_round_trip publicKey_sevenKey
    (List.mem_singleton_self sevenPublicKey) hown hownDigest publicKey_sevenKey
    (List.mem_singleton_self _) unique_sevenPublicKey commutes_sevenKey rfl
  constructor
  · obtain ⟨envelope, last, hrun⟩ := exists_signThenEncrypt hempty rfl (by simp)
      wrappable_sevenPublicKey (by simp) hlength
    exact ⟨envelope, last, hrun, hbuffered envelope 3 last hrun⟩
  · obtain ⟨envelope, last, hrun⟩ := exists_signThenEncryptStream hempty rfl (by simp)
      wrappable_sevenPublicKey (by simp) rfl (by decide) hfits
    rw [Source.bytes_ofBytes] at hrun
    obtain ⟨-, hreader, -⟩ :=
      hstream (.ofBytes shortText) (Source.bytes_ofBytes _) envelope 3 last hrun
    exact ⟨envelope, last, hrun, (hreader _ (Source.bytes_ofBytes _) rfl).1⟩

end Sample

end SealedEnvelope
