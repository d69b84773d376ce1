import SealedEnvelope.Proofs.Envelope.Agreement

/-!
Which envelopes are accepted with their signature. A signature is over the text where
it is kept in the header and over the digest of the text where it follows a stream,
and one verifier out of those given must have made it. What carries none is refused.
-/

namespace SealedEnvelope

namespace EnvelopeCipher

variable {c : EnvelopeCipher} {key : Ed25519PrivateKey} {verifiers : List Ed25519PublicKey}
  {data text : Bytes} {header : EnvelopeHeader} {offset : Nat} {contentKey : Octets 32}

theorem verifyAny_eq_ok {operation : Operation} {message signature : Bytes} :
    verifyAny operation message signature verifiers = .ok () ↔
      ∃ v ∈ verifiers, Signature.verify message signature v = .ok () := by
  have hany : (verifiers.any fun v => (Signature.verify message signature v).isOk) = true ↔
      ∃ v ∈ verifiers, Signature.verify message signature v = .ok () := by
    rw [List.any_eq_true]
    apply exists_congr
    intro v
    apply and_congr_right
    intro _
    cases Signature.verify message signature v with
    | error failure => simp [Except.isOk, Except.toBool]
    | ok _ => simp [Except.isOk, Except.toBool]
  rw [verifyAny, ← hany]
  split
  case isTrue h => simp [h]
  case isFalse h => simp [h]

/-- What the holder of the key finds in an envelope, whatever the operation. -/
structure Reveals (c : EnvelopeCipher) (data : Bytes) (key : Ed25519PrivateKey)
    (header : EnvelopeHeader) (offset : Nat) (contentKey : Octets 32) (text : Bytes)
    (signature : Option Bytes) : Prop where
  decode : EnvelopeHeader.decode data = .ok (header, offset)
  unwrap : ∀ operation, c.unwrapForKey operation key header = .ok contentKey
  collect : ∀ operation, (openBytes operation header (data.take offset) contentKey
    (data.drop offset)).collect = .ok (text, text.length, signature)

/-- One operation that succeeds is enough. -/
theorem Reveals.of_operation {operation : Operation} {signature : Option Bytes} {n : Nat}
    (hdecode : EnvelopeHeader.decode data = .ok (header, offset))
    (hunwrap : c.unwrapForKey operation key header = .ok contentKey)
    (hcollect : (openBytes operation header (data.take offset) contentKey
      (data.drop offset)).collect = .ok (text, n, signature)) :
    c.Reveals data key header offset contentKey text signature := by
  obtain rfl := length_of_collect_openBytes hcollect
  refine ⟨hdecode, fun other => ?_, fun other => ?_⟩
  · exact ((Credential.key key).alike_unwrap operation other c header).eq_ok_iff.mp hunwrap
  · exact (alike_openBytes operation other header _ contentKey _).collect.eq_ok_iff.mp hcollect

theorem decryptWith_eq_ok {operation : Operation} {signature : Option Bytes} :
    decryptWith operation (c.unwrapForKey operation key) data = .ok (header, text, signature) ↔
      ∃ offset contentKey, c.Reveals data key header offset contentKey text signature := by
  constructor
  · intro h
    rcases hdecode : EnvelopeHeader.decode data with failure | ⟨header', offset⟩
    · rw [decryptWith, hdecode] at h
      cases h
    · rw [decryptWith_of_decode hdecode, map_eq_ok] at h
      obtain ⟨⟨text', n, signature'⟩, hcollect, h⟩ := h
      cases h
      obtain ⟨header', offset', contentKey, hdecode', hunwrap, hopen⟩ :=
        collect_opening_eq_ok.mp hcollect
      rw [hdecode] at hdecode'
      cases hdecode'
      exact ⟨offset, contentKey, .of_operation hdecode hunwrap hopen⟩
  · rintro ⟨offset, contentKey, h⟩
    rw [decryptWith_of_decode h.decode, map_eq_ok]
    exact ⟨_, collect_opening_eq_ok.mpr ⟨header, offset, contentKey, h.decode, h.unwrap operation,
      h.collect operation⟩, rfl⟩

theorem decrypt_eq_ok : c.decrypt data key = .ok text ↔
    ∃ header offset contentKey signature,
      c.Reveals data key header offset contentKey text signature := by
  rw [decrypt, map_eq_ok]
  constructor
  · rintro ⟨⟨header, _, signature⟩, h, rfl⟩
    obtain ⟨offset, contentKey, h⟩ := decryptWith_eq_ok.mp h
    exact ⟨header, offset, contentKey, signature, h⟩
  · rintro ⟨header, offset, contentKey, signature, h⟩
    exact ⟨(header, text, signature), decryptWith_eq_ok.mpr ⟨offset, contentKey, h⟩, rfl⟩

theorem decryptThenVerify_eq_ok : c.decryptThenVerify data key verifiers = .ok text ↔
    ∃ header offset contentKey signature,
      c.Reveals data key header offset contentKey text (some signature) ∧
      ∃ v ∈ verifiers, Signature.verify (signedMessage header.layout text) signature v = .ok () := by
  rw [decryptThenVerify]
  cases verifiers with
  | nil => simp [bind, Except.bind]
  | cons first others =>
      change (decryptWith _ _ data >>= _) = _ ↔ _
      rw [bind_eq_ok]
      constructor
      · rintro ⟨⟨header, text', signature⟩, hopened, h⟩
        obtain ⟨offset, contentKey, hreveals⟩ := decryptWith_eq_ok.mp hopened
        cases signature with
        | none => cases h
        | some signature =>
            obtain ⟨_, hverify, h⟩ := bind_eq_ok.mp h
            cases h
            exact ⟨header, offset, contentKey, signature, hreveals, verifyAny_eq_ok.mp hverify⟩
      · rintro ⟨header, offset, contentKey, signature, hreveals, hverify⟩
        exact ⟨(header, text, some signature),
          decryptWith_eq_ok.mpr ⟨offset, contentKey, hreveals⟩,
          bind_eq_ok.mpr ⟨(), verifyAny_eq_ok.mpr hverify, rfl⟩⟩

/-- For the holder of the key, the header holds a signature over the text that is valid for one of
the verifiers. -/
def SignedInHeader (c : EnvelopeCipher) (data : Bytes) (key : Ed25519PrivateKey)
    (verifiers : List Ed25519PublicKey) (text : Bytes) : Prop :=
  ∃ header offset contentKey encrypted signature,
    EnvelopeHeader.decode data = .ok (header, offset) ∧ header.layout = .sealed ∧
    c.unwrapForKey .decrypt key header = .ok contentKey ∧ header.signature = some encrypted ∧
    openText .decrypt contentKey (signatureNonce header.nonce) signatureLabel encrypted =
      .ok signature ∧
    ∃ v ∈ verifiers, Signature.verify text signature v = .ok ()

/-- For the holder of the key, a signature over the digest of the text follows the segments, which
is valid for one of the verifiers. -/
def SignedBehind (c : EnvelopeCipher) (data : Bytes) (key : Ed25519PrivateKey)
    (verifiers : List Ed25519PublicKey) (text : Bytes) : Prop :=
  ∃ header offset size contentKey trailer signature,
    EnvelopeHeader.decode data = .ok (header, offset) ∧ header.layout = .signedStream size ∧
    c.unwrapForKey .decrypt key header = .ok contentKey ∧
    trailer? (data.drop offset) = some trailer ∧
    openText .decrypt contentKey (trailerNonce header.nonce)
      (boundTo trailerLabel (data.take offset)) trailer = .ok signature ∧
    ∃ v ∈ verifiers, Signature.verify (Sha512.digest text).toBytes signature v = .ok ()

/-- What an envelope reveals is settled. -/
theorem Reveals.unique {header' : EnvelopeHeader} {offset' : Nat} {contentKey' : Octets 32}
    {signature : Option Bytes} (h : c.Reveals data key header offset contentKey text signature)
    {operation : Operation} (hdecode : EnvelopeHeader.decode data = .ok (header', offset'))
    (hunwrap : c.unwrapForKey operation key header' = .ok contentKey') :
    header' = header ∧ offset' = offset ∧ contentKey' = contentKey := by
  rw [h.decode] at hdecode
  cases hdecode
  rw [h.unwrap operation] at hunwrap
  cases hunwrap
  exact ⟨rfl, rfl, rfl⟩

/-- What is revealed of a sealed envelope has the signature of the header. -/
theorem Reveals.signedInHeader {signature : Bytes}
    (h : c.Reveals data key header offset contentKey text (some signature))
    (hlayout : header.layout = .sealed)
    (hverify : ∃ v ∈ verifiers, Signature.verify text signature v = .ok ()) :
    c.SignedInHeader data key verifiers text := by
  obtain ⟨-, hsignature, -⟩ := (collect_openBytes_sealed hlayout).mp (h.collect .decrypt)
  cases hheader : header.signature with
  | none =>
      rw [hheader] at hsignature
      cases hsignature
  | some encrypted =>
      rw [hheader] at hsignature
      obtain ⟨opened, hopen, hsame⟩ := map_eq_ok.mp hsignature
      cases hsame
      exact ⟨header, offset, contentKey, encrypted, signature, h.decode, hlayout,
        h.unwrap .decrypt, hheader, hopen, hverify⟩

/-- What is revealed of a signed stream has the signature of the trailer. -/
theorem Reveals.signedBehind {signature : Bytes} {size : UInt32}
    (h : c.Reveals data key header offset contentKey text (some signature))
    (hlayout : header.layout = .signedStream size)
    (hverify : ∃ v ∈ verifiers,
      Signature.verify (Sha512.digest text).toBytes signature v = .ok ()) :
    c.SignedBehind data key verifiers text := by
  obtain ⟨cipher, trailer, opened, -, -, htrailer, hopen, hsame⟩ :=
    (collect_openBytes_signedStream hlayout).mp (h.collect .decrypt)
  cases hsame
  exact ⟨header, offset, size, contentKey, trailer, signature, h.decode, hlayout,
    h.unwrap .decrypt, htrailer, hopen, hverify⟩

/-- A stream without a signature reveals none. -/
theorem Reveals.signature_of_stream {signature : Option Bytes} {size : UInt32}
    (h : c.Reveals data key header offset contentKey text signature)
    (hlayout : header.layout = .stream size) : signature = none := by
  obtain ⟨_, -, -, hnone⟩ := (collect_openBytes_stream hlayout).mp (h.collect .decrypt)
  exact hnone

theorem SignedInHeader.accepts (hdecrypt : c.decrypt data key = .ok text)
    (h : c.SignedInHeader data key verifiers text) :
    c.decryptThenVerify data key verifiers = .ok text := by
  obtain ⟨header, offset, contentKey, signature, hreveals⟩ := decrypt_eq_ok.mp hdecrypt
  obtain ⟨_, _, _, encrypted, opened, hdecode, hlayout, hunwrap, hheader, hopen, hverify⟩ := h
  obtain ⟨rfl, rfl, rfl⟩ := hreveals.unique hdecode hunwrap
  obtain ⟨-, hsignature, -⟩ := (collect_openBytes_sealed hlayout).mp (hreveals.collect .decrypt)
  rw [hheader] at hsignature
  obtain ⟨opened', hopen', rfl⟩ := map_eq_ok.mp hsignature
  cases hopen.symm.trans hopen'
  refine decryptThenVerify_eq_ok.mpr ⟨_, _, _, opened, hreveals, ?_⟩
  rw [hlayout]
  exact hverify

theorem SignedBehind.accepts (hdecrypt : c.decrypt data key = .ok text)
    (h : c.SignedBehind data key verifiers text) :
    c.decryptThenVerify data key verifiers = .ok text := by
  obtain ⟨header, offset, contentKey, signature, hreveals⟩ := decrypt_eq_ok.mp hdecrypt
  obtain ⟨_, _, size, _, trailer, opened, hdecode, hlayout, hunwrap, htrailer, hopen, hverify⟩ := h
  obtain ⟨rfl, rfl, rfl⟩ := hreveals.unique hdecode hunwrap
  obtain ⟨cipher, trailer', opened', -, -, htrailer', hopen', rfl⟩ :=
    (collect_openBytes_signedStream hlayout).mp (hreveals.collect .decrypt)
  cases htrailer.symm.trans htrailer'
  cases hopen.symm.trans hopen'
  refine decryptThenVerify_eq_ok.mpr ⟨_, _, _, opened, hreveals, ?_⟩
  rw [hlayout]
  exact hverify

/-- Accepted is what decrypts and has a signature in its place that is valid for a verifier. -/
theorem accepts_iff : c.decryptThenVerify data key verifiers = .ok text ↔
    c.decrypt data key = .ok text ∧
      (c.SignedInHeader data key verifiers text ∨ c.SignedBehind data key verifiers text) := by
  constructor
  · intro h
    obtain ⟨header, offset, contentKey, signature, hreveals, hverify⟩ :=
      decryptThenVerify_eq_ok.mp h
    refine ⟨decrypt_eq_ok.mpr ⟨_, _, _, _, hreveals⟩, ?_⟩
    cases hlayout : header.layout with
    | sealed =>
        rw [hlayout] at hverify
        exact .inl (hreveals.signedInHeader hlayout hverify)
    | stream size =>
        cases hreveals.signature_of_stream hlayout
    | signedStream size =>
        rw [hlayout] at hverify
        exact .inr (hreveals.signedBehind hlayout hverify)
  · rintro ⟨hdecrypt, hsigned | hsigned⟩
    · exact hsigned.accepts hdecrypt
    · exact hsigned.accepts hdecrypt

/-- A source without a header in front is not accepted as a stream. -/
theorem decryptThenVerifyStream_of_error {source : Source} (hsource : source.fault = none)
    {failure : Failure} (hdecode : EnvelopeHeader.decode source.bytes = .error failure) :
    ∃ failure', c.decryptThenVerifyStream key verifiers source = .fail failure' := by
  have hholds := source.view_holds
  rw [hsource] at hholds
  rw [decryptThenVerifyStream]
  split
  · exact ⟨_, rfl⟩
  · rcases EnvelopeHeader.readFrom_cases Source.view hholds with
      ⟨_, _, _, hdecode', -⟩ | ⟨fault, fault', next, -, hread⟩
    · rw [hdecode] at hdecode'
      cases hdecode'
    · refine ⟨.invalidFormat fault', ?_⟩
      simp only [decryptStreamWith, hread]
      rfl

theorem not_delivers_fail {failure : Failure} {n : Nat} :
    ¬ (Emission.fail failure : Emission Nat).Delivers (.ok n) text := by
  rw [Emission.delivers_iff]
  rintro ⟨hending, -⟩
  cases hending

/-- As a stream, a source is accepted just where its bytes are, and hold a signed stream. -/
theorem delivers_decryptThenVerifyStream {source : Source} (hsource : source.fault = none)
    {n : Nat} :
    (c.decryptThenVerifyStream key verifiers source).Delivers (.ok n) text ↔
      n = text.length ∧ c.decrypt source.bytes key = .ok text ∧
        c.SignedBehind source.bytes key verifiers text := by
  rcases hdecode : EnvelopeHeader.decode source.bytes with failure | ⟨header, offset⟩
  · obtain ⟨failure', hfail⟩ : ∃ failure',
        c.decryptThenVerifyStream key verifiers source = .fail failure' :=
      decryptThenVerifyStream_of_error hsource hdecode
    rw [hfail]
    refine iff_of_false not_delivers_fail ?_
    rintro ⟨-, -, _, _, _, _, _, _, hok, -⟩
    rw [hdecode] at hok
    cases hok
  · by_cases hlayout : ∃ size, header.layout = .signedStream size
    · obtain ⟨size, hlayout⟩ := hlayout
      have hagrees : Agrees (c.decryptThenVerify source.bytes key verifiers)
          (c.decryptThenVerifyStream key verifiers source) :=
        decryptThenVerify_agrees hsource hdecode hlayout
      constructor
      · intro h
        obtain rfl := length_of_collect_decryptThenVerifyStream hsource hdecode hlayout
          (Emission.delivers_ok_iff.mp h)
        obtain ⟨hdecrypt, hsigned⟩ := accepts_iff.mp (hagrees.ok_iff.mpr h)
        refine ⟨rfl, hdecrypt, hsigned.resolve_left ?_⟩
        rintro ⟨_, _, _, _, _, hdecode', hsealed, -⟩
        rw [hdecode] at hdecode'
        cases hdecode'
        rw [hlayout] at hsealed
        cases hsealed
      · rintro ⟨rfl, hdecrypt, hsigned⟩
        exact hagrees.ok_iff.mp (hsigned.accepts hdecrypt)
    · rw [decryptThenVerifyStream_of_unsigned hsource hdecode (not_exists.mp hlayout)]
      refine iff_of_false not_delivers_fail ?_
      rintro ⟨-, -, header', _, size, _, _, _, hok, hstream, -⟩
      rw [hdecode] at hok
      cases hok
      exact hlayout ⟨size, hstream⟩

/-- Which verifiers there are settles the check, not their order and how often they are listed. -/
theorem verifyAny_congr {verifiers' : List Ed25519PublicKey}
    (h : ∀ v, v ∈ verifiers ↔ v ∈ verifiers') (operation : Operation) (message signature : Bytes) :
    verifyAny operation message signature verifiers =
      verifyAny operation message signature verifiers' := by
  have hany : (verifiers.any fun v => (Signature.verify message signature v).isOk) =
      verifiers'.any fun v => (Signature.verify message signature v).isOk := by
    rw [Bool.eq_iff_iff, List.any_eq_true, List.any_eq_true]
    simp only [h]
  rw [verifyAny, verifyAny, hany]

theorem isEmpty_congr {verifiers' : List Ed25519PublicKey}
    (h : ∀ v, v ∈ verifiers ↔ v ∈ verifiers') : verifiers.isEmpty = verifiers'.isEmpty := by
  rw [Bool.eq_iff_iff, List.isEmpty_iff, List.isEmpty_iff, List.eq_nil_iff_forall_not_mem,
    List.eq_nil_iff_forall_not_mem]
  simp only [h]

theorem decryptThenVerify_congr {verifiers' : List Ed25519PublicKey}
    (h : ∀ v, v ∈ verifiers ↔ v ∈ verifiers') :
    c.decryptThenVerify data key verifiers = c.decryptThenVerify data key verifiers' := by
  rw [decryptThenVerify, decryptThenVerify, isEmpty_congr h]
  simp only [verifyAny_congr h]

theorem decryptThenVerifyStream_congr {verifiers' : List Ed25519PublicKey}
    (h : ∀ v, v ∈ verifiers ↔ v ∈ verifiers') :
    c.decryptThenVerifyStream key verifiers = c.decryptThenVerifyStream key verifiers' := by
  funext source
  rw [decryptThenVerifyStream, decryptThenVerifyStream, isEmpty_congr h]
  simp only [verifyAny_congr h]

/-- What carries no signature is signed in neither place. -/
theorem not_signed_of_unsigned (hdecode : EnvelopeHeader.decode data = .ok (header, offset))
    (hunsigned : header.layout = .sealed ∧ header.signature = none ∨
      ∃ size, header.layout = .stream size) :
    ¬ c.SignedInHeader data key verifiers text ∧ ¬ c.SignedBehind data key verifiers text := by
  constructor
  · rintro ⟨_, _, _, encrypted, _, hdecode', hlayout, -, hheader, -⟩
    rw [hdecode] at hdecode'
    cases hdecode'
    rcases hunsigned with ⟨-, hnone⟩ | ⟨size, hstream⟩
    · rw [hnone] at hheader
      cases hheader
    · rw [hstream] at hlayout
      cases hlayout
  · rintro ⟨_, _, size, _, _, _, hdecode', hlayout, -⟩
    rw [hdecode] at hdecode'
    cases hdecode'
    rcases hunsigned with ⟨hsealed, -⟩ | ⟨size', hstream⟩
    · rw [hsealed] at hlayout
      cases hlayout
    · rw [hstream] at hlayout
      cases hlayout

theorem SignedInHeader.mono {verifiers' : List Ed25519PublicKey}
    (hsubset : ∀ v ∈ verifiers, v ∈ verifiers') (h : c.SignedInHeader data key verifiers text) :
    c.SignedInHeader data key verifiers' text := by
  obtain ⟨header, offset, contentKey, encrypted, signature, hdecode, hlayout, hunwrap, hheader,
    hopen, v, hv, hverify⟩ := h
  exact ⟨header, offset, contentKey, encrypted, signature, hdecode, hlayout, hunwrap, hheader,
    hopen, v, hsubset v hv, hverify⟩

theorem SignedBehind.mono {verifiers' : List Ed25519PublicKey}
    (hsubset : ∀ v ∈ verifiers, v ∈ verifiers') (h : c.SignedBehind data key verifiers text) :
    c.SignedBehind data key verifiers' text := by
  obtain ⟨header, offset, size, contentKey, trailer, signature, hdecode, hlayout, hunwrap,
    htrailer, hopen, v, hv, hverify⟩ := h
  exact ⟨header, offset, size, contentKey, trailer, signature, hdecode, hlayout, hunwrap,
    htrailer, hopen, v, hsubset v hv, hverify⟩

theorem SignedInHeader.verifiers_ne_nil (h : c.SignedInHeader data key verifiers text) :
    verifiers ≠ [] := by
  obtain ⟨_, _, _, _, _, -, -, -, -, -, v, hv, -⟩ := h
  exact List.ne_nil_of_mem hv

theorem SignedBehind.verifiers_ne_nil (h : c.SignedBehind data key verifiers text) :
    verifiers ≠ [] := by
  obtain ⟨_, _, _, _, _, _, -, -, -, -, -, v, hv, -⟩ := h
  exact List.ne_nil_of_mem hv

end EnvelopeCipher

/-- An envelope is accepted just if it decrypts, and its signature, which is over the text in a
header and over the digest of the text behind a signed stream, is valid for one of the verifiers;
as a stream, just if that is a signed stream. So none without a signature is. Of the list of
verifiers it only counts which ones are there, and more of them accept no less. -/
theorem acceptance_exact (c : EnvelopeCipher) (data : Bytes) (key : Ed25519PrivateKey)
    (verifiers : List Ed25519PublicKey) :
    (∀ text, c.decryptThenVerify data key verifiers = .ok text ↔
      verifiers ≠ [] ∧ c.decrypt data key = .ok text ∧
        (c.SignedInHeader data key verifiers text ∨ c.SignedBehind data key verifiers text)) ∧
    (∀ source : Source, source.bytes = data → source.fault = none → ∀ text n,
      (c.decryptThenVerifyStream key verifiers source).Delivers (.ok n) text ↔
        n = text.length ∧ verifiers ≠ [] ∧ c.decrypt data key = .ok text ∧
          c.SignedBehind data key verifiers text) ∧
    (∀ header offset, EnvelopeHeader.decode data = .ok (header, offset) →
      (header.layout = .sealed ∧ header.signature = none ∨ ∃ size, header.layout = .stream size) →
      (∀ text, c.decryptThenVerify data key verifiers ≠ .ok text) ∧
        ∀ source : Source, source.bytes = data → source.fault = none → ∀ text n,
          ¬ (c.decryptThenVerifyStream key verifiers source).Delivers (.ok n) text) ∧
    (∀ verifiers', (∀ v, v ∈ verifiers ↔ v ∈ verifiers') →
      c.decryptThenVerify data key verifiers = c.decryptThenVerify data key verifiers' ∧
        ∀ source, c.decryptThenVerifyStream key verifiers source =
          c.decryptThenVerifyStream key verifiers' source) ∧
    ∀ verifiers', (∀ v ∈ verifiers, v ∈ verifiers') →
      (∀ text, c.decryptThenVerify data key verifiers = .ok text →
        c.decryptThenVerify data key verifiers' = .ok text) ∧
      ∀ source : Source, source.bytes = data → source.fault = none → ∀ text n,
        (c.decryptThenVerifyStream key verifiers source).Delivers (.ok n) text →
          (c.decryptThenVerifyStream key verifiers' source).Delivers (.ok n) text := by
  refine ⟨?_, ?_, ?_, ?_, ?_⟩
  · intro text
    rw [EnvelopeCipher.accepts_iff]
    constructor
    · rintro ⟨hdecrypt, hsigned⟩
      refine ⟨?_, hdecrypt, hsigned⟩
      rcases hsigned with hsigned | hsigned
      · exact hsigned.verifiers_ne_nil
      · exact hsigned.verifiers_ne_nil
    · rintro ⟨-, hdecrypt, hsigned⟩
      exact ⟨hdecrypt, hsigned⟩
  · rintro source rfl hsource text n
    rw [EnvelopeCipher.delivers_decryptThenVerifyStream hsource]
    constructor
    · rintro ⟨hn, hdecrypt, hsigned⟩
      exact ⟨hn, hsigned.verifiers_ne_nil, hdecrypt, hsigned⟩
    · rintro ⟨hn, -, hdecrypt, hsigned⟩
      exact ⟨hn, hdecrypt, hsigned⟩
  · intro header offset hdecode hunsigned
    constructor
    · intro text h
      obtain ⟨-, hsigned | hsigned⟩ := EnvelopeCipher.accepts_iff.mp h
      · exact (EnvelopeCipher.not_signed_of_unsigned hdecode hunsigned).1 hsigned
      · exact (EnvelopeCipher.not_signed_of_unsigned hdecode hunsigned).2 hsigned
    · rintro source rfl hsource text n h
      obtain ⟨-, -, hsigned⟩ :=
        (EnvelopeCipher.delivers_decryptThenVerifyStream hsource).mp h
      exact (EnvelopeCipher.not_signed_of_unsigned hdecode hunsigned).2 hsigned
  · intro verifiers' hsame
    refine ⟨EnvelopeCipher.decryptThenVerify_congr hsame, fun source => ?_⟩
    rw [EnvelopeCipher.decryptThenVerifyStream_congr hsame]
  · intro verifiers' hsubset
    constructor
    · intro text h
      obtain ⟨hdecrypt, hsigned⟩ := EnvelopeCipher.accepts_iff.mp h
      exact EnvelopeCipher.accepts_iff.mpr
        ⟨hdecrypt, hsigned.imp (.mono hsubset) (.mono hsubset)⟩
    · rintro source rfl hsource text n h
      obtain ⟨hn, hdecrypt, hsigned⟩ :=
        (EnvelopeCipher.delivers_decryptThenVerifyStream hsource).mp h
      exact (EnvelopeCipher.delivers_decryptThenVerifyStream hsource).mpr
        ⟨hn, hdecrypt, hsigned.mono hsubset⟩

/-- An envelope that was made without a signature is not accepted, whoever the verifiers are. -/
theorem acceptance_exact_unsigned : ∃ envelope last,
    (Encryption.encrypt shortText).run cheapCipher [.password sevenPhrase] sevens =
        (.ok (envelope, 3), last) ∧
      ∀ (key : Ed25519PrivateKey) (verifiers : List Ed25519PublicKey) (text : Bytes),
        cheapCipher.decryptThenVerify envelope key verifiers ≠ .ok text := by
  obtain ⟨envelope, last, hrun⟩ := exists_encrypt_sevenPhrase ⟨8, 1, 1⟩ (by decide)
  obtain ⟨p, hproduce, -, rfl, -⟩ := Encryption.exists_production hrun
  have hvalid := Encryption.valid_of_produce hproduce
  obtain ⟨layout, signature, header, contentKey, encoded, hlayout, hsignature, hheader, -, rfl⟩ :=
    Encryption.produce_eq_ok.mp hproduce
  cases hlayout
  cases hsignature
  obtain ⟨-, -, hsealed, hnone, -⟩ := buildHeader_eq_ok hheader
  have hdecode := EnvelopeHeader.decode_encode hvalid.encodes hvalid.readable
    (Production.body ⟨header, contentKey, encoded, shortText, none⟩)
  refine ⟨_, last, hrun, ?_⟩
  intro key verifiers text
  obtain ⟨-, -, hunsigned, -⟩ := acceptance_exact cheapCipher _ key verifiers
  exact (hunsigned _ _ hdecode (.inl ⟨hsealed, hnone⟩)).1 text

end SealedEnvelope
