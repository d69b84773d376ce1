import SealedEnvelope.Proofs.Envelope.Body
import SealedEnvelope.Proofs.Envelope.HeaderCodec
import SealedEnvelope.Proofs.Envelope.Wrapping
import SealedEnvelope.Proofs.Segment.Pieces

/-!
The four ways to make an envelope, seen from what a run has used and made. The
output of a run that succeeds is the encoded header and the pieces of ciphertext
of the body, and the body decrypts to the text under the content key.
-/

namespace SealedEnvelope

/-- What the making of an envelope has used and made. -/
structure Production where
  header : EnvelopeHeader
  contentKey : Octets 32
  encodedHeader : Bytes
  text : Bytes
  signature : Option (Octets 64)

/-- The signature that goes into a header with this layout. -/
def BodyLayout.inHeader (layout : BodyLayout) (signature : Option (Octets 64)) :
    Option (Octets 64) :=
  match layout with
  | .sealed => signature
  | .stream _ | .signedStream _ => none

namespace Production

open EnvelopeCipher

def keys (p : Production) : SegmentKeys := bodyKeys p.contentKey p.header.nonce p.encodedHeader

/-- The text as it is cut into segments of a size. -/
def segments (p : Production) (size : UInt32) : List Segment :=
  flagLast (Bytes.cut size.toNat p.text)

def trailer (p : Production) : List Piece :=
  match p.signature with
  | some signature =>
      [⟨trailerNonce p.header.nonce, boundTo trailerLabel p.encodedHeader,
        Gcm.encrypt p.contentKey (trailerNonce p.header.nonce)
          (boundTo trailerLabel p.encodedHeader) signature.toBytes⟩]
  | none => []

/-- The ciphertext of the body, in order. -/
def bodyPieces (p : Production) : List Piece :=
  match p.header.layout with
  | .sealed =>
      [⟨p.header.nonce, p.keys.ad,
        Gcm.encrypt p.contentKey p.header.nonce p.keys.ad p.text⟩]
  | .stream size => p.keys.pieces 0 (p.keys.encryptFrom 0 (p.segments size))
  | .signedStream size => p.keys.pieces 0 (p.keys.encryptFrom 0 (p.segments size)) ++ p.trailer

def body (p : Production) : Bytes := p.bodyPieces.flatMap Piece.sealedText

def envelope (p : Production) : Bytes := p.encodedHeader ++ p.body

/-- The limits of the text. -/
def Fits (p : Production) : Prop :=
  match p.header.layout with
  | .sealed => p.text.length ≤ maxTextLength
  | .stream size | .signedStream size => SegmentKeys.Fits 0 (p.segments size)

/-- What holds of all that the four ways make. -/
structure Valid (p : Production) : Prop where
  encodes : p.header.encode = .ok p.encodedHeader
  readable : p.header.fault? = none
  signature_eq : p.header.signature = (p.header.layout.inHeader p.signature).map
    fun s => Gcm.encrypt p.contentKey (signatureNonce p.header.nonce) signatureLabel s.toBytes
  unsigned : ∀ size, p.header.layout = .stream size → p.signature = none
  signed : ∀ size, p.header.layout = .signedStream size → p.signature.isSome = true

/-- A production with this header, which is encoded. -/
def ofHeader (header : EnvelopeHeader) (contentKey : Octets 32) (text : Bytes)
    (signature : Option (Octets 64)) : Except Failure Production :=
  header.encode.map fun encoded => ⟨header, contentKey, encoded, text, signature⟩

theorem ofHeader_eq_ok {header : EnvelopeHeader} {contentKey : Octets 32} {text : Bytes}
    {signature : Option (Octets 64)} {p : Production} :
    ofHeader header contentKey text signature = .ok p ↔
      ∃ encoded, header.encode = .ok encoded ∧
        p = ⟨header, contentKey, encoded, text, signature⟩ := by
  rw [ofHeader, map_eq_ok]
  exact exists_congr fun encoded => and_congr_right fun _ => eq_comm

end Production

section Header

open EnvelopeCipher

variable {c : EnvelopeCipher}

theorem headerBufferSize_eq_ok {size : UInt32} :
    c.headerBufferSize = .ok size ↔
      c.stream.bufferSize.val ≤ maxStreamBufferSize ∧ size.toNat = c.stream.bufferSize.val := by
  have hmax : maxStreamBufferSize < UInt32.size := by decide
  simp only [headerBufferSize]
  split
  case isTrue hle =>
    have hsize : (UInt32.ofNat c.stream.bufferSize.val).toNat = c.stream.bufferSize.val :=
      UInt32.toNat_ofNat_of_lt' (by omega)
    constructor
    · intro h
      cases h
      exact ⟨hle, hsize⟩
    · rintro ⟨-, h⟩
      rw [← hsize] at h
      rw [UInt32.toNat_inj.mp h]
  case isFalse hlt => simp [hlt]

/-- A built header holds the first bytes drawn as its key, and an entry for each recipient. -/
theorem buildHeader_eq_ok {layout : BodyLayout} {signature : Option (Octets 64)}
    {recipients : List Recipient} {e last : Entropy} {header : EnvelopeHeader}
    {contentKey : Octets 32}
    (h : c.buildHeader layout signature recipients e = (.ok (header, contentKey), last)) :
    contentKey = e.peek 32 ∧ header.version = EnvelopeHeader.currentVersion ∧
      header.layout = layout ∧
      header.signature = signature.map (fun s => Gcm.encrypt contentKey
        (signatureNonce header.nonce) signatureLabel s.toBytes) ∧
      List.Forall₂ (RecipientEntry.MadeFor c.fingerprint c.passwordCosts contentKey e)
        recipients header.recipients := by
  simp only [buildHeader] at h
  split at h
  case isTrue =>
    obtain ⟨_, _, hfail, -⟩ := Random.bind_eq_ok.mp h
    cases (Random.lift_eq_ok.mp hfail).1
  case isFalse =>
    simp only [Random.bind_eq_ok, Random.draw_eq_ok] at h
    obtain ⟨K, second, ⟨-, rfl, rfl⟩, nonce, third, ⟨-, rfl, rfl⟩, entries, fourth, hentries,
      h⟩ := h
    cases h
    have hlater := (Entropy.Later.advance e 32).trans (Entropy.Later.advance _ 12)
    exact ⟨rfl, rfl, rfl, rfl, RecipientEntry.madeFor_of_mapM hlater hentries⟩

end Header

/-- Streams are encrypted with or without a signature. -/
def EnvelopeCipher.streaming (c : EnvelopeCipher) (signer : Option Ed25519PrivateKey)
    (recipients : List Recipient) : Random (Source → Emission Nat) :=
  match signer with
  | some signer => c.signThenEncryptStream signer recipients
  | none => c.encryptStream recipients

/-- A request to make an envelope. -/
inductive Encryption where
  | encrypt (data : Bytes)
  | signThenEncrypt (data : Bytes) (signer : Ed25519PrivateKey)
  | encryptStream (source : Source)
  | signThenEncryptStream (source : Source) (signer : Ed25519PrivateKey)

namespace Encryption

open EnvelopeCipher (boundTo bodyLabel trailerLabel trailerNonce bodyKeys pack)

variable (c : EnvelopeCipher) (recipients : List Recipient)

def text : Encryption → Bytes
  | .encrypt data | .signThenEncrypt data _ => data
  | .encryptStream source | .signThenEncryptStream source _ => source.bytes

/-- The envelope, and the length that is returned; the buffered forms return none, and that of
the text stands for it. -/
def run : Encryption → Random (Bytes × Nat)
  | .encrypt data => do return (← c.encrypt data recipients, data.length)
  | .signThenEncrypt data signer => do
      return (← c.signThenEncrypt data signer recipients, data.length)
  | .encryptStream source => do
      let emit ← c.encryptStream recipients
      Random.lift (emit source).collect
  | .signThenEncryptStream source signer => do
      let emit ← c.signThenEncryptStream signer recipients
      Random.lift (emit source).collect

def layout : Encryption → Except Failure BodyLayout
  | .encrypt _ | .signThenEncrypt _ _ => .ok .sealed
  | .encryptStream _ => c.headerBufferSize.map .stream
  | .signThenEncryptStream _ _ => c.headerBufferSize.map .signedStream

def signature : Encryption → Except Failure (Option (Octets 64))
  | .encrypt _ | .encryptStream _ => .ok none
  | .signThenEncrypt data signer => (Signature.sign data signer).map some
  | .signThenEncryptStream source signer =>
      (Signature.sign (Sha512.digest source.bytes).toBytes signer).map some

/-- What a run with the same randomness uses and makes. -/
def produce (request : Encryption) : Random Production := do
  let layout ← Random.lift (request.layout c)
  let signature ← Random.lift request.signature
  let (header, contentKey) ← c.buildHeader layout (layout.inHeader signature) recipients
  Random.lift (Production.ofHeader header contentKey request.text signature)

variable {c recipients}

theorem produce_eq_ok {request : Encryption} {e last : Entropy} {p : Production} :
    request.produce c recipients e = (.ok p, last) ↔
      ∃ layout signature header contentKey encoded, request.layout c = .ok layout ∧
        request.signature = .ok signature ∧
        c.buildHeader layout (layout.inHeader signature) recipients e =
          (.ok (header, contentKey), last) ∧
        header.encode = .ok encoded ∧
        p = ⟨header, contentKey, encoded, request.text, signature⟩ := by
  simp only [produce, Random.bind_eq_ok, Random.lift_eq_ok, Production.ofHeader_eq_ok]
  constructor
  · rintro ⟨layout, _, ⟨hlayout, rfl⟩, signature, _, ⟨hsignature, rfl⟩, ⟨header, contentKey⟩, _,
      hheader, ⟨encoded, hencoded, rfl⟩, rfl⟩
    exact ⟨layout, signature, header, contentKey, encoded, hlayout, hsignature, hheader, hencoded,
      rfl⟩
  · rintro ⟨layout, signature, header, contentKey, encoded, hlayout, hsignature, hheader,
      hencoded, rfl⟩
    exact ⟨layout, e, ⟨hlayout, rfl⟩, signature, e, ⟨hsignature, rfl⟩, (header, contentKey), last,
      hheader, ⟨encoded, hencoded, rfl⟩, rfl⟩

/-- A layout that is written has a segment size that may be read, if any. -/
theorem bufferSize_of_layout {request : Encryption} {layout : BodyLayout}
    (h : request.layout c = .ok layout) {size : Nat} (hsize : layout.bufferSize? = some size) :
    size = c.stream.bufferSize.val ∧ size ≤ maxStreamBufferSize := by
  cases request with
  | encrypt data =>
      cases h
      cases hsize
  | signThenEncrypt data signer =>
      cases h
      cases hsize
  | encryptStream source =>
      obtain ⟨size', hok, rfl⟩ := map_eq_ok.mp h
      obtain ⟨hle, hval⟩ := headerBufferSize_eq_ok.mp hok
      cases hsize
      exact ⟨hval, hval ▸ hle⟩
  | signThenEncryptStream source signer =>
      obtain ⟨size', hok, rfl⟩ := map_eq_ok.mp h
      obtain ⟨hle, hval⟩ := headerBufferSize_eq_ok.mp hok
      cases hsize
      exact ⟨hval, hval ▸ hle⟩

/-- A stream is not signed, and a signed stream is. -/
theorem signature_of_layout {request : Encryption} {layout : BodyLayout}
    {signature : Option (Octets 64)} (hlayout : request.layout c = .ok layout)
    (hsignature : request.signature = .ok signature) :
    (∀ size, layout = .stream size → signature = none) ∧
      ∀ size, layout = .signedStream size → signature.isSome = true := by
  cases request with
  | encrypt data =>
      cases hlayout
      exact ⟨nofun, nofun⟩
  | signThenEncrypt data signer =>
      cases hlayout
      exact ⟨nofun, nofun⟩
  | encryptStream source =>
      obtain ⟨size, -, rfl⟩ := map_eq_ok.mp hlayout
      cases hsignature
      exact ⟨fun _ _ => rfl, nofun⟩
  | signThenEncryptStream source signer =>
      obtain ⟨size, -, rfl⟩ := map_eq_ok.mp hlayout
      obtain ⟨s, -, rfl⟩ := map_eq_ok.mp hsignature
      exact ⟨nofun, fun _ _ => rfl⟩

/-- Nothing is wrong with a header that is built for a request. -/
theorem fault?_of_buildHeader {request : Encryption} {layout : BodyLayout}
    {signature : Option (Octets 64)} {e last : Entropy} {header : EnvelopeHeader}
    {contentKey : Octets 32} (hlayout : request.layout c = .ok layout)
    (hheader : c.buildHeader layout (layout.inHeader signature) recipients e =
      (.ok (header, contentKey), last)) : header.fault? = none := by
  obtain ⟨-, hversion, rfl, hencrypted, -⟩ := buildHeader_eq_ok hheader
  apply EnvelopeHeader.fault?_eq_none.mpr
  refine ⟨hversion, fun size hsize => ?_⟩
  obtain ⟨hval, hle⟩ := bufferSize_of_layout hlayout hsize
  refine ⟨hval ▸ c.stream.bufferSize.pos.ne', hle, ?_⟩
  rw [hencrypted]
  cases hl : header.layout with
  | sealed =>
      rw [hl] at hsize
      cases hsize
  | stream size => rfl
  | signedStream size => rfl

theorem valid_of_produce {request : Encryption} {e last : Entropy} {p : Production}
    (h : request.produce c recipients e = (.ok p, last)) : p.Valid := by
  obtain ⟨layout, signature, header, contentKey, encoded, hlayout, hsignature, hheader, hencoded,
    rfl⟩ := produce_eq_ok.mp h
  have hreadable := fault?_of_buildHeader hlayout hheader
  obtain ⟨-, -, rfl, hencrypted, -⟩ := buildHeader_eq_ok hheader
  obtain ⟨hunsigned, hsigned⟩ := signature_of_layout hlayout hsignature
  exact ⟨hencoded, hreadable, hencrypted, hunsigned, hsigned⟩

/-- A production holds the first bytes drawn as its key, wrapped for each of the recipients. -/
theorem recipients_of_produce {request : Encryption} {e last : Entropy} {p : Production}
    (h : request.produce c recipients e = (.ok p, last)) :
    p.contentKey = e.peek 32 ∧ p.text = request.text ∧
      List.Forall₂ (RecipientEntry.MadeFor c.fingerprint c.passwordCosts p.contentKey e)
        recipients p.header.recipients := by
  obtain ⟨layout, signature, header, contentKey, encoded, -, -, hheader, -, rfl⟩ :=
    produce_eq_ok.mp h
  obtain ⟨hkey, -, -, -, hmade⟩ := buildHeader_eq_ok hheader
  exact ⟨hkey, rfl, hmade⟩

theorem pack_eq_ok {data E : Bytes} {signature : Option (Octets 64)} {e last : Entropy}
    (h : c.pack data signature recipients e = (.ok E, last)) :
    ∃ header contentKey encoded,
      c.buildHeader .sealed signature recipients e = (.ok (header, contentKey), last) ∧
      header.encode = .ok encoded ∧ data.length ≤ maxTextLength ∧
      E = encoded ++ Gcm.encrypt contentKey header.nonce (boundTo bodyLabel encoded) data := by
  simp only [pack, Random.bind_eq_ok, Random.lift_eq_ok, sealText_eq_ok] at h
  obtain ⟨⟨header, contentKey⟩, _, hheader, encoded, _, ⟨hencoded, rfl⟩, body, _,
    ⟨⟨hle, rfl⟩, rfl⟩, h⟩ := h
  cases h
  exact ⟨header, contentKey, encoded, hheader, hencoded, hle, rfl⟩

theorem write_bind_of_ok {header : EnvelopeHeader} {encoded : Bytes}
    (h : header.encode = .ok encoded) (rest : Bytes → Emission Nat) :
    header.write >>= rest =
      ⟨.write .writeHeader encoded :: (rest encoded).steps, (rest encoded).ending⟩ := by
  have hwrite : header.write = ⟨[.write .writeHeader encoded], .ok encoded⟩ := by
    rw [EnvelopeHeader.write, h]
    rfl
  rw [hwrite, Emission.bind_of_ok rfl, List.singleton_append]

theorem write_bind_of_error {header : EnvelopeHeader} {failure : Failure}
    (h : header.encode = .error failure) (rest : Bytes → Emission Nat) :
    header.write >>= rest = .fail failure := by
  rw [EnvelopeHeader.write, h]
  rfl

theorem collect_write_bind {header : EnvelopeHeader} {rest : Bytes → Emission Nat} {E : Bytes}
    {n : Nat} :
    (header.write >>= rest).collect = .ok (E, n) ↔
      ∃ encoded body, header.encode = .ok encoded ∧ (rest encoded).collect = .ok (body, n) ∧
        E = encoded ++ body := by
  cases hencode : header.encode with
  | error failure =>
      rw [write_bind_of_error hencode]
      simp [Emission.collect_of_error]
  | ok encoded =>
      rw [write_bind_of_ok hencode, Emission.collect_eq_ok]
      simp only [Emission.collect_eq_ok]
      constructor
      · rintro ⟨hending, rfl⟩
        exact ⟨encoded, _, rfl, ⟨hending, rfl⟩, rfl⟩
      · rintro ⟨_, _, hsame, ⟨hending, rfl⟩, rfl⟩
        cases hsame
        exact ⟨hending, rfl⟩

theorem encryptStream_eq_ok {emit : Source → Emission Nat} {e last : Entropy}
    (h : c.encryptStream recipients e = (.ok emit, last)) :
    ∃ size header contentKey, c.headerBufferSize = .ok size ∧
      c.buildHeader (.stream size) none recipients e = (.ok (header, contentKey), last) ∧
      emit = (fun source => do
        let encoded ← header.write
        c.stream.encrypt (bodyKeys contentKey header.nonce encoded) source) := by
  simp only [EnvelopeCipher.encryptStream, Random.bind_eq_ok, Random.lift_eq_ok] at h
  obtain ⟨size, _, ⟨hsize, rfl⟩, ⟨header, contentKey⟩, _, hheader, h⟩ := h
  cases h
  exact ⟨size, header, contentKey, hsize, hheader, rfl⟩

theorem signThenEncryptStream_eq_ok {emit : Source → Emission Nat}
    {signer : Ed25519PrivateKey} {e last : Entropy}
    (h : c.signThenEncryptStream signer recipients e = (.ok emit, last)) :
    signer.isEmpty = false ∧ ∃ size header contentKey, c.headerBufferSize = .ok size ∧
      c.buildHeader (.signedStream size) none recipients e = (.ok (header, contentKey), last) ∧
      emit = (fun source => do
        let encoded ← header.write
        let run := c.stream.plainRun source
        let consumed ← StreamCipher.encryptRun (bodyKeys contentKey header.nonce encoded) run
        let signature ← .ofExcept (Signature.sign (Sha512.digest run.text).toBytes signer)
        .write .signThenEncryptStream (Gcm.encrypt contentKey (trailerNonce header.nonce)
          (boundTo trailerLabel encoded) signature.toBytes)
        .flush .signThenEncryptStream
        pure consumed) := by
  simp only [EnvelopeCipher.signThenEncryptStream, Random.bind_eq_ok, Random.lift_eq_ok] at h
  obtain ⟨seed, _, ⟨hseed, rfl⟩, size, _, ⟨hsize, rfl⟩, ⟨header, contentKey⟩, _, hheader, h⟩ := h
  cases h
  exact ⟨(usableSeed_eq_ok.mp hseed).1, size, header, contentKey, hsize, hheader, rfl⟩

theorem production_of_pack (request : Encryption) {signature : Option (Octets 64)}
    {e last : Entropy} {E : Bytes} (hlayout : request.layout c = .ok .sealed)
    (hsignature : request.signature = .ok signature)
    (h : c.pack request.text signature recipients e = (.ok E, last)) :
    ∃ p, request.produce c recipients e = (.ok p, last) ∧ p.Fits ∧ p.envelope = E := by
  obtain ⟨header, contentKey, encoded, hheader, hencoded, hle, rfl⟩ := pack_eq_ok h
  have hsealed := (buildHeader_eq_ok hheader).2.2.1
  refine ⟨_, produce_eq_ok.mpr ⟨.sealed, signature, header, contentKey, encoded, hlayout,
    hsignature, hheader, hencoded, rfl⟩, ?_, ?_⟩
  · simpa only [Production.Fits, hsealed] using hle
  · simp [Production.envelope, Production.body, Production.bodyPieces, hsealed, Production.keys,
      bodyKeys]

theorem production_of_encryptStream {source : Source} {e last : Entropy} {E : Bytes} {n : Nat}
    (h : (Encryption.encryptStream source).run c recipients e = (.ok (E, n), last)) :
    ∃ p, (Encryption.encryptStream source).produce c recipients e = (.ok p, last) ∧ p.Fits ∧
      p.envelope = E ∧ n = source.bytes.length := by
  obtain ⟨emit, _, hemit, h⟩ := Random.bind_eq_ok.mp h
  obtain ⟨hcollect, rfl⟩ := Random.lift_eq_ok.mp h
  obtain ⟨size, header, contentKey, hsize, hheader, rfl⟩ := encryptStream_eq_ok hemit
  obtain ⟨encoded, body, hencoded, hbody, rfl⟩ := collect_write_bind.mp hcollect
  obtain ⟨-, hfits, rfl, rfl⟩ := (c.stream.collect_encryptRun_plainRun _).mp hbody
  have hlayout := (buildHeader_eq_ok hheader).2.2.1
  have hval := (headerBufferSize_eq_ok.mp hsize).2
  refine ⟨_, produce_eq_ok.mpr ⟨.stream size, none, header, contentKey, encoded,
    map_eq_ok.mpr ⟨size, hsize, rfl⟩, rfl, hheader, hencoded, rfl⟩, ?_, ?_, rfl⟩
  · simpa only [Production.Fits, hlayout, Production.segments, hval, text] using hfits
  · simp [Production.envelope, Production.body, Production.bodyPieces, hlayout, text,
      Production.keys, Production.segments, SegmentKeys.flatMap_pieces, hval]

/-- A signed body is the encrypted segments of the text, then what `trailer` makes of the
signature over its digest. -/
theorem collect_signedBody {keys : SegmentKeys} {trailer : Octets 64 → Bytes} {source : Source}
    {signer : Ed25519PrivateKey} {body : Bytes} {n : Nat} :
    Emission.collect (do
      let consumed ← StreamCipher.encryptRun keys (c.stream.plainRun source)
      let signature ← .ofExcept
        (Signature.sign (Sha512.digest (c.stream.plainRun source).text).toBytes signer)
      .write .signThenEncryptStream (trailer signature)
      .flush .signThenEncryptStream
      pure consumed) = .ok (body, n) ↔
    ∃ signature, source.fault = none ∧
      Signature.sign (Sha512.digest source.bytes).toBytes signer = .ok signature ∧
      SegmentKeys.Fits 0 (flagLast (Bytes.cut c.stream.bufferSize.val source.bytes)) ∧
      body = (keys.encryptFrom 0 (flagLast
        (Bytes.cut c.stream.bufferSize.val source.bytes))).flatMap Segment.text ++
          trailer signature ∧
      n = source.bytes.length := by
  have htext (hfault : source.fault = none) : (c.stream.plainRun source).text = source.bytes := by
    have hholds := source.view_holds
    rw [hfault] at hholds
    rw [StreamCipher.plainRun_eq Source.view c.stream hholds, SegmentRun.text, text_flagLast,
      Bytes.flatten_cut c.stream.bufferSize.pos]
  simp only [Emission.collect_bind_eq_ok, Emission.collect_ofExcept_eq_ok,
    Emission.collect_write, Emission.collect_flush, Emission.collect_pure,
    StreamCipher.collect_encryptRun_plainRun]
  constructor
  · rintro ⟨segments, consumed, rest, ⟨hfault, hfits, rfl, rfl⟩, ⟨_, signature, _, ⟨hsign, rfl⟩,
      ⟨_, _, _, hwrite, ⟨_, _, _, hflush, hpure, rfl⟩, rfl⟩, rfl⟩, rfl⟩
    cases hwrite
    cases hflush
    cases hpure
    rw [htext hfault] at hsign
    exact ⟨signature, hfault, hsign, hfits, by simp, rfl⟩
  · rintro ⟨signature, hfault, hsign, hfits, rfl, rfl⟩
    rw [← htext hfault] at hsign
    exact ⟨_, _, trailer signature, ⟨hfault, hfits, rfl, rfl⟩, ⟨[], signature, _, ⟨hsign, rfl⟩,
      ⟨_, (), [], rfl, ⟨[], (), [], rfl, rfl, rfl⟩, by simp⟩, rfl⟩, rfl⟩

theorem production_of_signThenEncryptStream {source : Source} {signer : Ed25519PrivateKey}
    {e last : Entropy} {E : Bytes} {n : Nat}
    (h : (Encryption.signThenEncryptStream source signer).run c recipients e =
      (.ok (E, n), last)) :
    ∃ p, (Encryption.signThenEncryptStream source signer).produce c recipients e =
        (.ok p, last) ∧ p.Fits ∧ p.envelope = E ∧ n = source.bytes.length := by
  obtain ⟨emit, _, hemit, h⟩ := Random.bind_eq_ok.mp h
  obtain ⟨hcollect, rfl⟩ := Random.lift_eq_ok.mp h
  obtain ⟨-, size, header, contentKey, hsize, hheader, rfl⟩ := signThenEncryptStream_eq_ok hemit
  obtain ⟨encoded, body, hencoded, hbody, rfl⟩ := collect_write_bind.mp hcollect
  obtain ⟨s, -, hsign, hfits, rfl, rfl⟩ := collect_signedBody.mp hbody
  have hlayout := (buildHeader_eq_ok hheader).2.2.1
  have hval := (headerBufferSize_eq_ok.mp hsize).2
  refine ⟨_, produce_eq_ok.mpr ⟨.signedStream size, some s, header, contentKey, encoded,
    map_eq_ok.mpr ⟨size, hsize, rfl⟩, map_eq_ok.mpr ⟨s, hsign, rfl⟩, hheader, hencoded, rfl⟩,
    ?_, ?_, rfl⟩
  · simpa only [Production.Fits, hlayout, Production.segments, hval, text] using hfits
  · simp [Production.envelope, Production.body, Production.bodyPieces, hlayout, text,
      Production.keys, Production.segments, SegmentKeys.flatMap_pieces, hval, Production.trailer]

/-- The output of a run that succeeds is the envelope of its production, whose text has been
consumed. -/
theorem exists_production {request : Encryption} {e last : Entropy} {E : Bytes} {n : Nat}
    (h : request.run c recipients e = (.ok (E, n), last)) :
    ∃ p, request.produce c recipients e = (.ok p, last) ∧ p.Fits ∧ p.envelope = E ∧
      n = request.text.length := by
  cases request with
  | encrypt data =>
      obtain ⟨out, _, hpack, h⟩ := Random.bind_eq_ok.mp h
      cases h
      obtain ⟨p, hproduce, hfits, henvelope⟩ :=
        production_of_pack (.encrypt data) rfl rfl hpack
      exact ⟨p, hproduce, hfits, henvelope, rfl⟩
  | signThenEncrypt data signer =>
      obtain ⟨out, _, hsign, h⟩ := Random.bind_eq_ok.mp h
      cases h
      obtain ⟨s, _, hlift, hpack⟩ := Random.bind_eq_ok.mp hsign
      obtain ⟨hs, rfl⟩ := Random.lift_eq_ok.mp hlift
      obtain ⟨p, hproduce, hfits, henvelope⟩ :=
        production_of_pack (.signThenEncrypt data signer) rfl
          (map_eq_ok.mpr ⟨s, hs, rfl⟩) hpack
      exact ⟨p, hproduce, hfits, henvelope, rfl⟩
  | encryptStream source => exact production_of_encryptStream h
  | signThenEncryptStream source signer => exact production_of_signThenEncryptStream h

section Streams

/-- A stream to be signed or not. -/
def streamed (signer : Option Ed25519PrivateKey) (source : Source) : Encryption :=
  match signer with
  | some signer => .signThenEncryptStream source signer
  | none => .encryptStream source

variable {signer : Option Ed25519PrivateKey} {source : Source} {emit : Source → Emission Nat}
  {e last : Entropy} {envelope : Bytes} {n : Nat}

theorem text_streamed : (streamed signer source).text = source.bytes := by
  cases signer <;> rfl

/-- All that is random has been drawn when the source is asked. -/
theorem run_streamed (h : c.streaming signer recipients e = (.ok emit, last)) :
    (streamed signer source).run c recipients e = (.ok (envelope, n), last) ↔
      (emit source).collect = .ok (envelope, n) := by
  have hrun : (streamed signer source).run c recipients = (do
      let emit ← c.streaming signer recipients
      Random.lift (emit source).collect) := by
    cases signer <;> rfl
  rw [hrun, Random.bind_apply, h]
  exact Random.lift_eq_ok.trans (and_iff_left rfl)

end Streams

end Encryption

end SealedEnvelope
