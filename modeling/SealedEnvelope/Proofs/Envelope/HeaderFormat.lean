import SealedEnvelope.Proofs.Envelope.Production

/-!
The format of a header from both ends. What is written is read back exactly if the header is
one that may be read; no shorter piece of it is taken for a header; and whatever is built for
an envelope may be read, unless it is too long to be written. It makes no difference whether a
header is looked for in the whole data or in a stream, which is left right behind it.
-/

namespace SealedEnvelope

namespace EnvelopeHeader

/-- The headers that may be read: of the known version, with segments of a size that a reader will
hold, and with a signature only in front of a body that is sealed as a whole. -/
structure Readable (h : EnvelopeHeader) : Prop where
  version_eq : h.version = 1
  layout_cases : h.layout = .sealed ∨ ∃ size : UInt32, 1 ≤ size.toNat ∧
    size.toNat ≤ 16 * 1024 * 1024 ∧ (h.layout = .stream size ∨ h.layout = .signedStream size)
  signature_cases : h.signature = none ∨ h.layout = .sealed

/-- Both decoders find the header in front of the body: the one that is handed all bytes, and the
one that takes no more of a reader than the header. -/
structure FoundIn (h : EnvelopeHeader) (encoded body : Bytes) : Prop where
  decode_eq : decode (encoded ++ body) = .ok (h, encoded.length)
  readFrom_eq : ∀ source : Source, source.bytes = encoded ++ body → source.fault = none →
    ∃ next, readFrom source = (.ok (h, encoded), next) ∧ next.bytes = body ∧ next.fault = none

/-- Both decoders find that the data is no envelope. -/
structure Refused (data : Bytes) : Prop where
  decode_eq : ∃ fault, decode data = .error (.invalidFormat fault)
  readFrom_eq : ∀ source : Source, source.bytes = data → source.fault = none →
    ∃ fault next, readFrom source = (.error (.invalidFormat fault), next)

section Readable

variable {h : EnvelopeHeader}

theorem readable_iff : h.Readable ↔ h.fault? = none := by
  rw [fault?_eq_none]
  constructor
  · rintro ⟨hversion, hlayout, hsignature⟩
    refine ⟨hversion, fun size hsize => ?_⟩
    obtain hsealed | ⟨size', hpos, hle, hstream⟩ := hlayout
    · rw [hsealed] at hsize
      cases hsize
    · have hsome : h.layout.bufferSize? = some size'.toNat := by
        rcases hstream with hstream | hstream <;> rw [hstream] <;> rfl
      have hunsigned : h.layout ≠ .sealed := by
        rcases hstream with hstream | hstream <;> rw [hstream] <;> simp
      cases hsome.symm.trans hsize
      exact ⟨Nat.ne_of_gt hpos, hle, hsignature.resolve_right hunsigned⟩
  · rintro ⟨hversion, hlayout⟩
    cases hl : h.layout with
    | sealed => exact ⟨hversion, Or.inl hl, Or.inr hl⟩
    | stream size =>
        obtain ⟨hne, hle, hsignature⟩ := hlayout size.toNat (by rw [hl]; rfl)
        exact ⟨hversion, Or.inr ⟨size, Nat.pos_of_ne_zero hne, hle, Or.inl hl⟩, Or.inl hsignature⟩
    | signedStream size =>
        obtain ⟨hne, hle, hsignature⟩ := hlayout size.toNat (by rw [hl]; rfl)
        exact ⟨hversion, Or.inr ⟨size, Nat.pos_of_ne_zero hne, hle, Or.inr hl⟩, Or.inl hsignature⟩

theorem encode_eq_error :
    (∃ failure, h.encode = .error failure) ↔ maxHeaderLength < h.encodeMap.length := by
  simp only [encode]
  split
  case isTrue hle => simp [hle]
  case isFalse hlt => simpa using hlt

/-- The segment size of a header that may be read is one that ciphers have. -/
theorem Readable.exists_segmentCipher (hread : h.Readable) {size : UInt32}
    (hlayout : h.layout = .stream size ∨ h.layout = .signedStream size) :
    ∃ cipher, EnvelopeCipher.segmentCipher size = .ok cipher ∧
      cipher.bufferSize.val ≤ 16 * 1024 * 1024 := by
  obtain hsealed | ⟨size', hpos, hle, hlayout'⟩ := hread.layout_cases
  · rw [hsealed] at hlayout
    rcases hlayout with hlayout | hlayout <;> cases hlayout
  · have hsame : size' = size := by
      rcases hlayout with hlayout | hlayout <;> rcases hlayout' with hlayout' | hlayout' <;>
        rw [hlayout] at hlayout' <;> cases hlayout' <;> rfl
    subst hsame
    obtain ⟨cipher, hcipher, hsize⟩ := EnvelopeCipher.segmentCipher_eq_ok (Nat.ne_of_gt hpos) hle
    exact ⟨cipher, hcipher, hsize ▸ hle⟩

end Readable

section Found

theorem readable_of_ofCbor {encoded : Bytes} {h : EnvelopeHeader}
    (hdecode : ofCbor encoded = .ok h) : h.Readable := by
  rw [ofCbor] at hdecode
  split at hdecode
  case h_1 => cases hdecode
  case h_2 =>
    split at hdecode
    case h_1 => cases hdecode
    case h_2 hfault =>
      cases hdecode
      exact readable_iff.mpr hfault

theorem readable_of_readFrom {ρ : Type} [ByteReader ρ] {r next : ρ} {h : EnvelopeHeader}
    {encoded : Bytes} (hread : readFrom r = (.ok (h, encoded), next)) : h.Readable := by
  rw [readFrom] at hread
  split at hread
  case h_1 => cases hread
  case h_2 =>
    split at hread
    case h_1 => cases hread
    case h_2 =>
      split at hread
      case h_1 => cases hread
      case h_2 =>
        obtain ⟨hmap, -⟩ := Prod.mk.inj hread
        obtain ⟨h', hcbor, hsame⟩ := map_eq_ok.mp hmap
        cases hsame
        exact readable_of_ofCbor hcbor

/-- Only a header that may be read is found, and there is a place behind it. -/
theorem readable_of_decode {data : Bytes} {h : EnvelopeHeader} {offset : Nat}
    (hdecode : decode data = .ok (h, offset)) : h.Readable ∧ offset ≤ data.length := by
  simp only [decode] at hdecode
  split at hdecode
  case isTrue => cases hdecode
  case isFalse hfour =>
    obtain ⟨length, -, hdecode⟩ := bind_eq_ok.mp hdecode
    split at hdecode
    case isTrue => cases hdecode
    case isFalse hwhole =>
      obtain ⟨h', hcbor, hsame⟩ := bind_eq_ok.mp hdecode
      cases hsame
      refine ⟨readable_of_ofCbor hcbor, ?_⟩
      rw [List.length_take, List.length_drop] at hwhole
      rw [List.length_take] at hfour
      omega

end Found

section Decoders

variable {h : EnvelopeHeader} {encoded body data : Bytes}

/-- The decoder for readers fails wherever the other one does. -/
theorem refused_of_decode {fault : FormatFault}
    (hdecode : decode data = .error (.invalidFormat fault)) : Refused data := by
  refine ⟨⟨fault, hdecode⟩, ?_⟩
  rintro source rfl hfault
  rcases readFrom_cases Source.view ⟨rfl, hfault⟩ with
    ⟨header, offset, next, hok, -⟩ | ⟨_, fault', next, -, hread⟩
  · rw [hdecode] at hok
    cases hok
  · exact ⟨fault', next, hread⟩

theorem foundIn_of_decode (hdecode : decode (encoded ++ body) = .ok (h, encoded.length)) :
    h.FoundIn encoded body := by
  refine ⟨hdecode, ?_⟩
  intro source hsource hfault
  rcases readFrom_cases Source.view ⟨hsource, hfault⟩ with
    ⟨header, offset, next, hok, hread, hnext⟩ | ⟨fault, _, _, herror, -⟩
  · rw [hdecode] at hok
    cases hok
    rw [List.take_left] at hread
    rw [List.drop_left] at hnext
    exact ⟨next, hread, hnext⟩
  · rw [hdecode] at herror
    cases herror

theorem foundIn_of_encode (hencode : h.encode = .ok encoded) (hread : h.Readable) :
    h.FoundIn encoded body :=
  foundIn_of_decode (decode_encode hencode (readable_iff.mp hread) body)

theorem refused_of_encode (hencode : h.encode = .ok encoded) (hread : ¬ h.Readable) :
    Refused (encoded ++ body) := by
  rw [readable_iff] at hread
  obtain ⟨fault, hfault⟩ := Option.ne_none_iff_exists'.mp hread
  have hdecode := decode_written hencode body
  rw [hfault] at hdecode
  exact refused_of_decode hdecode

/-- The length in front tells how much is missing of a header that has been cut off. -/
theorem refused_of_prefix {front : Bytes} (hencode : h.encode = .ok encoded)
    (hfront : front <+: encoded) (hne : front ≠ encoded) : Refused front := by
  obtain ⟨hle, rfl⟩ := encode_eq_ok.mp hencode
  have hcut := List.prefix_iff_eq_take.mp hfront
  have hlength : front.length < 4 + h.encodeMap.length := by
    have hlt := lt_of_le_of_ne hfront.length_le fun hsame => hne (hfront.eq_of_length hsame)
    simpa using hlt
  rcases Nat.lt_or_ge front.length 4 with hshort | hfour
  · have hfield : (front.take 4).length < 4 := by simpa using hshort
    have hdecode : decode front = .error (.invalidFormat .envelopeTooShort) := by
      rw [decode, if_pos hfield]
      rfl
    exact refused_of_decode hdecode
  · have hfield : front.take 4 = Bytes.bigEndian 4 h.encodeMap.length := by
      rw [hcut, List.take_take, Nat.min_eq_left hfour]
      exact List.take_left' (by simp)
    have hrest : ((front.drop 4).take h.encodeMap.length).length < h.encodeMap.length := by
      rw [List.length_take, List.length_drop]
      omega
    have hdecode : decode front = .error (.invalidFormat .headerTruncated) := by
      rw [decode, hfield, if_neg (by simp)]
      simp only [lengthOf_bigEndian hle, bind, Except.bind, pure, Except.pure, if_pos hrest]
    exact refused_of_decode hdecode

end Decoders

/-- What any of the encryptors builds a header of may be read. -/
theorem readable_of_buildHeader {c : EnvelopeCipher} {request : Encryption} {layout : BodyLayout}
    {signature : Option (Octets 64)} {recipients : List Recipient} {e last : Entropy}
    {h : EnvelopeHeader} {contentKey : Octets 32} (hlayout : request.layout c = .ok layout)
    (hheader : c.buildHeader layout (layout.inHeader signature) recipients e =
      (.ok (h, contentKey), last)) : h.Readable :=
  readable_iff.mpr (Encryption.fault?_of_buildHeader hlayout hheader)

/-- A header that can be written, which is to say that is not too long, is found exactly in front of
any body if it may be read, and otherwise refused, as is any front part of it. What the encryptors
write may be read. -/
theorem header_codec_exact (h : EnvelopeHeader) :
    ((∃ failure, h.encode = .error failure) ↔ 1024 * 1024 < h.encodeMap.length) ∧
      (∀ encoded, h.encode = .ok encoded →
        (∀ body, (h.Readable → h.FoundIn encoded body) ∧
          (¬ h.Readable → Refused (encoded ++ body))) ∧
        ∀ front, front <+: encoded → front ≠ encoded → Refused front) ∧
      ∀ (c : EnvelopeCipher) (request : Encryption) (layout : BodyLayout)
        (signature : Option (Octets 64)) (recipients : List Recipient) (e last : Entropy)
        (contentKey : Octets 32) (encoded body : Bytes), request.layout c = .ok layout →
        c.buildHeader layout (layout.inHeader signature) recipients e =
          (.ok (h, contentKey), last) →
        h.encode = .ok encoded → h.FoundIn encoded body := by
  refine ⟨encode_eq_error, ?_, ?_⟩
  · intro encoded hencode
    refine ⟨fun body => ⟨foundIn_of_encode hencode, refused_of_encode hencode⟩, ?_⟩
    exact fun front hfront hne => refused_of_prefix hencode hfront hne
  · intro c request layout signature recipients e last contentKey encoded body hlayout hheader
      hencode
    exact foundIn_of_encode hencode (readable_of_buildHeader hlayout hheader)

/-- A stream for one key and one password. -/
def sampleHeader : EnvelopeHeader :=
  ⟨1, .stream 65536, ⟨List.replicate 12 7, rfl⟩,
    [.key ⟨[1, 2, 3]⟩ ⟨List.replicate 32 9, rfl⟩ [4, 5],
      .password ⟨List.replicate 16 200, rfl⟩ ⟨8, 1, 1⟩ []], none⟩

theorem header_codec_exact_sample :
    ∃ encoded, sampleHeader.encode = .ok encoded ∧ sampleHeader.FoundIn encoded [1, 2, 3] ∧
      Refused (encoded.take 100) := by
  have hle : sampleHeader.encodeMap.length ≤ maxHeaderLength := by decide +kernel
  have hlong : 100 < sampleHeader.encodeMap.length := by decide +kernel
  have hencode := encode_eq_ok.mpr ⟨hle, rfl⟩
  obtain ⟨-, hall, -⟩ := header_codec_exact sampleHeader
  obtain ⟨hbody, hfront⟩ := hall _ hencode
  have hread : sampleHeader.Readable :=
    ⟨rfl, Or.inr ⟨65536, by decide, by decide, Or.inl rfl⟩, Or.inl rfl⟩
  refine ⟨_, hencode, (hbody _).1 hread, hfront _ (List.take_prefix _ _) fun hsame => ?_⟩
  have hlength := congrArg List.length hsame
  simp only [List.length_take, List.length_append, Bytes.length_bigEndian] at hlength
  omega

section Consumption

variable {ρ : Type} [ByteReader ρ] (v : ReaderView ρ) {r : ρ} {data : Bytes}

/-- How far the header reaches, going by the length in front of it. A length that no header may
have counts for nothing. -/
def span (data : Bytes) : Nat :=
  let declared := Bytes.ofBigEndian (data.take 4)
  if declared ≤ maxHeaderLength then 4 + declared else 4

theorem span_le (data : Bytes) : span data ≤ 4 + Bytes.ofBigEndian (data.take 4) := by
  simp only [span]
  split <;> omega

theorem span_of_too_long (h : maxHeaderLength < Bytes.ofBigEndian (data.take 4)) :
    span data = 4 := by
  simp only [span]
  exact if_neg (Nat.not_le_of_gt h)

theorem four_le_span (data : Bytes) : 4 ≤ span data := by
  simp only [span]
  split <;> omega

/-- What is wanted is taken, or all there is, whether that is enough or not. -/
theorem holds_readExactly (h : v.Holds r data none) (n : Nat) :
    v.Holds (readExactly n r).2 (data.drop n) none := by
  rcases Nat.lt_or_ge data.length n with hless | hmore
  · obtain ⟨next, hfill, hnext, -⟩ := v.fill_of_lt h hless
    simp only [readExactly, hfill, if_pos hless]
    rw [List.drop_of_length_le hless.le]
    exact hnext
  · obtain ⟨next, hread, hnext⟩ := readExactly_of_le v h hmore
    rw [hread]
    exact hnext

/-- Successful or not, reading a header takes the bytes that it should reach over. -/
theorem holds_readFrom (h : v.Holds r data none) :
    v.Holds (readFrom r).2 (data.drop (span data)) none := by
  have hfield := holds_readExactly v h 4
  rw [readFrom]
  rcases Nat.lt_or_ge data.length 4 with hshort | hfour
  · obtain ⟨next, hread⟩ := readExactly_of_lt v h hshort
    have hspan := four_le_span data
    rw [hread, List.drop_of_length_le hshort.le] at hfield
    rw [hread, List.drop_of_length_le (by omega)]
    exact hfield
  · obtain ⟨next, hread, hnext⟩ := readExactly_of_le v h hfour
    rw [hread]
    dsimp only
    rcases Nat.lt_or_ge maxHeaderLength (Bytes.ofBigEndian (data.take 4)) with hlong | hle
    · rw [lengthOf, if_neg (Nat.not_le_of_gt hlong), span_of_too_long hlong]
      exact hnext
    · have hrest := holds_readExactly v hnext (Bytes.ofBigEndian (data.take 4))
      rw [List.drop_drop] at hrest
      rw [lengthOf, if_pos hle, span, if_pos hle]
      dsimp only
      rcases hlast : readExactly (Bytes.ofBigEndian (data.take 4)) next with ⟨result, last⟩
      rw [hlast] at hrest
      cases result <;> exact hrest

theorem exists_taken (h : v.Holds r data none) :
    ∃ taken rest, data = taken ++ rest ∧ v.Holds (readFrom r).2 rest none ∧
      taken.length ≤ 4 + Bytes.ofBigEndian (data.take 4) ∧
      (1024 * 1024 < Bytes.ofBigEndian (data.take 4) → taken.length ≤ 4) := by
  have hlength : (data.take (span data)).length ≤ span data := List.length_take_le _ _
  refine ⟨data.take (span data), data.drop (span data), (List.take_append_drop _ _).symm,
    holds_readFrom v h, hlength.trans (span_le data), ?_⟩
  intro hlong
  rw [span_of_too_long hlong] at hlength ⊢
  exact hlength

/-- The decoder of a whole envelope and the one that reads from a stream agree, however the stream
cuts up its bytes and wherever it is interrupted. They find the same header, and the stream is then
left exactly at the body; or both fail because the format is wrong. Reading never takes more than
the four bytes of the length and the header that they announce, and no more than those four if they
announce one that is too long. -/
theorem header_parsers_agree (h : v.Holds r data none) :
    (∀ header offset, decode data = .ok (header, offset) ↔
      offset ≤ data.length ∧ (readFrom r).1 = .ok (header, data.take offset)) ∧
    (∀ header offset, decode data = .ok (header, offset) →
      v.Holds (readFrom r).2 (data.drop offset) none) ∧
    ((∃ failure, decode data = .error failure) ↔ ∃ failure, (readFrom r).1 = .error failure) ∧
    (∀ failure, decode data = .error failure ∨ (readFrom r).1 = .error failure →
      ∃ fault, failure = .invalidFormat fault) ∧
    ∃ taken rest, data = taken ++ rest ∧ v.Holds (readFrom r).2 rest none ∧
      taken.length ≤ 4 + Bytes.ofBigEndian (data.take 4) ∧
      (1024 * 1024 < Bytes.ofBigEndian (data.take 4) → taken.length ≤ 4) := by
  have htaken := exists_taken v h
  rcases readFrom_cases v h with
    ⟨found, place, next, hdecode, hread, hnext⟩ | ⟨fault, fault', next, hdecode, hread⟩
  · obtain ⟨-, hplace⟩ := readable_of_decode hdecode
    rw [hread] at htaken ⊢
    rw [hdecode]
    refine ⟨?_, ?_, by simp, by simp, htaken⟩
    · intro header offset
      constructor
      · intro hsame
        cases hsame
        exact ⟨hplace, rfl⟩
      · rintro ⟨hle, hsame⟩
        obtain ⟨rfl, hfront⟩ := Prod.mk.inj (Except.ok.inj hsame)
        have hlength := congrArg List.length hfront
        rw [List.length_take_of_le hplace, List.length_take_of_le hle] at hlength
        rw [hlength]
    · intro header offset hsame
      cases hsame
      exact hnext
  · rw [hread] at htaken ⊢
    rw [hdecode]
    refine ⟨by simp, by simp, by simp, ?_, htaken⟩
    rintro failure (hsame | hsame)
    · cases hsame
      exact ⟨fault, rfl⟩
    · cases hsame
      exact ⟨fault', rfl⟩

end Consumption

/-- A source that delivers single bytes with an interruption before each. -/
def drip (data : Bytes) : Source := ⟨data.flatMap fun byte => [.interruption, .piece byte []], none⟩

theorem bytes_drip (data : Bytes) : (drip data).bytes = data := by
  rw [Source.bytes, drip, List.flatMap_assoc]
  exact List.flatMap_singleton' data

/-- One header that is found, and one that is announced with more bytes than a header may have. -/
theorem header_parsers_agree_drip :
    (∃ encoded, sampleHeader.encode = .ok encoded ∧
      (readFrom (drip (encoded ++ [1, 2, 3]))).1 = .ok (sampleHeader, encoded) ∧
      (readFrom (drip (encoded ++ [1, 2, 3]))).2.bytes = [1, 2, 3]) ∧
    (∃ fault, (readFrom (drip [0, 16, 0, 1, 5, 6])).1 = .error (.invalidFormat fault)) ∧
      2 ≤ (readFrom (drip [0, 16, 0, 1, 5, 6])).2.bytes.length := by
  constructor
  · have hle : sampleHeader.encodeMap.length ≤ maxHeaderLength := by decide +kernel
    have hencode := encode_eq_ok.mpr ⟨hle, rfl⟩
    have hfault : sampleHeader.fault? = none := by decide
    have hdecode := decode_encode hencode hfault [1, 2, 3]
    obtain ⟨hagree, hleft, -⟩ :=
      header_parsers_agree Source.view ⟨bytes_drip (_ ++ [1, 2, 3]), rfl⟩
    have hread := ((hagree _ _).mp hdecode).2
    have hrest := (hleft _ _ hdecode).1
    rw [List.take_left] at hread
    rw [List.drop_left] at hrest
    exact ⟨_, hencode, hread, hrest⟩
  · obtain ⟨-, -, hfail, hformat, taken, rest, hcut, hrest, -, hfew⟩ :=
      header_parsers_agree Source.view ⟨bytes_drip [0, 16, 0, 1, 5, 6], rfl⟩
    have hdecode : decode [0, 16, 0, 1, 5, 6] =
        .error (.invalidFormat (.headerLength 0x100001)) := by decide
    obtain ⟨failure, hread⟩ := hfail.mp ⟨_, hdecode⟩
    obtain ⟨fault, rfl⟩ := hformat failure (Or.inr hread)
    refine ⟨⟨fault, hread⟩, ?_⟩
    have hfour := hfew (by decide)
    have hlength := congrArg List.length hcut
    rw [List.length_append] at hlength
    rw [hrest.1]
    have hsix : ([0, 16, 0, 1, 5, 6] : Bytes).length = 6 := rfl
    omega

end EnvelopeHeader

end SealedEnvelope
