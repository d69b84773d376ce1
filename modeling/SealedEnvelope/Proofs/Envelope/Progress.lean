import SealedEnvelope.Proofs.Envelope.Production

/-!
When making an envelope succeeds. Encoded entries are short, so a header holds at
least two thousand of them; a recipient can be wrapped for as long as randomness
lasts; and a text that fits is then encrypted.
-/

namespace SealedEnvelope

open Cbor

section Lengths

theorem length_encodeHead_le (major n : Nat) : (encodeHead major n).length ≤ 9 := by
  rw [encodeHead]
  split_ifs <;> simp

theorem length_encodeByteList_le (bytes : Bytes) :
    (encodeByteList bytes).length ≤ 9 + 2 * bytes.length := by
  have hbyte (byte : UInt8) : (encodeUnsigned byte.toNat).length ≤ 2 := by
    have hlt := byte.toNat_lt
    rw [encodeUnsigned, encodeHead]
    split_ifs <;> simp at *
  have hall : (bytes.flatMap fun byte => encodeUnsigned byte.toNat).length ≤ 2 * bytes.length := by
    induction bytes with
    | nil => exact Nat.le_refl _
    | cons byte bytes ih =>
        have hfirst := hbyte byte
        rw [List.flatMap_cons, List.length_append, List.length_cons]
        omega
  have hhead := length_encodeHead_le 4 bytes.length
  rw [encodeByteList, List.length_append]
  omega

theorem length_encodeText_le (text : Bytes) : (encodeText text).length ≤ 9 + text.length := by
  have hhead := length_encodeHead_le 3 text.length
  rw [encodeText, List.length_append]
  omega

theorem length_encodeMap_le (entries : List (Bytes × Bytes)) :
    (Cbor.encodeMap entries).length ≤
      9 + (entries.map fun entry => 9 + entry.1.length + entry.2.length).sum := by
  have hhead := length_encodeHead_le 5 entries.length
  have hall (entries : List (Bytes × Bytes)) :
      (entries.flatMap fun entry => encodeText entry.1 ++ entry.2).length ≤
        (entries.map fun entry => 9 + entry.1.length + entry.2.length).sum := by
    induction entries with
    | nil => exact Nat.le_refl _
    | cons entry entries ih =>
        have hkey := length_encodeText_le entry.1
        rw [List.flatMap_cons, List.length_append, List.length_append, List.map_cons,
          List.sum_cons]
        omega
  rw [Cbor.encodeMap, List.length_append]
  exact Nat.add_le_add hhead (hall entries)

theorem length_encodeLayout_le (layout : BodyLayout) : layout.encode.length ≤ 100 := by
  have hnames := headerNames_short
  simp only [headerNames, List.forall_mem_cons] at hnames
  cases layout with
  | sealed =>
      have htext := length_encodeText_le (nameBytes "Sealed")
      rw [BodyLayout.encode]
      omega
  | stream size =>
      have hsize := length_encodeHead_le 0 size.toNat
      have hinner := length_encodeMap_le [(nameBytes "buffer_size", encodeUnsigned size.toNat)]
      have houter := length_encodeMap_le [(nameBytes "Stream", Cbor.encodeMap
        [(nameBytes "buffer_size", encodeUnsigned size.toNat)])]
      simp only [List.map_cons, List.map_nil, List.sum_cons, List.sum_nil, encodeUnsigned] at *
      rw [BodyLayout.encode, BodyLayout.encode.encodeVariant, encodeUnsigned]
      omega
  | signedStream size =>
      have hsize := length_encodeHead_le 0 size.toNat
      have hinner := length_encodeMap_le [(nameBytes "buffer_size", encodeUnsigned size.toNat)]
      have houter := length_encodeMap_le [(nameBytes "SignedStream", Cbor.encodeMap
        [(nameBytes "buffer_size", encodeUnsigned size.toNat)])]
      simp only [List.map_cons, List.map_nil, List.sum_cons, List.sum_nil, encodeUnsigned] at *
      rw [BodyLayout.encode, BodyLayout.encode.encodeVariant, encodeUnsigned]
      omega

theorem RecipientEntry.Short.length_encode_le {entry : RecipientEntry} (h : entry.Short) :
    entry.encode.length ≤ 500 := by
  have hnames := headerNames_short
  simp only [headerNames, List.forall_mem_cons] at hnames
  cases entry with
  | key keyId ephemeralKey wrappedKey =>
      obtain ⟨hid, hwrapped⟩ := h
      have hid' := length_encodeByteList_le keyId.bytes
      have hephemeral := length_encodeByteList_le ephemeralKey.toBytes
      have hwrapped' := length_encodeByteList_le wrappedKey
      rw [ephemeralKey.length_toBytes] at hephemeral
      rw [encode]
      refine (length_encodeMap_le _).trans ?_
      have hinner := length_encodeMap_le
        [(nameBytes "key_id", encodeByteList keyId.bytes),
         (nameBytes "ephemeral_public", encodeByteList ephemeralKey.toBytes),
         (nameBytes "wrapped_key", encodeByteList wrappedKey)]
      simp only [List.map_cons, List.map_nil, List.sum_cons, List.sum_nil] at *
      omega
  | password salt costs wrappedKey =>
      have hsalt := length_encodeByteList_le salt.toBytes
      have hmemory := length_encodeHead_le 0 costs.memoryKib.toNat
      have hiterations := length_encodeHead_le 0 costs.iterations.toNat
      have hparallelism := length_encodeHead_le 0 costs.parallelism.toNat
      have hwrapped := length_encodeByteList_le wrappedKey
      have hshort : wrappedKey.length = 48 := h
      rw [salt.length_toBytes] at hsalt
      rw [encode]
      refine (length_encodeMap_le _).trans ?_
      have hinner := length_encodeMap_le
        [(nameBytes "salt", encodeByteList salt.toBytes),
         (nameBytes "memory_kib", encodeUnsigned costs.memoryKib.toNat),
         (nameBytes "iterations", encodeUnsigned costs.iterations.toNat),
         (nameBytes "parallelism", encodeUnsigned costs.parallelism.toNat),
         (nameBytes "wrapped_key", encodeByteList wrappedKey)]
      simp only [List.map_cons, List.map_nil, List.sum_cons, List.sum_nil, encodeUnsigned] at *
      omega

theorem length_encodeEntries_le {entries : List RecipientEntry}
    (h : ∀ entry ∈ entries, entry.Short) :
    (encodeArray (entries.map RecipientEntry.encode)).length ≤ 9 + 500 * entries.length := by
  have hhead := length_encodeHead_le 4 (entries.map RecipientEntry.encode).length
  have hall : (entries.map RecipientEntry.encode).flatten.length ≤ 500 * entries.length := by
    clear hhead
    induction entries with
    | nil => exact Nat.le_refl _
    | cons entry entries ih =>
        rw [List.forall_mem_cons] at h
        have hentry := h.1.length_encode_le
        have hrest := ih h.2
        rw [List.map_cons, List.flatten_cons, List.length_append, List.length_cons]
        omega
  rw [encodeArray, List.length_append]
  exact Nat.add_le_add hhead hall

theorem length_encodeSignature_le {signature : Option Bytes}
    (h : ∀ bytes, signature = some bytes → bytes.length ≤ 80) :
    (encodeSignature signature).length ≤ 200 := by
  cases signature with
  | none => exact Nat.le_of_ble_eq_true rfl
  | some bytes =>
      have hle := h bytes rfl
      have hencoded := length_encodeByteList_le bytes
      rw [encodeSignature]
      omega

/-- A header is short for the entries that it has. -/
theorem length_encodedHeader_le {h : EnvelopeHeader} (hshort : ∀ entry ∈ h.recipients, entry.Short)
    (hsignature : ∀ signature, h.signature = some signature → signature.length ≤ 80) :
    h.encodeMap.length ≤ 700 + 500 * h.recipients.length := by
  have hnames := headerNames_short
  simp only [headerNames, List.forall_mem_cons] at hnames
  have hversion := length_encodeHead_le 0 h.version.toNat
  have hlayout := length_encodeLayout_le h.layout
  have hnonce := length_encodeByteList_le h.nonce.toBytes
  rw [h.nonce.length_toBytes] at hnonce
  have hrecipients := length_encodeEntries_le hshort
  have hsigned := length_encodeSignature_le hsignature
  have htotal := length_encodeMap_le
    [(nameBytes "version", encodeUnsigned h.version.toNat),
     (nameBytes "layout", h.layout.encode),
     (nameBytes "nonce", encodeByteList h.nonce.toBytes),
     (nameBytes "recipients", encodeArray (h.recipients.map RecipientEntry.encode)),
     (nameBytes "signature", encodeSignature h.signature)]
  simp only [List.map_cons, List.map_nil, List.sum_cons, List.sum_nil, encodeUnsigned] at htotal
  refine Nat.le_trans htotal ?_
  omega

/-- A header with short entries can be encoded, up to two thousand of them at least. -/
theorem exists_encode {h : EnvelopeHeader} (hshort : ∀ entry ∈ h.recipients, entry.Short)
    (hcount : h.recipients.length ≤ 2000)
    (hsignature : ∀ signature, h.signature = some signature → signature.length ≤ 80) :
    ∃ encoded, h.encode = .ok encoded := by
  have hlength := length_encodedHeader_le hshort hsignature
  have hmax : maxHeaderLength = 1048576 := rfl
  exact ⟨_, EnvelopeHeader.encode_eq_ok.mpr ⟨by omega, rfl⟩⟩

end Lengths

section Encryption

variable {c : EnvelopeCipher} {recipients : List Recipient} {e : Entropy}

/-- A recipient whose wrapping does not fail, whatever window of the source it is given. -/
def Recipient.Wrappable (e : Entropy) (costs : Argon2id.Costs) : Recipient → Prop
  | .key publicKey => ∃ point, publicKey.toX25519 .encrypt = .ok point ∧
      ∀ position, (X25519.multiply (e.window position 32) point).isZero = false
  | .password _ => costs.fault? = none

theorem exists_wrapFor {recipient : Recipient} {start e : Entropy} {costs : Argon2id.Costs}
    (algorithm : FingerprintAlgorithm) (contentKey : Octets 32)
    (h : recipient.Wrappable start costs) (hlater : start.Later e)
    (hendless : start.limit = none) :
    ∃ entry next, RecipientEntry.wrapFor algorithm costs contentKey recipient e =
      (.ok entry, next) ∧ start.Later next := by
  cases recipient with
  | key publicKey =>
      obtain ⟨point, hpoint, hzero⟩ := h
      refine ⟨_, _, RecipientEntry.wrapFor_key_eq_ok.mpr
        ⟨point, hpoint, hlater.holds_of_endless hendless 32, ?_, rfl, rfl⟩,
        hlater.trans (Entropy.Later.advance e 32)⟩
      rw [hlater.peek_eq]
      exact hzero e.position
  | password phrase =>
      obtain ⟨secret, hsecret⟩ := WrapSecret.exists_ofPassword h phrase (e.peek 16)
      exact ⟨_, _, RecipientEntry.wrapFor_password_eq_ok.mpr
        ⟨hlater.holds_of_endless hendless 16, ⟨secret, hsecret, rfl⟩, rfl⟩,
        hlater.trans (Entropy.Later.advance e 16)⟩

theorem exists_buildHeader (layout : BodyLayout) (signature : Option (Octets 64))
    (hendless : e.limit = none) (hne : recipients ≠ [])
    (hwrappable : ∀ recipient ∈ recipients, recipient.Wrappable e c.passwordCosts) :
    ∃ header contentKey last,
      c.buildHeader layout signature recipients e = (.ok (header, contentKey), last) := by
  let second : Entropy := { e with position := e.position + 32 }
  let third : Entropy := { second with position := second.position + 12 }
  have hsecond : e.Later second := Entropy.Later.advance e 32
  have hthird : e.Later third := hsecond.trans (Entropy.Later.advance second 12)
  obtain ⟨entries, last, hentries⟩ := Random.exists_mapM (fun recipient hrecipient next hnext =>
    exists_wrapFor c.fingerprint (e.peek 32) (hwrappable recipient hrecipient) hnext hendless)
    hthird
  refine ⟨⟨EnvelopeHeader.currentVersion, layout, second.peek 12, entries, signature.map fun s =>
    Gcm.encrypt (e.peek 32) (EnvelopeCipher.signatureNonce (second.peek 12))
      EnvelopeCipher.signatureLabel s.toBytes⟩, e.peek 32, last, ?_⟩
  have hempty : ¬ recipients.isEmpty = true := by simpa using hne
  simp only [EnvelopeCipher.buildHeader, if_neg hempty]
  have hkey : Random.draw 32 e = (.ok (e.peek 32), second) := Random.draw_eq_ok.mpr
    ⟨(Entropy.Later.refl e).holds_of_endless hendless 32, rfl, rfl⟩
  have hnonce : Random.draw 12 second = (.ok (second.peek 12), third) := Random.draw_eq_ok.mpr
    ⟨hsecond.holds_of_endless hendless 12, rfl, rfl⟩
  exact Random.bind_eq_ok.mpr ⟨_, _, hkey, Random.bind_eq_ok.mpr ⟨_, _, hnonce,
    Random.bind_eq_ok.mpr ⟨entries, last, hentries, rfl⟩⟩⟩

section Built

variable {layout : BodyLayout} {signature : Option (Octets 64)} {header : EnvelopeHeader}
  {contentKey : Octets 32} {last : Entropy}

/-- What is built has short entries, as many as there are recipients. -/
theorem short_of_buildHeader
    (h : c.buildHeader layout signature recipients e = (.ok (header, contentKey), last)) :
    (∀ entry ∈ header.recipients, entry.Short) ∧
      header.recipients.length = recipients.length ∧
      ∀ encrypted, header.signature = some encrypted → encrypted.length ≤ 80 := by
  obtain ⟨-, -, -, hsignature, hmade⟩ := buildHeader_eq_ok h
  refine ⟨RecipientEntry.short_of_made hmade, hmade.length_eq.symm, ?_⟩
  intro encrypted hencrypted
  rw [hsignature] at hencrypted
  obtain ⟨s, -, rfl⟩ := Option.map_eq_some_iff.mp hencrypted
  rw [Gcm.length_encrypt, s.length_toBytes]

theorem length_le_of_buildHeader
    (h : c.buildHeader layout signature recipients e = (.ok (header, contentKey), last))
    {encoded : Bytes} (hencoded : header.encode = .ok encoded) :
    encoded.length ≤ 704 + 500 * recipients.length := by
  obtain ⟨hshort, hcount, hsignature⟩ := short_of_buildHeader h
  have hlength := length_encodedHeader_le hshort hsignature
  obtain ⟨-, rfl⟩ := EnvelopeHeader.encode_eq_ok.mp hencoded
  rw [List.length_append, Bytes.length_bigEndian]
  omega

end Built

/-- A header for up to two thousand recipients is built and can be encoded. -/
theorem exists_encodedHeader (layout : BodyLayout) (signature : Option (Octets 64))
    (hendless : e.limit = none) (hne : recipients ≠ [])
    (hwrappable : ∀ recipient ∈ recipients, recipient.Wrappable e c.passwordCosts)
    (hcount : recipients.length ≤ 2000) :
    ∃ header contentKey encoded last,
      c.buildHeader layout signature recipients e = (.ok (header, contentKey), last) ∧
        header.encode = .ok encoded := by
  obtain ⟨header, contentKey, last, hheader⟩ :=
    exists_buildHeader layout signature hendless hne hwrappable
  obtain ⟨hshort, hlength, hsignature⟩ := short_of_buildHeader hheader
  obtain ⟨encoded, hencoded⟩ := exists_encode hshort (hlength.trans_le hcount) hsignature
  exact ⟨header, contentKey, encoded, last, hheader, hencoded⟩

theorem exists_pack {data : Bytes} (signature : Option (Octets 64)) (hendless : e.limit = none)
    (hne : recipients ≠ [])
    (hwrappable : ∀ recipient ∈ recipients, recipient.Wrappable e c.passwordCosts)
    (hcount : recipients.length ≤ 2000) (hdata : data.length ≤ maxTextLength) :
    ∃ envelope last, c.pack data signature recipients e = (.ok envelope, last) := by
  obtain ⟨header, contentKey, encoded, last, hheader, hencoded⟩ :=
    exists_encodedHeader .sealed signature hendless hne hwrappable hcount
  have hbody : sealText contentKey header.nonce (EnvelopeCipher.boundTo EnvelopeCipher.bodyLabel
      encoded) data = .ok (Gcm.encrypt contentKey header.nonce
        (EnvelopeCipher.boundTo EnvelopeCipher.bodyLabel encoded) data) :=
    sealText_eq_ok.mpr ⟨hdata, rfl⟩
  exact ⟨_, last, Random.bind_eq_ok.mpr ⟨(header, contentKey), last, hheader,
    Random.bind_eq_ok.mpr ⟨encoded, last, Random.lift_eq_ok.mpr ⟨hencoded, rfl⟩,
      Random.bind_eq_ok.mpr ⟨_, last, Random.lift_eq_ok.mpr ⟨hbody, rfl⟩, rfl⟩⟩⟩⟩

/-- With endless randomness, a text that fits is encrypted for up to two thousand recipients. -/
theorem exists_encrypt {data : Bytes} (hendless : e.limit = none) (hne : recipients ≠ [])
    (hwrappable : ∀ recipient ∈ recipients, recipient.Wrappable e c.passwordCosts)
    (hcount : recipients.length ≤ 2000) (hdata : data.length ≤ maxTextLength) :
    ∃ envelope last,
      (Encryption.encrypt data).run c recipients e = (.ok (envelope, data.length), last) := by
  obtain ⟨envelope, last, hpack⟩ := exists_pack none hendless hne hwrappable hcount hdata
  exact ⟨envelope, last, Random.bind_eq_ok.mpr ⟨envelope, last, hpack, rfl⟩⟩

/-- With a signature too. -/
theorem exists_signThenEncrypt {data : Bytes} {signer : Ed25519PrivateKey}
    (hsigner : signer.isEmpty = false) (hendless : e.limit = none) (hne : recipients ≠ [])
    (hwrappable : ∀ recipient ∈ recipients, recipient.Wrappable e c.passwordCosts)
    (hcount : recipients.length ≤ 2000) (hdata : data.length ≤ maxTextLength) :
    ∃ envelope last, (Encryption.signThenEncrypt data signer).run c recipients e =
      (.ok (envelope, data.length), last) := by
  obtain ⟨envelope, last, hpack⟩ :=
    exists_pack (some (Ed25519.sign signer.seed data)) hendless hne hwrappable hcount hdata
  have hsign : Signature.sign data signer = .ok _ := Signature.sign_eq_ok.mpr ⟨hsigner, rfl⟩
  exact ⟨envelope, last, Random.bind_eq_ok.mpr ⟨envelope, last,
    Random.bind_eq_ok.mpr ⟨_, e, Random.lift_eq_ok.mpr ⟨hsign, rfl⟩, hpack⟩, rfl⟩⟩

/-- Streams can be encrypted, and then every source that does not fail is, if its segments fit. -/
theorem exists_streaming {signer : Option Ed25519PrivateKey}
    (hsigner : ∀ key, signer = some key → key.isEmpty = false) (hendless : e.limit = none)
    (hne : recipients ≠ [])
    (hwrappable : ∀ recipient ∈ recipients, recipient.Wrappable e c.passwordCosts)
    (hcount : recipients.length ≤ 2000) (hsize : c.stream.bufferSize.val ≤ maxStreamBufferSize) :
    ∃ emit last, c.streaming signer recipients e = (.ok emit, last) ∧
      ∀ source : Source, source.fault = none →
        SegmentKeys.Fits 0 (flagLast (Bytes.cut c.stream.bufferSize.val source.bytes)) →
          ∃ envelope, (emit source).collect = .ok (envelope, source.bytes.length) := by
  have hlayout : c.headerBufferSize = .ok (UInt32.ofNat c.stream.bufferSize.val) := if_pos hsize
  cases signer with
  | none =>
      obtain ⟨header, contentKey, encoded, last, hheader, hencoded⟩ := exists_encodedHeader
        (.stream (UInt32.ofNat c.stream.bufferSize.val)) none hendless hne hwrappable hcount
      refine ⟨_, last, Random.bind_eq_ok.mpr ⟨_, e, Random.lift_eq_ok.mpr ⟨hlayout, rfl⟩,
        Random.bind_eq_ok.mpr ⟨(header, contentKey), last, hheader, rfl⟩⟩, ?_⟩
      intro source hsource hfits
      exact ⟨_, Encryption.collect_write_bind.mpr ⟨encoded, _, hencoded,
        (c.stream.collect_encryptRun_plainRun _).mpr ⟨hsource, hfits, rfl, rfl⟩, rfl⟩⟩
  | some key =>
      have hempty := hsigner key rfl
      have hseed : key.usableSeed .signThenEncryptStream = .ok key.seed :=
        usableSeed_eq_ok.mpr ⟨hempty, rfl⟩
      obtain ⟨header, contentKey, encoded, last, hheader, hencoded⟩ := exists_encodedHeader
        (.signedStream (UInt32.ofNat c.stream.bufferSize.val)) none hendless hne hwrappable hcount
      refine ⟨_, last, Random.bind_eq_ok.mpr ⟨_, e, Random.lift_eq_ok.mpr ⟨hseed, rfl⟩,
        Random.bind_eq_ok.mpr ⟨_, e, Random.lift_eq_ok.mpr ⟨hlayout, rfl⟩,
          Random.bind_eq_ok.mpr ⟨(header, contentKey), last, hheader, rfl⟩⟩⟩, ?_⟩
      intro source hsource hfits
      have hsign : Signature.sign (Sha512.digest source.bytes).toBytes key = .ok _ :=
        Signature.sign_eq_ok.mpr ⟨hempty, rfl⟩
      exact ⟨_, Encryption.collect_write_bind.mpr ⟨encoded, _, hencoded,
        Encryption.collect_signedBody.mpr ⟨_, hsource, hsign, hfits, rfl, rfl⟩, rfl⟩⟩

/-- A source that does not fail is encrypted and signed if its segments fit. -/
theorem exists_signThenEncryptStream {source : Source} {signer : Ed25519PrivateKey}
    (hsigner : signer.isEmpty = false) (hendless : e.limit = none) (hne : recipients ≠ [])
    (hwrappable : ∀ recipient ∈ recipients, recipient.Wrappable e c.passwordCosts)
    (hcount : recipients.length ≤ 2000) (hsource : source.fault = none)
    (hsize : c.stream.bufferSize.val ≤ maxStreamBufferSize)
    (hfits : SegmentKeys.Fits 0 (flagLast (Bytes.cut c.stream.bufferSize.val source.bytes))) :
    ∃ envelope last, (Encryption.signThenEncryptStream source signer).run c recipients e =
      (.ok (envelope, source.bytes.length), last) := by
  have hkey : ∀ key, some signer = some key → key.isEmpty = false := by
    rintro _ ⟨⟩
    exact hsigner
  obtain ⟨emit, last, hdraw, hemit⟩ := exists_streaming hkey hendless hne hwrappable hcount hsize
  obtain ⟨envelope, hcollect⟩ := hemit source hsource hfits
  exact ⟨envelope, last, (Encryption.run_streamed hdraw).mpr hcollect⟩

end Encryption

end SealedEnvelope
