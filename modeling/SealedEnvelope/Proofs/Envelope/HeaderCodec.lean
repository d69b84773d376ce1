import SealedEnvelope.Proofs.Cbor.Reads
import SealedEnvelope.Proofs.Computation
import SealedEnvelope.Proofs.Transfer.View
import SealedEnvelope.Envelope.HeaderCodec

/-!
A header that was written is read back, whatever body follows it. Reading it from
a reader and from the front of a byte string come to the same thing.
-/

namespace SealedEnvelope

open Cbor

section Lengths

theorem length_le_encodeByteList (bytes : Bytes) :
    bytes.length ≤ (encodeByteList bytes).length := by
  have hne : ∀ item ∈ bytes.map fun byte => encodeUnsigned byte.toNat, item ≠ [] := by
    simp [encodeUnsigned_ne_nil]
  have hall := length_le_flatten hne
  rw [List.length_map, ← List.flatMap_def] at hall
  rw [encodeByteList, List.length_append]
  omega

/-- The value of a field is no longer than the map it stands in. -/
theorem length_le_encodeMap {key value : Bytes} {entries : List (Bytes × Bytes)}
    (h : (key, value) ∈ entries) : value.length ≤ (Cbor.encodeMap entries).length := by
  have hentry : encodeText key ++ value ∈
      entries.map fun entry => encodeText entry.1 ++ entry.2 := List.mem_map.mpr ⟨_, h, rfl⟩
  have hcontent := (List.sublist_flatten_of_mem hentry).length_le
  have hvalue : value.length ≤ (encodeText key ++ value).length := by simp
  rw [Cbor.encodeMap, List.flatMap_def, List.length_append]
  exact (hvalue.trans hcontent).trans (Nat.le_add_left _ _)

theorem length_le_encodeArray {item : Bytes} {items : List Bytes} (h : item ∈ items) :
    item.length ≤ (encodeArray items).length := by
  have hitem := (List.sublist_flatten_of_mem h).length_le
  rw [encodeArray, List.length_append]
  omega

theorem encodeMap_ne_nil (entries : List (Bytes × Bytes)) : Cbor.encodeMap entries ≠ [] := by
  apply List.ne_nil_of_length_pos
  have hpos := length_encodeHead_pos 5 entries.length
  rw [Cbor.encodeMap, List.length_append]
  omega

theorem encode_ne_nil (entry : RecipientEntry) : entry.encode ≠ [] := by
  cases entry <;> exact encodeMap_ne_nil _

end Lengths

section Fields

open HeaderDecoder

/-- The names of the fields and of the variants. -/
def headerNames : List String :=
  ["version", "layout", "nonce", "recipients", "signature",
    "Sealed", "Stream", "SignedStream", "buffer_size",
    "Key", "key_id", "ephemeral_public", "wrapped_key",
    "Password", "salt", "memory_kib", "iterations", "parallelism"]

theorem headerNames_short : ∀ name ∈ headerNames,
    (nameBytes name).length ≤ 16 ∧ Utf8.isValid (nameBytes name) = true := by
  decide +kernel

theorem isName {name : String} (h : name ∈ headerNames) : IsName (nameBytes name) := by
  obtain ⟨hlength, hvalid⟩ := headerNames_short name h
  exact ⟨hlength.trans (by decide), hvalid⟩

theorem reads_bufferSize (size : UInt32) :
    Reads bufferSize (Cbor.encodeMap [(nameBytes "buffer_size", encodeUnsigned size.toNat)])
      size := by
  apply Reads.bind (reads_head (n := 1) (by decide) (by decide) rfl)
  apply Reads.bind_pure (FieldsRead.reads (.cons (isName (by simp [headerNames])) (if_pos rfl)
    (reads_once (reads_word size) some) (.nil _)) 3)
  exact Reads.pure size

theorem reads_layout (layout : BodyLayout) : Reads HeaderDecoder.layout layout.encode layout := by
  cases layout with
  | sealed =>
      apply (IsName.reads_variant (isName (by simp [headerNames]))).bind_pure
      rw [if_pos rfl]
      exact Reads.pure _
  | stream size =>
      apply IsName.reads_content_variant (isName (by simp [headerNames]))
      simp only [nameBytes_inj, String.reduceEq, if_false, if_true]
      exact (reads_bufferSize size).map BodyLayout.stream
  | signedStream size =>
      apply IsName.reads_content_variant (isName (by simp [headerNames]))
      simp only [nameBytes_inj, String.reduceEq, if_false, if_true]
      exact (reads_bufferSize size).map BodyLayout.signedStream

theorem fieldsRead_keyEntry {keyId : KeyId} (ephemeralKey : Octets 32) {wrappedKey : Bytes}
    (hid : keyId.bytes.length < UInt64.size) (hwrapped : wrappedKey.length < UInt64.size) :
    FieldsRead KeyFields.read ⟨none, none, none⟩
      [(nameBytes "key_id", encodeByteList keyId.bytes),
       (nameBytes "ephemeral_public", encodeByteList ephemeralKey.toBytes),
       (nameBytes "wrapped_key", encodeByteList wrappedKey)]
      ⟨some keyId.bytes, some ephemeralKey, some wrappedKey⟩ := by
  apply FieldsRead.cons (isName (by simp [headerNames])) _ (reads_once (reads_byteList hid) fun x =>
    ⟨some x, none, none⟩)
  apply FieldsRead.cons (isName (by simp [headerNames])) _ (reads_once (reads_octets ephemeralKey (by decide))
    fun x => ⟨some keyId.bytes, some x, none⟩)
  apply FieldsRead.cons (isName (by simp [headerNames])) _ (reads_once (reads_byteList hwrapped) fun x =>
    ⟨some keyId.bytes, some ephemeralKey, some x⟩)
  · exact FieldsRead.nil _
  all_goals simp only [KeyFields.read, nameBytes_inj, String.reduceEq, if_false, if_true]

theorem fieldsRead_passwordEntry (salt : Octets 16) (costs : Argon2id.Costs) {wrappedKey : Bytes}
    (hwrapped : wrappedKey.length < UInt64.size) :
    FieldsRead PasswordFields.read ⟨none, none, none, none, none⟩
      [(nameBytes "salt", encodeByteList salt.toBytes),
       (nameBytes "memory_kib", encodeUnsigned costs.memoryKib.toNat),
       (nameBytes "iterations", encodeUnsigned costs.iterations.toNat),
       (nameBytes "parallelism", encodeUnsigned costs.parallelism.toNat),
       (nameBytes "wrapped_key", encodeByteList wrappedKey)]
      ⟨some salt, some costs.memoryKib, some costs.iterations, some costs.parallelism,
        some wrappedKey⟩ := by
  apply FieldsRead.cons (isName (by simp [headerNames])) _ (reads_once (reads_octets salt (by decide))
    fun x => ⟨some x, none, none, none, none⟩)
  apply FieldsRead.cons (isName (by simp [headerNames])) _ (reads_once (reads_word costs.memoryKib)
    fun x => ⟨some salt, some x, none, none, none⟩)
  apply FieldsRead.cons (isName (by simp [headerNames])) _ (reads_once (reads_word costs.iterations)
    fun x => ⟨some salt, some costs.memoryKib, some x, none, none⟩)
  apply FieldsRead.cons (isName (by simp [headerNames])) _ (reads_once (reads_word costs.parallelism)
    fun x => ⟨some salt, some costs.memoryKib, some costs.iterations, some x, none⟩)
  apply FieldsRead.cons (isName (by simp [headerNames])) _ (reads_once (reads_byteList hwrapped)
    fun x => ⟨some salt, some costs.memoryKib, some costs.iterations, some costs.parallelism,
      some x⟩)
  · exact FieldsRead.nil _
  all_goals simp only [PasswordFields.read, nameBytes_inj, String.reduceEq, if_false, if_true]

/-- What a field of the content holds is no longer than the entry. -/
theorem length_lt_of_entry {name bytes : Bytes} {fields : List (Bytes × Bytes)}
    (h : (Cbor.encodeMap [(name, Cbor.encodeMap fields)]).length < UInt64.size)
    (hmem : encodeByteList bytes ∈ fields.map Prod.snd) : bytes.length < UInt64.size := by
  obtain ⟨⟨key, value⟩, hfield, rfl⟩ := List.mem_map.mp hmem
  have hbytes := length_le_encodeByteList bytes
  have hvalue := length_le_encodeMap hfield
  have hcontent : (Cbor.encodeMap fields).length ≤
      (Cbor.encodeMap [(name, Cbor.encodeMap fields)]).length :=
    length_le_encodeMap (List.mem_singleton_self _)
  omega

theorem reads_entry {entry : RecipientEntry} (h : entry.encode.length < UInt64.size) :
    Reads HeaderDecoder.entry entry.encode entry := by
  cases entry with
  | key keyId ephemeralKey wrappedKey =>
      have hid : keyId.bytes.length < UInt64.size := length_lt_of_entry h (by simp)
      have hwrapped : wrappedKey.length < UInt64.size := length_lt_of_entry h (by simp)
      apply IsName.reads_content_variant (isName (by simp [headerNames]))
      rw [if_pos rfl]
      apply Reads.bind (reads_head (n := 3) (by decide) (by decide) rfl)
      exact ((fieldsRead_keyEntry ephemeralKey hid hwrapped).reads 4).bind_pure (Reads.pure _)
  | password salt costs wrappedKey =>
      have hwrapped : wrappedKey.length < UInt64.size := length_lt_of_entry h (by simp)
      apply IsName.reads_content_variant (isName (by simp [headerNames]))
      simp only [nameBytes_inj, String.reduceEq, if_false, if_true]
      apply Reads.bind (reads_head (n := 5) (by decide) (by decide) rfl)
      exact ((fieldsRead_passwordEntry salt costs hwrapped).reads 4).bind_pure (Reads.pure _)

theorem reads_entries {recipients : List RecipientEntry}
    (h : (encodeArray (recipients.map RecipientEntry.encode)).length < UInt64.size) :
    Reads entries (encodeArray (recipients.map RecipientEntry.encode)) recipients := by
  have hne : ∀ entry ∈ recipients, entry.encode ≠ [] := fun entry _ => encode_ne_nil entry
  have hread : ∀ entry ∈ recipients, Reads HeaderDecoder.entry entry.encode entry := by
    intro entry hentry
    have hle := length_le_encodeArray (List.mem_map_of_mem (f := RecipientEntry.encode) hentry)
    exact reads_entry (hle.trans_lt h)
  have hcount : (recipients.map RecipientEntry.encode).length < UInt64.size := by
    have hitems : ∀ item ∈ recipients.map RecipientEntry.encode, item ≠ [] := by simpa using hne
    have hle := length_le_flatten hitems
    rw [encodeArray, List.length_append] at h
    omega
  apply Reads.bind (reads_untagged (by decide) hcount rfl)
  have helements := reads_elements hread hne
  rw [List.flatMap_def] at helements
  have hsame : recipients.length = (recipients.map RecipientEntry.encode).length :=
    (List.length_map _).symm
  rwa [hsame] at helements

/-- The value of the signature field, null if there is none. -/
def encodeSignature : Option Bytes → Bytes
  | some signature => encodeByteList signature
  | none => encodeNull

theorem reads_signature {signature : Option Bytes}
    (h : ∀ bytes, signature = some bytes → bytes.length < UInt64.size) :
    Reads (Decoder.nullable Decoder.byteList) (encodeSignature signature) signature := by
  cases signature with
  | none => exact reads_nullable_none _
  | some bytes => exact reads_nullable_byteList (h bytes rfl)

theorem fieldsRead_header {version : UInt8} {layout : BodyLayout} {nonce : Octets 12}
    {recipients : List RecipientEntry} {signature : Option Bytes}
    (hrecipients : (encodeArray (recipients.map RecipientEntry.encode)).length < UInt64.size)
    (hsignature : ∀ bytes, signature = some bytes → bytes.length < UInt64.size) :
    FieldsRead HeaderFields.read ⟨none, none, none, none, none⟩
      [(nameBytes "version", encodeUnsigned version.toNat),
       (nameBytes "layout", layout.encode),
       (nameBytes "nonce", encodeByteList nonce.toBytes),
       (nameBytes "recipients", encodeArray (recipients.map RecipientEntry.encode)),
       (nameBytes "signature", encodeSignature signature)]
      ⟨some version, some layout, some nonce, some recipients, some signature⟩ := by
  apply FieldsRead.cons (isName (by simp [headerNames])) _ (reads_once (reads_byte version)
    fun x => ⟨some x, none, none, none, none⟩)
  apply FieldsRead.cons (isName (by simp [headerNames])) _ (reads_once (reads_layout layout)
    fun x => ⟨some version, some x, none, none, none⟩)
  apply FieldsRead.cons (isName (by simp [headerNames])) _ (reads_once (reads_octets nonce (by decide))
    fun x => ⟨some version, some layout, some x, none, none⟩)
  apply FieldsRead.cons (isName (by simp [headerNames])) _ (reads_once (reads_entries hrecipients)
    fun x => ⟨some version, some layout, some nonce, some x, none⟩)
  apply FieldsRead.cons (isName (by simp [headerNames])) _ (reads_once (reads_signature hsignature)
    fun x => ⟨some version, some layout, some nonce, some recipients, some x⟩)
  · exact FieldsRead.nil _
  all_goals simp only [HeaderFields.read, nameBytes_inj, String.reduceEq, if_false, if_true]

/-- A written header is read back, unless it is longer than any input can be. -/
theorem reads_header {h : EnvelopeHeader} (hlength : h.encodeMap.length < UInt64.size) :
    Reads header h.encodeMap h := by
  have hrecipients : (encodeArray (h.recipients.map RecipientEntry.encode)).length <
      UInt64.size := by
    apply lt_of_le_of_lt _ hlength
    exact length_le_encodeMap (List.mem_of_getElem? (i := 3) rfl)
  have hsignature : ∀ bytes, h.signature = some bytes → bytes.length < UInt64.size := by
    intro bytes hbytes
    have hvalue : (encodeSignature h.signature).length ≤ h.encodeMap.length :=
      length_le_encodeMap (List.mem_of_getElem? (i := 4) rfl)
    rw [hbytes] at hvalue
    exact ((length_le_encodeByteList bytes).trans hvalue).trans_lt hlength
  apply Reads.bind (reads_untagged (n := 5) (by decide) (by decide) rfl)
  exact ((fieldsRead_header hrecipients hsignature).reads 1).bind_pure (Reads.pure _)

end Fields

namespace EnvelopeHeader

/-- Nothing is wrong with a header of the known version, unless it is in front of segments: those
have a size that is neither nothing nor too large, and no signature goes before them. -/
theorem fault?_eq_none {h : EnvelopeHeader} :
    h.fault? = none ↔ h.version = currentVersion ∧ ∀ size, h.layout.bufferSize? = some size →
      size ≠ 0 ∧ size ≤ maxStreamBufferSize ∧ h.signature = none := by
  rw [fault?]
  split
  case isTrue hother =>
    simp only [reduceCtorEq, false_iff]
    exact fun hread => hother hread.1
  case isFalse hsame =>
    rw [not_not] at hsame
    cases h.layout.bufferSize? with
    | none => simp [hsame]
    | some size =>
        simp only [hsame, Option.some.injEq, forall_eq', true_and]
        split_ifs with hsize hsigned
        · simp only [reduceCtorEq, false_iff]
          rintro ⟨hne, hle, -⟩
          omega
        · simp [Option.isSome_iff_ne_none.mp hsigned]
        · rw [not_or, Nat.not_lt] at hsize
          simpa [hsize] using hsigned

theorem encode_eq_ok {h : EnvelopeHeader} {encoded : Bytes} :
    h.encode = .ok encoded ↔
      h.encodeMap.length ≤ maxHeaderLength ∧
        encoded = Bytes.bigEndian 4 h.encodeMap.length ++ h.encodeMap := by
  simp only [encode]
  split
  case isTrue hle => simp [hle, eq_comm]
  case isFalse hlt => simp [hlt]

theorem lengthOf_bigEndian {length : Nat} (hle : length ≤ maxHeaderLength) :
    lengthOf (Bytes.bigEndian 4 length) = .ok length := by
  have hmax : maxHeaderLength < 256 ^ 4 := by decide
  rw [lengthOf, Bytes.ofBigEndian_bigEndian (by omega), if_pos hle]

theorem ofCbor_encodeMap {h : EnvelopeHeader} (hle : h.encodeMap.length ≤ maxHeaderLength) :
    ofCbor h.encodeMap = match h.fault? with
      | some fault => .error (.invalidFormat fault)
      | none => .ok h := by
  have hmax : maxHeaderLength < UInt64.size := by decide
  have hheader : Reads HeaderDecoder.header h.encodeMap h := reads_header (by omega)
  have hread : HeaderDecoder.header.decode? h.encodeMap = some h := by
    have hall := hheader.decode? []
    rwa [List.append_nil] at hall
  cases hfault : h.fault? <;> simp only [ofCbor, hread, hfault]

/-- A header that was written is found in front of any body, unless it is one that may not be
read. -/
theorem decode_written {h : EnvelopeHeader} {encoded : Bytes} (hencode : h.encode = .ok encoded)
    (body : Bytes) :
    decode (encoded ++ body) = match h.fault? with
      | some fault => .error (.invalidFormat fault)
      | none => .ok (h, encoded.length) := by
  obtain ⟨hle, rfl⟩ := encode_eq_ok.mp hencode
  have hfield : (Bytes.bigEndian 4 h.encodeMap.length ++ h.encodeMap ++ body).take 4 =
      Bytes.bigEndian 4 h.encodeMap.length := by
    rw [List.append_assoc]
    exact List.take_left' (by simp)
  have hrest : (Bytes.bigEndian 4 h.encodeMap.length ++ h.encodeMap ++ body).drop 4 =
      h.encodeMap ++ body := by
    rw [List.append_assoc]
    exact List.drop_left' (by simp)
  rw [decode, hfield, hrest, if_neg (by simp)]
  simp only [lengthOf_bigEndian hle, bind, Except.bind, pure, Except.pure, List.take_left,
    lt_irrefl, if_false, ofCbor_encodeMap hle]
  cases h.fault? <;> simp

theorem decode_encode {h : EnvelopeHeader} {encoded : Bytes} (hencode : h.encode = .ok encoded)
    (hfault : h.fault? = none) (body : Bytes) :
    decode (encoded ++ body) = .ok (h, encoded.length) := by
  rw [decode_written hencode, hfault]

theorem lengthOf_error {field : Bytes} {failure : Failure} (h : lengthOf field = .error failure) :
    ∃ fault, failure = .invalidFormat fault := by
  simp only [lengthOf] at h
  split at h
  · cases h
  · cases h
    exact ⟨_, rfl⟩

theorem le_of_lengthOf {field : Bytes} {length : Nat}
    (h : lengthOf field = .ok length) : length ≤ maxHeaderLength := by
  simp only [lengthOf] at h
  split at h
  case isTrue hle =>
    cases h
    exact hle
  case isFalse => cases h

theorem ofCbor_error {encoded : Bytes} {failure : Failure} (h : ofCbor encoded = .error failure) :
    ∃ fault, failure = .invalidFormat fault := by
  rw [ofCbor] at h
  split at h
  case h_1 =>
    cases h
    exact ⟨_, rfl⟩
  case h_2 =>
    split at h
    · cases h
      exact ⟨_, rfl⟩
    · cases h

section Reading

variable {ρ : Type} [ByteReader ρ] (v : ReaderView ρ)

theorem length_of_readExactly {n : Nat} {r next : ρ} {bytes : Bytes}
    (h : readExactly n r = (.ok bytes, next)) : bytes.length = n := by
  rw [readExactly] at h
  split at h
  case h_1 => cases h
  case h_2 filled last hfill =>
    split at h
    case isTrue => cases h
    case isFalse henough =>
      cases h
      exact Nat.le_antisymm (ByteReader.length_le_of_fill hfill) (Nat.le_of_not_lt henough)

theorem readExactly_of_le {n : Nat} {r : ρ} {bytes : Bytes} (h : v.Holds r bytes none)
    (hn : n ≤ bytes.length) :
    ∃ next, readExactly n r = (.ok (bytes.take n), next) ∧ v.Holds next (bytes.drop n) none := by
  obtain ⟨next, hfill, hnext⟩ := v.fill_of_le h hn
  refine ⟨next, ?_, hnext⟩
  simp only [readExactly, hfill, List.length_take_of_le hn, lt_irrefl, if_false]

theorem readExactly_of_lt {n : Nat} {r : ρ} {bytes : Bytes} (h : v.Holds r bytes none)
    (hn : bytes.length < n) :
    ∃ next, readExactly n r = (.error (.invalidFormat .headerTruncated), next) := by
  obtain ⟨next, hfill, -⟩ := v.fill_of_lt h hn
  refine ⟨next, ?_⟩
  simp only [readExactly, hfill, if_pos hn]

/-- A reader and the bytes it delivers have the same header in front, or neither has one. -/
theorem readFrom_cases {r : ρ} {bytes : Bytes} (h : v.Holds r bytes none) :
    (∃ header offset next, decode bytes = .ok (header, offset) ∧
        readFrom r = (.ok (header, bytes.take offset), next) ∧
        v.Holds next (bytes.drop offset) none) ∨
      (∃ fault fault' next, decode bytes = .error (.invalidFormat fault) ∧
        readFrom r = (.error (.invalidFormat fault'), next)) := by
  rcases Nat.lt_or_ge bytes.length 4 with hshort | hfour
  · obtain ⟨next, hread⟩ := readExactly_of_lt v h hshort
    have hfield : (bytes.take 4).length < 4 := by simpa using hshort
    refine Or.inr ⟨.envelopeTooShort, .headerTruncated, next, ?_, ?_⟩
    · rw [decode, if_pos hfield]
      rfl
    · rw [readFrom, hread]
  · obtain ⟨second, hread, hsecond⟩ := readExactly_of_le v h hfour
    have hfield : ¬ (bytes.take 4).length < 4 := by
      rw [List.length_take_of_le hfour]
      omega
    rcases hlength : lengthOf (bytes.take 4) with failure | length
    · obtain ⟨fault, rfl⟩ := lengthOf_error hlength
      refine Or.inr ⟨fault, fault, second, ?_, ?_⟩
      · rw [decode, if_neg hfield, hlength]
        rfl
      · simp only [readFrom, hread, hlength]
    · rcases Nat.lt_or_ge (bytes.drop 4).length length with hless | hmore
      · obtain ⟨last, hrest⟩ := readExactly_of_lt v hsecond hless
        have htruncated : ((bytes.drop 4).take length).length < length := by
          rw [List.length_take]
          omega
        refine Or.inr ⟨.headerTruncated, .headerTruncated, last, ?_, ?_⟩
        · simp only [decode, if_neg hfield, hlength, bind, Except.bind, pure, Except.pure,
            if_pos htruncated]
        · simp only [readFrom, hread, hlength, hrest]
      · obtain ⟨last, hrest, hlast⟩ := readExactly_of_le v hsecond hmore
        have hwhole : ¬ ((bytes.drop 4).take length).length < length := by
          rw [List.length_take_of_le hmore]
          omega
        rcases hcbor : ofCbor ((bytes.drop 4).take length) with failure | header
        · obtain ⟨fault, rfl⟩ := ofCbor_error hcbor
          refine Or.inr ⟨fault, fault, last, ?_, ?_⟩
          · simp only [decode, if_neg hfield, hlength, bind, Except.bind, if_neg hwhole,
              hcbor]
          · simp only [readFrom, hread, hlength, hrest, hcbor, Except.map]
        · rw [List.drop_drop] at hlast
          refine Or.inl ⟨header, 4 + length, last, ?_, ?_, hlast⟩
          · simp only [decode, if_neg hfield, hlength, bind, Except.bind, pure, Except.pure,
              if_neg hwhole, hcbor]
          · simp only [readFrom, hread, hlength, hrest, hcbor, Except.map, List.take_add]

end Reading

end EnvelopeHeader

end SealedEnvelope
