import SealedEnvelope.Proofs.Envelope.RoundTrip
import SealedEnvelope.Proofs.Envelope.Openings
import SealedEnvelope.Proofs.Segment.Sealings

/-!
What a run has encrypted under the content key of its envelope: a signature for the
header, the body or its segments, and a trailer. No two of these have a nonce in
common, however long the text is and wherever the run ends. All but the signature of
the header is put out as it is encrypted, so nothing is left out here.
-/

namespace SealedEnvelope

namespace EnvelopeCipher

section Nonces

variable {nonce : Octets 12} {mask mask' : UInt8}

theorem aside_inj (h : aside mask nonce = aside mask' nonce) : mask = mask' := by
  have hmasks : mask :: List.replicate 11 (0 : UInt8) = mask' :: List.replicate 11 0 := by
    apply Bytes.xor_left_cancel (x := nonce.toBytes)
    · simp
    · simp
    · exact congrArg Octets.toBytes h
  exact (List.cons.inj hmasks).1

/-- Without a mask, a nonce is as it was. -/
theorem aside_zero (nonce : Octets 12) : aside 0 nonce = nonce := by
  apply Octets.ext
  exact Bytes.xor_zeros nonce.length_toBytes

theorem ne_aside (hmask : mask ≠ 0) : nonce ≠ aside mask nonce := by
  intro h
  rw [← aside_zero nonce] at h
  exact hmask (aside_inj (h.trans (congrArg (aside mask) (aside_zero nonce)))).symm

/-- Segments leave the first byte alone. -/
theorem segmentNonce_ne_aside (hmask : mask ≠ 0) (index : UInt64) (final : Bool) :
    segmentNonce nonce index final ≠ aside mask nonce := by
  intro h
  have hmasks : segmentMask index final = mask :: List.replicate 11 0 := by
    apply Bytes.xor_left_cancel (x := nonce.toBytes)
    · simp
    · simp
    · exact congrArg Octets.toBytes h
  exact hmask (List.cons.inj hmasks).1.symm

theorem segmentNonce_ne_signatureNonce (nonce : Octets 12) (index : UInt64) (final : Bool) :
    segmentNonce nonce index final ≠ signatureNonce nonce :=
  segmentNonce_ne_aside (by decide) index final

theorem segmentNonce_ne_trailerNonce (nonce : Octets 12) (index : UInt64) (final : Bool) :
    segmentNonce nonce index final ≠ trailerNonce nonce :=
  segmentNonce_ne_aside (by decide) index final

theorem signatureNonce_ne_trailerNonce (nonce : Octets 12) :
    signatureNonce nonce ≠ trailerNonce nonce := by
  intro h
  exact absurd (aside_inj h) (by decide)

theorem ne_signatureNonce (nonce : Octets 12) : nonce ≠ signatureNonce nonce :=
  ne_aside (by decide)

end Nonces

end EnvelopeCipher

namespace Encryption

open EnvelopeCipher

variable (c : EnvelopeCipher) (recipients : List Recipient)

/-- The header of a run and its content key. -/
def built (request : Encryption) : Random (EnvelopeHeader × Octets 32) := do
  let layout ← Random.lift (request.layout c)
  let signature ← Random.lift request.signature
  c.buildHeader layout (layout.inHeader signature) recipients

/-- What is encrypted behind a header: the text if it is not too long, or segment after segment and
then, if that and the signing went well, the signature. -/
def bodySealings (contentKey : Octets 32) (nonce : Octets 12) (encoded : Bytes) :
    Encryption → List Piece
  | .encrypt data | .signThenEncrypt data _ =>
      if data.length ≤ maxTextLength then
        [.encrypt contentKey nonce (boundTo bodyLabel encoded) data]
      else []
  | .encryptStream source =>
      (bodyKeys contentKey nonce encoded).sealings 0 (c.stream.plainRun source).segments
  | .signThenEncryptStream source signer =>
      let keys := bodyKeys contentKey nonce encoded
      let run := c.stream.plainRun source
      let signature := (StreamCipher.encryptRun keys run).ending >>= fun _ =>
        Signature.sign (Sha512.digest run.text).toBytes signer
      keys.sealings 0 run.segments ++
        match signature with
        | .ok s => [.encrypt contentKey (trailerNonce nonce) (boundTo trailerLabel encoded) s.toBytes]
        | .error _ => []

/-- All that a run has encrypted under its content key, in order. -/
def sealings (request : Encryption) (e : Entropy) : List Piece :=
  match (request.built c recipients e).1 with
  | .error _ => []
  | .ok (header, contentKey) =>
      header.signaturePieces ++
        match header.encode with
        | .error _ => []
        | .ok encoded => request.bodySealings c contentKey header.nonce encoded

/-- What a run puts out, whether or not it comes to an end; the buffered forms put out all at once
or nothing. -/
def emission : Encryption → Random (Emission Nat)
  | .encrypt data => do
      let envelope ← c.encrypt data recipients
      return ⟨[.write .encrypt envelope], .ok data.length⟩
  | .signThenEncrypt data signer => do
      let envelope ← c.signThenEncrypt data signer recipients
      return ⟨[.write .signThenEncrypt envelope], .ok data.length⟩
  | .encryptStream source => do
      let emit ← c.encryptStream recipients
      return emit source
  | .signThenEncryptStream source signer => do
      let emit ← c.signThenEncryptStream signer recipients
      return emit source

variable {c recipients}

/-- The result of a run is what it puts out, if it comes to an end. -/
theorem run_eq_ok {request : Encryption} {e last : Entropy} {envelope : Bytes} {n : Nat} :
    request.run c recipients e = (.ok (envelope, n), last) ↔
      ∃ emission, request.emission c recipients e = (.ok emission, last) ∧
        emission.collect = .ok (envelope, n) := by
  have hrun : request.run c recipients e =
      (request.emission c recipients >>= fun emission => Random.lift emission.collect) e := by
    cases request with
    | encrypt data =>
        simp only [run, emission, Random.bind_apply]
        rcases c.encrypt data recipients e with ⟨failure | out, next⟩
        · rfl
        · simp [Emission.collect, Emission.bytes, OutputStep.bytes]
          rfl
    | signThenEncrypt data signer =>
        simp only [run, emission, Random.bind_apply]
        rcases c.signThenEncrypt data signer recipients e with ⟨failure | out, next⟩
        · rfl
        · simp [Emission.collect, Emission.bytes, OutputStep.bytes]
          rfl
    | encryptStream source =>
        simp only [run, emission, Random.bind_apply]
        rcases c.encryptStream recipients e with ⟨failure | emit, next⟩ <;> rfl
    | signThenEncryptStream source signer =>
        simp only [run, emission, Random.bind_apply]
        rcases c.signThenEncryptStream signer recipients e with ⟨failure | emit, next⟩ <;> rfl
  rw [hrun, Random.bind_eq_ok]
  constructor
  · rintro ⟨emission, next, hemission, hlift⟩
    obtain ⟨hcollect, rfl⟩ := Random.lift_eq_ok.mp hlift
    exact ⟨emission, hemission, hcollect⟩
  · rintro ⟨emission, hemission, hcollect⟩
    exact ⟨emission, last, hemission, Random.lift_eq_ok.mpr ⟨hcollect, rfl⟩⟩

theorem built_eq_ok {request : Encryption} {e last : Entropy} {header : EnvelopeHeader}
    {contentKey : Octets 32} :
    request.built c recipients e = (.ok (header, contentKey), last) ↔
      ∃ layout signature, request.layout c = .ok layout ∧ request.signature = .ok signature ∧
        c.buildHeader layout (layout.inHeader signature) recipients e =
          (.ok (header, contentKey), last) := by
  simp only [built, Random.bind_eq_ok, Random.lift_eq_ok]
  constructor
  · rintro ⟨layout, _, ⟨hlayout, rfl⟩, signature, _, ⟨hsignature, rfl⟩, hheader⟩
    exact ⟨layout, signature, hlayout, hsignature, hheader⟩
  · rintro ⟨layout, signature, hlayout, hsignature, hheader⟩
    exact ⟨layout, e, ⟨hlayout, rfl⟩, signature, e, ⟨hsignature, rfl⟩, hheader⟩

/-- A signed body is what has been encrypted of the segments and, if that went well, the trailer. -/
theorem bytes_signedBody (keys : SegmentKeys) (run : SegmentRun) (signer : Ed25519PrivateKey)
    (trailer : Octets 64 → Piece) :
    Emission.bytes (do
      let consumed ← StreamCipher.encryptRun keys run
      let signature ← .ofExcept (Signature.sign (Sha512.digest run.text).toBytes signer)
      .write .signThenEncryptStream (trailer signature).sealedText
      .flush .signThenEncryptStream
      pure consumed) =
    (keys.sealings 0 run.segments ++
      match (StreamCipher.encryptRun keys run).ending >>= fun _ =>
        Signature.sign (Sha512.digest run.text).toBytes signer with
      | .ok signature => [trailer signature]
      | .error _ => []).flatMap Piece.sealedText := by
  rw [List.flatMap_append, ← SegmentKeys.bytes_encryptRun]
  cases hending : (StreamCipher.encryptRun keys run).ending with
  | error failure =>
      rw [Emission.bytes_bind_of_error hending]
      exact (List.append_nil _).symm
  | ok consumed =>
      rw [Emission.bytes_bind_of_ok hending]
      congr 1
      cases hsign : Signature.sign (Sha512.digest run.text).toBytes signer with
      | error failure => rfl
      | ok signature =>
          simp only [Emission.ofExcept_ok_bind]
          rfl

/-- What a run puts out is the header, and what it has encrypted behind that. -/
theorem bytes_of_emission {request : Encryption} {e last : Entropy} {emission : Emission Nat}
    (h : request.emission c recipients e = (.ok emission, last)) :
    ∃ header contentKey, request.built c recipients e = (.ok (header, contentKey), last) ∧
      ((∃ failure, header.encode = .error failure ∧ header.signature = none ∧
          emission = .fail failure) ∨
        ∃ encoded, header.encode = .ok encoded ∧ emission.bytes = encoded ++
          (request.bodySealings c contentKey header.nonce encoded).flatMap Piece.sealedText) := by
  cases request with
  | encrypt data =>
      obtain ⟨envelope, _, hpack, h⟩ := Random.bind_eq_ok.mp h
      cases h
      obtain ⟨header, contentKey, encoded, hheader, hencoded, hle, rfl⟩ := pack_eq_ok hpack
      refine ⟨header, contentKey, built_eq_ok.mpr ⟨_, _, rfl, rfl, hheader⟩, .inr
        ⟨encoded, hencoded, ?_⟩⟩
      rw [bodySealings, if_pos hle]
      simp [Emission.bytes, OutputStep.bytes, Piece.encrypt]
  | signThenEncrypt data signer =>
      obtain ⟨envelope, _, hsigned, h⟩ := Random.bind_eq_ok.mp h
      cases h
      obtain ⟨signature, _, hlift, hpack⟩ := Random.bind_eq_ok.mp hsigned
      obtain ⟨hsign, rfl⟩ := Random.lift_eq_ok.mp hlift
      obtain ⟨header, contentKey, encoded, hheader, hencoded, hle, rfl⟩ := pack_eq_ok hpack
      refine ⟨header, contentKey, built_eq_ok.mpr ⟨_, some signature, rfl,
        map_eq_ok.mpr ⟨signature, hsign, rfl⟩, hheader⟩, .inr ⟨encoded, hencoded, ?_⟩⟩
      rw [bodySealings, if_pos hle]
      simp [Emission.bytes, OutputStep.bytes, Piece.encrypt]
  | encryptStream source =>
      obtain ⟨emit, _, hemit, h⟩ := Random.bind_eq_ok.mp h
      cases h
      obtain ⟨size, header, contentKey, hsize, hheader, rfl⟩ := encryptStream_eq_ok hemit
      obtain ⟨-, -, -, hsignature, -⟩ := buildHeader_eq_ok hheader
      refine ⟨header, contentKey, built_eq_ok.mpr ⟨_, none, map_eq_ok.mpr ⟨size, hsize, rfl⟩, rfl,
        hheader⟩, ?_⟩
      cases hencoded : header.encode with
      | error failure =>
          exact .inl ⟨failure, rfl, hsignature, write_bind_of_error hencoded _⟩
      | ok encoded =>
          refine .inr ⟨encoded, rfl, ?_⟩
          refine (congrArg Emission.bytes (write_bind_of_ok hencoded _)).trans ?_
          refine congrArg (encoded ++ ·) ?_
          exact SegmentKeys.bytes_encryptRun _
  | signThenEncryptStream source signer =>
      obtain ⟨emit, _, hemit, h⟩ := Random.bind_eq_ok.mp h
      cases h
      obtain ⟨hempty, size, header, contentKey, hsize, hheader, rfl⟩ :=
        signThenEncryptStream_eq_ok hemit
      obtain ⟨-, -, -, hsignature, -⟩ := buildHeader_eq_ok hheader
      have hsign : Signature.sign (Sha512.digest source.bytes).toBytes signer = .ok _ :=
        Signature.sign_eq_ok.mpr ⟨hempty, rfl⟩
      refine ⟨header, contentKey, built_eq_ok.mpr ⟨_, some _, map_eq_ok.mpr ⟨size, hsize, rfl⟩,
        map_eq_ok.mpr ⟨_, hsign, rfl⟩, hheader⟩, ?_⟩
      cases hencoded : header.encode with
      | error failure =>
          exact .inl ⟨failure, rfl, hsignature, write_bind_of_error hencoded _⟩
      | ok encoded =>
          refine .inr ⟨encoded, rfl, ?_⟩
          refine (congrArg Emission.bytes (write_bind_of_ok hencoded _)).trans ?_
          refine congrArg (encoded ++ ·) ?_
          exact bytes_signedBody _ _ signer fun s =>
            .encrypt contentKey (trailerNonce header.nonce) (boundTo trailerLabel encoded) s.toBytes

section Nodup

variable {contentKey : Octets 32} {nonce : Octets 12} {encoded : Bytes}

/-- Behind a header, nothing is encrypted under a nonce that has been used. -/
theorem nodup_bodySealings (request : Encryption) :
    ((request.bodySealings c contentKey nonce encoded).map Piece.nonce).Nodup := by
  have hbuffered (data : Bytes) :
      ((if data.length ≤ maxTextLength then
        [Piece.encrypt contentKey nonce (boundTo bodyLabel encoded) data]
      else []).map Piece.nonce).Nodup := by
    split
    · exact List.nodup_singleton _
    · exact List.nodup_nil
  cases request with
  | encrypt data => exact hbuffered data
  | signThenEncrypt data signer => exact hbuffered data
  | encryptStream source => exact SegmentKeys.nodup_sealings (by decide) _
  | signThenEncryptStream source signer =>
      rw [bodySealings, List.map_append]
      refine List.nodup_append'.mpr ⟨SegmentKeys.nodup_sealings (by decide) _, ?_, ?_⟩
      · split
        · exact List.nodup_singleton _
        · exact List.nodup_nil
      · intro used hsegment htrailer
        obtain ⟨piece, hpiece, rfl⟩ := List.mem_map.mp hsegment
        obtain ⟨j, final, text, -, -, rfl⟩ :=
          SegmentKeys.exists_index_of_mem_sealings (by decide) hpiece
        split at htrailer
        · exact segmentNonce_ne_trailerNonce nonce _ final (List.mem_singleton.mp htrailer)
        · cases htrailer

/-- Whatever is encrypted behind a header is encrypted with its content key, and not under the
nonce for the signature of the header. -/
theorem eq_encrypt_of_mem_bodySealings {request : Encryption} {piece : Piece}
    (h : piece ∈ request.bodySealings c contentKey nonce encoded) :
    ∃ ad text, ∃ used ≠ signatureNonce nonce, piece = .encrypt contentKey used ad text := by
  have hbuffered (data : Bytes) (hmem : piece ∈ if data.length ≤ maxTextLength then
      [Piece.encrypt contentKey nonce (boundTo bodyLabel encoded) data] else []) :
      ∃ ad text, ∃ used ≠ signatureNonce nonce, piece = .encrypt contentKey used ad text := by
    split at hmem
    · exact ⟨_, data, nonce, ne_signatureNonce nonce, List.mem_singleton.mp hmem⟩
    · cases hmem
  have hsegment {segments : List Segment}
      (hmem : piece ∈ (bodyKeys contentKey nonce encoded).sealings 0 segments) :
      ∃ ad text, ∃ used ≠ signatureNonce nonce, piece = .encrypt contentKey used ad text := by
    obtain ⟨j, final, text, -, -, rfl⟩ :=
      SegmentKeys.exists_index_of_mem_sealings (by decide) hmem
    exact ⟨_, text, _, segmentNonce_ne_signatureNonce nonce _ final, rfl⟩
  cases request with
  | encrypt data => exact hbuffered data h
  | signThenEncrypt data signer => exact hbuffered data h
  | encryptStream source => exact hsegment h
  | signThenEncryptStream source signer =>
      rcases List.mem_append.mp h with hmem | htrailer
      · exact hsegment hmem
      · split at htrailer
        · exact ⟨_, _, _, (signatureNonce_ne_trailerNonce nonce).symm,
            List.mem_singleton.mp htrailer⟩
        · cases htrailer

theorem nodup_append_signaturePieces {header : EnvelopeHeader} {body : List Piece}
    (hbody : (body.map Piece.nonce).Nodup)
    (hother : ∀ piece ∈ body, piece.nonce ≠ signatureNonce header.nonce) :
    ((header.signaturePieces ++ body).map Piece.nonce).Nodup := by
  rw [EnvelopeHeader.signaturePieces]
  cases header.signature with
  | none => exact hbody
  | some encrypted =>
      refine List.nodup_cons.mpr ⟨?_, hbody⟩
      intro hmem
      obtain ⟨piece, hpiece, hnonce⟩ := List.mem_map.mp hmem
      exact hother piece hpiece hnonce

end Nodup

theorem sealings_of_built {request : Encryption} {e last : Entropy} {header : EnvelopeHeader}
    {contentKey : Octets 32}
    (h : request.built c recipients e = (.ok (header, contentKey), last)) :
    request.sealings c recipients e = header.signaturePieces ++
      match header.encode with
      | .error _ => []
      | .ok encoded => request.bodySealings c contentKey header.nonce encoded := by
  rw [sealings, h]

/-- Unless there is no header, it is what that holds, and nothing or all that a body holds. -/
theorem sealings_cases (request : Encryption) (c : EnvelopeCipher) (recipients : List Recipient)
    (e : Entropy) :
    request.sealings c recipients e = [] ∨
      ∃ header contentKey last body, request.built c recipients e =
          (.ok (header, contentKey), last) ∧
        request.sealings c recipients e = header.signaturePieces ++ body ∧
        (body = [] ∨ ∃ encoded, body = request.bodySealings c contentKey header.nonce encoded) := by
  rcases hbuilt : request.built c recipients e with ⟨failure | ⟨header, contentKey⟩, last⟩
  · left
    rw [sealings, hbuilt]
  · right
    refine ⟨header, contentKey, last, _, rfl, sealings_of_built hbuilt, ?_⟩
    cases header.encode with
    | error failure => exact .inl rfl
    | ok encoded => exact .inr ⟨encoded, rfl⟩

theorem nodup_sealings (request : Encryption) (c : EnvelopeCipher) (recipients : List Recipient)
    (e : Entropy) : ((request.sealings c recipients e).map Piece.nonce).Nodup := by
  rcases request.sealings_cases c recipients e with
    hnone | ⟨header, contentKey, last, body, -, hall, hbody⟩
  · rw [hnone]
    exact List.nodup_nil
  · rw [hall]
    rcases hbody with rfl | ⟨encoded, rfl⟩
    · apply nodup_append_signaturePieces
      · exact List.nodup_nil
      · exact nofun
    · apply nodup_append_signaturePieces
      · exact nodup_bodySealings request
      · intro piece hpiece
        obtain ⟨ad, text, used, hused, rfl⟩ := eq_encrypt_of_mem_bodySealings hpiece
        exact hused

/-- The key is the first that has been drawn. -/
theorem eq_encrypt_of_mem_sealings {request : Encryption} {e : Entropy} {piece : Piece}
    (h : piece ∈ request.sealings c recipients e) :
    ∃ text, piece = .encrypt (e.peek 32) piece.nonce piece.ad text := by
  rcases request.sealings_cases c recipients e with
    hnone | ⟨header, contentKey, last, body, hbuilt, hall, hbody⟩
  · rw [hnone] at h
    cases h
  · obtain ⟨layout, signature, -, -, hheader⟩ := built_eq_ok.mp hbuilt
    obtain ⟨rfl, -, -, hsignature, -⟩ := buildHeader_eq_ok hheader
    rw [hall] at h
    rcases List.mem_append.mp h with hfront | hback
    · rw [EnvelopeHeader.signaturePieces, hsignature] at hfront
      obtain ⟨encrypted, hencrypted, rfl⟩ := List.mem_map.mp hfront
      obtain ⟨s, -, rfl⟩ := Option.map_eq_some_iff.mp (Option.mem_toList.mp hencrypted)
      exact ⟨s.toBytes, rfl⟩
    · rcases hbody with rfl | ⟨encoded, rfl⟩
      · cases hback
      · obtain ⟨ad, text, used, -, rfl⟩ := eq_encrypt_of_mem_bodySealings hback
        exact ⟨text, rfl⟩

end Encryption

/-- However long the text is and wherever a run ends, no nonce is used twice with its content key.
What a run has encrypted is what it puts out behind the header, and the signature in that. The nonce
of a segment tells its number and flag, and is no nonce for a signature, since numbers do not start
again: behind the last one encryption fails. -/
theorem nonces_fresh (c : EnvelopeCipher) (recipients : List Recipient) (request : Encryption)
    (e : Entropy) :
    ((request.sealings c recipients e).map Piece.nonce).Nodup ∧
    (∀ piece ∈ request.sealings c recipients e,
      ∃ text, piece = .encrypt (e.peek 32) piece.nonce piece.ad text) ∧
    (∀ emission last, request.emission c recipients e = (.ok emission, last) →
      (request.sealings c recipients e = [] ∧ ∃ failure, emission = .fail failure) ∨
        ∃ (header : EnvelopeHeader) (encoded : Bytes) (body : List Piece),
          header.encode = .ok encoded ∧
          request.sealings c recipients e = header.signaturePieces ++ body ∧
          emission.bytes = encoded ++ body.flatMap Piece.sealedText) ∧
    (∀ envelope n last, request.run c recipients e = (.ok (envelope, n), last) ↔
      ∃ emission, request.emission c recipients e = (.ok emission, last) ∧
        emission.collect = .ok (envelope, n)) ∧
    (∀ base i j final final', segmentNonce base i final = segmentNonce base j final' →
      i = j ∧ final = final') ∧
    (∀ base i final, segmentNonce base i final ≠ EnvelopeCipher.signatureNonce base ∧
      segmentNonce base i final ≠ EnvelopeCipher.trailerNonce base) ∧
    (∀ base, base ≠ EnvelopeCipher.signatureNonce base ∧
      EnvelopeCipher.signatureNonce base ≠ EnvelopeCipher.trailerNonce base) ∧
    ∀ index, (∀ next, nextIndex index = .ok next → next.toNat = index.toNat + 1) ∧
      (nextIndex index = .error (.invalidParameter .countersExhausted) ↔
        index.toNat + 1 = UInt64.size) := by
  refine ⟨request.nodup_sealings c recipients e, ?_, ?_, ?_, ?_, ?_, ?_, ?_⟩
  · intro piece hpiece
    exact Encryption.eq_encrypt_of_mem_sealings hpiece
  · intro emission last hemission
    obtain ⟨header, contentKey, hbuilt, houtput⟩ := Encryption.bytes_of_emission hemission
    have hall := Encryption.sealings_of_built hbuilt
    rcases houtput with ⟨failure, hencoded, hsignature, rfl⟩ | ⟨encoded, hencoded, hbytes⟩
    · left
      rw [hall, hencoded, EnvelopeHeader.signaturePieces, hsignature]
      exact ⟨rfl, failure, rfl⟩
    · right
      rw [hencoded] at hall
      exact ⟨header, encoded, _, hencoded, hall, hbytes⟩
  · intro envelope n last
    exact Encryption.run_eq_ok
  · intro base i j final final' h
    exact segmentNonce_inj h
  · intro base i final
    exact ⟨EnvelopeCipher.segmentNonce_ne_signatureNonce base i final,
      EnvelopeCipher.segmentNonce_ne_trailerNonce base i final⟩
  · intro base
    exact ⟨EnvelopeCipher.ne_signatureNonce base,
      EnvelopeCipher.signatureNonce_ne_trailerNonce base⟩
  · intro index
    exact ⟨fun next => toNat_of_nextIndex, nextIndex_exhausted⟩

/-- The signature in the header and the body are encrypted with one key, under two nonces. -/
theorem nonces_fresh_sevens : ∃ envelope last first second,
    (Encryption.signThenEncrypt shortText sevenKey).run cheapCipher [.key sevenPublicKey] sevens =
        (.ok (envelope, 3), last) ∧
      (Encryption.signThenEncrypt shortText sevenKey).sealings cheapCipher
        [.key sevenPublicKey] sevens = [first, second] ∧
      first.nonce ≠ second.nonce := by
  have hlength : shortText.length ≤ maxTextLength := by decide
  obtain ⟨envelope, last, hrun⟩ := exists_signThenEncrypt
    (isEmpty_of_publicKey publicKey_sevenKey) rfl (by simp) wrappable_sevenPublicKey (by simp)
    hlength
  obtain ⟨emission, hemission, hcollect⟩ := Encryption.run_eq_ok.mp hrun
  obtain ⟨header, contentKey, hbuilt, houtput⟩ := Encryption.bytes_of_emission hemission
  have hall := Encryption.sealings_of_built hbuilt
  obtain ⟨layout, signature, hlayout, hsignature, hheader⟩ := Encryption.built_eq_ok.mp hbuilt
  have hsigned : (Signature.sign shortText sevenKey).map some = .ok signature := hsignature
  obtain ⟨s, -, rfl⟩ := map_eq_ok.mp hsigned
  cases hlayout
  obtain ⟨-, -, -, hencrypted, -⟩ := buildHeader_eq_ok hheader
  rcases houtput with ⟨failure, -, -, rfl⟩ | ⟨encoded, hencoded, -⟩
  · cases hcollect
  · rw [EnvelopeHeader.signaturePieces, hencrypted, hencoded] at hall
    dsimp only at hall
    rw [Encryption.bodySealings, if_pos hlength] at hall
    obtain ⟨hnodup, -⟩ := nonces_fresh cheapCipher [.key sevenPublicKey]
      (.signThenEncrypt shortText sevenKey) sevens
    rw [hall] at hnodup
    refine ⟨envelope, last, _, _, hrun, hall, ?_⟩
    exact fun hsame => (List.nodup_cons.mp hnodup).1 (List.mem_singleton.mpr hsame)

end SealedEnvelope
