import SealedEnvelope.Proofs.Envelope.Agreement
import SealedEnvelope.Proofs.Envelope.Checked
import SealedEnvelope.Proofs.Segment.StreamFormat
import SealedEnvelope.Toolkit.Envelopes

/-!
Envelopes that anyone may have made. Decrypting a string of bytes leaves no buffer and spends no
more than a reader grants, it draws nothing, and it fails in a few ways only.
-/

namespace SealedEnvelope

/-- If this fails, then with a failure of one of the kinds. -/
def FailsAs {α : Type} (kinds : List FailureKind) (x : Except Failure α) : Prop :=
  ∀ failure, x = .error failure → failure.kind ∈ kinds

namespace FailsAs

variable {α β : Type} {kinds kinds' : List FailureKind} {x y : Except Failure α}

theorem ok (a : α) : FailsAs kinds (.ok a) := nofun

theorem error {failure : Failure} (kind : FailureKind) (hkind : failure.kind = kind)
    (h : kind ∈ kinds) : FailsAs kinds (.error failure : Except Failure α) := by
  rintro _ ⟨⟩
  rwa [hkind]

theorem mono (h : FailsAs kinds x) (hsub : kinds ⊆ kinds') : FailsAs kinds' x :=
  fun failure hfailure => hsub (h failure hfailure)

theorem bind {f : α → Except Failure β} (h : FailsAs kinds x)
    (hf : ∀ a, x = .ok a → FailsAs kinds (f a)) : FailsAs kinds (x >>= f) := by
  intro failure hfailure
  rcases bind_eq_error.mp hfailure with hx | ⟨a, hx, hrest⟩
  · exact h failure hx
  · exact hf a hx failure hrest

theorem map_iff {f : α → β} : FailsAs kinds (x.map f) ↔ FailsAs kinds x := by
  simp only [FailsAs, map_eq_error]

theorem of_alike (h : FailsAs kinds x) (halike : Alike x y) : FailsAs kinds y := by
  intro failure hfailure
  obtain ⟨failure', hx, hkind⟩ := Alike.exists_error halike.symm hfailure
  exact hkind ▸ h failure' hx

theorem ending_bind {e : Emission α} {f : α → Emission β} (h : FailsAs kinds e.ending)
    (hf : ∀ a, e.ending = .ok a → FailsAs kinds (f a).ending) :
    FailsAs kinds (e >>= f).ending := by
  rw [Emission.ending_bind]
  exact h.bind hf

end FailsAs

/-- What comes of bytes that are no envelope, that are not for the reader, or that have been
tampered with. -/
def openingKinds : List FailureKind :=
  [.invalidFormat, .recipientNotFound, .invalidKey, .authenticationFailed]

/-- Besides, there may be no valid signature by any of the verifiers. -/
def verifyingKinds : List FailureKind := .signatureVerificationFailed :: openingKinds

theorem openingKinds_subset : openingKinds ⊆ verifyingKinds := List.subset_cons_self _ _

theorem authenticationFailed_mem : .authenticationFailed ∈ openingKinds := by simp [openingKinds]

theorem signatureVerificationFailed_mem : .signatureVerificationFailed ∈ verifyingKinds :=
  List.mem_cons_self ..

namespace FailsAs

variable {α : Type}

theorem invalidFormat (fault : FormatFault) :
    FailsAs openingKinds (.error (.invalidFormat fault) : Except Failure α) :=
  error .invalidFormat rfl (by simp [openingKinds])

theorem recipientNotFound (addressee : Addressee) :
    FailsAs openingKinds (.error (.recipientNotFound addressee) : Except Failure α) :=
  error .recipientNotFound rfl (by simp [openingKinds])

theorem invalidKey (operation : Operation) (fault : KeyFault) :
    FailsAs openingKinds (.error (.invalidKey operation fault) : Except Failure α) :=
  error .invalidKey rfl (by simp [openingKinds])

theorem authenticationFailed (operation : Operation) :
    FailsAs openingKinds (.error (.authenticationFailed operation) : Except Failure α) :=
  error .authenticationFailed rfl authenticationFailed_mem

theorem signatureVerificationFailed (operation : Operation) :
    FailsAs verifyingKinds (.error (.signatureVerificationFailed operation) : Except Failure α) :=
  error .signatureVerificationFailed rfl signatureVerificationFailed_mem

end FailsAs

section Unwrapping

variable (operation : Operation)

theorem failsAs_openText {kinds : List FailureKind} (h : .authenticationFailed ∈ kinds)
    (key : Octets 32) (nonce : Octets 12) (ad sealedText : Bytes) :
    FailsAs kinds (openText operation key nonce ad sealedText) := by
  rw [openText]
  split
  case isTrue =>
    cases Gcm.decrypt key nonce ad sealedText with
    | none => exact .error .authenticationFailed rfl h
    | some text => exact .ok text
  case isFalse => exact .error .authenticationFailed rfl h

theorem failsAs_contentKey (bytes : Bytes) : FailsAs openingKinds (contentKey operation bytes) := by
  rw [contentKey]
  cases Octets.ofBytes? 32 bytes with
  | none => exact .invalidKey _ _
  | some key => exact .ok key

theorem failsAs_usableSeed (key : Ed25519PrivateKey) :
    FailsAs openingKinds (key.usableSeed operation) := by
  rw [Ed25519PrivateKey.usableSeed]
  split
  case isTrue => exact .invalidKey _ _
  case isFalse => exact .ok _

theorem failsAs_toX25519 (key : Ed25519PublicKey) :
    FailsAs openingKinds (key.toX25519 operation) := by
  rw [Ed25519PublicKey.toX25519, FailsAs.map_iff, Ed25519PublicKey.point]
  split
  case isTrue => exact .invalidKey _ _
  case isFalse =>
    cases EdwardsPoint.ofBytes? key.bytes with
    | none => exact .invalidKey _ _
    | some point =>
        dsimp only
        split
        case isTrue => exact .invalidKey _ _
        case isFalse => exact .ok point

theorem failsAs_agreeX25519 (scalar point : Octets 32) :
    FailsAs openingKinds (agreeX25519 operation scalar point) := by
  simp only [agreeX25519]
  split
  case isTrue => exact .invalidKey _ _
  case isFalse => exact .ok _

theorem failsAs_unwrapForKey (algorithm : FingerprintAlgorithm) (entries : List RecipientEntry)
    (key : Ed25519PrivateKey) :
    FailsAs openingKinds (RecipientEntry.unwrapForKey operation algorithm entries key) := by
  apply FailsAs.bind (FailsAs.map_iff.mpr (failsAs_usableSeed _ key))
  intro publicKey _
  dsimp only
  cases entries.findSome? (RecipientEntry.forKeyId? (publicKey.identifier algorithm)) with
  | none => exact .recipientNotFound _
  | some found =>
      obtain ⟨ephemeralKey, wrappedKey⟩ := found
      apply (failsAs_toX25519 operation publicKey).bind
      intro recipientPoint _
      apply ((failsAs_usableSeed operation key).bind fun seed _ =>
        failsAs_agreeX25519 operation _ ephemeralKey).bind
      intro shared _
      cases (WrapSecret.ofAgreement shared ephemeralKey recipientPoint).unwrap?
        (publicKey.identifier algorithm).bytes wrappedKey with
      | none => exact .authenticationFailed _
      | some bytes => exact failsAs_contentKey operation bytes

theorem failsAs_tryPassword (phrase : Bytes) (t : RecipientEntry.PasswordTrial)
    (entries : List RecipientEntry) :
    FailsAs openingKinds (RecipientEntry.tryPassword operation phrase t entries) := by
  induction entries generalizing t with
  | nil =>
      rw [RecipientEntry.tryPassword, RecipientEntry.PasswordTrial.failure]
      split
      case isTrue => exact .authenticationFailed _
      case isFalse =>
        cases t.unusable with
        | none => exact .recipientNotFound _
        | some fault => exact .invalidFormat _
  | cons entry entries ih =>
      cases entry with
      | key keyId ephemeralKey wrappedKey => exact ih t
      | password salt costs wrappedKey =>
          rw [RecipientEntry.tryPassword]
          cases RecipientEntry.passwordSecret costs salt phrase with
          | error fault => exact ih _
          | ok secret =>
              dsimp only
              cases secret.unwrap? salt.toBytes wrappedKey with
              | none => exact ih _
              | some bytes => exact failsAs_contentKey operation bytes

theorem Credential.failsAs_unwrap (c : EnvelopeCipher) (credential : Credential)
    (header : EnvelopeHeader) :
    FailsAs openingKinds (credential.unwrap c operation header) := by
  cases credential with
  | key privateKey => exact failsAs_unwrapForKey operation _ _ privateKey
  | password phrase => exact failsAs_tryPassword operation phrase _ _

end Unwrapping

theorem failsAs_decode (data : Bytes) : FailsAs openingKinds (EnvelopeHeader.decode data) := by
  have hholds := (Source.ofBytes data).view_holds
  rw [Source.bytes_ofBytes] at hholds
  rcases EnvelopeHeader.readFrom_cases Source.view hholds with
    ⟨header, offset, _, hdecode, -⟩ | ⟨fault, _, _, hdecode, -⟩
  · rw [hdecode]
    exact .ok _
  · rw [hdecode]
    exact .invalidFormat _

/-- Every segment takes sixteen bytes at least, so the numbers last for all that are there. -/
theorem StreamCipher.failsAs_decryptBytes (c : StreamCipher) (k : SegmentKeys) {bytes : Bytes}
    (h : bytes.length < 2 ^ 64) : FailsAs openingKinds (c.decryptBytes k bytes).ending := by
  intro failure hfailure
  obtain ⟨plain, rest, hsegments, -, -, -, hend⟩ := k.decryptRun_cases .streamDecrypt
    ⟨flagLast (Bytes.cut (c.bufferSize.val + 16) bytes), none⟩
  rcases hend with ⟨-, hending⟩ | ⟨-, -, hending⟩ | ⟨-, hcount, -⟩
  · cases hfailure.symm.trans hending
  · exact FailsAs.authenticationFailed _ failure (hending ▸ hfailure)
  · have htext : (k.encryptFrom 0 plain ++ rest).flatMap Segment.text = bytes := by
      rw [← hsegments, text_flagLast, Bytes.flatten_cut (by omega)]
    have hlength := congrArg List.length htext
    have hsize : UInt64.size = 2 ^ 64 := rfl
    rw [List.flatMap_append, List.length_append, k.length_flatMap_encryptFrom] at hlength
    omega

namespace EnvelopeCipher

variable {operation : Operation} {kinds : List FailureKind}

theorem failsAs_openBytes {header : EnvelopeHeader} (hread : header.Readable)
    (encodedHeader : Bytes) (contentKey : Octets 32) {body : Bytes} (h : body.length < 2 ^ 64) :
    FailsAs openingKinds (openBytes operation header encodedHeader contentKey body).ending := by
  rw [openBytes]
  cases hlayout : header.layout with
  | sealed =>
      have hopen := failsAs_openText operation authenticationFailed_mem contentKey
      apply FailsAs.ending_bind (hopen _ _ _)
      intro text _
      apply FailsAs.ending_bind
      · cases header.signature with
        | none => exact .ok none
        | some sealedText => exact FailsAs.map_iff.mpr (hopen _ _ sealedText)
      · intro signature _
        exact .ok _
  | stream size =>
      obtain ⟨cipher, hcipher, -⟩ := hread.exists_segmentCipher (Or.inl hlayout)
      simp only [hcipher, Emission.ofExcept_ok_bind]
      exact FailsAs.ending_bind (cipher.failsAs_decryptBytes _ h) fun written _ => .ok _
  | signedStream size =>
      obtain ⟨cipher, hcipher, -⟩ := hread.exists_segmentCipher (Or.inr hlayout)
      simp only [hcipher, Emission.ofExcept_ok_bind]
      have hfront : (front body).length < 2 ^ 64 := (List.length_take_le' _ _).trans_lt h
      apply FailsAs.ending_bind (cipher.failsAs_decryptBytes _ hfront)
      intro written _
      cases trailer? body with
      | none => exact .authenticationFailed _
      | some trailer =>
          have hopen := failsAs_openText operation authenticationFailed_mem contentKey
          exact FailsAs.ending_bind (hopen _ _ _) fun signature _ => .ok _

variable {unwrap : EnvelopeHeader → Except Failure (Octets 32)}

theorem failsAs_opening (hsub : openingKinds ⊆ kinds)
    (hunwrap : ∀ header, FailsAs kinds (unwrap header)) {data : Bytes}
    (h : data.length < 2 ^ 64) : FailsAs kinds (opening operation unwrap data).ending := by
  apply FailsAs.ending_bind ((failsAs_decode data).mono hsub)
  rintro ⟨header, offset⟩ hdecode
  obtain ⟨hread, -⟩ := EnvelopeHeader.readable_of_decode hdecode
  apply FailsAs.ending_bind (hunwrap header)
  intro contentKey _
  have hbody : (data.drop offset).length < 2 ^ 64 := by
    rw [List.length_drop]
    omega
  exact (failsAs_openBytes hread _ contentKey hbody).mono hsub

theorem failsAs_decryptWith (hsub : openingKinds ⊆ kinds)
    (hunwrap : ∀ header, FailsAs kinds (unwrap header)) {data : Bytes}
    (h : data.length < 2 ^ 64) : FailsAs kinds (decryptWith operation unwrap data) := by
  rw [← FailsAs.map_iff (f := Prod.snd), decryptWith_eq, FailsAs.map_iff, Emission.collect,
    FailsAs.map_iff]
  exact failsAs_opening hsub hunwrap h

theorem failsAs_decryptStreamWith (hsub : openingKinds ⊆ kinds)
    (hunwrap : ∀ header, FailsAs kinds (unwrap header)) {source : Source}
    (hsource : source.fault = none) (h : source.bytes.length < 2 ^ 64) :
    FailsAs kinds (decryptStreamWith operation unwrap source).ending :=
  (failsAs_opening hsub hunwrap h).of_alike (alike_decryptStreamWith hsource).ending

end EnvelopeCipher

section Forms

variable (c : EnvelopeCipher)

theorem Credential.failsAs_decrypt (credential : Credential) {data : Bytes}
    (h : data.length < 2 ^ 64) : FailsAs openingKinds (credential.decrypt c data) := by
  rw [Credential.decrypt_eq, FailsAs.map_iff, Emission.collect, FailsAs.map_iff]
  exact EnvelopeCipher.failsAs_opening (List.Subset.refl _) (credential.failsAs_unwrap _ c) h

theorem Credential.failsAs_decryptStream (credential : Credential) {source : Source}
    (hsource : source.fault = none) (h : source.bytes.length < 2 ^ 64) :
    FailsAs openingKinds (credential.decryptStream c source).ending := by
  rw [Credential.decryptStream_eq, Emission.ending_map, FailsAs.map_iff]
  exact EnvelopeCipher.failsAs_decryptStreamWith (List.Subset.refl _)
    (credential.failsAs_unwrap _ c) hsource h

namespace EnvelopeCipher

variable (operation : Operation) (key : Ed25519PrivateKey) (verifiers : List Ed25519PublicKey)

theorem failsAs_verifyAny {kinds : List FailureKind} (h : .signatureVerificationFailed ∈ kinds)
    (message signature : Bytes) :
    FailsAs kinds (verifyAny operation message signature verifiers) := by
  rw [verifyAny]
  split
  case isTrue => exact .ok ()
  case isFalse => exact .error .signatureVerificationFailed rfl h

theorem failsAs_unwrapForKey_verifying (header : EnvelopeHeader) :
    FailsAs verifyingKinds (c.unwrapForKey operation key header) :=
  ((Credential.key key).failsAs_unwrap operation c header).mono openingKinds_subset

theorem failsAs_unwrapSigned (header : EnvelopeHeader) :
    FailsAs verifyingKinds (unwrapSigned operation (c.unwrapForKey operation key) header) := by
  rw [unwrapSigned]
  cases header.layout with
  | sealed => exact .signatureVerificationFailed _
  | stream size => exact .signatureVerificationFailed _
  | signedStream size => exact c.failsAs_unwrapForKey_verifying operation key header

theorem failsAs_decryptThenVerify {data : Bytes} (h : data.length < 2 ^ 64) :
    FailsAs verifyingKinds (c.decryptThenVerify data key verifiers) := by
  rw [decryptThenVerify]
  dsimp only
  split
  case isTrue => exact .signatureVerificationFailed _
  case isFalse =>
    apply (failsAs_decryptWith openingKinds_subset (c.failsAs_unwrapForKey_verifying _ key) h).bind
    rintro ⟨header, text, signature⟩ _
    cases signature with
    | none => exact .signatureVerificationFailed _
    | some signature =>
        apply (failsAs_verifyAny _ verifiers signatureVerificationFailed_mem _ signature).bind
        exact fun _ _ => .ok text

theorem failsAs_decryptThenVerifyStream {source : Source} (hsource : source.fault = none)
    (h : source.bytes.length < 2 ^ 64) :
    FailsAs verifyingKinds (c.decryptThenVerifyStream key verifiers source).ending := by
  rw [decryptThenVerifyStream]
  dsimp only
  split
  case isTrue => exact .signatureVerificationFailed _
  case isFalse =>
    apply FailsAs.ending_bind (failsAs_decryptStreamWith openingKinds_subset
      (c.failsAs_unwrapSigned _ key) hsource h)
    rintro ⟨written, signature⟩ _
    cases signature with
    | none => exact .signatureVerificationFailed _
    | some signature =>
        apply FailsAs.ending_bind
        · exact failsAs_verifyAny _ verifiers signatureVerificationFailed_mem _ signature
        · exact fun _ _ => .ok written

end EnvelopeCipher

end Forms

/-- What is decrypted with all checks is what is decrypted without them, and if that fails, then
in one of the ways. -/
structure Withstands (kinds : List FailureKind) (checked : Checked Bytes)
    (plain : Except Failure Bytes) : Prop where
  run_eq : checked.run = some plain
  failsAs : FailsAs kinds plain

/-- The same of decryption from a source, whatever that does. A source and a writer that do not
fail are no reason to fail either. -/
structure StreamWithstands (kinds : List FailureKind) (data : Bytes)
    (checked : Source → Option (Emission Nat)) (plain : Source → Emission Nat) : Prop where
  checked_eq : ∀ source, checked source = some (plain source)
  failsAs : ∀ source : Source, source.bytes = data → source.fault = none →
    ∀ sink : Sink, sink.Reliable → FailsAs kinds (sink.deliver (plain source)).1

theorem StreamWithstands.of_ending {kinds : List FailureKind} {data : Bytes}
    {checked : Source → Option (Emission Nat)} {plain : Source → Emission Nat}
    (hchecked : ∀ source, checked source = some (plain source))
    (hending : ∀ source : Source, source.bytes = data → source.fault = none →
      FailsAs kinds (plain source).ending) : StreamWithstands kinds data checked plain := by
  refine ⟨hchecked, fun source hbytes hsource sink hsink => ?_⟩
  obtain ⟨next, hdeliver, -⟩ := hsink.deliver (plain source)
  rw [hdeliver]
  exact hending source hbytes hsource

/-- Nothing is taken from the random source. -/
def DrawsNothing {α : Type} (work : StateM Surroundings α) : Prop :=
  ∀ s, (work s).2.entropy = s.entropy

namespace DrawsNothing

variable (t : Toolkit) (operation : Operation)

theorem record {α : Type} (keyId : Option KeyId) (result : Except Failure α) :
    DrawsNothing (t.record operation keyId result) := by
  intro s
  unfold Toolkit.record
  split <;> rfl

theorem report {α : Type} (keyId : Except Failure α → Option KeyId) (result : Except Failure α) :
    DrawsNothing (t.report operation keyId (pure result)) :=
  fun s => record t operation (keyId result) result s

theorem reportStream (keyId : Option KeyId) (result : Except Failure (Emission Nat))
    (sink : Sink) : DrawsNothing (t.reportStream operation keyId (pure result) sink) := by
  intro s
  cases result with
  | error failure => exact record t operation keyId (.error failure : Except Failure Nat) s
  | ok emission => exact record t operation keyId (sink.deliver emission).1 s

end DrawsNothing

/-- Whatever bytes are decrypted, no check fails: none of a place in a buffer, of the cost of a
password, or of the size of a header or a segment. Nothing is drawn, and if there is no text, then
because the bytes are no envelope, or not for the reader, or do not authenticate; and where a
signature is asked for, because there is none that is valid. -/
theorem untrusted_decryption_bounded (c : EnvelopeCipher) (key : Ed25519PrivateKey)
    (phrase : Bytes) (verifiers : List Ed25519PublicKey) {data : Bytes}
    (hdata : data.length < 2 ^ 64) :
    Withstands openingKinds (Checked.decrypt c (.key key) data) (c.decrypt data key) ∧
      Withstands openingKinds (Checked.decrypt c (.password phrase) data)
        (EnvelopeCipher.decryptWithPassword data phrase) ∧
      Withstands verifyingKinds (Checked.decryptThenVerify c key verifiers data)
        (c.decryptThenVerify data key verifiers) ∧
      StreamWithstands openingKinds data (Checked.decryptStream c (.key key))
        (c.decryptStream key) ∧
      StreamWithstands openingKinds data (Checked.decryptStream c (.password phrase))
        (EnvelopeCipher.decryptStreamWithPassword phrase) ∧
      StreamWithstands verifyingKinds data (Checked.decryptThenVerifyStream c key verifiers)
        (c.decryptThenVerifyStream key verifiers) ∧
      ∀ (t : Toolkit) (key : PrivateKey) (verifiers : List PublicKey) (source : Source)
        (sink : Sink),
        DrawsNothing (t.decrypt data key) ∧ DrawsNothing (t.decryptWithPassword data phrase) ∧
          DrawsNothing (t.decryptThenVerify data key verifiers) ∧
          DrawsNothing (t.decryptStream key source sink) ∧
          DrawsNothing (t.decryptStreamWithPassword phrase source sink) ∧
          DrawsNothing (t.decryptThenVerifyStream key verifiers source sink) := by
  refine ⟨⟨Checked.decrypt_eq c (.key key) data, ?_⟩,
    ⟨Checked.decrypt_eq c (.password phrase) data, ?_⟩,
    ⟨Checked.decryptThenVerify_eq c key verifiers data, ?_⟩, ?_, ?_, ?_, ?_⟩
  · exact (Credential.key key).failsAs_decrypt c hdata
  · exact (Credential.password phrase).failsAs_decrypt c hdata
  · exact c.failsAs_decryptThenVerify key verifiers hdata
  · apply StreamWithstands.of_ending (Checked.decryptStream_eq c (.key key))
    rintro source rfl hsource
    exact (Credential.key key).failsAs_decryptStream c hsource hdata
  · apply StreamWithstands.of_ending (Checked.decryptStream_eq c (.password phrase))
    rintro source rfl hsource
    exact (Credential.password phrase).failsAs_decryptStream c hsource hdata
  · apply StreamWithstands.of_ending (Checked.decryptThenVerifyStream_eq c key verifiers)
    rintro source rfl hsource
    exact c.failsAs_decryptThenVerifyStream key verifiers hsource hdata
  · intro t key verifiers source sink
    exact ⟨.report t _ _ _, .report t _ _ _, .report t _ _ _, .reportStream t _ _ _ sink,
      .reportStream t _ _ _ sink, .reportStream t _ _ _ sink⟩

theorem untrusted_decryption_bounded_short :
    ([1, 2, 3] : Bytes).length < 2 ^ 64 ∧
      (Checked.decrypt cheapCipher (.key sevenKey) [1, 2, 3]).run =
        some (.error (.invalidFormat .envelopeTooShort)) ∧
      FailsAs openingKinds (cheapCipher.decrypt [1, 2, 3] sevenKey) := by
  have hshort : ([1, 2, 3] : Bytes).length < 2 ^ 64 := by decide
  obtain ⟨hkey, -⟩ := untrusted_decryption_bounded cheapCipher sevenKey sevenPhrase [] hshort
  refine ⟨hshort, ?_, hkey.failsAs⟩
  rw [hkey.run_eq]
  rfl

end SealedEnvelope
