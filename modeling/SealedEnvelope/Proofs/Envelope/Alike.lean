import SealedEnvelope.Proofs.Envelope.Opening

/-!
Computations that differ in the operation they blame only. They succeed with the
same result or fail with failures of one kind, and write the same bytes; whatever
opens an envelope is of this sort.
-/

namespace SealedEnvelope

/-- The kinds of failures, without what they tell about the occasion. -/
inductive FailureKind where
  | unsupportedKeyType
  | invalidKey
  | authenticationFailed
  | recipientNotFound
  | signatureVerificationFailed
  | randomSource
  | invalidFormat
  | invalidParameter
  | io
deriving DecidableEq, Repr

def Failure.kind : Failure → FailureKind
  | .unsupportedKeyType _ _ => .unsupportedKeyType
  | .invalidKey _ _ => .invalidKey
  | .authenticationFailed _ => .authenticationFailed
  | .recipientNotFound _ => .recipientNotFound
  | .signatureVerificationFailed _ => .signatureVerificationFailed
  | .randomSource => .randomSource
  | .invalidFormat _ => .invalidFormat
  | .invalidParameter _ => .invalidParameter
  | .io _ _ => .io

/-- The same result, or failures of one kind. -/
def Alike {α : Type} (x y : Except Failure α) : Prop :=
  x.mapError Failure.kind = y.mapError Failure.kind

namespace Alike

variable {α β : Type} {x y : Except Failure α}

theorem refl (x : Except Failure α) : Alike x x := rfl

theorem of_error {f g : Failure} (h : f.kind = g.kind) :
    Alike (.error f : Except Failure α) (.error g) :=
  congrArg Except.error h

theorem eq_ok_iff (h : Alike x y) {a : α} : x = .ok a ↔ y = .ok a := by
  rw [← mapError_eq_ok, h, mapError_eq_ok]

theorem exists_error (h : Alike x y) {f : Failure} (hx : x = .error f) :
    ∃ g, y = .error g ∧ g.kind = f.kind := by
  subst hx
  cases y with
  | error g => exact ⟨g, rfl, (Except.error.inj h).symm⟩
  | ok a => cases h

theorem bind {f g : α → Except Failure β} (h : Alike x y) (hf : ∀ a, Alike (f a) (g a)) :
    Alike (x >>= f) (y >>= g) := by
  cases x with
  | error failure =>
      obtain ⟨failure', rfl, hkind⟩ := h.exists_error rfl
      exact of_error hkind.symm
  | ok a =>
      obtain rfl := h.eq_ok_iff.mp rfl
      exact hf a

theorem map (f : α → β) (h : Alike x y) : Alike (x.map f) (y.map f) := by
  cases x with
  | error failure =>
      obtain ⟨failure', rfl, hkind⟩ := h.exists_error rfl
      exact of_error hkind.symm
  | ok a =>
      obtain rfl := h.eq_ok_iff.mp rfl
      exact refl _

end Alike

/-- The same bytes written, and endings that are alike. -/
structure Emission.Alike {α : Type} (e e' : Emission α) : Prop where
  bytes_eq : e.bytes = e'.bytes
  ending : SealedEnvelope.Alike e.ending e'.ending

namespace Emission.Alike

variable {α β : Type} {e e' : Emission α}

theorem refl (e : Emission α) : e.Alike e := ⟨rfl, .refl _⟩

theorem trans {e'' : Emission α} (h : e.Alike e') (h' : e'.Alike e'') : e.Alike e'' :=
  ⟨h.bytes_eq.trans h'.bytes_eq, h.ending.trans h'.ending⟩

theorem ofExcept {x y : Except Failure α} (h : SealedEnvelope.Alike x y) :
    (Emission.ofExcept x).Alike (Emission.ofExcept y) := ⟨rfl, h⟩

theorem write (operation operation' : Operation) (bytes : Bytes) :
    (Emission.write operation bytes).Alike (Emission.write operation' bytes) := by
  refine ⟨?_, .refl _⟩
  rw [bytes_write, bytes_write]

theorem flush (operation operation' : Operation) :
    (Emission.flush operation).Alike (Emission.flush operation') := ⟨rfl, .refl _⟩

theorem bind {f g : α → Emission β} (h : e.Alike e') (hf : ∀ a, (f a).Alike (g a)) :
    (e >>= f).Alike (e' >>= g) := by
  cases hending : e.ending with
  | error failure =>
      obtain ⟨failure', hending', hkind⟩ := h.ending.exists_error hending
      refine ⟨?_, ?_⟩
      · rw [bytes_bind_of_error hending, bytes_bind_of_error hending', h.bytes_eq]
      · rw [bind_of_error hending, bind_of_error hending']
        exact .of_error hkind.symm
  | ok a =>
      have hending' := h.ending.eq_ok_iff.mp hending
      refine ⟨?_, ?_⟩
      · rw [bytes_bind_of_ok hending, bytes_bind_of_ok hending', h.bytes_eq, (hf a).bytes_eq]
      · rw [bind_of_ok hending, bind_of_ok hending']
        exact (hf a).ending

theorem collect (h : e.Alike e') : SealedEnvelope.Alike e.collect e'.collect := by
  rw [Emission.collect, Emission.collect, h.bytes_eq]
  exact h.ending.map _

end Emission.Alike

section Keys

variable (operation operation' : Operation)

theorem alike_openText (key : Octets 32) (nonce : Octets 12) (ad sealedText : Bytes) :
    Alike (openText operation key nonce ad sealedText)
      (openText operation' key nonce ad sealedText) := by
  rw [openText, openText]
  split
  · cases Gcm.decrypt key nonce ad sealedText with
    | none => exact .of_error rfl
    | some text => exact .refl _
  · exact .of_error rfl

theorem alike_contentKey (bytes : Bytes) :
    Alike (contentKey operation bytes) (contentKey operation' bytes) := by
  rw [contentKey, contentKey]
  cases Octets.ofBytes? 32 bytes with
  | none => exact .of_error rfl
  | some key => exact .refl _

theorem alike_toX25519 (key : Ed25519PublicKey) :
    Alike (key.toX25519 operation) (key.toX25519 operation') := by
  apply Alike.map
  rw [Ed25519PublicKey.point, Ed25519PublicKey.point]
  split
  · exact .of_error rfl
  · cases EdwardsPoint.ofBytes? key.bytes with
    | none => exact .of_error rfl
    | some point =>
        dsimp only
        split
        · exact .of_error rfl
        · exact .refl _

theorem alike_agreeWithPoint (key : Ed25519PrivateKey) (point : Octets 32) :
    Alike (key.agreeWithPoint operation point) (key.agreeWithPoint operation' point) := by
  apply Alike.bind
  · rw [Ed25519PrivateKey.usableSeed, Ed25519PrivateKey.usableSeed]
    split
    · exact .of_error rfl
    · exact .refl _
  · intro seed
    simp only [agreeX25519]
    split
    · exact .of_error rfl
    · exact .refl _

theorem alike_unwrapForKey (algorithm : FingerprintAlgorithm) (entries : List RecipientEntry)
    (key : Ed25519PrivateKey) :
    Alike (RecipientEntry.unwrapForKey operation algorithm entries key)
      (RecipientEntry.unwrapForKey operation' algorithm entries key) := by
  apply Alike.bind (.refl _)
  intro publicKey
  dsimp only
  cases entries.findSome? (RecipientEntry.forKeyId? (publicKey.identifier algorithm)) with
  | none => exact .refl _
  | some found =>
      obtain ⟨ephemeralKey, wrappedKey⟩ := found
      apply (alike_toX25519 operation operation' publicKey).bind
      intro recipientPoint
      apply (alike_agreeWithPoint operation operation' key ephemeralKey).bind
      intro shared
      cases (WrapSecret.ofAgreement shared ephemeralKey recipientPoint).unwrap?
        (publicKey.identifier algorithm).bytes wrappedKey with
      | none => exact .of_error rfl
      | some bytes => exact alike_contentKey operation operation' bytes

theorem alike_tryPassword (phrase : Bytes) (t : RecipientEntry.PasswordTrial)
    (entries : List RecipientEntry) :
    Alike (RecipientEntry.tryPassword operation phrase t entries)
      (RecipientEntry.tryPassword operation' phrase t entries) := by
  induction entries generalizing t with
  | nil =>
      rw [RecipientEntry.tryPassword, RecipientEntry.tryPassword,
        RecipientEntry.PasswordTrial.failure, RecipientEntry.PasswordTrial.failure]
      split
      · exact .of_error rfl
      · exact .refl _
  | cons entry entries ih =>
      cases entry with
      | key keyId ephemeralKey wrappedKey => exact ih t
      | password salt costs wrappedKey =>
          rw [RecipientEntry.tryPassword, RecipientEntry.tryPassword]
          rcases RecipientEntry.passwordSecret costs salt phrase with fault | secret
          · exact ih _
          · dsimp only
            cases secret.unwrap? salt.toBytes wrappedKey with
            | none => exact ih _
            | some bytes => exact alike_contentKey operation operation' bytes

theorem Credential.alike_unwrap (c : EnvelopeCipher) (credential : Credential)
    (header : EnvelopeHeader) :
    Alike (credential.unwrap c operation header) (credential.unwrap c operation' header) := by
  cases credential with
  | key privateKey => exact alike_unwrapForKey operation operation' _ _ _
  | password phrase => exact alike_tryPassword operation operation' _ _ _

end Keys

namespace EnvelopeCipher

variable {operation operation' : Operation}

theorem alike_openBytes (operation operation' : Operation) (header : EnvelopeHeader)
    (encodedHeader : Bytes) (contentKey : Octets 32) (body : Bytes) :
    (openBytes operation header encodedHeader contentKey body).Alike
      (openBytes operation' header encodedHeader contentKey body) := by
  rw [openBytes, openBytes]
  cases header.layout with
  | sealed =>
      apply Emission.Alike.bind (.ofExcept (alike_openText _ _ _ _ _ _))
      intro text
      refine Emission.Alike.bind (.ofExcept ?_) fun signature =>
        (Emission.Alike.write _ _ text).bind fun _ =>
          (Emission.Alike.flush _ _).bind fun _ => .refl _
      cases header.signature with
      | none => exact .refl _
      | some sealedText => exact (alike_openText _ _ _ _ _ sealedText).map some
  | stream size => exact .refl _
  | signedStream size =>
      apply Emission.Alike.bind (.refl _)
      intro cipher
      apply Emission.Alike.bind (.refl _)
      intro written
      cases trailer? body with
      | none => exact ⟨rfl, .of_error rfl⟩
      | some trailer =>
          exact Emission.Alike.bind (.ofExcept (alike_openText _ _ _ _ _ _)) fun _ => .refl _

theorem alike_opening {unwrap unwrap' : EnvelopeHeader → Except Failure (Octets 32)}
    {data : Bytes} (h : ∀ header offset, EnvelopeHeader.decode data = .ok (header, offset) →
      Alike (unwrap header) (unwrap' header)) :
    (opening operation unwrap data).Alike (opening operation' unwrap' data) := by
  rw [opening, opening]
  rcases hdecode : EnvelopeHeader.decode data with failure | ⟨header, offset⟩
  · exact .refl _
  · rw [Emission.ofExcept_ok_bind, Emission.ofExcept_ok_bind]
    exact Emission.Alike.bind (.ofExcept (h header offset hdecode)) fun _ =>
      alike_openBytes _ _ _ _ _ _

/-- A source and its bytes are opened alike, also where there is no header in front. -/
theorem alike_decryptStreamWith {unwrap : EnvelopeHeader → Except Failure (Octets 32)}
    {source : Source} (hsource : source.fault = none) :
    (opening operation unwrap source.bytes).Alike (decryptStreamWith operation unwrap source) := by
  have hholds := source.view_holds
  rw [hsource] at hholds
  rcases EnvelopeHeader.readFrom_cases Source.view hholds with
    ⟨header, offset, next, hdecode, -⟩ | ⟨fault, fault', next, hdecode, hread⟩
  · rw [decryptStreamWith_eq hsource hdecode]
    exact .refl _
  · rw [decryptStreamWith, hread, opening, hdecode]
    exact ⟨rfl, .of_error rfl⟩

end EnvelopeCipher

end SealedEnvelope
