import SealedEnvelope.Proofs.Envelope.Opening
import SealedEnvelope.Proofs.Envelope.Progress

/-!
Whoever an envelope was made for can open it.
-/

namespace SealedEnvelope

/-- The holder of a listed key finds the content key of what has been made. -/
theorem Encryption.unwrapForKey_of_produce {c c' : EnvelopeCipher} {recipients : List Recipient}
    {request : Encryption} {entropy last : Entropy} {p : Production} {key : Ed25519PrivateKey}
    {publicKey : Ed25519PublicKey}
    (hproduce : request.produce c recipients entropy = (.ok p, last))
    (hkey : key.publicKey = .ok publicKey) (hmem : .key publicKey ∈ recipients)
    (hunique : ∀ other, .key other ∈ recipients →
      other.identifier c.fingerprint = publicKey.identifier c.fingerprint → other = publicKey)
    (hcommutes : ∀ position, Commutes key (entropy.window position 32))
    (hfingerprint : c'.fingerprint = c.fingerprint) (operation : Operation) :
    c'.unwrapForKey operation key p.header = .ok p.contentKey := by
  obtain ⟨-, -, hmade⟩ := Encryption.recipients_of_produce hproduce
  rw [EnvelopeCipher.unwrapForKey, hfingerprint]
  exact RecipientEntry.unwrapForKey_eq_ok hkey hmade hmem hunique hcommutes operation

/-- Each holder of a listed key gets the text of an envelope back, buffered or from any source
that delivers its bytes, and a streaming encryptor has returned the length of the text. The
decrypting side has to agree on the fingerprint algorithm only. -/
theorem key_recipient_opens {c c' : EnvelopeCipher} {recipients : List Recipient}
    {request : Encryption} {entropy last : Entropy} {envelope : Bytes} {n : Nat}
    {key : Ed25519PrivateKey} {publicKey : Ed25519PublicKey}
    (hrun : request.run c recipients entropy = (.ok (envelope, n), last))
    (hkey : key.publicKey = .ok publicKey) (hmem : .key publicKey ∈ recipients)
    (hunique : ∀ other, .key other ∈ recipients →
      other.identifier c.fingerprint = publicKey.identifier c.fingerprint → other = publicKey)
    (hcommutes : ∀ position, Commutes key (entropy.window position 32))
    (hfingerprint : c'.fingerprint = c.fingerprint) :
    n = request.text.length ∧ c'.decrypt envelope key = .ok request.text ∧
      ∀ source : Source, source.bytes = envelope → source.fault = none →
        ∀ sink : Sink, sink.Reliable → ∃ next,
          sink.deliver (c'.decryptStream key source) = (.ok request.text.length, next) ∧
            next.taken = sink.taken ++ request.text := by
  obtain ⟨p, hproduce, hfits, rfl, hn⟩ := Encryption.exists_production hrun
  have hvalid := Encryption.valid_of_produce hproduce
  obtain ⟨-, htext, -⟩ := Encryption.recipients_of_produce hproduce
  have hunwrap : ∀ operation,
      (Credential.key key).unwrap c' operation p.header = .ok p.contentKey :=
    Encryption.unwrapForKey_of_produce hproduce hkey hmem hunique hcommutes hfingerprint
  rw [← htext]
  exact ⟨htext ▸ hn, Credential.opens_production hvalid hfits (.key key) hunwrap⟩

section Passwords

variable {c : EnvelopeCipher} {recipients : List Recipient} {request : Encryption}
  {entropy last : Entropy} {envelope phrase : Bytes} {n : Nat}

/-- Costs that no reader pays lock out whoever knows a password. -/
theorem password_locked_out (hrun : request.run c recipients entropy = (.ok (envelope, n), last))
    (hmem : .password phrase ∈ recipients)
    (hhigh : RecipientEntry.costsTooHigh c.passwordCosts = true) :
    EnvelopeCipher.decryptWithPassword envelope phrase =
        .error (.invalidFormat (.passwordCostsTooHigh c.passwordCosts)) ∧
      ∀ source : Source, source.bytes = envelope → source.fault = none →
        EnvelopeCipher.decryptStreamWithPassword phrase source =
          .fail (.invalidFormat (.passwordCostsTooHigh c.passwordCosts)) := by
  obtain ⟨p, hproduce, -, rfl, -⟩ := Encryption.exists_production hrun
  have hmade := (Encryption.recipients_of_produce hproduce).2.2
  have hunwrap : ∀ operation, (Credential.password phrase).unwrap c operation p.header =
      .error (.invalidFormat (.passwordCostsTooHigh c.passwordCosts)) :=
    fun operation => RecipientEntry.tryPassword_of_costsTooHigh hhigh hmade rfl
      (Or.inr ⟨phrase, hmem⟩)
  exact Credential.fails_production (Encryption.valid_of_produce hproduce) (.password phrase)
    hunwrap

/-- Whoever knows a listed password gets the text of an envelope back, just if the costs that the
envelope was made with are not above what a reader pays; otherwise it is of no use to them. The
settings of the decrypting side do not matter. -/
theorem password_recipient_opens_unless_costly
    (hrun : request.run c recipients entropy = (.ok (envelope, n), last))
    (hmem : .password phrase ∈ recipients)
    (hforeign : ∀ other, .password other ∈ recipients → other ≠ phrase → ∀ position,
      RecipientEntry.Foreign c.passwordCosts (entropy.peek 32) phrase other
        (entropy.window position 16)) :
    n = request.text.length ∧
      (RecipientEntry.costsTooHigh c.passwordCosts = false →
        EnvelopeCipher.decryptWithPassword envelope phrase = .ok request.text ∧
          ∀ source : Source, source.bytes = envelope → source.fault = none →
            ∀ sink : Sink, sink.Reliable → ∃ next,
              sink.deliver (EnvelopeCipher.decryptStreamWithPassword phrase source) =
                  (.ok request.text.length, next) ∧
                next.taken = sink.taken ++ request.text) ∧
      (RecipientEntry.costsTooHigh c.passwordCosts = true →
        EnvelopeCipher.decryptWithPassword envelope phrase =
            .error (.invalidFormat (.passwordCostsTooHigh c.passwordCosts)) ∧
          ∀ source : Source, source.bytes = envelope → source.fault = none →
            EnvelopeCipher.decryptStreamWithPassword phrase source =
              .fail (.invalidFormat (.passwordCostsTooHigh c.passwordCosts))) := by
  refine ⟨?_, ?_, password_locked_out hrun hmem⟩
  · obtain ⟨p, -, -, -, hn⟩ := Encryption.exists_production hrun
    exact hn
  · intro hlow
    obtain ⟨p, hproduce, hfits, rfl, -⟩ := Encryption.exists_production hrun
    obtain ⟨hkey, htext, hmade⟩ := Encryption.recipients_of_produce hproduce
    rw [← hkey] at hforeign
    have hunwrap : ∀ operation,
        (Credential.password phrase).unwrap c operation p.header = .ok p.contentKey :=
      fun operation => RecipientEntry.tryPassword_eq_ok hlow hmade hmem hforeign _
    rw [← htext]
    exact Credential.opens_production (Encryption.valid_of_produce hproduce) hfits
      (.password phrase) hunwrap

end Passwords

section Sample

/-- A source of randomness that is all sevens, so that every ephemeral key is the same. -/
def sevens : Entropy := ⟨fun _ => 7, none, 0⟩

def sevenKey : Ed25519PrivateKey := ⟨sevens.peek 32⟩

def sevenPublicKey : Ed25519PublicKey := ⟨Ed25519.publicPoint sevenKey.seed⟩

def shortText : Bytes := [1, 2, 3]

/-- Segments may be as short as four bytes. -/
theorem four_le_sizeLimit : 4 ≤ UInt32.size - 1 - 16 := by decide

def cheapCipher : EnvelopeCipher := ⟨.sha256, ⟨8, 1, 1⟩, ⟨⟨4, Nat.succ_pos 3, four_le_sizeLimit⟩⟩⟩

theorem publicKey_sevenKey : sevenKey.publicKey = .ok sevenPublicKey := by
  have hempty : sevenKey.isEmpty = false := by decide
  exact map_eq_ok.mpr ⟨sevenKey.seed, usableSeed_eq_ok.mpr ⟨hempty, rfl⟩, rfl⟩

/-- What is derived from the seed of sevens. -/
theorem derived_sevens :
    (Sha512.digest sevenKey.seed.toBytes).toBytes = Bytes.bigEndian 64
      0x2fad39fefd7fa3e200a9c626eef599e61a2d055c48a8288a4e7e4c4bca3928f89c7d6db3506d65dbac7c052aaee4857425210c9bc54030c826e54055983452a5 ∧
    Ed25519.secretScalar sevenKey.seed =
      0x782839ca4b4c7e4e8a28a8485c052d1ae699f5ee26c6a900e2a37ffdfe39ad28 ∧
    sevenPublicKey = ⟨⟨Bytes.bigEndian 32
      0xea4a6c63e29c520abef5507b132ec5f9954776aebebe7b92421eea691446d22c,
      Bytes.length_bigEndian _ _⟩⟩ := by
  decide +kernel

theorem agreement_sevens : ∃ point, sevenPublicKey.toX25519 .encrypt = .ok point ∧
    (X25519.multiply (sevens.peek 32) point).isZero = false ∧
    X25519.multiply (sevens.peek 32) point =
      X25519.multiply (Ed25519PrivateKey.x25519Scalar sevenKey.seed)
        (X25519.multiply (sevens.peek 32) X25519.basePoint) := by
  have hagrees : (match sevenPublicKey.toX25519 .encrypt with
      | .ok point =>
          !(X25519.multiply (sevens.peek 32) point).isZero &&
            decide (X25519.multiply (sevens.peek 32) point =
              X25519.multiply (Ed25519PrivateKey.x25519Scalar sevenKey.seed)
                (X25519.multiply (sevens.peek 32) X25519.basePoint))
      | .error _ => false) = true := by
    obtain ⟨hdigest, -, hpublic⟩ := derived_sevens
    rw [hpublic, Ed25519PrivateKey.x25519Scalar, hdigest]
    decide +kernel
  rcases hpoint : sevenPublicKey.toX25519 .encrypt with failure | point
  · rw [hpoint] at hagrees
    cases hagrees
  · rw [hpoint] at hagrees
    simp only [Bool.and_eq_true, Bool.not_eq_true', decide_eq_true_eq] at hagrees
    exact ⟨point, rfl, hagrees⟩

theorem wrappable_sevenPublicKey : ∀ recipient ∈ [Recipient.key sevenPublicKey],
    recipient.Wrappable sevens cheapCipher.passwordCosts := by
  obtain ⟨point, hpoint, hzero, -⟩ := agreement_sevens
  rw [List.forall_mem_singleton]
  exact ⟨point, hpoint, fun _ => hzero⟩

theorem commutes_sevenKey (position : Nat) : Commutes sevenKey (sevens.window position 32) := by
  obtain ⟨point, hpoint, -, hagrees⟩ := agreement_sevens
  intro publicKey point' hkey hpoint'
  rw [publicKey_sevenKey] at hkey
  cases hkey
  rw [hpoint] at hpoint'
  cases hpoint'
  exact hagrees

theorem unique_sevenPublicKey : ∀ other, Recipient.key other ∈ [Recipient.key sevenPublicKey] →
    other.identifier cheapCipher.fingerprint =
      sevenPublicKey.identifier cheapCipher.fingerprint → other = sevenPublicKey := by
  intro other hother _
  exact Recipient.key.inj (List.mem_singleton.mp hother)

theorem key_recipient_opens_sevens : ∃ envelope last,
    (Encryption.encrypt shortText).run cheapCipher [.key sevenPublicKey] sevens =
        (.ok (envelope, 3), last) ∧
      cheapCipher.decrypt envelope sevenKey = .ok shortText := by
  have hlength : shortText.length ≤ maxTextLength := by decide
  obtain ⟨envelope, last, hrun⟩ :=
    exists_encrypt rfl (by simp) wrappable_sevenPublicKey (by simp) hlength
  exact ⟨envelope, last, hrun, (key_recipient_opens hrun publicKey_sevenKey
    (List.mem_singleton_self _) unique_sevenPublicKey commutes_sevenKey rfl).2.1⟩

def sevenPhrase : Bytes := [112, 119]

/-- Encryption under the password succeeds with all costs that the library takes. -/
theorem exists_encrypt_sevenPhrase (costs : Argon2id.Costs) (h : costs.fault? = none) :
    ∃ envelope last, (Encryption.encrypt shortText).run { cheapCipher with passwordCosts := costs }
      [.password sevenPhrase] sevens = (.ok (envelope, 3), last) := by
  have hlength : shortText.length ≤ maxTextLength := by decide
  have hwrappable : ∀ recipient ∈ [Recipient.password sevenPhrase],
      recipient.Wrappable sevens costs := by
    rw [List.forall_mem_singleton]
    exact h
  exact exists_encrypt rfl (by simp) hwrappable (by simp) hlength

/-- No other password is listed, so there is none that could interfere. -/
theorem foreign_sevenPhrase (contentKey : Octets 32) :
    ∀ other, Recipient.password other ∈ [Recipient.password sevenPhrase] → other ≠ sevenPhrase →
      ∀ position, RecipientEntry.Foreign ⟨8, 1, 1⟩ contentKey sevenPhrase other
        (sevens.window position 16) := by
  intro other hother hne
  exact absurd (Recipient.password.inj (List.mem_singleton.mp hother)) hne

theorem password_recipient_opens_sevens : ∃ envelope last,
    (Encryption.encrypt shortText).run { cheapCipher with passwordCosts := ⟨8, 1, 1⟩ }
        [.password sevenPhrase] sevens = (.ok (envelope, 3), last) ∧
      EnvelopeCipher.decryptWithPassword envelope sevenPhrase = .ok shortText := by
  obtain ⟨envelope, last, hrun⟩ := exists_encrypt_sevenPhrase ⟨8, 1, 1⟩ (by decide)
  have hall := password_recipient_opens_unless_costly hrun (List.mem_singleton_self _)
    (foreign_sevenPhrase _)
  exact ⟨envelope, last, hrun, (hall.2.1 (by decide)).1⟩

/-- One pass more than a reader pays makes an envelope that cannot be opened. -/
theorem password_recipient_locked_out : ∃ envelope last,
    (Encryption.encrypt shortText).run { cheapCipher with passwordCosts := ⟨8, 65, 1⟩ }
        [.password sevenPhrase] sevens = (.ok (envelope, 3), last) ∧
      EnvelopeCipher.decryptWithPassword envelope sevenPhrase =
        .error (.invalidFormat (.passwordCostsTooHigh ⟨8, 65, 1⟩)) := by
  obtain ⟨envelope, last, hrun⟩ := exists_encrypt_sevenPhrase ⟨8, 65, 1⟩ (by decide)
  exact ⟨envelope, last, hrun,
    (password_locked_out hrun (List.mem_singleton_self _) (by decide)).1⟩

end Sample

end SealedEnvelope
