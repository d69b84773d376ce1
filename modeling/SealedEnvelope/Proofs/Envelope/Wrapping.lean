import SealedEnvelope.Proofs.Keys
import SealedEnvelope.Envelope.Recipient

/-!
Content keys that are wrapped for recipients and unwrapped again. An entry comes
from one recipient and one window of the random source; the holder of a listed
key finds an entry made for that key, and both sides derive the same secret.
-/

namespace SealedEnvelope

theorem contentKey_toBytes (operation : Operation) (key : Octets 32) :
    contentKey operation key.toBytes = .ok key := by
  rw [contentKey, Octets.ofBytes?_toBytes]

@[simp]
theorem WrapSecret.unwrap?_wrap (s : WrapSecret) (label : Bytes) (key : Octets 32) :
    s.unwrap? label (s.wrap label key) = some key.toBytes :=
  Gcm.decrypt_eq_some_iff.mpr rfl

namespace WrapSecret

/-- Only the costs can keep a password from giving a secret. -/
theorem exists_ofPassword {costs : Argon2id.Costs} (h : costs.fault? = none) (phrase : Bytes)
    (salt : Octets 16) : ∃ secret, ofPassword costs phrase salt = .ok secret := by
  have hsalt : ¬ salt.toBytes.length < 8 := by
    rw [salt.length_toBytes]
    omega
  rw [ofPassword, Argon2id.derive, h]
  dsimp only
  rw [if_neg hsalt]
  exact ⟨_, rfl⟩

theorem fault_of_ofPassword {costs : Argon2id.Costs} {phrase : Bytes} {salt : Octets 16}
    {secret : WrapSecret} (h : ofPassword costs phrase salt = .ok secret) :
    costs.fault? = none := by
  cases hfault : costs.fault? with
  | none => rfl
  | some fault =>
      rw [ofPassword, Argon2id.derive, hfault] at h
      cases h

end WrapSecret

namespace RecipientEntry

variable {algorithm : FingerprintAlgorithm} {costs : Argon2id.Costs} {contentKey : Octets 32}

theorem wrapFor_key_eq_ok {publicKey : Ed25519PublicKey} {e next : Entropy}
    {entry : RecipientEntry} :
    wrapFor algorithm costs contentKey (.key publicKey) e = (.ok entry, next) ↔
      ∃ point, publicKey.toX25519 .encrypt = .ok point ∧ e.holds 32 = true ∧
        (X25519.multiply (e.peek 32) point).isZero = false ∧
        entry = .key (publicKey.identifier algorithm)
          (X25519.multiply (e.peek 32) X25519.basePoint)
          ((WrapSecret.ofAgreement (X25519.multiply (e.peek 32) point)
            (X25519.multiply (e.peek 32) X25519.basePoint) point).wrap
            (publicKey.identifier algorithm).bytes contentKey) ∧
        next = { e with position := e.position + 32 } := by
  simp only [wrapFor, Random.bind_eq_ok, Random.lift_eq_ok, Random.draw_eq_ok, forKey, bind_eq_ok,
    agreeX25519_eq_ok]
  constructor
  · rintro ⟨point, _, ⟨hpoint, rfl⟩, _, _, ⟨hholds, rfl, rfl⟩, ⟨shared, ⟨hzero, rfl⟩, hentry⟩,
      rfl⟩
    cases hentry
    exact ⟨point, hpoint, hholds, hzero, rfl, rfl⟩
  · rintro ⟨point, hpoint, hholds, hzero, rfl, rfl⟩
    exact ⟨point, e, ⟨hpoint, rfl⟩, _, _, ⟨hholds, rfl, rfl⟩, ⟨_, ⟨hzero, rfl⟩, rfl⟩, rfl⟩

theorem forPassword_eq_ok {salt : Octets 16} {phrase : Bytes} {entry : RecipientEntry} :
    forPassword costs contentKey salt phrase = .ok entry ↔
      ∃ secret, WrapSecret.ofPassword costs phrase salt = .ok secret ∧
        entry = .password salt costs (secret.wrap salt.toBytes contentKey) := by
  rw [forPassword]
  cases WrapSecret.ofPassword costs phrase salt <;> simp [eq_comm]

theorem wrapFor_password_eq_ok {phrase : Bytes} {e next : Entropy} {entry : RecipientEntry} :
    wrapFor algorithm costs contentKey (.password phrase) e = (.ok entry, next) ↔
      e.holds 16 = true ∧
        (∃ secret, WrapSecret.ofPassword costs phrase (e.peek 16) = .ok secret ∧
          entry = .password (e.peek 16) costs (secret.wrap (e.peek 16).toBytes contentKey)) ∧
        next = { e with position := e.position + 16 } := by
  simp only [wrapFor, Random.bind_eq_ok, Random.lift_eq_ok, Random.draw_eq_ok, forPassword_eq_ok]
  constructor
  · rintro ⟨_, _, ⟨hholds, rfl, rfl⟩, hentry, rfl⟩
    exact ⟨hholds, hentry, rfl⟩
  · rintro ⟨hholds, hentry, rfl⟩
    exact ⟨_, _, ⟨hholds, rfl, rfl⟩, hentry, rfl⟩

theorem later_of_wrapFor {recipient : Recipient} {e next : Entropy} {entry : RecipientEntry}
    (h : wrapFor algorithm costs contentKey recipient e = (.ok entry, next)) : e.Later next := by
  cases recipient with
  | key publicKey =>
      obtain ⟨point, -, -, -, -, rfl⟩ := wrapFor_key_eq_ok.mp h
      exact Entropy.Later.advance e 32
  | password phrase =>
      obtain ⟨-, -, rfl⟩ := wrapFor_password_eq_ok.mp h
      exact Entropy.Later.advance e 16

/-- The entry has been made for the recipient, with random bytes that `start` held. -/
def MadeFor (algorithm : FingerprintAlgorithm) (costs : Argon2id.Costs) (contentKey : Octets 32)
    (start : Entropy) (recipient : Recipient) (entry : RecipientEntry) : Prop :=
  ∃ before after, start.Later before ∧
    wrapFor algorithm costs contentKey recipient before = (.ok entry, after)

theorem madeFor_of_mapM {recipients : List Recipient} {entries : List RecipientEntry}
    {start e last : Entropy} (hlater : start.Later e)
    (h : recipients.mapM (wrapFor algorithm costs contentKey) e = (.ok entries, last)) :
    List.Forall₂ (MadeFor algorithm costs contentKey start) recipients entries := by
  have hstep : ∀ recipient e entry next, start.Later e →
      wrapFor algorithm costs contentKey recipient e = (.ok entry, next) → start.Later next :=
    fun _ _ _ _ hbefore hwrap => hbefore.trans (later_of_wrapFor hwrap)
  exact (Random.forall₂_of_mapM hstep hlater h).2

/-- What an entry holds besides what has a fixed length is short. -/
def Short : RecipientEntry → Prop
  | .key keyId _ wrappedKey => keyId.bytes.length ≤ 32 ∧ wrappedKey.length = 48
  | .password _ _ wrappedKey => wrappedKey.length = 48

theorem MadeFor.short {start : Entropy} {recipient : Recipient} {entry : RecipientEntry}
    (h : MadeFor algorithm costs contentKey start recipient entry) : entry.Short := by
  obtain ⟨before, after, -, hwrap⟩ := h
  cases recipient with
  | key publicKey =>
      obtain ⟨point, -, -, -, rfl, -⟩ := wrapFor_key_eq_ok.mp hwrap
      refine ⟨?_, ?_⟩
      · cases algorithm with
        | sha256 => exact ((Sha256.digest publicKey.encode).length_toBytes).le
        | sha512Truncated => exact (List.length_take_le 8 _).trans (by decide)
      · rw [WrapSecret.wrap, Gcm.length_encrypt, contentKey.length_toBytes]
  | password phrase =>
      obtain ⟨-, ⟨secret, -, rfl⟩, -⟩ := wrapFor_password_eq_ok.mp hwrap
      change (WrapSecret.wrap _ _ _).length = 48
      rw [WrapSecret.wrap, Gcm.length_encrypt, contentKey.length_toBytes]

variable {start : Entropy} {recipients : List Recipient} {entries : List RecipientEntry}

theorem short_of_made
    (h : List.Forall₂ (MadeFor algorithm costs contentKey start) recipients entries) :
    ∀ entry ∈ entries, entry.Short := by
  intro entry hentry
  obtain ⟨i, hi, rfl⟩ := List.getElem_of_mem hentry
  exact MadeFor.short (h.get (by rw [h.length_eq]; exact hi) hi)

/-- An entry for a key identifier has been made for a listed key with that identifier. -/
theorem MadeFor.of_forKeyId {recipient : Recipient} {entry : RecipientEntry} {id : KeyId}
    {found : Octets 32 × Bytes} (h : MadeFor algorithm costs contentKey start recipient entry)
    (hfound : forKeyId? id entry = some found) :
    ∃ publicKey point position, recipient = .key publicKey ∧
      publicKey.identifier algorithm = id ∧ publicKey.toX25519 .encrypt = .ok point ∧
      (X25519.multiply (start.window position 32) point).isZero = false ∧
      found = (X25519.multiply (start.window position 32) X25519.basePoint,
        (WrapSecret.ofAgreement (X25519.multiply (start.window position 32) point)
          (X25519.multiply (start.window position 32) X25519.basePoint) point).wrap id.bytes
          contentKey) := by
  obtain ⟨before, after, hlater, hwrap⟩ := h
  cases recipient with
  | key publicKey =>
      obtain ⟨point, hpoint, -, hzero, rfl, -⟩ := wrapFor_key_eq_ok.mp hwrap
      rw [hlater.peek_eq] at hzero hfound
      rw [forKeyId?] at hfound
      split at hfound
      case isTrue hid =>
        cases hfound
        subst hid
        exact ⟨publicKey, point, before.position, rfl, rfl, hpoint, hzero, rfl⟩
      case isFalse => cases hfound
  | password phrase =>
      obtain ⟨-, ⟨secret, -, rfl⟩, -⟩ := wrapFor_password_eq_ok.mp hwrap
      cases hfound

/-- The entry that a listed key finds has been made for that key, since no other listed key has
its identifier. -/
theorem exists_found {publicKey : Ed25519PublicKey}
    (hmade : List.Forall₂ (MadeFor algorithm costs contentKey start) recipients entries)
    (hmem : .key publicKey ∈ recipients) :
    ∃ found recipient entry, entries.findSome? (forKeyId? (publicKey.identifier algorithm)) =
        some found ∧ recipient ∈ recipients ∧
      MadeFor algorithm costs contentKey start recipient entry ∧
      forKeyId? (publicKey.identifier algorithm) entry = some found := by
  obtain ⟨i, hi, hkey⟩ := List.getElem_of_mem hmem
  have hlength := hmade.length_eq
  obtain ⟨before, after, hlater, hwrap⟩ := hmade.get hi (by omega)
  rw [List.get_eq_getElem, hkey] at hwrap
  obtain ⟨point, -, -, -, hentry, -⟩ := wrapFor_key_eq_ok.mp hwrap
  have hsome : (entries.findSome? (forKeyId? (publicKey.identifier algorithm))).isSome := by
    rw [List.findSome?_isSome_iff]
    refine ⟨_, List.get_mem entries ⟨i, by omega⟩, ?_⟩
    rw [hentry, forKeyId?, if_pos rfl]
    rfl
  obtain ⟨found, hfound⟩ := Option.isSome_iff_exists.mp hsome
  obtain ⟨entry, hentry, hsome⟩ := List.exists_of_findSome?_eq_some hfound
  obtain ⟨j, hj, rfl⟩ := List.getElem_of_mem hentry
  exact ⟨found, recipients[j], entries[j], hfound, List.getElem_mem _,
    hmade.get (by omega) hj, hsome⟩

/-- The holder of a listed key gets the content key back. -/
theorem unwrapForKey_eq_ok {key : Ed25519PrivateKey} {publicKey : Ed25519PublicKey}
    (hkey : key.publicKey = .ok publicKey)
    (hmade : List.Forall₂ (MadeFor algorithm costs contentKey start) recipients entries)
    (hmem : .key publicKey ∈ recipients)
    (hunique : ∀ other, .key other ∈ recipients →
      other.identifier algorithm = publicKey.identifier algorithm → other = publicKey)
    (hcommutes : ∀ position, Commutes key (start.window position 32)) (operation : Operation) :
    unwrapForKey operation algorithm entries key = .ok contentKey := by
  obtain ⟨found, recipient, entry, hfind, hrecipient, hentry, hfound⟩ := exists_found hmade hmem
  obtain ⟨other, point, position, rfl, hid, hpoint, hzero, rfl⟩ := hentry.of_forKeyId hfound
  obtain rfl := hunique other hrecipient hid
  have hshared := hcommutes position other point hkey hpoint
  have hagree : key.agreeWithPoint operation
      (X25519.multiply (start.window position 32) X25519.basePoint) =
        .ok (X25519.multiply (start.window position 32) point) := by
    have hseed : key.usableSeed operation = .ok key.seed :=
      usableSeed_eq_ok.mpr ⟨isEmpty_of_publicKey hkey, rfl⟩
    rw [Ed25519PrivateKey.agreeWithPoint, bind_eq_ok]
    refine ⟨key.seed, hseed, ?_⟩
    rw [agreeX25519_eq_ok, ← hshared]
    exact ⟨hzero, rfl⟩
  rw [unwrapForKey, hkey]
  simp only [bind, Except.bind, hfind, toX25519_congr hpoint operation, hagree,
    WrapSecret.unwrap?_wrap, contentKey_toBytes]

section Passwords

variable {phrase : Bytes} {operation : Operation}

/-- What is wrapped under another password does not open under this one. -/
def Foreign (costs : Argon2id.Costs) (contentKey : Octets 32) (phrase other : Bytes)
    (salt : Octets 16) : Prop :=
  ∀ secret mine, WrapSecret.ofPassword costs other salt = .ok secret →
    WrapSecret.ofPassword costs phrase salt = .ok mine →
      mine.unwrap? salt.toBytes (secret.wrap salt.toBytes contentKey) = none

theorem passwordSecret_of_low (hlow : costsTooHigh costs = false) (hfault : costs.fault? = none)
    (salt : Octets 16) (phrase : Bytes) :
    ∃ secret, WrapSecret.ofPassword costs phrase salt = .ok secret ∧
      passwordSecret costs salt phrase = .ok secret := by
  obtain ⟨secret, hsecret⟩ := WrapSecret.exists_ofPassword hfault phrase salt
  refine ⟨secret, hsecret, ?_⟩
  rw [passwordSecret, hlow, hsecret]
  rfl

/-- Whoever knows a listed password gets the content key back, if the costs are not too high:
entries before are passed over, and the first entry for the password opens. -/
theorem tryPassword_eq_ok (hlow : costsTooHigh costs = false)
    (hmade : List.Forall₂ (MadeFor algorithm costs contentKey start) recipients entries)
    (hmem : .password phrase ∈ recipients)
    (hforeign : ∀ other, .password other ∈ recipients → other ≠ phrase →
      ∀ position, Foreign costs contentKey phrase other (start.window position 16))
    (t : PasswordTrial) : tryPassword operation phrase t entries = .ok contentKey := by
  induction hmade generalizing t with
  | nil => cases hmem
  | @cons recipient entry recipients entries hentry hrest ih =>
      obtain ⟨before, after, hlater, hwrap⟩ := hentry
      have hforeign' : ∀ other, .password other ∈ recipients → other ≠ phrase →
          ∀ position, Foreign costs contentKey phrase other (start.window position 16) :=
        fun other hother => hforeign other (List.mem_cons_of_mem _ hother)
      cases recipient with
      | key publicKey =>
          obtain ⟨point, -, -, -, rfl, -⟩ := wrapFor_key_eq_ok.mp hwrap
          have hmem' : Recipient.password phrase ∈ recipients := by simpa using hmem
          rw [tryPassword]
          exact ih hmem' hforeign' t
      | password other =>
          obtain ⟨-, ⟨secret, hsecret, rfl⟩, -⟩ := wrapFor_password_eq_ok.mp hwrap
          obtain ⟨mine, hmine, hpass⟩ := passwordSecret_of_low hlow
            (WrapSecret.fault_of_ofPassword hsecret) (before.peek 16) phrase
          rw [tryPassword, hpass]
          dsimp only
          by_cases hsame : other = phrase
          · subst hsame
            rw [hsecret] at hmine
            cases hmine
            rw [WrapSecret.unwrap?_wrap]
            exact contentKey_toBytes operation contentKey
          · have hnone : mine.unwrap? (before.peek 16).toBytes
                (secret.wrap (before.peek 16).toBytes contentKey) = none := by
              rw [hlater.peek_eq] at hsecret hmine ⊢
              exact hforeign other (List.mem_cons_self) hsame before.position secret mine
                hsecret hmine
            have hmem' : Recipient.password phrase ∈ recipients := by
              rcases List.mem_cons.mp hmem with h | h
              · exact absurd (Recipient.password.inj h).symm hsame
              · exact h
            rw [hnone]
            exact ih hmem' hforeign' _

/-- With costs that are too high, every password entry is unusable. -/
theorem tryPassword_of_costsTooHigh (hhigh : costsTooHigh costs = true)
    (hmade : List.Forall₂ (MadeFor algorithm costs contentKey start) recipients entries)
    {t : PasswordTrial} (huntried : t.tried = false)
    (hseen : t.unusable = some (.passwordCostsTooHigh costs) ∨
      ∃ other, .password other ∈ recipients) :
    tryPassword operation phrase t entries =
      .error (.invalidFormat (.passwordCostsTooHigh costs)) := by
  induction hmade generalizing t with
  | nil =>
      have hunusable : t.unusable = some (.passwordCostsTooHigh costs) := by simpa using hseen
      rw [tryPassword, PasswordTrial.failure, huntried, hunusable]
      rfl
  | @cons recipient entry recipients entries hentry hrest ih =>
      obtain ⟨before, after, hlater, hwrap⟩ := hentry
      cases recipient with
      | key publicKey =>
          obtain ⟨point, -, -, -, rfl, -⟩ := wrapFor_key_eq_ok.mp hwrap
          rw [tryPassword]
          exact ih huntried (by simpa using hseen)
      | password other =>
          obtain ⟨-, ⟨secret, -, rfl⟩, -⟩ := wrapFor_password_eq_ok.mp hwrap
          rw [tryPassword, passwordSecret, hhigh]
          exact ih huntried (Or.inl rfl)

end Passwords

end RecipientEntry

end SealedEnvelope
