import SealedEnvelope.Proofs.Envelope.RoundTrip

/-!
Which of several password entries decides. Entries that do not open are passed over, whatever is
the matter with them; the first that opens is the last that is looked at, also if what it holds
is no content key.
-/

namespace SealedEnvelope

namespace RecipientEntry

/-- What comes of a password that is tried on one entry. -/
inductive Attempt where
  /-- The entry is not for a password. -/
  | passed
  | unusable (fault : FormatFault)
  | refused
  | opened (bytes : Bytes)

/-- The trial after an attempt that has opened nothing. -/
def PasswordTrial.after (t : PasswordTrial) : Attempt → PasswordTrial
  | .passed | .opened _ => t
  | .unusable fault => { t with unusable := some fault }
  | .refused => { t with tried := true }

def attempt (phrase : Bytes) : RecipientEntry → Attempt
  | .key _ _ _ => .passed
  | .password salt costs wrappedKey =>
      match passwordSecret costs salt phrase with
      | .error fault => .unusable fault
      | .ok secret =>
          match secret.unwrap? salt.toBytes wrappedKey with
          | some bytes => .opened bytes
          | none => .refused

def IsPassword : RecipientEntry → Prop
  | .key _ _ _ => False
  | .password _ _ _ => True

/-- A password entry with costs that no reader pays or that the derivation does not take. -/
def Unusable : RecipientEntry → Prop
  | .key _ _ _ => False
  | .password _ costs _ => costsTooHigh costs = true ∨ costs.fault? ≠ none

/-- The password does not open it, for whatever reason. -/
def Shut (phrase : Bytes) (entry : RecipientEntry) : Prop :=
  ∀ bytes, entry.attempt phrase ≠ .opened bytes

/-- What a password gives for an entry that stands alone. -/
def unwrapAlone (operation : Operation) (phrase : Bytes) (entry : RecipientEntry) :
    Except Failure (Octets 32) :=
  unwrapForPassword operation [entry] phrase

/-- The failure where an entry has opened and does not hold a content key. -/
def malformed (operation : Operation) : Failure := .invalidKey operation .contentKeyLength

variable {operation : Operation} {phrase : Bytes} {entry : RecipientEntry} {t : PasswordTrial}

section Attempts

theorem passed_iff (phrase : Bytes) : entry.attempt phrase = .passed ↔ ¬ entry.IsPassword := by
  cases entry with
  | key => simp [attempt, IsPassword]
  | password salt costs wrappedKey =>
      simp only [attempt, IsPassword, not_true_eq_false, iff_false]
      split
      · simp
      · split <;> simp

theorem passwordSecret_eq_error_iff (costs : Argon2id.Costs) (salt : Octets 16)
    (phrase : Bytes) :
    (∃ fault, passwordSecret costs salt phrase = .error fault) ↔
      costsTooHigh costs = true ∨ costs.fault? ≠ none := by
  constructor
  · rintro ⟨fault, hfault⟩
    by_contra husable
    obtain ⟨hlow, hnone⟩ := not_or.mp husable
    obtain ⟨secret, -, hsecret⟩ :=
      passwordSecret_of_low (eq_false_of_ne_true hlow) (not_not.mp hnone) salt phrase
    rw [hsecret] at hfault
    cases hfault
  · intro hunusable
    cases hpass : passwordSecret costs salt phrase with
    | error fault => exact ⟨fault, rfl⟩
    | ok secret =>
        rw [passwordSecret] at hpass
        split at hpass
        case isTrue => cases hpass
        case isFalse hlow =>
          have hnone := WrapSecret.fault_of_ofPassword (mapError_eq_ok.mp hpass)
          exact absurd hnone (hunusable.resolve_left hlow)

theorem unusable_iff (phrase : Bytes) :
    (∃ fault, entry.attempt phrase = .unusable fault) ↔ entry.Unusable := by
  cases entry with
  | key => simp [attempt, Unusable]
  | password salt costs wrappedKey =>
      rw [Unusable, ← passwordSecret_eq_error_iff costs salt phrase, attempt]
      split
      case h_1 fault hfault => simp [hfault]
      case h_2 secret hsecret => split <;> simp [hsecret]

theorem isPassword_of_unusable (h : entry.Unusable) : entry.IsPassword := by
  cases entry with
  | key => exact h
  | password => trivial

theorem refused_iff (hshut : entry.Shut phrase) :
    entry.attempt phrase = .refused ↔ entry.IsPassword ∧ ¬ entry.Unusable := by
  rw [← unusable_iff phrase, ← not_not (a := entry.IsPassword), ← passed_iff phrase]
  cases hattempt : entry.attempt phrase with
  | passed => simp
  | unusable fault => simp
  | refused => simp
  | opened bytes => exact absurd hattempt (hshut bytes)

end Attempts

section Lists

variable {front rest entries : List RecipientEntry}

theorem tryPassword_of_opened {bytes : Bytes} (h : entry.attempt phrase = .opened bytes) :
    tryPassword operation phrase t (entry :: rest) = contentKey operation bytes := by
  cases entry with
  | key => cases h
  | password salt costs wrappedKey =>
      rw [attempt] at h
      rw [tryPassword]
      cases hsecret : passwordSecret costs salt phrase with
      | error fault =>
          rw [hsecret] at h
          cases h
      | ok secret =>
          rw [hsecret] at h
          dsimp only at h ⊢
          cases hopens : secret.unwrap? salt.toBytes wrappedKey with
          | none =>
              rw [hopens] at h
              cases h
          | some found =>
              rw [hopens] at h
              cases h
              rfl

theorem tryPassword_of_shut (h : entry.Shut phrase) :
    tryPassword operation phrase t (entry :: rest) =
      tryPassword operation phrase (t.after (entry.attempt phrase)) rest := by
  cases entry with
  | key => rw [tryPassword]; rfl
  | password salt costs wrappedKey =>
      rw [tryPassword, attempt]
      rw [Shut, attempt] at h
      cases hsecret : passwordSecret costs salt phrase with
      | error fault => rfl
      | ok secret =>
          rw [hsecret] at h
          dsimp only at h ⊢
          cases hopens : secret.unwrap? salt.toBytes wrappedKey with
          | none => rfl
          | some bytes =>
              rw [hopens] at h
              exact absurd rfl (h bytes)

/-- The trial after entries that have opened nothing. -/
def trialAfter (phrase : Bytes) (t : PasswordTrial) (entries : List RecipientEntry) :
    PasswordTrial :=
  entries.foldl (fun t entry => t.after (entry.attempt phrase)) t

/-- Entries that do not open are passed over, by induction on the entries. -/
theorem tryPassword_append (h : ∀ other ∈ front, other.Shut phrase) :
    tryPassword operation phrase t (front ++ rest) =
      tryPassword operation phrase (trialAfter phrase t front) rest := by
  induction front generalizing t with
  | nil => rfl
  | cons entry front ih =>
      rw [List.forall_mem_cons] at h
      rw [List.cons_append, tryPassword_of_shut h.1]
      exact ih h.2

theorem unwrapForPassword_of_first (hshut : ∀ other ∈ front, other.Shut phrase)
    (hopens : ¬ entry.Shut phrase) :
    unwrapForPassword operation (front ++ entry :: rest) phrase =
      entry.unwrapAlone operation phrase := by
  obtain ⟨bytes, hopened⟩ := not_forall_not.mp hopens
  rw [unwrapForPassword, tryPassword_append hshut, tryPassword_of_opened hopened]
  exact (tryPassword_of_opened hopened).symm

theorem exists_first_opening (h : ∃ entry ∈ entries, ¬ entry.Shut phrase) :
    ∃ before entry after, entries = before ++ entry :: after ∧
      (∀ other ∈ before, other.Shut phrase) ∧ ¬ entry.Shut phrase := by
  induction entries with
  | nil => simp at h
  | cons first rest ih =>
      by_cases hfirst : first.Shut phrase
      · have hrest : ∃ entry ∈ rest, ¬ entry.Shut phrase := by simpa [hfirst] using h
        obtain ⟨before, entry, after, rfl, hbefore, hentry⟩ := ih hrest
        refine ⟨first :: before, entry, after, rfl, ?_, hentry⟩
        rw [List.forall_mem_cons]
        exact ⟨hfirst, hbefore⟩
      · exact ⟨[], first, rest, rfl, List.forall_mem_nil _, hfirst⟩

theorem shut_iff : entry.Shut phrase ↔
    (∀ key, entry.unwrapAlone operation phrase ≠ .ok key) ∧
      entry.unwrapAlone operation phrase ≠ .error (malformed operation) := by
  constructor
  · intro hshut
    rw [unwrapAlone, unwrapForPassword, tryPassword_of_shut hshut, tryPassword,
      PasswordTrial.failure, malformed]
    split
    · simp
    · split <;> simp
  · rintro ⟨hnone, hwell⟩ bytes hopened
    have halone : entry.unwrapAlone operation phrase = contentKey operation bytes :=
      tryPassword_of_opened hopened
    rw [halone, contentKey] at hnone hwell
    split at hwell
    case h_1 key hkey => exact hnone key (by rw [hkey])
    case h_2 => exact hwell rfl

/-- Where no entry gives a content key, one that opens nevertheless is the end of the trial. -/
theorem unwrapForPassword_of_malformed
    (hnone : ∀ other ∈ front, ∀ key, other.unwrapAlone operation phrase ≠ .ok key)
    (hmalformed : ∃ other ∈ front,
      other.unwrapAlone operation phrase = .error (malformed operation)) :
    unwrapForPassword operation (front ++ rest) phrase = .error (malformed operation) := by
  obtain ⟨other, hother, herror⟩ := hmalformed
  have hopens : ∃ entry ∈ front, ¬ entry.Shut phrase :=
    ⟨other, hother, fun hshut => (shut_iff.mp hshut).2 herror⟩
  obtain ⟨before, entry, after, rfl, hbefore, hentry⟩ := exists_first_opening hopens
  rw [List.append_assoc, List.cons_append, unwrapForPassword_of_first hbefore hentry]
  by_contra hwell
  exact hentry (shut_iff.mpr ⟨hnone entry (by simp), hwell⟩)

theorem tried_trialAfter : (trialAfter phrase t entries).tried = true ↔
    t.tried = true ∨ ∃ entry ∈ entries, entry.attempt phrase = .refused := by
  induction entries generalizing t with
  | nil => simp [trialAfter]
  | cons entry rest ih =>
      have hstep : trialAfter phrase t (entry :: rest) =
        trialAfter phrase (t.after (entry.attempt phrase)) rest := rfl
      rw [hstep, ih, List.exists_mem_cons_iff, ← or_assoc]
      cases entry.attempt phrase <;> simp [PasswordTrial.after]

theorem unusable_trialAfter : (trialAfter phrase t entries).unusable = none ↔
    t.unusable = none ∧ ∀ entry ∈ entries, ¬ entry.Unusable := by
  induction entries generalizing t with
  | nil => simp [trialAfter]
  | cons entry rest ih =>
      have hstep : trialAfter phrase t (entry :: rest) =
        trialAfter phrase (t.after (entry.attempt phrase)) rest := rfl
      rw [hstep, ih, List.forall_mem_cons, ← and_assoc, ← unusable_iff phrase]
      cases entry.attempt phrase <;> simp [PasswordTrial.after]

/-- The failure where nothing opens, which tells why. -/
theorem unwrapForPassword_of_shut (hshut : ∀ entry ∈ entries, entry.Shut phrase) :
    ((∀ entry ∈ entries, ¬ entry.IsPassword) →
      unwrapForPassword operation entries phrase = .error (.recipientNotFound .password)) ∧
    ((∃ entry ∈ entries, entry.IsPassword) →
      (∀ entry ∈ entries, entry.IsPassword → entry.Unusable) →
      ∃ fault, unwrapForPassword operation entries phrase = .error (.invalidFormat fault)) ∧
    ((∃ entry ∈ entries, entry.IsPassword ∧ ¬ entry.Unusable) →
      unwrapForPassword operation entries phrase = .error (.authenticationFailed operation)) := by
  have hfailure : unwrapForPassword operation entries phrase =
      .error ((trialAfter phrase ⟨false, none⟩ entries).failure operation) := by
    have happend : unwrapForPassword operation (entries ++ []) phrase =
        tryPassword operation phrase (trialAfter phrase ⟨false, none⟩ entries) [] :=
      tryPassword_append hshut
    rw [List.append_nil] at happend
    exact happend
  have htried : (trialAfter phrase ⟨false, none⟩ entries).tried = true ↔
      ∃ entry ∈ entries, entry.IsPassword ∧ ¬ entry.Unusable := by
    rw [tried_trialAfter, or_iff_right Bool.false_ne_true]
    exact exists_congr fun entry => and_congr_right fun hmem => refused_iff (hshut entry hmem)
  have hunusable : (trialAfter phrase ⟨false, none⟩ entries).unusable = none ↔
      ∀ entry ∈ entries, ¬ entry.Unusable := by
    rw [unusable_trialAfter, and_iff_right rfl]
  rw [hfailure, PasswordTrial.failure]
  refine ⟨?_, ?_, ?_⟩
  · intro hkeys
    have huntried : (trialAfter phrase ⟨false, none⟩ entries).tried ≠ true := by
      rw [Ne, htried]
      rintro ⟨entry, hmem, hpassword, -⟩
      exact hkeys entry hmem hpassword
    have hnone := hunusable.mpr fun entry hmem hbad =>
      hkeys entry hmem (isPassword_of_unusable hbad)
    rw [if_neg huntried, hnone]
  · rintro ⟨entry, hmem, hpassword⟩ hall
    have huntried : (trialAfter phrase ⟨false, none⟩ entries).tried ≠ true := by
      rw [Ne, htried]
      rintro ⟨other, hother, hpassword', husable⟩
      exact husable (hall other hother hpassword')
    obtain ⟨fault, hfault⟩ := Option.ne_none_iff_exists'.mp fun hnone =>
      hunusable.mp hnone entry hmem (hall entry hmem hpassword)
    rw [if_neg huntried, hfault]
    exact ⟨fault, rfl⟩
  · intro husable
    rw [if_pos (htried.mpr husable)]

/-- The first password entry that gives a content key on its own decides, whatever other entries
there are, unless one in front of it opens and turns out to hold something else: that one then ends
the trial with a failure. If no entry gives a content key, such an entry decides as well. Otherwise
the failure tells whether there is no password entry, or none with costs that are paid, or none that
opens. -/
theorem first_opening_password_entry_decides (operation : Operation) (phrase : Bytes)
    (entries : List RecipientEntry) :
    (∀ before entry after key, entries = before ++ entry :: after →
      entry.unwrapAlone operation phrase = .ok key →
      (∀ other ∈ before, ∀ otherKey, other.unwrapAlone operation phrase ≠ .ok otherKey) →
      ((∀ other ∈ before, other.unwrapAlone operation phrase ≠ .error (malformed operation)) →
        unwrapForPassword operation entries phrase = .ok key) ∧
      ((∃ other ∈ before, other.unwrapAlone operation phrase = .error (malformed operation)) →
        unwrapForPassword operation entries phrase = .error (malformed operation))) ∧
    ((∀ entry ∈ entries, ∀ key, entry.unwrapAlone operation phrase ≠ .ok key) →
      ((∃ entry ∈ entries, entry.unwrapAlone operation phrase = .error (malformed operation)) →
        unwrapForPassword operation entries phrase = .error (malformed operation)) ∧
      ((∀ entry ∈ entries, entry.unwrapAlone operation phrase ≠ .error (malformed operation)) →
        ((∀ entry ∈ entries, ¬ entry.IsPassword) →
          unwrapForPassword operation entries phrase = .error (.recipientNotFound .password)) ∧
        ((∃ entry ∈ entries, entry.IsPassword) →
          (∀ entry ∈ entries, entry.IsPassword → entry.Unusable) →
          ∃ fault, unwrapForPassword operation entries phrase = .error (.invalidFormat fault)) ∧
        ((∃ entry ∈ entries, entry.IsPassword ∧ ¬ entry.Unusable) →
          unwrapForPassword operation entries phrase =
            .error (.authenticationFailed operation)))) := by
  refine ⟨?_, ?_⟩
  · rintro before entry after key rfl hkey hfirst
    constructor
    · intro hwell
      have hshut : ∀ other ∈ before, other.Shut phrase :=
        fun other hmem => shut_iff.mpr ⟨hfirst other hmem, hwell other hmem⟩
      have hopens : ¬ entry.Shut phrase := fun h => (shut_iff.mp h).1 key hkey
      rw [unwrapForPassword_of_first hshut hopens, hkey]
    · exact unwrapForPassword_of_malformed hfirst
  · intro hnone
    constructor
    · intro hmalformed
      have hall : unwrapForPassword operation (entries ++ []) phrase = _ :=
        unwrapForPassword_of_malformed hnone hmalformed
      rw [List.append_nil] at hall
      exact hall
    · intro hwell
      apply unwrapForPassword_of_shut
      exact fun entry hmem => shut_iff.mpr ⟨hnone entry hmem, hwell entry hmem⟩

end Lists

section Sample

/-- An entry that opens under the sample password and holds any given bytes. -/
theorem exists_entry_holding (bytes : Bytes) : ∃ entry : RecipientEntry,
    ∀ operation, entry.unwrapAlone operation sevenPhrase = contentKey operation bytes := by
  have hlow : costsTooHigh ⟨8, 1, 1⟩ = false := by decide
  obtain ⟨secret, -, hsecret⟩ :=
    passwordSecret_of_low hlow (by decide) (sevens.peek 16) sevenPhrase
  let wrappedKey := Gcm.encrypt secret.key secret.nonce (sevens.peek 16).toBytes bytes
  have hopens : secret.unwrap? (sevens.peek 16).toBytes wrappedKey = some bytes :=
    Gcm.decrypt_eq_some_iff.mpr rfl
  refine ⟨.password (sevens.peek 16) ⟨8, 1, 1⟩ wrappedKey, ?_⟩
  intro operation
  apply tryPassword_of_opened
  rw [attempt, hsecret]
  dsimp only
  rw [hopens]

/-- An entry behind one with costs that no reader pays. -/
theorem first_opening_password_entry_decides_sevens : ∃ usable : RecipientEntry,
    usable.unwrapAlone .decrypt sevenPhrase = .ok (sevens.peek 32) ∧
      unwrapForPassword .decrypt [.password (sevens.peek 16) ⟨8, 65, 1⟩ [], usable] sevenPhrase =
        .ok (sevens.peek 32) := by
  obtain ⟨usable, hholds⟩ := exists_entry_holding (sevens.peek 32).toBytes
  have husable := (hholds .decrypt).trans (contentKey_toBytes _ _)
  have hcostly : (password (sevens.peek 16) ⟨8, 65, 1⟩ []).unwrapAlone .decrypt sevenPhrase =
      .error (.invalidFormat (.passwordCostsTooHigh ⟨8, 65, 1⟩)) := rfl
  have hdecides := (first_opening_password_entry_decides .decrypt sevenPhrase
    [.password (sevens.peek 16) ⟨8, 65, 1⟩ [], usable]).1 [_] usable [] _ rfl husable
  refine ⟨usable, husable, (hdecides ?_).1 ?_⟩
  · rw [List.forall_mem_singleton, hcostly]
    nofun
  · rw [List.forall_mem_singleton, hcostly]
    nofun

/-- The same password opens two entries. The one in front holds no content key, which keeps the
other from being tried. -/
theorem malformed_password_entry_hides_usable : ∃ opening usable : RecipientEntry,
    usable.unwrapAlone .decrypt sevenPhrase = .ok (sevens.peek 32) ∧
      unwrapForPassword .decrypt [opening, usable] sevenPhrase =
        .error (.invalidKey .decrypt .contentKeyLength) := by
  obtain ⟨usable, husable⟩ := exists_entry_holding (sevens.peek 32).toBytes
  obtain ⟨opening, hopening⟩ := exists_entry_holding []
  have hmalformed : opening.unwrapAlone .decrypt sevenPhrase = .error (malformed .decrypt) :=
    hopening .decrypt
  refine ⟨opening, usable, (husable .decrypt).trans (contentKey_toBytes _ _), ?_⟩
  have hnone : ∀ other ∈ [opening], ∀ key, other.unwrapAlone .decrypt sevenPhrase ≠ .ok key := by
    rw [List.forall_mem_singleton, hmalformed]
    nofun
  exact unwrapForPassword_of_malformed hnone ⟨opening, List.mem_singleton_self _, hmalformed⟩

end Sample

end RecipientEntry

end SealedEnvelope
