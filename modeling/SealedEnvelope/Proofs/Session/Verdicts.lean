import SealedEnvelope.Proofs.Session.Conversation

/-!
Which messages a session accepts: those that its counterpart sends and no others. Of what was
done with a session before, only the role that was set last makes a difference to that.
-/

namespace SealedEnvelope

namespace SessionMessage

variable {m : SessionMessage} {data : Bytes}

/-- A message is read from its own encoding only. -/
theorem decode_eq_ok_iff : decode data = .ok m ↔ m.encode = data := by
  constructor
  · intro h
    rw [decode] at h
    cases hsalt : Octets.ofBytes? 16 (data.take 16) with
    | none => rw [hsalt] at h; cases h
    | some salt =>
        rw [hsalt] at h
        cases h
        rw [encode, Octets.toBytes_of_ofBytes? hsalt, List.take_append_drop]
  · rintro rfl
    exact decode_encode m

theorem exists_decode (h : 16 ≤ data.length) : ∃ m, decode data = .ok m := by
  have hlength : (data.take 16).length = 16 := List.length_take_of_le h
  refine ⟨⟨⟨data.take 16, hlength⟩, data.drop 16⟩, decode_eq_ok_iff.mpr ?_⟩
  exact List.take_append_drop 16 data

theorem decode_of_short (h : data.length < 16) :
    decode data = .error (.invalidFormat .messageTooShort) := by
  have hlength : (data.take 16).length ≠ 16 := by
    rw [List.length_take]
    omega
  rw [decode, Octets.ofBytes?, dif_neg hlength]

end SessionMessage

namespace Session

variable {s t : Session} {m : SessionMessage}

/-- Equal keys and additional data, and opposite roles. The identifiers need not be equal. -/
structure Opposes (s t : Session) : Prop where
  initiatorKey : s.initiatorKey = t.initiatorKey
  responderKey : s.responderKey = t.responderKey
  additionalData : s.additionalData = t.additionalData
  role : t.role = s.role.opposite

theorem Opposes.mirrors (h : s.Opposes t) : t.Mirrors s := by
  refine ⟨?_, h.additionalData.symm⟩
  rw [sendKey, receiveKey, h.role]
  cases s.role with
  | initiator => exact h.responderKey.symm
  | responder => exact h.initiatorKey.symm

theorem Opposes.setRole (h : s.Opposes t) (role : Role) :
    (s.setRole role).Opposes (t.setRole role.opposite) :=
  ⟨h.initiatorKey, h.responderKey, h.additionalData, rfl⟩

/-- The result of reading a message is what its sender put in, if it is one that `t` sends, under
whatever randomness gives the salt of the message; any other message is refused as not authentic. -/
structure ReadsExactly (result : Except Failure Bytes) (t : Session) (m : SessionMessage) :
    Prop where
  accepted : ∀ text (random : Entropy), random.holds 16 = true → random.peek 16 = m.salt →
    (result = .ok text ↔ (t.encrypt text random).1 = .ok m)
  refused : (∀ text random, (t.encrypt text random).1 ≠ .ok m) →
    result = .error (.authenticationFailed .sessionDecrypt)

theorem encrypt_eq_ok_of_salt {text : Bytes} {random : Entropy} (hholds : random.holds 16 = true)
    (hsalt : random.peek 16 = m.salt) :
    (t.encrypt text random).1 = .ok m ↔ t.encryptWith m.salt text = .ok m := by
  rw [← hsalt]
  constructor
  · intro h
    exact (encrypt_eq_ok.mp (Prod.ext h rfl)).2.1
  · intro h
    exact congrArg Prod.fst (encrypt_eq_ok.mpr ⟨hholds, h, rfl⟩)

theorem eq_of_decrypt_error {failure : Failure} (h : s.decrypt m = .error failure) :
    failure = .authenticationFailed .sessionDecrypt := by
  rw [decrypt] at h
  dsimp only at h
  split at h
  · split at h
    · cases h
    · cases h; rfl
  · cases h; rfl

theorem Opposes.readsExactly (h : s.Opposes t) (m : SessionMessage) :
    ReadsExactly (s.decrypt m) t m := by
  have haccepted : ∀ text (random : Entropy), random.holds 16 = true →
      random.peek 16 = m.salt → (s.decrypt m = .ok text ↔ (t.encrypt text random).1 = .ok m) := by
    intro text random hholds hsalt
    rw [encrypt_eq_ok_of_salt hholds hsalt]
    exact decrypt_eq_ok_iff h.mirrors
  refine ⟨haccepted, ?_⟩
  intro hnever
  cases hresult : s.decrypt m with
  | error failure => rw [eq_of_decrypt_error hresult]
  | ok text =>
      obtain ⟨random, hholds, hsalt⟩ := Entropy.exists_peek_eq m.salt
      exact absurd ((haccepted text random hholds hsalt).mp hresult) (hnever text random)

/-- What can be done with a session. -/
inductive Use where
  /-- A text is encrypted; `random` is what the source of randomness then is. -/
  | encrypt (text : Bytes) (random : Entropy)
  | decrypt (message : SessionMessage)
  | setRole (role : Role)
  /-- The session is put away and restored. -/
  | restore

inductive Answer where
  | sent (result : Except Failure SessionMessage)
  | read (message : SessionMessage) (result : Except Failure Bytes)

namespace Use

def answer? (s : Session) : Use → Option Answer
  | .encrypt text random => some (.sent (s.encrypt text random).1)
  | .decrypt message => some (.read message (s.decrypt message))
  | .setRole _ | .restore => none

/-- The session that is left. Neither direction of a message is remembered. -/
def after (s : Session) : Use → Except Failure Session
  | .encrypt _ _ | .decrypt _ => .ok s
  | .setRole role => .ok (s.setRole role)
  | .restore => Session.ofBytes s.toBytes

def role? : Use → Option Role
  | .setRole role => some role
  | .encrypt _ _ | .decrypt _ | .restore => none

end Use

/-- A session in use, with its answers so far. -/
structure Usage where
  session : Session
  answers : List Answer

namespace Usage

def ofSession (s : Session) : Usage := ⟨s, []⟩

def step (u : Usage) (use : Use) : Except Failure Usage := do
  let session ← use.after u.session
  return ⟨session, u.answers ++ (use.answer? u.session).toList⟩

def run (u : Usage) (uses : List Use) : Except Failure Usage := uses.foldlM step u

end Usage

/-- The role that was set last, or the first one if none was. -/
def lastRole (role : Role) (uses : List Use) : Role := (uses.filterMap Use.role?).getLastD role

/-- A use leaves the keys and the additional data alone, and the role unless it sets it. -/
theorem Use.after_eq (use : Use) : use.after s = .ok (s.setRole (use.role?.getD s.role)) := by
  cases use with
  | encrypt text random => rfl
  | decrypt message => rfl
  | setRole role => rfl
  | restore =>
      have hrestored : Session.ofBytes (s.toBytes ++ []) = .ok s := s.ofBytes_toBytes []
      rw [List.append_nil] at hrestored
      exact hrestored

/-- So does a series of uses, by induction on the uses. -/
theorem Usage.exists_run (u : Usage) (uses : List Use) :
    ∃ last, u.run uses = .ok last ∧
      last.session = u.session.setRole (lastRole u.session.role uses) := by
  induction uses generalizing u with
  | nil => exact ⟨u, rfl, rfl⟩
  | cons use uses ih =>
      let next : Usage := ⟨u.session.setRole (use.role?.getD u.session.role),
        u.answers ++ (use.answer? u.session).toList⟩
      have hstep : u.step use = .ok next := by
        rw [step, use.after_eq]
        rfl
      obtain ⟨last, hrun, hsession⟩ := ih next
      refine ⟨last, ?_, ?_⟩
      · rw [run, List.foldlM_cons, hstep, ok_bind]
        exact hrun
      · rw [hsession, lastRole, lastRole]
        cases hrole : use.role? with
        | none =>
            rw [List.filterMap_cons_none hrole]
            simp only [next, setRole, hrole, Option.getD_none]
        | some role =>
            rw [List.filterMap_cons_some hrole, List.getLastD_cons]
            simp only [next, setRole, hrole, Option.getD_some]

/-- A session reads just the messages that its counterpart, with the opposite role, sends when it
draws the salt of the message, as the texts that those are sent for; and it refuses any other as
not authentic. It still does so after whatever it has encrypted, decrypted or been restored from,
and in whatever roles it has been: the verdict on a message follows from the role that was set
last, and giving it changes nothing. On the way a message is any sixteen bytes or more, each such
series of bytes being one message. -/
theorem reads_exactly_what_is_sent (h : s.Opposes t) :
    (∀ m, ReadsExactly (s.decrypt m) t m) ∧
    (∀ uses, ∃ u, (Usage.ofSession s).run uses = .ok u ∧
      u.session = s.setRole (lastRole s.role uses) ∧
      ∀ m, ∃ result,
        u.step (.decrypt m) = .ok { u with answers := u.answers ++ [.read m result] } ∧
          ReadsExactly result (t.setRole (lastRole s.role uses).opposite) m) ∧
    (∀ m data, SessionMessage.decode data = .ok m ↔ m.encode = data) ∧
    ∀ data : Bytes,
      (16 ≤ data.length → ∃ m, SessionMessage.decode data = .ok m) ∧
      (data.length < 16 →
        SessionMessage.decode data = .error (.invalidFormat .messageTooShort)) := by
  refine ⟨h.readsExactly, ?_, fun _ _ => SessionMessage.decode_eq_ok_iff,
    fun _ => ⟨SessionMessage.exists_decode, SessionMessage.decode_of_short⟩⟩
  intro uses
  obtain ⟨u, hrun, hsession⟩ := (Usage.ofSession s).exists_run uses
  refine ⟨u, hrun, hsession, ?_⟩
  intro m
  refine ⟨u.session.decrypt m, rfl, ?_⟩
  rw [hsession]
  exact (h.setRole _).readsExactly m

/-- A session whose two keys differ. -/
def sevenSession : Session :=
  ⟨sevens.peek 64, (⟨fun _ => 8, none, 0⟩ : Entropy).peek 64, sevens.peek 32, sevens.peek 32,
    .initiator⟩

/-- A message to the initiator, read at first, and again when it has been a responder in between
and read something else. -/
theorem reads_exactly_what_is_sent_sevens : ∃ m u,
    ((sevenSession.setRole .responder).encrypt shortText sevens).1 = .ok m ∧
      sevenSession.decrypt m = .ok shortText ∧
      (Usage.ofSession sevenSession).run
        [.setRole .responder, .decrypt ⟨sevens.peek 16, []⟩, .restore, .setRole .initiator] =
          .ok u ∧
      u.step (.decrypt m) = .ok { u with answers := u.answers ++ [.read m (.ok shortText)] } := by
  have hopposes : sevenSession.Opposes (sevenSession.setRole .responder) := ⟨rfl, rfl, rfl, rfl⟩
  have hcan : sevens.holds 16 = true ∧ shortText.length ≤ maxMessageLength := by decide
  obtain ⟨m, hsent⟩ :=
    (Conversation.exists_encrypted_iff (sevenSession.setRole .responder)).mpr hcan
  have hsalt : sevens.peek 16 = m.salt :=
    (salt_of_encryptWith (encrypt_eq_ok.mp (Prod.ext hsent rfl)).2.1).symm
  obtain ⟨hreads, husage, -, -⟩ := reads_exactly_what_is_sent hopposes
  obtain ⟨u, hrun, -, hstep⟩ := husage
    [.setRole .responder, .decrypt ⟨sevens.peek 16, []⟩, .restore, .setRole .initiator]
  obtain ⟨result, hanswer, hresult⟩ := hstep m
  refine ⟨m, u, hsent, ((hreads m).accepted shortText sevens rfl hsalt).mpr hsent, hrun, ?_⟩
  rw [hanswer, (hresult.accepted shortText sevens rfl hsalt).mpr hsent]

end Session

end SealedEnvelope
