import SealedEnvelope.Proofs.Envelope.RoundTrip
import SealedEnvelope.Proofs.Session.Handshake
import SealedEnvelope.Proofs.Session.Snapshot

/-!
Conversations over the two sessions of a handshake. Each side reads what the other has
written, in whatever order and however often it arrives, and also after a session has
been put away and restored.
-/

namespace SealedEnvelope

namespace SessionMessage

theorem decode_encode (m : SessionMessage) : decode m.encode = .ok m := by
  have hsalt : Octets.ofBytes? 16 (m.encode.take 16) = some m.salt := by
    rw [encode, List.take_left' m.salt.length_toBytes, Octets.ofBytes?_toBytes]
  rw [decode, hsalt]
  dsimp only
  rw [encode, List.drop_left' m.salt.length_toBytes]

end SessionMessage

namespace Session

variable {s t : Session} {m : SessionMessage} {text : Bytes}

/-- What the one sends is what the other receives. -/
structure Mirrors (s t : Session) : Prop where
  sendKey : s.sendKey = t.receiveKey
  additionalData : s.additionalData = t.additionalData

theorem Paired.mirrors (h : Paired s t) : s.Mirrors t := by
  refine ⟨?_, h.additionalData⟩
  rw [sendKey, receiveKey, h.role, h.peerRole]
  exact h.initiatorKey

theorem Paired.mirrors_symm (h : Paired s t) : t.Mirrors s := by
  refine ⟨?_, h.additionalData.symm⟩
  rw [sendKey, receiveKey, h.role, h.peerRole]
  exact h.responderKey.symm

theorem encryptWith_eq_ok {salt : Octets 16} :
    s.encryptWith salt text = .ok m ↔
      text.length ≤ maxMessageLength ∧ m = ⟨salt, XChaCha20Poly1305.encrypt
        (s.messageSecret s.sendKey salt).1 (s.messageSecret s.sendKey salt).2
        s.additionalData.toBytes text⟩ := by
  rw [encryptWith]
  split
  case isTrue hlength => simp [hlength, eq_comm]
  case isFalse hlength => simp [hlength]

theorem decrypt_eq_ok :
    t.decrypt m = .ok text ↔
      text.length ≤ maxMessageLength ∧ m.ciphertext = XChaCha20Poly1305.encrypt
        (t.messageSecret t.receiveKey m.salt).1 (t.messageSecret t.receiveKey m.salt).2
        t.additionalData.toBytes text := by
  rw [decrypt, ← XChaCha20Poly1305.decrypt_eq_some_iff]
  dsimp only
  cases XChaCha20Poly1305.decrypt (t.messageSecret t.receiveKey m.salt).1
    (t.messageSecret t.receiveKey m.salt).2 t.additionalData.toBytes m.ciphertext with
  | none => simp
  | some opened =>
      dsimp only
      split
      case isTrue hlength =>
        constructor
        · intro h
          cases h
          exact ⟨hlength, rfl⟩
        · rintro ⟨-, h⟩
          cases h
          rfl
      case isFalse hlength =>
        constructor
        · nofun
        · rintro ⟨hfits, h⟩
          cases h
          exact absurd hfits hlength

/-- A session reads exactly what its mirror image writes under the salt of the message. -/
theorem decrypt_eq_ok_iff (h : s.Mirrors t) :
    t.decrypt m = .ok text ↔ s.encryptWith m.salt text = .ok m := by
  have hsecret : t.messageSecret t.receiveKey m.salt = s.messageSecret s.sendKey m.salt := by
    rw [messageSecret, messageSecret, h.sendKey, h.additionalData]
  rw [decrypt_eq_ok, encryptWith_eq_ok, hsecret, h.additionalData]
  obtain ⟨salt, ciphertext⟩ := m
  rw [SessionMessage.mk.injEq, eq_self, true_and]

/-- What is drawn for a message is its salt. -/
theorem encrypt_eq_ok {e next : Entropy} :
    s.encrypt text e = (.ok m, next) ↔
      e.holds 16 = true ∧ s.encryptWith (e.peek 16) text = .ok m ∧
        next = { e with position := e.position + 16 } := by
  simp only [encrypt, Random.bind_eq_ok, Random.draw_eq_ok, Random.lift_eq_ok]
  constructor
  · rintro ⟨salt, later, ⟨hholds, rfl, rfl⟩, hmessage, rfl⟩
    exact ⟨hholds, hmessage, rfl⟩
  · rintro ⟨hholds, hmessage, rfl⟩
    exact ⟨_, _, ⟨hholds, rfl, rfl⟩, hmessage, rfl⟩

theorem salt_of_encryptWith {salt : Octets 16} (h : s.encryptWith salt text = .ok m) :
    m.salt = salt := by
  obtain ⟨-, rfl⟩ := encryptWith_eq_ok.mp h
  rfl

/-- What one has encrypted, its mirror image decrypts. -/
theorem decrypt_of_encrypt (h : s.Mirrors t) {e next : Entropy}
    (hencrypt : s.encrypt text e = (.ok m, next)) : t.decrypt m = .ok text := by
  obtain ⟨-, hmessage, -⟩ := encrypt_eq_ok.mp hencrypt
  rw [← salt_of_encryptWith hmessage] at hmessage
  exact (decrypt_eq_ok_iff h).mpr hmessage

end Session

/-- A message on its way: who sent it, what it says and the bytes that are sent. -/
structure Posting where
  sender : Role
  text : Bytes
  encoded : Bytes

/-- A message that has arrived and what the other side reads in it. -/
structure Receipt where
  posting : Posting
  result : Except Failure Bytes

/-- The sessions of two sides, all messages sent and all that have arrived, in order. -/
structure Conversation where
  initiator : Session
  responder : Session
  posted : List Posting
  receipts : List Receipt

namespace Conversation

inductive Move where
  /-- One side sends a text; `random` is what its source of randomness then is. -/
  | send (sender : Role) (random : Entropy) (text : Bytes)
  /-- The message with this number arrives, be it for the first time or again. -/
  | deliver (number : Nat)
  /-- The session of one side is put away and restored. -/
  | restore (side : Role)

/-- Two sessions before any message. -/
def between (initiator responder : Session) : Conversation := ⟨initiator, responder, [], []⟩

def session (c : Conversation) : Role → Session
  | .initiator => c.initiator
  | .responder => c.responder

def setSession (c : Conversation) (session : Session) : Role → Conversation
  | .initiator => { c with initiator := session }
  | .responder => { c with responder := session }

/-- What a side reads in the bytes that arrive. -/
def read (c : Conversation) (side : Role) (encoded : Bytes) : Except Failure Bytes := do
  let message ← SessionMessage.decode encoded
  (c.session side).decrypt message

/-- One move. A message that cannot be encrypted is not sent, and nothing arrives under a number
that no message has. -/
def step (c : Conversation) : Move → Except Failure Conversation
  | .send sender random text =>
      match ((c.session sender).encrypt text random).1 with
      | .ok message => .ok { c with posted := c.posted ++ [⟨sender, text, message.encode⟩] }
      | .error _ => .ok c
  | .deliver number =>
      match c.posted[number]? with
      | some posting =>
          let result := c.read posting.sender.opposite posting.encoded
          .ok { c with receipts := c.receipts ++ [⟨posting, result⟩] }
      | none => .ok c
  | .restore side =>
      (Session.ofBytes (c.session side).toBytes).map fun session => c.setSession session side

def run (c : Conversation) (moves : List Move) : Except Failure Conversation := moves.foldlM step c

/-- The text that a move sends: one that is not too long, while there is randomness for a salt. -/
def Move.sent? : Move → Option (Role × Bytes)
  | .send sender random text =>
      if random.holds 16 = true ∧ text.length ≤ Session.maxMessageLength then some (sender, text)
      else none
  | .deliver _ | .restore _ => none

/-- The sessions are still those of the handshake, every message that has been sent will be read
by the other side, and every one that has arrived has been. -/
structure Understood (s t : Session) (c : Conversation) : Prop where
  initiator : c.initiator = s
  responder : c.responder = t
  posted : ∀ posting ∈ c.posted,
    c.read posting.sender.opposite posting.encoded = .ok posting.text
  receipts : ∀ receipt ∈ c.receipts, receipt.result = .ok receipt.posting.text

/-- Who has sent which texts so far. -/
def sent (c : Conversation) : List (Role × Bytes) :=
  c.posted.map fun posting => (posting.sender, posting.text)

theorem setSession_self (c : Conversation) (side : Role) :
    c.setSession (c.session side) side = c := by
  cases side <;> rfl

variable {s t : Session} {c : Conversation}

theorem mirrors_of_paired (h : s.Paired t) (hinitiator : c.initiator = s)
    (hresponder : c.responder = t) (sender : Role) :
    (c.session sender).Mirrors (c.session sender.opposite) := by
  subst hinitiator hresponder
  cases sender with
  | initiator => exact h.mirrors
  | responder => exact h.mirrors_symm

theorem exists_encrypted_iff (session : Session) {random : Entropy} {text : Bytes} :
    (∃ message, (session.encrypt text random).1 = .ok message) ↔
      random.holds 16 = true ∧ text.length ≤ Session.maxMessageLength := by
  constructor
  · rintro ⟨message, h⟩
    obtain ⟨hholds, hmessage, -⟩ := Session.encrypt_eq_ok.mp (Prod.ext h rfl)
    exact ⟨hholds, (Session.encryptWith_eq_ok.mp hmessage).1⟩
  · rintro ⟨hholds, hlength⟩
    have hmessage : session.encryptWith (random.peek 16) text = .ok _ :=
      Session.encryptWith_eq_ok.mpr ⟨hlength, rfl⟩
    exact ⟨_, congrArg Prod.fst (Session.encrypt_eq_ok.mpr ⟨hholds, hmessage, rfl⟩)⟩

theorem understood_between (s t : Session) : (between s t).Understood s t :=
  ⟨rfl, rfl, List.forall_mem_nil _, List.forall_mem_nil _⟩

/-- One move keeps all that, and sends what can be sent. -/
theorem Understood.step (hpaired : s.Paired t) (h : c.Understood s t) (move : Move) :
    ∃ next, c.step move = .ok next ∧ next.Understood s t ∧
      next.sent = c.sent ++ move.sent?.toList := by
  cases move with
  | send sender random text =>
      rw [Conversation.step]
      cases hencrypt : ((c.session sender).encrypt text random).1 with
      | error failure =>
          refine ⟨c, rfl, h, ?_⟩
          have hnone : (Move.send sender random text).sent? = none := by
            apply if_neg
            rw [← exists_encrypted_iff (c.session sender), hencrypt]
            nofun
          rw [hnone, Option.toList_none, List.append_nil]
      | ok message =>
          have hmirrors := mirrors_of_paired hpaired h.initiator h.responder sender
          have hread : c.read sender.opposite message.encode = .ok text := by
            rw [read, SessionMessage.decode_encode, ok_bind]
            exact Session.decrypt_of_encrypt hmirrors (Prod.ext hencrypt rfl)
          refine ⟨_, rfl, ⟨h.initiator, h.responder, ?_, h.receipts⟩, ?_⟩
          · rw [List.forall_mem_append, List.forall_mem_singleton]
            exact ⟨h.posted, hread⟩
          · have hsome : (Move.send sender random text).sent? = some (sender, text) :=
              if_pos ((exists_encrypted_iff _).mp ⟨message, hencrypt⟩)
            rw [hsome, sent, List.map_append]
            rfl
  | deliver number =>
      have hnone : (Move.deliver number).sent?.toList = [] := rfl
      rw [Conversation.step, hnone, List.append_nil]
      cases hposting : c.posted[number]? with
      | none => exact ⟨c, rfl, h, rfl⟩
      | some posting =>
          refine ⟨_, rfl, ⟨h.initiator, h.responder, h.posted, ?_⟩, rfl⟩
          rw [List.forall_mem_append, List.forall_mem_singleton]
          exact ⟨h.receipts, h.posted posting (List.mem_of_getElem? hposting)⟩
  | restore side =>
      have hrestored : Session.ofBytes (c.session side).toBytes = .ok (c.session side) := by
        simpa using (c.session side).ofBytes_toBytes []
      have hnone : (Move.restore side).sent?.toList = [] := rfl
      rw [Conversation.step, hrestored, hnone, List.append_nil]
      refine ⟨c, ?_, h, rfl⟩
      rw [Except.map, setSession_self]

/-- So does a run, by induction on the moves. -/
theorem Understood.run (hpaired : s.Paired t) (h : c.Understood s t) (moves : List Move) :
    ∃ last, c.run moves = .ok last ∧ last.Understood s t ∧
      last.sent = c.sent ++ moves.filterMap Move.sent? := by
  induction moves generalizing c with
  | nil => exact ⟨c, rfl, h, (List.append_nil _).symm⟩
  | cons move moves ih =>
      obtain ⟨next, hstep, hnext, hsent⟩ := h.step hpaired move
      obtain ⟨last, hrun, hlast, hall⟩ := ih hnext
      refine ⟨last, ?_, hlast, ?_⟩
      · rw [Conversation.run, List.foldlM_cons, hstep, ok_bind]
        exact hrun
      · rw [hall, hsent, List.append_assoc]
        cases hmove : move.sent? with
        | none => rw [List.filterMap_cons_none hmove, Option.toList_none, List.nil_append]
        | some text =>
            rw [List.filterMap_cons_some hmove, Option.toList_some, List.singleton_append]

end Conversation

/-- Each side of a handshake is given the public keys of the other. Where two keys have no secret,
both sides fail for an unusable key. Otherwise both get a session, and the two differ in their
roles only. From then on each side reads exactly what the other has sent, in whatever order and
however often messages arrive or are lost, and whenever a session is put away and restored; and
what has been sent so far can be read at any later time. -/
theorem conversation_understood {identity ephemeral : Ed25519PrivateKey} {own : ResponderKeys}
    {bundle : PrekeyBundle} {hello : InitiatorHello}
    (hbundle : bundle.OfKeys own) (hhello : hello.OfKeys identity ephemeral)
    (hpoints : ∀ pair ∈ Session.handshakePairs identity ephemeral own,
      pair.1.HasPoint ∧ pair.2.HasPoint)
    (hagree : ∀ pair ∈ Session.handshakePairs identity ephemeral own, pair.1.AgreesWith pair.2)
    (callerData : Bytes) :
    (Session.handshakeSecrets? identity ephemeral own = none ∧
      (∃ failure, Session.start identity ephemeral bundle callerData = .error failure ∧
        failure.kind = .invalidKey) ∧
      ∃ failure, Session.receive own hello callerData = .error failure ∧
        failure.kind = .invalidKey) ∨
    ∃ secrets s t, Session.handshakeSecrets? identity ephemeral own = some secrets ∧
      Session.start identity ephemeral bundle callerData = .ok s ∧
      Session.receive own hello callerData = .ok t ∧ s.Paired t ∧
      ∀ moves, ∃ last, (Conversation.between s t).run moves = .ok last ∧
        last.sent = moves.filterMap Conversation.Move.sent? ∧
        (∀ posting ∈ last.posted,
          last.read posting.sender.opposite posting.encoded = .ok posting.text) ∧
        ∀ receipt ∈ last.receipts, receipt.result = .ok receipt.posting.text := by
  have hcomputed : Yields (Session.initiatorSecrets identity ephemeral bundle) _ :=
    Session.yields_initiatorSecrets hbundle
  have hinitiator := hcomputed.map fun secrets => Session.establish secrets callerData .initiator
  have hresponder := (Session.yields_responderSecrets hhello hpoints hagree).map fun secrets =>
    Session.establish secrets callerData .responder
  cases hsecrets : Session.handshakeSecrets? identity ephemeral own with
  | none =>
      rw [hsecrets] at hinitiator hresponder
      exact .inl ⟨rfl, hinitiator, hresponder⟩
  | some secrets =>
      rw [hsecrets] at hinitiator hresponder
      have hpaired := Session.paired_establish secrets callerData
      refine .inr ⟨secrets, _, _, rfl, hinitiator, hresponder, hpaired, ?_⟩
      intro moves
      obtain ⟨last, hrun, hlast, hsent⟩ :=
        (Conversation.understood_between _ _).run hpaired moves
      exact ⟨last, hrun, hsent, hlast.posted, hlast.receipts⟩

section Sample

/-- A key other than that of sevens. -/
def eightKey : Ed25519PrivateKey := ⟨(⟨fun _ => 8, none, 0⟩ : Entropy).peek 32⟩

def eightPublicKey : Ed25519PublicKey := ⟨Ed25519.publicPoint eightKey.seed⟩

def eightKeys : ResponderKeys := ⟨eightKey, eightKey, some eightKey⟩

theorem publicKey_eightKey : eightKey.publicKey = .ok eightPublicKey := by
  have hempty : eightKey.isEmpty = false := by decide
  exact map_eq_ok.mpr ⟨eightKey.seed, usableSeed_eq_ok.mpr ⟨hempty, rfl⟩, rfl⟩

/-- What is derived from the seed of eights. -/
theorem derived_eights :
    (Sha512.digest eightKey.seed.toBytes).toBytes = Bytes.bigEndian 64
      0x3b26c9c31226edde9501fd2589203cb3e6fe737876a845512b53ada2fa2ace34ee36673f0a58c17edb6b9febe2bcffdab624f7a96adcd9c7dff06fe969849c72 ∧
    eightPublicKey = ⟨⟨Bytes.bigEndian 32
      0x1398f62c6d1a457c51ba6a4b5f3dbd2f69fca93216218dc8997e416bd17d93ca,
      Bytes.length_bigEndian _ _⟩⟩ := by
  decide +kernel

theorem agreement_sevens_eights : ∃ seven eight,
    sevenPublicKey.toX25519 .agreeKeys = .ok seven ∧
      eightPublicKey.toX25519 .agreeKeys = .ok eight ∧
      (X25519.multiply (Ed25519PrivateKey.x25519Scalar sevenKey.seed) eight).isZero = false ∧
      X25519.multiply (Ed25519PrivateKey.x25519Scalar sevenKey.seed) eight =
        X25519.multiply (Ed25519PrivateKey.x25519Scalar eightKey.seed) seven := by
  have hagrees : (match sevenPublicKey.toX25519 .agreeKeys with
      | .ok seven =>
          match eightPublicKey.toX25519 .agreeKeys with
          | .ok eight =>
              !(X25519.multiply (Ed25519PrivateKey.x25519Scalar sevenKey.seed) eight).isZero &&
                decide (X25519.multiply (Ed25519PrivateKey.x25519Scalar sevenKey.seed) eight =
                  X25519.multiply (Ed25519PrivateKey.x25519Scalar eightKey.seed) seven)
          | .error _ => false
      | .error _ => false) = true := by
    obtain ⟨hseven, -, hsevenPublic⟩ := derived_sevens
    obtain ⟨height, heightPublic⟩ := derived_eights
    rw [hsevenPublic, heightPublic, Ed25519PrivateKey.x25519Scalar,
      Ed25519PrivateKey.x25519Scalar, hseven, height]
    decide +kernel
  rcases hseven : sevenPublicKey.toX25519 .agreeKeys with failure | seven
  · rw [hseven] at hagrees
    cases hagrees
  rcases height : eightPublicKey.toX25519 .agreeKeys with failure | eight
  · rw [hseven, height] at hagrees
    cases hagrees
  · rw [hseven, height] at hagrees
    simp only [Bool.and_eq_true, Bool.not_eq_true', decide_eq_true_eq] at hagrees
    exact ⟨seven, eight, rfl, rfl, hagrees⟩

theorem sharedSecret?_sevens_eights : ∃ shared,
    sevenKey.sharedSecret? eightKey = some shared ∧
      eightKey.sharedSecret? sevenKey = some shared := by
  obtain ⟨seven, eight, hseven, height, hzero, hagrees⟩ := agreement_sevens_eights
  refine ⟨X25519.multiply (Ed25519PrivateKey.x25519Scalar sevenKey.seed) eight, ?_, ?_⟩
  · rw [sharedSecret?_of_publicKey publicKey_sevenKey publicKey_eightKey height, agreeX25519,
      hzero]
    rfl
  · rw [sharedSecret?_of_publicKey publicKey_eightKey publicKey_sevenKey hseven, agreeX25519,
      ← hagrees, hzero]
    rfl

theorem handshakeSecrets?_sevens :
    ∃ secrets, Session.handshakeSecrets? sevenKey sevenKey eightKeys = some secrets := by
  obtain ⟨shared, hsecret, -⟩ := sharedSecret?_sevens_eights
  rw [Session.handshakeSecrets?_eq, eightKeys]
  simp only [Option.mapM_some, hsecret]
  exact ⟨_, rfl⟩

/-- A message that arrives twice, the second time after the session has been put away. -/
theorem conversation_understood_sevens : ∃ s t last,
    Session.start sevenKey sevenKey ⟨eightPublicKey, eightPublicKey, some eightPublicKey⟩ [9] =
        .ok s ∧
      Session.receive eightKeys ⟨sevenPublicKey, sevenPublicKey⟩ [9] = .ok t ∧ s.Paired t ∧
      (Conversation.between s t).run [.send .initiator sevens shortText, .deliver 0,
        .restore .responder, .deliver 0] = .ok last ∧
      last.sent = [(.initiator, shortText)] ∧
      ∀ receipt ∈ last.receipts, receipt.result = .ok receipt.posting.text := by
  obtain ⟨seven, eight, hseven, height, -, hagrees⟩ := agreement_sevens_eights
  have hhello : (⟨sevenPublicKey, sevenPublicKey⟩ : InitiatorHello).OfKeys sevenKey sevenKey :=
    ⟨.inl publicKey_sevenKey, .inl publicKey_sevenKey⟩
  have hbundle : (⟨eightPublicKey, eightPublicKey, some eightPublicKey⟩ : PrekeyBundle).OfKeys
      eightKeys := by
    have howns : eightKey.Owns eightPublicKey := .inl publicKey_eightKey
    exact ⟨howns, howns, .some howns⟩
  have hpairs : Session.handshakePairs sevenKey sevenKey eightKeys =
      List.replicate 4 (sevenKey, eightKey) := rfl
  have hpoints : sevenKey.HasPoint ∧ eightKey.HasPoint := by
    constructor
    · intro publicKey hkey
      rw [publicKey_sevenKey] at hkey
      cases hkey
      exact ⟨seven, hseven⟩
    · intro publicKey hkey
      rw [publicKey_eightKey] at hkey
      cases hkey
      exact ⟨eight, height⟩
  have hagree : sevenKey.AgreesWith eightKey := by
    intro publicKey otherPublicKey point otherPoint hkey hpoint hother hotherPoint
    rw [publicKey_sevenKey] at hkey
    rw [publicKey_eightKey] at hother
    cases hkey
    cases hother
    rw [hseven] at hpoint
    rw [height] at hotherPoint
    cases hpoint
    cases hotherPoint
    exact hagrees
  have hall : ∀ pair ∈ Session.handshakePairs sevenKey sevenKey eightKeys,
      pair = (sevenKey, eightKey) := by
    rw [hpairs]
    exact fun pair => List.eq_of_mem_replicate
  rcases conversation_understood hbundle hhello
      (fun pair hpair => by rw [hall pair hpair]; exact hpoints)
      (fun pair hpair => by rw [hall pair hpair]; exact hagree)
      [9] with ⟨hnone, -⟩ | ⟨secrets, s, t, -, hstart, hreceive, hpaired, hmoves⟩
  · obtain ⟨secrets, hsecrets⟩ := handshakeSecrets?_sevens
    rw [hsecrets] at hnone
    cases hnone
  · obtain ⟨last, hrun, hsent, -, hreceipts⟩ := hmoves [.send .initiator sevens shortText,
      .deliver 0, .restore .responder, .deliver 0]
    exact ⟨s, t, last, hstart, hreceive, hpaired, hrun, hsent, hreceipts⟩

end Sample

end SealedEnvelope
