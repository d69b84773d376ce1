import SealedEnvelope.Key.Protected
import SealedEnvelope.Proofs.Keys
import SealedEnvelope.Proofs.Segment.Run

/-!
Keys at rest. An encoded key is a tag and thirty-two bytes; what has been stored under a
password is recovered with it.
-/

namespace SealedEnvelope

theorem decodeTagged_eq_ok {operation : Operation} {data : Bytes} {bytes : Octets 32} :
    decodeTagged operation data = .ok bytes ↔ data = ed25519Tag :: bytes.toBytes := by
  constructor
  · intro h
    cases data with
    | nil => cases h
    | cons tag body =>
        rw [decodeTagged] at h
        split_ifs at h with htag
        cases hbody : Octets.ofBytes? 32 body with
        | none =>
            rw [hbody] at h
            cases h
        | some parsed =>
            rw [hbody] at h
            cases h
            rw [Octets.toBytes_of_ofBytes? hbody, not_not.mp htag]
  · rintro rfl
    rw [decodeTagged, Octets.ofBytes?_toBytes]
    rfl

/-- A public key is read back if it has a point. -/
theorem Ed25519PublicKey.decode_encode {operation : Operation} {key : Ed25519PublicKey}
    {point : EdwardsPoint} (h : key.point operation = .ok point) : decode key.encode = .ok key := by
  have htagged : decodeTagged .importPublicKey key.encode = .ok key.bytes :=
    decodeTagged_eq_ok.mpr rfl
  rw [decode, htagged]
  exact map_eq_ok.mpr ⟨point, point_congr h .importPublicKey, rfl⟩

/-- A private key is read back unless it is empty. -/
theorem Ed25519PrivateKey.decode_eq_ok {data : Bytes} {key : Ed25519PrivateKey} :
    decode data = .ok key ↔ key.isEmpty = false ∧ data = key.encode := by
  rw [decode, bind_eq_ok]
  constructor
  · rintro ⟨seed, hseed, h⟩
    dsimp only at h
    split_ifs at h with hempty
    cases h
    exact ⟨Bool.eq_false_of_not_eq_true hempty, decodeTagged_eq_ok.mp hseed⟩
  · rintro ⟨hempty, rfl⟩
    refine ⟨key.seed, decodeTagged_eq_ok.mpr rfl, ?_⟩
    dsimp only
    rw [if_neg (by simpa using hempty)]

/-- The first byte of a ciphertext is the first of the text under the first of the keystream. -/
theorem Gcm.head?_encrypt {key : Octets 32} {nonce : Octets 12} {ad rest : Bytes} {byte : UInt8} :
    (encrypt key nonce ad (byte :: rest)).head? =
      (counterBlock (Aes256.schedule key) nonce 2).head?.map (byte ^^^ ·) := by
  have hblocks : ((byte :: rest).length + 15) / 16 = rest.length / 16 + 1 := by
    rw [List.length_cons]
    omega
  rw [encrypt, MaskAndTag.encrypt, mask, keystream, hblocks, List.range_succ_eq_map,
    List.flatMap_cons]
  cases hblock : counterBlock (Aes256.schedule key) nonce 2 with
  | nil =>
      have hlength := length_counterBlock (Aes256.schedule key) nonce 2
      rw [hblock] at hlength
      cases hlength
  | cons first others => rfl

namespace ProtectedKey

variable {data password : Bytes} {key : Ed25519PrivateKey} {salt : Octets 32}

theorem take_wrap : (wrap salt key password).take saltLength = salt.toBytes :=
  List.take_left' salt.length_toBytes

theorem drop_wrap : (wrap salt key password).drop saltLength =
    Gcm.encrypt (wrapping password salt.toBytes).1 (wrapping password salt.toBytes).2 []
      key.encode :=
  List.drop_left' salt.length_toBytes

/-- What is opened of data that is long enough for a salt and a tag. -/
def opened (data password : Bytes) : Except Failure Bytes :=
  openText .importPrivateKey (wrapping password (data.take saltLength)).1
    (wrapping password (data.take saltLength)).2 [] (data.drop saltLength)

theorem recover_of_short (h : data.length < saltLength + 16) :
    recover data password = .error (.invalidKey .importPrivateKey .exportTruncated) :=
  if_pos h

theorem recover_of_long (h : saltLength + 16 ≤ data.length) :
    recover data password = opened data password >>= Ed25519PrivateKey.decode :=
  if_neg (Nat.not_lt.mpr h)

/-- What is recovered has been stored with the password, under the salt in front. -/
theorem recover_eq_ok :
    recover data password = .ok key ↔
      key.isEmpty = false ∧ ∃ salt, data = wrap salt key password := by
  constructor
  · intro h
    by_cases hshort : data.length < saltLength + 16
    · rw [recover_of_short hshort] at h
      cases h
    · rw [recover_of_long (Nat.not_lt.mp hshort), bind_eq_ok] at h
      obtain ⟨encoded, hopened, hdecode⟩ := h
      obtain ⟨hempty, rfl⟩ := Ed25519PrivateKey.decode_eq_ok.mp hdecode
      have hsealed := (openText_eq_ok.mp hopened).2
      have hsalt : (data.take saltLength).length = 32 := List.length_take_of_le (by omega)
      refine ⟨hempty, ⟨data.take saltLength, hsalt⟩, ?_⟩
      calc data = data.take saltLength ++ data.drop saltLength :=
            (List.take_append_drop saltLength data).symm
        _ = wrap ⟨data.take saltLength, hsalt⟩ key password := by rw [hsealed]; rfl
  · rintro ⟨hempty, salt, rfl⟩
    have hlength : saltLength + 16 ≤ (wrap salt key password).length := by
      rw [wrap, List.length_append, salt.length_toBytes, Gcm.length_encrypt, saltLength]
      omega
    have hfits : key.encode.length ≤ maxTextLength := by
      rw [Ed25519PrivateKey.encode, List.length_cons, key.seed.length_toBytes]
      decide
    have hopened : opened (wrap salt key password) password = .ok key.encode := by
      rw [opened, take_wrap, drop_wrap]
      exact openText_eq_ok.mpr ⟨hfits, rfl⟩
    rw [recover_of_long hlength, hopened]
    exact Ed25519PrivateKey.decode_eq_ok.mpr ⟨hempty, rfl⟩

/-- What has been stored is recovered with the password. -/
theorem recover_wrap (h : key.isEmpty = false) (salt : Octets 32) (password : Bytes) :
    recover (wrap salt key password) password = .ok key :=
  recover_eq_ok.mpr ⟨h, salt, rfl⟩

/-- What the first byte of an encoded key is masked with. -/
def firstMask (password salt : Bytes) : Option UInt8 :=
  (Gcm.counterBlock (Aes256.schedule (wrapping password salt).1) (wrapping password salt).2 2).head?

/-- All encoded keys begin with the same byte, so where another password masks it in another way,
nothing is recovered. -/
theorem exists_failure_of_firstMask {other : Bytes}
    (h : firstMask other salt.toBytes ≠ firstMask password salt.toBytes) :
    ∃ failure, recover (wrap salt key password) other = .error failure := by
  cases hrecover : recover (wrap salt key password) other with
  | error failure => exact ⟨failure, rfl⟩
  | ok key' =>
      obtain ⟨-, salt', hsame⟩ := recover_eq_ok.mp hrecover
      have hsalt := congrArg (List.take saltLength) hsame
      rw [take_wrap, take_wrap] at hsalt
      cases Octets.ext hsalt
      have hfirst := congrArg (fun data => (data.drop saltLength).head?) hsame
      rw [drop_wrap, drop_wrap, Ed25519PrivateKey.encode, Ed25519PrivateKey.encode,
        Gcm.head?_encrypt, Gcm.head?_encrypt] at hfirst
      refine absurd (Option.map_injective ?_ hfirst).symm h
      exact fun x y hxy => (UInt8.xor_right_inj _).mp hxy

/-- Only a salt is drawn to store a key. -/
theorem protect_eq_ok {random next : Entropy} :
    protect key password random = (.ok data, next) ↔
      key.isEmpty = false ∧ random.holds saltLength = true ∧
        data = wrap (random.peek saltLength) key password ∧
          next = { random with position := random.position + saltLength } := by
  simp only [protect, Random.bind_eq_ok, Random.lift_eq_ok, Random.draw_eq_ok, usableSeed_eq_ok]
  constructor
  · rintro ⟨seed, _, ⟨⟨hempty, -⟩, rfl⟩, salt, later, ⟨hholds, rfl, rfl⟩, hstored⟩
    cases hstored
    exact ⟨hempty, hholds, rfl, rfl⟩
  · rintro ⟨hempty, hholds, rfl, rfl⟩
    exact ⟨key.seed, random, ⟨⟨hempty, rfl⟩, rfl⟩, _, _, ⟨hholds, rfl, rfl⟩, rfl⟩

/-- The tag and a seed that is not all zeros, which makes thirty-three bytes. -/
def IsKeyEncoding (encoded : Bytes) : Prop :=
  ∃ seed : Octets 32, seed.isZero = false ∧ encoded = ed25519Tag :: seed.toBytes

theorem exists_decode_eq_ok {encoded : Bytes} :
    (∃ key, Ed25519PrivateKey.decode encoded = .ok key) ↔ IsKeyEncoding encoded := by
  constructor
  · rintro ⟨key, hkey⟩
    obtain ⟨hempty, hencoded⟩ := Ed25519PrivateKey.decode_eq_ok.mp hkey
    exact ⟨key.seed, hempty, hencoded⟩
  · rintro ⟨seed, hseed, hencoded⟩
    exact ⟨⟨seed⟩, Ed25519PrivateKey.decode_eq_ok.mpr ⟨hseed, hencoded⟩⟩

/-- A source that hands out the salt in front of the data stores only the recovered key as them. -/
theorem recover_eq_ok_of_salt {random : Entropy} (hholds : random.holds saltLength = true)
    (hsalt : (random.peek saltLength).toBytes = data.take saltLength) :
    recover data password = .ok key ↔ (protect key password random).1 = .ok data := by
  constructor
  · intro h
    obtain ⟨hempty, salt, rfl⟩ := recover_eq_ok.mp h
    rw [take_wrap] at hsalt
    have hstored : wrap salt key password = wrap (random.peek saltLength) key password := by
      rw [Octets.ext hsalt]
    exact congrArg Prod.fst (protect_eq_ok.mpr ⟨hempty, hholds, hstored, rfl⟩)
  · intro h
    obtain ⟨hempty, -, rfl, -⟩ := protect_eq_ok.mp (Prod.ext h rfl)
    exact recover_wrap hempty _ password

/-- Data that are long enough are refused as not authentic if nothing can be opened in them, and
else for what has been opened. -/
theorem failure_of_recover {failure : Failure} (hlength : saltLength + 16 ≤ data.length)
    (h : recover data password = .error failure) :
    failure = .authenticationFailed .importPrivateKey ∧
        (∀ encoded, opened data password ≠ .ok encoded) ∨
      ∃ encoded, opened data password = .ok encoded ∧ ¬ IsKeyEncoding encoded ∧
        Ed25519PrivateKey.decode encoded = .error failure := by
  rw [recover_of_long hlength, bind_eq_error] at h
  obtain hopened | ⟨encoded, hopened, hdecode⟩ := h
  · refine .inl ⟨?_, fun encoded hok => ?_⟩
    · unfold opened openText at hopened
      split at hopened
      · split at hopened <;> cases hopened
        rfl
      · cases hopened
        rfl
    · rw [hopened] at hok
      cases hok
  · refine .inr ⟨encoded, hopened, fun hkey => ?_, hdecode⟩
    obtain ⟨key, hok⟩ := exists_decode_eq_ok.mpr hkey
    rw [hdecode] at hok
    cases hok

/-- Under one password, any be it the empty one, import and export undo each other. What is imported
as a key is just what its export gives when the source hands out the salt in front, and a key that
is not empty comes back whatever the salt is. An empty key is refused before anything is drawn, and
so are data without room for a salt and a tag. Other data are refused as not authentic, unless they
open to something else than a tagged key that is not empty. -/
theorem import_undoes_export (password : Bytes) :
    (∀ data key, recover data password = .ok key ↔
      key.isEmpty = false ∧ ∃ random : Entropy, random.holds saltLength = true ∧
        (random.peek saltLength).toBytes = data.take saltLength ∧
        (protect key password random).1 = .ok data) ∧
    (∀ data key (random : Entropy), random.holds saltLength = true →
      (random.peek saltLength).toBytes = data.take saltLength →
      (recover data password = .ok key ↔ (protect key password random).1 = .ok data)) ∧
    (∀ key (random : Entropy), key.isEmpty = false → random.holds saltLength = true →
      ∃ data, protect key password random =
          (.ok data, { random with position := random.position + saltLength }) ∧
        recover data password = .ok key) ∧
    (∀ key (random : Entropy), key.isEmpty = true → protect key password random =
      (.error (.invalidKey .exportPrivateKey .privateEmpty), random)) ∧
    (∀ data : Bytes, data.length < 48 →
      recover data password = .error (.invalidKey .importPrivateKey .exportTruncated)) ∧
    ∀ (data : Bytes) (failure : Failure), 48 ≤ data.length →
      recover data password = .error failure →
      failure = .authenticationFailed .importPrivateKey ∧
          (∀ encoded, opened data password ≠ .ok encoded) ∨
        ∃ encoded, opened data password = .ok encoded ∧ ¬ IsKeyEncoding encoded ∧
          Ed25519PrivateKey.decode encoded = .error failure := by
  refine ⟨?_, fun data key random => recover_eq_ok_of_salt, ?_, ?_, fun data => recover_of_short,
    fun data failure => failure_of_recover⟩
  · intro data key
    constructor
    · intro h
      obtain ⟨hempty, salt, rfl⟩ := recover_eq_ok.mp h
      obtain ⟨random, hholds, hpeek⟩ := Entropy.exists_peek_eq salt
      have hsalt : (random.peek saltLength).toBytes = (wrap salt key password).take saltLength := by
        rw [take_wrap, ← hpeek]
        rfl
      exact ⟨hempty, random, hholds, hsalt, (recover_eq_ok_of_salt hholds hsalt).mp h⟩
    · rintro ⟨-, random, hholds, hsalt, hstored⟩
      exact (recover_eq_ok_of_salt hholds hsalt).mpr hstored
  · intro key random hempty hholds
    exact ⟨_, protect_eq_ok.mpr ⟨hempty, hholds, rfl, rfl⟩, recover_wrap hempty _ password⟩
  · intro key random hempty
    rw [protect, Ed25519PrivateKey.usableSeed, if_pos hempty]
    rfl

/-- A key of ones, stored under the empty password. -/
theorem import_undoes_export_ones : ∃ key random data,
    key.isEmpty = false ∧ random.holds saltLength = true ∧ (protect key [] random).1 = .ok data ∧
      recover data [] = .ok key ∧
      recover (data.take 47) [] = .error (.invalidKey .importPrivateKey .exportTruncated) := by
  let random : Entropy := ⟨fun _ => 1, none, 0⟩
  let key : Ed25519PrivateKey := ⟨random.peek 32⟩
  obtain ⟨-, -, hreturns, -, hshort, -⟩ := import_undoes_export []
  have hempty : key.isEmpty = false := by decide
  obtain ⟨data, hstored, hrecovered⟩ := hreturns key random hempty rfl
  have hlength : (data.take 47).length < 48 := Nat.lt_succ_of_le (List.length_take_le 47 data)
  exact ⟨key, random, data, hempty, rfl, congrArg Prod.fst hstored, hrecovered,
    hshort _ hlength⟩

end ProtectedKey

end SealedEnvelope
