import SealedEnvelope.Proofs.Command.Gathering
import SealedEnvelope.Proofs.Command.Keygen
import SealedEnvelope.Proofs.Command.PasswordFiles
import SealedEnvelope.Proofs.Session.Handshake

/-!
Key files at work. What one command writes with them is what another one reads: fingerprints are the
same wherever they are printed, and signatures are accepted over just what they have been made over.
-/

namespace SealedEnvelope

namespace FileTree

/-- A public key that has been read from a file can be used by every operation. -/
theorem resolve_of_publicKey {t : FileTree} {path : String} {key : Ed25519PublicKey}
    (h : t.publicKey path = .ok (.ed25519 key)) (operation : Operation) :
    (PublicKey.ed25519 key).resolve operation = .ok key := by
  obtain ⟨resolved, hresolve, -⟩ := (Checks.publicKey (.ed25519 key)).exists_ok
    (List.forall_mem_singleton.mpr (fault?_of_publicKey h operation))
  obtain ⟨-, rfl⟩ := PublicKey.resolve_eq_ok.mp hresolve
  exact hresolve

/-- What the fingerprint command prints. -/
def fingerprint (t : FileTree) (algorithm : FingerprintAlgorithm) (path : String) :
    Except CommandFailure String := do
  let key ← t.publicKey path
  let id ← ((key.resolve .keyIdentifier).map (·.identifier algorithm)).mapError .crypto
  return id.text ++ "\n"

/-- The signature that the sign command makes. -/
def signature (t : FileTree) (input path passwordFile : String) : Except CommandFailure Bytes := do
  let key ← t.privateKey path passwordFile
  let opened ← (t.find input).mapError (.file input)
  (do
    let key ← key.resolve .signStream
    return (← Signature.signStream (t.sourceOf opened) key).toBytes).mapError .crypto

/-- What the verify command prints. -/
def verification (t : FileTree) (input signed path : String) : Except CommandFailure String := do
  let key ← t.publicKey path
  let signature ← (t.read signed).mapError (.file signed)
  let opened ← (t.find input).mapError (.file input)
  (do
    let key ← key.resolve .verifyStream
    Signature.verifyStream (t.sourceOf opened) signature key).mapError .crypto
  return "signature ok\n"

variable {t : FileTree} {input path passwordFile signed : String} {text : Bytes}

theorem fingerprint_of_publicKey {algorithm : FingerprintAlgorithm} {key : Ed25519PublicKey}
    (h : t.publicKey path = .ok (.ed25519 key)) :
    t.fingerprint algorithm path = .ok ((key.identifier algorithm).text ++ "\n") := by
  rw [fingerprint, h, ok_bind, resolve_of_publicKey h]
  rfl

/-- The digest of the whole file is signed. -/
theorem signature_of_read {key : Ed25519PrivateKey} (hempty : key.isEmpty = false)
    (hkey : t.privateKey path passwordFile = .ok (.ed25519 key))
    (hinput : t.read input = .ok text) :
    t.signature input path passwordFile =
      .ok (Ed25519.sign key.seed (Sha512.digest text).toBytes).toBytes := by
  obtain ⟨place, hfind, hfolder, rfl⟩ := read_eq_ok.mp hinput
  have hresolve : (PrivateKey.ed25519 key).resolve .signStream = .ok key :=
    PrivateKey.resolve_eq_ok.mpr ⟨hempty, rfl⟩
  have hsign : Signature.signStream (Source.ofBytes (t.contentOf place)) key =
      .ok (Ed25519.sign key.seed (Sha512.digest (t.contentOf place)).toBytes) := by
    rw [Signature.signStream_eq_ok rfl, Source.bytes_ofBytes]
    exact Signature.sign_eq_ok.mpr ⟨hempty, rfl⟩
  refine bind_eq_ok.mpr ⟨_, hkey, bind_eq_ok.mpr ⟨place, mapError_eq_ok.mpr hfind, ?_⟩⟩
  rw [sourceOf_of_ne_folder t hfolder]
  exact mapError_eq_ok.mpr (bind_eq_ok.mpr ⟨key, hresolve, bind_eq_ok.mpr ⟨_, hsign, rfl⟩⟩)

/-- A signature is accepted just if it is valid over the digest of the whole file. -/
theorem verification_eq_ok {key : Ed25519PublicKey} {content : Bytes} {printed : String}
    (hkey : t.publicKey path = .ok (.ed25519 key)) (hsigned : t.read signed = .ok content)
    (hinput : t.read input = .ok text) :
    t.verification input signed path = .ok printed ↔
      Signature.verify (Sha512.digest text).toBytes content key = .ok () ∧
        printed = "signature ok\n" := by
  obtain ⟨place, hfind, hfolder, rfl⟩ := read_eq_ok.mp hinput
  rw [← Source.bytes_ofBytes (t.contentOf place), ← Signature.verifyStream_eq_ok rfl,
    ← sourceOf_of_ne_folder t hfolder]
  have hresolve := resolve_of_publicKey hkey .verifyStream
  constructor
  · intro h
    obtain ⟨key', hkey', h⟩ := bind_eq_ok.mp h
    obtain ⟨content', hcontent', h⟩ := bind_eq_ok.mp h
    obtain ⟨place', hplace', h⟩ := bind_eq_ok.mp h
    obtain ⟨⟨⟩, hverify, hprinted⟩ := bind_eq_ok.mp h
    obtain ⟨resolved, hresolved, hverify⟩ := bind_eq_ok.mp (mapError_eq_ok.mp hverify)
    cases hkey.symm.trans hkey'
    cases hsigned.symm.trans (mapError_eq_ok.mp hcontent')
    cases hfind.symm.trans (mapError_eq_ok.mp hplace')
    cases hresolve.symm.trans hresolved
    cases hprinted
    exact ⟨hverify, rfl⟩
  · rintro ⟨hverify, rfl⟩
    refine bind_eq_ok.mpr ⟨_, hkey, bind_eq_ok.mpr ⟨content, mapError_eq_ok.mpr hsigned, ?_⟩⟩
    refine bind_eq_ok.mpr ⟨place, mapError_eq_ok.mpr hfind, bind_eq_ok.mpr ⟨(), ?_, rfl⟩⟩
    exact mapError_eq_ok.mpr (bind_eq_ok.mpr ⟨key, hresolve, hverify⟩)

end FileTree

namespace Task

variable (t : Toolkit) (input output path passwordFile signed : String)

theorem Reads.fingerprint :
    Reads (Task.fingerprint t path) (·.fingerprint t.settings.fingerprint path) :=
  (Reads.loadPublic t path).bind fun _ => (Reads.ofReport t _ _ _).bind fun _ => .pure _

theorem Reads.verify : Reads (Task.verify t input signed path) (·.verification input signed path) :=
  (Reads.loadPublic t path).bind fun _ => (Reads.readFile signed).bind fun _ =>
    (Reads.openFile input).bind fun opened => (Reads.sourceOf opened).bind fun _ =>
      (Reads.ofReport t _ _ _).bind fun _ => .pure _

/-- The sign command makes the signature first, and then puts it into the output. -/
theorem sign_of_signature {w : Workplace} {content : Bytes} {files : FileTree}
    (hsignature : w.files.signature input path passwordFile = .ok content)
    (hfiles : w.files.write output content = .ok files) :
    ∃ events, Task.sign t input output path passwordFile w =
      (.ok "", { w.recording events with files }) := by
  -- All that is read is read before the output is touched.
  have hreads : Reads (do
      let key ← loadPrivate t path passwordFile
      let opened ← openFile input
      let source ← Task.sourceOf opened
      ofAction (t.signStream source key)) (·.signature input path passwordFile) :=
    (Reads.loadPrivate t path passwordFile).bind fun _ => (Reads.openFile input).bind fun opened =>
      (Reads.sourceOf opened).bind fun _ => Reads.ofReport t _ _ _
  have hsplit : Task.sign t input output path passwordFile = (do
      let signature ← (do
        let key ← loadPrivate t path passwordFile
        let opened ← openFile input
        let source ← Task.sourceOf opened
        ofAction (t.signStream source key) : Task Bytes)
      writeFile output signature
      return "") := by
    simp only [bind_assoc]
    rfl
  obtain ⟨events, hsigned⟩ := hreads.exists_ok hsignature
  refine ⟨events, ?_⟩
  have hwritten : writeFile output content (w.recording events) =
      (.ok (), { w.recording events with files }) := writeFile_of_ok hfiles
  rw [hsplit, Stateful.bind_of_ok hsigned, Stateful.bind_of_ok hwritten]
  rfl

end Task

/-- A signature of the right length that is valid under a usable key. -/
def Ed25519PublicKey.Validates (key : Ed25519PublicKey) (message signature : Bytes) : Prop :=
  ∃ point bytes, key.point .verify = .ok point ∧ signature = Octets.toBytes bytes ∧
    Ed25519.verify key.bytes point message bytes = true

section KeyFiles

variable {settings : Settings} {t : Toolkit} {w : Workplace} {path : String}

theorem Command.fingerprint_of_publicKey {key : Ed25519PublicKey}
    (ht : Toolkit.ofSettings settings = .ok t) (h : w.files.publicKey path = .ok (.ed25519 key)) :
    ∃ after, (Command.fingerprint path).runWith settings w =
      (.ok ((key.identifier settings.fingerprint).text ++ "\n"), after) := by
  obtain ⟨events, hrun⟩ := (Task.Reads.fingerprint t path).exists_ok
    (FileTree.fingerprint_of_publicKey h)
  rw [Toolkit.settings_of_ofSettings ht] at hrun
  rw [Command.runWith_of_ofSettings ht]
  exact ⟨_, hrun⟩

theorem Command.sign_of_privateKey {key : Ed25519PrivateKey} {input output passwordFile : String}
    {text : Bytes} {location : Location} (ht : Toolkit.ofSettings settings = .ok t)
    (hempty : key.isEmpty = false)
    (hkey : w.files.privateKey path passwordFile = .ok (.ed25519 key))
    (hinput : w.files.read input = .ok text)
    (houtput : w.files.target output = .ok (.file location)) :
    ∃ after, (Command.sign input output path passwordFile).runWith settings w = (.ok "", after) ∧
      after.files.read output =
        .ok (Ed25519.sign key.seed (Sha512.digest text).toBytes).toBytes := by
  obtain ⟨events, hrun⟩ := Task.sign_of_signature t input output path passwordFile
    (FileTree.signature_of_read hempty hkey hinput) (FileTree.write_of_target houtput _)
  rw [Command.runWith_of_ofSettings ht]
  exact ⟨_, hrun, FileTree.read_put_of_target houtput _⟩

/-- The verify command succeeds just if the signature is valid over the digest of the file. -/
theorem Command.exists_verify_iff {key : Ed25519PublicKey} {input signed : String}
    {signature text : Bytes} (ht : Toolkit.ofSettings settings = .ok t)
    (hkey : w.files.publicKey path = .ok (.ed25519 key))
    (hsigned : w.files.read signed = .ok signature) (hinput : w.files.read input = .ok text) :
    (∃ printed after, (Command.verify input signed path).runWith settings w =
        (.ok printed, after)) ↔
      key.Validates (Sha512.digest text).toBytes signature := by
  have hreads := Task.Reads.verify t input path signed
  rw [Command.runWith_of_ofSettings ht]
  constructor
  · rintro ⟨printed, after, hrun⟩
    obtain ⟨hverification, -⟩ := hreads.of_ok hrun
    obtain ⟨hverify, -⟩ := (FileTree.verification_eq_ok hkey hsigned hinput).mp hverification
    exact Signature.verify_eq_ok.mp hverify
  · intro hvalid
    have hverification := (FileTree.verification_eq_ok hkey hsigned hinput).mpr
      ⟨Signature.verify_eq_ok.mpr hvalid, rfl⟩
    obtain ⟨events, hrun⟩ := hreads.exists_ok hverification
    exact ⟨_, _, hrun⟩

end KeyFiles

/-- The key that keygen draws. -/
def Workplace.nextKey (w : Workplace) : Ed25519PrivateKey := ⟨w.surroundings.entropy.peek 32⟩

/-- The two files that keygen makes are those of the key that it has drawn: one gives the private key
back under the password that was in its file then, the other the public key, whose fingerprint is
what keygen has printed. What is signed with the one is accepted with the other, over any file with
the same content, and over other content only where the signature happens to be valid for it. Of
two files with the same password each will do in every command, unless just one of them is the
output of the decrypt command. -/
theorem key_files_work_together {settings : Settings} {out passwordFile printed : String}
    {w after : Workplace}
    (hrun : (Command.keygen out passwordFile).runWith settings w = (.ok printed, after))
    (hpoint : w.nextKey.HasPoint) :
    (∃ phrase publicKey stored encoded,
      w.files.password passwordFile = .ok phrase ∧
      after.files.read (privateKeyPath out) = .ok stored ∧
      ProtectedKey.recover stored phrase = .ok w.nextKey ∧ w.nextKey.publicKey = .ok publicKey ∧
      after.files.read (publicKeyPath out) = .ok encoded ∧
      Ed25519PublicKey.decode encoded = .ok publicKey ∧
      (∀ settings' t v, Toolkit.ofSettings settings' = .ok t →
        settings'.fingerprint = settings.fingerprint →
        v.files.read (publicKeyPath out) = .ok encoded →
        ∃ v', (Command.fingerprint (publicKeyPath out)).runWith settings' v = (.ok printed, v')) ∧
      ∀ settings' t v input output file text location, Toolkit.ofSettings settings' = .ok t →
        v.files.read (privateKeyPath out) = .ok stored → v.files.password file = .ok phrase →
        v.files.read input = .ok text → v.files.target output = .ok (.file location) →
        ∃ signature v', (Command.sign input output (privateKeyPath out) file).runWith settings' v =
            (.ok "", v') ∧ v'.files.read output = .ok signature ∧
          ∀ settings' t u input signed text', Toolkit.ofSettings settings' = .ok t →
            u.files.read (publicKeyPath out) = .ok encoded → u.files.read signed = .ok signature →
            u.files.read input = .ok text' →
            (SelfVerifies w.nextKey (Sha512.digest text).toBytes → text' = text →
              ∃ printed u', (Command.verify input signed (publicKeyPath out)).runWith settings' u =
                (.ok printed, u')) ∧
            ∀ printed u', (Command.verify input signed (publicKeyPath out)).runWith settings' u =
                (.ok printed, u') →
              publicKey.Validates (Sha512.digest text').toBytes signature) ∧
    ∀ (settings : Settings) (command : Command) (f : Command.PasswordUse → String → String)
      (v : Workplace), command.Exchangeable f v.files →
      (command.mapPasswordFiles f).runWith settings v = command.runWith settings v := by
  refine ⟨?_, fun _ _ _ _ => Command.runWith_mapPasswordFiles⟩
  obtain ⟨t, ht, hkeygen⟩ := Command.runWith_eq_ok hrun
  obtain ⟨phrase, salt, publicKey, between, hphrase, hpublicKey, hbetween, hmade, rfl⟩ :=
    Task.keygen_eq_ok hkeygen
  obtain ⟨hstored, hencoded⟩ := FileTree.read_keyFiles hbetween hmade
  have hempty := isEmpty_of_publicKey hpublicKey
  obtain ⟨_, hmontgomery⟩ := hpoint publicKey hpublicKey
  obtain ⟨point, hedwards, -⟩ := map_eq_ok.mp hmontgomery
  refine ⟨phrase, publicKey, _, _, hphrase, hstored, ProtectedKey.recover_wrap hempty salt phrase,
    hpublicKey, hencoded, Ed25519PublicKey.decode_encode hedwards, ?_, ?_⟩
  · intro settings' t' v ht' hsame hread
    rw [Toolkit.settings_of_ofSettings ht, ← hsame]
    exact Command.fingerprint_of_publicKey ht' (FileTree.publicKey_of_read hedwards hread)
  · intro settings' t' v input output file text location ht' hread hpassword hinput houtput
    have hkey := FileTree.privateKey_of_read hempty hpassword hread
    obtain ⟨v', hsign, hsignature⟩ :=
      Command.sign_of_privateKey ht' hempty hkey hinput houtput
    refine ⟨_, v', hsign, hsignature, ?_⟩
    intro settings'' t'' u input' signed text' ht'' hread' hsigned hinput'
    have hverify := Command.exists_verify_iff ht'' (FileTree.publicKey_of_read hedwards hread')
      hsigned hinput'
    constructor
    · rintro hself rfl
      obtain ⟨verifyPoint, hverifyPoint, hvalid⟩ := hself publicKey hpublicKey
      exact hverify.mpr ⟨verifyPoint, _, hverifyPoint, rfl, hvalid⟩
    · exact fun printed u' haccepted => hverify.mp ⟨printed, u', haccepted⟩

/-- A text, the key that keygen has made of sevens in its two files, and two files with the
password, one of them with a line end. -/
def signerPlace (publicKey privateKey : Bytes) : Workplace where
  files := ⟨[], (["pw2"], sevenPhrase) :: (sampleFiles publicKey privateKey).files⟩
  surroundings := ⟨sevens, []⟩

/-- A text and a signature, and the public key to verify it with. -/
def verifierPlace (publicKey signature : Bytes) : Workplace where
  files := ⟨[], [(["plain"], shortText), (["sig"], signature), (["k.pub"], publicKey)]⟩
  surroundings := ⟨sevens, []⟩

theorem hasPoint_sevenPlace : sevenPlace.nextKey.HasPoint := by
  obtain ⟨point, hpoint, -⟩ := agreement_sevens
  intro publicKey hkey
  cases publicKey_sevenKey.symm.trans hkey
  exact ⟨point, toX25519_congr hpoint .agreeKeys⟩

theorem exists_keygen_sevenPlace : ∃ printed after,
    (Command.keygen "k" "pw").runWith sevenInvocation.settings sevenPlace =
      (.ok printed, after) := by
  obtain ⟨t, ht⟩ : ∃ t, Toolkit.ofSettings sevenInvocation.settings = .ok t := ⟨_, rfl⟩
  obtain ⟨point, hpoint, -⟩ := equations_sevens
  have hprivate : sevenPlace.files.target (privateKeyPath "k") = .ok (.file ["k.key"]) := rfl
  have hpublic : sevenPlace.files.target (publicKeyPath "k") = .ok (.file ["k.pub"]) := rfl
  obtain ⟨after, hkeygen⟩ := Task.exists_keygen (t := t) password_sevenPlace rfl
    publicKey_sevenKey hpoint hprivate hpublic
  rw [Command.runWith_of_ofSettings ht]
  exact ⟨_, after, hkeygen⟩

/-- What has been signed with either password file is accepted, and the fingerprint is the same. -/
theorem key_files_work_together_sevens : ∃ printed after stored encoded signature,
    (Command.keygen "k" "pw").runWith sevenInvocation.settings sevenPlace =
        (.ok printed, after) ∧ sevenPlace.nextKey.HasPoint ∧
      after.files.read "k.key" = .ok stored ∧ after.files.read "k.pub" = .ok encoded ∧
      (∃ last, (Command.fingerprint "k.pub").runWith sevenInvocation.settings after =
        (.ok printed, last)) ∧
      (∃ last, (Command.sign "plain" "sig" "k.key" "pw").runWith sevenInvocation.settings
          (signerPlace encoded stored) = (.ok "", last) ∧
        (Command.sign "plain" "sig" "k.key" "pw2").runWith sevenInvocation.settings
          (signerPlace encoded stored) = (.ok "", last) ∧ last.files.read "sig" = .ok signature) ∧
      ∃ printed last, (Command.verify "plain" "sig" "k.pub").runWith sevenInvocation.settings
        (verifierPlace encoded signature) = (.ok printed, last) := by
  obtain ⟨t, ht⟩ : ∃ t, Toolkit.ofSettings sevenInvocation.settings = .ok t := ⟨_, rfl⟩
  obtain ⟨printed, after, hrun⟩ := exists_keygen_sevenPlace
  obtain ⟨⟨phrase, publicKey, stored, encoded, hphrase, hstored, -, -, hencoded, -, hprints, hsigns⟩,
    hexchange⟩ := key_files_work_together hrun hasPoint_sevenPlace
  cases password_sevenPlace.symm.trans hphrase
  obtain ⟨signature, last, hsign, hsignature, hverifies⟩ :=
    hsigns sevenInvocation.settings t (signerPlace encoded stored) "plain" "sig" "pw" shortText
      ["sig"] ht rfl rfl rfl rfl
  obtain ⟨hverify, -⟩ := hverifies sevenInvocation.settings t (verifierPlace encoded signature)
    "plain" "sig" shortText ht rfl rfl rfl
  have hsame : (Command.sign "plain" "sig" "k.key" "pw").Exchangeable
      (fun _ _ => "pw2") (signerPlace encoded stored).files := by
    constructor
    · rintro (_ | _)
      · exact List.forall_mem_singleton.mpr (FileTree.interchangeable_of_lineEnd rfl rfl)
      · exact List.forall_mem_nil _
    · exact nofun
  have hsign' := hexchange sevenInvocation.settings _ _ _ hsame
  exact ⟨printed, after, stored, encoded, signature, hrun, hasPoint_sevenPlace, hstored, hencoded,
    hprints _ t after ht rfl hencoded, ⟨last, hsign, hsign'.trans hsign, hsignature⟩,
    hverify selfVerifies_sevenKey.2 rfl⟩

/-- What the password and the empty one give under a salt of sevens. -/
theorem extract_sevens :
    (Hkdf.extract (sevens.peek 32).toBytes sevenPhrase).toBytes = Bytes.bigEndian 64
      0x4fe7c97ae8ce2e02b6b03e24ecfb480857503ecffdfa9d13952ab47e98accd014250540acc7592bff334cbf72bd06f608bf6cdaf9d97c8ff6f33736bfba4e1d8 ∧
    (Hkdf.extract (sevens.peek 32).toBytes []).toBytes = Bytes.bigEndian 64
      0x188347c22b35b053e8238289a616dc7b55a19cd9855dd5042860313ad037dd12d0668d2d3995e1813270fe6a8b001eb2b9874bb73ac57852502e25af15a0b144 := by
  decide +kernel

theorem wrapping_sevens :
    ProtectedKey.wrapping sevenPhrase (sevens.peek 32).toBytes =
      (⟨Bytes.bigEndian 32 0x09be6aad482ce5eee3c1e6a1b8cc8226e92d9fa64786f75db7817c3112bc5ac2,
          Bytes.length_bigEndian _ _⟩,
        ⟨Bytes.bigEndian 12 0xf7e0e682fad81f6b4f4100ed, Bytes.length_bigEndian _ _⟩) ∧
    ProtectedKey.wrapping [] (sevens.peek 32).toBytes =
      (⟨Bytes.bigEndian 32 0x767d375ac859fde45276f014be17716731df7b6778eb0aaab60e8b38bc744b35,
          Bytes.length_bigEndian _ _⟩,
        ⟨Bytes.bigEndian 12 0x16cbf18cc3cfe86c8828c323, Bytes.length_bigEndian _ _⟩) := by
  obtain ⟨hphrase, hnone⟩ := extract_sevens
  rw [ProtectedKey.wrapping, ProtectedKey.wrapping, hphrase, hnone]
  decide +kernel

/-- The key of sevens is not recovered with the empty password. -/
theorem exists_failure_sevens : ∃ failure,
    ProtectedKey.recover (ProtectedKey.wrap (sevens.peek 32) sevenKey sevenPhrase) [] =
      .error failure := by
  apply ProtectedKey.exists_failure_of_firstMask
  obtain ⟨hphrase, hnone⟩ := wrapping_sevens
  rw [ProtectedKey.firstMask, ProtectedKey.firstMask, hphrase, hnone]
  decide +kernel

/-- An envelope, and a key that opens it, with two files for its password. -/
def overwrittenPlace (envelope : Bytes) : Workplace where
  files := ⟨[], (["sealed"], envelope) :: (signerPlace sevenPublicKey.encode
    (ProtectedKey.wrap (sevens.peek 32) sevenKey sevenPhrase)).files.files⟩
  surroundings := ⟨sevens, []⟩

/-- Of two files that differ in a line end, one is decrypted into. With the password from the other
one the text is there, with the password from that one it is not, and the file is gone. -/
theorem password_file_lost_as_output : ∃ (w after last : Workplace) (failure : CommandFailure),
    w.files.Interchangeable "pw" "pw2" ∧
      (Command.decrypt "sealed" "pw" (some "k.key") (some "pw2") none []).runWith
        sevenInvocation.settings w = (.ok "", after) ∧ after.files.read "pw" = .ok shortText ∧
      (Command.decrypt "sealed" "pw" (some "k.key") (some "pw") none []).runWith
        sevenInvocation.settings w = (.error failure, last) ∧
      last.files.read "pw" = .error .missing := by
  obtain ⟨t, emit, next, ht, -, hdraw, hcollect⟩ :=
    @exists_sevenWork none (fun _ hnone => nomatch hnone)
  obtain ⟨envelope, henvelope⟩ := hcollect shortText (by decide)
  have hne : envelope ≠ [] := by
    obtain ⟨-, header, encoded, hdecode, -⟩ :=
      Encryption.exists_header_of_collect hdraw henvelope
    rintro rfl
    cases hdecode
  have hsealed := (Encryption.run_streamed hdraw).mpr henvelope
  have hrecovers : (Access.key (.ed25519 sevenKey) []).Recovers sevenInvocation.settings envelope
      shortText := Access.recovers_of_delivers ht hne fun husable =>
        Access.delivers_key hsealed publicKey_sevenKey (by simp [sevenRecipients])
          (by simp [sevenRecipients]) commutes_sevenKey rfl husable (.inl rfl)
  let w := overwrittenPlace envelope
  have hkey : (w.files.put ["pw"] []).privateKey "k.key" "pw2" = .ok (.ed25519 sevenKey) :=
    FileTree.privateKey_of_read (isEmpty_of_publicKey publicKey_sevenKey) rfl rfl
  have haccess : (Opener.key "k.key" "pw2" []).access w.files (w.files.put ["pw"] []) =
      .ok (.key (.ed25519 sevenKey) []) :=
    bind_eq_ok.mpr ⟨[], rfl, bind_eq_ok.mpr ⟨_, hkey, rfl⟩⟩
  obtain ⟨after, hrun, hread⟩ :=
    hrecovers (.key "k.key" "pw2" []) w "sealed" "pw" ["pw"] rfl rfl haccess
  -- The other way, the file is empty by the time the password is read from it.
  obtain ⟨cause, hcause⟩ := exists_failure_sevens
  have hlost : (w.files.put ["pw"] []).access (some "k.key") (some "pw") none [] =
      .error (.crypto cause) := by
    have hprivate : (w.files.put ["pw"] []).privateKey "k.key" "pw" = .error (.crypto cause) :=
      FileTree.privateKey_of_error rfl rfl hcause
    rw [FileTree.access, hprivate]
    rfl
  have hgather : w.files.toDecrypt "sealed" [] = .ok ([], .file ["sealed"]) := rfl
  have hmade : w.files.write "pw" [] = .ok (w.files.put ["pw"] []) := rfl
  obtain ⟨last, hfail, hfiles⟩ := Task.decrypt_of_access t hgather hmade hlost
  refine ⟨w, after, last, .crypto cause, ?_, hrun, hread, ?_, ?_⟩
  · exact FileTree.interchangeable_of_lineEnd rfl rfl
  · rw [Command.runWith_of_ofSettings ht]
    exact hfail
  · rw [hfiles]
    rfl

end SealedEnvelope
