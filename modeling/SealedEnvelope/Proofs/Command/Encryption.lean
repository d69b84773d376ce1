import SealedEnvelope.Proofs.Command.Decryption

/-!
Encrypting files. Keys, passwords and the path of the input are read before the output is
made, and so emptied, but the input itself afterwards. So what is encrypted is what the
input held, unless it is the file that has been emptied.
-/

namespace SealedEnvelope

/-- Whom the encrypt command is told to encrypt for and who signs, by files. -/
structure Addressing where
  recipients : List String
  passwordFile : Option String
  signer : Option (String × String)

namespace Addressing

def command (input output : String) (a : Addressing) : Command :=
  .encrypt input output a.recipients a.passwordFile a.signer

/-- Whom the files say that is. -/
def targets (t : FileTree) (a : Addressing) : Except CommandFailure (List EnvelopeRecipient) := do
  let keys ← a.recipients.mapM t.publicKey
  let phrase ← a.passwordFile.mapM t.password
  return keys.map .key ++ phrase.toList.map .password

def signingKey (t : FileTree) (a : Addressing) : Except CommandFailure (Option PrivateKey) :=
  a.signer.mapM fun files => t.privateKey files.1 files.2

theorem signingKey_of_privateKey {t : FileTree} {a : Addressing} {path passwordFile : String}
    {key : PrivateKey} (hsigner : a.signer = some (path, passwordFile))
    (hkey : t.privateKey path passwordFile = .ok key) : a.signingKey t = .ok (some key) := by
  rw [signingKey, hsigner]
  exact bind_eq_ok.mpr ⟨key, hkey, rfl⟩

/-- One of the recipients' files holds this key. -/
def ListsKey (t : FileTree) (a : Addressing) (key : Ed25519PublicKey) : Prop :=
  ∃ path ∈ a.recipients, t.publicKey path = .ok (.ed25519 key)

/-- Who is to be able to open the output: whoever holds the private key of a recipient, also if the
signer is among those they accept signatures from, and whoever knows the password. -/
def Lists (t : FileTree) (a : Addressing) : Access → Prop
  | .key key verifiers =>
      ∃ privateKey publicKey, key = .ed25519 privateKey ∧ privateKey.publicKey = .ok publicKey ∧
        a.ListsKey t publicKey ∧
        (verifiers = [] ∨ ∃ signer verifier, a.signingKey t = .ok (some (.ed25519 signer)) ∧
          signer.publicKey = .ok verifier ∧ .ed25519 verifier ∈ verifiers)
  | .password phrase => ∃ path, a.passwordFile = some path ∧ t.password path = .ok phrase

section Targets

variable {t : FileTree} {a : Addressing} {targets : List EnvelopeRecipient}
  {recipients : List Recipient} {phrase : Bytes}

theorem key_mem_targets (h : a.targets t = .ok targets) {key : PublicKey} :
    .key key ∈ targets ↔ ∃ path ∈ a.recipients, t.publicKey path = .ok key := by
  obtain ⟨keys, hkeys, hrest⟩ := bind_eq_ok.mp h
  obtain ⟨phrase, -, hsame⟩ := bind_eq_ok.mp hrest
  cases hsame
  simp [mem_iff_of_mapM hkeys]

theorem password_mem_targets (h : a.targets t = .ok targets) :
    .password phrase ∈ targets ↔
      ∃ path, a.passwordFile = some path ∧ t.password path = .ok phrase := by
  obtain ⟨keys, -, hrest⟩ := bind_eq_ok.mp h
  obtain ⟨phrase, hphrase, hsame⟩ := bind_eq_ok.mp hrest
  cases hsame
  cases hfile : a.passwordFile with
  | none =>
      rw [hfile] at hphrase
      cases hphrase
      simp
  | some path =>
      rw [hfile] at hphrase
      obtain ⟨read, hread, hsome⟩ := bind_eq_ok.mp hphrase
      cases hsome
      simp [hread, eq_comm]

theorem key_mem_recipients (htargets : a.targets t = .ok targets)
    (hrecipients : recipients.map Recipient.handedIn = targets) {key : Ed25519PublicKey} :
    .key key ∈ recipients ↔ a.ListsKey t key := by
  rw [← List.mem_map_of_injective Recipient.handedIn_injective, hrecipients]
  exact key_mem_targets htargets

theorem password_mem_recipients (htargets : a.targets t = .ok targets)
    (hrecipients : recipients.map Recipient.handedIn = targets) :
    .password phrase ∈ recipients ↔
      ∃ path, a.passwordFile = some path ∧ t.password path = .ok phrase := by
  rw [← List.mem_map_of_injective Recipient.handedIn_injective, hrecipients]
  exact password_mem_targets htargets

end Targets

end Addressing

namespace Toolkit

/-- What encrypting a stream, signed or not, will do with a source. -/
def work (t : Toolkit) (signer : Option PrivateKey) (targets : List EnvelopeRecipient) :
    Random (Source → Emission Nat) :=
  match signer with
  | some signer => t.signedEncryption signer targets
  | none => t.encryption targets

def sealStream (t : Toolkit) (signer : Option PrivateKey) (targets : List EnvelopeRecipient)
    (source : Source) : StreamAction :=
  match signer with
  | some signer => t.signThenEncryptStream signer targets source
  | none => t.encryptStream targets source

theorem exists_collect_sealStream (t : Toolkit) (signer : Option PrivateKey)
    (targets : List EnvelopeRecipient) (source : Source) (w : Workplace) :
    ∃ events, Task.collect (t.sealStream signer targets source) w =
      (delivered ((t.work signer targets w.surroundings.entropy).1.map fun emit => emit source),
        ⟨w.files, (t.work signer targets w.surroundings.entropy).2, events⟩) := by
  have hdrawn (work : Random (Source → Emission Nat)) (e : Entropy) :
      (do return (← work) source : Random (Emission Nat)) e =
        ((work e).1.map fun emit => emit source, (work e).2) := by
    rw [Random.bind_apply]
    rcases work e with ⟨_ | emit, next⟩ <;> rfl
  cases signer with
  | none =>
      obtain ⟨events, h⟩ := Task.collect_reportStream t .encryptStream none
        (do return (← t.encryption targets) source) w
      rw [hdrawn] at h
      exact ⟨events, h⟩
  | some signer =>
      obtain ⟨events, h⟩ := Task.collect_reportStream t .signThenEncryptStream
        (t.privateId? signer) (do return (← t.signedEncryption signer targets) source) w
      rw [hdrawn] at h
      exact ⟨events, h⟩

end Toolkit

/-- The text that is encrypted once the file at `location` has been emptied for the output. -/
def FileTree.textBehind (t : FileTree) (location : Location) (opened : Place)
    (work : Except Failure (Source → Emission Nat)) : Source :=
  if opened = .file location then
    match work with
    | .ok emit => Emission.loopback emit [] Task.loopbackRounds
    | .error _ => .ofBytes []
  else t.sourceOf opened

/-- The file that is encrypted into another is read as it was. -/
theorem FileTree.read_of_textBehind {t : FileTree} {input : String} {location : Location}
    {opened : Place} {work : Except Failure (Source → Emission Nat)}
    (hopened : t.find input = .ok opened) (hother : opened ≠ .file location)
    (hfault : ((t.put location []).textBehind location opened work).fault = none) :
    t.read input = .ok ((t.put location []).textBehind location opened work).bytes := by
  have htext : (t.put location []).textBehind location opened work =
      (t.put location []).sourceOf opened := if_neg hother
  rw [htext] at hfault ⊢
  have hfolder : opened ≠ .folder := by
    rintro rfl
    cases hfault
  rw [sourceOf_of_ne_folder _ hfolder, contentOf_put_of_ne hother, Source.bytes_ofBytes]
  exact read_eq_ok.mpr ⟨opened, hopened, hfolder, rfl⟩

namespace Task

theorem plaintext_eq {w : Workplace} {output : String} {location : Location}
    (houtput : w.files.target output = .ok (.file location)) (opened : Place)
    (work : Random (Source → Emission Nat)) :
    plaintext opened output work w =
      (.ok (w.files.textBehind location opened (work w.surroundings.entropy).1), w) := by
  unfold plaintext FileTree.textBehind
  cases opened with
  | folder => rfl
  | nullDevice => rfl
  | file input =>
      rw [houtput]
      by_cases hsame : input = location
      · subst hsame
        simp only [if_true]
        rcases (work w.surroundings.entropy).1 with failure | emit <;> rfl
      · simp only [if_neg hsame, Place.file.injEq]
        rfl

theorem Reads.signingKey (t : Toolkit) (a : Addressing) :
    Reads (a.signer.mapM fun files => Task.loadPrivate t files.1 files.2) a.signingKey := by
  unfold Addressing.signingKey
  apply Reads.option
  intro files
  exact Reads.loadPrivate t files.1 files.2

/-- What is done once the input has been opened. -/
def sealInto (t : Toolkit) (signer : Option PrivateKey) (targets : List EnvelopeRecipient)
    (opened : Place) (output : String) : Task String := do
  createFile output
  let source ← plaintext opened output (t.work signer targets)
  let (result, bytes) ← collect (t.sealStream signer targets source)
  writeFile output bytes
  match result with
  | .ok _ => return ""
  | .error failure => throw (.crypto failure)

/-- The output is made whatever comes of the work, and holds all that has been written. -/
theorem sealInto_eq {t : Toolkit} {signer : Option PrivateKey} {targets : List EnvelopeRecipient}
    {opened : Place} {output : String} {location : Location} {w : Workplace}
    {work : Except Failure (Source → Emission Nat)} {next : Entropy} {result : Except Failure Nat}
    {bytes : Bytes} (houtput : w.files.target output = .ok (.file location))
    (hwork : t.work signer targets w.surroundings.entropy = (work, next))
    (hdelivered : delivered (work.map fun emit =>
      emit ((w.files.put location []).textBehind location opened work)) = (result, bytes)) :
    ∃ events, sealInto t signer targets opened output w =
      ((result.map fun _ => "").mapError .crypto,
        ⟨w.files.put location bytes, next, events⟩) := by
  let made : Workplace := { w with files := w.files.put location [] }
  have hmade : made.files.target output = .ok (.file location) :=
    FileTree.target_of_folders (FileTree.folders_put w.files location []) houtput
  have hcreate : createFile output w = (.ok (), made) := writeFile_of_target houtput []
  have hplain : plaintext opened output (t.work signer targets) made =
      (.ok (made.files.textBehind location opened work), made) := by
    rw [plaintext_eq hmade, hwork]
  obtain ⟨events, hcollect⟩ := t.exists_collect_sealStream signer targets
    (made.files.textBehind location opened work) made
  rw [hwork, hdelivered] at hcollect
  have hwrite : writeFile output bytes ⟨made.files, next, events⟩ =
      (.ok (), ⟨w.files.put location bytes, next, events⟩) := by
    rw [writeFile_of_target (w := ⟨made.files, next, events⟩) hmade, FileTree.put_put]
  refine ⟨events, ?_⟩
  rw [sealInto, Stateful.bind_apply, hcreate]
  dsimp only
  rw [Stateful.bind_apply, hplain]
  dsimp only
  rw [Stateful.bind_apply, Stateful.liftM_apply, hcollect]
  dsimp only
  rw [Stateful.bind_apply, hwrite]
  cases result <;> rfl

section Runs

variable {t : Toolkit} {a : Addressing} {input output printed : String} {location : Location}
  {w after : Workplace}

/-- What goes before an encryption that succeeds. -/
theorem encrypt_eq_ok (houtput : w.files.target output = .ok (.file location))
    (hrun : (a.command input output).run t w = (.ok printed, after)) :
    ∃ targets signer opened emit next envelope n, a.targets w.files = .ok targets ∧
      a.signingKey w.files = .ok signer ∧ w.files.find input = .ok opened ∧
      t.work signer targets w.surroundings.entropy = (.ok emit, next) ∧
      (emit ((w.files.put location []).textBehind location opened (.ok emit))).collect =
        .ok (envelope, n) ∧
      after.files = w.files.put location envelope := by
  simp only [Command.run, Addressing.command, encrypt, Stateful.bind_eq_ok] at hrun
  -- Up to the opened input all parts only read, so the files are still as they were.
  obtain ⟨keys, w₁, hload, phrase, w₂, hread, signer, w₃, hunlock, hrest⟩ := hrun
  obtain ⟨hkeys, first, rfl⟩ := (Reads.list (Reads.loadPublic t) a.recipients).of_ok hload
  obtain ⟨hphrase, second, rfl⟩ := (Reads.option Reads.readPassword a.passwordFile).of_ok hread
  obtain ⟨hsigner, third, rfl⟩ := (Reads.signingKey t a).of_ok hunlock
  have htargets : a.targets w.files = .ok (keys.map .key ++ phrase.toList.map .password) :=
    bind_eq_ok.mpr ⟨keys, hkeys, bind_eq_ok.mpr ⟨phrase, hphrase, rfl⟩⟩
  split_ifs at hrest with hempty
  · obtain ⟨_, _, hthrow, -⟩ := Stateful.bind_eq_ok.mp hrest
    cases hthrow
  · obtain ⟨opened, w₄, hopen, hseal⟩ := Stateful.bind_eq_ok.mp hrest
    obtain ⟨hopened, fourth, rfl⟩ := (Reads.openFile input).of_ok hopen
    have hfind : w.files.find input = .ok opened := mapError_eq_ok.mp hopened
    replace hseal : sealInto t signer (keys.map .key ++ phrase.toList.map .password) opened output
      (w.recording fourth) = (.ok printed, after) := hseal
    rcases hwork : t.work signer (keys.map .key ++ phrase.toList.map .password)
      w.surroundings.entropy with ⟨work, next⟩
    rcases hdelivered : delivered (work.map fun emit =>
      emit ((w.files.put location []).textBehind location opened work)) with ⟨result, envelope⟩
    obtain ⟨events, hrun⟩ := sealInto_eq (w := w.recording fourth) houtput hwork hdelivered
    rw [hseal] at hrun
    obtain ⟨hresult, rfl⟩ := Prod.mk.inj hrun
    obtain ⟨n, rfl, -⟩ := map_eq_ok.mp (mapError_eq_ok.mp hresult.symm)
    obtain ⟨emission, hemission, hcollect⟩ := delivered_eq_ok.mp hdelivered
    obtain ⟨emit, rfl, rfl⟩ := map_eq_ok.mp hemission
    exact ⟨_, signer, opened, emit, next, envelope, n, htargets, hsigner, hfind, hwork, hcollect,
      rfl⟩

/-- An encryption that can be prepared and carried out succeeds. -/
theorem encrypt_of_collect {targets : List EnvelopeRecipient} {signer : Option PrivateKey}
    {opened : Place} {emit : Source → Emission Nat} {next : Entropy} {envelope : Bytes} {n : Nat}
    (houtput : w.files.target output = .ok (.file location))
    (htargets : a.targets w.files = .ok targets) (hne : targets ≠ [])
    (hsigner : a.signingKey w.files = .ok signer) (hopened : w.files.find input = .ok opened)
    (hwork : t.work signer targets w.surroundings.entropy = (.ok emit, next))
    (hcollect : (emit ((w.files.put location []).textBehind location opened (.ok emit))).collect =
      .ok (envelope, n)) :
    ∃ after, (a.command input output).run t w = (.ok "", after) ∧
      after.files = w.files.put location envelope := by
  obtain ⟨keys, hkeys, hrest⟩ := bind_eq_ok.mp htargets
  obtain ⟨phrase, hphrase, hsame⟩ := bind_eq_ok.mp hrest
  cases hsame
  obtain ⟨first, hload⟩ := (Reads.list (Reads.loadPublic t) a.recipients).exists_ok hkeys
  obtain ⟨second, hread⟩ := (Reads.option Reads.readPassword a.passwordFile).exists_ok
    (w := w.recording first) hphrase
  obtain ⟨third, hunlock⟩ := (Reads.signingKey t a).exists_ok (w := w.recording second) hsigner
  obtain ⟨fourth, hopen⟩ := (Reads.openFile input).exists_ok (w := w.recording third)
    (mapError_eq_ok.mpr hopened)
  obtain ⟨events, hseal⟩ := sealInto_eq (w := w.recording fourth) houtput hwork
    (delivered_eq_ok.mpr ⟨_, rfl, hcollect⟩)
  refine ⟨⟨w.files.put location envelope, next, events⟩, ?_, rfl⟩
  simp only [Command.run, Addressing.command, encrypt, Stateful.bind_eq_ok]
  refine ⟨keys, _, hload, phrase, _, hread, signer, _, hunlock, ?_⟩
  rw [if_neg (by simpa using hne)]
  exact Stateful.bind_eq_ok.mpr ⟨opened, _, hopen, hseal⟩

end Runs

end Task

namespace Encryption

variable {c : EnvelopeCipher} {signer : Option Ed25519PrivateKey} {recipients : List Recipient}
  {e last : Entropy} {emit : Source → Emission Nat} {source : Source} {envelope : Bytes} {n : Nat}

theorem decode_of_buildHeader {request : Encryption} {layout : BodyLayout}
    {signature : Option (Octets 64)} {header : EnvelopeHeader} {contentKey : Octets 32}
    {encoded : Bytes} (hlayout : request.layout c = .ok layout)
    (hsignature : request.signature = .ok signature)
    (hheader : c.buildHeader layout (layout.inHeader signature) recipients e =
      (.ok (header, contentKey), last)) (hencoded : header.encode = .ok encoded) (body : Bytes) :
    EnvelopeHeader.decode (encoded ++ body) = .ok (header, encoded.length) := by
  have hproduce : request.produce c recipients e =
      (.ok ⟨header, contentKey, encoded, request.text, signature⟩, last) :=
    produce_eq_ok.mpr ⟨layout, signature, header, contentKey, encoded, hlayout, hsignature,
      hheader, hencoded, rfl⟩
  exact EnvelopeHeader.decode_encode hencoded (valid_of_produce hproduce).readable body

/-- A source that fails at once has no segments. -/
theorem steps_encryptRun_failing (k : SegmentKeys) (fault : IoFault) :
    StreamCipher.encryptRun k (c.stream.plainRun (⟨[], some fault⟩ : Source)) =
      .fail (.io .streamEncrypt fault) := by
  have hholds : Source.view.Holds ⟨[], some fault⟩ [] (some fault) :=
    Source.view_holds ⟨[], some fault⟩
  obtain ⟨last, hblocks⟩ := Source.view.readBlocks_of_fault c.stream.bufferSize.pos hholds
  rw [List.take_nil, Bytes.cut_nil] at hblocks
  rw [StreamCipher.plainRun, hblocks]
  rfl

/-- An encryption that succeeds has read its source to the end. Of a source that fails at once,
only the same header is written. -/
theorem exists_header_of_collect (h : c.streaming signer recipients e = (.ok emit, last))
    (hcollect : (emit source).collect = .ok (envelope, n)) :
    source.fault = none ∧ ∃ header encoded,
      EnvelopeHeader.decode envelope = .ok (header, encoded.length) ∧
      encoded.length ≤ 704 + 500 * recipients.length ∧
      ∀ fault, (emit ⟨[], some fault⟩).steps = [.write .writeHeader encoded] := by
  cases signer with
  | none =>
      obtain ⟨size, header, contentKey, hsize, hheader, rfl⟩ := encryptStream_eq_ok h
      obtain ⟨encoded, body, hencoded, hbody, rfl⟩ := collect_write_bind.mp hcollect
      obtain ⟨hfault, -, -, -⟩ := (c.stream.collect_encryptRun_plainRun _).mp hbody
      have hlayout : (Encryption.encryptStream source).layout c = .ok (.stream size) :=
        map_eq_ok.mpr ⟨size, hsize, rfl⟩
      refine ⟨hfault, header, encoded, decode_of_buildHeader hlayout rfl hheader hencoded body,
        length_le_of_buildHeader hheader hencoded, fun fault => ?_⟩
      beta_reduce
      rw [write_bind_of_ok hencoded]
      dsimp only
      rw [StreamCipher.encrypt, steps_encryptRun_failing]
      rfl
  | some signer =>
      obtain ⟨-, size, header, contentKey, hsize, hheader, rfl⟩ :=
        signThenEncryptStream_eq_ok h
      obtain ⟨encoded, body, hencoded, hbody, rfl⟩ := collect_write_bind.mp hcollect
      obtain ⟨signature, hfault, hsign, -, -, -⟩ := collect_signedBody.mp hbody
      have hlayout : (Encryption.signThenEncryptStream source signer).layout c =
          .ok (.signedStream size) := map_eq_ok.mpr ⟨size, hsize, rfl⟩
      have hsignature : (Encryption.signThenEncryptStream source signer).signature =
          .ok (some signature) := map_eq_ok.mpr ⟨signature, hsign, rfl⟩
      refine ⟨hfault, header, encoded,
        decode_of_buildHeader hlayout hsignature hheader hencoded body,
        length_le_of_buildHeader hheader hencoded, fun fault => ?_⟩
      beta_reduce
      rw [write_bind_of_ok hencoded]
      dsimp only
      rw [steps_encryptRun_failing]
      rfl

end Encryption

/-- What fits into the buffer of the writer has not left it when the source is asked, so that work
on its own output finds nothing there. -/
theorem Emission.loopback_of_short {emit : Source → Emission Nat} {encoded : Bytes} {rounds : Nat}
    (hsteps : ∀ fault, (emit ⟨[], some fault⟩).steps = [.write .writeHeader encoded])
    (hshort : encoded.length < WriteBuffer.capacity) : loopback emit [] rounds = .ofBytes [] := by
  cases rounds with
  | zero => rfl
  | succ rounds =>
      have hpassed : (emit ⟨[], some (.device "no more")⟩).passedOn = [] := by
        rw [passedOn, hsteps]
        simp [WriteBuffer.perform, WriteBuffer.write, hshort.le, Nat.not_le.mpr hshort]
      rw [loopback]
      simp only [Source.pieces, hpassed, List.length_nil, Nat.le_refl, if_true]

/-- Nothing is left to be encrypted of a file that is the output. -/
theorem FileTree.textBehind_self {t : FileTree} {location : Location}
    {emit : Source → Emission Nat} {encoded : Bytes}
    (hsteps : ∀ fault, (emit ⟨[], some fault⟩).steps = [.write .writeHeader encoded])
    (hshort : encoded.length < WriteBuffer.capacity) :
    t.textBehind location (.file location) (.ok emit) = .ofBytes [] := by
  rw [textBehind, if_pos rfl]
  exact Emission.loopback_of_short hsteps hshort

namespace Toolkit

variable {t : Toolkit} {signer : Option PrivateKey} {targets : List EnvelopeRecipient}
  {e next : Entropy} {emit : Source → Emission Nat}

theorem resolve_handedIn {operation : Operation} {recipients : List Recipient}
    (h : ∀ key, .key key ∈ recipients → key.isEmpty = false) :
    (recipients.map Recipient.handedIn).mapM (·.resolve operation) = .ok recipients := by
  have hchecks : Checks operation _
      ((recipients.map Recipient.handedIn).mapM (·.resolve operation)) _ :=
    Checks.recipients (recipients.map Recipient.handedIn)
  have husable : ∀ key ∈ (recipients.map Recipient.handedIn).flatMap EnvelopeRecipient.keys,
      key.fault? operation = none := by
    intro key hkey
    obtain ⟨target, htarget, hmem⟩ := List.mem_flatMap.mp hkey
    obtain ⟨recipient, hrecipient, rfl⟩ := List.mem_map.mp htarget
    cases recipient with
    | password phrase => cases hmem
    | key publicKey =>
        cases List.mem_singleton.mp hmem
        rw [AnyKey.fault?, h publicKey hrecipient]
        rfl
  obtain ⟨resolved, hresolve, hsame⟩ := hchecks.exists_ok husable
  rwa [List.map_injective_iff.mpr Recipient.handedIn_injective hsame] at hresolve

theorem handedIn_of_resolve {operation : Operation} {recipients : List Recipient}
    (h : targets.mapM (·.resolve operation) = .ok recipients) :
    recipients.map Recipient.handedIn = targets := by
  have hchecks : Checks operation _ (targets.mapM (·.resolve operation)) _ :=
    Checks.recipients targets
  rw [h] at hchecks
  exact hchecks.of_ok

/-- Work that has been prepared is that of the cipher on keys that can be used. -/
theorem work_eq_ok (h : t.work signer targets e = (.ok emit, next)) :
    ∃ (key : Option Ed25519PrivateKey) (recipients : List Recipient),
      signer = key.map .ed25519 ∧ recipients.map Recipient.handedIn = targets ∧
      t.envelope.streaming key recipients e = (.ok emit, next) := by
  cases signer with
  | none =>
      obtain ⟨recipients, _, hlift, hdraw⟩ := Random.bind_eq_ok.mp h
      obtain ⟨hresolve, rfl⟩ := Random.lift_eq_ok.mp hlift
      exact ⟨none, recipients, rfl, handedIn_of_resolve hresolve, hdraw⟩
  | some signer =>
      obtain ⟨key, _, hlift, hsigned⟩ := Random.bind_eq_ok.mp h
      obtain ⟨hkey, rfl⟩ := Random.lift_eq_ok.mp hlift
      obtain ⟨recipients, _, hlift', hdraw⟩ := Random.bind_eq_ok.mp hsigned
      obtain ⟨hresolve, rfl⟩ := Random.lift_eq_ok.mp hlift'
      have hsigner : Checks .signThenEncryptStream _ (signer.resolve .signThenEncryptStream) _ :=
        Checks.privateKey signer
      rw [hkey] at hsigner
      exact ⟨some key, recipients, congrArg some hsigner.of_ok.symm, handedIn_of_resolve hresolve,
        hdraw⟩

/-- What the cipher prepares for keys that can be used is prepared for them as they are handed
in. -/
theorem work_of_streaming {key : Option Ed25519PrivateKey} {recipients : List Recipient}
    (hsigner : ∀ signer, key = some signer → signer.isEmpty = false)
    (hrecipients : ∀ key, .key key ∈ recipients → key.isEmpty = false)
    (h : t.envelope.streaming key recipients e = (.ok emit, next)) :
    t.work (key.map .ed25519) (recipients.map Recipient.handedIn) e = (.ok emit, next) := by
  have hresolve (operation : Operation) :
      Random.lift ((recipients.map Recipient.handedIn).mapM (·.resolve operation)) e =
        (.ok recipients, e) := Random.lift_eq_ok.mpr ⟨resolve_handedIn hrecipients, rfl⟩
  cases key with
  | none => exact Random.bind_eq_ok.mpr ⟨recipients, e, hresolve .encryptStream, h⟩
  | some signer =>
      have hsign : (PrivateKey.ed25519 signer).resolve .signThenEncryptStream = .ok signer :=
        PrivateKey.resolve_eq_ok.mpr ⟨hsigner signer rfl, rfl⟩
      exact Random.bind_eq_ok.mpr ⟨signer, e, Random.lift_eq_ok.mpr ⟨hsign, rfl⟩,
        Random.bind_eq_ok.mpr ⟨recipients, e, hresolve .signThenEncryptStream, h⟩⟩

/-- With keys that can be used, work can be prepared, and the segments of a text limit what it
does. -/
theorem exists_work {key : Option Ed25519PrivateKey} {recipients : List Recipient}
    (hsigner : ∀ signer, key = some signer → signer.isEmpty = false) (hendless : e.limit = none)
    (hne : recipients ≠ [])
    (hwrappable : ∀ recipient ∈ recipients, recipient.Wrappable e t.envelope.passwordCosts)
    (hcount : recipients.length ≤ 2000)
    (hsize : t.envelope.stream.bufferSize.val ≤ maxStreamBufferSize) :
    ∃ emit next,
      t.work (key.map .ed25519) (recipients.map Recipient.handedIn) e = (.ok emit, next) ∧
      t.envelope.streaming key recipients e = (.ok emit, next) ∧
      ∀ text : Bytes,
        SegmentKeys.Fits 0 (flagLast (Bytes.cut t.envelope.stream.bufferSize.val text)) →
          ∃ envelope, (emit (.ofBytes text)).collect = .ok (envelope, text.length) := by
  obtain ⟨emit, next, hdraw, hcollect⟩ :=
    exists_streaming hsigner hendless hne hwrappable hcount hsize
  refine ⟨emit, next, work_of_streaming hsigner ?_ hdraw, hdraw, fun text hfits => ?_⟩
  · intro publicKey hmem
    obtain ⟨point, hpoint, -⟩ := hwrappable _ hmem
    obtain ⟨edwards, hedwards, -⟩ := map_eq_ok.mp hpoint
    exact isEmpty_of_point hedwards
  · obtain ⟨envelope, h⟩ := hcollect (.ofBytes text) rfl (by rwa [Source.bytes_ofBytes])
    rw [Source.bytes_ofBytes] at h
    exact ⟨envelope, h⟩

end Toolkit

end SealedEnvelope
