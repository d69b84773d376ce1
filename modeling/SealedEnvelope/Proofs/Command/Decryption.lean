import SealedEnvelope.Proofs.Command.Files
import SealedEnvelope.Proofs.Envelope.SignedRoundTrip
import SealedEnvelope.Proofs.Toolkit.Dispatch

/-!
Decrypting files. The verifiers and the path of the input are read before the output is
made, the key or the password and the input itself afterwards; whoever then has what an
envelope was made for gets its text into the output.
-/

namespace SealedEnvelope

/-- What the decrypt command is told to open its input with, by files. -/
inductive Opener where
  | key (file passwordFile : String) (verifiers : List String)
  | password (file : String)

/-- What those files hold. -/
inductive Access where
  | key (key : PrivateKey) (verifiers : List PublicKey)
  | password (phrase : Bytes)

namespace Opener

def keyFile : Opener → Option String
  | .key file _ _ => some file
  | .password _ => none

def keyPasswordFile : Opener → Option String
  | .key _ passwordFile _ => some passwordFile
  | .password _ => none

def passwordFile : Opener → Option String
  | .key _ _ _ => none
  | .password file => some file

def verifiers : Opener → List String
  | .key _ _ verifiers => verifiers
  | .password _ => []

def command (input output : String) (o : Opener) : Command :=
  .decrypt input output o.keyFile o.keyPasswordFile o.passwordFile o.verifiers

/-- What is had besides the verifiers, which have been read before. -/
def accessWith (verifiers : List PublicKey) (made : FileTree) :
    Opener → Except CommandFailure Access
  | .key file passwordFile _ => return .key (← made.privateKey file passwordFile) verifiers
  | .password file => return .password (← made.password file)

/-- What is had from the files before and after the output is made. -/
def access (before made : FileTree) (o : Opener) : Except CommandFailure Access := do
  o.accessWith (← o.verifiers.mapM before.publicKey) made

end Opener

/-- What comes of work that may write: the result, and the bytes that are written. -/
def delivered : Except Failure (Emission Nat) → Except Failure Nat × Bytes
  | .ok emission => (emission.ending, emission.bytes)
  | .error failure => (.error failure, [])

theorem delivered_eq_ok {x : Except Failure (Emission Nat)} {n : Nat} {bytes : Bytes} :
    delivered x = (.ok n, bytes) ↔
      ∃ emission, x = .ok emission ∧ emission.collect = .ok (bytes, n) := by
  cases x with
  | error failure => simp [delivered]
  | ok emission => simp [delivered, Emission.collect_eq_ok]

theorem settle_unlimited (work : Random (Emission Nat)) (entropy : Entropy) :
    ∃ sink, settle work .unlimited entropy =
        (((delivered (work entropy).1).1, sink), (work entropy).2) ∧
      sink.taken = (delivered (work entropy).1).2 := by
  rw [settle]
  rcases work entropy with ⟨failure | emission, next⟩
  · exact ⟨.unlimited, rfl, rfl⟩
  · obtain ⟨sink, hdeliver, htaken⟩ := Sink.unlimited_reliable.deliver emission
    dsimp only
    rw [hdeliver]
    exact ⟨sink, rfl, htaken⟩

/-- All that is written is collected, and besides only randomness is used. -/
theorem Task.collect_reportStream (t : Toolkit) (operation : Operation) (keyId : Option KeyId)
    (x : Random (Emission Nat)) (w : Workplace) :
    ∃ events, collect (t.reportStream operation keyId (Toolkit.draw x)) w =
      (delivered (x w.surroundings.entropy).1,
        ⟨w.files, (x w.surroundings.entropy).2, events⟩) := by
  obtain ⟨sink, hsettle, htaken⟩ := settle_unlimited x w.surroundings.entropy
  obtain ⟨events, hrecord⟩ := t.exists_record operation keyId
    (delivered (x w.surroundings.entropy).1).1
    { w.surroundings with entropy := (x w.surroundings.entropy).2 }
  refine ⟨events, ?_⟩
  rw [collect, Toolkit.reportStream_eq, hsettle]
  dsimp only
  rw [hrecord, ← Sink.taken, htaken]

namespace Access

def stream (t : Toolkit) (source : Source) : Access → StreamAction
  | .key privateKey verifiers =>
      if verifiers.isEmpty then t.decryptStream privateKey source
      else t.decryptThenVerifyStream privateKey verifiers source
  | .password phrase => t.decryptStreamWithPassword phrase source

/-- What is written of an envelope that a source holds. -/
def emission (c : EnvelopeCipher) (source : Source) : Access → Except Failure (Emission Nat)
  | .key privateKey verifiers =>
      if verifiers.isEmpty then do
        let key ← privateKey.resolve .decryptStream
        return c.decryptStream key source
      else do
        let key ← privateKey.resolve .decryptThenVerifyStream
        let verifiers ← verifiers.mapM (·.resolve .decryptThenVerifyStream)
        return c.decryptThenVerifyStream key verifiers source
  | .password phrase => .ok (EnvelopeCipher.decryptStreamWithPassword phrase source)

theorem exists_collect_stream (t : Toolkit) (source : Source) (access : Access) (w : Workplace) :
    ∃ events, Task.collect (access.stream t source) w =
      (delivered (access.emission t.envelope source), w.recording events) := by
  cases access with
  | key privateKey verifiers =>
      rw [stream, emission]
      split
      · exact Task.collect_reportStream t _ _ (Random.lift _) w
      · exact Task.collect_reportStream t _ _ (Random.lift _) w
  | password phrase => exact Task.collect_reportStream t _ _ (Random.lift (.ok _)) w

end Access

namespace FileTree

/-- What the files give to open something with: a key or a password, and not both. -/
def access (made : FileTree) (key keyPasswordFile passwordFile : Option String)
    (verifiers : List PublicKey) : Except CommandFailure Access :=
  match key, keyPasswordFile, passwordFile with
  | some key, some keyPassword, none =>
      return .key (← made.privateKey key keyPassword) verifiers
  | none, none, some passwordFile => return .password (← made.password passwordFile)
  | _, _, _ => .error (.usage .noAccess)

/-- What is read before the output is made: the verifiers, and where the input is. -/
def toDecrypt (before : FileTree) (input : String) (verifiers : List String) :
    Except CommandFailure (List PublicKey × Place) := do
  let verifiers ← verifiers.mapM before.publicKey
  let opened ← (before.find input).mapError (.file input)
  return (verifiers, opened)

/-- The text that is got, by what the files are once the output has been made. -/
def decryption (c : EnvelopeCipher) (made : FileTree)
    (key keyPasswordFile passwordFile : Option String) (verifiers : List PublicKey)
    (opened : Place) : Except CommandFailure Bytes := do
  let access ← made.access key keyPasswordFile passwordFile verifiers
  match delivered (access.emission c (made.sourceOf opened)) with
  | (.ok _, text) => return text
  | (.error failure, _) => .error (.crypto failure)

/-- How the decrypt command ends, and what it makes of the files. -/
def decrypted (c : EnvelopeCipher) (t : FileTree) (input output : String)
    (key keyPasswordFile passwordFile : Option String) (verifiers : List String) :
    Except CommandFailure FileTree × FileTree :=
  match t.toDecrypt input verifiers with
  | .error failure => (.error failure, t)
  | .ok (verifiers, opened) =>
      match t.write output [] with
      | .error fault => (.error (.file output fault), t)
      | .ok made =>
          let files := do
            let text ← made.decryption c key keyPasswordFile passwordFile verifiers opened
            (made.write output text).mapError (.file output)
          match files with
          | .error failure => (.error failure, made.remove output)
          | .ok files => (.ok files, files)

section Decrypted

variable {t made : FileTree} {c : EnvelopeCipher} {input output : String}
  {key keyPasswordFile passwordFile : Option String} {verifiers : List String}
  {keys : List PublicKey} {opened : Place} {failure : CommandFailure}

theorem decrypted_of_missing (h : t.toDecrypt input verifiers = .error failure) :
    t.decrypted c input output key keyPasswordFile passwordFile verifiers =
      (.error failure, t) := by
  rw [decrypted, h]

section Gathered

variable (h : t.toDecrypt input verifiers = .ok (keys, opened))

include h

theorem decrypted_of_unwritable {fault : FileFault} (hmade : t.write output [] = .error fault) :
    t.decrypted c input output key keyPasswordFile passwordFile verifiers =
      (.error (.file output fault), t) := by
  rw [decrypted, h]
  dsimp only
  rw [hmade]

/-- The output that has been made is removed. -/
theorem decrypted_of_failure (hmade : t.write output [] = .ok made)
    (hfailed : made.decryption c key keyPasswordFile passwordFile keys opened = .error failure) :
    t.decrypted c input output key keyPasswordFile passwordFile verifiers =
      (.error failure, t.remove output) := by
  rw [decrypted, h]
  dsimp only
  rw [hmade]
  dsimp only
  rw [hfailed, ← remove_of_write hmade]
  rfl

/-- What can be made once can be written again. -/
theorem decrypted_of_text {text : Bytes} (hmade : t.write output [] = .ok made)
    (htext : made.decryption c key keyPasswordFile passwordFile keys opened = .ok text) :
    ∃ files, t.write output text = .ok files ∧
      t.decrypted c input output key keyPasswordFile passwordFile verifiers =
        (.ok files, files) := by
  obtain ⟨files, hfiles⟩ := exists_write_of_write hmade text
  refine ⟨files, hfiles, ?_⟩
  rw [decrypted, h]
  dsimp only
  rw [hmade]
  dsimp only
  rw [htext, ok_bind, write_of_write hmade, hfiles]
  rfl

end Gathered

/-- Whatever goes wrong, the files are as they were, or the output is removed. -/
theorem decrypted_cases :
    (∃ failure, t.decrypted c input output key keyPasswordFile passwordFile verifiers =
        (.error failure, t)) ∨
      (∃ failure, t.decrypted c input output key keyPasswordFile passwordFile verifiers =
        (.error failure, t.remove output)) ∨
      ∃ keys opened made text files, t.toDecrypt input verifiers = .ok (keys, opened) ∧
        t.write output [] = .ok made ∧
        made.decryption c key keyPasswordFile passwordFile keys opened = .ok text ∧
        t.write output text = .ok files ∧
        t.decrypted c input output key keyPasswordFile passwordFile verifiers =
          (.ok files, files) := by
  rcases hgather : t.toDecrypt input verifiers with failure | ⟨keys, opened⟩
  · exact Or.inl ⟨failure, decrypted_of_missing hgather⟩
  rcases hmade : t.write output [] with fault | made
  · exact Or.inl ⟨_, decrypted_of_unwritable hgather hmade⟩
  rcases htext : made.decryption c key keyPasswordFile passwordFile keys opened with failure | text
  · exact Or.inr (Or.inl ⟨failure, decrypted_of_failure hgather hmade htext⟩)
  · obtain ⟨files, hfiles, hdecrypted⟩ := decrypted_of_text hgather hmade htext
    exact Or.inr (Or.inr ⟨keys, opened, made, text, files, rfl, rfl, htext, hfiles, hdecrypted⟩)

/-- A text that has been got is all that a decryption has put out that has ended well. -/
theorem decryption_eq_ok {text : Bytes}
    (h : made.decryption c key keyPasswordFile passwordFile keys opened = .ok text) :
    ∃ access n, made.access key keyPasswordFile passwordFile keys = .ok access ∧
      delivered (access.emission c (made.sourceOf opened)) = (.ok n, text) := by
  obtain ⟨access, haccess, h⟩ := bind_eq_ok.mp h
  rcases hdelivered : delivered (access.emission c (made.sourceOf opened)) with
    ⟨failure | n, bytes⟩
  · rw [hdelivered] at h
    cases h
  · rw [hdelivered] at h
    cases h
    exact ⟨access, n, haccess, hdelivered⟩

end Decrypted

end FileTree

theorem Opener.accessWith_eq (o : Opener) (verifiers : List PublicKey) (made : FileTree) :
    o.accessWith verifiers made =
      made.access o.keyFile o.keyPasswordFile o.passwordFile verifiers := by
  cases o <;> rfl

namespace Task

theorem writeFile_of_ok {w : Workplace} {path : String} {content : Bytes} {files : FileTree}
    (h : w.files.write path content = .ok files) :
    writeFile path content w = (.ok (), { w with files }) := by
  rw [writeFile, h]

theorem writeFile_of_error {w : Workplace} {path : String} {content : Bytes} {fault : FileFault}
    (h : w.files.write path content = .error fault) :
    writeFile path content w = (.error (.file path fault), w) := by
  rw [writeFile, h]

theorem writeFile_eq_ok {w next : Workplace} {path : String} {content : Bytes} :
    writeFile path content w = (.ok (), next) ↔
      ∃ files, w.files.write path content = .ok files ∧ next = { w with files } := by
  constructor
  · intro h
    cases hwrite : w.files.write path content with
    | error fault =>
        rw [writeFile_of_error hwrite] at h
        cases h
    | ok files =>
        rw [writeFile_of_ok hwrite] at h
        cases h
        exact ⟨files, rfl, rfl⟩
  · rintro ⟨files, hwrite, rfl⟩
    exact writeFile_of_ok hwrite

theorem writeFile_of_target {w : Workplace} {path : String} {location : Location}
    (h : w.files.target path = .ok (.file location)) (content : Bytes) :
    writeFile path content w = (.ok (), { w with files := w.files.put location content }) :=
  writeFile_of_ok (FileTree.write_of_target h content)

section Options

variable (t : Toolkit) (input output : String) (key keyPasswordFile passwordFile : Option String)

theorem Reads.access (verifiers : List PublicKey) (opened : Place) :
    Reads (Task.access t key keyPasswordFile passwordFile verifiers opened) fun made => do
      let access ← made.access key keyPasswordFile passwordFile verifiers
      return access.stream t (made.sourceOf opened) := by
  match key, keyPasswordFile, passwordFile with
  | some file, some keyPassword, none =>
      simp only [Task.access, FileTree.access, bind_assoc, pure_bind]
      exact (loadPrivate t file keyPassword).bind fun key =>
        (Reads.sourceOf opened).bind fun source => .pure _
  | none, none, some file =>
      simp only [Task.access, FileTree.access, bind_assoc, pure_bind]
      exact (readPassword file).bind fun key => (Reads.sourceOf opened).bind fun source => .pure _
  -- every other choice of options is of no use
  | none, none, none | none, some _, none | none, some _, some _ | some _, none, none
  | some _, none, some _ | some _, some _, some _ => exact fun w => ⟨w.surroundings.events, rfl⟩

/-- What happens once the output has been made is settled by the files as they are then. -/
theorem exists_decryption (verifiers : List PublicKey) (opened : Place) (made : Workplace) :
    ∃ events, (do
      let action ← Task.access t key keyPasswordFile passwordFile verifiers opened
      let (result, bytes) ← liftM (collect action)
      match result with
      | .ok _ => writeFile output bytes
      | .error failure => throw (.crypto failure) : Task Unit) made =
        match (made.files.decryption t.envelope key keyPasswordFile passwordFile verifiers opened
          >>= fun text => (made.files.write output text).mapError (.file output)) with
        | .error failure => (.error failure, made.recording events)
        | .ok files => (.ok (), { made.recording events with files }) := by
  have hreads := Reads.access t key keyPasswordFile passwordFile verifiers opened
  rw [FileTree.decryption]
  rcases haccess : made.files.access key keyPasswordFile passwordFile verifiers with
    failure | access
  · obtain ⟨events, hfail⟩ := hreads.exists_error (w := made) (by rw [haccess]; rfl)
    exact ⟨events, Stateful.bind_of_error hfail _⟩
  · obtain ⟨first, hstream⟩ := hreads.exists_ok (w := made) (by rw [haccess]; rfl)
    obtain ⟨second, hcollect⟩ := access.exists_collect_stream t (made.files.sourceOf opened)
      (made.recording first)
    refine ⟨second, ?_⟩
    rw [Stateful.bind_of_ok hstream, Stateful.bind_apply, Stateful.liftM_apply, hcollect, ok_bind]
    rcases delivered (access.emission t.envelope (made.files.sourceOf opened)) with
      ⟨failure | n, text⟩
    · rfl
    · change writeFile output text (made.recording second) =
        match (made.files.write output text).mapError (CommandFailure.file output) with
        | .error failure => _
        | .ok files => _
      rcases hwrite : made.files.write output text with fault | files
      · exact writeFile_of_error (w := made.recording second) hwrite
      · exact writeFile_of_ok (w := made.recording second) hwrite

/-- The decrypt command draws nothing, and the files alone settle what becomes of them. -/
theorem exists_decrypt_eq (verifiers : List String) (w : Workplace) : ∃ events,
    decrypt t input output key keyPasswordFile passwordFile verifiers w =
      ((w.files.decrypted t.envelope input output key keyPasswordFile passwordFile
          verifiers).1.map fun _ => "",
        { w.recording events with files := (w.files.decrypted t.envelope input output key
          keyPasswordFile passwordFile verifiers).2 }) := by
  have hgather : Reads (do
      let verifiers ← verifiers.mapM (loadPublic t)
      let opened ← openFile input
      pure (verifiers, opened)) fun before => before.toDecrypt input verifiers :=
    (Reads.list (Reads.loadPublic t) verifiers).bind fun _ =>
      (Reads.openFile input).bind fun _ => .pure _
  have hsplit : decrypt t input output key keyPasswordFile passwordFile verifiers = (do
      let (verifiers, opened) ← (do
        let verifiers ← verifiers.mapM (loadPublic t)
        let opened ← openFile input
        pure (verifiers, opened) : Task (List PublicKey × Place))
      createFile output
      try
        let action ← Task.access t key keyPasswordFile passwordFile verifiers opened
        let (result, bytes) ← collect action
        match result with
        | .ok _ => writeFile output bytes
        | .error failure => throw (.crypto failure)
      catch failure =>
        removeFile output
        throw failure
      return "") := by
    symm
    refine (bind_assoc _ _ _).trans (bind_congr fun verifiers => ?_)
    refine (bind_assoc _ _ _).trans (bind_congr fun opened => ?_)
    exact pure_bind _ _
  rw [hsplit, FileTree.decrypted]
  rcases hresult : w.files.toDecrypt input verifiers with failure | ⟨keys, opened⟩
  · obtain ⟨events, hfail⟩ := hgather.exists_error hresult
    exact ⟨events, Stateful.bind_of_error hfail _⟩
  obtain ⟨first, hgathered⟩ := hgather.exists_ok hresult
  rw [Stateful.bind_of_ok hgathered]
  dsimp only
  rcases hcreate : w.files.write output [] with fault | made
  · exact ⟨first, Stateful.bind_of_error (writeFile_of_error (w := w.recording first) hcreate) _⟩
  obtain ⟨second, hbody⟩ := exists_decryption t output key keyPasswordFile passwordFile keys opened
    { w.recording first with files := made }
  refine ⟨second, ?_⟩
  rw [createFile, Stateful.bind_of_ok (writeFile_of_ok (w := w.recording first) hcreate),
    Stateful.bind_apply]
  dsimp only at hbody ⊢
  rcases hfiles : made.decryption t.envelope key keyPasswordFile passwordFile keys opened >>=
    fun text => (made.write output text).mapError (.file output) with failure | files
  · rw [hfiles] at hbody
    rw [Stateful.tryCatch_of_error hbody]
    rfl
  · rw [hfiles] at hbody
    rw [Stateful.tryCatch_of_ok hbody]
    rfl

end Options

/-- Decryption that succeeds puts the text into the output. -/
theorem decrypt_of_delivers {t : Toolkit} {o : Opener} {access : Access} {w : Workplace}
    {input output : String} {location : Location} {envelope text : Bytes} {emission : Emission Nat}
    {n : Nat} (hne : envelope ≠ []) (houtput : w.files.target output = .ok (.file location))
    (hinput : (w.files.put location []).read input = .ok envelope)
    (haccess : o.access w.files (w.files.put location []) = .ok access)
    (hemission : access.emission t.envelope (.ofBytes envelope) = .ok emission)
    (hdelivers : emission.Delivers (.ok n) text) :
    ∃ last, (o.command input output).run t w = (.ok "", last) ∧
      last.files = w.files.put location text := by
  obtain ⟨place, hfind, hfolder, hplace, hcontent⟩ := FileTree.find_of_read_put hinput hne
  obtain ⟨verifiers, hverifiers, haccess⟩ := bind_eq_ok.mp haccess
  obtain ⟨hending, hbytes⟩ := Emission.delivers_iff.mp hdelivers
  have hwrite : w.files.write output [] = .ok (w.files.put location []) :=
    FileTree.write_of_target houtput []
  have hgather : w.files.toDecrypt input o.verifiers = .ok (verifiers, place) := by
    rw [FileTree.toDecrypt, hverifiers, ok_bind, hfind]
    rfl
  have hsource : (w.files.put location []).sourceOf place = .ofBytes envelope := by
    rw [FileTree.sourceOf_of_ne_folder _ hfolder, FileTree.contentOf_put_of_ne hplace, hcontent]
  have htext : (w.files.put location []).decryption t.envelope o.keyFile o.keyPasswordFile
      o.passwordFile verifiers place = .ok text := by
    rw [FileTree.decryption, ← Opener.accessWith_eq, haccess, ok_bind, hsource, hemission,
      delivered, hending, hbytes]
    rfl
  obtain ⟨files, hfiles, hdecrypted⟩ := FileTree.decrypted_of_text hgather hwrite htext
  rw [FileTree.write_of_target houtput] at hfiles
  cases hfiles
  obtain ⟨events, hrun⟩ := exists_decrypt_eq t input output o.keyFile o.keyPasswordFile
    o.passwordFile o.verifiers w
  rw [hdecrypted] at hrun
  exact ⟨_, hrun, rfl⟩

end Task

/-- A public key that has been read from a file can be used. -/
theorem FileTree.fault?_of_publicKey {t : FileTree} {path : String} {key : PublicKey}
    (h : t.publicKey path = .ok key) (operation : Operation) :
    (AnyKey.publicKey key).fault? operation = none := by
  obtain ⟨content, -, h⟩ := bind_eq_ok.mp h
  obtain ⟨decoded, hdecode, rfl⟩ := map_eq_ok.mp (mapError_eq_ok.mp h)
  obtain ⟨bytes, -, hbytes⟩ := bind_eq_ok.mp hdecode
  obtain ⟨point, hpoint, rfl⟩ := map_eq_ok.mp hbytes
  rw [AnyKey.fault?, isEmpty_of_point hpoint]
  rfl

namespace Access

/-- All verifiers can be used. -/
def Usable : Access → Prop
  | .key _ verifiers =>
      ∀ verifier ∈ verifiers, ∀ operation, (AnyKey.publicKey verifier).fault? operation = none
  | .password _ => True

theorem Usable.exists_keys {key : PrivateKey} {verifiers : List PublicKey}
    (h : (Access.key key verifiers).Usable) (operation : Operation) :
    ∃ keys, verifiers.mapM (·.resolve operation) = .ok keys ∧ keys.map .ed25519 = verifiers := by
  apply (Checks.publicKeys verifiers).exists_ok
  rw [List.forall_mem_map]
  exact fun verifier hmem => h verifier hmem operation

theorem usable_of_access {o : Opener} {before made : FileTree} {access : Access}
    (h : o.access before made = .ok access) : access.Usable := by
  obtain ⟨verifiers, hverifiers, haccess⟩ := bind_eq_ok.mp h
  cases o with
  | password file =>
      obtain ⟨phrase, -, haccess⟩ := bind_eq_ok.mp haccess
      cases haccess
      trivial
  | key file passwordFile paths =>
      obtain ⟨key, -, haccess⟩ := bind_eq_ok.mp haccess
      cases haccess
      intro verifier hmem
      obtain ⟨path, -, hpath⟩ := (mem_iff_of_mapM hverifiers).mp hmem
      exact FileTree.fault?_of_publicKey hpath

/-- The decrypt command under these settings gets the text out of a file with this content,
wherever it is run, if this is what it is given to open the file with. Everything but the
verifiers is read when the output has been made, and so emptied. -/
def Recovers (settings : Settings) (envelope text : Bytes) (access : Access) : Prop :=
  ∀ (o : Opener) (w : Workplace) (input output : String) (location : Location),
    w.files.target output = .ok (.file location) →
    (w.files.put location []).read input = .ok envelope →
    o.access w.files (w.files.put location []) = .ok access →
    ∃ last, (o.command input output).runWith settings w = (.ok "", last) ∧
      last.files.read output = .ok text

theorem recovers_of_delivers {settings : Settings} {t : Toolkit} {envelope text : Bytes}
    {access : Access} (ht : Toolkit.ofSettings settings = .ok t) (hne : envelope ≠ [])
    (h : access.Usable → ∃ emission n, access.emission t.envelope (.ofBytes envelope) =
      .ok emission ∧ emission.Delivers (.ok n) text) :
    access.Recovers settings envelope text := by
  intro o w input output location houtput hinput haccess
  obtain ⟨emission, n, hemission, hdelivers⟩ := h (usable_of_access haccess)
  obtain ⟨last, hrun, hfiles⟩ :=
    Task.decrypt_of_delivers hne houtput hinput haccess hemission hdelivers
  refine ⟨last, ?_, ?_⟩
  · rw [Command.runWith, ht]
    exact hrun
  · rw [hfiles]
    exact FileTree.read_put_of_target houtput text

section Made

variable {c c' : EnvelopeCipher} {recipients : List Recipient} {request : Encryption}
  {entropy last : Entropy} {envelope : Bytes} {n : Nat}

/-- Whoever knows the only password gets the text. -/
theorem delivers_password {phrase : Bytes}
    (hrun : request.run c recipients entropy = (.ok (envelope, n), last))
    (hlow : RecipientEntry.costsTooHigh c.passwordCosts = false)
    (hmem : .password phrase ∈ recipients)
    (honly : ∀ other, .password other ∈ recipients → other = phrase) :
    ∃ emission n, (Access.password phrase).emission c' (.ofBytes envelope) = .ok emission ∧
      emission.Delivers (.ok n) request.text := by
  obtain ⟨p, hproduce, hfits, rfl, -⟩ := Encryption.exists_production hrun
  obtain ⟨-, htext, hmade⟩ := Encryption.recipients_of_produce hproduce
  have hunwrap : ∀ operation,
      (Credential.password phrase).unwrap c' operation p.header = .ok p.contentKey :=
    fun operation => RecipientEntry.tryPassword_eq_ok hlow hmade hmem
      (fun other hother hne => absurd (honly other hother) hne) _
  obtain ⟨-, hstream⟩ := Credential.opens_production (Encryption.valid_of_produce hproduce) hfits
    (.password phrase) hunwrap
  rw [← htext]
  exact ⟨_, _, rfl, hstream _ (Source.bytes_ofBytes _) rfl⟩

/-- Whoever holds a listed key gets the text, also if it is to be signed by someone who has signed
it. -/
theorem delivers_key {key : Ed25519PrivateKey} {publicKey : Ed25519PublicKey}
    {verifiers : List PublicKey}
    (hrun : request.run c recipients entropy = (.ok (envelope, n), last))
    (hkey : key.publicKey = .ok publicKey) (hmem : .key publicKey ∈ recipients)
    (hunique : ∀ other, .key other ∈ recipients →
      other.identifier c.fingerprint = publicKey.identifier c.fingerprint → other = publicKey)
    (hcommutes : ∀ position, Commutes key (entropy.window position 32))
    (hfingerprint : c'.fingerprint = c.fingerprint)
    (husable : (Access.key (.ed25519 key) verifiers).Usable)
    (hsigned : verifiers = [] ∨ ∃ source signer verifier,
      request = .signThenEncryptStream source signer ∧ signer.publicKey = .ok verifier ∧
        .ed25519 verifier ∈ verifiers ∧ SelfVerifies signer (Sha512.digest request.text).toBytes) :
    ∃ emission n, (Access.key (.ed25519 key) verifiers).emission c' (.ofBytes envelope) =
        .ok emission ∧ emission.Delivers (.ok n) request.text := by
  obtain ⟨-, header, offset, contentKey, signature, hlayout, hsignature, hreveals⟩ :=
    Encryption.exists_reveals hrun hkey hmem hunique hcommutes hfingerprint
  have hbytes : (Source.ofBytes envelope).bytes = envelope := Source.bytes_ofBytes envelope
  have hresolve (operation : Operation) :
      (PrivateKey.ed25519 key).resolve operation = .ok key :=
    PrivateKey.resolve_eq_ok.mpr ⟨isEmpty_of_publicKey hkey, rfl⟩
  rw [emission]
  by_cases hnone : verifiers.isEmpty = true
  · rw [if_pos hnone, hresolve]
    rw [← hbytes] at hreveals
    exact ⟨_, _, rfl, hreveals.delivers_decryptStream rfl⟩
  · obtain rfl | ⟨source, signer, verifier, rfl, hsigner, hverifier, hverifies⟩ := hsigned
    · exact absurd rfl hnone
    obtain ⟨keys, hkeys, hsame⟩ := husable.exists_keys .decryptThenVerifyStream
    obtain ⟨s, hsign, rfl⟩ := map_eq_ok.mp hsignature
    obtain ⟨size, -, hsize⟩ := map_eq_ok.mp hlayout
    have hvalid := Signature.verify_of_sign hsigner hverifies hsign
    have hlisted : verifier ∈ keys := by
      rw [← hsame, List.mem_map] at hverifier
      obtain ⟨other, hother, hinj⟩ := hverifier
      cases hinj
      exact hother
    have hbehind : c'.SignedBehind envelope key keys source.bytes :=
      hreveals.signedBehind hsize.symm ⟨verifier, hlisted, hvalid⟩
    have hdecrypt : c'.decrypt envelope key = .ok source.bytes :=
      EnvelopeCipher.decrypt_eq_ok.mpr ⟨_, _, _, _, hreveals⟩
    rw [if_neg hnone, hresolve, ok_bind, hkeys, ok_bind]
    refine ⟨_, _, rfl, (EnvelopeCipher.delivers_decryptThenVerifyStream rfl).mpr ⟨rfl, ?_⟩⟩
    rw [hbytes]
    exact ⟨hdecrypt, hbehind⟩

end Made

end Access

end SealedEnvelope
