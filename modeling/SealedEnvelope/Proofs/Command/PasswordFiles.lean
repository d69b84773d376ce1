import SealedEnvelope.Proofs.Command.RoundTrip

/-!
Password files. Line ends at the end of a file are not part of the password, so one file is as good
as another that has other line ends there, whatever the command; but the decrypt command makes its
output before it reads the password, and whoever writes over the file with the password loses it.
-/

namespace SealedEnvelope

/-- The same, but for line ends at the end. -/
def SameButLineEnds (x y : Bytes) : Prop :=
  ∃ front ends ends', x = front ++ ends ∧ y = front ++ ends' ∧
    ∀ byte ∈ ends ++ ends', byte = 10 ∨ byte = 13

namespace FileTree

variable {t : FileTree} {file other : String} {location : Location}

theorem password_of_read {front ends : Bytes} (hread : t.read file = .ok (front ++ ends))
    (hends : ∀ byte ∈ ends, byte = 10 ∨ byte = 13) :
    t.password file =
      .ok (front.reverse.dropWhile fun byte => byte = 10 ∨ byte = 13).reverse := by
  have hdropped : ∀ byte ∈ ends.reverse, decide (byte = 10 ∨ byte = 13) = true := by
    simpa using hends
  rw [password, hread, ← List.dropWhile_append_of_pos hdropped, ← List.reverse_append]
  rfl

/-- Two files that hold the same password, with other line ends behind it perhaps. -/
def Interchangeable (t : FileTree) (file other : String) : Prop :=
  ∃ content content', t.read file = .ok content ∧ t.read other = .ok content' ∧
    SameButLineEnds content content'

/-- One line end more makes no difference. -/
theorem interchangeable_of_lineEnd {content : Bytes} (hread : t.read file = .ok (content ++ [10]))
    (hread' : t.read other = .ok content) : t.Interchangeable file other :=
  ⟨_, _, hread, hread', content, [10], [], rfl, (List.append_nil content).symm,
    List.forall_mem_singleton.mpr (.inl rfl)⟩

theorem Interchangeable.password_eq (h : t.Interchangeable file other) :
    t.password other = t.password file := by
  obtain ⟨_, _, hread, hread', front, ends, ends', rfl, rfl, hends⟩ := h
  rw [List.forall_mem_append] at hends
  rw [password_of_read hread hends.1, password_of_read hread' hends.2]

/-- Two such files are still so when a file is emptied, unless it is one of the two. -/
theorem Interchangeable.put (h : t.Interchangeable file other)
    (hfile : t.find file = .ok (.file location) ↔ t.find other = .ok (.file location)) :
    (t.put location []).Interchangeable file other := by
  obtain ⟨content, content', hread, hread', hsame⟩ := h
  refine ⟨_, _, read_put_of_read hread, read_put_of_read hread', ?_⟩
  by_cases hemptied : t.find file = .ok (.file location)
  · rw [if_pos hemptied, if_pos (hfile.mp hemptied)]
    exact ⟨[], [], [], rfl, rfl, List.forall_mem_nil _⟩
  · rw [if_neg hemptied, if_neg (fun hother => hemptied (hfile.mpr hother))]
    exact hsame

end FileTree

namespace Command

/-- What a password is for: a private key at rest, or an envelope. -/
inductive PasswordUse where
  | key
  | envelope

/-- The password files that a command is given. -/
def passwordFiles : PasswordUse → Command → List String
  | .key, .keygen _ file | .key, .sign _ _ _ file => [file]
  | .key, .encrypt _ _ _ _ signer => signer.toList.map Prod.snd
  | .key, .decrypt _ _ _ keyFile _ _ => keyFile.toList
  | .envelope, .encrypt _ _ _ file _ | .envelope, .decrypt _ _ _ _ file _ => file.toList
  | .envelope, .keygen _ _ | .envelope, .sign _ _ _ _ | _, .verify _ _ _ | _, .fingerprint _ => []

/-- The command with other password files. -/
def mapPasswordFiles (f : PasswordUse → String → String) : Command → Command
  | .keygen out file => .keygen out (f .key file)
  | .encrypt input output recipients file signer =>
      .encrypt input output recipients (file.map (f .envelope))
        (signer.map fun (key, file) => (key, f .key file))
  | .decrypt input output key keyFile file verifiers =>
      .decrypt input output key (keyFile.map (f .key)) (file.map (f .envelope)) verifiers
  | .sign input output key file => .sign input output key (f .key file)
  | .verify input signature publicKey => .verify input signature publicKey
  | .fingerprint publicKey => .fingerprint publicKey

/-- The output that a command empties before it reads its passwords. -/
def emptiedFirst? : Command → Option String
  | .decrypt _ output _ _ _ _ => some output
  | .keygen _ _ | .encrypt _ _ _ _ _ | .sign _ _ _ _ | .verify _ _ _ | .fingerprint _ => none

/-- The password files of a command can be exchanged: each for one with the same password, and none
that the command empties for one that it does not empty, or the other way round. -/
structure Exchangeable (command : Command) (f : PasswordUse → String → String)
    (t : FileTree) : Prop where
  interchangeable : ∀ use, ∀ file ∈ command.passwordFiles use, t.Interchangeable file (f use file)
  emptied_iff : ∀ output location, command.emptiedFirst? = some output →
    t.target output = .ok (.file location) → ∀ use, ∀ file ∈ command.passwordFiles use,
      (t.find file = .ok (.file location) ↔ t.find (f use file) = .ok (.file location))

/-- When the output has been emptied, the passwords are still the same. -/
theorem Exchangeable.interchangeable_of_write {command : Command}
    {f : PasswordUse → String → String} {t made : FileTree} {output : String}
    (h : command.Exchangeable f t) (houtput : command.emptiedFirst? = some output)
    (hmade : t.write output [] = .ok made) :
    ∀ use, ∀ file ∈ command.passwordFiles use, made.Interchangeable file (f use file) := by
  intro use file hfile
  have hsame := h.interchangeable use file hfile
  obtain ⟨location, htarget, rfl⟩ | ⟨-, rfl⟩ := FileTree.write_eq_ok.mp hmade
  · exact hsame.put (h.emptied_iff output location houtput htarget use file hfile)
  · exact hsame

end Command

namespace Stateful

variable {ε σ α β : Type} {s : σ}

theorem bind_congr_left {m m' : ExceptT ε (StateM σ) α} (h : m s = m' s)
    (f : α → ExceptT ε (StateM σ) β) : (m >>= f) s = (m' >>= f) s := by
  rw [bind_apply, bind_apply, h]

theorem tryCatch_congr {m m' : ExceptT ε (StateM σ) α} (h : m s = m' s)
    (handle : ε → ExceptT ε (StateM σ) α) : tryCatch m handle s = tryCatch m' handle s := by
  rcases hm : m s with ⟨failure | a, next⟩
  · rw [tryCatch_of_error hm, tryCatch_of_error (h.symm.trans hm)]
  · rw [tryCatch_of_ok hm, tryCatch_of_ok (h.symm.trans hm)]

end Stateful

namespace Task

variable {α β : Type} {w : Workplace} {file other : String}

/-- What follows a part that only reads starts with the same files. -/
theorem Reads.bind_congr {task : Task α} {result : FileTree → Except CommandFailure α}
    (h : Reads task result) {next next' : α → Task β}
    (hnext : ∀ a events, next a (w.recording events) = next' a (w.recording events)) :
    (task >>= next) w = (task >>= next') w := by
  obtain ⟨events, htask⟩ := h w
  cases hresult : result w.files with
  | error failure =>
      rw [hresult] at htask
      rw [Stateful.bind_of_error htask, Stateful.bind_of_error htask]
  | ok a =>
      rw [hresult] at htask
      rw [Stateful.bind_of_ok htask, Stateful.bind_of_ok htask, hnext]

theorem readPassword_apply (file : String) (w : Workplace) :
    readPassword file w = (w.files.password file, w) := by
  rw [readPassword, Stateful.bind_apply, readFile, FileTree.password]
  cases w.files.read file <;> rfl

theorem readPassword_congr (h : w.files.Interchangeable file other) :
    readPassword other w = readPassword file w := by
  rw [readPassword_apply, readPassword_apply, h.password_eq]

theorem loadPrivate_congr (t : Toolkit) (path : String)
    (h : w.files.Interchangeable file other) :
    loadPrivate t path other w = loadPrivate t path file w :=
  Stateful.bind_congr_left (readPassword_congr h) _

variable (t : Toolkit) {f : Command.PasswordUse → String → String}

theorem encrypt_mapPasswordFiles {input output : String} {recipients : List String}
    {passwordFile : Option String} {signer : Option (String × String)}
    (h : ∀ use, ∀ file ∈ (Command.encrypt input output recipients passwordFile
      signer).passwordFiles use, w.files.Interchangeable file (f use file)) :
    encrypt t input output recipients (passwordFile.map (f .envelope))
        (signer.map fun (key, file) => (key, f .key file)) w =
      encrypt t input output recipients passwordFile signer w := by
  have hpassword (events : List Event) :
      (passwordFile.map (f .envelope)).mapM readPassword (w.recording events) =
        passwordFile.mapM readPassword (w.recording events) := by
    cases passwordFile with
    | none => rfl
    | some file =>
        have hfile : (w.recording events).files.Interchangeable file (f .envelope file) :=
          h .envelope file (List.mem_singleton_self file)
        exact Stateful.bind_congr_left (readPassword_congr hfile) fun phrase => pure (some phrase)
  let load (files : String × String) : Task PrivateKey := loadPrivate t files.1 files.2
  have hsigner (events : List Event) :
      (signer.map fun (key, file) => (key, f .key file)).mapM load (w.recording events) =
        signer.mapM load (w.recording events) := by
    cases signer with
    | none => rfl
    | some files =>
        have hfile : (w.recording events).files.Interchangeable files.2 (f .key files.2) :=
          h .key files.2 (List.mem_singleton_self files.2)
        exact Stateful.bind_congr_left (loadPrivate_congr t files.1 hfile) fun key =>
          pure (some key)
  refine (Reads.list (Reads.loadPublic t) recipients).bind_congr fun keys first => ?_
  refine (Stateful.bind_congr_left (hpassword first) _).trans ?_
  refine (Reads.option Reads.readPassword passwordFile).bind_congr fun phrase second => ?_
  exact Stateful.bind_congr_left (hsigner second) _

theorem access_mapPasswordFiles {input output : String} {key keyFile file : Option String}
    {paths : List String} {verifiers : List PublicKey} {opened : Place}
    (h : ∀ use, ∀ other ∈ (Command.decrypt input output key keyFile file paths).passwordFiles use,
      w.files.Interchangeable other (f use other)) :
    access t key (keyFile.map (f .key)) (file.map (f .envelope)) verifiers opened w =
      access t key keyFile file verifiers opened w := by
  match key, keyFile, file with
  | some key, some keyFile, none =>
      have hfile := h .key keyFile (List.mem_singleton_self keyFile)
      exact Stateful.bind_congr_left (loadPrivate_congr t key hfile) _
  | none, none, some file =>
      have hfile := h .envelope file (List.mem_singleton_self file)
      exact Stateful.bind_congr_left (readPassword_congr hfile) _
  -- every other choice of options is of no use, whatever the files hold
  | none, none, none | none, some _, none | none, some _, some _ | some _, none, none
  | some _, none, some _ | some _, some _, some _ => rfl

theorem decrypt_mapPasswordFiles {input output : String}
    {key keyFile file : Option String} {verifiers : List String}
    (h : (Command.decrypt input output key keyFile file verifiers).Exchangeable f w.files) :
    decrypt t input output key (keyFile.map (f .key)) (file.map (f .envelope)) verifiers w =
      decrypt t input output key keyFile file verifiers w := by
  refine (Reads.list (Reads.loadPublic t) verifiers).bind_congr fun keys first => ?_
  refine (Reads.openFile input).bind_congr fun opened second => ?_
  rw [Stateful.bind_apply, Stateful.bind_apply]
  rcases hcreate : createFile output ((w.recording first).recording second) with
    ⟨failure | ⟨⟩, made⟩
  · rfl
  · obtain ⟨files, hfiles, hmade⟩ := writeFile_eq_ok.mp hcreate
    -- From here on the output is empty, and only now are the passwords read.
    have hpasswords : ∀ use, ∀ other ∈ (Command.decrypt input output key keyFile file
        verifiers).passwordFiles use, made.files.Interchangeable other (f use other) := by
      rw [hmade]
      exact h.interchangeable_of_write rfl hfiles
    apply Stateful.bind_congr_left
    apply Stateful.tryCatch_congr
    exact Stateful.bind_congr_left (access_mapPasswordFiles t hpasswords) _

/-- Password files that can be exchanged make no difference to any command. -/
theorem run_mapPasswordFiles {command : Command} (h : command.Exchangeable f w.files) :
    (command.mapPasswordFiles f).run t w = command.run t w := by
  cases command with
  | keygen out file =>
      have hfile := h.interchangeable .key file (List.mem_singleton_self file)
      exact Stateful.bind_congr_left (readPassword_congr hfile) _
  | encrypt input output recipients file signer => exact encrypt_mapPasswordFiles t h.interchangeable
  | decrypt input output key keyFile file verifiers => exact decrypt_mapPasswordFiles t h
  | sign input output key file =>
      have hfile := h.interchangeable .key file (List.mem_singleton_self file)
      exact Stateful.bind_congr_left (loadPrivate_congr t key hfile) _
  | verify input signature publicKey | fingerprint publicKey => rfl

end Task

theorem Command.runWith_mapPasswordFiles {settings : Settings} {command : Command}
    {f : PasswordUse → String → String} {w : Workplace} (h : command.Exchangeable f w.files) :
    (command.mapPasswordFiles f).runWith settings w = command.runWith settings w := by
  rw [runWith, runWith]
  cases Toolkit.ofSettings settings with
  | error failure => rfl
  | ok t => exact Task.run_mapPasswordFiles t h

end SealedEnvelope
