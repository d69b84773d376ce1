import SealedEnvelope.Proofs.Command.Outcome

/-!
Commands that fail while they gather their inputs. What is missing or cannot be imported is
found before any file is touched, except that the decrypt command makes its output before it
looks at the key and the password: then a file that was there is lost.
-/

namespace SealedEnvelope

/-- What a command gathers before it touches a file, and what is wrong with it. -/
def Command.gather (t : FileTree) : Command → Except CommandFailure Unit
  | .keygen _ passwordFile => do
      let _ ← t.password passwordFile
  | .encrypt input _ recipients passwordFile signer => do
      let keys ← recipients.mapM t.publicKey
      let phrase ← passwordFile.mapM t.password
      let _ ← signer.mapM fun files => t.privateKey files.1 files.2
      if (keys.map EnvelopeRecipient.key ++
          phrase.toList.map EnvelopeRecipient.password).isEmpty then
        .error (.usage .noTarget)
      let _ ← (t.find input).mapError (.file input)
  | .decrypt input _ _ _ _ verifiers => do
      let _ ← t.toDecrypt input verifiers
  | .sign input _ key keyPasswordFile => do
      let _ ← t.privateKey key keyPasswordFile
      let _ ← (t.find input).mapError (.file input)
  | .verify input signature publicKey => do
      let _ ← t.publicKey publicKey
      let _ ← (t.read signature).mapError (.file signature)
      let _ ← (t.find input).mapError (.file input)
  | .fingerprint publicKey => do
      let _ ← t.publicKey publicKey

namespace Task

/-- A part of a command that begins with gathering: where that fails, nothing else happens. -/
def Gathers {α : Type} (task : Task α) (gather : FileTree → Except CommandFailure Unit) : Prop :=
  ∀ w failure, gather w.files = .error failure →
    ∃ events, task w = (.error failure, w.recording events)

namespace Gathers

variable {α β : Type}

/-- Nothing more is gathered. -/
theorem done (task : Task α) : Gathers task fun _ => .ok () := nofun

theorem bind {first : Task β} {result : FileTree → Except CommandFailure β} {next : β → Task α}
    {gather : β → FileTree → Except CommandFailure Unit} (h : Reads first result)
    (hnext : ∀ b, Gathers (next b) (gather b)) :
    Gathers (first >>= next) fun t => result t >>= fun b => gather b t := by
  intro w failure hfailed
  dsimp only at hfailed
  rcases hresult : result w.files with failure' | b
  · rw [hresult] at hfailed
    cases hfailed
    obtain ⟨events, hfirst⟩ := h.exists_error hresult
    exact ⟨events, Stateful.bind_of_error hfirst next⟩
  · rw [hresult] at hfailed
    obtain ⟨events, hfirst⟩ := h.exists_ok hresult
    obtain ⟨later, hlater⟩ := hnext b (w.recording events) failure hfailed
    exact ⟨later, (Stateful.bind_of_ok hfirst next).trans hlater⟩

theorem throw {failure : CommandFailure} {next : β → Task α}
    {gather : β → FileTree → Except CommandFailure Unit} :
    Gathers ((throw failure : Task β) >>= next)
      fun t => .error failure >>= fun b => gather b t := by
  intro w failure' hfailed
  cases hfailed
  exact ⟨w.surroundings.events, rfl⟩

theorem ite {p : Prop} [Decidable p] {task other : Task α}
    {gather other' : FileTree → Except CommandFailure Unit} (h : p → Gathers task gather)
    (hother : ¬ p → Gathers other other') :
    Gathers (if p then task else other) fun t => if p then gather t else other' t := by
  by_cases hp : p
  · simpa only [if_pos hp] using h hp
  · simpa only [if_neg hp] using hother hp

end Gathers

variable (t : Toolkit)

theorem gathers_encrypt (input output : String) (recipients : List String)
    (passwordFile : Option String) (signer : Option (String × String)) :
    Gathers (encrypt t input output recipients passwordFile signer)
      (Command.encrypt input output recipients passwordFile signer).gather := by
  have hload (files : String × String) : Reads (loadPrivate t files.1 files.2) fun before =>
      before.privateKey files.1 files.2 := Reads.loadPrivate t files.1 files.2
  have hsigner := Reads.option hload signer
  apply Gathers.bind (Reads.list (Reads.loadPublic t) recipients)
  intro keys
  apply Gathers.bind (Reads.option Reads.readPassword passwordFile)
  intro phrase
  apply Gathers.bind hsigner
  intro signer
  apply Gathers.ite
  · exact fun _ => .throw
  · exact fun _ => .bind (Reads.openFile input) fun _ => .done _

/-- Every command gathers before it does anything else. -/
theorem gathers (command : Command) : Gathers (command.run t) command.gather := by
  cases command with
  | keygen out passwordFile =>
      exact .bind (Reads.readPassword passwordFile) fun _ => .done _
  | encrypt input output recipients passwordFile signer => exact gathers_encrypt t _ _ _ _ _
  | decrypt input output key keyPasswordFile passwordFile verifiers =>
      intro w failure hfailed
      obtain hmissing | ⟨_, -, hnothing⟩ := bind_eq_error.mp hfailed
      case inr => cases hnothing
      obtain ⟨events, hrun⟩ := exists_decrypt_eq t input output key keyPasswordFile passwordFile
        verifiers w
      rw [FileTree.decrypted_of_missing hmissing] at hrun
      exact ⟨events, hrun⟩
  | sign input output key keyPasswordFile =>
      exact .bind (Reads.loadPrivate t key keyPasswordFile) fun _ =>
        .bind (Reads.openFile input) fun _ => .done _
  | verify input signature publicKey =>
      exact .bind (Reads.loadPublic t publicKey) fun _ => .bind (Reads.readFile signature) fun _ =>
        .bind (Reads.openFile input) fun _ => .done _
  | fingerprint publicKey => exact .bind (Reads.loadPublic t publicKey) fun _ => .done _

/-- Options that are of no use, and a key or a password that cannot be had, are only noticed when
the output has been made, and so it is removed. -/
theorem decrypt_of_access {w : Workplace} {input output : String}
    {key keyPasswordFile passwordFile : Option String} {verifiers : List String}
    {keys : List PublicKey} {opened : Place} {made : FileTree} {failure : CommandFailure}
    (hgather : w.files.toDecrypt input verifiers = .ok (keys, opened))
    (hmade : w.files.write output [] = .ok made)
    (haccess : made.access key keyPasswordFile passwordFile keys = .error failure) :
    ∃ after, decrypt t input output key keyPasswordFile passwordFile verifiers w =
      (.error failure, after) ∧ after.files = w.files.remove output := by
  have hfailed : made.decryption t.envelope key keyPasswordFile passwordFile keys opened =
      .error failure := by
    rw [FileTree.decryption, haccess]
    rfl
  obtain ⟨events, hrun⟩ := exists_decrypt_eq t input output key keyPasswordFile passwordFile
    verifiers w
  rw [FileTree.decrypted_of_failure hgather hmade hfailed] at hrun
  exact ⟨_, hrun, rfl⟩

end Task

/-- A command changes no file if what it gathers is missing or cannot be imported, or if its options
leave nothing to be done. The decrypt command has made its output by the time it looks at its
options, its key and its password, and fails with all files as they were but the output, which it
removes whether or not it was there before. -/
theorem gathering_changes_nothing_unless_decrypting {settings : Settings} {t : Toolkit}
    (ht : Toolkit.ofSettings settings = .ok t) (w : Workplace) :
    (∀ (command : Command) (failure : CommandFailure), command.gather w.files = .error failure →
      ∃ after, command.runWith settings w = (.error failure, after) ∧ after.files = w.files) ∧
    ∀ (input output : String) (key keyPasswordFile passwordFile : Option String)
      (verifiers : List String) (keys : List PublicKey) (opened : Place) (made : FileTree)
      (failure : CommandFailure), w.files.toDecrypt input verifiers = .ok (keys, opened) →
      w.files.write output [] = .ok made →
      made.access key keyPasswordFile passwordFile keys = .error failure →
      ∃ after, (Command.decrypt input output key keyPasswordFile passwordFile verifiers).runWith
          settings w = (.error failure, after) ∧
        w.files.SameBut output after.files ∧
        (after.files.read output = .error .missing ∨ after.files = w.files) := by
  constructor
  · intro command failure hfailed
    obtain ⟨events, hrun⟩ := Task.gathers t command w failure hfailed
    refine ⟨w.recording events, ?_, rfl⟩
    rw [Command.runWith, ht]
    exact hrun
  · intro input output key keyPasswordFile passwordFile verifiers keys opened made failure hgather
      hmade haccess
    obtain ⟨after, hrun, hfiles⟩ := Task.decrypt_of_access t hgather hmade haccess
    refine ⟨after, ?_, ?_, ?_⟩
    · rw [Command.runWith, ht]
      exact hrun
    · rw [hfiles]
      exact w.files.sameBut_remove output
    · rw [hfiles]
      exact w.files.read_remove output

/-- An envelope, or what is taken for one, and an output that is already there. -/
def keptPlace : Workplace where
  files := ⟨[], [(["e"], [0]), (["out"], [107, 101, 112, 116])]⟩
  surroundings := ⟨sevens, []⟩

theorem gathering_changes_nothing_kept : ∃ after last,
    (Command.encrypt "e" "out" [] none none).runWith Settings.standard keptPlace =
        (.error (.usage .noTarget), after) ∧ after.files = keptPlace.files ∧
      (Command.decrypt "e" "out" none none (some "none") []).runWith Settings.standard keptPlace =
        (.error (.file "none" .missing), last) ∧ keptPlace.files.SameBut "out" last.files := by
  obtain ⟨t, ht⟩ : ∃ t, Toolkit.ofSettings Settings.standard = .ok t := ⟨_, rfl⟩
  obtain ⟨hall, hdecrypt⟩ := gathering_changes_nothing_unless_decrypting ht keptPlace
  obtain ⟨after, hrun, hfiles⟩ := hall (.encrypt "e" "out" [] none none) (.usage .noTarget) rfl
  obtain ⟨last, hlast, hsame, -⟩ := hdecrypt "e" "out" none none (some "none") [] [] (.file ["e"])
    (keptPlace.files.put ["out"] []) (.file "none" .missing) rfl rfl rfl
  exact ⟨after, last, hrun, hfiles, hlast, hsame⟩

/-- The password file is missing, and the output that was there before is lost. -/
theorem decrypting_loses_kept_output : ∃ i after,
    Invocation.ofArguments ["decrypt", "-i", "e", "-o", "out", "--password-file", "none"] = .ok i ∧
      i.command.runWith i.settings keptPlace = (.error (.file "none" .missing), after) ∧
      keptPlace.files.read "out" = .ok [107, 101, 112, 116] ∧
      after.files.read "out" = .error .missing := by
  obtain ⟨i, hparse, hcommand, t, ht⟩ : ∃ i, Invocation.ofArguments
      ["decrypt", "-i", "e", "-o", "out", "--password-file", "none"] = .ok i ∧
      i.command = .decrypt "e" "out" none none (some "none") [] ∧
      ∃ t, Toolkit.ofSettings i.settings = .ok t := ⟨_, rfl, rfl, _, rfl⟩
  have hgather : keptPlace.files.toDecrypt "e" [] = .ok ([], .file ["e"]) := rfl
  have hmade : keptPlace.files.write "out" [] = .ok (keptPlace.files.put ["out"] []) := rfl
  have haccess : (keptPlace.files.put ["out"] []).access none none (some "none") [] =
      .error (.file "none" .missing) := rfl
  obtain ⟨after, hrun, hfiles⟩ := Task.decrypt_of_access t hgather hmade haccess
  refine ⟨i, after, hparse, ?_, rfl, ?_⟩
  · rw [hcommand, Command.runWith, ht]
    exact hrun
  · rw [hfiles]
    rfl

end SealedEnvelope
