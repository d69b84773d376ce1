import SealedEnvelope.Proofs.Command.RoundTrip
import SealedEnvelope.Command.Arguments

/-!
What the decrypt command leaves behind. Either the output holds all the text of a decryption
that has ended well, signature and all, or the command has failed, and the output is gone or
has not been touched. No other file is changed in either case.
-/

namespace SealedEnvelope

namespace FileTree

variable {t t' : FileTree} {path : String} {location : Location} {content : Bytes}

/-- No file has changed but that at the path. -/
structure SameBut (t : FileTree) (path : String) (t' : FileTree) : Prop where
  folders_eq : t'.folders = t.folders
  content?_eq : ∀ location, t.target path ≠ .ok (.file location) →
    t'.content? location = t.content? location

theorem SameBut.refl (t : FileTree) (path : String) : t.SameBut path t := ⟨rfl, fun _ _ => rfl⟩

theorem sameBut_of_write (h : t.write path content = .ok t') : t.SameBut path t' := by
  obtain ⟨location, htarget, rfl⟩ | ⟨-, rfl⟩ := write_eq_ok.mp h
  · refine ⟨rfl, fun other hother => ?_⟩
    rw [content?_put, if_neg]
    rintro rfl
    exact hother htarget
  · exact SameBut.refl t' path

theorem sameBut_remove (t : FileTree) (path : String) : t.SameBut path (t.remove path) := by
  rw [remove]
  split
  case h_1 location htarget =>
    refine ⟨rfl, fun other hother => ?_⟩
    rw [content?_erase, if_neg]
    rintro rfl
    exact hother htarget
  case h_2 => exact SameBut.refl t path

/-- Where a file is removed there is none, unless there could not be one anyway. -/
theorem read_remove (t : FileTree) (path : String) :
    (t.remove path).read path = .error .missing ∨ t.remove path = t := by
  rw [remove]
  split
  case h_2 => exact Or.inr rfl
  case h_1 location htarget =>
    left
    have hsame : (t.erase location).folders = t.folders := rfl
    simp only [target, bind_eq_ok] at htarget
    obtain ⟨here, happroach, hplace⟩ := htarget
    split_ifs at hplace
    obtain ⟨place, harrive, hplace⟩ := bind_eq_ok.mp hplace
    have hfile : place = .file location := by
      cases place <;> cases hplace
      rfl
    subst hfile
    have hgone : (t.erase location).holds (.file location) = false := by
      rw [holds, content?_erase, if_pos rfl]
      rfl
    rw [read, find, approach_of_folders hsame happroach, ok_bind, arrive_of_folders hsame, harrive,
      ok_bind, hgone]
    rfl

/-- Where there is something to be read once the output has been made, it was there before. -/
theorem read_of_sourceOf {made : FileTree} {input output : String} {opened : Place}
    (hfind : t.find input = .ok opened) (hmade : t.write output [] = .ok made)
    (hne : (made.sourceOf opened).bytes ≠ []) :
    ∃ envelope, t.read input = .ok envelope ∧ made.sourceOf opened = .ofBytes envelope := by
  have hfolder : opened ≠ .folder := by
    rintro rfl
    exact hne rfl
  have hread : t.read input = .ok (t.contentOf opened) :=
    read_eq_ok.mpr ⟨opened, hfind, hfolder, rfl⟩
  refine ⟨t.contentOf opened, hread, ?_⟩
  rw [sourceOf_of_ne_folder _ hfolder, Source.bytes_ofBytes] at hne
  rw [sourceOf_of_ne_folder _ hfolder]
  obtain ⟨location, -, rfl⟩ | ⟨-, rfl⟩ := write_eq_ok.mp hmade
  · rw [contentOf_put_of_ne]
    rintro rfl
    exact hne (contentOf_put_self t location [])
  · rfl

end FileTree

namespace EnvelopeCipher

/-- There is no header in nothing. -/
theorem decryptStreamWith_of_nil {operation : Operation}
    {unwrap : EnvelopeHeader → Except Failure (Octets 32)} {source : Source}
    (h : source.bytes = []) : ∃ failure, decryptStreamWith operation unwrap source =
      .fail failure := by
  have hread : ∃ failure next, EnvelopeHeader.readFrom source = (.error failure, next) := by
    have hholds := source.view_holds
    rw [h] at hholds
    cases hfault : source.fault with
    | none =>
        rw [hfault] at hholds
        obtain ⟨next, hread⟩ := EnvelopeHeader.readExactly_of_lt Source.view hholds (Nat.succ_pos 3)
        exact ⟨_, next, by rw [EnvelopeHeader.readFrom, hread]⟩
    | some fault =>
        rw [hfault] at hholds
        obtain ⟨next, hfill⟩ := Source.view.fill_of_fault hholds (Nat.succ_pos 3)
        exact ⟨_, next, by rw [EnvelopeHeader.readFrom, EnvelopeHeader.readExactly, hfill]⟩
  obtain ⟨failure, next, hread⟩ := hread
  exact ⟨failure, by rw [decryptStreamWith, hread]⟩

end EnvelopeCipher

namespace Access

variable {c : EnvelopeCipher} {source : Source} {access : Access} {text : Bytes} {n : Nat}

/-- The text is all that one of the three operations has put out, and it has ended well. Where there
are verifiers it is the one that verifies a signature. -/
inductive Yields (c : EnvelopeCipher) (source : Source) (text : Bytes) : Access → Prop where
  | opened {key : Ed25519PrivateKey} {n : Nat}
      (h : (c.decryptStream key source).Delivers (.ok n) text) : Yields c source text
        (.key (.ed25519 key) [])
  | verified {key : Ed25519PrivateKey} {verifiers : List Ed25519PublicKey} {n : Nat}
      (hne : verifiers ≠ [])
      (h : (c.decryptThenVerifyStream key verifiers source).Delivers (.ok n) text) :
        Yields c source text (.key (.ed25519 key) (verifiers.map .ed25519))
  | known {phrase : Bytes} {n : Nat}
      (h : (EnvelopeCipher.decryptStreamWithPassword phrase source).Delivers (.ok n) text) :
        Yields c source text (.password phrase)

/-- A signature is asked for. -/
def Verifies : Access → Prop
  | .key _ verifiers => verifiers ≠ []
  | .password _ => False

theorem yields_of_delivered (h : delivered (access.emission c source) = (.ok n, text)) :
    access.Yields c source text := by
  obtain ⟨emission, hemission, hcollect⟩ := delivered_eq_ok.mp h
  have hdelivers := Emission.delivers_ok_iff.mpr hcollect
  cases access with
  | password phrase =>
      cases hemission
      exact .known hdelivers
  | key privateKey verifiers =>
      rw [Access.emission] at hemission
      split at hemission
      case isTrue hempty =>
        obtain ⟨key, hkey, hsame⟩ := bind_eq_ok.mp hemission
        cases hsame
        have hprivate : Checks .decryptStream _ (privateKey.resolve .decryptStream) _ :=
          Checks.privateKey privateKey
        rw [hkey] at hprivate
        rw [← hprivate.of_ok, List.isEmpty_iff.mp hempty]
        exact .opened hdelivers
      case isFalse hsome =>
        obtain ⟨key, hkey, hrest⟩ := bind_eq_ok.mp hemission
        obtain ⟨keys, hkeys, hsame⟩ := bind_eq_ok.mp hrest
        cases hsame
        have hprivate : Checks .decryptThenVerifyStream _
            (privateKey.resolve .decryptThenVerifyStream) _ := Checks.privateKey privateKey
        have hpublic : Checks .decryptThenVerifyStream _
            (verifiers.mapM (PublicKey.resolve .decryptThenVerifyStream)) _ :=
          Checks.publicKeys verifiers
        rw [hkey] at hprivate
        rw [hkeys] at hpublic
        have hlist : keys.map PublicKey.ed25519 = verifiers := hpublic.of_ok
        rw [← hlist] at hsome
        rw [← hprivate.of_ok, ← hlist]
        refine .verified (fun hnil => hsome ?_) hdelivers
        rw [hnil]
        rfl

theorem Yields.bytes_ne_nil (h : access.Yields c source text) : source.bytes ≠ [] := by
  intro hnil
  have hfail {emission : Emission (Nat × Option Bytes)} {failure : Failure}
      (hfailed : emission = .fail failure) {n : Nat} :
      ¬ (Prod.fst <$> emission).Delivers (.ok n) text := by
    rw [hfailed, Emission.delivers_iff]
    rintro ⟨hending, -⟩
    cases hending
  cases h with
  | opened h =>
      obtain ⟨failure, hfailed⟩ := EnvelopeCipher.decryptStreamWith_of_nil hnil
      exact hfail hfailed h
  | known h =>
      obtain ⟨failure, hfailed⟩ := EnvelopeCipher.decryptStreamWith_of_nil hnil
      exact hfail hfailed h
  | verified hne h =>
      obtain ⟨failure, hfailed⟩ := EnvelopeCipher.decryptStreamWith_of_nil hnil
      rw [EnvelopeCipher.decryptThenVerifyStream, if_neg (by simpa using hne)] at h
      dsimp only at h
      rw [hfailed] at h
      exact EnvelopeCipher.not_delivers_fail h

end Access

/-- Some arguments ask for this command. -/
def Command.Asked (command : Command) : Prop :=
  ∃ arguments i, Invocation.ofArguments arguments = .ok i ∧ i.command = command

theorem Command.Asked.exists_given {command : Command} (h : command.Asked) :
    ∃ verb given, Command.ofGiven verb given = .ok command := by
  obtain ⟨arguments, i, hparse, rfl⟩ := h
  obtain ⟨⟨before, turn?⟩, -, hparse⟩ := bind_eq_ok.mp hparse
  obtain ⟨behind?, hbehind, hparse⟩ := bind_eq_ok.mp hparse
  obtain ⟨settled, -, hparse⟩ := bind_eq_ok.mp hparse
  cases turn? with
  | none =>
      cases hbehind
      cases hparse
  | some turn =>
      obtain ⟨⟨behind, command⟩, hread, hsome⟩ := bind_eq_ok.mp hbehind
      cases hsome
      cases hparse
      obtain ⟨scanned, -, hread⟩ := bind_eq_ok.mp hread
      obtain ⟨g, -, hread⟩ := bind_eq_ok.mp hread
      obtain ⟨command', hcommand, hsame⟩ := bind_eq_ok.mp hread
      cases hsame
      exact ⟨turn.1, _, hcommand⟩

/-- Verifiers are only accepted together with the file of a key's password. -/
theorem Command.Asked.isSome_keyPasswordFile {input output : String}
    {key keyPasswordFile passwordFile : Option String} {verifiers : List String}
    (h : (Command.decrypt input output key keyPasswordFile passwordFile verifiers).Asked)
    (hne : verifiers ≠ []) : keyPasswordFile.isSome = true := by
  obtain ⟨verb, g, hgiven⟩ := h.exists_given
  cases verb with
  | decrypt =>
      simp only [Command.ofGiven] at hgiven
      split at hgiven
      case isTrue => cases hgiven
      case isFalse =>
        split at hgiven
        case isTrue => cases hgiven
        case isFalse hmissing =>
          split at hgiven
          case isTrue => cases hgiven
          case isFalse =>
            obtain ⟨_, -, hgiven⟩ := bind_eq_ok.mp hgiven
            obtain ⟨_, -, hgiven⟩ := bind_eq_ok.mp hgiven
            cases hgiven
            simpa [hne, Option.isSome_iff_ne_none] using hmissing
  | encrypt =>
      obtain ⟨_, -, hgiven⟩ := bind_eq_ok.mp hgiven
      obtain ⟨_, -, hgiven⟩ := bind_eq_ok.mp hgiven
      dsimp only at hgiven
      split at hgiven <;> cases hgiven
  | keygen | sign | verify | fingerprint =>
      simp [Command.ofGiven, bind_eq_ok, pure, Except.pure] at hgiven

/-- With verifiers and the file of a key's password, a signature is asked for or nothing is
opened. -/
theorem FileTree.verifies_of_access {before made : FileTree}
    {key keyPasswordFile passwordFile : Option String} {verifiers : List String}
    {keys : List PublicKey} {access : Access}
    (haccess : made.access key keyPasswordFile passwordFile keys = .ok access)
    (hkeys : verifiers.mapM before.publicKey = .ok keys)
    (hsome : keyPasswordFile.isSome = true) (hne : verifiers ≠ []) : access.Verifies := by
  obtain ⟨password, rfl⟩ := Option.isSome_iff_exists.mp hsome
  have hkeysne : keys ≠ [] := by
    cases verifiers with
    | nil => exact absurd rfl hne
    | cons verifier verifiers =>
        rw [List.mapM_cons] at hkeys
        obtain ⟨first, -, hkeys⟩ := bind_eq_ok.mp hkeys
        obtain ⟨rest, -, hkeys⟩ := bind_eq_ok.mp hkeys
        cases hkeys
        exact List.cons_ne_nil _ _
  unfold FileTree.access at haccess
  split at haccess
  case h_1 file keyPassword _ _ _ =>
    obtain ⟨privateKey, -, hsame⟩ := bind_eq_ok.mp haccess
    cases hsame
    exact hkeysne
  case h_2 => contradiction
  case h_3 => cases haccess

/-- The decrypt command succeeds with all the text of a decryption that has ended well in the
output, which has verified a signature wherever verifiers are asked for; or it fails, and the
output is as it was or is no longer there. Nothing else is changed. -/
theorem decryption_all_or_nothing {settings : Settings} {input output : String}
    {key keyPasswordFile passwordFile : Option String} {verifiers : List String}
    {w after : Workplace} {result : Except CommandFailure String}
    (hrun : (Command.decrypt input output key keyPasswordFile passwordFile verifiers).runWith
      settings w = (result, after)) :
    w.files.SameBut output after.files ∧
      (∀ failure, result = .error failure → after.files.read output = .error .missing ∨
        after.files.read output = w.files.read output) ∧
      ∀ printed, result = .ok printed →
        ∃ t made keys access envelope text, Toolkit.ofSettings settings = .ok t ∧
          verifiers.mapM w.files.publicKey = .ok keys ∧ w.files.write output [] = .ok made ∧
          made.access key keyPasswordFile passwordFile keys = .ok access ∧
          w.files.read input = .ok envelope ∧
          access.Yields t.envelope (.ofBytes envelope) text ∧
          (w.files.target output = .ok .nullDevice ∨ after.files.read output = .ok text) ∧
          ((Command.decrypt input output key keyPasswordFile passwordFile verifiers).Asked →
            verifiers ≠ [] → access.Verifies) := by
  rw [Command.runWith] at hrun
  rcases hsettings : Toolkit.ofSettings settings with failure | t
  · rw [hsettings] at hrun
    cases hrun
    exact ⟨.refl _ _, fun _ _ => Or.inr rfl, fun _ hok => by cases hok⟩
  rw [hsettings] at hrun
  obtain ⟨events, heq⟩ := Task.exists_decrypt_eq t input output key keyPasswordFile passwordFile
    verifiers w
  change Task.decrypt t input output key keyPasswordFile passwordFile verifiers w = _ at hrun
  rw [heq] at hrun
  obtain ⟨rfl, rfl⟩ := Prod.mk.inj hrun
  dsimp only
  rcases FileTree.decrypted_cases with ⟨failure, hdecrypted⟩ | ⟨failure, hdecrypted⟩ |
    ⟨keys, opened, made, text, files, hgather, hmade, htext, hfiles, hdecrypted⟩
  · rw [hdecrypted]
    exact ⟨.refl _ _, fun _ _ => Or.inr rfl, fun _ hok => by cases hok⟩
  · rw [hdecrypted]
    refine ⟨w.files.sameBut_remove output, fun _ _ => ?_, fun _ hok => by cases hok⟩
    exact (w.files.read_remove output).imp_right fun hsame => by rw [hsame]
  · rw [hdecrypted]
    refine ⟨FileTree.sameBut_of_write hfiles, fun _ hfailed => (by cases hfailed),
      fun _ _ => ?_⟩
    obtain ⟨access, n, haccess, hdelivered⟩ := FileTree.decryption_eq_ok htext
    obtain ⟨keys', hkeys, hgather⟩ := bind_eq_ok.mp hgather
    obtain ⟨opened', hopened, hsame⟩ := bind_eq_ok.mp hgather
    cases hsame
    have hyields := Access.yields_of_delivered hdelivered
    obtain ⟨envelope, hread, hsource⟩ :=
      FileTree.read_of_sourceOf (mapError_eq_ok.mp hopened) hmade hyields.bytes_ne_nil
    rw [hsource] at hyields
    refine ⟨t, made, keys, access, envelope, text, rfl, hkeys, hmade, haccess, hread, hyields, ?_,
      fun hasked hne => ?_⟩
    · obtain ⟨location, htarget, rfl⟩ | ⟨htarget, -⟩ := FileTree.write_eq_ok.mp hfiles
      · exact Or.inr (FileTree.read_put_of_target htarget text)
      · exact Or.inl htarget
    · exact FileTree.verifies_of_access haccess hkeys (hasked.isSome_keyPasswordFile hne) hne

/-- An envelope under the password in a file, besides an output that is already there. -/
def sealedPlace (envelope : Bytes) : Workplace where
  files := ⟨[], [(["sealed"], envelope), (["pw"], sevenPhrase ++ [10]), (["out"], [1])]⟩
  surroundings := ⟨sevens, []⟩

theorem decryption_all_or_nothing_sevens : ∃ envelope after,
    ((Opener.password "pw").command "sealed" "out").runWith sevenInvocation.settings
        (sealedPlace envelope) = (.ok "", after) ∧
      (sealedPlace envelope).files.SameBut "out" after.files ∧
      after.files.read "out" = .ok shortText := by
  obtain ⟨t, emit, next, ht, -, hdraw, hcollect⟩ :=
    @exists_sevenWork none (fun _ hnone => nomatch hnone)
  obtain ⟨envelope, henvelope⟩ := hcollect shortText (by decide)
  have hne : envelope ≠ [] := by
    obtain ⟨-, header, encoded, hdecode, -⟩ :=
      Encryption.exists_header_of_collect hdraw henvelope
    rintro rfl
    cases hdecode
  have hsealed := (Encryption.run_streamed hdraw).mpr henvelope
  have hrecovers : (Access.password sevenPhrase).Recovers sevenInvocation.settings envelope
      shortText := Access.recovers_of_delivers ht hne fun _ => Access.delivers_password hsealed
        (sevenInvocation.envelope_of_ofSettings ht).2 (by simp [sevenRecipients])
        (by simp [sevenRecipients])
  obtain ⟨after, hrun, hread⟩ :=
    hrecovers (.password "pw") (sealedPlace envelope) "sealed" "out" ["out"] rfl rfl rfl
  obtain ⟨hsame, -, -⟩ := decryption_all_or_nothing hrun
  exact ⟨envelope, after, hrun, hsame, hread⟩

end SealedEnvelope
