import SealedEnvelope.Proofs.Command.Decryption

/-!
The files that keygen makes. Whatever the path is that it is given, there are two of them, of which
neither is the other, and they hold the key that has been drawn.
-/

namespace SealedEnvelope

namespace Path

/-- Without slashes there is nothing to cut. -/
theorem cutAtSlashes_of_notMem {cs : List Char} (h : '/' ∉ cs) : cutAtSlashes cs = [cs] := by
  induction cs with
  | nil => rfl
  | cons c cs ih =>
      rw [List.mem_cons, not_or] at h
      rw [cutAtSlashes.eq_3 _ _ (Ne.symm h.1), ih h.2]

/-- An ending without slashes goes to the last piece. -/
theorem exists_cutAtSlashes_append (cs : List Char) : ∃ front last, ∀ ending : List Char,
    '/' ∉ ending → cutAtSlashes (cs ++ ending) = front ++ [last ++ ending] := by
  induction cs with
  | nil => exact ⟨[], [], fun ending h => cutAtSlashes_of_notMem h⟩
  | cons c cs ih =>
      obtain ⟨front, last, hcut⟩ := ih
      by_cases hc : c = '/'
      · subst hc
        refine ⟨[] :: front, last, fun ending h => ?_⟩
        rw [List.cons_append, cutAtSlashes, hcut ending h, List.cons_append]
      · cases front with
        | nil =>
            refine ⟨[], c :: last, fun ending h => ?_⟩
            rw [List.cons_append, cutAtSlashes.eq_3 _ _ hc, hcut ending h]
            rfl
        | cons piece pieces =>
            refine ⟨(c :: piece) :: pieces, last, fun ending h => ?_⟩
            rw [List.cons_append, cutAtSlashes.eq_3 _ _ hc, hcut ending h]
            rfl

/-- What an ending is put behind takes the same steps but for the last, whose name ends in it. -/
theorem exists_steps_append (path : String) : ∃ front last, ∀ ending : String, ending ≠ "" →
    '/' ∉ ending.toList → steps (path ++ ending) = front ++ [last ++ ending] := by
  obtain ⟨front, last, hcut⟩ := exists_cutAtSlashes_append path.toList
  refine ⟨(front.map String.ofList).filter (· ≠ ""), String.ofList last, fun ending hne h => ?_⟩
  have hname : String.ofList (last ++ ending.toList) = String.ofList last ++ ending := by
    rw [String.ofList_append, String.ofList_toList]
  rw [steps, String.toList_append, hcut _ h, List.map_append, List.map_singleton, hname,
    List.filter_append, List.filter_singleton]
  simp [hne]

end Path

namespace FileTree

variable {t : FileTree} {path ending : String} {place : Place} {last : Char}

/-- A path with an ending like those of key files leads to a file whose name has that ending: it
goes to no folder and to no device. -/
theorem exists_file_of_target (hslash : '/' ∉ ending.toList)
    (hlast : ending.toList.getLast? = some last) (hdot : last ≠ '.') (hl : last ≠ 'l')
    (h : t.target (path ++ ending) = .ok place) :
    ∃ here name, place = .file (here ++ [name]) ∧ name.toList.getLast? = some last := by
  have hne : ending ≠ "" := by
    rintro rfl
    cases hlast
  obtain ⟨front, stem, hsteps⟩ := Path.exists_steps_append path
  have hname : (stem ++ ending).toList.getLast? = some last := by
    rw [String.toList_append, List.getLast?_append, hlast, Option.some_or]
  -- The last step has a name with this ending, so it is neither of the two that lead to a folder.
  have hfollow (here : Location) : here.follow (stem ++ ending) = here ++ [stem ++ ending] := by
    rw [Location.follow, if_neg, if_neg]
    · intro habove
      rw [habove] at hname
      exact hdot (Option.some.inj hname).symm
    · intro hhere
      rw [hhere] at hname
      exact hdot (Option.some.inj hname).symm
  have hdevice (here : Location) : here ++ [stem ++ ending] ≠ nullDevice := by
    intro hnull
    have hend : stem ++ ending = "null" := by
      have h := congrArg List.getLast? hnull
      rw [List.getLast?_append_cons] at h
      exact Option.some.inj h
    rw [hend] at hname
    exact hl (Option.some.inj hname).symm
  simp only [target, bind_eq_ok] at h
  obtain ⟨here, -, h⟩ := h
  split_ifs at h
  obtain ⟨reached, harrive, h⟩ := bind_eq_ok.mp h
  rw [arrive, hsteps ending hne hslash, List.getLast?_append_cons] at harrive
  dsimp only [List.getLast?_singleton] at harrive
  rw [step] at harrive
  split at harrive
  case isTrue => cases harrive
  case isFalse =>
    cases harrive
    rw [hfollow, placeAt, if_neg (hdevice here)] at h
    split at h
    case h_1 => cases h
    case h_2 hfolder =>
      cases h
      rw [if_neg (fun hin => hfolder (if_pos hin))]
      exact ⟨here, stem ++ ending, rfl, hname⟩

/-- The file of the public key is another one than that of the private key, which so stays. -/
theorem read_keyFiles {out : String} {stored encoded : Bytes} {between made : FileTree}
    (hfirst : t.write (privateKeyPath out) stored = .ok between)
    (hsecond : between.write (publicKeyPath out) encoded = .ok made) :
    made.read (privateKeyPath out) = .ok stored ∧ made.read (publicKeyPath out) = .ok encoded := by
  have hprivate {t : FileTree} {place : Place} (h : t.target (privateKeyPath out) = .ok place) :
      ∃ here name, place = .file (here ++ [name]) ∧ name.toList.getLast? = some 'y' :=
    exists_file_of_target (by decide) (by decide) (by decide) (by decide) h
  have hpublic {t : FileTree} {place : Place} (h : t.target (publicKeyPath out) = .ok place) :
      ∃ here name, place = .file (here ++ [name]) ∧ name.toList.getLast? = some 'b' :=
    exists_file_of_target (by decide) (by decide) (by decide) (by decide) h
  obtain ⟨location, htarget, rfl⟩ | ⟨htarget, -⟩ := write_eq_ok.mp hfirst
  case inr =>
    obtain ⟨_, _, hdevice, -⟩ := hprivate htarget
    cases hdevice
  obtain ⟨location', htarget', rfl⟩ | ⟨htarget', -⟩ := write_eq_ok.mp hsecond
  case inr =>
    obtain ⟨_, _, hdevice, -⟩ := hpublic htarget'
    cases hdevice
  refine ⟨?_, read_put_of_target htarget' encoded⟩
  -- The names of the two files end in different letters.
  have hdiffer : (t.put location stored).find (privateKeyPath out) ≠ .ok (.file location') := by
    intro hsame
    have hfound := find_of_target (target_of_folders (folders_put t location stored) htarget)
      (holds_put_self t location stored)
    rw [hfound] at hsame
    obtain ⟨here, name, hplace, hname⟩ := hprivate htarget
    obtain ⟨here', name', hplace', hname'⟩ := hpublic htarget'
    have hlocation : here ++ [name] = here' ++ [name'] := by
      rw [← Place.file.inj hplace, ← Place.file.inj hplace']
      exact Place.file.inj (Except.ok.inj hsame)
    obtain ⟨-, hnames⟩ := List.append_inj' hlocation rfl
    rw [List.singleton_inj.mp hnames, hname'] at hname
    exact absurd hname (by decide)
  rw [read_put_of_read (read_put_of_target htarget stored), if_neg hdiffer]

end FileTree

/-- A key pair is made of the seed that is drawn. -/
theorem Ed25519Keypair.generate_eq_ok {e next : Entropy} {pair : Ed25519Keypair} :
    generate e = (.ok pair, next) ↔
      e.holds 32 = true ∧ pair.privateKey = ⟨e.peek 32⟩ ∧
        pair.privateKey.publicKey = .ok pair.publicKey ∧
          next = { e with position := e.position + 32 } := by
  simp only [generate, Ed25519PrivateKey.generate, ofPrivate, Random.bind_eq_ok,
    Random.draw_eq_ok, Random.lift_eq_ok, map_eq_ok]
  constructor
  · rintro ⟨key, _, ⟨seed, _, ⟨hholds, rfl, rfl⟩, hkey⟩, ⟨publicKey, hpublic, rfl⟩, rfl⟩
    cases hkey
    exact ⟨hholds, rfl, hpublic, rfl⟩
  · rintro ⟨hholds, hkey, hpublic, rfl⟩
    obtain ⟨key, publicKey⟩ := pair
    cases hkey
    exact ⟨_, _, ⟨_, _, ⟨hholds, rfl, rfl⟩, rfl⟩, ⟨publicKey, hpublic, rfl⟩, rfl⟩

namespace Task

variable {t : Toolkit} {w after : Workplace}

/-- An operation that draws uses up randomness and leaves the files alone. -/
theorem exists_ofAction_draw {α : Type} (t : Toolkit) (operation : Operation)
    (keyId : Except Failure α → Option KeyId) (x : Random α) (w : Workplace) :
    ∃ events, ofAction (t.report operation keyId (Toolkit.draw x)) w =
      ((x w.surroundings.entropy).1.mapError .crypto,
        ⟨w.files, (x w.surroundings.entropy).2, events⟩) := by
  obtain ⟨events, hrecord⟩ := t.exists_record operation (keyId (x w.surroundings.entropy).1)
    (x w.surroundings.entropy).1 { w.surroundings with entropy := (x w.surroundings.entropy).2 }
  refine ⟨events, ?_⟩
  change ((x w.surroundings.entropy).1.mapError CommandFailure.crypto,
    ({ w with surroundings := (t.record operation (keyId (x w.surroundings.entropy).1)
      (x w.surroundings.entropy).1
      { w.surroundings with entropy := (x w.surroundings.entropy).2 }).2 } : Workplace)) = _
  rw [hrecord]

theorem ofAction_draw_eq_ok {α : Type} {operation : Operation}
    {keyId : Except Failure α → Option KeyId} {x : Random α} {a : α}
    (h : ofAction (t.report operation keyId (Toolkit.draw x)) w = (.ok a, after)) :
    x w.surroundings.entropy = (.ok a, after.surroundings.entropy) ∧ after.files = w.files := by
  obtain ⟨events, heq⟩ := exists_ofAction_draw t operation keyId x w
  rw [heq] at h
  obtain ⟨hresult, rfl⟩ := Prod.mk.inj h
  exact ⟨Prod.ext (mapError_eq_ok.mp hresult) rfl, rfl⟩

theorem ofAction_draw_of_ok {α : Type} {operation : Operation}
    {keyId : Except Failure α → Option KeyId} {x : Random α} {a : α} {next : Entropy}
    (h : x w.surroundings.entropy = (.ok a, next)) :
    ∃ events, ofAction (t.report operation keyId (Toolkit.draw x)) w =
      (.ok a, ⟨w.files, next, events⟩) := by
  obtain ⟨events, heq⟩ := exists_ofAction_draw t operation keyId x w
  rw [h] at heq
  exact ⟨events, heq⟩

theorem generateKeypair_eq_ok {pair : Keypair}
    (h : ofAction t.generateKeypair w = (.ok pair, after)) :
    ∃ publicKey, Ed25519PrivateKey.publicKey ⟨w.surroundings.entropy.peek 32⟩ = .ok publicKey ∧
      pair = ⟨.ed25519 ⟨w.surroundings.entropy.peek 32⟩, .ed25519 publicKey⟩ ∧
      after.files = w.files := by
  obtain ⟨hdraw, hfiles⟩ := ofAction_draw_eq_ok h
  obtain ⟨⟨key, publicKey⟩, _, hgenerate, hsame⟩ := Random.bind_eq_ok.mp hdraw
  obtain ⟨-, rfl, hpublic, -⟩ := Ed25519Keypair.generate_eq_ok.mp hgenerate
  cases hsame
  exact ⟨publicKey, hpublic, rfl, hfiles⟩

theorem exportPrivateKey_eq_ok {key : Ed25519PrivateKey} {phrase stored : Bytes}
    (h : ofAction (t.exportPrivateKey (.ed25519 key) phrase) w = (.ok stored, after)) :
    (∃ salt, stored = ProtectedKey.wrap salt key phrase) ∧ after.files = w.files := by
  obtain ⟨hdraw, hfiles⟩ := ofAction_draw_eq_ok h
  obtain ⟨resolved, _, hlift, hprotect⟩ := Random.bind_eq_ok.mp hdraw
  obtain ⟨-, rfl⟩ := PrivateKey.resolve_eq_ok.mp (Random.lift_eq_ok.mp hlift).1
  obtain ⟨-, -, hstored, -⟩ := ProtectedKey.protect_eq_ok.mp hprotect
  exact ⟨⟨_, hstored⟩, hfiles⟩

theorem exportPublicKey_eq_ok {key : Ed25519PublicKey} {encoded : Bytes}
    (h : ofAction (t.exportPublicKey (.ed25519 key)) w = (.ok encoded, after)) :
    encoded = key.encode ∧ after.files = w.files := by
  obtain ⟨hencoded, events, rfl⟩ := (Reads.ofReport t _ _ _).of_ok h
  obtain ⟨resolved, hresolve, rfl⟩ := map_eq_ok.mp (mapError_eq_ok.mp hencoded)
  obtain ⟨-, rfl⟩ := PublicKey.resolve_eq_ok.mp hresolve
  exact ⟨rfl, rfl⟩

theorem exists_exportPublicKey (t : Toolkit) {key : Ed25519PublicKey}
    (husable : key.isEmpty = false) (w : Workplace) :
    ∃ events, ofAction (t.exportPublicKey (.ed25519 key)) w =
      (.ok key.encode, w.recording events) := by
  apply (Reads.ofReport t _ _ _).exists_ok
  exact mapError_eq_ok.mpr (map_eq_ok.mpr ⟨key, PublicKey.resolve_eq_ok.mpr ⟨husable, rfl⟩, rfl⟩)

theorem keyIdentifier_eq_ok {key : Ed25519PublicKey} {id : KeyId}
    (h : ofAction (t.keyIdentifier (.ed25519 key)) w = (.ok id, after)) :
    id = key.identifier t.settings.fingerprint ∧ after.files = w.files := by
  obtain ⟨hid, events, rfl⟩ := (Reads.ofReport t _ _ _).of_ok h
  obtain ⟨resolved, hresolve, rfl⟩ := map_eq_ok.mp (mapError_eq_ok.mp hid)
  obtain ⟨-, rfl⟩ := PublicKey.resolve_eq_ok.mp hresolve
  exact ⟨rfl, rfl⟩

theorem exists_keyIdentifier (t : Toolkit) {key : Ed25519PublicKey}
    (husable : key.isEmpty = false) (w : Workplace) :
    ∃ events, ofAction (t.keyIdentifier (.ed25519 key)) w =
      (.ok (key.identifier t.settings.fingerprint), w.recording events) := by
  apply (Reads.ofReport t _ _ _).exists_ok
  exact mapError_eq_ok.mpr (map_eq_ok.mpr ⟨key, PublicKey.resolve_eq_ok.mpr ⟨husable, rfl⟩, rfl⟩)

/-- What keygen puts into the two files: the key that has been drawn, under the password that was
in its file then. -/
theorem keygen_eq_ok {out passwordFile printed : String}
    (h : keygen t out passwordFile w = (.ok printed, after)) :
    ∃ phrase salt publicKey between,
      w.files.password passwordFile = .ok phrase ∧
      Ed25519PrivateKey.publicKey ⟨w.surroundings.entropy.peek 32⟩ = .ok publicKey ∧
      w.files.write (privateKeyPath out)
        (ProtectedKey.wrap salt ⟨w.surroundings.entropy.peek 32⟩ phrase) = .ok between ∧
      between.write (publicKeyPath out) publicKey.encode = .ok after.files ∧
      printed = (publicKey.identifier t.settings.fingerprint).text ++ "\n" := by
  obtain ⟨phrase, read, hread, h⟩ := Stateful.bind_eq_ok.mp h
  obtain ⟨hphrase, events, rfl⟩ := (Reads.readPassword passwordFile).of_ok hread
  obtain ⟨pair, generated, hpair, h⟩ := Stateful.bind_eq_ok.mp h
  obtain ⟨publicKey, hpublicKey, rfl, hgenerated⟩ := generateKeypair_eq_ok hpair
  obtain ⟨stored, exported, hstored, h⟩ := Stateful.bind_eq_ok.mp h
  obtain ⟨⟨salt, rfl⟩, hexported⟩ := exportPrivateKey_eq_ok hstored
  obtain ⟨⟨⟩, first, hfirst, h⟩ := Stateful.bind_eq_ok.mp h
  obtain ⟨between, hbetween, rfl⟩ := writeFile_eq_ok.mp hfirst
  obtain ⟨encoded, encoding, hencoded, h⟩ := Stateful.bind_eq_ok.mp h
  obtain ⟨rfl, hencoding⟩ := exportPublicKey_eq_ok hencoded
  obtain ⟨⟨⟩, second, hsecond, h⟩ := Stateful.bind_eq_ok.mp h
  obtain ⟨made, hmade, rfl⟩ := writeFile_eq_ok.mp hsecond
  obtain ⟨id, identified, hid, h⟩ := Stateful.bind_eq_ok.mp h
  obtain ⟨rfl, hidentified⟩ := keyIdentifier_eq_ok hid
  cases h
  rw [hexported, hgenerated] at hbetween
  rw [hencoding] at hmade
  refine ⟨phrase, salt, publicKey, between, hphrase, hpublicKey, hbetween, ?_, rfl⟩
  rw [hidentified]
  exact hmade

theorem exists_generateKeypair (t : Toolkit) {publicKey : Ed25519PublicKey}
    (hendless : w.surroundings.entropy.limit = none)
    (hkey : Ed25519PrivateKey.publicKey ⟨w.surroundings.entropy.peek 32⟩ = .ok publicKey) :
    ∃ after, ofAction t.generateKeypair w =
        (.ok ⟨.ed25519 ⟨w.surroundings.entropy.peek 32⟩, .ed25519 publicKey⟩, after) ∧
      after.files = w.files ∧ after.surroundings.entropy.limit = none := by
  have hholds : w.surroundings.entropy.holds 32 = true := by rw [Entropy.holds, hendless]
  let pair : Ed25519Keypair := ⟨⟨w.surroundings.entropy.peek 32⟩, publicKey⟩
  have hpair : Ed25519Keypair.generate w.surroundings.entropy = (.ok pair, _) :=
    Ed25519Keypair.generate_eq_ok.mpr ⟨hholds, rfl, hkey, rfl⟩
  have hdraw : (do
      let pair ← Ed25519Keypair.generate
      return ⟨.ed25519 pair.privateKey, .ed25519 pair.publicKey⟩ : Random Keypair)
        w.surroundings.entropy = (.ok ⟨.ed25519 pair.privateKey, .ed25519 pair.publicKey⟩, _) :=
    Random.bind_eq_ok.mpr ⟨pair, _, hpair, rfl⟩
  obtain ⟨events, hrun⟩ := ofAction_draw_of_ok hdraw
  exact ⟨_, hrun, rfl, hendless⟩

theorem exists_exportPrivateKey (t : Toolkit) {key : Ed25519PrivateKey} (phrase : Bytes)
    (hempty : key.isEmpty = false) (hendless : w.surroundings.entropy.limit = none) :
    ∃ stored after, ofAction (t.exportPrivateKey (.ed25519 key) phrase) w = (.ok stored, after) ∧
      after.files = w.files := by
  have hholds : w.surroundings.entropy.holds ProtectedKey.saltLength = true := by
    rw [Entropy.holds, hendless]
  have hresolve : Random.lift ((PrivateKey.ed25519 key).resolve .exportPrivateKey)
      w.surroundings.entropy = (.ok key, w.surroundings.entropy) :=
    Random.lift_eq_ok.mpr ⟨PrivateKey.resolve_eq_ok.mpr ⟨hempty, rfl⟩, rfl⟩
  have hprotect : ProtectedKey.protect key phrase w.surroundings.entropy = (.ok _, _) :=
    ProtectedKey.protect_eq_ok.mpr ⟨hempty, hholds, rfl, rfl⟩
  have hdraw : (do
      let key ← Random.lift ((PrivateKey.ed25519 key).resolve .exportPrivateKey)
      ProtectedKey.protect key phrase : Random Bytes) w.surroundings.entropy = (.ok _, _) :=
    Random.bind_eq_ok.mpr ⟨key, _, hresolve, hprotect⟩
  obtain ⟨events, hrun⟩ := ofAction_draw_of_ok hdraw
  exact ⟨_, _, hrun, rfl⟩

/-- With enough randomness for a key that can be used, and where both files can be made, keygen
succeeds. -/
theorem exists_keygen {out passwordFile : String} {phrase : Bytes}
    {publicKey : Ed25519PublicKey} {point : EdwardsPoint} {location location' : Location}
    (hphrase : w.files.password passwordFile = .ok phrase)
    (hendless : w.surroundings.entropy.limit = none)
    (hkey : Ed25519PrivateKey.publicKey ⟨w.surroundings.entropy.peek 32⟩ = .ok publicKey)
    (hpoint : publicKey.point .verify = .ok point)
    (hprivate : w.files.target (privateKeyPath out) = .ok (.file location))
    (hpublic : w.files.target (publicKeyPath out) = .ok (.file location')) :
    ∃ after, keygen t out passwordFile w =
      (.ok ((publicKey.identifier t.settings.fingerprint).text ++ "\n"), after) := by
  have hempty := isEmpty_of_publicKey hkey
  have husable := isEmpty_of_point hpoint
  obtain ⟨events, hread⟩ := (Reads.readPassword passwordFile).exists_ok hphrase
  obtain ⟨generated, hgenerate, hgenerated, hlimit⟩ :=
    exists_generateKeypair (w := w.recording events) t hendless hkey
  obtain ⟨stored, exported, hexport, hexported⟩ :=
    exists_exportPrivateKey t phrase hempty hlimit
  let first : Workplace := { exported with files := w.files.put location stored }
  have hfirst : writeFile (privateKeyPath out) stored exported = (.ok (), first) := by
    apply writeFile_of_ok
    rw [hexported, hgenerated]
    exact FileTree.write_of_target hprivate stored
  obtain ⟨encoding, hencode⟩ := exists_exportPublicKey t husable first
  let second : Workplace :=
    { first.recording encoding with files := first.files.put location' publicKey.encode }
  have hsecond : writeFile (publicKeyPath out) publicKey.encode (first.recording encoding) =
      (.ok (), second) := by
    apply writeFile_of_target
    exact FileTree.target_of_folders (FileTree.folders_put w.files location stored) hpublic
  obtain ⟨identified, hidentify⟩ := exists_keyIdentifier t husable second
  refine ⟨second.recording identified, ?_⟩
  refine (Stateful.bind_of_ok hread _).trans ((Stateful.bind_of_ok hgenerate _).trans ?_)
  refine (Stateful.bind_of_ok hexport _).trans ((Stateful.bind_of_ok hfirst _).trans ?_)
  refine (Stateful.bind_of_ok hencode _).trans ((Stateful.bind_of_ok hsecond _).trans ?_)
  exact Stateful.bind_of_ok hidentify _

end Task

end SealedEnvelope
