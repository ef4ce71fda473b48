import Galaxy42.Crypto.Multisign
import Galaxy42.Datastore

/-!
# Saving keys and signatures

`datastore_save` chooses the store by the use of the object: public keys, private keys, or signatures.
The case of signatures does not end with a `break`. What follows it is the case of private keys, so when
signatures have been saved, they are saved once more, in the wallet. So the file of another store is
opened exactly then (`keepsToStore_datastoreSave_iff`).

What a call should do is one structure (`KeepsToStore`): of the files of all stores it opens and changes one,
that of its own store under the name, and no other; and when it returns, the data are there. Each of the two
functions that save keeps to the store that it is given (`keepsToStore_save`), so nothing but the choice of
the store is left to be looked at.

For signatures the second save comes behind the first one, with the host as the first one has left it. What
the first one has done, one file of another store and some answers of the user, makes no difference to whether
the file in the wallet can be opened (`canOpen_wallet_iff`). So the condition is stated on the host before the
call: the signatures cannot be saved at all, or the file in the wallet cannot be opened.
-/

namespace Galaxy42

open Toolkit Program TrivialSerialize

variable {σ : Type}

/-! ### What is saved -/

/-- An object that can be saved. -/
inductive StoredObject where
  /-- `c_multikeys_pub` -/
  | pub (m : MultikeysPub)
  /-- `c_multikeys_PRV` -/
  | PRV (m : MultikeysPRV)
  /-- `c_multisign` -/
  | sign (m : Multisign)

namespace StoredObject

/-- `serialize_bin`, which is virtual. -/
def serializeBin : StoredObject → Program Exn σ Bytes
  | pub m => m.toMultiCryptoStrings.serializeBin
  | PRV m => m.toMultiCryptoStrings.serializeBin
  | sign m => m.serializeBin

/-- `m_crypto_use` -/
def cryptoUse : StoredObject → CryptoUse
  | pub m => m.cryptoUse
  | PRV m => m.cryptoUse
  | sign m => m.cryptoUse

/-- `datastore_save`. The case of signatures has no `break`, and goes on with the one of private keys. -/
def datastoreSave (lib : PathLib) (object : StoredObject) (fname : Bytes) (overwrite : Bool) :
    Program Exn Host Unit := do
  let serializedData ← object.serializeBin
  match object.cryptoUse with
  | .open => Datastore.saveString lib .galaxyPub fname serializedData overwrite
  | .signature =>
    Datastore.saveString lib .galaxySig fname serializedData overwrite
    -- without a `break`, the next case of the `switch` follows
    Datastore.saveStringMlocked lib .galaxyWalletPRV fname serializedData overwrite
  | .secret => Datastore.saveStringMlocked lib .galaxyWalletPRV fname serializedData overwrite
  | .fingerprint => raise (.runtimeError "Can not handle this crypto_use")

/-- Serializing does not concern the host. -/
private theorem exists_serializeBin_eq_fromOutcome (object : StoredObject) :
    ∃ r, ∀ {σ : Type}, (object.serializeBin : Program Exn σ Bytes) = fromOutcome r := by
  cases object with
  | pub m => exact exists_generate_eq_fromOutcome _
  | PRV m => exact exists_generate_eq_fromOutcome _
  | sign m =>
    obtain ⟨r, hr⟩ := exists_generate_eq_fromOutcome (do
      pushByteU (UInt8.ofNat CryptoSystemType.ed25519.value)
      pushVectorString (m.cryptolistsGeneral CryptoSystemType.ed25519.nr)
      pushByteU (UInt8.ofNat CryptoSystemType.ntruSign.value)
      pushVectorString (m.cryptolistsGeneral CryptoSystemType.ntruSign.nr))
    refine ⟨r, fun {σ} => ?_⟩
    rw [serializeBin, Multisign.serializeBin, Multisign.getSignatureVec_eq,
      Multisign.getSignatureVec_eq, pure_bind, pure_bind, hr]

/-- The store of a kind of objects. -/
def store (object : StoredObject) : Option Datastore :=
  match object.cryptoUse with
  | .open => some .galaxyPub
  | .secret => some .galaxyWalletPRV
  | .signature => some .galaxySig
  | .fingerprint => none

/-! ### Which files are written -/

variable {lib : PathLib} {store : Datastore} {fname data : Bytes} {overwrite : Bool} {host host₁ : Host}
  {IsData : Bytes → Prop}

/-- The file of a store under a name. -/
def OwnPath (lib : PathLib) (host : Host) (store : Datastore) (fname : Bytes) (path : Path) : Prop :=
  host.fullPath lib store (lib.filename fname) = some path ∧ host.InStore store path

/-- A run that saves data under a name opens and changes one file of the store, and no other; when it returns,
the data are there, or the user did not want the file to be overwritten. Only the state at the end of the run
is looked at, whether it returns or fails on the way. -/
structure KeepsToStore (lib : PathLib) (store : Datastore) (fname : Bytes) (IsData : Bytes → Prop)
    (overwrite : Bool) (host : Host) (p : Program Exn Host Unit) : Prop where
  opened : ∃ paths, (finalState p host).opened = paths ++ host.opened ∧
    ∀ path ∈ paths, OwnPath lib host store fname path
  entry : ∀ path, ¬ OwnPath lib host store fname path → (finalState p host).entry path = host.entry path
  saved : ∀ host', p host = .ok () host' → ∃ path data, OwnPath lib host store fname path ∧
    IsData data ∧ (host'.entry path = .regular data true ∨
      host.Refused path overwrite ∧ host'.entry path = host.entry path)

private theorem KeepsToStore.congr {p q : Program Exn Host Unit}
    (h : KeepsToStore lib store fname IsData overwrite host p) (heq : p host = q host) :
    KeepsToStore lib store fname IsData overwrite host q := by
  have hfinal : finalState p host = finalState q host := by rw [finalState, heq, finalState]
  refine ⟨hfinal ▸ h.opened, hfinal ▸ h.entry, ?_⟩
  rw [← heq]
  exact h.saved

private theorem KeepsToStore.congr_iff {p q : Program Exn Host Unit} (heq : p host = q host) :
    KeepsToStore lib store fname IsData overwrite host p ↔
      KeepsToStore lib store fname IsData overwrite host q :=
  ⟨fun h => h.congr heq, fun h => h.congr heq.symm⟩

/-- A run that fails at once opens nothing. -/
theorem keepsToStore_of_error {p : Program Exn Host Unit} {e : Fault Exn} (h : p host = .error e host) :
    KeepsToStore lib store fname IsData overwrite host p := by
  refine ⟨⟨[], ?_, fun _ hpath => absurd hpath List.not_mem_nil⟩, fun _ _ => ?_, ?_⟩
  · rw [finalState_of_error h, List.nil_append]
  · rw [finalState_of_error h]
  · intro host' hrun
    exact absurd (h.symm.trans hrun) (by simp)

/-- There is a name and a path for it, or not. -/
private theorem path_or_none (lib : PathLib) (host : Host) (store : Datastore) (fname : Bytes) :
    (fname ≠ [] → host.fullPath lib store (lib.filename fname) = none) ∨
      fname ≠ [] ∧ ∃ path, host.fullPath lib store (lib.filename fname) = some path := by
  by_cases hname : fname = []
  · exact .inl fun hne => absurd hname hne
  · cases hpath : host.fullPath lib store (lib.filename fname) with
    | none => exact .inl fun _ => rfl
    | some path => exact .inr ⟨hname, path, rfl⟩

/-- Each of the two functions that save keeps to the store that it is given. This is what the two cases with a
`break` come down to. -/
theorem keepsToStore_save {write : Path → Program Exn Host Unit} {failed : Exn}
    (hlib : lib.Lawful) (hstore : store.OfKeys) (hwrite : Datastore.Writes write data)
    (hdata : IsData data) :
    KeepsToStore lib store fname IsData overwrite host
      (Datastore.save lib write failed store fname overwrite) := by
  rcases path_or_none lib host store fname with hpath | ⟨hname, path, hpath⟩
  · obtain ⟨e, hrun⟩ := Datastore.save_of_no_path hpath
    exact keepsToStore_of_error hrun
  have hown : OwnPath lib host store fname path := ⟨hpath, Host.inStore_of_fullPath hlib hstore hpath⟩
  obtain ⟨host', hfinal, htouch, -, -, hreturns, hcontent⟩ :=
    Datastore.save_spec overwrite failed hwrite hname hpath
  obtain ⟨n, hn⟩ := htouch.opened
  refine ⟨⟨_, hfinal ▸ hn, fun other hother => ?_⟩, fun other hother => ?_, fun host₁ hrun => ?_⟩
  · rwa [List.eq_of_mem_replicate hother]
  · rw [hfinal]
    exact htouch.entry other fun heq => hother (heq ▸ hown)
  · obtain rfl : host₁ = host' := (finalState_of_ok hrun).symm.trans hfinal
    exact ⟨path, data, hown, hdata, hcontent (hreturns.mp hrun)⟩

/-- Saving under a name returns exactly when the file can be opened, or the user refuses. -/
theorem save_returns_iff {write : Path → Program Exn Host Unit} {failed : Exn}
    (hwrite : Datastore.Writes write data) :
    (∃ host', Datastore.save lib write failed store fname overwrite host = .ok () host') ↔
      host.CanSave lib store fname overwrite := by
  rcases path_or_none lib host store fname with hpath | ⟨hname, path, hpath⟩
  · obtain ⟨e, hrun⟩ := Datastore.save_of_no_path hpath
    refine iff_of_false ?_ ?_
    · rintro ⟨host', h⟩
      exact absurd (hrun.symm.trans h) (by simp)
    · rintro ⟨hname, path, hsome, -⟩
      rw [hpath hname] at hsome
      cases hsome
  obtain ⟨host', hfinal, -, -, -, hreturns, -⟩ :=
    Datastore.save_spec overwrite failed hwrite hname hpath
  constructor
  · rintro ⟨host₁, hrun⟩
    obtain rfl : host₁ = host' := (finalState_of_ok hrun).symm.trans hfinal
    exact ⟨hname, path, hpath, hreturns.mp hrun⟩
  · rintro ⟨-, path', hpath', hcan⟩
    obtain rfl : path = path' := Option.some.inj (hpath.symm.trans hpath')
    exact ⟨host', hreturns.mpr hcan⟩

/-- Saving under a name opens nothing exactly when the file cannot be opened, and then it changes
nothing. -/
theorem opened_save_iff {write : Path → Program Exn Host Unit} {failed : Exn}
    (hwrite : Datastore.Writes write data) :
    ((finalState (Datastore.save lib write failed store fname overwrite) host).opened = host.opened ↔
        ¬ host.CanOpen lib store fname) ∧
      (¬ host.CanOpen lib store fname →
        (finalState (Datastore.save lib write failed store fname overwrite) host).entry = host.entry) := by
  rcases path_or_none lib host store fname with hpath | ⟨hname, path, hpath⟩
  · obtain ⟨e, hrun⟩ := Datastore.save_of_no_path hpath
    rw [finalState_of_error hrun]
    refine ⟨iff_of_true rfl ?_, fun _ => rfl⟩
    rintro ⟨hname, path, hsome, -⟩
    rw [hpath hname] at hsome
    cases hsome
  obtain ⟨host', hfinal, -, hopened, hentry, -⟩ :=
    Datastore.save_spec overwrite failed hwrite hname hpath
  have hcan : host.CanOpen lib store fname ↔ host.Openable path := by
    constructor
    · rintro ⟨-, path', hpath', hopen⟩
      rwa [Option.some.inj (hpath.symm.trans hpath')]
    · exact fun hopen => ⟨hname, path, hpath, hopen⟩
  rw [hfinal, hcan]
  exact ⟨hopened, hentry⟩

/-- The file of the signatures is the only one that saving them has touched. -/
private theorem touches_of_saveString (hlib : lib.Lawful) {u : Unit}
    (hrun : Datastore.saveString lib .galaxySig fname data overwrite host = .ok u host₁) :
    ∃ path, host.InStore .galaxySig path ∧ Host.Touches path host host₁ := by
  have hwrite := Datastore.writes_writeString data
  have hcan : host.CanSave lib .galaxySig fname overwrite := (save_returns_iff hwrite).mp ⟨host₁, hrun⟩
  obtain ⟨hname, path, hpath, -⟩ := hcan
  obtain ⟨host₂, hfinal, htouch, -⟩ :=
    Datastore.save_spec overwrite (.runtimeError "Failed to save string") hwrite hname hpath
  obtain rfl : host₁ = host₂ := (finalState_of_ok hrun).symm.trans hfinal
  have hsig : host.InStore .galaxySig path := Host.inStore_of_fullPath hlib trivial hpath
  exact ⟨path, hsig, htouch⟩

private theorem inStore_iff_of_touches {path path' : Path} (h : Host.Touches path host host₁) :
    host₁.InStore store path' ↔ host.InStore store path' := by
  rw [Host.InStore, Host.InStore, Host.home, Host.home, h.homeDir, h.homeEnv]

/-- It does not matter for the wallet that a file of the signatures has been touched. -/
theorem canOpen_wallet_iff (hlib : lib.Lawful) {path : Path} (hsig : host.InStore .galaxySig path)
    (htouch : Host.Touches path host host₁) :
    host₁.CanOpen lib .galaxyWalletPRV fname ↔ host.CanOpen lib .galaxyWalletPRV fname := by
  simp only [Host.CanOpen, htouch.fullPath_eq]
  refine and_congr_right fun _ => exists_congr fun path' => and_congr_right fun hpath' => ?_
  refine htouch.openable_iff fun heq => ?_
  have hwallet : host.InStore .galaxyWalletPRV path' := Host.inStore_of_fullPath hlib trivial hpath'
  have hsig' : host.InStore .galaxySig path' := heq ▸ hsig
  exact absurd (hwallet.unique hsig' trivial trivial) (by decide)

/-- When the signatures have been saved, saving them once more opens a file of the wallet, if it can. -/
private theorem keepsToStore_signature_of_saved (hlib : lib.Lawful) (hdata : IsData data) {u : Unit}
    (hrun : Datastore.saveString lib .galaxySig fname data overwrite host = .ok u host₁) :
    KeepsToStore lib .galaxySig fname IsData overwrite host (do
      Datastore.saveString lib .galaxySig fname data overwrite
      Datastore.saveStringMlocked lib .galaxyWalletPRV fname data overwrite) ↔
      ¬ host.CanOpen lib .galaxyWalletPRV fname := by
  have hwrite' := Datastore.writes_writeStringMlocked data
  have hfirst : KeepsToStore lib .galaxySig fname IsData overwrite host
      (Datastore.saveString lib .galaxySig fname data overwrite) :=
    keepsToStore_save hlib trivial (Datastore.writes_writeString data) hdata
  have hkeep : KeepsToStore lib .galaxyWalletPRV fname IsData overwrite host₁
      (Datastore.saveStringMlocked lib .galaxyWalletPRV fname data overwrite) :=
    keepsToStore_save hlib trivial hwrite' hdata
  obtain ⟨path, hsig, htouch⟩ := touches_of_saveString hlib hrun
  have hsecond : ((finalState (Datastore.saveStringMlocked lib .galaxyWalletPRV fname data
      overwrite) host₁).opened = host₁.opened ↔ ¬ host₁.CanOpen lib .galaxyWalletPRV fname) ∧
      (¬ host₁.CanOpen lib .galaxyWalletPRV fname → (finalState (Datastore.saveStringMlocked lib
        .galaxyWalletPRV fname data overwrite) host₁).entry = host₁.entry) := opened_save_iff hwrite'
  rw [canOpen_wallet_iff hlib hsig htouch] at hsecond
  obtain ⟨hopened, hentry⟩ := hsecond
  obtain ⟨paths, hpaths, hown⟩ := hfirst.opened
  rw [finalState_of_ok hrun] at hpaths
  constructor
  · rintro ⟨⟨all, hall, hallOwn⟩, -, -⟩ hopen
    rw [finalState_bind_of_ok hrun] at hall
    obtain ⟨more, hmore, hmoreOwn⟩ := hkeep.opened
    -- the wallet's file is among those that were opened
    have hne : more ≠ [] := by
      rintro rfl
      exact absurd hopen (hopened.mp hmore)
    obtain ⟨path', hpath'⟩ := List.exists_mem_of_ne_nil _ hne
    have hin : path' ∈ all := by
      rw [hmore, hpaths, ← List.append_assoc, List.append_cancel_right_eq] at hall
      exact hall ▸ List.mem_append_left _ hpath'
    have hwallet := (inStore_iff_of_touches htouch).mp (hmoreOwn path' hpath').2
    exact absurd (hwallet.unique (hallOwn path' hin).2 trivial trivial) (by decide)
  · intro hclosed
    have hsame := hentry hclosed
    refine ⟨⟨paths, ?_, hown⟩, fun other hother => ?_, fun host' hrun' => ?_⟩
    · rw [finalState_bind_of_ok hrun, hopened.mpr hclosed, hpaths]
    · rw [finalState_bind_of_ok hrun, congrFun hsame, ← hfirst.entry other hother,
        finalState_of_ok hrun]
    · have hfinal := finalState_of_ok hrun'
      rw [finalState_bind_of_ok hrun] at hfinal
      rw [← hfinal, hsame]
      exact hfirst.saved host₁ hrun

/-- What the case of signatures does keeps to their store exactly when they cannot be saved, or the
wallet's file cannot be opened. -/
theorem keepsToStore_signature_iff (hlib : lib.Lawful) (hdata : IsData data) :
    KeepsToStore lib .galaxySig fname IsData overwrite host (do
      Datastore.saveString lib .galaxySig fname data overwrite
      Datastore.saveStringMlocked lib .galaxyWalletPRV fname data overwrite) ↔
      ¬ host.CanSave lib .galaxySig fname overwrite ∨ ¬ host.CanOpen lib .galaxyWalletPRV fname := by
  have hreturns : (∃ host₁, Datastore.saveString lib .galaxySig fname data overwrite host =
      .ok () host₁) ↔ host.CanSave lib .galaxySig fname overwrite :=
    save_returns_iff (Datastore.writes_writeString data)
  cases hsig : Datastore.saveString lib .galaxySig fname data overwrite host with
  | error e host₁ =>
    have hcan : ¬ host.CanSave lib .galaxySig fname overwrite := by
      rw [← hreturns, hsig]
      rintro ⟨_, h⟩
      cases h
    have hfirst : KeepsToStore lib .galaxySig fname IsData overwrite host
        (Datastore.saveString lib .galaxySig fname data overwrite) :=
      keepsToStore_save hlib trivial (Datastore.writes_writeString data) hdata
    exact iff_of_true (hfirst.congr (hsig.trans (bind_of_error hsig).symm)) (.inl hcan)
  | ok u host₁ =>
    have hcan := hreturns.mp ⟨host₁, hsig⟩
    rw [keepsToStore_signature_of_saved hlib hdata hsig]
    exact ⟨.inr, fun h => h.resolve_left (not_not.mpr hcan)⟩

/-- Saving an object writes the file of its kind under the name, and no other, exactly when it is not a set of
signatures, or it cannot be serialized, or the signatures cannot be saved, or the file of private keys under
the same name cannot be opened. In all other cases that file is opened behind the one of the signatures. -/
theorem keepsToStore_datastoreSave_iff (hlib : lib.Lawful) {object : StoredObject}
    (hstore : object.store = some store) :
    KeepsToStore lib store fname (fun data => object.serializeBin host = .ok data host) overwrite host
        (object.datastoreSave lib fname overwrite) ↔
      object.cryptoUse ≠ .signature ∨ (∀ data, object.serializeBin host ≠ .ok data host) ∨
        ¬ host.CanSave lib .galaxySig fname overwrite ∨
        ¬ host.CanOpen lib .galaxyWalletPRV fname := by
  -- Serializing does not look at the files, so it ends alike in every state.
  obtain ⟨r, hserialize⟩ := object.exists_serializeBin_eq_fromOutcome
  cases r with
  | error e =>
    have hrun : object.serializeBin host = .error e host := by rw [hserialize, fromOutcome]
    refine iff_of_true (keepsToStore_of_error (bind_of_error hrun)) (.inr (.inl fun data h => ?_))
    exact absurd (hrun.symm.trans h) (by simp)
  | ok data =>
    have hrun : object.serializeBin host = .ok data host := by rw [hserialize, fromOutcome]
    have hnot : ¬ ∀ data, object.serializeBin host ≠ .ok data host := fun h => h data hrun
    cases huse : object.cryptoUse with
    | «open» =>
      obtain rfl : .galaxyPub = store := by simpa [StoredObject.store, huse] using hstore
      have hsave : object.datastoreSave lib fname overwrite host =
          Datastore.saveString lib .galaxyPub fname data overwrite host := by
        rw [datastoreSave, bind_of_ok hrun, huse]
      have hkeep : KeepsToStore lib .galaxyPub fname (fun data => object.serializeBin host = .ok data host)
          overwrite host (Datastore.saveString lib .galaxyPub fname data overwrite) :=
        keepsToStore_save hlib trivial (Datastore.writes_writeString data) hrun
      exact iff_of_true (hkeep.congr hsave.symm) (.inl (by decide))
    | secret =>
      obtain rfl : .galaxyWalletPRV = store := by simpa [StoredObject.store, huse] using hstore
      have hsave : object.datastoreSave lib fname overwrite host =
          Datastore.saveStringMlocked lib .galaxyWalletPRV fname data overwrite host := by
        rw [datastoreSave, bind_of_ok hrun, huse]
      have hkeep : KeepsToStore lib .galaxyWalletPRV fname
          (fun data => object.serializeBin host = .ok data host) overwrite host
          (Datastore.saveStringMlocked lib .galaxyWalletPRV fname data overwrite) :=
        keepsToStore_save hlib trivial (Datastore.writes_writeStringMlocked data) hrun
      exact iff_of_true (hkeep.congr hsave.symm) (.inl (by decide))
    | signature =>
      obtain rfl : .galaxySig = store := by simpa [StoredObject.store, huse] using hstore
      -- The case for signatures has no `break` behind it, and goes on with the one for private keys.
      have hsave : object.datastoreSave lib fname overwrite host = (do
          Datastore.saveString lib .galaxySig fname data overwrite
          Datastore.saveStringMlocked lib .galaxyWalletPRV fname data overwrite) host := by
        rw [datastoreSave, bind_of_ok hrun, huse]
      rw [KeepsToStore.congr_iff hsave, keepsToStore_signature_iff hlib hrun]
      simp only [ne_eq, not_true_eq_false, hnot, false_or]
    | fingerprint => simp [StoredObject.store, huse] at hstore

/-- Names of POSIX paths, for the example: what follows the last separator. -/
def sampleLib : PathLib where
  filename path := (path.reverse.takeWhile (· ≠ slash)).reverse
  parentPath path := ((path.reverse.dropWhile (· ≠ slash)).drop 1).reverse

theorem lawful_sampleLib : sampleLib.Lawful := by
  intro path
  refine ⟨0, _, (List.nil_append _).symm, fun hmem => ?_⟩
  have hne := List.all_eq_true.mp List.all_takeWhile _ (List.mem_reverse.mp hmem)
  simp at hne

/-- A system where everything can be made, and nothing is there. -/
def sampleHost : Host where
  homeDir := ascii "/home/alice"
  homeEnv := none
  entry := fun _ => .absent
  dirAvailable := fun _ => true
  creatable := fun _ => true
  answers := []
  opened := []

/-- Public keys are saved in their store. -/
theorem keepsToStore_datastoreSave_example :
    KeepsToStore sampleLib .galaxyPub (ascii "bob")
      (fun data => (pub MultikeysPub.new).serializeBin sampleHost = .ok data sampleHost) false sampleHost
      ((pub MultikeysPub.new).datastoreSave sampleLib (ascii "bob") false) :=
  (keepsToStore_datastoreSave_iff lawful_sampleLib rfl).mpr (.inl (by decide))

/-- Signatures are not: they are saved in the wallet as well. -/
theorem not_keepsToStore_datastoreSave :
    ¬ ∀ (lib : PathLib) (object : StoredObject) (store : Datastore) (fname : Bytes) (overwrite : Bool)
      (host : Host), lib.Lawful → object.store = some store →
        KeepsToStore lib store fname (fun data => object.serializeBin host = .ok data host) overwrite host
          (object.datastoreSave lib fname overwrite) := by
  intro h
  obtain ⟨⟨paths, hopened, hown⟩, -, -⟩ :=
    h sampleLib (sign Multisign.new) .galaxySig (ascii "bob") false sampleHost lawful_sampleLib rfl
  have hmem : ascii "/home/alice/.config/antinet/galaxy42/wallet/bob.PRV" ∈
      (finalState ((sign Multisign.new).datastoreSave sampleLib (ascii "bob") false) sampleHost).opened := by
    decide +kernel
  rw [hopened] at hmem
  obtain ⟨hpath, -⟩ := hown _ (by simpa [sampleHost] using hmem)
  exact absurd hpath (by decide)

end StoredObject

end Galaxy42
