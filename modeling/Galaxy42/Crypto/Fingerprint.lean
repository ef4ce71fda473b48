import Galaxy42.Crypto.Multikeys
import Mathlib.Data.Finset.Powerset

/-!
# What the hash of a set of keys binds

`get_hash` hashes a string with one entry for each key system that has keys: its letter, and the
exclusive or of the hashes of its keys. The string can be read back (`fingerprintOctets_eq_iff`), so two
sets with the same string have keys of the same systems, with the same exclusive or in each.

That is all the string tells. Keys that occur twice cancel, so from any set with keys another one with
the same hash, and with the same virtual address, is made by adding one of its keys twice more. Two sets
whose keys have independent hashes are told apart unless they differ by such pairs; this takes a key that
occurs twice in a system (`DifferByPairs.exists_not_nodup`). `bindsKeys_iff` states both.

What is asked of the hash function is asked of a few strings only: the string that is hashed for the set
must have no collision with the one of any other set. For the second part the hashes of the keys of each
system, of both sets, must also be independent. The library `libOfSingle` has these properties for a set
with one key, so that the hypotheses can be met.

`get_hash` caches what it returns. `CacheValid` says that the cache is empty or right, and the results
about `readHash` are about such sets; a set just made or just loaded is one. Which operations keep the cache
valid is the subject of `HashCache`.
-/

namespace Galaxy42

open Toolkit Program TrivialSerialize

namespace MultiCryptoStrings

variable {σ : Type}

/-! ### The hashed string -/

/-- Every system with keys has a letter. -/
def HasLetters (m : MultiCryptoStrings) : Prop :=
  ∀ sys ∈ m.usedSystems, ∃ ID, CryptoSystemType.toID sys = .ok ID

/-- The letter of a system, if it has one. -/
def letter (sys : SystemNr) : Int8 :=
  match CryptoSystemType.toID sys with
  | .ok ID => ID
  | .error _ => 0

/-- The exclusive or of the hashes of the keys of one system. -/
def keyHashes (lib : CryptoLib) (keys : List Bytes) : Block hash1Size :=
  (keys.map lib.genericHash).sum

/-- The entries of the hashed string. -/
def fingerprintEntries (lib : CryptoLib) (m : MultiCryptoStrings) : List (Int8 × Bytes) :=
  m.usedSystems.map fun sys => (letter sys, (keyHashes lib (m.cryptolistsGeneral sys)).octets)

/-- The hashed string. -/
def fingerprintOctets (lib : CryptoLib) (m : MultiCryptoStrings) : Bytes :=
  magicMarker ++ [magicVersion] ++ [CryptoUse.fingerprint.value] ++ [1] ++
    (uvarintOctets (fingerprintEntries lib m).length ++
      (fingerprintEntries lib m).flatMap mapEntryOctets)

theorem mem_usedSystems {m : MultiCryptoStrings} {sys : SystemNr} :
    sys ∈ m.usedSystems ↔ m.cryptolistsGeneral sys ≠ [] := by
  simp [usedSystems, getCountKeysInSystem]

theorem hasLetters_new (cryptoUse : CryptoUse) : (new cryptoUse).HasLetters :=
  fun _ hsys => absurd rfl (mem_usedSystems.mp hsys)

/-- Keys of a system with a letter may be added. -/
theorem HasLetters.addKey {m : MultiCryptoStrings} (h : m.HasLetters) {type : SystemNr} {ID : Int8}
    (hID : CryptoSystemType.toID type = .ok ID) (key : Bytes) : (m.addKey type key).HasLetters := by
  intro sys hsys
  by_cases heq : sys = type
  · exact ⟨ID, heq ▸ hID⟩
  · have hother : (m.addKey type key).cryptolistsGeneral sys = m.cryptolistsGeneral sys :=
      Function.update_of_ne heq _ _
    exact h sys (mem_usedSystems.mpr (hother ▸ mem_usedSystems.mp hsys))

/-- The loop over the keys of a system. -/
theorem fingerprintAccum_eq (lib : CryptoLib) (pubkeys : List Bytes) :
    (fingerprintAccum lib pubkeys : Program Exn σ Bytes) =
      pure (keyHashes lib pubkeys).octets := by
  have hloop : ∀ (pubkeys : List Bytes) (b : Block hash1Size),
      (pubkeys.foldlM (fun fprAccum pk => binaryStringXor fprAccum (lib.hash1 pk)) b.octets :
        Program Exn σ Bytes) = pure (b + keyHashes lib pubkeys).octets := by
    intro pubkeys
    induction pubkeys with
    | nil => simp [keyHashes]
    | cons pk pubkeys ih =>
      intro b
      have hxor : (binaryStringXor b.octets (lib.hash1 pk) : Program Exn σ Bytes) =
          pure (b + lib.genericHash pk).octets := funext fun s => binaryStringXor_octets b _ s
      rw [List.foldlM_cons, hxor, pure_bind, ih]
      simp [keyHashes, add_assoc]
  have h := hloop pubkeys 0
  rw [zero_add] at h
  exact h

/-- A writer that depends on a letter: it fails for systems without one. -/
theorem emits_fromExcept_toID {sys : SystemNr} {w : Int8 → Generator Unit} {P : Prop} {out : Bytes}
    (h : Emits (w (letter sys)) P out) :
    Emits (fromExcept (CryptoSystemType.toID sys) >>= w)
      ((∃ ID, CryptoSystemType.toID sys = .ok ID) ∧ P) out := by
  unfold letter at h
  intro s s'
  cases hID : CryptoSystemType.toID sys with
  | ok ID =>
    rw [hID] at h
    simpa [fromExcept] using h s s'
  | error e => simp [fromExcept, bind_apply]

/-- One round of the loop over the key systems. -/
private theorem emits_pushFingerprint (lib : CryptoLib) (m : MultiCryptoStrings) (ix : SystemNr) :
    Emits (pushFingerprint lib m ix)
      (ix ∈ m.usedSystems → ∃ ID, CryptoSystemType.toID ix = .ok ID)
      (if ix ∈ m.usedSystems then
        mapEntryOctets (letter ix, (keyHashes lib (m.cryptolistsGeneral ix)).octets) else []) := by
  unfold pushFingerprint
  by_cases hix : ix ∈ m.usedSystems
  · have hcount : m.getCountKeysInSystem ix ≠ 0 := by simpa [usedSystems] using hix
    have hlen : (keyHashes lib (m.cryptolistsGeneral ix)).octets.length < uvarintLimit := by
      rw [Block.length_octets]
      decide
    rw [if_pos hcount, if_pos hix]
    refine (emits_fromExcept_toID (w := fun ID => do
      pushByteU ID.toUInt8
      let fprAccum ← fingerprintAccum lib (m.cryptolistsGeneral ix)
      pushVarstring fprAccum) (P := True) ?_).congr (by simp [hix]) fun _ => rfl
    rw [fingerprintAccum_eq, pure_bind]
    exact ((emits_pushByteU _).seq (emits_pushVarstring _)).congr
      ⟨fun _ => trivial, fun _ => ⟨trivial, hlen⟩⟩ fun _ => rfl
  · have hcount : ¬ m.getCountKeysInSystem ix ≠ 0 := by simpa [usedSystems] using hix
    rw [if_neg hcount, if_neg hix]
    exact Emits.pure.congr (by simp [hix]) fun _ => rfl

/-- A loop over all systems that does something only for those with keys. -/
theorem flatMap_usedSystems {α : Type} (m : MultiCryptoStrings) (f : SystemNr → List α) :
    (List.finRange systemCount).flatMap (fun ix => if ix ∈ m.usedSystems then f ix else []) =
      m.usedSystems.flatMap f := by
  have hfilter : ∀ syss : List SystemNr,
      syss.flatMap (fun ix => if ix ∈ m.usedSystems then f ix else []) =
        (syss.filter fun ix => m.getCountKeysInSystem ix ≠ 0).flatMap f := by
    intro syss
    induction syss with
    | nil => rfl
    | cons ix syss ih =>
      rw [List.flatMap_cons, ih]
      by_cases hix : m.getCountKeysInSystem ix = 0 <;> simp [usedSystems, hix]
  exact hfilter _

theorem length_usedSystems_le (m : MultiCryptoStrings) : m.usedSystems.length ≤ systemCount := by
  have hle := List.length_filter_le (fun ix => decide (m.getCountKeysInSystem ix ≠ 0))
    (List.finRange systemCount)
  rwa [List.length_finRange] at hle

theorem length_usedSystems_lt (m : MultiCryptoStrings) : m.usedSystems.length < uvarintLimit :=
  m.length_usedSystems_le.trans_lt (by decide)

/-- The string that is hashed exists exactly when every system with keys has a letter. -/
theorem fingerprintSerial_eq_ok_iff {lib : CryptoLib} {m : MultiCryptoStrings} {s s' : σ}
    {out : Bytes} :
    m.fingerprintSerial lib s = .ok out s' ↔
      m.HasLetters ∧ out = m.fingerprintOctets lib ∧ s = s' := by
  have hloop : Emits ((List.finRange systemCount).forM (pushFingerprint lib m)) m.HasLetters
      ((m.fingerprintEntries lib).flatMap mapEntryOctets) := by
    refine (Emits.forM (emits_pushFingerprint lib m) _).congr ?_ fun _ => ?_
    · exact ⟨fun h sys hsys => h sys (List.mem_finRange sys) hsys, fun h sys _ hsys => h sys hsys⟩
    · rw [flatMap_usedSystems, fingerprintEntries, List.flatMap_map]
  unfold fingerprintSerial
  rw [generate_eq_ok_iff_of_emits ((emits_pushBytesN 3 magicMarker).seq ((emits_pushByteU _).seq
    ((emits_pushByteU _).seq ((emits_pushByteU 1).seq ((emits_pushIntegerUvarint _).seq hloop)))))]
  simp [fingerprintOctets, fingerprintEntries, length_usedSystems_lt, magicMarker]

/-- The cache is empty, or holds the hash of the keys. A set whose hash cannot be made has a valid cache only
when it is empty. -/
def CacheValid (lib : CryptoLib) (m : MultiCryptoStrings) : Prop :=
  m.hashCached = [] ∨ m.HasLetters ∧ m.hashCached = lib.hash1 (m.fingerprintOctets lib)

/-- `update_hash` caches the hash of the keys. -/
theorem updateHash_eq_ok_iff {lib : CryptoLib} {m m' : MultiCryptoStrings} {u : Unit} :
    updateHash lib m = .ok u m' ↔
      m.HasLetters ∧ m' = { m with hashCached := lib.hash1 (m.fingerprintOctets lib) } := by
  simp only [updateHash, bind_eq_ok_iff, get_apply, EStateM.Result.ok.injEq]
  constructor
  · rintro ⟨_, _, ⟨rfl, rfl⟩, serial, _, hserial, h⟩
    obtain ⟨hletters, rfl, rfl⟩ := fingerprintSerial_eq_ok_iff.mp hserial
    exact ⟨hletters, (EStateM.Result.ok.inj h).2.symm⟩
  · rintro ⟨hletters, rfl⟩
    exact ⟨m, m, ⟨rfl, rfl⟩, _, _, fingerprintSerial_eq_ok_iff.mpr ⟨hletters, rfl, rfl⟩, rfl⟩

theorem hash1_ne_nil (lib : CryptoLib) (data : Bytes) : lib.hash1 data ≠ [] :=
  List.ne_nil_of_length_pos (by rw [CryptoLib.length_hash1]; norm_num)

/-- `get_hash` returns what is cached. -/
theorem getHash_of_cached (lib : CryptoLib) {m : MultiCryptoStrings} (h : m.hashCached ≠ []) :
    getHash lib m = .ok m.hashCached m := by
  rw [getHash, bind_of_ok (get_apply m), if_neg h]
  simp [bind_apply, assertThat_apply, h]

/-- `get_hash` fills an empty cache, and fails as the string that is hashed does. -/
theorem getHash_of_empty {lib : CryptoLib} {m : MultiCryptoStrings} {r : Except (Fault Exn) Bytes}
    (h : m.hashCached = [])
    (hserial : (m.fingerprintSerial lib : Program Exn MultiCryptoStrings Bytes) = fromOutcome r) :
    getHash lib m = match r with
      | .ok serial => .ok (lib.hash1 serial) { m with hashCached := lib.hash1 serial }
      | .error e => .error e m := by
  rw [getHash, bind_of_ok (get_apply m), if_pos h]
  cases r with
  | ok serial =>
    have hupdate : updateHash lib m = .ok () { m with hashCached := lib.hash1 serial } := by
      rw [updateHash, bind_of_ok (get_apply m), hserial]
      rfl
    rw [bind_of_ok hupdate]
    simp [bind_apply, assertThat_apply, hash1_ne_nil]
  | error e =>
    have hupdate : updateHash lib m = .error e m := by
      rw [updateHash, bind_of_ok (get_apply m), hserial]
      rfl
    rw [bind_of_error hupdate]

/-- The string that is hashed does not depend on the state. -/
theorem exists_fingerprintSerial_eq (lib : CryptoLib) (m : MultiCryptoStrings) :
    ∃ r, ∀ {σ : Type}, (m.fingerprintSerial lib : Program Exn σ Bytes) = fromOutcome r :=
  exists_generate_eq_fromOutcome _

/-- `get_hash` returns the hash of the keys, and caches it. -/
theorem getHash_eq_ok_iff {lib : CryptoLib} {m m' : MultiCryptoStrings} (hcache : m.CacheValid lib)
    {hash : Bytes} :
    getHash lib m = .ok hash m' ↔
      m.HasLetters ∧ hash = lib.hash1 (m.fingerprintOctets lib) ∧
        m' = { m with hashCached := hash } := by
  rcases hcache with hfresh | ⟨hletters, hcached⟩
  · obtain ⟨r, hserial⟩ := exists_fingerprintSerial_eq lib m
    have hiff : ∀ serial, r = .ok serial ↔ m.HasLetters ∧ serial = m.fingerprintOctets lib := by
      intro serial
      have hok : m.fingerprintSerial lib m = .ok serial m ↔
          m.HasLetters ∧ serial = m.fingerprintOctets lib ∧ m = m := fingerprintSerial_eq_ok_iff
      rw [hserial, fromOutcome_eq_ok_iff] at hok
      simpa using hok
    rw [getHash_of_empty hfresh hserial]
    cases r with
    | ok serial =>
      obtain ⟨hletters, rfl⟩ := (hiff serial).mp rfl
      constructor
      · intro h
        obtain ⟨rfl, rfl⟩ := EStateM.Result.ok.inj h
        exact ⟨hletters, rfl, rfl⟩
      · rintro ⟨-, rfl, rfl⟩
        rfl
    | error e =>
      refine iff_of_false (fun h => nomatch h) ?_
      rintro ⟨hletters, -⟩
      exact absurd ((hiff _).mpr ⟨hletters, rfl⟩) (fun h => nomatch h)
  · have hfull : m.hashCached ≠ [] := hcached ▸ hash1_ne_nil lib _
    rw [getHash_of_cached lib hfull]
    constructor
    · intro h
      obtain ⟨rfl, rfl⟩ := EStateM.Result.ok.inj h
      exact ⟨hletters, hcached, rfl⟩
    · rintro ⟨-, rfl, rfl⟩
      rw [← hcached]

/-- The hash of a set of keys that is only read. -/
theorem readHash_eq_ok_iff {lib : CryptoLib} {m : MultiCryptoStrings} (hcache : m.CacheValid lib)
    {s s' : σ} {hash : Bytes} :
    m.readHash lib s = .ok hash s' ↔
      m.HasLetters ∧ hash = lib.hash1 (m.fingerprintOctets lib) ∧ s = s' := by
  simp only [readHash, within_eq_ok_iff, getHash_eq_ok_iff hcache]
  constructor
  · rintro ⟨⟨_, hletters, hhash, -⟩, rfl⟩
    exact ⟨hletters, hhash, rfl⟩
  · rintro ⟨hletters, hhash, rfl⟩
    exact ⟨⟨_, hletters, hhash, rfl⟩, rfl⟩

/-! ### Reading the string back -/

/-- Reads the entries of a hashed string. -/
def popEntries : Parser (List (Int8 × Bytes)) := do
  let n ← popIntegerUvarint
  replicateM (do
    let ID ← (objDeserialize : Parser Int8)
    let fpr ← popVarstring
    return (ID, fpr)) n

private theorem reads_popEntries (lib : CryptoLib) (m : MultiCryptoStrings) :
    Reads popEntries (uvarintOctets (fingerprintEntries lib m).length ++
      (fingerprintEntries lib m).flatMap mapEntryOctets) (fingerprintEntries lib m) := by
  have hlen : (fingerprintEntries lib m).length < uvarintLimit := by
    rw [fingerprintEntries, List.length_map]
    exact m.length_usedSystems_lt
  refine (reads_popIntegerUvarint hlen).bind (Reads.replicateM fun pair hpair => ?_)
  have hsane : pair.2.length ≤ saneMaxSizeForString := by
    obtain ⟨sys, -, rfl⟩ := List.mem_map.mp hpair
    rw [Block.length_octets]
    decide
  exact (LawfulObj.reads pair.1 trivial trivial).bind
    ((reads_popVarstring hsane).map (g := fun fpr => (pair.1, fpr)))

/-- Different systems have different letters. -/
private theorem letter_inj {sys sys' : SystemNr} {ID ID' : Int8} (h : CryptoSystemType.toID sys = .ok ID)
    (h' : CryptoSystemType.toID sys' = .ok ID') (heq : letter sys = letter sys') : sys = sys' := by
  rw [letter, letter, h, h'] at heq
  obtain rfl : ID = ID' := heq
  obtain ⟨type, hsys, htype⟩ := CryptoSystemType.fromID_of_toID h
  obtain ⟨type', hsys', htype'⟩ := CryptoSystemType.fromID_of_toID h'
  obtain rfl : type = type' := Except.ok.inj (htype.symm.trans htype')
  rw [← CryptoSystemType.nr_of_ofInt hsys, ← CryptoSystemType.nr_of_ofInt hsys']

/-- The string determines its entries. -/
private theorem fingerprintEntries_eq_of_octets_eq {lib : CryptoLib} {m m' : MultiCryptoStrings}
    (heq : m.fingerprintOctets lib = m'.fingerprintOctets lib) :
    m.fingerprintEntries lib = m'.fingerprintEntries lib := by
  rw [fingerprintOctets, fingerprintOctets, List.append_cancel_left_eq] at heq
  have h := (reads_popEntries lib m).apply_start []
  rw [heq, (reads_popEntries lib m').apply_start []] at h
  exact (EStateM.Result.ok.inj h).1.symm

/-- The entry of a system with keys tells the exclusive or of their hashes. -/
private theorem keyHashes_eq_of_entries_eq {lib : CryptoLib} {m m' : MultiCryptoStrings}
    (h : m.HasLetters) (h' : m'.HasLetters)
    (heq : m.fingerprintEntries lib = m'.fingerprintEntries lib) {sys : SystemNr}
    (hsys : sys ∈ m.usedSystems) :
    sys ∈ m'.usedSystems ∧
      keyHashes lib (m.cryptolistsGeneral sys) = keyHashes lib (m'.cryptolistsGeneral sys) := by
  have hmem : (letter sys, (keyHashes lib (m.cryptolistsGeneral sys)).octets) ∈
      m'.fingerprintEntries lib := heq ▸ List.mem_map_of_mem hsys
  obtain ⟨sys', hsys', hentry⟩ := List.mem_map.mp hmem
  obtain ⟨hletter, hhashes⟩ := Prod.mk.inj hentry
  obtain ⟨ID, hID⟩ := h sys hsys
  obtain ⟨ID', hID'⟩ := h' sys' hsys'
  obtain rfl := letter_inj hID' hID hletter
  exact ⟨hsys', (Subtype.ext hhashes).symm⟩

/-- Two sets hash the same string exactly when they have keys of the same systems, with the same
exclusive or of hashes in each. -/
theorem fingerprintOctets_eq_iff {lib : CryptoLib} {m m' : MultiCryptoStrings}
    (h : m.HasLetters) (h' : m'.HasLetters) :
    m.fingerprintOctets lib = m'.fingerprintOctets lib ↔
      ∀ sys, (m.cryptolistsGeneral sys = [] ↔ m'.cryptolistsGeneral sys = []) ∧
        keyHashes lib (m.cryptolistsGeneral sys) = keyHashes lib (m'.cryptolistsGeneral sys) := by
  constructor
  · intro heq sys
    have hentries := fingerprintEntries_eq_of_octets_eq heq
    by_cases hsys : m.cryptolistsGeneral sys = []
    · have hsys' : m'.cryptolistsGeneral sys = [] := by
        by_contra hne
        exact mem_usedSystems.mp (keyHashes_eq_of_entries_eq h' h hentries.symm
          (mem_usedSystems.mpr hne)).1 hsys
      rw [hsys, hsys']
      exact ⟨Iff.rfl, rfl⟩
    · obtain ⟨hsys', hhashes⟩ :=
        keyHashes_eq_of_entries_eq h h' hentries (mem_usedSystems.mpr hsys)
      exact ⟨iff_of_false hsys (mem_usedSystems.mp hsys'), hhashes⟩
  · intro heq
    have hused : m.usedSystems = m'.usedSystems := by
      unfold usedSystems getCountKeysInSystem
      refine List.filter_congr fun sys _ => ?_
      simp [(heq sys).1]
    have hentries : m.fingerprintEntries lib = m'.fingerprintEntries lib := by
      unfold fingerprintEntries
      rw [hused]
      exact List.map_congr_left fun sys _ => by rw [(heq sys).2]
    rw [fingerprintOctets, fingerprintOctets, hentries]

/-! ### What the hash binds -/

/-- When both sets have the hash `hash`, they have the same keys of each system. The order of the keys in a
system does not matter. A set whose hash cannot be made binds everything, as it has none. -/
def BindsKeys (lib : CryptoLib) (m m' : MultiCryptoStrings) : Prop :=
  ∀ hash, m.readHash lib () = .ok hash () → m'.readHash lib () = .ok hash () →
    ∀ sys, (m.cryptolistsGeneral sys).Perm (m'.cryptolistsGeneral sys)

/-- The two sets have keys of the same systems, and each key an even number of times in both together, but
some key occurs in one more often than in the other. These are the sets that the exclusive or cannot tell
apart, whatever the hash function is. -/
def DifferByPairs (m m' : MultiCryptoStrings) : Prop :=
  (∀ sys, (m.cryptolistsGeneral sys = [] ↔ m'.cryptolistsGeneral sys = []) ∧
    ∀ key, Even ((m.cryptolistsGeneral sys).count key + (m'.cryptolistsGeneral sys).count key)) ∧
  ∃ sys key, (m.cryptolistsGeneral sys).count key ≠ (m'.cryptolistsGeneral sys).count key

/-- Sets differ by pairs only when some key occurs twice in a system of one of them. So sets without repeated
keys never differ by pairs. -/
theorem DifferByPairs.exists_not_nodup {m m' : MultiCryptoStrings} (h : DifferByPairs m m') :
    ∃ sys, ¬ (m.cryptolistsGeneral sys).Nodup ∨ ¬ (m'.cryptolistsGeneral sys).Nodup := by
  obtain ⟨hsys, sys, key, hne⟩ := h
  refine ⟨sys, ?_⟩
  by_contra hnodup
  rw [not_or, not_not, not_not] at hnodup
  exact hne ((perm_of_even_count hnodup.1 hnodup.2 (hsys sys).2).count_eq key)

/-- A set with keys of the same systems as another one has letters for them as well. -/
private theorem HasLetters.of_eq_nil_iff {m m' : MultiCryptoStrings} (h : m.HasLetters)
    (hsys : ∀ sys, m.cryptolistsGeneral sys = [] ↔ m'.cryptolistsGeneral sys = []) :
    m'.HasLetters :=
  fun sys hused => h sys (mem_usedSystems.mpr (mt (hsys sys).mp (mem_usedSystems.mp hused)))

section Binding

variable {lib : CryptoLib} {m m' : MultiCryptoStrings}

/-- Two sets have the same hash exactly when their systems have letters, and they have keys of the same
systems, with the same exclusive or of hashes in each. -/
private theorem exists_readHash_eq_iff (hfresh : m.hashCached = []) (hfresh' : m'.hashCached = [])
    (hinj : lib.hash1 (m.fingerprintOctets lib) = lib.hash1 (m'.fingerprintOctets lib) →
      m.fingerprintOctets lib = m'.fingerprintOctets lib) :
    (∃ hash, m.readHash lib () = .ok hash () ∧ m'.readHash lib () = .ok hash ()) ↔
      m.HasLetters ∧
        ∀ sys, (m.cryptolistsGeneral sys = [] ↔ m'.cryptolistsGeneral sys = []) ∧
          keyHashes lib (m.cryptolistsGeneral sys) = keyHashes lib (m'.cryptolistsGeneral sys) := by
  simp only [readHash_eq_ok_iff (.inl hfresh), readHash_eq_ok_iff (.inl hfresh'), and_true]
  constructor
  · rintro ⟨_, ⟨h, rfl⟩, h', heq⟩
    exact ⟨h, (fingerprintOctets_eq_iff h h').mp (hinj heq)⟩
  · rintro ⟨h, heq⟩
    have h' : m'.HasLetters := h.of_eq_nil_iff fun sys => (heq sys).1
    exact ⟨_, ⟨h, rfl⟩, h', by rw [(fingerprintOctets_eq_iff h h').mpr heq]⟩

/-- The set with a key of it twice more. -/
private theorem keyHashes_addKey_twice (type sys : SystemNr) (key : Bytes) :
    keyHashes lib (((m.addKey type key).addKey type key).cryptolistsGeneral sys) =
      keyHashes lib (m.cryptolistsGeneral sys) := by
  by_cases hsys : sys = type
  · subst hsys
    simp [addKey, keyHashes, Block.add_self]
  · simp [addKey, hsys]

/-- Which sets of keys are bound by their hash, when `Hash1` has no collision with what is hashed for
the set: by adding a key that it has twice more, another set is made with the same hash, so none but
those without keys. Two given sets whose keys have independent hashes are told apart by them unless they
differ by pairs of equal keys. -/
theorem bindsKeys_iff (hfresh : m.hashCached = [])
    (hinj : ∀ m' : MultiCryptoStrings,
      lib.hash1 (m.fingerprintOctets lib) = lib.hash1 (m'.fingerprintOctets lib) →
        m.fingerprintOctets lib = m'.fingerprintOctets lib) :
    ((∀ m' : MultiCryptoStrings, m'.hashCached = [] → BindsKeys lib m m') ↔
      (∀ sys, m.cryptolistsGeneral sys = []) ∨ ¬ m.HasLetters) ∧
    ∀ m' : MultiCryptoStrings, m'.hashCached = [] →
      (∀ sys, Independent lib.genericHash (m.cryptolistsGeneral sys ++ m'.cryptolistsGeneral sys)) →
        (BindsKeys lib m m' ↔ ¬ DifferByPairs m m' ∨ ¬ m.HasLetters) := by
  refine ⟨⟨fun h => ?_, fun h m' hfresh' hash hm hm' sys => ?_⟩, fun m' hfresh' hindep => ?_⟩
  · by_contra hnot
    rw [not_or, not_forall, not_not] at hnot
    obtain ⟨⟨type, htype⟩, hletters⟩ := hnot
    obtain ⟨key, keys, hkeys⟩ := List.exists_cons_of_ne_nil htype
    -- The set with the key twice more has keys of the same systems.
    have hsystems : ∀ sys, m.cryptolistsGeneral sys = [] ↔
        ((m.addKey type key).addKey type key).cryptolistsGeneral sys = [] := by
      intro sys
      by_cases hsys : sys = type
      · subst hsys
        exact iff_of_false htype (by simp [addKey])
      · simp [addKey, hsys]
    have hadded : ((m.addKey type key).addKey type key).hashCached = [] := hfresh
    have hsame : ∃ hash, m.readHash lib () = .ok hash () ∧
        ((m.addKey type key).addKey type key).readHash lib () = .ok hash () :=
      (exists_readHash_eq_iff hfresh hadded (hinj _)).mpr
        ⟨hletters, fun sys => ⟨hsystems sys, (keyHashes_addKey_twice type sys key).symm⟩⟩
    obtain ⟨hash, hm, hm'⟩ := hsame
    have hlength := (h _ hadded hash hm hm' type).length_eq
    simp [addKey] at hlength
  · obtain ⟨hletters, hsys⟩ := (exists_readHash_eq_iff hfresh hfresh' (hinj m')).mp ⟨hash, hm, hm'⟩
    rcases h with hnone | hno
    · rw [hnone sys, (hsys sys).1.mp (hnone sys)]
    · exact absurd hletters hno
  · have hsame := exists_readHash_eq_iff hfresh hfresh' (hinj m')
    simp only [keyHashes, sum_map_eq_iff Block.add_self (hindep _)] at hsame
    constructor
    · intro hbinds
      rw [← not_and_or]
      rintro ⟨⟨hsys, sys, key, hne⟩, hletters⟩
      obtain ⟨hash, hm, hm'⟩ := hsame.mpr ⟨hletters, hsys⟩
      exact hne ((hbinds hash hm hm' sys).count_eq key)
    · rintro hcond hash hm hm' sys
      obtain ⟨hletters, hsys⟩ := hsame.mp ⟨hash, hm, hm'⟩
      rw [List.perm_iff_count]
      intro key
      by_contra hne
      exact hcond.elim (fun hdiffer => hdiffer ⟨hsys, sys, key, hne⟩) (fun hno => hno hletters)

end Binding

/-- One key. -/
def single (key : Bytes) : MultiCryptoStrings :=
  (new .open).addKey CryptoSystemType.x25519.nr key

private theorem cryptolistsGeneral_single (key : Bytes) (sys : SystemNr) :
    (single key).cryptolistsGeneral sys = if sys = CryptoSystemType.x25519.nr then [key] else [] := by
  by_cases hsys : sys = CryptoSystemType.x25519.nr
  · subst hsys
    rfl
  · simp [single, addKey, new, hsys]

/-- A library whose hash of the string of the key `[1]` is not the hash of any other string that
begins with the magic marker. -/
def libOfSingle : CryptoLib :=
  { CryptoLib.sample with
    genericHash := fun data =>
      if data = (single [1]).fingerprintOctets CryptoLib.sample then
        ⟨List.replicate hash1Size 1, List.length_replicate⟩
      else CryptoLib.sample.genericHash data }

private theorem genericHash_of_ne {data : Bytes}
    (h : data ≠ (single [1]).fingerprintOctets CryptoLib.sample) :
    libOfSingle.genericHash data = CryptoLib.sample.genericHash data :=
  if_neg h

private theorem fingerprintOctets_single :
    (single [1]).fingerprintOctets libOfSingle =
      (single [1]).fingerprintOctets CryptoLib.sample := by decide

/-- The hash of the key `[1]` is not the hash of another set of keys. -/
private theorem fingerprintOctets_eq_of_hash1_eq (m' : MultiCryptoStrings)
    (h : libOfSingle.hash1 ((single [1]).fingerprintOctets libOfSingle) =
      libOfSingle.hash1 (m'.fingerprintOctets libOfSingle)) :
    (single [1]).fingerprintOctets libOfSingle = m'.fingerprintOctets libOfSingle := by
  by_contra hne
  rw [fingerprintOctets_single] at h hne
  have hhash : libOfSingle.hash1 ((single [1]).fingerprintOctets CryptoLib.sample) =
      List.replicate hash1Size 1 := by decide
  have hother : libOfSingle.hash1 (m'.fingerprintOctets libOfSingle) =
      CryptoLib.sample.hash1 (m'.fingerprintOctets libOfSingle) := by
    rw [CryptoLib.hash1, CryptoLib.hash1, genericHash_of_ne (Ne.symm hne)]
  have hhead : (CryptoLib.sample.hash1 (m'.fingerprintOctets libOfSingle)).head? = some 71 := rfl
  rw [← hother, ← h, hhash] at hhead
  exact absurd hhead (by decide)

private theorem independent_one_two : Independent libOfSingle.genericHash [[1], [2]] := by
  have hall : ∀ s ∈ ({[1], [2]} : Finset Bytes).powerset,
      ∑ c ∈ s, libOfSingle.genericHash c = 0 → s = ∅ := by decide
  exact fun s hs => hall s (Finset.mem_powerset.mpr fun c hc => by simpa using hs c hc)

/-- The hash of one key does not bind it, but tells it from any other single key. -/
theorem bindsKeys_iff_example :
    (¬ ∀ m' : MultiCryptoStrings, m'.hashCached = [] → BindsKeys libOfSingle (single [1]) m') ∧
      BindsKeys libOfSingle (single [1]) (single [2]) := by
  have hletters : (single [1]).HasLetters := (hasLetters_new .open).addKey rfl [1]
  have hboth := @bindsKeys_iff libOfSingle (single [1]) rfl fingerprintOctets_eq_of_hash1_eq
  constructor
  · rw [hboth.1]
    rintro (hnone | hno)
    · exact absurd (hnone CryptoSystemType.x25519.nr) (by decide)
    · exact hno hletters
  · refine (hboth.2 (single [2]) rfl fun sys => independent_one_two.mono ?_).mpr (.inl ?_)
    · rw [cryptolistsGeneral_single, cryptolistsGeneral_single]
      split <;> simp
    · intro hdiffer
      exact absurd ((hdiffer.1 CryptoSystemType.x25519.nr).2 [1]) (by decide)

/-- The strings that are hashed on the way to the hash of a set of keys. -/
def hashedStrings (lib : CryptoLib) (m : MultiCryptoStrings) : Set Bytes :=
  {data | data = m.fingerprintOctets lib ∨ ∃ sys, data ∈ m.cryptolistsGeneral sys}

/-- A key that occurs twice. -/
def twice (key : Bytes) : MultiCryptoStrings :=
  ((new .open).addKey CryptoSystemType.x25519.nr key).addKey CryptoSystemType.x25519.nr key

private theorem cryptolistsGeneral_twice (key : Bytes) (sys : SystemNr) :
    (twice key).cryptolistsGeneral sys =
      if sys = CryptoSystemType.x25519.nr then [key, key] else [] := by
  by_cases hsys : sys = CryptoSystemType.x25519.nr
  · subst hsys
    rw [if_pos rfl]
    rfl
  · simp [twice, addKey, new, hsys]

private theorem hasLetters_twice (key : Bytes) : (twice key).HasLetters :=
  ((hasLetters_new .open).addKey rfl key).addKey rfl key

/-- A key that occurs twice may be replaced by any other. -/
private theorem fingerprintOctets_twice (lib : CryptoLib) (key key' : Bytes) :
    (twice key).fingerprintOctets lib = (twice key').fingerprintOctets lib := by
  refine (fingerprintOctets_eq_iff (hasLetters_twice key) (hasLetters_twice key')).mpr fun sys => ?_
  rw [cryptolistsGeneral_twice, cryptolistsGeneral_twice]
  by_cases hsys : sys = CryptoSystemType.x25519.nr
  · simp [hsys, keyHashes, Block.add_self]
  · simp [hsys]

/-- Two sets with different keys, each twice, have the same hash. -/
theorem not_perm_of_readHash_eq :
    ¬ ∀ (lib : CryptoLib) (m m' : MultiCryptoStrings), m.hashCached = [] → m'.hashCached = [] →
      Set.InjOn lib.hash1 (m.hashedStrings lib ∪ m'.hashedStrings lib) →
      ∀ hash, m.readHash lib () = .ok hash () → m'.readHash lib () = .ok hash () →
        ∀ sys, (m.cryptolistsGeneral sys).Perm (m'.cryptolistsGeneral sys) := by
  intro h
  have hinj : Set.InjOn CryptoLib.sample.hash1
      ((twice [1]).hashedStrings CryptoLib.sample ∪ (twice [2]).hashedStrings CryptoLib.sample) := by
    have hmem : ∀ data ∈ (twice [1]).hashedStrings CryptoLib.sample ∪
        (twice [2]).hashedStrings CryptoLib.sample,
        data ∈ [(twice [1]).fingerprintOctets CryptoLib.sample, [1], [2]] := by
      rintro data ((rfl | ⟨sys, hdata⟩) | (rfl | ⟨sys, hdata⟩))
      · simp
      · rw [cryptolistsGeneral_twice] at hdata
        split at hdata <;> simp_all
      · simp [fingerprintOctets_twice CryptoLib.sample [2] [1]]
      · rw [cryptolistsGeneral_twice] at hdata
        split at hdata <;> simp_all
    have hdistinct : ∀ data ∈ [(twice [1]).fingerprintOctets CryptoLib.sample, [1], [2]],
        ∀ data' ∈ [(twice [1]).fingerprintOctets CryptoLib.sample, [1], [2]],
          CryptoLib.sample.hash1 data = CryptoLib.sample.hash1 data' → data = data' := by decide
    exact fun data hdata data' hdata' => hdistinct data (hmem data hdata) data' (hmem data' hdata')
  have hhash : (twice [2]).readHash CryptoLib.sample () =
      .ok (CryptoLib.sample.hash1 ((twice [1]).fingerprintOctets CryptoLib.sample)) () :=
    (readHash_eq_ok_iff (.inl rfl)).mpr
      ⟨hasLetters_twice [2], by rw [fingerprintOctets_twice _ [1] [2]], rfl⟩
  have hperm := h CryptoLib.sample (twice [1]) (twice [2]) rfl rfl hinj _
    ((readHash_eq_ok_iff (.inl rfl)).mpr ⟨hasLetters_twice [1], rfl, rfl⟩) hhash
    CryptoSystemType.x25519.nr
  exact absurd (hperm.mem_iff (a := [1])) (by decide)

end MultiCryptoStrings

end Galaxy42
