import Mathlib.Data.List.Sort
import Galaxy42.Crypto.MalformedKeys
import Galaxy42.Crypto.SerializedKeys
import Galaxy42.TrivialSerialize.Syntax

/-!
# The syntax of serialized keys

`load_from_bin` takes more than `serialize_bin` writes. It accepts exactly the data that have a tree
(`loadFromBin_eq_ok_iff`): numbers in any form, systems in any order and any number of times, empty
lists of keys, and numbers of systems of which only the last octet counts. Of these data, those are
written back as they were whose tree is canonical (`serializeBin_of_loadFromBin_iff`).

The loop is one template over the type of the keys (`loadFromBinOf`), because the class is compiled for
ordinary strings and for strings in locked memory. Of an object it uses three things only: what it is
used for, how the keys of one system are put into it, and how its hash is marked dirty. For any of these
it is shown once what is accepted (`loadFromBinOf_eq_ok_iff`) and what a failure on the way leaves
(`loadFromBinOf_of_eq_error`).

What is loaded replaces the keys of the systems in the data, and only those, so that keys of other
systems survive a reload (`MultiCryptoStrings.lists_load_iff`). Signatures are even added to the ones
that are there (`Multisign.lists_load_iff`).
-/

namespace Galaxy42

open Toolkit Program TrivialSerialize

variable {σ : Type}

namespace MultiCryptoStrings

/-! ### The template -/

section Template

variable {μ κ : Type} (cryptoUse : μ → CryptoUse) (setHashDirty : μ → μ) (popKeys : Parser κ)
  (put : μ → SystemNr × κ → μ)

/-- The reads of one round of the loop of `load_from_bin`. -/
def popSystemOf : Parser (SystemNr × κ) := do
  let number ← popIntegerUvarint
  let sysId ← fromExcept (CryptoSystemType.fromID (UInt8.ofNat number).toInt8)
  let sysKeys ← popKeys
  return (sysId.nr, sysKeys)

/-- The reads of `load_from_bin` in front of the systems: how many there are. -/
def popHeader (cryptoUse : CryptoUse) : Parser ℕ := do
  let magic ← popBytesN 3
  checkThat (magic = magicMarker) (.runtimeError "Format incorrect: bad magic marker for GMK")
  let version ← popByteU
  let magicCryptoUse ← popByteU
  checkThat (magicCryptoUse = cryptoUse.value) (.runtimeError
    s!"Format error: crypto_use was={magicCryptoUse} but we expected={cryptoUse.value}")
  checkThat (version = magicVersion) .formatErrorReadInvalidVersion
  let mapSize ← popIntegerUvarint
  assertThat (mapSize ≤ 100)
  return mapSize

/-- `load_from_bin`, for any type of keys: of an object only its use matters here, how the keys of a
system are replaced (`put`), and how its hash is marked dirty. -/
def loadFromBinOf (data : Bytes) : Program Exn μ Unit := do
  let parser ← parserOfString data
  withLocal parser do
    let m ← onSnd get
    let mapSize ← onFst (popHeader (cryptoUse m))
    let _ ← replicateM (readPut (popSystemOf popKeys) put) mapSize
    let atEnd ← onFst isEnd
    checkThat (atEnd = true) (.runtimeError "Format incorrect: extra elements at end")
    onSnd (modify setHashDirty)

variable {cryptoUse setHashDirty popKeys put}

/-- The data in front of the systems are the header, and a number of systems. -/
theorem popHeader_eq_ok_iff {use : CryptoUse} {data : Bytes} {mapSize : ℕ} {c : Cursor UInt8} :
    popHeader use (.start data) = .ok mapSize c ↔ ∃ rest, data = headerOctets use ++ rest ∧
      popIntegerUvarint (.between (headerOctets use) rest) = .ok mapSize c ∧ mapSize ≤ 100 := by
  simp only [popHeader, bind_eq_ok_iff, checkThat_eq_ok_iff, assertThat_eq_ok_iff, pure_apply,
    EStateM.Result.ok.injEq]
  constructor
  · rintro ⟨magic, c₁, hmagic, _, _, ⟨hmarker, rfl⟩, version, c₂, hversion, magicUse, c₃, huse, _, _,
      ⟨huse', rfl⟩, _, _, ⟨hversion', rfl⟩, _, _, hsize, _, _, ⟨hle, rfl⟩, rfl, rfl⟩
    obtain ⟨rest, rfl, rfl⟩ := header_eq_ok_iff.mp
      ⟨magic, c₁, hmagic, hmarker, version, c₂, hversion, magicUse, huse, huse', hversion'⟩
    exact ⟨rest, rfl, hsize, hle⟩
  · rintro ⟨rest, hdata, hsize, hle⟩
    obtain ⟨magic, c₁, hmagic, hmarker, version, c₂, hversion, magicUse, huse, huse', hversion'⟩ :=
      header_eq_ok_iff.mpr ⟨rest, hdata, rfl⟩
    exact ⟨magic, c₁, hmagic, (), _, ⟨hmarker, rfl⟩, version, c₂, hversion, magicUse, _, huse, (), _,
      ⟨huse', rfl⟩, (), _, ⟨hversion', rfl⟩, mapSize, c, hsize, (), _, ⟨hle, rfl⟩, rfl, rfl⟩

/-- Data are accepted when, behind the right header, as many systems can be read as they announce, and
nothing follows. -/
theorem loadFromBinOf_eq_ok_iff {data : Bytes} {m m' : μ} {u : Unit} :
    loadFromBinOf cryptoUse setHashDirty popKeys put data m = .ok u m' ↔
      ∃ mapSize c₁ entries c₂, popHeader (cryptoUse m) (.start data) = .ok mapSize c₁ ∧
        replicateM (popSystemOf popKeys) mapSize c₁ = .ok entries c₂ ∧
        isEnd c₂ = .ok true c₂ ∧ m' = setHashDirty (entries.foldl put m) := by
  simp only [loadFromBinOf, bind_eq_ok_iff, withLocal_eq_ok_iff, onFst_eq_ok_iff,
    onSnd_eq_ok_iff, checkThat_eq_ok_iff, get_apply, modify_apply, EStateM.Result.ok.injEq,
    parserOfString_eq_ok_iff]
  constructor
  · rintro ⟨_, _, ⟨-, rfl, rfl⟩, _, _, ⟨_, _⟩, ⟨⟨rfl, rfl⟩, rfl⟩, mapSize, ⟨c₁, _⟩, ⟨hheader, rfl⟩, us,
      ⟨c₂, m₂⟩, hloop, atEnd, ⟨c₃, _⟩, ⟨hend, rfl⟩, _, _, ⟨rfl, rfl⟩, ⟨-, rfl⟩, hc⟩
    obtain ⟨entries, hentries, rfl⟩ := replicateM_readPut_eq_ok_iff.mp ⟨us, hloop⟩
    have hstay : c₃ = c₂ := (EStateM.Result.ok.inj hend).2.symm
    exact ⟨mapSize, c₁, entries, c₂, hheader, hentries, hstay ▸ hend, rfl⟩
  · rintro ⟨mapSize, c₁, entries, c₂, hheader, hentries, hend, rfl⟩
    obtain ⟨us, hloop⟩ := (@replicateM_readPut_eq_ok_iff _ _ _ _ _ _ _ (c₁, m) (c₂, _)).mpr
      ⟨entries, hentries, rfl⟩
    have hne : data ≠ [] := by
      rintro rfl
      obtain ⟨rest, hnil, -⟩ := popHeader_eq_ok_iff.mp hheader
      simp [headerOctets, magicMarker] at hnil
    exact ⟨_, m, ⟨hne, rfl, rfl⟩, _, m, (_, m), ⟨⟨rfl, rfl⟩, rfl⟩, mapSize, (c₁, m), ⟨hheader, rfl⟩,
      us, _, hloop, true, (c₂, _), ⟨hend, rfl⟩, (), _, ⟨rfl, rfl⟩, ⟨trivial, rfl⟩, rfl⟩

variable (popKeys) in
/-- The systems that `load_from_bin` reads before it returns or fails. -/
def systemsReadOf (use : CryptoUse) (data : Bytes) : List (SystemNr × κ) :=
  match popHeader use (.start data) with
  | .ok mapSize c => valuesUntilFailure (popSystemOf popKeys) mapSize c
  | .error _ _ => []

/-- When `load_from_bin` fails, the systems that were read have been replaced, and the cached hash is
not touched. -/
theorem loadFromBinOf_of_eq_error {data : Bytes} {m m' : μ} {e : Fault Exn}
    (h : loadFromBinOf cryptoUse setHashDirty popKeys put data m = .error e m') :
    m' = (systemsReadOf popKeys (cryptoUse m) data).foldl put m := by
  rw [← finalState_of_error h]
  unfold loadFromBinOf systemsReadOf at *
  by_cases hdata : data = []
  · subst hdata
    have hheader : ∀ mapSize c, popHeader (cryptoUse m) (.start []) ≠ .ok mapSize c := by
      intro mapSize c hrun
      obtain ⟨rest, hnil, -⟩ := popHeader_eq_ok_iff.mp hrun
      simp [headerOctets, magicMarker] at hnil
    have hrefused : (parserOfString [] : Program Exn μ _) m =
        .error (.throw (.invalidArgument "input string is empty")) m := by
      simp [parserOfString, checkThat_apply, map_apply]
    rw [finalState_bind_of_error hrefused]
    cases hrun : popHeader (cryptoUse m) (.start []) with
    | ok mapSize c => exact absurd hrun (hheader mapSize c)
    | error e c => rfl
  have hget : ∀ s : Cursor UInt8 × μ, (onSnd get : Program Exn (Cursor UInt8 × μ) μ) s = .ok s.2 s :=
    fun _ => rfl
  rw [bind_of_ok (parserOfString_of_ne_nil hdata m), withLocal] at h
  rw [finalState_bind_of_ok (parserOfString_of_ne_nil hdata m), finalState_withLocal]
  rw [bind_of_ok (hget _)] at h
  rw [finalState_bind_of_ok (hget _)]
  cases hheader : popHeader (cryptoUse m) (.start data) with
  | error e' c =>
    have hfst : (onFst (popHeader (cryptoUse m)) : Program Exn (Cursor UInt8 × μ) ℕ)
        (.start data, m) = .error e' (c, m) := by simp only [onFst, hheader]
    rw [finalState_bind_of_error hfst]
    rfl
  | ok mapSize c₁ =>
    have hfst : (onFst (popHeader (cryptoUse m)) : Program Exn (Cursor UInt8 × μ) ℕ)
        (.start data, m) = .ok mapSize (c₁, m) := by simp only [onFst, hheader]
    rw [bind_of_ok hfst] at h
    rw [finalState_bind_of_ok hfst]
    have hloops := finalState_replicateM_readPut (popSystemOf popKeys) put mapSize (c₁, m)
    cases hloop : replicateM (readPut (popSystemOf popKeys) put) mapSize (c₁, m) with
    | error e' s₂ =>
      rw [finalState_of_error hloop] at hloops
      rw [finalState_bind_of_error hloop, hloops]
    | ok us s₂ =>
      -- all systems have been read, so there is something behind them
      rw [finalState_of_ok hloop] at hloops
      rw [bind_of_ok hloop] at h
      rw [finalState_bind_of_ok hloop, ← hloops]
      have hend : (onFst isEnd : Program Exn (Cursor UInt8 × μ) Bool) s₂ =
        .ok (decide (s₂.1.now ≥ s₂.1.data.length)) s₂ := rfl
      rw [bind_of_ok hend] at h
      rw [finalState_bind_of_ok hend]
      by_cases hat : decide (s₂.1.now ≥ s₂.1.data.length) = true
      · rw [hat] at h
        simp [checkThat_apply, bind_apply, onSnd] at h
      · have hextra : (checkThat (decide (s₂.1.now ≥ s₂.1.data.length) = true)
            (.runtimeError "Format incorrect: extra elements at end") :
            Program Exn (Cursor UInt8 × μ) Unit) s₂ =
            .error (.throw (.runtimeError "Format incorrect: extra elements at end")) s₂ := by
          rw [checkThat_apply, if_neg hat]
        rw [finalState_bind_of_error hextra]

end Template

/-! ### Trees -/

/-- The keys of one system, as `load_from_bin` accepts them. -/
structure SerializedSystem where
  /-- The number in front of the keys. -/
  number : Uvarint
  /-- The system whose letter is the last octet of the number. -/
  type : CryptoSystemType
  fromID_number : CryptoSystemType.fromID (UInt8.ofNat number.value).toInt8 = .ok type
  /-- The keys. -/
  keys : Counted Varstring

namespace SerializedSystem

/-- The octets of the keys of one system. -/
def octets (entry : SerializedSystem) : Bytes :=
  entry.number.octets ++ entry.keys.octets Varstring.octets

/-- The keys themselves. -/
def keyList (entry : SerializedSystem) : List Bytes :=
  entry.keys.items.map (·.data)

private theorem toID_nr (entry : SerializedSystem) :
    CryptoSystemType.toID entry.type.nr = .ok (UInt8.ofNat entry.number.value).toInt8 :=
  CryptoSystemType.toID_of_fromID entry.fromID_number

private theorem letter_nr (entry : SerializedSystem) :
    letter entry.type.nr = (UInt8.ofNat entry.number.value).toInt8 := by
  rw [letter, entry.toID_nr]

private theorem length_le_sane {entry : SerializedSystem} {key : Bytes} (hkey : key ∈ entry.keyList) :
    key.length ≤ saneMaxSizeForString := by
  obtain ⟨str, -, rfl⟩ := List.mem_map.mp hkey
  exact str.length_data.trans_le str.size_le

end SerializedSystem

/-- A set of keys, as `load_from_bin` accepts it. -/
structure SerializedSet where
  /-- The systems. -/
  systems : Counted SerializedSystem
  count_le : systems.count.value ≤ 100

/-- The octets of a set of keys. -/
def SerializedSet.octets (t : SerializedSet) (cryptoUse : CryptoUse) : Bytes :=
  headerOctets cryptoUse ++ t.systems.octets SerializedSystem.octets

/-! ### Loading -/

/-- The lists after the keys of some systems have been loaded, one system after the other. -/
def loadEntries (lists : SystemNr → List Bytes) (entries : List (SystemNr × List Bytes)) :
    SystemNr → List Bytes :=
  entries.foldl (fun lists entry => Function.update lists entry.1 entry.2) lists

/-- The keys of a system that is not loaded stay. -/
theorem loadEntries_of_not_mem {lists : SystemNr → List Bytes}
    {entries : List (SystemNr × List Bytes)} {sys : SystemNr} (h : ∀ entry ∈ entries, entry.1 ≠ sys) :
    loadEntries lists entries sys = lists sys := by
  induction entries generalizing lists with
  | nil => rfl
  | cons entry entries ih =>
    obtain ⟨hentry, hentries⟩ := List.forall_mem_cons.mp h
    exact (ih hentries).trans (Function.update_of_ne hentry.symm _ _)

/-- The keys of a system that is loaded are in the data, whatever was there before. -/
theorem exists_loadEntries_eq {entries : List (SystemNr × List Bytes)} {sys : SystemNr}
    (h : ∃ entry ∈ entries, entry.1 = sys) :
    ∃ keys, (sys, keys) ∈ entries ∧ ∀ lists, loadEntries lists entries sys = keys := by
  induction entries with
  | nil => simp at h
  | cons entry entries ih =>
    by_cases hlater : ∃ entry ∈ entries, entry.1 = sys
    · obtain ⟨keys, hmem, hkeys⟩ := ih hlater
      exact ⟨keys, List.mem_cons_of_mem _ hmem, fun lists => hkeys _⟩
    · obtain ⟨entry', hmem, rfl⟩ := h
      obtain rfl : entry' = entry := by
        rcases List.mem_cons.mp hmem with heq | hmem
        · exact heq
        · exact absurd ⟨entry', hmem, rfl⟩ hlater
      refine ⟨entry'.2, List.mem_cons_self, fun lists => ?_⟩
      push Not at hlater
      exact (loadEntries_of_not_mem hlater).trans (Function.update_self _ _ _)

namespace SerializedSet

/-- The systems of a tree, with their keys. -/
def entries (t : SerializedSet) : List (SystemNr × List Bytes) :=
  t.systems.items.map fun entry => (entry.type.nr, entry.keyList)

/-- The lists that the data encode: of a system that occurs several times, the last one. -/
def lists (t : SerializedSet) : SystemNr → List Bytes :=
  loadEntries (fun _ => []) t.entries

/-- The system occurs in the data. It may have no keys there, and it may occur again. -/
def Names (t : SerializedSet) (sys : SystemNr) : Prop :=
  ∃ entry ∈ t.systems.items, entry.type.nr = sys

private theorem names_iff {t : SerializedSet} {sys : SystemNr} :
    t.Names sys ↔ ∃ entry ∈ t.entries, entry.1 = sys := by
  simp [Names, entries]

/-- What loading leaves of an object. -/
def load (t : SerializedSet) (m : MultiCryptoStrings) : MultiCryptoStrings :=
  { m with cryptolistsGeneral := loadEntries m.cryptolistsGeneral t.entries, hashCached := [] }

end SerializedSet

/-- The reads of one round of the loop of `load_from_bin`. -/
def popSystem : Parser (SystemNr × List Bytes) :=
  popSystemOf popVectorObject

/-- The keys of one system are read by a reader of their vector. -/
theorem SerializedSystem.reads_popSystemOf (entry : SerializedSystem) {popKeys : Parser (List Bytes)}
    (h : Reads popKeys (entry.keys.octets Varstring.octets) entry.keyList) :
    Reads (popSystemOf popKeys) entry.octets (entry.type.nr, entry.keyList) := by
  have hfrom : Reads (fromExcept (CryptoSystemType.fromID
      (UInt8.ofNat entry.number.value).toInt8) : Parser CryptoSystemType) [] entry.type := by
    rw [entry.fromID_number]
    exact Reads.pure _
  exact (parses_popIntegerUvarint.reads entry.number).bind (hfrom.bind
    (h.map (g := fun keys => (entry.type.nr, keys))))

theorem parses_popSystem :
    Parses popSystem SerializedSystem.octets fun entry => (entry.type.nr, entry.keyList) := by
  refine .of_reads (fun entry => ?_) fun pre rest x c h => ?_
  · exact entry.reads_popSystemOf (parses_popVectorObject.reads entry.keys)
  · simp only [popSystem, popSystemOf, bind_eq_ok_iff, fromExcept_eq_ok_iff] at h
    obtain ⟨number, c₁, hnumber, type, _, ⟨htype, rfl⟩, keys, c₂, hkeys, -⟩ := h
    obtain ⟨number, suf, rfl, rfl, rfl⟩ := (parses_popIntegerUvarint _ _ _ _).mp hnumber
    obtain ⟨keys, suf', rfl, -, -⟩ := (parses_popVectorObject _ _ _ _).mp hkeys
    exact ⟨⟨number, type, htype, keys⟩, suf', (List.append_assoc _ _ _).symm⟩

/-- The keys of one system replace those of an object. -/
def putEntry (m : MultiCryptoStrings) (entry : SystemNr × List Bytes) : MultiCryptoStrings :=
  { m with cryptolistsGeneral := Function.update m.cryptolistsGeneral entry.1 entry.2 }

private theorem foldl_putEntry (entries : List (SystemNr × List Bytes)) (m : MultiCryptoStrings) :
    entries.foldl putEntry m =
      { m with cryptolistsGeneral := loadEntries m.cryptolistsGeneral entries } := by
  induction entries generalizing m with
  | nil => rfl
  | cons entry entries ih => exact ih _

/-- The keys of `c_multicryptostrings<std::string>` are ordinary strings. -/
theorem loadFromBin_eq_loadFromBinOf (data : Bytes) :
    loadFromBin data = loadFromBinOf MultiCryptoStrings.cryptoUse MultiCryptoStrings.setHashDirty
      popVectorObject putEntry data := by
  have hsystem : loadSystem = readPut (popSystemOf popVectorObject) putEntry := by
    simp only [loadSystem, readPut, popSystemOf, onFst_bind, onFst_fromExcept, onFst_pure, bind_assoc,
      pure_bind]
    rfl
  have hparser : loadFromParser = (do
      let m ← onSnd get
      let mapSize ← onFst (popHeader m.cryptoUse)
      let _ ← replicateM loadSystem mapSize
      let atEnd ← onFst isEnd
      checkThat (atEnd = true) (.runtimeError "Format incorrect: extra elements at end")
      onSnd (modify MultiCryptoStrings.setHashDirty)) := by
    simp only [popHeader, onFst_bind, bind_assoc, get_bind_onFst]
    simp only [onFst_checkThat, onFst_assertThat, onFst_pure, pure_bind]
    rfl
  rw [loadFromBin, loadFromBinOf, hparser, hsystem]

/-- The systems that `load_from_bin` reads before it returns or fails. -/
def systemsRead (use : CryptoUse) (data : Bytes) : List (SystemNr × List Bytes) :=
  systemsReadOf popVectorObject use data

/-- When `load_from_bin` returns, the systems that were read have been replaced. -/
theorem loadFromBin_of_eq_ok {data : Bytes} {m m' : MultiCryptoStrings} {u : Unit}
    (h : loadFromBin data m = .ok u m') :
    m' = { m with
      cryptolistsGeneral := loadEntries m.cryptolistsGeneral (systemsRead m.cryptoUse data)
      hashCached := [] } := by
  rw [loadFromBin_eq_loadFromBinOf, loadFromBinOf_eq_ok_iff] at h
  obtain ⟨mapSize, c₁, entries, c₂, hheader, hentries, -, rfl⟩ := h
  have hread : systemsRead m.cryptoUse data = entries := by
    simp only [systemsRead, systemsReadOf, hheader, valuesUntilFailure_of_eq_ok hentries]
  rw [hread, foldl_putEntry]
  rfl

/-- When it fails too, and then the cached hash stays. -/
theorem loadFromBin_of_eq_error {data : Bytes} {m m' : MultiCryptoStrings} {e : Fault Exn}
    (h : loadFromBin data m = .error e m') :
    m' = { m with
      cryptolistsGeneral := loadEntries m.cryptolistsGeneral (systemsRead m.cryptoUse data) } := by
  rw [loadFromBin_eq_loadFromBinOf] at h
  rw [loadFromBinOf_of_eq_error h, foldl_putEntry]
  rfl

/-- The data that are accepted are those with a tree, and what is loaded is what the tree says. -/
theorem loadFromBin_eq_ok_iff {data : Bytes} {m m' : MultiCryptoStrings} {u : Unit} :
    loadFromBin data m = .ok u m' ↔
      ∃ t : SerializedSet, data = t.octets m.cryptoUse ∧ m' = t.load m := by
  rw [loadFromBin_eq_loadFromBinOf, loadFromBinOf_eq_ok_iff]
  constructor
  · rintro ⟨mapSize, c₁, entries, c₂, hheader, hentries, hend, rfl⟩
    obtain ⟨rest, rfl, hsize, hle⟩ := popHeader_eq_ok_iff.mp hheader
    obtain ⟨count, suf, rfl, rfl, rfl⟩ := (parses_popIntegerUvarint _ _ _ _).mp hsize
    obtain ⟨⟨items, hlen⟩, suf', rfl, rfl, rfl⟩ :=
      (parses_popSystem.replicateM _ _ _ _ _).mp hentries
    rw [isEnd_between] at hend
    obtain rfl : suf' = [] := of_decide_eq_true (EStateM.Result.ok.inj hend).1
    refine ⟨⟨⟨count, items, hlen⟩, hle⟩, by simp [SerializedSet.octets, Counted.octets], ?_⟩
    rw [foldl_putEntry]
    rfl
  · rintro ⟨t, rfl, rfl⟩
    have hsize := parses_popIntegerUvarint.reads t.systems.count (headerOctets m.cryptoUse)
      (t.systems.items.flatMap SerializedSystem.octets)
    have hentries := (parses_popSystem.replicateM t.systems.count.value).reads
      ⟨t.systems.items, t.systems.length_items⟩
      (headerOctets m.cryptoUse ++ t.systems.count.octets) []
    rw [List.append_nil] at hentries
    refine ⟨_, _, _, _, popHeader_eq_ok_iff.mpr ⟨_, rfl, hsize, t.count_le⟩, hentries,
      isEnd_between _ [], ?_⟩
    rw [foldl_putEntry]
    rfl

/-! ### Canonical data -/

/-- What is written for the keys of one system. -/
def entryOctets (sys : SystemNr) (keys : List Bytes) : Bytes :=
  uvarintOctets (letter sys).toUInt8.toNat ++ vectorOctets varstringOctets keys

/-- The number is one octet, there are keys, and their count and lengths are in the form that is written. It
is a condition on the data alone, and can be told without loading them. -/
structure SerializedSystem.Canonical (entry : SerializedSystem) : Prop where
  length_number : entry.number.octets.length = 1
  keys_ne_nil : entry.keys.items ≠ []
  count_asWritten : entry.keys.count.AsWritten
  keys_asWritten : ∀ key ∈ entry.keys.items, key.AsWritten

/-- The systems occur in the order of their numbers, each of them once, in the form that is written. The data
of each set have exactly one tree of this kind. -/
structure SerializedSet.Canonical (t : SerializedSet) : Prop where
  count_asWritten : t.systems.count.AsWritten
  sorted : t.systems.items.Pairwise fun entry entry' => entry.type.nr < entry'.type.nr
  systems : ∀ entry ∈ t.systems.items, entry.Canonical

/-- The letters of systems are small numbers. -/
theorem letter_lt_of_fromID {name : Int8} {type : CryptoSystemType}
    (h : CryptoSystemType.fromID name = .ok type) : name.toUInt8.toNat < 0xFD := by
  unfold CryptoSystemType.fromID at h
  split_ifs at h with h1 h2 h3 h4 h5 h6
  · rw [h1]; decide
  · rw [h2]; decide
  · rw [h3]; decide
  · rw [h4]; decide
  · rw [h5]; decide
  · rw [h6]; decide

/-- What is written for the keys of one system is read back, if the keys are. -/
theorem reads_popSystemOf {popKeys : Parser (List Bytes)} {sys : SystemNr}
    (hletter : ∃ ID, CryptoSystemType.toID sys = .ok ID) {keys : List Bytes}
    (hkeys : Reads popKeys (vectorOctets varstringOctets keys) keys) :
    Reads (popSystemOf popKeys) (entryOctets sys keys) (sys, keys) := by
  obtain ⟨ID, hID⟩ := hletter
  obtain ⟨type, hsys, htype⟩ := CryptoSystemType.fromID_of_toID hID
  obtain rfl := CryptoSystemType.nr_of_ofInt hsys
  have hletter : letter type.nr = ID := by rw [letter, hID]
  have hlt : ID.toUInt8.toNat < uvarintLimit := (letter_lt_of_fromID htype).trans (by decide)
  have hfrom : Reads (fromExcept (CryptoSystemType.fromID
      (UInt8.ofNat ID.toUInt8.toNat).toInt8) : Parser CryptoSystemType) [] type := by
    rw [UInt8.ofNat_toNat, show ID.toUInt8.toInt8 = ID from rfl, htype]
    exact Reads.pure _
  rw [entryOctets, hletter]
  exact (reads_popIntegerUvarint hlt).bind
    (hfrom.bind (hkeys.map (g := fun keys => (type.nr, keys))))

/-- The serialized set, with its header apart. -/
theorem serializedOctets_eq (m : MultiCryptoStrings) :
    m.serializedOctets = headerOctets m.cryptoUse ++ (uvarintOctets m.usedSystems.length ++
      m.usedSystems.flatMap fun sys => entryOctets sys (m.cryptolistsGeneral sys)) := by
  simp only [serializedOctets, headerOctets, List.append_assoc, List.cons_append, List.nil_append]
  rfl

/-- One entry for each system with keys gives the lists. -/
theorem loadEntries_usedSystems (m : MultiCryptoStrings) :
    loadEntries (fun _ => []) (m.usedSystems.map fun sys => (sys, m.cryptolistsGeneral sys)) =
      m.cryptolistsGeneral := by
  funext sys
  by_cases hsys : sys ∈ m.usedSystems
  · obtain ⟨keys, hmem, hkeys⟩ := exists_loadEntries_eq
      ⟨_, List.mem_map_of_mem (f := fun sys => (sys, m.cryptolistsGeneral sys)) hsys, rfl⟩
    obtain ⟨sys', -, heq⟩ := List.mem_map.mp hmem
    obtain ⟨rfl, rfl⟩ := Prod.mk.inj heq
    exact hkeys _
  · rw [loadEntries_of_not_mem]
    · exact (not_not.mp fun hne => hsys (mem_usedSystems.mpr hne)).symm
    · rintro entry hentry rfl
      obtain ⟨sys', hsys', rfl⟩ := List.mem_map.mp hentry
      exact hsys hsys'

namespace SerializedSystem

/-- The number of a system is one octet exactly when it is written so. -/
theorem length_number_iff (entry : SerializedSystem) :
    entry.number.octets.length = 1 ↔
      entry.number.octets = uvarintOctets (letter entry.type.nr).toUInt8.toNat := by
  have hlt := letter_lt_of_fromID entry.fromID_number
  rw [letter_nr]
  constructor
  · intro hlen
    cases hnumber : entry.number with
    | one first h =>
      rw [Uvarint.value, UInt8.ofNat_toNat]
      exact (Uvarint.asWritten_iff (u := .one first h).mp trivial).2
    | _ => simp [hnumber, Uvarint.octets] at hlen
  · intro h
    rw [h, uvarintOctets, if_pos hlt, Octets.length_bigEndian]

/-- The keys of a system are canonical exactly when there are some, and they are written as the
generator does. -/
theorem canonical_iff {entry : SerializedSystem} :
    entry.Canonical ↔ entry.keyList ≠ [] ∧ entry.keyList.length < uvarintLimit ∧
      entry.octets = entryOctets entry.type.nr entry.keyList := by
  have hstrings : entry.keyList = entry.keys.strings := rfl
  rw [entryOctets, octets, hstrings]
  constructor
  · rintro ⟨hnumber, hne, hcount, hkeys⟩
    obtain ⟨hlim, hvector⟩ := Counted.asWritten_iff.mp ⟨hcount, hkeys⟩
    refine ⟨by simpa [Counted.strings] using hne, hlim, ?_⟩
    rw [entry.length_number_iff.mp hnumber, hvector]
  · rintro ⟨hne, hlim, heq⟩
    have hlt : (letter entry.type.nr).toUInt8.toNat < uvarintLimit := by
      rw [letter_nr]
      exact (letter_lt_of_fromID entry.fromID_number).trans (by decide)
    obtain ⟨hnumber, -, hvector⟩ :=
      (parses_popIntegerUvarint.reads entry.number).unique (reads_popIntegerUvarint hlt) heq
    obtain ⟨hcount, hkeys⟩ := Counted.asWritten_iff.mpr ⟨hlim, hvector⟩
    exact ⟨entry.length_number_iff.mpr hnumber, by simpa [Counted.strings] using hne, hcount, hkeys⟩

end SerializedSystem

/-- Loaded keys are among the data. -/
theorem SerializedSet.mem_of_mem_lists {t : SerializedSet} {sys : SystemNr} (h : t.lists sys ≠ []) :
    ∃ entry ∈ t.systems.items, entry.type.nr = sys ∧ t.lists sys = entry.keyList := by
  by_cases hnames : ∃ entry ∈ t.entries, entry.1 = sys
  · obtain ⟨keys, hmem, hkeys⟩ := exists_loadEntries_eq hnames
    obtain ⟨entry, hentry, heq⟩ := List.mem_map.mp hmem
    obtain ⟨hsys, rfl⟩ := Prod.mk.inj heq
    exact ⟨entry, hentry, hsys, hkeys _⟩
  · push Not at hnames
    exact absurd (loadEntries_of_not_mem hnames) h

/-- The keys that a tree gives have sane lengths. -/
private theorem SerializedSet.length_le_sane {t : SerializedSet} {sys : SystemNr} {key : Bytes}
    (hkey : key ∈ t.lists sys) : key.length ≤ saneMaxSizeForString := by
  obtain ⟨entry, -, -, hlist⟩ := t.mem_of_mem_lists (List.ne_nil_of_mem hkey)
  exact SerializedSystem.length_le_sane (hlist ▸ hkey)

/-- The octets of a tree in its loaded form. -/
theorem octets_eq_serializedOctets_iff {t : SerializedSet} {cryptoUse : CryptoUse} :
    t.octets cryptoUse = (t.load (new cryptoUse)).serializedOctets ↔
      t.systems.octets SerializedSystem.octets =
        uvarintOctets (t.load (new cryptoUse)).usedSystems.length ++
          (t.load (new cryptoUse)).usedSystems.flatMap fun sys => entryOctets sys (t.lists sys) := by
  rw [serializedOctets_eq]
  exact List.append_cancel_left_eq _ _ _ |>.to_iff

namespace SerializedSet

/-- Written keys that have a tree are written system by system as the tree says, whatever the lengths of
the keys. -/
theorem systems_of_serializedOctets {t : SerializedSet} {m : MultiCryptoStrings}
    (hletters : m.HasLetters) (hfit : ∀ sys, KeysFit (m.cryptolistsGeneral sys))
    (h : t.octets m.cryptoUse = m.serializedOctets) :
    t.systems.count.octets = uvarintOctets m.usedSystems.length ∧
      t.systems.count.value = m.usedSystems.length ∧
      List.Forall₂ (fun entry sys => entry.octets = entryOctets sys (m.cryptolistsGeneral sys) ∧
          (entry.type.nr, entry.keyList) = (sys, m.cryptolistsGeneral sys))
        t.systems.items m.usedSystems := by
  rw [serializedOctets_eq, octets, List.append_cancel_left_eq, Counted.octets] at h
  obtain ⟨hcount, hvalue, hsystems⟩ := (parses_popIntegerUvarint.reads t.systems.count).unique
    (reads_popIntegerUvarint m.length_usedSystems_lt) h
  -- both are read system by system, without a limit on the keys
  have hread : ∀ entry ∈ t.systems.items, Reads (popSystemOf popLongVectorString) entry.octets
      (entry.type.nr, entry.keyList) := fun entry _ =>
    entry.reads_popSystemOf entry.keys.reads_popLongVectorString
  have hwritten : ∀ sys ∈ m.usedSystems, Reads (popSystemOf popLongVectorString)
      (entryOctets sys (m.cryptolistsGeneral sys)) (sys, m.cryptolistsGeneral sys) := fun sys hsys =>
    reads_popSystemOf (hletters sys hsys) (reads_popLongVectorString (hfit sys).1 (hfit sys).2)
  have hnil : t.systems.items.flatMap SerializedSystem.octets ++ [] =
      (m.usedSystems.flatMap fun sys => entryOctets sys (m.cryptolistsGeneral sys)) ++ [] := by
    rw [hsystems]
  exact ⟨hcount, hvalue, (Reads.flatMap_unique hread hwritten
    (t.systems.length_items.trans hvalue) hnil).1⟩

/-- A tree that is written back as it was is canonical. -/
theorem canonical_of_serializeBin {t : SerializedSet} {cryptoUse : CryptoUse} {s : σ}
    (h : (t.load (new cryptoUse)).serializeBin s = .ok (t.octets cryptoUse) s) : t.Canonical := by
  set m := t.load (new cryptoUse) with hm
  obtain ⟨⟨hletters, hfit⟩, heq, -⟩ := serializeBin_eq_ok_iff.mp h
  obtain ⟨hcount, hvalue, hall⟩ := systems_of_serializedOctets hletters hfit heq
  have hsystems : t.systems.items.map (·.type.nr) = m.usedSystems := by
    have heach : List.Forall₂ (fun (entry : SerializedSystem) sys => entry.type.nr = sys)
        t.systems.items m.usedSystems := hall.imp fun _ _ h => (Prod.mk.inj h.2).1
    rwa [← List.forall₂_map_left_iff (R := Eq), List.forall₂_eq_eq_eq] at heach
  rw [← hsystems, List.forall₂_map_right_iff, List.forall₂_same] at hall
  refine ⟨Uvarint.asWritten_iff.mpr ⟨hvalue ▸ m.length_usedSystems_lt, hvalue ▸ hcount⟩, ?_, ?_⟩
  · have hsorted : m.usedSystems.Pairwise (· < ·) := (List.pairwise_lt_finRange _).filter _
    rwa [← hsystems, List.pairwise_map] at hsorted
  · intro entry hentry
    obtain ⟨hoctets, hkeys⟩ := hall entry hentry
    have hkeys : entry.keyList = t.lists entry.type.nr := (Prod.mk.inj hkeys).2
    have hused : entry.type.nr ∈ m.usedSystems := hsystems ▸ List.mem_map_of_mem hentry
    exact SerializedSystem.canonical_iff.mpr ⟨hkeys ▸ mem_usedSystems.mp hused,
      hkeys ▸ (hfit entry.type.nr).1, hkeys ▸ hoctets⟩

/-- A canonical tree is written back as it was. -/
private theorem serializeBin_of_canonical {t : SerializedSet} (h : t.Canonical) (cryptoUse : CryptoUse)
    (s : σ) : (t.load (new cryptoUse)).serializeBin s = .ok (t.octets cryptoUse) s := by
  set m := t.load (new cryptoUse) with hm
  obtain ⟨hcount, hsorted, hsystems⟩ := h
  have hsorted : (t.systems.items.map (·.type.nr)).Pairwise (· < ·) := List.pairwise_map.mpr hsorted
  -- A sorted tree names each system once, so no list was replaced by a later one.
  have hlist : ∀ entry ∈ t.systems.items, t.lists entry.type.nr = entry.keyList := by
    intro entry hentry
    obtain ⟨keys, hmem, hkeys⟩ := exists_loadEntries_eq
      (t.names_iff.mp ⟨entry, hentry, rfl⟩ : ∃ e ∈ t.entries, e.1 = entry.type.nr)
    obtain ⟨entry', hentry', heq⟩ := List.mem_map.mp hmem
    obtain ⟨hsys, rfl⟩ := Prod.mk.inj heq
    obtain rfl := List.inj_on_of_nodup_map (hsorted.imp fun h => ne_of_lt h) hentry' hentry hsys
    exact hkeys _
  have hmem : ∀ sys, sys ∈ t.systems.items.map (·.type.nr) ↔ sys ∈ m.usedSystems := by
    intro sys
    rw [mem_usedSystems]
    constructor
    · intro hsys
      obtain ⟨entry, hentry, rfl⟩ := List.mem_map.mp hsys
      have hne := (SerializedSystem.canonical_iff.mp (hsystems entry hentry)).1
      exact (hlist entry hentry).trans_ne hne
    · intro hne
      obtain ⟨entry, hentry, rfl, -⟩ := t.mem_of_mem_lists hne
      exact List.mem_map_of_mem hentry
  -- Both are sorted, and they have the same elements.
  have hused : t.systems.items.map (·.type.nr) = m.usedSystems :=
    hsorted.eq_of_mem_iff ((List.pairwise_lt_finRange _).filter _) hmem
  have hletters : m.HasLetters := by
    intro sys hsys
    obtain ⟨entry, -, rfl⟩ := List.mem_map.mp ((hmem sys).mpr hsys)
    exact ⟨_, entry.toID_nr⟩
  have hfit : ∀ sys, KeysFit (t.lists sys) := by
    intro sys
    refine ⟨?_, fun key hkey => lt_uvarintLimit_of_le_sane (t.length_le_sane hkey)⟩
    by_cases hne : t.lists sys = []
    · rw [hne]
      decide
    · obtain ⟨entry, hentry, -, heq⟩ := t.mem_of_mem_lists hne
      rw [heq]
      exact (SerializedSystem.canonical_iff.mp (hsystems entry hentry)).2.1
  refine serializeBin_eq_ok_iff.mpr ⟨⟨hletters, hfit⟩, octets_eq_serializedOctets_iff.mpr ?_, rfl⟩
  obtain ⟨-, hcount⟩ := Uvarint.asWritten_iff.mp hcount
  rw [← hm, ← hused, Counted.octets, hcount, List.length_map, t.systems.length_items,
    List.flatMap_map]
  refine congrArg _ (List.flatMap_congr fun entry hentry => ?_)
  rw [(SerializedSystem.canonical_iff.mp (hsystems entry hentry)).2.2, hlist entry hentry]

end SerializedSet

/-- Data that `load_from_bin` accepts on a new object have a tree, and they are what `serialize_bin` writes of
the loaded object exactly when that tree is canonical. So there are data that are accepted and are written in
another form, and these are the ones with a tree that is not canonical. -/
theorem serializeBin_of_loadFromBin_iff {cryptoUse : CryptoUse} {data : Bytes}
    {m : MultiCryptoStrings} (h : loadFromBin data (new cryptoUse) = .ok () m) (s : σ) :
    (∃ t : SerializedSet, data = t.octets cryptoUse) ∧
      ∀ t : SerializedSet, data = t.octets cryptoUse →
        (m.serializeBin s = .ok data s ↔ t.Canonical) := by
  obtain ⟨t, ht, rfl⟩ := loadFromBin_eq_ok_iff.mp h
  refine ⟨⟨t, ht⟩, fun t' ht' => ?_⟩
  have hload := loadFromBin_eq_ok_iff (m := new cryptoUse) (u := ()).mpr ⟨t', ht', rfl⟩
  rw [(EStateM.Result.ok.inj (h.symm.trans hload)).2, ht']
  exact ⟨SerializedSet.canonical_of_serializeBin, fun hcanonical =>
    SerializedSet.serializeBin_of_canonical hcanonical cryptoUse s⟩

/-- A set without systems, as it is written. -/
def emptySet : SerializedSet :=
  ⟨⟨.one 0 (by decide), [], rfl⟩, by decide⟩

/-- A set without systems, with their number in three octets. -/
def emptySetWide : SerializedSet :=
  ⟨⟨.two ⟨[0, 0], rfl⟩, [], rfl⟩, by decide⟩

/-- A set without keys is loaded and written back. -/
theorem serializeBin_of_loadFromBin_iff_example :
    (emptySet.load (new .open)).serializeBin () = .ok [71, 77, 75, 97, 111, 0] () :=
  ((serializeBin_of_loadFromBin_iff (loadFromBin_eq_ok_iff (m := new .open).mpr
    ⟨emptySet, rfl, rfl⟩) ()).2 emptySet rfl).mpr ⟨trivial, .nil, fun _ h => absurd h List.not_mem_nil⟩

/-- A number of systems that is written in three octets is accepted, and written in one. -/
theorem not_serializeBin_of_loadFromBin :
    ¬ ∀ (cryptoUse : CryptoUse) (data : Bytes) (m : MultiCryptoStrings),
      loadFromBin data (new cryptoUse) = .ok () m → m.serializeBin () = .ok data () := by
  intro h
  have hload : loadFromBin [71, 77, 75, 97, 111, 0xFD, 0, 0] (new .open) =
      .ok () (emptySetWide.load (new .open)) :=
    loadFromBin_eq_ok_iff.mpr ⟨emptySetWide, rfl, rfl⟩
  have hback : (emptySetWide.load (new .open)).serializeBin () = .ok (emptySetWide.octets .open) () :=
    h .open _ _ hload
  have hcanonical : emptySetWide.Canonical := SerializedSet.canonical_of_serializeBin hback
  exact absurd hcanonical.count_asWritten.1 (by decide)

/-! ### Loading over other keys -/

/-- The lists after loading are those in the data exactly when every system that had keys is in the
data. -/
theorem lists_load_iff {t : SerializedSet} {m : MultiCryptoStrings} :
    (t.load m).cryptolistsGeneral = t.lists ↔
      ∀ sys, m.cryptolistsGeneral sys ≠ [] → t.Names sys := by
  constructor
  · intro heq sys hne
    by_contra hnot
    rw [t.names_iff] at hnot
    push Not at hnot
    have hkept : t.lists sys = m.cryptolistsGeneral sys :=
      (congrFun heq sys).symm.trans (loadEntries_of_not_mem hnot)
    exact hne (hkept.symm.trans (loadEntries_of_not_mem hnot))
  · intro h
    funext sys
    by_cases hnames : t.Names sys
    · obtain ⟨keys, -, hkeys⟩ := exists_loadEntries_eq (t.names_iff.mp hnames)
      exact (hkeys _).trans (hkeys _).symm
    · have hempty : m.cryptolistsGeneral sys = [] := not_not.mp fun hne => hnames (h sys hne)
      rw [t.names_iff] at hnames
      push Not at hnames
      exact (loadEntries_of_not_mem hnames).trans
        (hempty.trans (@loadEntries_of_not_mem (fun _ => []) _ _ hnames).symm)

end MultiCryptoStrings

namespace Multisign

/-- A set of signatures, as `load_from_bin` accepts it. -/
structure SerializedSigns where
  /-- The signatures of Ed25519. -/
  ed : Counted Varstring
  /-- The signatures of NTRU. -/
  ntru : Counted Varstring

/-- The octets of signatures: the number of their system, and a vector. -/
def signaturesOctets (type : CryptoSystemType) (signs : Counted Varstring) : Bytes :=
  UInt8.ofNat type.value :: signs.octets Varstring.octets

namespace SerializedSigns

/-- The octets of a set of signatures. -/
def octets (t : SerializedSigns) : Bytes :=
  signaturesOctets .ed25519 t.ed ++ signaturesOctets .ntruSign t.ntru

/-- The lists that the data encode. -/
def lists (t : SerializedSigns) (sys : SystemNr) : List Bytes :=
  if sys = CryptoSystemType.ed25519.nr then t.ed.items.map (·.data)
  else if sys = CryptoSystemType.ntruSign.nr then t.ntru.items.map (·.data)
  else []

end SerializedSigns

/-- The reads of the part of `load_from_bin` for one system. -/
def popSignatures (type : CryptoSystemType) : Parser (List Bytes) := do
  let readType ← popByteU
  assertThat (readType.toNat = type.value)
  popVectorString

theorem parses_popSignatures (type : CryptoSystemType) :
    Parses (popSignatures type) (signaturesOctets type) fun signs => signs.items.map (·.data) := by
  have hvalue : (UInt8.ofNat type.value).toNat = type.value := by cases type <;> rfl
  refine .of_reads (fun signs => ?_) fun pre rest x c h => ?_
  · exact (reads_popByteU (UInt8.ofNat type.value)).bind
      ((Reads.assert hvalue).bind (parses_popVectorString.reads signs))
  · simp only [popSignatures, bind_eq_ok_iff, assertThat_eq_ok_iff] at h
    obtain ⟨readType, c₁, htype, _, _, ⟨heq, rfl⟩, hsigns⟩ := h
    obtain ⟨suf, rfl, rfl⟩ := popByteU_between_eq_ok_iff.mp htype
    obtain ⟨signs, suf', rfl, -⟩ := (parses_popVectorString _ _ _ _).mp hsigns
    obtain rfl : readType = UInt8.ofNat type.value := UInt8.toNat_inj.mp (heq.trans hvalue.symm)
    exact ⟨signs, suf', rfl⟩

/-- The part of `load_from_bin` for one system adds the signatures it reads. -/
theorem loadSignatures_eq_readPut (type : CryptoSystemType) :
    loadSignatures type = readPut (popSignatures type) fun m signs =>
      m.addSignatureVec signs type.nr := by
  simp only [loadSignatures, readPut, popSignatures, onFst_bind, onFst_assertThat, bind_assoc]

/-- The signatures that `load_from_bin` reads before it returns or fails. -/
def signaturesRead (data : Bytes) : List (SystemNr × List Bytes) :=
  match popSignatures .ed25519 (.start data) with
  | .error _ _ => []
  | .ok ed c =>
    match popSignatures .ntruSign c with
    | .error _ _ => [(CryptoSystemType.ed25519.nr, ed)]
    | .ok ntru _ => [(CryptoSystemType.ed25519.nr, ed), (CryptoSystemType.ntruSign.nr, ntru)]

/-- However `load_from_bin` ends, the signatures that were read have been added. -/
theorem finalState_loadFromBin (data : Bytes) (m : Multisign) :
    finalState (loadFromBin data) m =
      (signaturesRead data).foldl (fun m entry => m.addSignatureVec entry.2 entry.1) m := by
  have hstart : popSignatures .ed25519 (.start []) = .error (.throw .formatErrorRead) (.start []) := rfl
  by_cases hdata : data = []
  · subst hdata
    have hparser : (parserOfString [] : Program Exn Multisign _) m =
        .error (.throw (.invalidArgument "input string is empty")) m := rfl
    rw [loadFromBin, finalState_bind_of_error hparser]
    simp only [signaturesRead, hstart, List.foldl_nil]
  rw [loadFromBin, finalState_bind_of_ok (parserOfString_of_ne_nil hdata m), finalState_withLocal,
    loadSignatures_eq_readPut, loadSignatures_eq_readPut, signaturesRead]
  cases hed : popSignatures .ed25519 (.start data) with
  | error e c =>
    rw [finalState_bind_of_error (readPut_of_error hed)]
    rfl
  | ok ed c =>
    rw [finalState_bind_of_ok (readPut_of_ok hed)]
    cases hntru : popSignatures .ntruSign c with
    | error e c' =>
      rw [finalState_of_error (readPut_of_error hntru)]
      simp only [hntru, List.foldl_cons, List.foldl_nil]
    | ok ntru c' =>
      rw [finalState_of_ok (readPut_of_ok hntru)]
      simp only [hntru, List.foldl_cons, List.foldl_nil]

/-- The data that are accepted are those with a tree, whatever is behind it, and the signatures are
added to those that are there. -/
theorem loadFromBin_eq_ok_iff {data : Bytes} {m m' : Multisign} {u : Unit} :
    loadFromBin data m = .ok u m' ↔ ∃ (t : SerializedSigns) (rest : Bytes), data = t.octets ++ rest ∧
      m' = (m.addSignatureVec (t.ed.items.map (·.data)) CryptoSystemType.ed25519.nr).addSignatureVec
        (t.ntru.items.map (·.data)) CryptoSystemType.ntruSign.nr := by
  simp only [loadFromBin, bind_eq_ok_iff, withLocal_eq_ok_iff, parserOfString_eq_ok_iff,
    loadSignatures_eq_readPut, readPut_eq_ok_iff]
  constructor
  · rintro ⟨_, _, ⟨-, rfl, rfl⟩, c', _, ⟨c₁, m₁⟩, ⟨ed, hed, rfl⟩, ntru, hntru, rfl⟩
    rw [← Cursor.between_nil] at hed
    obtain ⟨ed, suf, rfl, rfl, hc₁⟩ := (parses_popSignatures _ _ _ _ _).mp hed
    dsimp only at hc₁ hntru
    rw [hc₁] at hntru
    obtain ⟨ntru, rest, rfl, rfl, -⟩ := (parses_popSignatures _ _ _ _ _).mp hntru
    exact ⟨⟨ed, ntru⟩, rest, (List.append_assoc _ _ _).symm, rfl⟩
  · rintro ⟨t, rest, rfl, rfl⟩
    have hed := (parses_popSignatures .ed25519).reads t.ed []
      (signaturesOctets .ntruSign t.ntru ++ rest)
    have hntru := (parses_popSignatures .ntruSign).reads t.ntru ([] ++ signaturesOctets .ed25519 t.ed)
      rest
    rw [Cursor.between_nil, ← List.append_assoc] at hed
    exact ⟨_, m, ⟨List.cons_ne_nil _ _, rfl, rfl⟩, _, (), (_, _), ⟨_, hed, rfl⟩, _, hntru, rfl⟩

/-- Loading adds the signatures of the two systems behind those that are there. -/
theorem cryptolistsGeneral_load (m : Multisign) (ed ntru : List Bytes) (sys : SystemNr) :
    ((m.addSignatureVec ed CryptoSystemType.ed25519.nr).addSignatureVec ntru
        CryptoSystemType.ntruSign.nr).cryptolistsGeneral sys =
      m.cryptolistsGeneral sys ++ if sys = CryptoSystemType.ed25519.nr then ed
        else if sys = CryptoSystemType.ntruSign.nr then ntru else [] := by
  have hne : CryptoSystemType.ed25519.nr ≠ CryptoSystemType.ntruSign.nr := by decide
  rw [cryptolistsGeneral_addSignatureVec, cryptolistsGeneral_addSignatureVec]
  by_cases hntru : sys = CryptoSystemType.ntruSign.nr
  · subst hntru
    rw [if_neg hne.symm, if_pos rfl, Function.update_self, Function.update_of_ne hne.symm]
  · rw [Function.update_of_ne hntru, if_neg hntru]
    by_cases hed : sys = CryptoSystemType.ed25519.nr
    · rw [if_pos hed, hed, Function.update_self]
    · rw [if_neg hed, Function.update_of_ne hed, List.append_nil]

/-- The lists after loading are those in the data exactly when there were no signatures. -/
theorem lists_load_iff {t : SerializedSigns} {m : Multisign} :
    ((m.addSignatureVec (t.ed.items.map (·.data)) CryptoSystemType.ed25519.nr).addSignatureVec
        (t.ntru.items.map (·.data)) CryptoSystemType.ntruSign.nr).cryptolistsGeneral = t.lists ↔
      ∀ sys, m.cryptolistsGeneral sys = [] := by
  rw [funext_iff]
  refine forall_congr' fun sys => ?_
  rw [cryptolistsGeneral_load, SerializedSigns.lists, List.append_left_eq_self]

end Multisign

end Galaxy42
