import Galaxy42.Crypto.LockedKeys

/-!
# What loading leaves of the keys before it

`load_from_bin` puts the keys of each system into the object as soon as they are read, and marks the
hash dirty behind its last check. Its contract says that it deletes what was there, but the call of
`clear` is commented out. This module says what is left of the keys from before, when the loading
succeeds and when it throws. In both cases it is decided by the systems that were read (`systemsRead`),
and of these by the last of each number (`lastRead`).

When the loading succeeds, the lists are those in the data exactly when every system that had keys is
among the systems that were read; signatures are put behind the ones that are there, so they are those
in the data exactly when there were none (`loadFromBin_replaces_iff`).

What an exception leaves is the object with the systems that were read by then, and with the hash of the
keys it had. So it is the object from before only if these systems have the keys that are there already
(`atomic_iff`).

The same loop is compiled for keys in locked memory. There the octets in the data do not say which
buffers are made of them, so the lists in the data are the ones that a new object gets from them.
-/

namespace Galaxy42

open Toolkit Program TrivialSerialize

/-! ### The systems that were read -/

/-- The keys that are read last for a system. A system may occur in the data more than once. -/
def lastRead {κ : Type} (entries : List (SystemNr × κ)) (sys : SystemNr) : Option κ :=
  entries.reverse.lookup sys

private theorem isSome_lastRead_iff {κ : Type} {entries : List (SystemNr × κ)} {sys : SystemNr} :
    (lastRead entries sys).isSome ↔ sys ∈ entries.map Prod.fst := by
  rw [lastRead, List.lookup_isSome_iff, List.mem_map]
  simp only [List.mem_reverse, beq_iff_eq]
  exact exists_congr fun entry => and_congr_right fun _ => eq_comm

/-- Replacing the keys of one system after the other leaves what is read last. -/
theorem foldl_update_eq {κ : Type} (lists : SystemNr → κ) (entries : List (SystemNr × κ))
    (sys : SystemNr) :
    entries.foldl (fun lists entry => Function.update lists entry.1 entry.2) lists sys =
      (lastRead entries sys).getD (lists sys) := by
  induction entries using List.reverseRecOn with
  | nil => rfl
  | append_singleton entries entry ih =>
    obtain ⟨sys', keys⟩ := entry
    rw [List.foldl_append, List.foldl_cons, List.foldl_nil, lastRead, List.reverse_append]
    by_cases hsys : sys = sys'
    · subst hsys
      simp
    · have hne : (sys == sys') = false := beq_false_of_ne hsys
      rw [Function.update_of_ne hsys, ih, lastRead]
      simp [List.lookup_cons, hne]

/-- The lists are not changed exactly when what is read last for a system is what is there. -/
theorem foldl_update_eq_self_iff {κ : Type} {lists : SystemNr → κ} {entries : List (SystemNr × κ)} :
    entries.foldl (fun lists entry => Function.update lists entry.1 entry.2) lists = lists ↔
      ∀ sys keys, lastRead entries sys = some keys → keys = lists sys := by
  rw [funext_iff]
  refine forall_congr' fun sys => ?_
  rw [foldl_update_eq]
  cases lastRead entries sys with
  | none => simp
  | some keys => simp

/-- The lists do not depend on what was there exactly when every system that had something is read. -/
theorem foldl_update_eq_foldl_iff {κ : Type} {lists : SystemNr → List κ}
    {entries : List (SystemNr × List κ)} :
    entries.foldl (fun lists entry => Function.update lists entry.1 entry.2) lists =
        entries.foldl (fun lists entry => Function.update lists entry.1 entry.2) (fun _ => []) ↔
      ∀ sys, lists sys ≠ [] → sys ∈ entries.map Prod.fst := by
  rw [funext_iff]
  refine forall_congr' fun sys => ?_
  rw [foldl_update_eq, foldl_update_eq, ← isSome_lastRead_iff]
  cases lastRead entries sys with
  | none => simp
  | some keys => simp

namespace MultiCryptoStrings

/-- The systems that are read: those whose octets stand behind the header, up to the number that is
announced, or to the first place where no system can be read. -/
theorem systemsRead_eq {cryptoUse : CryptoUse} {count : Uvarint} {items : List SerializedSystem}
    {rest : Bytes} (hcount : count.value ≤ 100) (hlen : items.length ≤ count.value)
    (hstop : items.length < count.value → ∀ pre entry c,
      popSystem (.between pre rest) ≠ .ok entry c) :
    systemsRead cryptoUse (headerOctets cryptoUse ++
        (count.octets ++ (items.flatMap SerializedSystem.octets ++ rest))) =
      items.map fun entry => (entry.type.nr, entry.keyList) := by
  -- The number of rounds is more than what is read when something in between cannot be read.
  have hvalues : ∀ (n : ℕ) (items : List SerializedSystem) (pre : Bytes), items.length ≤ n →
      (items.length < n → ∀ pre entry c, popSystem (.between pre rest) ≠ .ok entry c) →
      valuesUntilFailure popSystem n
          (.between pre (items.flatMap SerializedSystem.octets ++ rest)) =
        items.map fun entry => (entry.type.nr, entry.keyList) := by
    intro n
    induction n with
    | zero =>
      intro items pre hlen _
      obtain rfl : items = [] := List.length_eq_zero_iff.mp (Nat.le_zero.mp hlen)
      rfl
    | succ n ih =>
      intro items pre hlen hstop
      cases items with
      | nil =>
        cases hrun : popSystem (.between pre rest) with
        | ok entry c => exact absurd hrun (hstop (Nat.succ_pos n) pre entry c)
        | error e c =>
          simp only [List.flatMap_nil, List.nil_append, valuesUntilFailure, hrun, List.map_nil]
      | cons item items =>
        have hitem := parses_popSystem.reads item pre (items.flatMap SerializedSystem.octets ++ rest)
        rw [List.flatMap_cons, List.append_assoc]
        simp only [valuesUntilFailure, hitem, List.map_cons]
        rw [ih items _ (Nat.le_of_succ_le_succ hlen) fun hlt => hstop (Nat.succ_lt_succ hlt)]
  have hheader : popHeader cryptoUse (.start (headerOctets cryptoUse ++
      (count.octets ++ (items.flatMap SerializedSystem.octets ++ rest)))) =
      .ok count.value (.between (headerOctets cryptoUse ++ count.octets)
        (items.flatMap SerializedSystem.octets ++ rest)) :=
    popHeader_eq_ok_iff.mpr ⟨_, rfl, parses_popIntegerUvarint.reads count _ _, hcount⟩
  rw [systemsRead, systemsReadOf, hheader]
  exact hvalues count.value items _ hlen hstop

/-- The lists and the cached hash are those from before. -/
def KeptBy (m m' : MultiCryptoStrings) : Prop :=
  m'.cryptolistsGeneral = m.cryptolistsGeneral ∧ m'.hashCached = m.hashCached

end MultiCryptoStrings

namespace MultiCryptoLocked

/-- The systems with keys in locked memory that `load_from_bin` reads before it returns or fails. -/
def systemsRead (use : CryptoUse) (data : Bytes) : List (SystemNr × List LockedBuffer) :=
  MultiCryptoStrings.systemsReadOf popVectorObject use data

private theorem foldl_putEntry (entries : List (SystemNr × List LockedBuffer)) (m : MultiCryptoLocked) :
    entries.foldl putEntry m =
      { m with
        cryptolistsGeneral := entries.foldl
          (fun lists entry => Function.update lists entry.1 entry.2) m.cryptolistsGeneral } := by
  induction entries generalizing m with
  | nil => rfl
  | cons entry entries ih => exact ih _

/-- The lists and the cached hash are those from before. -/
def KeptBy (m m' : MultiCryptoLocked) : Prop :=
  m'.cryptolistsGeneral = m.cryptolistsGeneral ∧ m'.hashCached = m.hashCached

end MultiCryptoLocked

/-! ### What is loaded, and what was there -/

namespace MultiCryptoLocked

open MultiCryptoStrings (loadFromBinOf_eq_ok_iff)

/-- What is loaded are the systems that were read. -/
private theorem loadFromBin_of_eq_ok {data : Bytes} {m m' : MultiCryptoLocked} {u : Unit}
    (h : loadFromBin data m = .ok u m') :
    m' = setHashDirty ((systemsRead m.cryptoUse data).foldl putEntry m) := by
  obtain ⟨mapSize, c₁, entries, c₂, hheader, hentries, -, rfl⟩ := loadFromBinOf_eq_ok_iff.mp h
  rw [systemsRead, MultiCryptoStrings.systemsReadOf, hheader]
  dsimp only
  rw [valuesUntilFailure_of_eq_ok hentries]

/-- What is accepted depends only on what the object is used for. -/
private theorem exists_loadFromBin_eq_ok {data : Bytes} {m m' : MultiCryptoLocked} {u : Unit}
    (h : loadFromBin data m = .ok u m') (other : MultiCryptoLocked)
    (huse : other.cryptoUse = m.cryptoUse) : ∃ other', loadFromBin data other = .ok u other' := by
  obtain ⟨mapSize, c₁, entries, c₂, hheader, hentries, hend, -⟩ := loadFromBinOf_eq_ok_iff.mp h
  rw [← huse] at hheader
  exact ⟨_, loadFromBinOf_eq_ok_iff.mpr ⟨mapSize, c₁, entries, c₂, hheader, hentries, hend, rfl⟩⟩

end MultiCryptoLocked

/-- What `load_from_bin` of a set of keys accepts replaces the keys exactly when it has all systems that had
keys, for keys in ordinary strings and for keys in locked memory. What `load_from_bin` of a set of signatures
accepts replaces them exactly when there were none. The object is not cleared first, so lists of systems that
are not in the data stay as they were. -/
theorem loadFromBin_replaces_iff (data : Bytes) (m : MultiCryptoStrings) (locked : MultiCryptoLocked)
    (sign : Multisign) :
    (∀ m', MultiCryptoStrings.loadFromBin data m = .ok () m' →
      (∃ t : MultiCryptoStrings.SerializedSet, data = t.octets m.cryptoUse) ∧
        ∀ t : MultiCryptoStrings.SerializedSet, data = t.octets m.cryptoUse →
          (m'.cryptolistsGeneral = t.lists ↔
            ∀ sys, m.cryptolistsGeneral sys ≠ [] → t.Names sys)) ∧
      (∀ locked', MultiCryptoLocked.loadFromBin data locked = .ok () locked' →
        (∃ fresh, MultiCryptoLocked.loadFromBin data (.new locked.cryptoUse) = .ok () fresh) ∧
          ∀ fresh, MultiCryptoLocked.loadFromBin data (.new locked.cryptoUse) = .ok () fresh →
            (locked'.cryptolistsGeneral = fresh.cryptolistsGeneral ↔
              ∀ sys, locked.cryptolistsGeneral sys ≠ [] →
                sys ∈ (MultiCryptoLocked.systemsRead locked.cryptoUse data).map Prod.fst)) ∧
      ∀ sign', Multisign.loadFromBin data sign = .ok () sign' →
        (∃ (t : Multisign.SerializedSigns) (rest : Bytes), data = t.octets ++ rest) ∧
          ∀ (t : Multisign.SerializedSigns) (rest : Bytes), data = t.octets ++ rest →
            (sign'.cryptolistsGeneral = t.lists ↔ ∀ sys, sign.cryptolistsGeneral sys = []) := by
  refine ⟨?_, ?_, ?_⟩
  · intro m' h
    refine ⟨(MultiCryptoStrings.loadFromBin_eq_ok_iff.mp h).imp fun _ ht => ht.1, fun t ht => ?_⟩
    have hload := MultiCryptoStrings.loadFromBin_eq_ok_iff (u := ()).mpr ⟨t, ht, rfl⟩
    rw [(EStateM.Result.ok.inj (h.symm.trans hload)).2]
    exact MultiCryptoStrings.lists_load_iff
  · intro locked' h
    refine ⟨MultiCryptoLocked.exists_loadFromBin_eq_ok h _ rfl, fun fresh hfresh => ?_⟩
    rw [MultiCryptoLocked.loadFromBin_of_eq_ok h, MultiCryptoLocked.loadFromBin_of_eq_ok hfresh,
      MultiCryptoLocked.foldl_putEntry, MultiCryptoLocked.foldl_putEntry]
    exact foldl_update_eq_foldl_iff
  · intro sign' h
    obtain ⟨t, rest, ht, -⟩ := Multisign.loadFromBin_eq_ok_iff.mp h
    refine ⟨⟨t, rest, ht⟩, fun t rest ht => ?_⟩
    have hload := Multisign.loadFromBin_eq_ok_iff (m := sign) (u := ()).mpr ⟨t, rest, ht, rfl⟩
    rw [(EStateM.Result.ok.inj (h.symm.trans hload)).2]
    exact Multisign.lists_load_iff

/-- Private keys that were there stay when data without keys are loaded. -/
theorem not_loadFromBin_replaces :
    ¬ ∀ (data : Bytes) (m m' : MultiCryptoStrings),
      MultiCryptoStrings.loadFromBin data m = .ok () m' →
        ∀ t : MultiCryptoStrings.SerializedSet, data = t.octets m.cryptoUse →
          m'.cryptolistsGeneral = t.lists := by
  intro h
  have hload : MultiCryptoStrings.loadFromBin [71, 77, 75, 97, 83, 0]
      ((MultiCryptoStrings.new .secret).addKey CryptoSystemType.x25519.nr [1]) =
      .ok () (MultiCryptoStrings.emptySet.load _) :=
    MultiCryptoStrings.loadFromBin_eq_ok_iff.mpr ⟨MultiCryptoStrings.emptySet, rfl, rfl⟩
  have hlists := h _ _ _ hload MultiCryptoStrings.emptySet rfl
  exact absurd (congrFun hlists CryptoSystemType.x25519.nr) (by decide)

/-! ### What an exception leaves -/

/-- A `load_from_bin` that throws leaves the object as it was exactly when the keys that were read last for
each system are the ones that were there. The lists that are read before the failure are put into the object
one after the other, so what counts for each system is the last one. -/
theorem atomic_iff (data : Bytes) (e : Exn) :
    (∀ m m' : MultiCryptoStrings,
      MultiCryptoStrings.loadFromBin data m = .error (.throw e) m' →
      (m.KeptBy m' ↔ ∀ sys keys,
        lastRead (MultiCryptoStrings.systemsRead m.cryptoUse data) sys = some keys →
          keys = m.cryptolistsGeneral sys)) ∧
    ∀ m m' : MultiCryptoLocked,
      MultiCryptoLocked.loadFromBin data m = .error (.throw e) m' →
      (m.KeptBy m' ↔ ∀ sys keys,
        lastRead (MultiCryptoLocked.systemsRead m.cryptoUse data) sys = some keys →
          keys = m.cryptolistsGeneral sys) := by
  constructor
  · intro m m' h
    rw [MultiCryptoStrings.loadFromBin_of_eq_error h, MultiCryptoStrings.KeptBy, and_iff_left rfl]
    exact foldl_update_eq_self_iff
  · intro m m' h
    rw [MultiCryptoStrings.loadFromBinOf_of_eq_error h, MultiCryptoLocked.foldl_putEntry,
      MultiCryptoLocked.KeptBy, and_iff_left rfl]
    exact foldl_update_eq_self_iff

namespace MultiCryptoStrings

/-- A set with one key, and an octet too many behind it. -/
def oneKeyAndMore : Bytes := [71, 77, 75, 97, 111, 1, 120, 1, 1, 5, 0]

/-- A set that has that key. -/
def withThatKey : MultiCryptoStrings :=
  (new .open).addKey CryptoSystemType.x25519.nr [5]

/-- It is refused, and nothing has changed. -/
theorem atomic_iff_example :
    withThatKey.KeptBy (finalState (loadFromBin oneKeyAndMore) withThatKey) := by
  have hrefused : loadFromBin oneKeyAndMore withThatKey =
      .error (.throw (.runtimeError "Format incorrect: extra elements at end"))
        (finalState (loadFromBin oneKeyAndMore) withThatKey) := rfl
  exact ((atomic_iff _ _).1 _ _ hrefused).mpr (by decide +kernel)

/-- A new object keeps the key that was read. -/
theorem not_keptBy :
    ¬ ∀ (m m' : MultiCryptoStrings) (data : Bytes) (e : Exn),
      loadFromBin data m = .error (.throw e) m' → m.KeptBy m' := by
  intro h
  have hrefused : loadFromBin oneKeyAndMore (new .open) =
      .error (.throw (.runtimeError "Format incorrect: extra elements at end"))
        (finalState (loadFromBin oneKeyAndMore) (new .open)) := rfl
  have hlists := congrFun (h _ _ _ _ hrefused).1 CryptoSystemType.x25519.nr
  exact absurd hlists (by decide +kernel)

end MultiCryptoStrings

end Galaxy42
