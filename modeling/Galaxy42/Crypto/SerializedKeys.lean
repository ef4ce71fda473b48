import Galaxy42.Crypto.Fingerprint

/-!
# Sending public keys

`serialize_bin` writes a set of keys, and `load_from_bin` on a new object reads it back. Here: when a
set can be written and what is written (`serializeBin_eq_ok_iff`), and that public keys come back as
they were (`MultikeysPub.ofBin_serializedOctets`), except for what is not written, the cached hash and
the prefix of the address, which are those of a new object.

A set can be written when all its systems have letters and its numbers fit; it can be read when, in addition,
no key is longer than the parser takes. The general round trip is `loadFromBin_of_serializeBin`, which needs
no more than that. The loop of `load_from_bin` reads a system and puts it into the object in one round, so it
is a program over two things, the cursor and the object (`onFst_of_reads`); each round reads what one round of
the writer wrote, and the lists that are put are those of the systems in use.

What `load_from_bin` accepts besides what is written is the subject of `KeySyntax`.
-/

namespace Galaxy42

open Toolkit Program TrivialSerialize

variable {σ : Type}

/-- A program of the first component, with a reader there. -/
theorem onFst_of_reads {α τ : Type} {r : Parser α} {out : Bytes} {x : α} (h : Reads r out x)
    (pre suf : Bytes) (t : τ) :
    onFst r (Cursor.between pre (out ++ suf), t) = .ok x (Cursor.between (pre ++ out) suf, t) := by
  rw [onFst_eq_ok_iff]
  exact ⟨h pre suf, rfl⟩

namespace MultiCryptoStrings

/-! ### Writing -/

/-- What is written of one system: its letter as a number, and its keys. -/
def systemOctets (m : MultiCryptoStrings) (sys : SystemNr) : Bytes :=
  uvarintOctets (letter sys).toUInt8.toNat ++
    vectorOctets LawfulObj.octets (m.cryptolistsGeneral sys)

/-- The serialized set. -/
def serializedOctets (m : MultiCryptoStrings) : Bytes :=
  magicMarker ++ [magicVersion] ++ [m.cryptoUse.value] ++
    (uvarintOctets m.usedSystems.length ++ m.usedSystems.flatMap (systemOctets m))

/-- The numbers and the lengths of the keys can be written. -/
def KeysFit (keys : List Bytes) : Prop :=
  keys.length < uvarintLimit ∧ ∀ key ∈ keys, key.length < uvarintLimit

private theorem letter_lt (sys : SystemNr) : (letter sys).toUInt8.toNat < uvarintLimit :=
  (UInt8.toNat_lt _).trans (by decide)

/-- One round of the loop over the key systems. -/
private theorem emits_pushSystem (m : MultiCryptoStrings) (ix : SystemNr) :
    Emits (pushSystem m ix)
      (ix ∈ m.usedSystems →
        (∃ ID, CryptoSystemType.toID ix = .ok ID) ∧ KeysFit (m.cryptolistsGeneral ix))
      (if ix ∈ m.usedSystems then systemOctets m ix else []) := by
  unfold pushSystem
  by_cases hix : ix ∈ m.usedSystems
  · have hcount : m.getCountKeysInSystem ix ≠ 0 := by simpa [usedSystems] using hix
    have hrest : Emits (do
        pushIntegerUvarint (letter ix).toUInt8.toNat
        pushVectorObject (m.cryptolistsGeneral ix)) (KeysFit (m.cryptolistsGeneral ix))
        (systemOctets m ix) :=
      ((emits_pushIntegerUvarint _).seq (emits_pushVectorObject _)).congr
        (and_iff_right (letter_lt ix)) fun _ => rfl
    rw [if_pos hcount, if_pos hix]
    refine (emits_fromExcept_toID (w := fun ID => do
      pushIntegerUvarint ID.toUInt8.toNat
      pushVectorObject (m.cryptolistsGeneral ix)) hrest).congr ?_ fun _ => rfl
    exact ⟨fun h _ => h, fun h => h hix⟩
  · have hcount : ¬ m.getCountKeysInSystem ix ≠ 0 := by simpa [usedSystems] using hix
    rw [if_neg hcount, if_neg hix]
    exact Emits.pure.congr (by simp [hix]) fun _ => rfl

/-- A set can be serialized exactly when every system with keys has a letter, and its keys can be
written. -/
theorem serializeBin_eq_ok_iff {m : MultiCryptoStrings} {s s' : σ} {out : Bytes} :
    m.serializeBin s = .ok out s' ↔
      (m.HasLetters ∧ ∀ sys, KeysFit (m.cryptolistsGeneral sys)) ∧ out = m.serializedOctets ∧
        s = s' := by
  have hloop : Emits ((List.finRange systemCount).forM (pushSystem m))
      (m.HasLetters ∧ ∀ sys, KeysFit (m.cryptolistsGeneral sys))
      (m.usedSystems.flatMap (systemOctets m)) := by
    refine (Emits.forM (emits_pushSystem m) _).congr ?_ fun _ => flatMap_usedSystems m _
    constructor
    · intro h
      refine ⟨fun sys hsys => (h sys (List.mem_finRange sys) hsys).1, fun sys => ?_⟩
      by_cases hsys : sys ∈ m.usedSystems
      · exact (h sys (List.mem_finRange sys) hsys).2
      · have hnil : m.cryptolistsGeneral sys = [] := by
          by_contra hne
          exact hsys (mem_usedSystems.mpr hne)
        rw [hnil]
        exact ⟨by decide, fun _ hkey => absurd hkey List.not_mem_nil⟩
    · rintro ⟨hletters, hfit⟩ sys - hsys
      exact ⟨hletters sys hsys, hfit sys⟩
  have hlen := m.length_usedSystems_lt
  unfold serializeBin
  rw [generate_eq_ok_iff_of_emits ((emits_pushBytesN 3 magicMarker).seq ((emits_pushByteU _).seq
    ((emits_pushByteU _).seq ((emits_pushIntegerUvarint _).seq hloop))))]
  simp [serializedOctets, hlen, magicMarker]

/-! ### Reading back -/

/-- The parser accepts the lengths of the keys. -/
def KeysShort (m : MultiCryptoStrings) : Prop :=
  ∀ sys, (m.cryptolistsGeneral sys).length < uvarintLimit ∧
    ∀ key ∈ m.cryptolistsGeneral sys, key.length ≤ saneMaxSizeForString

/-- One round of the loop of `load_from_bin` reads what one round of `serialize_bin` wrote. -/
private theorem loadSystem_systemOctets {m : MultiCryptoStrings} (hshort : m.KeysShort)
    {sys : SystemNr} (hletter : ∃ ID, CryptoSystemType.toID sys = .ok ID) (pre suf : Bytes)
    (m' : MultiCryptoStrings) :
    loadSystem (Cursor.between pre (systemOctets m sys ++ suf), m') =
      .ok () (Cursor.between (pre ++ systemOctets m sys) suf,
        { m' with cryptolistsGeneral :=
          Function.update m'.cryptolistsGeneral sys (m.cryptolistsGeneral sys) }) := by
  obtain ⟨ID, hID⟩ := hletter
  obtain ⟨type, hsys, htype⟩ := CryptoSystemType.fromID_of_toID hID
  have hletter : letter sys = ID := by rw [letter, hID]
  have hnumber := onFst_of_reads (reads_popIntegerUvarint (letter_lt sys)) pre
    (vectorOctets LawfulObj.octets (m.cryptolistsGeneral sys) ++ suf) m'
  have hkeys := onFst_of_reads (reads_popVectorObject (hshort sys).1
      (fun key hkey => lt_uvarintLimit_of_le_sane ((hshort sys).2 key hkey)) (hshort sys).2)
    (pre ++ uvarintOctets (letter sys).toUInt8.toNat) suf m'
  have hfrom : CryptoSystemType.fromID (UInt8.ofNat (letter sys).toUInt8.toNat).toInt8 =
      .ok type := by
    rw [UInt8.ofNat_toNat, hletter]
    exact htype
  rw [systemOctets, List.append_assoc, loadSystem, bind_of_ok hnumber,
    bind_of_ok (fromExcept_eq_ok_iff.mpr ⟨hfrom, rfl⟩), bind_of_ok hkeys,
    CryptoSystemType.nr_of_ofInt hsys, List.append_assoc]
  rfl

/-- The loop of `load_from_bin` reads what the loop of `serialize_bin` wrote. -/
private theorem loadSystems_systemOctets {m : MultiCryptoStrings} (hshort : m.KeysShort)
    (syss : List SystemNr) :
    ∀ (pre suf : Bytes) (m' : MultiCryptoStrings),
      (∀ sys ∈ syss, ∃ ID, CryptoSystemType.toID sys = .ok ID) →
      ∃ us, replicateM loadSystem syss.length
          (Cursor.between pre (syss.flatMap (systemOctets m) ++ suf), m') =
        .ok us (Cursor.between (pre ++ syss.flatMap (systemOctets m)) suf,
          { m' with cryptolistsGeneral := fun sys =>
            if sys ∈ syss then m.cryptolistsGeneral sys else m'.cryptolistsGeneral sys }) := by
  induction syss with
  | nil =>
    intro pre suf m' _
    exact ⟨[], by simp [replicateM]⟩
  | cons sys syss ih =>
    intro pre suf m' hletters
    obtain ⟨hletter, hletters⟩ := List.forall_mem_cons.mp hletters
    have hfirst := loadSystem_systemOctets hshort hletter pre
      (syss.flatMap (systemOctets m) ++ suf) m'
    obtain ⟨us, hrest⟩ := ih (pre ++ systemOctets m sys) suf _ hletters
    have hlists : ∀ sys', (if sys' ∈ syss then m.cryptolistsGeneral sys' else
          Function.update m'.cryptolistsGeneral sys (m.cryptolistsGeneral sys) sys') =
        if sys' ∈ sys :: syss then m.cryptolistsGeneral sys' else m'.cryptolistsGeneral sys' := by
      intro sys'
      by_cases hmem : sys' ∈ syss
      · simp [hmem]
      · by_cases heq : sys' = sys
        · subst heq
          simp [hmem]
        · simp [hmem, heq]
    refine ⟨() :: us, ?_⟩
    rw [List.flatMap_cons, List.append_assoc, List.length_cons, replicateM, bind_of_ok hfirst,
      bind_of_ok hrest, List.append_assoc]
    simp only [hlists, pure_apply]

/-- `load_from_bin` on a new object reads what `serialize_bin` wrote. -/
theorem loadFromBin_serializedOctets {m : MultiCryptoStrings} (hletters : m.HasLetters)
    (hshort : m.KeysShort) :
    loadFromBin m.serializedOctets (new m.cryptoUse) = .ok () { m with hashCached := [] } := by
  have hne : m.serializedOctets ≠ [] := by simp [serializedOctets, magicMarker]
  have hcount : m.usedSystems.length ≤ 100 := m.length_usedSystems_le.trans (by decide)
  -- One read for each piece that was written, with what is left behind it.
  have hmagic := onFst_of_reads (reads_popBytesN magicMarker) []
    ([magicVersion] ++ ([m.cryptoUse.value] ++ (uvarintOctets m.usedSystems.length ++
      (m.usedSystems.flatMap (systemOctets m) ++ [])))) (new m.cryptoUse)
  have hversion := onFst_of_reads (reads_popByteU magicVersion) ([] ++ magicMarker)
    ([m.cryptoUse.value] ++ (uvarintOctets m.usedSystems.length ++
      (m.usedSystems.flatMap (systemOctets m) ++ []))) (new m.cryptoUse)
  have huse := onFst_of_reads (reads_popByteU m.cryptoUse.value)
    ([] ++ magicMarker ++ [magicVersion]) (uvarintOctets m.usedSystems.length ++
      (m.usedSystems.flatMap (systemOctets m) ++ [])) (new m.cryptoUse)
  have hsize := onFst_of_reads (reads_popIntegerUvarint m.length_usedSystems_lt)
    ([] ++ magicMarker ++ [magicVersion] ++ [m.cryptoUse.value])
    (m.usedSystems.flatMap (systemOctets m) ++ []) (new m.cryptoUse)
  obtain ⟨us, hsystems⟩ := loadSystems_systemOctets hshort m.usedSystems
    ([] ++ magicMarker ++ [magicVersion] ++ [m.cryptoUse.value] ++
      uvarintOctets m.usedSystems.length) [] (new m.cryptoUse) hletters
  have hstart : Cursor.start m.serializedOctets = Cursor.between [] (magicMarker ++ ([magicVersion] ++
      ([m.cryptoUse.value] ++ (uvarintOctets m.usedSystems.length ++
        (m.usedSystems.flatMap (systemOctets m) ++ []))))) := by
    simp [serializedOctets, Cursor.start, Cursor.between]
  -- The systems that were not written have no keys, and neither has a new object.
  have hlists : (fun sys => if sys ∈ m.usedSystems then m.cryptolistsGeneral sys else
      (new m.cryptoUse).cryptolistsGeneral sys) = m.cryptolistsGeneral := by
    funext sys
    by_cases hsys : m.cryptolistsGeneral sys = []
    · simp [mem_usedSystems, hsys, new]
    · simp [mem_usedSystems, hsys]
  rw [loadFromBin, bind_of_ok (parserOfString_of_ne_nil hne _), withLocal_eq_ok_iff, hstart]
  refine ⟨Cursor.between ([] ++ magicMarker ++ [magicVersion] ++ [m.cryptoUse.value] ++
    uvarintOctets m.usedSystems.length ++ m.usedSystems.flatMap (systemOctets m)) [], ?_⟩
  rw [loadFromParser, show (3 : ℕ) = magicMarker.length from rfl, bind_of_ok hmagic,
    bind_of_ok (a := ()) (checkThat_eq_ok_iff.mpr ⟨rfl, rfl⟩), bind_of_ok hversion, bind_of_ok huse]
  have hget : ∀ c : Cursor UInt8, (onSnd get : Program Exn (Cursor UInt8 × MultiCryptoStrings) _)
      (c, new m.cryptoUse) = .ok (new m.cryptoUse) (c, new m.cryptoUse) := fun _ => rfl
  have huse' : m.cryptoUse.value = (new m.cryptoUse).cryptoUse.value := rfl
  rw [bind_of_ok (hget _), bind_of_ok (a := ()) (checkThat_eq_ok_iff.mpr ⟨huse', rfl⟩),
    bind_of_ok (a := ()) (checkThat_eq_ok_iff.mpr ⟨rfl, rfl⟩), bind_of_ok hsize,
    bind_of_ok (a := ()) (assertThat_eq_ok_iff.mpr ⟨hcount, rfl⟩), bind_of_ok hsystems, hlists,
    bind_of_ok (a := true) (onFst_eq_ok_iff.mpr ⟨isEnd_between _ [], rfl⟩),
    bind_of_ok (a := ()) (checkThat_eq_ok_iff.mpr ⟨rfl, rfl⟩)]
  rfl

/-- A set whose systems with keys all have a letter, and whose keys have sane lengths, can be serialized (the
numbers of keys are sizes of vectors), and whatever is serialized loads into a new object of the same use as
the same keys, with the same freshly calculated hash. The order of the keys in a system is kept, and so is a
key that occurs twice. -/
theorem loadFromBin_of_serializeBin (lib : CryptoLib) {m : MultiCryptoStrings}
    (hletters : m.HasLetters)
    (hsane : ∀ sys, ∀ key ∈ m.cryptolistsGeneral sys, key.length ≤ saneMaxSizeForString) (s : σ) :
    ((∀ sys, m.getCountKeysInSystem sys < uvarintLimit) → ∃ out, m.serializeBin s = .ok out s) ∧
      ∀ out s', m.serializeBin s = .ok out s' → ∃ m' hash,
        loadFromBin out (new m.cryptoUse) = .ok () m' ∧ m'.cryptoUse = m.cryptoUse ∧
          (∀ sys, m'.cryptolistsGeneral sys = m.cryptolistsGeneral sys) ∧
          m'.readHash lib s = .ok hash s ∧ m.setHashDirty.readHash lib s = .ok hash s := by
  constructor
  · intro hcount
    refine ⟨m.serializedOctets, serializeBin_eq_ok_iff.mpr ⟨⟨hletters, fun sys => ?_⟩, rfl, rfl⟩⟩
    exact ⟨hcount sys, fun key hkey => lt_uvarintLimit_of_le_sane (hsane sys key hkey)⟩
  · intro out s' hout
    obtain ⟨⟨-, hfit⟩, rfl, rfl⟩ := serializeBin_eq_ok_iff.mp hout
    have hload := loadFromBin_serializedOctets hletters fun sys => ⟨(hfit sys).1, hsane sys⟩
    have hhash : m.setHashDirty.readHash lib s =
        .ok (lib.hash1 (m.setHashDirty.fingerprintOctets lib)) s :=
      (readHash_eq_ok_iff (.inl rfl)).mpr ⟨hletters, rfl, rfl⟩
    exact ⟨m.setHashDirty, _, hload, rfl, fun _ => rfl, hhash, hhash⟩

theorem loadFromBin_of_serializeBin_example :
    ∃ out m' hash, ((new .open).addKey CryptoSystemType.x25519.nr [1]).serializeBin () = .ok out () ∧
      loadFromBin out (new .open) = .ok () m' ∧
      m'.cryptolistsGeneral CryptoSystemType.x25519.nr = [[1]] ∧
      m'.readHash CryptoLib.sample () = .ok hash () := by
  have hletters : ((new .open).addKey CryptoSystemType.x25519.nr [1]).HasLetters :=
    (hasLetters_new .open).addKey rfl [1]
  have hsane : ∀ sys, ∀ key ∈ ((new .open).addKey CryptoSystemType.x25519.nr
      [1]).cryptolistsGeneral sys, key.length ≤ saneMaxSizeForString := by decide
  obtain ⟨hserialize, hload⟩ := loadFromBin_of_serializeBin CryptoLib.sample hletters hsane ()
  obtain ⟨out, hout⟩ := hserialize (by decide)
  obtain ⟨m', hash, hm', -, hlists, hhash, -⟩ := hload out () hout
  exact ⟨out, m', hash, hout, hm', hlists _, hhash⟩

end MultiCryptoStrings

/-- Public keys are read back as they were, but with the cached hash and the prefix of a new object. The order
of keys and repetitions of them are kept. -/
theorem MultikeysPub.ofBin_serializedOctets {pub : MultikeysPub} (huse : pub.cryptoUse = .open)
    (hletters : pub.HasLetters) (hshort : pub.KeysShort) (s : σ) :
    MultikeysPub.ofBin pub.serializedOctets s =
      .ok { MultikeysPub.new with cryptolistsGeneral := pub.cryptolistsGeneral } s := by
  have hload := MultiCryptoStrings.loadFromBin_serializedOctets hletters hshort
  rw [huse] at hload
  have hwithin : (withinState (MultiCryptoStrings.new .open)
      (MultiCryptoStrings.loadFromBin pub.serializedOctets) : Program Exn σ _) s = .ok ((),
        { MultiCryptoStrings.new .open with cryptolistsGeneral := pub.cryptolistsGeneral }) s :=
    withinState_eq_ok_iff.mpr ⟨hload, rfl⟩
  rw [MultikeysPub.ofBin, bind_of_ok hwithin]
  rfl

end Galaxy42
