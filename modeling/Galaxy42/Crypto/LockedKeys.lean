import Galaxy42.Crypto.KeySyntax

/-!
# Private keys in locked memory

Private keys are kept in `sodiumpp::locked_string`s. They are written as other strings are
(`serializeBinLocked_eq`), but read straight into a buffer of locked memory, which
`copy_iter_and_check_no_overlap` fills. That function takes the last octet of a range and refuses an
empty one, and it is given the end of the range. So one octet too many is copied into every buffer
(`overrun_of_objDeserialize`), and an empty string is not read back at all.

Private keys therefore come back exactly when none of them is empty, and nothing is written outside of
the buffers only when there are no keys (`survives_iff`).

A buffer of locked memory is its size together with the octets that were copied to its place, so that an
octet behind its end can be seen. What the keys are afterwards is what lies inside (`LockedBuffer.octets`).
The octet too many is the one behind the string in the data, or the zero behind the data when the string is
the last thing there; it is copied out of the buffer in any case.

The loop of `load_from_bin` is the one of `KeySyntax`, at another type of keys: a decoder of locked strings in
place of the one of ordinary strings. The two agree on a string exactly when it is not empty
(`decodesAlike_iff`).
-/

namespace Galaxy42

open Toolkit Program

namespace TrivialSerialize

variable {σ : Type}

/-! ### Locked strings -/

/-- A `sodiumpp::locked_string` that is serialized. -/
structure LockedString where
  /-- `get_string` -/
  octets : Bytes

/-- `obj_serialize<sodiumpp::locked_string>` -/
instance : ObjSerialize LockedString := ⟨fun data => do
  pushIntegerUvarint data.octets.length
  pushBytesN data.octets.length data.octets⟩

/-- A `sodiumpp::locked_string` that has been filled from the first place of its buffer on. -/
structure LockedBuffer where
  /-- The size of the buffer. -/
  size : ℕ
  /-- The octets that were copied to the buffer. -/
  written : Bytes

namespace LockedBuffer

/-- The octets in the buffer. -/
def octets (buffer : LockedBuffer) : Bytes :=
  buffer.written.take buffer.size

/-- Nothing was written behind the end of the buffer. -/
def Inside (buffer : LockedBuffer) : Prop :=
  buffer.written.length ≤ buffer.size

/-- One octet was written behind the end of a buffer that is not empty. -/
def Overrun (buffer : LockedBuffer) : Prop :=
  0 < buffer.size ∧ buffer.written.length = buffer.size + 1

private theorem Overrun.not_inside {buffer : LockedBuffer} (h : buffer.Overrun) : ¬ buffer.Inside := by
  have hlen := h.2
  unfold Inside
  omega

private theorem Overrun.octets_ne_nil {buffer : LockedBuffer} (h : buffer.Overrun) : buffer.octets ≠ [] := by
  obtain ⟨hpos, hlen⟩ := h
  refine List.ne_nil_of_length_pos ?_
  rw [octets, List.length_take]
  omega

end LockedBuffer

/-- `stdplus::copy_iter_and_check_no_overlap(first, last, d_first, size)`: the octets that are copied.
Those from `first` on are given, and how far it is to `last`, which is copied too. The two ranges belong
to different objects, so they never overlap. -/
def copyIterAndCheckNoOverlap (fromFirst : Bytes) (toLast size : ℕ) : Program Exn σ Bytes := do
  assertThat (size > 0)
  return fromFirst.take (toLast + 1)

/-- `parser::pop_bytes_n_into_buff`: the octets that are copied. Behind the data stands the zero that ends
a `std::string`. -/
def popBytesNIntoBuff (size : ℕ) : Parser Bytes := do
  let c ← get
  checkThat (c.ahead ≠ []) .formatErrorRead
  checkThat (c.ahead.length ≥ size) .formatErrorRead
  set (c.advance size)
  copyIterAndCheckNoOverlap (c.ahead ++ [0]) size size

/-- `obj_deserialize<sodiumpp::locked_string>` -/
instance : ObjDeserialize LockedBuffer := ⟨do
  let size ← popIntegerUvarint
  let written ← popBytesNIntoBuff size
  return ⟨size, written⟩⟩

/-- What is copied, when it is. -/
theorem popBytesNIntoBuff_eq_ok_iff {size : ℕ} {c c' : Cursor UInt8} {written : Bytes} :
    popBytesNIntoBuff size c = .ok written c' ↔ 0 < size ∧ size ≤ c.ahead.length ∧
      (c.ahead ++ [0]).take (size + 1) = written ∧ c.advance size = c' := by
  simp only [popBytesNIntoBuff, copyIterAndCheckNoOverlap, bind_eq_ok_iff, get_apply, set_apply,
    checkThat_eq_ok_iff, assertThat_eq_ok_iff, pure_apply, EStateM.Result.ok.injEq]
  constructor
  · rintro ⟨_, _, ⟨rfl, rfl⟩, _, _, ⟨-, rfl⟩, _, _, ⟨hle, rfl⟩, _, _, ⟨-, rfl⟩, _, _, ⟨hpos, rfl⟩, h⟩
    exact ⟨hpos, hle, h⟩
  · rintro ⟨hpos, hle, h⟩
    have hne : c.ahead ≠ [] := List.ne_nil_of_length_pos (hpos.trans_le hle)
    exact ⟨c, c, ⟨rfl, rfl⟩, (), c, ⟨hne, rfl⟩, (), c, ⟨hle, rfl⟩, ⟨⟩, _, ⟨trivial, rfl⟩, (), _,
      ⟨hpos, rfl⟩, h⟩

/-- Every buffer that is filled is overrun. This goes back to the last element of the range that is copied,
which is one too far. -/
theorem overrun_of_objDeserialize {c c' : Cursor UInt8} {buffer : LockedBuffer}
    (h : objDeserialize c = .ok buffer c') : buffer.Overrun := by
  obtain ⟨size, c₁, -, h⟩ := bind_eq_ok_iff.mp h
  obtain ⟨written, c₂, hwritten, h⟩ := bind_eq_ok_iff.mp h
  obtain ⟨rfl, -⟩ := EStateM.Result.ok.inj h
  obtain ⟨hpos, hle, rfl, -⟩ := popBytesNIntoBuff_eq_ok_iff.mp hwritten
  refine ⟨hpos, ?_⟩
  rw [List.length_take, List.length_append, List.length_singleton,
    Nat.min_eq_left (Nat.succ_le_succ hle)]

/-- A string that is not empty is read into a buffer of its length. -/
private theorem objDeserialize_locked {data : Bytes} (hne : data ≠ []) (hlim : data.length < uvarintLimit)
    (pre suf : Bytes) :
    objDeserialize (.between pre (varstringOctets data ++ suf)) =
      .ok (⟨data.length, (data ++ suf ++ [0]).take (data.length + 1)⟩ : LockedBuffer)
        (.between (pre ++ varstringOctets data) suf) := by
  have hsize := reads_popIntegerUvarint hlim pre (data ++ suf)
  rw [← List.append_assoc, ← varstringOctets] at hsize
  have hbuff : popBytesNIntoBuff data.length
      (.between (pre ++ uvarintOctets data.length) (data ++ suf)) =
      .ok ((data ++ suf ++ [0]).take (data.length + 1))
        (.between (pre ++ varstringOctets data) suf) := by
    refine popBytesNIntoBuff_eq_ok_iff.mpr ⟨List.length_pos_of_ne_nil hne, ?_, ?_, ?_⟩
    · simp
    · rw [Cursor.ahead_between]
    · rw [Cursor.advance_between, varstringOctets, List.append_assoc]
  exact (bind_of_ok hsize).trans (bind_of_ok hbuff)

/-- What is left in the buffer is the string. -/
theorem reads_locked {data : Bytes} (hne : data ≠ []) (hlim : data.length < uvarintLimit) :
    Reads (LockedBuffer.octets <$> objDeserialize) (varstringOctets data) data := by
  intro pre suf
  rw [map_apply, objDeserialize_locked hne hlim]
  simp [LockedBuffer.octets, List.take_take]

/-- On the octets of a string, the decoder of locked strings gives what the decoder of ordinary strings
gives, and stops at the same place. -/
def DecodesAlike (key : Bytes) : Prop :=
  ∀ pre suf data c, objDeserialize (.between pre (varstringOctets key ++ suf)) = .ok data c →
    ∃ buffer : LockedBuffer, objDeserialize (.between pre (varstringOctets key ++ suf)) =
      .ok buffer c ∧ buffer.octets = (data : Bytes)

/-- The two decoders agree on a string exactly when it is not empty. -/
theorem decodesAlike_iff {key : Bytes} (hlim : key.length < uvarintLimit) :
    DecodesAlike key ↔ key ≠ [] := by
  constructor
  · rintro h rfl
    obtain ⟨buffer, hbuffer, hempty⟩ := h [] [] [] _ (reads_popVarstring (Nat.zero_le _) [] [])
    exact (overrun_of_objDeserialize hbuffer).octets_ne_nil hempty
  · intro hne pre suf data c h
    by_cases hsane : key.length ≤ saneMaxSizeForString
    · obtain ⟨rfl, rfl⟩ := EStateM.Result.ok.inj ((reads_popVarstring hsane pre suf).symm.trans h)
      have hread := reads_locked hne hlim pre suf
      rw [map_eq_ok_iff] at hread
      exact hread
    · have habort := popVarstring_between_oversize (not_le.mp hsane) hlim pre (key ++ suf)
      rw [← List.append_assoc, ← varstringOctets] at habort
      exact absurd (habort.symm.trans h) (by simp)

end TrivialSerialize

open TrivialSerialize

variable {σ : Type}

namespace MultiCryptoStrings

/-! ### Writing -/

/-- One round of the loop of `serialize_bin`, for private keys. -/
def pushSystemLocked (m : MultiCryptoStrings) (ix : SystemNr) : Generator Unit := do
  if m.getCountKeysInSystem ix ≠ 0 then
    let ID ← fromExcept (CryptoSystemType.toID ix)
    pushIntegerUvarint ID.toUInt8.toNat
    pushVectorObject ((m.cryptolistsGeneral ix).map LockedString.mk)

/-- `serialize_bin`, for private keys. -/
def serializeBinLocked (m : MultiCryptoStrings) : Program Exn σ Bytes :=
  generate do
    pushBytesN 3 magicMarker
    pushByteU magicVersion
    pushByteU m.cryptoUse.value
    pushIntegerUvarint m.usedSystems.length
    (List.finRange systemCount).forM (pushSystemLocked m)

/-- Private keys are written as other strings are. -/
theorem serializeBinLocked_eq (m : MultiCryptoStrings) :
    (m.serializeBinLocked : Program Exn σ Bytes) = m.serializeBin := by
  have hvector : ∀ keys : List Bytes,
      pushVectorObject (keys.map LockedString.mk) = pushVectorObject keys := by
    intro keys
    have hkeys : (keys.map LockedString.mk).forM pushObject = keys.forM pushObject := by
      induction keys with
      | nil => rfl
      | cons key keys ih => exact congrArg (pushVarstring key >>= fun _ => ·) ih
    rw [pushVectorObject, pushVectorObject, List.length_map, hkeys]
  have hsystem : pushSystemLocked m = pushSystem m := by
    funext ix
    rw [pushSystemLocked, pushSystem, hvector]
  rw [serializeBinLocked, serializeBin, hsystem]

end MultiCryptoStrings

/-- `c_multicryptostrings<sodiumpp::locked_string>`, as it is loaded: the lists are of buffers. -/
structure MultiCryptoLocked where
  /-- `m_cryptolists_general` -/
  cryptolistsGeneral : SystemNr → List LockedBuffer
  /-- `m_hash_cached` -/
  hashCached : Bytes
  /-- `m_crypto_use` -/
  cryptoUse : CryptoUse

namespace MultiCryptoLocked

open MultiCryptoStrings (KeysFit entryOctets headerOctets loadEntries loadFromBinOf loadFromBinOf_eq_ok_iff
  popHeader_eq_ok_iff popSystemOf serializeBin_eq_ok_iff)

/-! ### Loading -/

/-- A new object without strings. -/
def new (cryptoUse : CryptoUse) : MultiCryptoLocked :=
  { cryptolistsGeneral := fun _ => [], hashCached := [], cryptoUse }

/-- `set_hash_dirty` -/
def setHashDirty (m : MultiCryptoLocked) : MultiCryptoLocked :=
  { m with hashCached := [] }

/-- The buffers of one system replace those of an object. -/
def putEntry (m : MultiCryptoLocked) (entry : SystemNr × List LockedBuffer) : MultiCryptoLocked :=
  { m with cryptolistsGeneral := Function.update m.cryptolistsGeneral entry.1 entry.2 }

/-- `load_from_bin` -/
def loadFromBin (data : Bytes) : Program Exn MultiCryptoLocked Unit :=
  loadFromBinOf cryptoUse setHashDirty popVectorObject putEntry data

/-- The strings in the buffers. -/
def strings (m : MultiCryptoLocked) (sys : SystemNr) : List Bytes :=
  (m.cryptolistsGeneral sys).map LockedBuffer.octets

private theorem strings_putEntry (m : MultiCryptoLocked) (entry : SystemNr × List LockedBuffer) :
    (putEntry m entry).strings =
      Function.update m.strings entry.1 (entry.2.map LockedBuffer.octets) := by
  funext sys
  by_cases hsys : sys = entry.1
  · subst hsys
    simp [strings, putEntry]
  · simp [strings, putEntry, hsys]

/-- The strings after all systems have been loaded. -/
private theorem strings_foldl_putEntry (entries : List (SystemNr × List LockedBuffer))
    (m : MultiCryptoLocked) :
    (entries.foldl putEntry m).strings =
      loadEntries m.strings (entries.map (Prod.map id (List.map LockedBuffer.octets))) := by
  induction entries generalizing m with
  | nil => rfl
  | cons entry entries ih =>
    rw [List.foldl_cons, ih, strings_putEntry]
    rfl

/-- Every buffer of a loaded object is overrun. -/
theorem overrun_of_loadFromBin {data : Bytes} {cryptoUse : CryptoUse} {m : MultiCryptoLocked}
    {u : Unit} (h : loadFromBin data (new cryptoUse) = .ok u m) {sys : SystemNr}
    {buffer : LockedBuffer} (hbuffer : buffer ∈ m.cryptolistsGeneral sys) : buffer.Overrun := by
  obtain ⟨mapSize, c₁, entries, c₂, -, hentries, -, rfl⟩ := loadFromBinOf_eq_ok_iff.mp h
  have hoverrun : ∀ entry ∈ entries, ∀ buffer ∈ entry.2, buffer.Overrun := by
    refine forall_of_replicateM_eq_ok (fun c entry c' hentry => ?_) hentries
    obtain ⟨number, c₁, -, hentry⟩ := bind_eq_ok_iff.mp hentry
    obtain ⟨type, c₂, -, hentry⟩ := bind_eq_ok_iff.mp hentry
    obtain ⟨keys, c₃, hkeys, hentry⟩ := bind_eq_ok_iff.mp hentry
    obtain ⟨rfl, -⟩ := EStateM.Result.ok.inj hentry
    obtain ⟨size, c₄, -, hkeys⟩ := bind_eq_ok_iff.mp hkeys
    exact forall_of_replicateM_eq_ok (fun _ _ _ h => overrun_of_objDeserialize h) hkeys
  have hinv : ∀ (entries : List (SystemNr × List LockedBuffer)) (m : MultiCryptoLocked),
      (∀ entry ∈ entries, ∀ buffer ∈ entry.2, buffer.Overrun) →
      (∀ sys, ∀ buffer ∈ m.cryptolistsGeneral sys, buffer.Overrun) →
      ∀ sys, ∀ buffer ∈ (entries.foldl putEntry m).cryptolistsGeneral sys, buffer.Overrun := by
    intro entries
    induction entries with
    | nil => exact fun m _ hm => hm
    | cons entry entries ih =>
      intro m hentries hm
      obtain ⟨hentry, hentries⟩ := List.forall_mem_cons.mp hentries
      refine ih (putEntry m entry) hentries fun sys => ?_
      by_cases hsys : sys = entry.1
      · subst hsys
        simpa [putEntry] using hentry
      · simpa [putEntry, hsys] using hm sys
  exact hinv entries _ hoverrun (fun _ _ h => absurd h List.not_mem_nil) sys buffer hbuffer

/-! ### Saving and loading -/

/-- Loading the data into a new object gives the keys back. The keys are compared as strings, in each system
and in their order. -/
def Restores (m : MultiCryptoStrings) (data : Bytes) (m' : MultiCryptoLocked) : Prop :=
  loadFromBin data (new m.cryptoUse) = .ok () m' ∧ ∀ sys, m'.strings sys = m.cryptolistsGeneral sys

/-- Keys that are not empty are given back. -/
private theorem exists_restores {m : MultiCryptoStrings} (hletters : m.HasLetters)
    (hfit : ∀ sys, KeysFit (m.cryptolistsGeneral sys))
    (hne : ∀ sys, [] ∉ m.cryptolistsGeneral sys) : ∃ m', Restores m m.serializedOctets m' := by
  -- Reading the buffers and looking at their octets is reading the octets.
  have hvector : (List.map LockedBuffer.octets <$> popVectorObject : Parser (List Bytes)) = (do
      let size ← popIntegerUvarint
      replicateM (LockedBuffer.octets <$> objDeserialize) size) := by
    simp only [popVectorObject, popObject, replicateM_map, map_bind]
  have hsystem : Prod.map id (List.map LockedBuffer.octets) <$> popSystemOf popVectorObject =
      popSystemOf (List.map LockedBuffer.octets <$> popVectorObject) := by
    simp [popSystemOf]
  let written := m.usedSystems.map fun sys => (sys, m.cryptolistsGeneral sys)
  have hreads : ∀ entry ∈ written,
      Reads (Prod.map id (List.map LockedBuffer.octets) <$> popSystemOf popVectorObject)
        (entryOctets entry.1 entry.2) entry := by
    intro entry hentry
    obtain ⟨sys, hsys, rfl⟩ := List.mem_map.mp hentry
    rw [hsystem, hvector]
    refine MultiCryptoStrings.reads_popSystemOf (hletters sys hsys)
      ((reads_popIntegerUvarint (hfit sys).1).bind (Reads.replicateM fun key hkey => ?_))
    exact reads_locked (fun hnil => hne sys (hnil ▸ hkey)) ((hfit sys).2 key hkey)
  have hsize := reads_popIntegerUvarint m.length_usedSystems_lt (headerOctets m.cryptoUse)
    (written.flatMap fun entry => entryOctets entry.1 entry.2)
  -- The systems are read one after the other, as they were written.
  have hentries := Reads.replicateM hreads
    (headerOctets m.cryptoUse ++ uvarintOctets m.usedSystems.length) []
  rw [List.append_nil, replicateM_map, map_eq_ok_iff, List.length_map] at hentries
  obtain ⟨entries, hentries, hmap⟩ := hentries
  have hcount : m.usedSystems.length ≤ 100 := m.length_usedSystems_le.trans (by decide)
  have hdata : m.serializedOctets = headerOctets m.cryptoUse ++
      (uvarintOctets m.usedSystems.length ++
        written.flatMap fun entry => entryOctets entry.1 entry.2) := by
    rw [MultiCryptoStrings.serializedOctets_eq, List.flatMap_map]
  refine ⟨setHashDirty (entries.foldl putEntry (new m.cryptoUse)), loadFromBinOf_eq_ok_iff.mpr
    ⟨_, _, entries, _, popHeader_eq_ok_iff.mpr ⟨_, hdata, hsize, hcount⟩, hentries,
      isEnd_between _ [], rfl⟩, fun sys => ?_⟩
  have hstrings : (setHashDirty (entries.foldl putEntry (new m.cryptoUse))).strings =
      loadEntries (fun _ => []) written := by
    rw [← hmap, ← show (new m.cryptoUse).strings = fun _ => [] from rfl, ← strings_foldl_putEntry]
    rfl
  rw [hstrings, MultiCryptoStrings.loadEntries_usedSystems]

/-- What is asked of saving private keys: they are given back, nothing is written outside of their buffers,
and they are read from the same octets as ordinary strings. All three are asked of the data that saving has
written, and of every new object that loads them. -/
structure Survives (m : MultiCryptoStrings) (data : Bytes) : Prop where
  restored : ∃ m', Restores m data m' ∧
    ∀ sys, ∀ buffer ∈ m'.cryptolistsGeneral sys, buffer.Inside
  decodes : ∀ sys, ∀ key ∈ m.cryptolistsGeneral sys, DecodesAlike key

/-- Private keys that have been saved survive exactly when there are none, and they are given back exactly
when none of them is empty. Reading any key writes behind its buffer, and an empty key cannot be read. -/
theorem survives_iff {m : MultiCryptoStrings} {data : Bytes} {s s' : σ}
    (h : m.serializeBinLocked s = .ok data s') :
    (Survives m data ↔ ∀ sys, m.cryptolistsGeneral sys = []) ∧
      ((∃ m', Restores m data m') ↔ ∀ sys, [] ∉ m.cryptolistsGeneral sys) := by
  rw [MultiCryptoStrings.serializeBinLocked_eq] at h
  obtain ⟨⟨hletters, hfit⟩, rfl, -⟩ := serializeBin_eq_ok_iff.mp h
  refine ⟨⟨?_, fun hempty => ⟨?_, ?_⟩⟩, ?_, exists_restores hletters hfit⟩
  · rintro ⟨⟨m', ⟨hload, hstrings⟩, hinside⟩, -⟩ sys
    rw [← hstrings, strings, List.map_eq_nil_iff, List.eq_nil_iff_forall_not_mem]
    exact fun buffer hbuffer =>
      (overrun_of_loadFromBin hload hbuffer).not_inside (hinside sys buffer hbuffer)
  · obtain ⟨m', hload, hstrings⟩ := exists_restores hletters hfit fun sys => by
      rw [hempty]
      exact List.not_mem_nil
    refine ⟨m', ⟨hload, hstrings⟩, fun sys buffer hbuffer => ?_⟩
    have hnone : m'.strings sys = [] := (hstrings sys).trans (hempty sys)
    rw [strings, List.map_eq_nil_iff] at hnone
    exact absurd hbuffer (hnone ▸ List.not_mem_nil)
  · intro sys key hkey
    rw [hempty] at hkey
    exact absurd hkey List.not_mem_nil
  · rintro ⟨m', hload, hstrings⟩ sys hmem
    rw [← hstrings] at hmem
    obtain ⟨buffer, hbuffer, hnil⟩ := List.mem_map.mp hmem
    exact (overrun_of_loadFromBin hload hbuffer).octets_ne_nil hnil

/-- A private key of one octet. -/
def oneKey : MultiCryptoStrings :=
  (MultiCryptoStrings.new .secret).addKey CryptoSystemType.x25519.nr [1]

/-- One private key can be saved. -/
theorem serializeBinLocked_oneKey :
    oneKey.serializeBinLocked () = .ok oneKey.serializedOctets () := by
  rw [MultiCryptoStrings.serializeBinLocked_eq]
  have hfit : ∀ sys, (oneKey.cryptolistsGeneral sys).length < uvarintLimit ∧
      ∀ key ∈ oneKey.cryptolistsGeneral sys, key.length < uvarintLimit := by decide
  exact serializeBin_eq_ok_iff.mpr
    ⟨⟨(MultiCryptoStrings.hasLetters_new .secret).addKey rfl [1], hfit⟩, rfl, rfl⟩

/-- It is given back. -/
theorem survives_iff_example : ∃ m', Restores oneKey oneKey.serializedOctets m' :=
  (survives_iff serializeBinLocked_oneKey).2.mpr (by decide)

/-- But one octet is written behind the end of its buffer. -/
theorem not_survives :
    ¬ ∀ (m : MultiCryptoStrings) (data : Bytes), m.serializeBinLocked () = .ok data () →
      Survives m data := by
  intro h
  obtain ⟨m', ⟨hload, hstrings⟩, hinside⟩ :=
    (h oneKey oneKey.serializedOctets serializeBinLocked_oneKey).restored
  have hkey : [1] ∈ m'.strings CryptoSystemType.x25519.nr := by
    rw [hstrings]
    decide
  obtain ⟨buffer, hbuffer, -⟩ := List.mem_map.mp hkey
  exact (overrun_of_loadFromBin hload hbuffer).not_inside (hinside _ buffer hbuffer)

end MultiCryptoLocked

end Galaxy42
