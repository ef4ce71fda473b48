import Galaxy42.Crypto.KeySyntax

/-!
# The codec of signatures

`serialize_bin` of a set of signatures writes the two systems that can sign, one behind the other, and
`load_from_bin` reads them. It does not look whether something is left behind them, as `load_from_bin` of
keys does, and like that takes numbers in any form. What stands in front of the signatures it asserts, and
the parser asserts their lengths, so that not everything that is refused is refused with an exception.
`loadsExactly_iff` says for which data the codec does what it should: load what was written, and throw on
all else.

The condition has two parts, and both are about the data alone. They must be sane (`SignSane`), which is when
loading does not abort (`signSane_iff`); and a tree of signatures that they begin with must be all of them, in
the form that is written. The second part is vacuous for data that begin with no tree: these are refused as
they should be.

Signatures of systems that cannot sign may be in an object, but they are not written. So what comes back of
such an object are the signatures of the other systems (`cryptolistsGeneral_load_new`), and the codec is only
asked about objects without them (`OnlySigning`).
-/

namespace Galaxy42

open Toolkit Program TrivialSerialize

variable {σ : Type}

namespace Multisign

/-! ### What is written -/

/-- The octets of the signatures of one system: the number of the system, and a vector. -/
def systemOctets (m : Multisign) (type : CryptoSystemType) : Bytes :=
  UInt8.ofNat type.value :: vectorOctets varstringOctets (m.cryptolistsGeneral type.nr)

/-- The serialized signatures. -/
def serializedOctets (m : Multisign) : Bytes :=
  m.systemOctets .ed25519 ++ m.systemOctets .ntruSign

theorem serializeBin_eq_ok_iff {m : Multisign} {s s' : σ} {out : Bytes} :
    m.serializeBin s = .ok out s' ↔
      (MultiCryptoStrings.KeysFit (m.cryptolistsGeneral CryptoSystemType.ed25519.nr) ∧
        MultiCryptoStrings.KeysFit (m.cryptolistsGeneral CryptoSystemType.ntruSign.nr)) ∧
      out = m.serializedOctets ∧ s = s' := by
  rw [serializeBin, getSignatureVec_eq, getSignatureVec_eq, pure_bind, pure_bind]
  rw [generate_eq_ok_iff_of_emits ((emits_pushByteU _).seq ((emits_pushVectorString _).seq
    ((emits_pushByteU _).seq (emits_pushVectorString _))))]
  simp [serializedOctets, systemOctets, MultiCryptoStrings.KeysFit]

private theorem reads_popSignatures {type : CryptoSystemType} {m : Multisign}
    (hcount : (m.cryptolistsGeneral type.nr).length < uvarintLimit)
    (hsane : ∀ sign ∈ m.cryptolistsGeneral type.nr, sign.length ≤ saneMaxSizeForString) :
    Reads (popSignatures type) (m.systemOctets type) (m.cryptolistsGeneral type.nr) := by
  have hvalue : (UInt8.ofNat type.value).toNat = type.value := by cases type <;> rfl
  exact (reads_popByteU (UInt8.ofNat type.value)).bind
    ((Reads.assert hvalue).bind (reads_popVectorString hcount hsane))

/-- The systems that can sign are the two that are written. -/
theorem signing_iff {sys : SystemNr} : Signing sys ↔
    sys = CryptoSystemType.ed25519.nr ∨ sys = CryptoSystemType.ntruSign.nr := by
  constructor
  · rintro ⟨type, htype, hallowed⟩
    rw [← CryptoSystemType.nr_of_ofInt htype]
    cases type <;> simp [cryptosystemSignAllowed] at hallowed ⊢
  · rintro (rfl | rfl)
    · exact ⟨.ed25519, by decide, rfl⟩
    · exact ⟨.ntruSign, by decide, rfl⟩

theorem ofBin_of_loadFromBin {bin : Bytes} {m : Multisign} (h : loadFromBin bin new = .ok () m)
    (s : σ) : ofBin bin s = .ok m s := by
  have hwithin : (withinState new (loadFromBin bin) : Program Exn σ _) s = .ok ((), m) s :=
    withinState_eq_ok_iff.mpr ⟨h, rfl⟩
  exact bind_of_ok hwithin

/-- Written signatures of sane lengths are loaded. -/
theorem loadFromBin_serializedOctets {m : Multisign}
    (hed : (m.cryptolistsGeneral CryptoSystemType.ed25519.nr).length < uvarintLimit)
    (hntru : (m.cryptolistsGeneral CryptoSystemType.ntruSign.nr).length < uvarintLimit)
    (hsane : ∀ sys, Signing sys → ∀ sign ∈ m.cryptolistsGeneral sys,
      sign.length ≤ saneMaxSizeForString) :
    loadFromBin m.serializedOctets new = .ok () ((new.addSignatureVec
      (m.cryptolistsGeneral CryptoSystemType.ed25519.nr) CryptoSystemType.ed25519.nr).addSignatureVec
      (m.cryptolistsGeneral CryptoSystemType.ntruSign.nr) CryptoSystemType.ntruSign.nr) := by
  have hread := (reads_popSignatures hed (hsane _ (signing_iff.mpr (.inl rfl)))).apply_start
    (m.systemOctets .ntruSign)
  have hread' := reads_popSignatures hntru (hsane _ (signing_iff.mpr (.inr rfl)))
    (m.systemOctets .ed25519) []
  rw [List.append_nil] at hread'
  have hparser : (parserOfString m.serializedOctets : Program Exn Multisign _) new =
      .ok (.start m.serializedOctets) new := parserOfString_of_ne_nil (List.cons_ne_nil _ _) new
  rw [loadFromBin, bind_of_ok hparser, withLocal_eq_ok_iff, loadSignatures_eq_readPut,
    loadSignatures_eq_readPut, serializedOctets, bind_of_ok (readPut_of_ok hread)]
  exact ⟨_, readPut_of_ok hread'⟩

/-- What is loaded are the signatures of the systems that can sign, and no others. -/
theorem cryptolistsGeneral_load_new (m : Multisign) (sys : SystemNr) :
    let loaded := (new.addSignatureVec (m.cryptolistsGeneral CryptoSystemType.ed25519.nr)
      CryptoSystemType.ed25519.nr).addSignatureVec
      (m.cryptolistsGeneral CryptoSystemType.ntruSign.nr) CryptoSystemType.ntruSign.nr
    (Signing sys → loaded.cryptolistsGeneral sys = m.cryptolistsGeneral sys) ∧
      (¬ Signing sys → loaded.cryptolistsGeneral sys = []) := by
  intro loaded
  rw [cryptolistsGeneral_load, signing_iff]
  constructor
  · rintro (rfl | rfl)
    · rw [if_pos rfl]
      rfl
    · rw [if_neg (by decide), if_pos rfl]
      rfl
  · intro hsys
    rw [if_neg fun h => hsys (.inl h), if_neg fun h => hsys (.inr h)]
    rfl

end Multisign

namespace TrivialSerialize

/-! ### Sane lengths of what is written -/

variable {pre suf : Bytes}

private theorem lengthSane_iff {data : Bytes} (h : data.length < uvarintLimit) :
    LengthSane (.between pre (varstringOctets data ++ suf)) ↔ data.length ≤ saneMaxSizeForString := by
  have hread := reads_popIntegerUvarint h pre (data ++ suf)
  rw [← List.append_assoc] at hread
  constructor
  · exact fun hsane => hsane _ _ hread
  · intro hle size c hsize
    obtain ⟨rfl, -⟩ := EStateM.Result.ok.inj (hread.symm.trans hsize)
    exact hle

private theorem rounds_lengthSane_iff {strs : List Bytes} (h : ∀ str ∈ strs, str.length < uvarintLimit) :
    ∀ pre, Rounds LengthSane popVarstring strs.length
        (.between pre (strs.flatMap varstringOctets ++ suf)) ↔
      ∀ str ∈ strs, str.length ≤ saneMaxSizeForString := by
  induction strs with
  | nil => exact fun pre => iff_of_true trivial nofun
  | cons str strs ih =>
    intro pre
    obtain ⟨hstr, hstrs⟩ := List.forall_mem_cons.mp h
    rw [List.length_cons, Rounds, List.flatMap_cons, List.append_assoc, lengthSane_iff hstr,
      List.forall_mem_cons]
    refine and_congr_right fun hle => ?_
    -- a string of a sane length is read, so the next round starts behind it
    have hread := reads_popVarstring hle pre (strs.flatMap varstringOctets ++ suf)
    rw [← ih hstrs (pre ++ varstringOctets str)]
    constructor
    · exact fun hrounds => hrounds _ _ hread
    · intro hrounds data c hrun
      obtain ⟨-, rfl⟩ := EStateM.Result.ok.inj (hread.symm.trans hrun)
      exact hrounds

private theorem vectorSane_iff {strs : List Bytes} (hcount : strs.length < uvarintLimit)
    (h : ∀ str ∈ strs, str.length < uvarintLimit) :
    VectorSane (.between pre (vectorOctets varstringOctets strs ++ suf)) ↔
      ∀ str ∈ strs, str.length ≤ saneMaxSizeForString := by
  have hread := reads_popIntegerUvarint hcount pre (strs.flatMap varstringOctets ++ suf)
  rw [← rounds_lengthSane_iff h (pre ++ uvarintOctets strs.length), vectorOctets, List.append_assoc]
  constructor
  · exact fun hsane => hsane _ _ hread
  · intro hrounds size c hsize
    obtain ⟨rfl, rfl⟩ := EStateM.Result.ok.inj (hread.symm.trans hsize)
    exact hrounds

end TrivialSerialize

namespace Multisign

variable {data : Bytes} {m : Multisign}

/-- Data are sane exactly when loading them does not abort. So what is not sane takes the process down. -/
theorem signSane_iff : SignSane data ↔ ∀ m, loadFromBin data new ≠ .error .abort m := by
  have hsafe := @safe_ofBin_iff Unit data () fun _ _ => True
  rw [and_iff_left fun _ _ => trivial] at hsafe
  rw [← hsafe, ofBin, NoAbort.safe_bind_iff fun _ => .pure _, safe_withinState, safe_true_iff]

/-- The signatures of a system that are written have sane lengths when the data are sane there. -/
private theorem sane_of_signaturesSane {type : CryptoSystemType} {pre suf : Bytes}
    (hfit : MultiCryptoStrings.KeysFit (m.cryptolistsGeneral type.nr))
    (h : SignaturesSane type (.between pre (m.systemOctets type ++ suf))) :
    ∀ sign ∈ m.cryptolistsGeneral type.nr, sign.length ≤ saneMaxSizeForString := by
  have htype := reads_popByteU (UInt8.ofNat type.value) pre
    (vectorOctets varstringOctets (m.cryptolistsGeneral type.nr) ++ suf)
  exact (vectorSane_iff hfit.1 hfit.2).mp (h _ _ htype).2

/-- Written signatures are sane exactly when their lengths are. -/
theorem signSane_serializedOctets_iff
    (hed : MultiCryptoStrings.KeysFit (m.cryptolistsGeneral CryptoSystemType.ed25519.nr))
    (hntru : MultiCryptoStrings.KeysFit (m.cryptolistsGeneral CryptoSystemType.ntruSign.nr)) :
    SignSane m.serializedOctets ↔
      ∀ sys, Signing sys → ∀ sign ∈ m.cryptolistsGeneral sys, sign.length ≤ saneMaxSizeForString := by
  constructor
  · rintro ⟨hfirst, hsecond⟩ sys hsys
    rw [serializedOctets, ← Cursor.between_nil] at hfirst hsecond
    have hedSane := sane_of_signaturesSane hed hfirst
    rcases signing_iff.mp hsys with rfl | rfl
    · exact hedSane
    · -- the signatures of Ed25519 are read, and those of NTRU stand behind them
      have htype := reads_popByteU (UInt8.ofNat CryptoSystemType.ed25519.value) []
        (vectorOctets varstringOctets (m.cryptolistsGeneral CryptoSystemType.ed25519.nr) ++
          m.systemOctets .ntruSign)
      have hsigns := reads_popVectorString hed.1 hedSane
        ([] ++ [UInt8.ofNat CryptoSystemType.ed25519.value]) (m.systemOctets .ntruSign)
      have hlast := hsecond _ _ _ _ htype hsigns
      rw [← List.append_nil (m.systemOctets .ntruSign)] at hlast
      exact sane_of_signaturesSane hntru hlast
  · intro hsane
    refine signSane_iff.mpr fun m' habort => ?_
    exact nomatch (loadFromBin_serializedOctets hed.1 hntru.1 hsane).symm.trans habort

/-! ### What is accepted -/

/-- The counts and the lengths are in the form that is written. -/
def SerializedSigns.AsWritten (t : SerializedSigns) : Prop :=
  t.ed.AsWritten ∧ t.ntru.AsWritten

/-- The object that a tree is loaded to. -/
def SerializedSigns.load (t : SerializedSigns) : Multisign :=
  (new.addSignatureVec t.ed.strings CryptoSystemType.ed25519.nr).addSignatureVec t.ntru.strings
    CryptoSystemType.ntruSign.nr

/-- Signatures of the systems that can sign, and no others. -/
def OnlySigning (m : Multisign) : Prop :=
  ∀ sys, ¬ Signing sys → m.cryptolistsGeneral sys = []

namespace SerializedSigns

private theorem lists_load (t : SerializedSigns) :
    t.load.cryptolistsGeneral CryptoSystemType.ed25519.nr = t.ed.strings ∧
      t.load.cryptolistsGeneral CryptoSystemType.ntruSign.nr = t.ntru.strings ∧
      t.load.OnlySigning := by
  refine ⟨?_, ?_, fun sys hsys => ?_⟩
  · rw [load, cryptolistsGeneral_load, if_pos rfl]
    rfl
  · rw [load, cryptolistsGeneral_load, if_neg (by decide), if_pos rfl]
    rfl
  · rw [signing_iff, not_or] at hsys
    rw [load, cryptolistsGeneral_load, if_neg hsys.1, if_neg hsys.2]
    rfl

/-- A tree in the form that is written is written for the object it is loaded to. -/
private theorem serializeBin_load {t : SerializedSigns} (h : t.AsWritten) (s : σ) :
    t.load.serializeBin s = .ok t.octets s := by
  obtain ⟨hed, hntru, -⟩ := t.lists_load
  obtain ⟨hedCount, hedOctets⟩ := Counted.asWritten_iff.mp h.1
  obtain ⟨hntruCount, hntruOctets⟩ := Counted.asWritten_iff.mp h.2
  have hfit : ∀ list : Counted Varstring, ∀ sign ∈ list.strings, sign.length < uvarintLimit :=
    fun list sign hsign => lt_uvarintLimit_of_le_sane (Counted.length_le_sane hsign)
  rw [serializeBin_eq_ok_iff, hed, hntru]
  refine ⟨⟨⟨hedCount, hfit t.ed⟩, hntruCount, hfit t.ntru⟩, ?_, rfl⟩
  rw [serializedOctets, systemOctets, systemOctets, hed, hntru, ← hedOctets, ← hntruOctets]
  rfl

/-- When written data begin with a tree, they are that tree, and it is in the form that is written. -/
theorem asWritten_of_serializeBin {t : SerializedSigns} {rest : Bytes} {s : σ}
    (hdata : data = t.octets ++ rest) (h : m.serializeBin s = .ok data s) :
    t.AsWritten ∧ rest = [] := by
  obtain ⟨⟨hed, hntru⟩, hwritten, -⟩ := serializeBin_eq_ok_iff.mp h
  have hload : loadFromBin data new = .ok () t.load :=
    loadFromBin_eq_ok_iff.mpr ⟨t, rest, hdata, rfl⟩
  have hsane : SignSane m.serializedOctets := by
    rw [← hwritten, signSane_iff, hload]
    exact nofun
  rw [signSane_serializedOctets_iff hed hntru] at hsane
  -- both are read as the signatures of Ed25519, and then as those of NTRU
  have heq : signaturesOctets .ed25519 t.ed ++ (signaturesOctets .ntruSign t.ntru ++ rest) =
      m.systemOctets .ed25519 ++ (m.systemOctets .ntruSign ++ []) := by
    rw [← List.append_assoc, List.append_nil]
    exact hdata.symm.trans hwritten
  obtain ⟨hedOctets, hedStrings, heq⟩ := ((parses_popSignatures .ed25519).reads t.ed).unique
    (reads_popSignatures hed.1 (hsane _ (signing_iff.mpr (.inl rfl)))) heq
  obtain ⟨hntruOctets, hntruStrings, hrest⟩ := ((parses_popSignatures .ntruSign).reads t.ntru).unique
    (reads_popSignatures hntru.1 (hsane _ (signing_iff.mpr (.inr rfl)))) heq
  have hlist : ∀ {list : Counted Varstring} {type : CryptoSystemType},
      (m.cryptolistsGeneral type.nr).length < uvarintLimit →
      signaturesOctets type list = m.systemOctets type →
      list.strings = m.cryptolistsGeneral type.nr → list.AsWritten := by
    intro list type hcount hoctets hstrings
    rw [Counted.asWritten_iff, hstrings]
    exact ⟨hcount, (List.cons.inj hoctets).2⟩
  exact ⟨⟨hlist hed.1 hedOctets hedStrings, hlist hntru.1 hntruOctets hntruStrings⟩, hrest⟩

end SerializedSigns

/-! ### The codec -/

/-- What the codec of signatures should do with data: load the signatures that they were written for, and when
they were written for none, throw. An abort is no way to refuse data. -/
structure LoadsExactly (data : Bytes) : Prop where
  loads : ∀ m : Multisign, m.OnlySigning → m.serializeBin () = .ok data () →
    ∃ m', loadFromBin data new = .ok () m' ∧ m'.cryptolistsGeneral = m.cryptolistsGeneral
  refuses : (∀ m : Multisign, m.OnlySigning → m.serializeBin () ≠ .ok data ()) →
    ∃ e m', loadFromBin data new = .error (.throw e) m'

/-- Written signatures of sane lengths are loaded as they were. -/
private theorem exists_loadFromBin_of_serializeBin (honly : m.OnlySigning)
    (h : m.serializeBin () = .ok data ()) (hsane : SignSane data) :
    ∃ m', loadFromBin data new = .ok () m' ∧ m'.cryptolistsGeneral = m.cryptolistsGeneral := by
  obtain ⟨⟨hed, hntru⟩, rfl, -⟩ := serializeBin_eq_ok_iff.mp h
  rw [signSane_serializedOctets_iff hed hntru] at hsane
  refine ⟨_, loadFromBin_serializedOctets hed.1 hntru.1 hsane, funext fun sys => ?_⟩
  obtain ⟨hsigning, hother⟩ := cryptolistsGeneral_load_new m sys
  by_cases hsys : Signing sys
  · exact hsigning hsys
  · exact (hother hsys).trans (honly sys hsys).symm

/-- The codec does what it should exactly with data that are sane, and of which a set of signatures that they
begin with is the whole, in the form that is written. So what is loaded although it should be refused are data
with something behind the signatures, or with a number in another form than it is written in. -/
theorem loadsExactly_iff (data : Bytes) :
    LoadsExactly data ↔ SignSane data ∧
      ∀ (t : SerializedSigns) (rest : Bytes), data = t.octets ++ rest → t.AsWritten ∧ rest = [] := by
  by_cases hwritten : ∃ m : Multisign, m.OnlySigning ∧ m.serializeBin () = .ok data ()
  · obtain ⟨m, honly, hm⟩ := hwritten
    constructor
    · rintro ⟨hloads, -⟩
      obtain ⟨m', hload, -⟩ := hloads m honly hm
      refine ⟨?_, fun t rest ht => t.asWritten_of_serializeBin ht hm⟩
      rw [signSane_iff, hload]
      exact nofun
    · rintro ⟨hsane, -⟩
      exact ⟨fun m' honly' hm' => exists_loadFromBin_of_serializeBin honly' hm' hsane,
        fun hnone => absurd hm (hnone m honly)⟩
  · push Not at hwritten
    constructor
    · rintro ⟨-, hrefuses⟩
      obtain ⟨e, m', hthrow⟩ := hrefuses hwritten
      refine ⟨?_, fun t rest ht => ?_⟩
      · rw [signSane_iff, hthrow]
        exact nofun
      · have hload := loadFromBin_eq_ok_iff (m := new) (u := ()).mpr ⟨t, rest, ht, rfl⟩
        exact nomatch hthrow.symm.trans hload
    · rintro ⟨hsane, htrees⟩
      refine ⟨fun m honly hm => absurd hm (hwritten m honly), fun _ => ?_⟩
      rcases hrun : loadFromBin data new with ⟨u, m'⟩ | ⟨e | _, m'⟩
      · -- a tree that is the whole, in the form that is written, was written
        obtain ⟨t, rest, ht, -⟩ := loadFromBin_eq_ok_iff.mp hrun
        obtain ⟨hform, rfl⟩ := htrees t rest ht
        rw [ht, List.append_nil] at hwritten
        exact absurd (t.serializeBin_load hform ()) (hwritten t.load t.lists_load.2.2)
      · exact ⟨e, m', rfl⟩
      · exact absurd hrun (signSane_iff.mp hsane m')

/-- Signatures of no system, with an octet behind them. -/
theorem not_loadsExactly_trailing : ¬ LoadsExactly [6, 0, 11, 0, 0] := by
  rintro ⟨-, hrefuses⟩
  let none : Counted Varstring := ⟨.one 0 (by decide), [], rfl⟩
  have ht : [6, 0, 11, 0, 0] = SerializedSigns.octets ⟨none, none⟩ ++ [0] := by decide
  obtain ⟨e, m', hthrow⟩ := hrefuses fun m _ hm =>
    absurd (SerializedSigns.asWritten_of_serializeBin ht hm).2 (List.cons_ne_nil _ _)
  have hload := loadFromBin_eq_ok_iff (m := new) (u := ()).mpr ⟨⟨none, none⟩, [0], ht, rfl⟩
  exact nomatch hthrow.symm.trans hload

end Multisign

end Galaxy42
