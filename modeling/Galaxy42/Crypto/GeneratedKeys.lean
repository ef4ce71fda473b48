import Galaxy42.Crypto.SerializedKeys

/-!
# Generated keys

`c_multikeys_PAIR::generate` on a new object makes the ephemeral keys of a handshake. It succeeds
exactly when this build can make keys of every system that was asked for
(`exists_generate_eq_ok`, `canGenerateAll_of_generate_eq_ok`), whatever is drawn, and then there are as
many keys of each system as were asked for, private and public ones that belong together.

What the libraries return is described by `GenerationLaws`: the lengths of the keys, and that a private and a
public key that were generated together are valid for a key exchange. The loop over the systems goes through
the enumeration, from which it takes only those numbers that are enumerators; a number of keys for any other
index is never looked at (`generatedCount`).

`Holds` is what an object with generated keys is: the numbers of its keys, that they belong together, that
they are short, and that nothing but keys was added. From it follow the two things that a handshake needs:
the keys can be serialized, and the other party reads back exactly these (`Holds.ofBin_serializedOctets`).
With at most one key in each system a set is so short that it fits into a packetstart
(`length_serializedOctets_le`).
-/

namespace Galaxy42

open Toolkit Program TrivialSerialize

/-! ### What the libraries generate -/

/-- The key systems in which two parties agree on a secret. -/
def kexTypes : List CryptoSystemType := [.x25519, .ntruEES439EP1, .sidh]

/-- The key systems that `generate` can make keys of in this build. -/
def canGenerate (lib : CryptoLib) : CryptoSystemType → Bool
  | .x25519 => true
  | .ed25519 => true
  | .ntruEES439EP1 => lib.enableNTRU
  | .ntruSign => lib.enableNTRU
  | .sidh => lib.enableSIDH
  | _ => false

/-- What the generators of the libraries return. `Valid` says that a private and a public key of a key
exchange belong together. Of the optional systems it is asked in the builds that have them. -/
structure GenerationLaws (lib : CryptoLib) (Valid : CryptoSystemType → Bytes → Bytes → Prop) :
    Prop where
  x25519 : ∀ draw, ∃ pub, lib.generatePubkeyFromPrivkey (lib.randomBytes draw 32).octets = .ok pub ∧
    Valid .x25519 (lib.randomBytes draw 32).octets pub ∧ pub.length < 2 ^ 16
  ed25519 : ∀ draw, (lib.signKeypair draw).2.length < 2 ^ 16
  ntru : lib.enableNTRU = true → ∀ draw, ∃ PRV pub,
    lib.ntruGenerateEncryptKeypair draw = .ok (PRV, pub) ∧ PRV.length = 659 ∧ pub.length = 609 ∧
      Valid .ntruEES439EP1 PRV pub
  ntruSign : lib.enableNTRU = true → lib.nttSetup ≠ -1
  sidh : lib.enableSIDH = true → ∀ draw, ∃ PRV pub,
    lib.sidhGenerateKeypair draw = .ok (PRV, pub) ∧ pub.length < 2 ^ 16 ∧ Valid .sidh PRV pub

/-- A system that keys can be made of has a letter. -/
theorem exists_toID_of_canGenerate {lib : CryptoLib} {type : CryptoSystemType}
    (h : canGenerate lib type = true) : ∃ ID, CryptoSystemType.toID type.nr = .ok ID := by
  cases type
  case x25519 => exact ⟨_, rfl⟩
  case ed25519 => exact ⟨_, rfl⟩
  case ntruEES439EP1 => exact ⟨_, rfl⟩
  case ntruSign => exact ⟨_, rfl⟩
  case sidh => exact ⟨_, rfl⟩
  all_goals exact absurd h Bool.false_ne_true

/-- The systems of a key exchange are told apart by their indices. -/
private theorem eq_of_nr_eq {type type' : CryptoSystemType} (h : type' ∈ kexTypes)
    (heq : type'.nr = type.nr) :
    type' = type := by
  have hval : type'.value % systemCount = type.value % systemCount := congrArg Fin.val heq
  rcases List.mem_cons.mp h with rfl | h
  · cases type <;> first | rfl | exact absurd hval (by decide)
  rcases List.mem_cons.mp h with rfl | h
  · cases type <;> first | rfl | exact absurd hval (by decide)
  obtain rfl := List.mem_singleton.mp h
  cases type <;> first | rfl | exact absurd hval (by decide)

namespace MultikeysPAIR

variable {lib : CryptoLib} {Valid : CryptoSystemType → Bytes → Bytes → Prop}

/-- The private and public keys of a key exchange belong together. -/
def KeysValid (Valid : CryptoSystemType → Bytes → Bytes → Prop) (pair : MultikeysPAIR) : Prop :=
  ∀ {type PRV pub}, type ∈ kexTypes → pair.KeyPair type PRV pub → Valid type PRV pub

/-- A new object to which generated keys were added, with the given numbers of keys. -/
structure Holds (Valid : CryptoSystemType → Bytes → Bytes → Prop) (count : CryptoSystemCount)
    (pair : MultikeysPAIR) : Prop where
  /-- Nothing but keys was added. -/
  pub_eq : pair.pub = { MultikeysPub.new with cryptolistsGeneral := pair.pub.cryptolistsGeneral }
  getCount : ∀ sys, pair.pub.getCountKeysInSystem sys = count sys
  countsMatch : pair.CountsMatch
  short : ∀ sys, ∀ key ∈ pair.pub.cryptolistsGeneral sys, key.length < 2 ^ 16
  letters : ∀ sys, count sys ≠ 0 → ∃ ID, CryptoSystemType.toID sys = .ok ID
  valid : pair.KeysValid Valid

theorem holds_new : Holds Valid (fun _ => 0) new := by
  refine ⟨rfl, fun _ => rfl, fun _ => rfl, ?_, fun _ h => absurd rfl h, ?_⟩
  · exact fun _ _ hkey => absurd hkey List.not_mem_nil
  · rintro type PRV pub - ⟨i, hPRV, -⟩
    exact absurd hPRV (by simp [new, MultikeysPRV.new, MultiCryptoStrings.new])

namespace Holds

variable {count : CryptoSystemCount} {pair : MultikeysPAIR}

/-- A system has keys when its number is not zero. -/
private theorem mem_usedSystems (h : Holds Valid count pair) (sys : SystemNr) :
    sys ∈ pair.pub.usedSystems ↔ count sys ≠ 0 := by
  rw [← h.getCount sys]
  simp [MultiCryptoStrings.usedSystems]

theorem hasLetters (h : Holds Valid count pair) : pair.pub.HasLetters :=
  fun sys hsys => h.letters sys ((h.mem_usedSystems sys).mp hsys)

/-- The keys are short enough to be sent. -/
theorem keysShort (h : Holds Valid count pair) (hlt : ∀ sys, count sys < uvarintLimit) :
    pair.pub.KeysShort := by
  refine fun sys => ⟨(h.getCount sys).trans_lt (hlt sys), fun key hkey => ?_⟩
  have hkey' := h.short sys key hkey
  unfold saneMaxSizeForString
  omega

theorem serializeBin_eq_ok {σ : Type} (h : Holds Valid count pair)
    (hlt : ∀ sys, count sys < uvarintLimit) (s : σ) :
    pair.pub.serializeBin s = .ok pair.pub.serializedOctets s := by
  have hshort := h.keysShort hlt
  refine MultiCryptoStrings.serializeBin_eq_ok_iff.mpr ⟨⟨h.hasLetters, fun sys => ?_⟩, rfl, rfl⟩
  exact ⟨(hshort sys).1, fun key hkey => lt_uvarintLimit_of_le_sane ((hshort sys).2 key hkey)⟩

/-- The other party reads back exactly these public keys. -/
theorem ofBin_serializedOctets {σ : Type} (h : Holds Valid count pair)
    (hlt : ∀ sys, count sys < uvarintLimit) (s : σ) :
    MultikeysPub.ofBin pair.pub.serializedOctets s = .ok pair.pub s := by
  have huse : pair.pub.cryptoUse = .open := by
    rw [h.pub_eq]
    rfl
  rw [MultikeysPub.ofBin_serializedOctets huse h.hasLetters (h.keysShort hlt), ← h.pub_eq]

/-- One more pair of keys. -/
theorem addPublicAndPRIVATE (h : Holds Valid count pair) {type : CryptoSystemType}
    {PRV pub : Bytes} (hletter : ∃ ID, CryptoSystemType.toID type.nr = .ok ID)
    (hvalid : type ∈ kexTypes → Valid type PRV pub) (hshort : pub.length < 2 ^ 16) :
    Holds Valid (Function.update count type.nr (count type.nr + 1))
      (pair.addPublicAndPRIVATE type.nr pub PRV) := by
  have hpub (sys : SystemNr) :
      (pair.addPublicAndPRIVATE type.nr pub PRV).pub.cryptolistsGeneral sys =
        if sys = type.nr then pair.pub.cryptolistsGeneral type.nr ++ [pub]
        else pair.pub.cryptolistsGeneral sys := Function.update_apply ..
  have hPRV (sys : SystemNr) :
      (pair.addPublicAndPRIVATE type.nr pub PRV).PRV.cryptolistsGeneral sys =
        if sys = type.nr then pair.PRV.cryptolistsGeneral type.nr ++ [PRV]
        else pair.PRV.cryptolistsGeneral sys := Function.update_apply ..
  have hlen := h.countsMatch type.nr
  unfold MultiCryptoStrings.getCountKeysInSystem at hlen
  refine ⟨?_, fun sys => ?_, fun sys => ?_, fun sys key hkey => ?_, fun sys hsys => ?_, ?_⟩
  · conv_lhs => rw [MultikeysPAIR.addPublicAndPRIVATE, h.pub_eq]
    rfl
  · rw [MultiCryptoStrings.getCountKeysInSystem, hpub, Function.update_apply]
    split
    · rw [List.length_append, ← h.getCount type.nr]
      rfl
    · exact h.getCount sys
  · rw [MultiCryptoStrings.getCountKeysInSystem, MultiCryptoStrings.getCountKeysInSystem, hpub, hPRV]
    split
    · rw [List.length_append, List.length_append, hlen]
      rfl
    · exact h.countsMatch sys
  · rw [hpub] at hkey
    split at hkey
    · rcases List.mem_append.mp hkey with hkey | hkey
      · exact h.short _ key hkey
      · rwa [List.mem_singleton.mp hkey]
    · exact h.short sys key hkey
  · rw [Function.update_apply] at hsys
    split at hsys
    next heq => exact heq ▸ hletter
    next => exact h.letters sys hsys
  · rintro type' PRV' pub' hkex ⟨i, hi, hi'⟩
    rw [hPRV] at hi
    rw [hpub] at hi'
    split at hi
    next heq =>
      rw [if_pos heq] at hi'
      obtain rfl := eq_of_nr_eq hkex heq
      -- the added pair is at the end of both lists, and these have the same length
      by_cases hlt : i < (pair.PRV.cryptolistsGeneral type'.nr).length
      · rw [List.getElem?_append_left hlt] at hi
        rw [List.getElem?_append_left (hlen ▸ hlt)] at hi'
        exact h.valid hkex ⟨i, hi, hi'⟩
      · rw [List.getElem?_append_right (by omega)] at hi
        rw [List.getElem?_append_right (by omega), hlen] at hi'
        obtain rfl : PRV = PRV' := List.mem_singleton.mp (List.mem_of_getElem? hi) |>.symm
        obtain rfl : pub = pub' := List.mem_singleton.mp (List.mem_of_getElem? hi') |>.symm
        exact hvalid hkex
    next hne =>
      rw [if_neg hne] at hi'
      exact h.valid hkex ⟨i, hi, hi'⟩

end Holds

/-! ### Generating -/

/-- A public key of the PASS signature library is written with the version of its format. -/
private theorem length_signPub (key : Block passSize) :
    (vectorOctets varstringOctets [[49], key.octets]).length = 6158 := by
  have hkey : key.octets.length = 6152 := Block.length_octets key
  have hoctets : vectorOctets varstringOctets [[49], key.octets] =
      uvarintOctets 2 ++ (varstringOctets [49] ++ (uvarintOctets 6152 ++ key.octets)) := by
    rw [← hkey]
    simp [vectorOctets, varstringOctets]
  have htwo : (uvarintOctets 2).length = 1 := by decide
  have hversion : (varstringOctets [49]).length = 2 := by decide
  have hsize : (uvarintOctets 6152).length = 3 := by decide
  rw [hoctets, List.length_append, List.length_append, List.length_append, htwo, hversion, hsize, hkey]

/-- One pair of keys of a system that this build has. -/
private theorem exists_newKeypair_eq_ok (laws : GenerationLaws lib Valid) {type : CryptoSystemType}
    (h : canGenerate lib type = true) (draw : ℕ) :
    ∃ PRV pub draw', newKeypair lib type draw = .ok (PRV, pub) draw' ∧
      (type ∈ kexTypes → Valid type PRV pub) ∧ pub.length < 2 ^ 16 := by
  cases type
  case x25519 =>
    -- the first draw is thrown away
    obtain ⟨pub, hpub, hvalid, hshort⟩ := laws.x25519 (draw + 1)
    refine ⟨_, pub, draw + 2, ?_, fun _ => hvalid, hshort⟩
    have hok : (fromExcept (lib.generatePubkeyFromPrivkey (lib.randomBytes (draw + 1) 32).octets) :
        Crypto Bytes) (draw + 2) = .ok pub (draw + 2) := fromExcept_eq_ok_iff.mpr ⟨hpub, rfl⟩
    exact (bind_of_ok hok).trans rfl
  case ed25519 => exact ⟨_, _, draw + 1, rfl, fun h => absurd h (by decide), laws.ed25519 draw⟩
  case ntruEES439EP1 =>
    have hntru : lib.enableNTRU = true := h
    obtain ⟨PRV, pub, hpair, hPRV, hpub, hvalid⟩ := laws.ntru hntru draw
    refine ⟨PRV, pub, draw + 1, ?_, fun _ => hvalid, by omega⟩
    have hok : (fromOutcome (lib.ntruGenerateEncryptKeypair draw) : Crypto _) (draw + 1) =
        .ok (PRV, pub) (draw + 1) := fromOutcome_eq_ok_iff.mpr ⟨hpair, rfl⟩
    rw [newKeypair, generateNrtuEncryptKeyPair, if_pos hntru]
    exact (bind_of_ok hok).trans ((bind_of_ok (a := ()) (assertThat_eq_ok_iff.mpr ⟨hPRV, rfl⟩)).trans
      ((bind_of_ok (a := ()) (assertThat_eq_ok_iff.mpr ⟨hpub, rfl⟩)).trans rfl))
  case ntruSign =>
    have hntru : lib.enableNTRU = true := h
    set key := (lib.passKeypair draw).2
    have hgenerate : (TrivialSerialize.generate (pushVectorString [[49], key.octets]) : Crypto Bytes)
        (draw + 1) = .ok (vectorOctets varstringOctets [[49], key.octets]) (draw + 1) := by
      refine (generate_eq_ok_iff_of_emits (emits_pushVectorString _)).mpr
        ⟨⟨(by decide : 2 < uvarintLimit), fun x hx => ?_⟩, rfl, rfl⟩
      rcases List.mem_cons.mp hx with rfl | hx
      · decide
      · rw [List.mem_singleton.mp hx, Block.length_octets]
        decide
    have hpass : ntruppGenerateSignKeypair lib draw = .ok ((lib.passKeypair draw).1.octets,
        vectorOctets varstringOctets [[49], key.octets]) (draw + 1) :=
      (bind_of_ok (a := ()) (checkThat_eq_ok_iff.mpr ⟨laws.ntruSign hntru, rfl⟩)).trans
        ((bind_of_ok hgenerate).trans rfl)
    refine ⟨(lib.passKeypair draw).1.octets, _, draw + 1, ?_, fun h => absurd h (by decide),
      (length_signPub key).trans_lt (by decide)⟩
    rw [newKeypair, if_pos hntru, generateNrtuSignKeyPair, if_pos hntru]
    exact (bind_of_ok hpass).trans
      ((bind_of_ok (a := ()) (assertThat_eq_ok_iff.mpr ⟨Block.length_octets _, rfl⟩)).trans
      ((bind_of_ok (a := ()) (assertThat_eq_ok_iff.mpr ⟨length_signPub key, rfl⟩)).trans rfl))
  case sidh =>
    have hsidh : lib.enableSIDH = true := h
    obtain ⟨PRV, pub, hpair, hshort, hvalid⟩ := laws.sidh hsidh draw
    refine ⟨PRV, pub, draw + 1, ?_, fun _ => hvalid, hshort⟩
    have hok : (fromOutcome (lib.sidhGenerateKeypair draw) : Crypto _) (draw + 1) =
        .ok (PRV, pub) (draw + 1) := fromOutcome_eq_ok_iff.mpr ⟨hpair, rfl⟩
    rw [newKeypair, if_pos hsidh]
    exact (bind_of_ok (show nextDraw draw = .ok draw (draw + 1) from rfl)).trans hok
  all_goals exact absurd h Bool.false_ne_true

/-- The loop adds the number of keys that is asked for. -/
private theorem exists_generateLoop_eq_ok (laws : GenerationLaws lib Valid) {type : CryptoSystemType}
    (h : canGenerate lib type = true) (n : ℕ) :
    ∀ {count : CryptoSystemCount} {pair : MultikeysPAIR} (draw : ℕ), Holds Valid count pair →
      ∃ pair' draw', generateLoop (newKeypair lib type) type.nr n pair draw = .ok pair' draw' ∧
        Holds Valid (Function.update count type.nr (count type.nr + n)) pair' := by
  induction n with
  | zero =>
    intro count pair draw hpair
    refine ⟨pair, draw, rfl, ?_⟩
    rwa [Nat.add_zero, Function.update_eq_self]
  | succ n ih =>
    intro count pair draw hpair
    obtain ⟨PRV, pub, draw₁, hnew, hvalid, hshort⟩ := exists_newKeypair_eq_ok laws h draw
    have hadd := hpair.addPublicAndPRIVATE (exists_toID_of_canGenerate h) hvalid hshort
    obtain ⟨pair', draw', hloop, hpair'⟩ := ih draw₁ hadd
    refine ⟨pair', draw', ?_, ?_⟩
    · rw [generateLoop, bind_of_ok hnew, hloop]
    · rw [Function.update_self, Function.update_idem, Nat.add_assoc, Nat.add_comm 1 n] at hpair'
      exact hpair'

/-- `generate(type, count)` of a system that this build has. -/
private theorem exists_generateType_eq_ok (laws : GenerationLaws lib Valid) {type : CryptoSystemType}
    (h : canGenerate lib type = true) {n : ℕ} {count : CryptoSystemCount} {pair : MultikeysPAIR}
    (hpair : Holds Valid count pair) (hnone : count type.nr = 0)
    (hlt : ∀ sys, Function.update count type.nr n sys < uvarintLimit) (draw : ℕ) :
    ∃ pair' draw', generateType lib pair type n draw = .ok pair' draw' ∧
      Holds Valid (Function.update count type.nr n) pair' := by
  by_cases hn : n = 0
  · refine ⟨pair, draw, by rw [generateType, if_pos hn]; rfl, ?_⟩
    rwa [hn, ← hnone, Function.update_eq_self]
  · obtain ⟨pair', draw', hloop, hpair'⟩ := exists_generateLoop_eq_ok laws h n draw hpair
    rw [hnone, Nat.zero_add] at hpair'
    have hdirty : ({ pair' with pub := { pair'.pub with
        toMultiCryptoStrings := pair'.pub.setHashDirty } } : MultikeysPAIR) = pair' := by
      obtain ⟨pub, PRV⟩ := pair'
      have hpub : pub = { MultikeysPub.new with cryptolistsGeneral := pub.cryptolistsGeneral } :=
        hpair'.pub_eq
      rw [hpub]
      rfl
    refine ⟨pair', draw', ?_, hpair'⟩
    rw [generateType, if_neg hn, bind_of_ok hloop, hdirty,
      bind_of_ok (hpair'.serializeBin_eq_ok hlt draw')]
    rfl

/-- The numbers of keys that are generated: those asked for, of the systems that are enumerators. -/
def generatedCount (count : CryptoSystemCount) : CryptoSystemCount := fun sys =>
  if (CryptoSystemType.ofInt sys).isSome then count sys else 0

/-- Every system that keys are asked for is one that this build has. -/
def CanGenerateAll (lib : CryptoLib) (count : CryptoSystemCount) : Prop :=
  ∀ (sys : SystemNr) type, CryptoSystemType.ofInt sys = some type → count sys ≠ 0 →
    canGenerate lib type = true

/-- The numbers of keys that are there once some systems have been gone through. -/
private def countAmong (count : CryptoSystemCount) (done : List SystemNr) : CryptoSystemCount :=
  fun sys => if sys ∈ done then generatedCount count sys else 0

private theorem countAmong_append (count : CryptoSystemCount) (done : List SystemNr)
    (sys : SystemNr) :
    countAmong count (done ++ [sys]) =
      Function.update (countAmong count done) sys (generatedCount count sys) := by
  funext sys'
  unfold countAmong
  by_cases heq : sys' = sys
  · subst heq
    simp
  · simp [heq]

private theorem countAmong_le (count : CryptoSystemCount) (done : List SystemNr) (sys : SystemNr) :
    countAmong count done sys ≤ count sys := by
  unfold countAmong generatedCount
  split_ifs <;> omega

/-- `generate` succeeds on every system that this build has. The numbers of keys may be any. -/
theorem exists_generate_eq_ok (laws : GenerationLaws lib Valid) {count : CryptoSystemCount}
    (h : CanGenerateAll lib count) (hlt : ∀ sys, count sys < uvarintLimit) (draw : ℕ) :
    ∃ pair draw', generate lib new count true draw = .ok pair draw' ∧
      Holds Valid (generatedCount count) pair := by
  -- One round of the loop adds the keys of its system, and leaves the others alone.
  have hstep : ∀ done sys pair draw, sys ∉ done → Holds Valid (countAmong count done) pair →
      ∃ pair' draw', generateSystem lib count true pair sys draw = .ok pair' draw' ∧
        Holds Valid (countAmong count (done ++ [sys])) pair' := by
    intro done sys pair draw hsys hpair
    have hnone : countAmong count done sys = 0 := if_neg hsys
    rw [countAmong_append]
    cases htype : CryptoSystemType.ofInt sys with
    | none =>
      have hzero : generatedCount count sys = 0 := by simp [generatedCount, htype]
      refine ⟨pair, draw, by simp [generateSystem, htype], ?_⟩
      rwa [hzero, ← hnone, Function.update_eq_self]
    | some type =>
      have hsome : generatedCount count sys = count sys := by simp [generatedCount, htype]
      by_cases hzero : count sys = 0
      · refine ⟨pair, draw, by simp [generateSystem, htype, hzero], ?_⟩
        rwa [hsome, hzero, ← hnone, Function.update_eq_self]
      · obtain rfl := CryptoSystemType.nr_of_ofInt htype
        have hfit : ∀ sys', Function.update (countAmong count done) type.nr (count type.nr) sys' <
            uvarintLimit := by
          intro sys'
          rw [← hsome, ← countAmong_append]
          exact (countAmong_le count _ sys').trans_lt (hlt sys')
        obtain ⟨pair', draw', hrun, hpair'⟩ := exists_generateType_eq_ok laws
          (h type.nr type htype hzero) hpair hnone hfit draw
        rw [hsome]
        refine ⟨pair', draw', ?_, hpair'⟩
        simpa [generateSystem, htype, hzero] using hrun
  have hstart : Holds Valid (countAmong count []) new := holds_new
  obtain ⟨pair, draw', hrun, hpair⟩ := exists_foldlM_eq_ok hstep (List.finRange systemCount) [] new
    draw (List.nodup_finRange _) hstart
  have hall : countAmong count ([] ++ List.finRange systemCount) = generatedCount count := by
    funext sys
    simp [countAmong]
  exact ⟨pair, draw', hrun, hall ▸ hpair⟩

/-- `generate` fails when keys are asked for that this build cannot make. -/
theorem canGenerateAll_of_generate_eq_ok {count : CryptoSystemCount} {pair pair' : MultikeysPAIR}
    {draw draw' : ℕ} (h : generate lib pair count true draw = .ok pair' draw') :
    CanGenerateAll lib count := by
  intro sys type htype hcount
  obtain ⟨pair₁, draw₁, pair₂, draw₂, hstep⟩ :=
    exists_step_of_foldlM_eq_ok (List.mem_finRange sys) h
  obtain ⟨n, hn⟩ := Nat.exists_eq_succ_of_ne_zero hcount
  have hrun : generateType lib pair₁ type (n + 1) draw₁ = .ok pair₂ draw₂ := by
    simpa [generateSystem, htype, hn] using hstep
  rw [generateType, if_neg n.succ_ne_zero] at hrun
  obtain ⟨_, _, hloop, -⟩ := bind_eq_ok_iff.mp hrun
  rw [generateLoop] at hloop
  -- the loop makes at least one pair of keys
  obtain ⟨keypair, draw₃, hnew, -⟩ := bind_eq_ok_iff.mp hloop
  by_contra hno
  cases type <;> simp [canGenerate] at hno <;>
    simp [newKeypair, generateNrtuEncryptKeyPair, hno] at hnew

end MultikeysPAIR

namespace MultiCryptoStrings

/-! ### The size of ephemeral keys -/

/-- With at most one short key in each system, a set is far below what the parser accepts. The ephemeral keys
of a handshake are such a set, so they can always be sent. -/
theorem length_serializedOctets_le {m : MultiCryptoStrings}
    (hcount : ∀ sys, m.getCountKeysInSystem sys ≤ 1)
    (hshort : ∀ sys, ∀ key ∈ m.cryptolistsGeneral sys, key.length < 2 ^ 16) :
    m.serializedOctets.length ≤ 14 + 32 * (27 + 2 ^ 16) := by
  -- A number takes nine octets at most: the system, the count, and the length of the one key.
  have hsystem : ∀ sys, (systemOctets m sys).length ≤ 27 + 2 ^ 16 := by
    intro sys
    have hnumber := length_uvarintOctets_le (letter sys).toUInt8.toNat
    have hsize := length_uvarintOctets_le (m.cryptolistsGeneral sys).length
    have hkeys : ((m.cryptolistsGeneral sys).flatMap varstringOctets).length ≤ 9 + 2 ^ 16 := by
      have hone := hcount sys
      unfold getCountKeysInSystem at hone
      cases hlist : m.cryptolistsGeneral sys with
      | nil => simp
      | cons key keys =>
        rw [hlist, List.length_cons] at hone
        obtain rfl : keys = [] := List.eq_nil_of_length_eq_zero (by omega)
        have hkey := hshort sys key (hlist ▸ List.mem_cons_self)
        have hsize' := length_uvarintOctets_le key.length
        rw [List.flatMap_cons, List.flatMap_nil, List.append_nil, varstringOctets, List.length_append]
        omega
    have hvector : (vectorOctets LawfulObj.octets (m.cryptolistsGeneral sys)).length =
        (uvarintOctets (m.cryptolistsGeneral sys).length).length +
          ((m.cryptolistsGeneral sys).flatMap varstringOctets).length := List.length_append
    rw [systemOctets, List.length_append, hvector]
    omega
  have hsystems : ∀ syss : List SystemNr,
      (syss.flatMap (systemOctets m)).length ≤ syss.length * (27 + 2 ^ 16) := by
    intro syss
    induction syss with
    | nil => simp
    | cons sys syss ih =>
      have := hsystem sys
      rw [List.flatMap_cons, List.length_append, List.length_cons, Nat.add_mul]
      omega
  have hused : m.usedSystems.length ≤ 32 := by
    have hle := List.length_filter_le (fun ix => decide (m.getCountKeysInSystem ix ≠ 0))
      (List.finRange systemCount)
    rw [List.length_finRange] at hle
    exact hle
  have hnumber := length_uvarintOctets_le m.usedSystems.length
  have hall := hsystems m.usedSystems
  have hmul : m.usedSystems.length * (27 + 2 ^ 16) ≤ 32 * (27 + 2 ^ 16) :=
    Nat.mul_le_mul_right _ hused
  have hmagic : magicMarker.length = 3 := rfl
  simp only [serializedOctets, List.length_append, List.length_singleton, hmagic]
  omega

end MultiCryptoStrings

end Galaxy42
