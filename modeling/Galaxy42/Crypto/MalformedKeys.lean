import Galaxy42.Crypto.Fingerprint
import Galaxy42.Crypto.Multisign
import Galaxy42.TrivialSerialize.Malformed

/-!
# Malformed sets of keys and signatures

Which data make `load_from_bin` abort, of a set of keys and of a set of signatures, and on which keys
`multi_sign_verify` aborts. Besides the lengths of strings, these functions assert the number of
systems in a set of keys, and the octets in front of the two kinds of signatures. Every NTRU public
key is parsed again when a signature is verified with it.

Hashing and serializing a set never abort.

Each function has a lemma that says exactly on which input it does not abort (`safe_loadFromBin_iff`,
`safe_ofBin_iff`, `safe_multiSignVerify_iff`). The conditions are about octets: they are computed with the
parser that stands at the place where the assertion is, and speak only of what is read until something
throws. They are used where these octets come from: a greeting brings two sets of keys and a set of
signatures, a reply to a query brings a set of keys, and both come from the network.
-/

namespace Galaxy42

open Toolkit Program TrivialSerialize

variable {σ : Type}

namespace MultiCryptoStrings

/-! ### Hashing and serializing -/

private theorem noAbort_fingerprintSerial (lib : CryptoLib) (m : MultiCryptoStrings) :
    NoAbort (m.fingerprintSerial lib : Program Exn σ Bytes) := by
  refine noAbort_generate ?_
  refine .bind (noAbort_pushBytesN rfl) fun _ => .bind (noAbort_pushByteU _) fun _ =>
    .bind (noAbort_pushByteU _) fun _ => .bind (noAbort_pushByteU _) fun _ =>
    .bind (noAbort_pushIntegerUvarint _) fun _ => .forM fun ix _ => ?_
  unfold pushFingerprint
  refine .ite (.bind (.fromExcept _) fun ID => ?_) (.pure _)
  exact .bind (noAbort_pushByteU _) fun _ => .bind
    (.foldlM (fun _ _ => noAbort_binaryStringXor _ _) _ _) fun _ => noAbort_pushVarstring _

/-- The hash that was just calculated is not empty, so `get_hash` does not abort. -/
theorem noAbort_readHash (lib : CryptoLib) (m : MultiCryptoStrings) :
    NoAbort (m.readHash lib : Program Exn σ Bytes) := by
  refine .within (noAbort_iff_safe.mpr fun m => ?_) m
  have hupdate : NoAbort (updateHash lib) :=
    .bind .get fun m => .bind (noAbort_fingerprintSerial lib m) fun _ => .set _
  simp only [getHash, safe_bind, safe_get]
  split
  · simp only [safe_bind, safe_get, safe_assertThat, safe_pure, and_true]
    refine hupdate.safe_iff.mpr fun _ m' hrun => ?_
    obtain ⟨-, rfl⟩ := updateHash_eq_ok_iff.mp hrun
    exact hash1_ne_nil lib _
  next h => simpa using h

theorem noAbort_serializeBin (m : MultiCryptoStrings) :
    NoAbort (m.serializeBin : Program Exn σ Bytes) := by
  refine noAbort_generate ?_
  refine .bind (noAbort_pushBytesN rfl) fun _ => .bind (noAbort_pushByteU _) fun _ =>
    .bind (noAbort_pushByteU _) fun _ => .bind (noAbort_pushIntegerUvarint _) fun _ =>
    .forM fun ix _ => ?_
  unfold pushSystem
  exact .ite (.bind (.fromExcept _) fun _ => .bind (noAbort_pushIntegerUvarint _) fun _ =>
    noAbort_pushVectorObject noAbort_pushVarstring _) (.pure _)

/-! ### Loading keys -/

/-- The keys of one system, behind the number of the system, have sane lengths. -/
def SystemSane (c : Cursor UInt8) : Prop :=
  ∀ number c', popIntegerUvarint c = .ok number c' →
    ∀ type, CryptoSystemType.fromID (UInt8.ofNat number).toInt8 = .ok type → VectorSane c'

private theorem safe_loadSystem_iff {s : Cursor UInt8 × MultiCryptoStrings} :
    Safe loadSystem s (fun _ _ => True) ↔ SystemSane s.1 := by
  unfold loadSystem SystemSane
  simp only [safe_bind, safe_onFst, safe_fromExcept, safe_onSnd, safe_modify,
    safe_popVectorObject_iff, implies_true, and_true]
  rw [noAbort_popIntegerUvarint.safe_iff]

/-- The octets in front of a set of keys. -/
def headerOctets (cryptoUse : CryptoUse) : Bytes :=
  magicMarker ++ [magicVersion, cryptoUse.value]

/-- The data announce no more systems than `load_from_bin` accepts, and their keys have sane
lengths. -/
def KeysSane (cryptoUse : CryptoUse) (data : Bytes) : Prop :=
  ∀ rest, data = headerOctets cryptoUse ++ rest →
    ∀ mapSize c, popIntegerUvarint (.between (headerOctets cryptoUse) rest) = .ok mapSize c →
      mapSize ≤ 100 ∧ Rounds (fun s => SystemSane s.1) loadSystem mapSize (c, new cryptoUse)

/-- What the first reads of `load_from_bin` accept. -/
theorem header_eq_ok_iff {cryptoUse : CryptoUse} {data : Bytes} {c₃ : Cursor UInt8} :
    (∃ magic c₁, popBytesN 3 (.start data) = .ok magic c₁ ∧ magic = magicMarker ∧
      ∃ version c₂, popByteU c₁ = .ok version c₂ ∧ ∃ use, popByteU c₂ = .ok use c₃ ∧
        use = cryptoUse.value ∧ version = magicVersion) ↔
      ∃ rest, data = headerOctets cryptoUse ++ rest ∧
        c₃ = .between (headerOctets cryptoUse) rest := by
  rw [← Cursor.between_nil]
  simp only [popBytesN_between_eq_ok_iff]
  constructor
  · rintro ⟨_, _, ⟨-, rest, rfl, rfl⟩, rfl, _, _, hversion, _, huse, rfl, rfl⟩
    obtain ⟨rest, rfl, rfl⟩ := popByteU_between_eq_ok_iff.mp hversion
    obtain ⟨rest, rfl, rfl⟩ := popByteU_between_eq_ok_iff.mp huse
    exact ⟨rest, by simp [headerOctets], by simp [headerOctets]⟩
  · rintro ⟨rest, rfl, rfl⟩
    refine ⟨magicMarker, _, ⟨rfl, magicVersion :: cryptoUse.value :: rest, by simp [headerOctets],
      rfl⟩, rfl, magicVersion, _, popByteU_between_eq_ok_iff.mpr ⟨_, rfl, rfl⟩, cryptoUse.value,
      popByteU_between_eq_ok_iff.mpr ⟨rest, rfl, by simp [headerOctets]⟩, rfl, rfl⟩

/-- Loading a set of keys is safe exactly when its data are sane. It is the same for keys in ordinary and in
locked memory. -/
theorem safe_loadFromBin_iff {cryptoUse : CryptoUse} {data : Bytes} :
    Safe (loadFromBin data) (new cryptoUse) (fun _ _ => True) ↔ KeysSane cryptoUse data := by
  simp only [loadFromBin, loadFromParser, safe_bind, safe_withLocal, safe_onFst, safe_onSnd, safe_get,
    safe_checkThat, safe_assertThat, safe_modify, safe_parserOfString, noAbort_isEnd.safe_iff,
    (noAbort_popBytesN 3).safe_iff, noAbort_popByteU.safe_iff, noAbort_popIntegerUvarint.safe_iff,
    implies_true, safe_replicateM_iff fun _ => safe_loadSystem_iff]
  constructor
  · rintro h rest hdata mapSize c hsize
    obtain ⟨magic, c₁, hmagic, hmarker, version, c₂, hversion, use, huse, huse', hversion'⟩ :=
      header_eq_ok_iff.mpr ⟨rest, hdata, rfl⟩
    have hne : data ≠ [] := by simp [hdata, headerOctets, magicMarker]
    exact h hne magic c₁ hmagic hmarker version c₂ hversion use _ huse huse' hversion' mapSize c hsize
  · intro h _ magic c₁ hmagic hmarker version c₂ hversion use c₃ huse huse' hversion' mapSize c hsize
    obtain ⟨rest, hdata, rfl⟩ := header_eq_ok_iff.mp
      ⟨magic, c₁, hmagic, hmarker, version, c₂, hversion, use, huse, huse', hversion'⟩
    exact h rest hdata mapSize c hsize

end MultiCryptoStrings

/-- Loading public keys is safe exactly when the data are sane. -/
theorem MultikeysPub.safe_ofBin_iff {data : Bytes} {s : σ} {Q : MultikeysPub → σ → Prop} :
    Safe (MultikeysPub.ofBin data) s Q ↔ MultiCryptoStrings.KeysSane .open data ∧
      ∀ pub, MultikeysPub.ofBin data s = .ok pub s → Q pub s := by
  have hload : Safe (MultikeysPub.ofBin data) s (fun _ _ => True) ↔
      MultiCryptoStrings.KeysSane .open data := by
    simp only [MultikeysPub.ofBin, safe_bind, safe_withinState, safe_pure]
    exact MultiCryptoStrings.safe_loadFromBin_iff
  have hstate : ∀ {pub s'}, MultikeysPub.ofBin data s = .ok pub s' → s' = s := by
    intro pub s' h
    simp only [MultikeysPub.ofBin, bind_pure_eq_ok_iff, withinState_eq_ok_iff] at h
    exact h.choose_spec.1.2.symm
  rw [safe_iff, ← safe_true_iff, hload]
  refine and_congr_right fun _ => ⟨fun h pub hpub => h pub s hpub, fun h pub s' hpub => ?_⟩
  obtain rfl := hstate hpub
  exact h pub hpub

namespace Multisign

/-! ### Loading signatures -/

/-- In front of the signatures stands the number of their system, and they have sane lengths. -/
def SignaturesSane (type : CryptoSystemType) (c : Cursor UInt8) : Prop :=
  ∀ readType c', popByteU c = .ok readType c' → readType.toNat = type.value ∧ VectorSane c'

/-- Signatures of Ed25519, and behind them signatures of NTRU. Where a letter or a string cannot be read, what
is behind it is not looked at. -/
def SignSane (data : Bytes) : Prop :=
  SignaturesSane .ed25519 (.start data) ∧
    ∀ readType c₁ signs c₂, popByteU (.start data) = .ok readType c₁ →
      popVectorString c₁ = .ok signs c₂ → SignaturesSane .ntruSign c₂

/-- The signatures of a system are loaded safely exactly when they are sane. -/
theorem safe_loadSignatures_iff {type : CryptoSystemType} {s : Cursor UInt8 × Multisign}
    {Q : Unit → Cursor UInt8 × Multisign → Prop} :
    Safe (loadSignatures type) s Q ↔ SignaturesSane type s.1 ∧
      ∀ readType c₁ signs c₂, popByteU s.1 = .ok readType c₁ → popVectorString c₁ = .ok signs c₂ →
        Q () (c₂, s.2.addSignatureVec signs type.nr) := by
  simp only [loadSignatures, safe_bind, safe_onFst, safe_onSnd, safe_modify, safe_assertThat,
    noAbort_popByteU.safe_iff, safe_popVectorString_iff, SignaturesSane]
  constructor
  · intro h
    refine ⟨fun readType c₁ hread => ⟨(h readType c₁ hread).1, (h readType c₁ hread).2.1⟩, ?_⟩
    exact fun readType c₁ signs c₂ hread hsigns => (h readType c₁ hread).2.2 signs c₂ hsigns
  · rintro ⟨hsane, h⟩ readType c₁ hread
    obtain ⟨htype, hvector⟩ := hsane readType c₁ hread
    exact ⟨htype, hvector, fun signs c₂ hsigns => h readType c₁ signs c₂ hread hsigns⟩

/-- Loading signatures is safe exactly when the data are sane. -/
theorem safe_ofBin_iff {data : Bytes} {s : σ} {Q : Multisign → σ → Prop} :
    Safe (ofBin data) s Q ↔ SignSane data ∧ ∀ m, ofBin data s = .ok m s → Q m s := by
  have hload : Safe (ofBin data) s (fun _ _ => True) ↔ SignSane data := by
    simp only [ofBin, loadFromBin, safe_bind, safe_withinState, safe_pure, safe_withLocal,
      safe_parserOfString, safe_loadSignatures_iff, implies_true, and_true, SignSane]
    refine ⟨fun h => ?_, fun h _ => h⟩
    by_cases hne : data = []
    · subst hne
      have hend : ∀ readType c, popByteU (.start []) ≠ .ok readType c := fun readType c => by
        simp [popByteU, bind_apply, Cursor.start, Cursor.ahead]
      exact ⟨fun readType c hread => absurd hread (hend readType c),
        fun readType c _ _ hread => absurd hread (hend readType c)⟩
    · exact h hne
  have hstate : ∀ {m s'}, ofBin data s = .ok m s' → s' = s := by
    intro m s' h
    simp only [ofBin, bind_pure_eq_ok_iff, withinState_eq_ok_iff] at h
    exact h.choose_spec.1.2.symm
  rw [safe_iff, ← safe_true_iff, hload]
  refine and_congr_right fun _ => ⟨fun h m hm => h m s hm, fun h m s' hm => ?_⟩
  obtain rfl := hstate hm
  exact h m hm

/-! ### Verifying -/

/-- A public key of NTRU is a vector of strings with sane lengths. -/
def NtruKeySane (lib : CryptoLib) (publicKey : Bytes) : Prop :=
  lib.nttSetup ≠ -1 → publicKey ≠ [] → VectorSane (.start publicKey)

/-- The public key at a place that has a signature too is sane. -/
def KeyAtSane (lib : CryptoLib) (signs pubkeys : List Bytes) (i : ℕ) : Prop :=
  ∀ pubkey sign, pubkeys[i]? = some pubkey → signs[i]? = some sign → NtruKeySane lib pubkey

/-- The keys of a system that are verified with, up to the first with which that fails, are sane. -/
def VerifySane (lib : CryptoLib) (allSignatures : Multisign) (msg : Bytes) (pubkeys : MultikeysPub)
    (sys : SystemNr) : Prop :=
  sys = CryptoSystemType.ntruSign.nr → lib.enableNTRU = true →
    allSignatures.getCountKeysInSystem sys = pubkeys.getCountKeysInSystem sys →
    let signs := allSignatures.cryptolistsGeneral sys
    UntilFailure (VerifiedAt lib signs msg (pubkeys.cryptolistsGeneral sys) .ntruSign)
      (KeyAtSane lib signs (pubkeys.cryptolistsGeneral sys)) (List.range signs.length)

private theorem safe_ntruppVerify_iff {lib : CryptoLib} {sign msg publicKey : Bytes} {s : σ} :
    Safe (ntruppVerify lib sign msg publicKey) s (fun _ _ => True) ↔ NtruKeySane lib publicKey := by
  simp only [ntruppVerify, parseString, safe_bind, safe_checkThat, safe_parserOfString, safe_within,
    safe_pure, safe_popVectorString_iff, (noAbort_vectorAt _ _).safe_iff,
    (noAbort_stringSubstr _ _).safe_iff, implies_true, and_true, NtruKeySane]

private theorem noAbort_verifyEd25519 (lib : CryptoLib) (signs : List Bytes) (msg pubkey : Bytes) (i : ℕ) :
    NoAbort (verifyEd25519 lib signs msg pubkey i : Program Exn σ Unit) := by
  refine .catching (.bind (noAbort_vectorAt _ _) fun _ => .fromExcept _) fun e h hhandle => ?_
  split at hhandle
  · obtain rfl := Option.some.inj hhandle
    exact .raise _
  · cases hhandle

/-- The loop of `multi_sign_verify` over the keys of NTRU. -/
theorem safe_verifyNtru_iff {lib : CryptoLib} {signs : List Bytes} {msg : Bytes}
    {pubkeys : MultikeysPub} (hen : lib.enableNTRU = true)
    (hlen : pubkeys.getCountKeysInSystem CryptoSystemType.ntruSign.nr = signs.length) {s : σ} :
    Safe (multiSignVerifyType lib signs msg pubkeys .ntruSign) s (fun _ _ => True) ↔
      UntilFailure
        (VerifiedAt lib signs msg (pubkeys.cryptolistsGeneral CryptoSystemType.ntruSign.nr) .ntruSign)
        (KeyAtSane lib signs (pubkeys.cryptolistsGeneral CryptoSystemType.ntruSign.nr))
        (List.range signs.length) := by
  simp only [multiSignVerifyType, safe_bind, safe_assertThat, hlen, true_and]
  by_cases hnone : signs.length = 0
  · rw [if_pos hnone, hnone]
    exact Iff.rfl
  · rw [if_neg hnone, if_pos hen]
    refine safe_forM_iff (P := VerifiedAt lib signs msg _ .ntruSign)
      (fun _ _ _ _ => verifyNtruAt_eq_ok_iff hen) fun i s => ?_
    simp only [safe_bind, MultiCryptoStrings.getKey, (noAbort_vectorAt _ _).safe_iff,
      vectorAt_eq_ok_iff, safe_checkThat, safe_ntruppVerify_iff, implies_true, KeyAtSane]
    constructor
    · exact fun h pubkey sign hpubkey hsign => h pubkey s ⟨hpubkey, rfl⟩ sign s ⟨hsign, rfl⟩
    · rintro h pubkey _ ⟨hpubkey, rfl⟩ sign _ ⟨hsign, rfl⟩
      exact h pubkey sign hpubkey hsign

/-- One round of the loop of `multi_sign_verify` is safe exactly when the keys it verifies with are
sane. -/
theorem safe_verifySystem_iff {lib : CryptoLib} {allSignatures : Multisign} {msg : Bytes}
    {pubkeys : MultikeysPub} {sys : SystemNr} {s : σ} :
    Safe (verifySystem lib allSignatures msg pubkeys sys) s (fun _ _ => True) ↔
      VerifySane lib allSignatures msg pubkeys sys := by
  unfold verifySystem VerifySane
  cases hsys : CryptoSystemType.ofInt sys with
  | none =>
    refine iff_of_true trivial ?_
    rintro rfl
    cases hsys
  | some type =>
    have hnr := CryptoSystemType.nr_of_ofInt hsys
    simp only [hnr, safe_bind, safe_checkThat, getSignatureVec_eq, pure_bind]
    cases type with
    | ntruSign =>
      subst hnr
      rw [if_pos (show cryptosystemSignAllowed .ntruSign = true from rfl)]
      by_cases hen : lib.enableNTRU = true
      · simp only [hen, forall_true_left]
        exact forall_congr' fun hcount => safe_verifyNtru_iff hen hcount.symm
      · refine iff_of_true (fun hcount => ?_) fun _ h => absurd h hen
        refine (NoAbort.bind (.assertThat hcount.symm) fun _ => .ite (.pure _) ?_).safe s
        rw [if_neg hen]
        exact .raise _
    -- A signature of Ed25519 that does not verify is thrown by the library, and thrown again.
    | ed25519 =>
      have hne : sys ≠ CryptoSystemType.ntruSign.nr := by
        rw [← hnr]
        decide
      refine iff_of_true (fun hcount => ?_) fun h => absurd h hne
      rw [if_pos (show cryptosystemSignAllowed .ed25519 = true from rfl)]
      refine (NoAbort.bind (.assertThat ?_) fun _ => ?_).safe s
      · rw [hnr]
        exact hcount.symm
      · refine .ite (.pure _) (.forM fun i _ => .bind (noAbort_vectorAt _ _) fun _ => ?_)
        exact noAbort_verifyEd25519 _ _ _ _ _
    | _ =>
      have hne : sys ≠ CryptoSystemType.ntruSign.nr := by
        rw [← hnr]
        decide
      exact iff_of_true (fun _ => trivial) fun h => absurd h hne

/-- Verifying is safe exactly when the NTRU keys that it comes to are sane. -/
theorem safe_multiSignVerify_iff {lib : CryptoLib} {allSignatures : Multisign} {msg : Bytes}
    {pubkeys : MultikeysPub} {s : σ} :
    Safe (multiSignVerify lib allSignatures msg pubkeys) s (fun _ _ => True) ↔
      UntilFailure (SystemVerified lib allSignatures msg pubkeys)
        (VerifySane lib allSignatures msg pubkeys) (List.finRange systemCount) := by
  have hcount : allSignatures.getCountOfSystems = pubkeys.getCountOfSystems := rfl
  simp only [multiSignVerify, safe_bind, safe_checkThat, hcount, forall_true_left]
  exact safe_forM_iff (f := verifySystem lib allSignatures msg pubkeys)
    (P := SystemVerified lib allSignatures msg pubkeys)
    (fun _ _ _ _ => verifySystem_eq_ok_iff) fun _ _ => safe_verifySystem_iff

end Multisign

end Galaxy42
