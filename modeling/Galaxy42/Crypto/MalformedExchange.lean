import Galaxy42.Crypto.CryptoTunnel
import Galaxy42.Crypto.MalformedKeys
import Galaxy42.Crypto.StreamExchange

/-!
# Exchanges with malformed keys

The keys that a node is told of another one are of any number and any length. The initiator of an
exchange goes through its rounds with them, and aborts at the first round that comes to an assertion:
the password cannot be encrypted with a public key of NTRU, or a public key of SIDH has another length
than ours. No other part of setting up a tunnel aborts (`CryptoTunnel.safe_new_iff`).

The condition is computed along the loops, from the inside out: for one round (`safe_kexRound_iff`), for the
rounds of a system, for all systems (`safe_calculateKCT_iff`). It is an equivalence everywhere, so that no
malformed keys are left out and none are suspected wrongly. Since an exception ends the exchange as well,
only the rounds up to the first that throws count, and the conditions say so (`UntilFailure`).

The assertions are those of the wrappers around the libraries. What the libraries themselves do with a key
that is none is a value of the parameter `CryptoLib`, and nothing is assumed of it here.
-/

namespace Galaxy42

open Toolkit Program TrivialSerialize

namespace CStream

/-! ### The libraries -/

/-- Encrypting fails with an exception for a key that is too long, and aborts when nothing comes out. -/
theorem ntruppEncrypt_ne_abort_iff {lib : CryptoLib} {draw : ℕ} {plain pubkey : Bytes}
    (hplain : plain.length < 2 ^ 16) (hpos : 0 < plain.length) :
    ntruppEncrypt lib draw plain pubkey ≠ .error .abort ↔ (pubkey.length < 2 ^ 16 →
      plain.length ≤ (lib.ntruEncrypt draw plain pubkey).val.length) := by
  unfold ntruppEncrypt castUint16
  by_cases hpub : pubkey.length < 2 ^ 16
  · simp only [hpub, hplain, if_true, bind, Except.bind, forall_true_left]
    split
    · split
      next hge => exact iff_of_true (by simp) hge
      next hge => exact iff_of_false (fun h => h rfl) hge
    next h => exact iff_of_false (fun h => h rfl) (by omega)
  · simp only [hpub, if_false, bind, Except.bind, false_imp_iff, iff_true]
    simp

/-- Agreeing on a secret of SIDH aborts when the lengths of the keys do not fit. -/
theorem sidhSecretAgreement_ne_abort_iff {lib : CryptoLib}
    {keySelfPRV keySelfPub themPublicKey : Bytes} :
    sidhSecretAgreement lib keySelfPRV keySelfPub themPublicKey ≠ .error .abort ↔
      (keySelfPub.length / 2 ≤ themPublicKey.length →
        keySelfPub.length = themPublicKey.length ∧ keySelfPRV.length % 2 = 0) := by
  unfold sidhSecretAgreement
  by_cases hhalf : themPublicKey.length < keySelfPub.length / 2
  · simp [hhalf, bind, Except.bind]
  · simp only [hhalf, if_false, not_lt.mp hhalf, forall_true_left, bind, Except.bind]
    by_cases hlen : keySelfPub.length = themPublicKey.length
    · by_cases heven : keySelfPRV.length % 2 = 0
      · have hPRV : keySelfPRV.length = keySelfPRV.length / 2 + keySelfPRV.length / 2 := by omega
        refine iff_of_true ?_ ⟨hlen, heven⟩
        simp only [hlen, ← hPRV, List.take_append_drop, ne_eq, not_true_eq_false, if_false]
        cases lib.secretAgreementA (keySelfPRV.take (keySelfPRV.length / 2))
            (themPublicKey.drop (themPublicKey.length / 2)) with
        | error e => simp [liftLib]
        | ok a =>
          cases lib.secretAgreementB (keySelfPRV.drop (keySelfPRV.length / 2))
              (themPublicKey.take (themPublicKey.length / 2)) with
          | error e => simp [liftLib]
          | ok b => simp [liftLib]
      · have hPRV : keySelfPRV.length ≠ keySelfPRV.length / 2 + keySelfPRV.length / 2 := by omega
        simp [hlen, hPRV, heven]
    · simp [hlen]

/-! ### The rounds of an initiator -/

namespace KexParams

variable (k : KexParams)

/-- The password can be encrypted with their public key, unless that is too long. -/
def NtruSane (r : KexRound) : Prop :=
  r.keyBPub.length < 2 ^ 16 →
    65 ≤ (k.lib.ntruEncrypt (r.draw + 1) (k.password r) r.keyBPub).val.length

/-- The public keys are of the same length, unless theirs is shorter than half of ours, and our private
key has two halves. -/
def SidhSane (r : KexRound) : Prop :=
  r.keyAPub.length / 2 ≤ r.keyBPub.length →
    r.keyAPub.length = r.keyBPub.length ∧ r.keyAPRV.length % 2 = 0

/-- The round of an initiator comes to no assertion. -/
def RoundSane (r : KexRound) : Prop :=
  match r.sysEnum with
  | .ntruEES439EP1 => k.NtruSane r
  | .sidh => SidhSane r
  | _ => True

/-- Our private key for the round is there. -/
def HasPRV (sys : SystemNr) (r : KexRound) : Prop :=
  r.passNr % k.self.pub.getCountKeysInSystem sys < k.self.PRV.getCountKeysInSystem sys

/-- The rounds of a system come to no assertion, up to the first that throws. -/
def SystemSane (draw : ℕ) (sys : SystemNr) : Prop :=
  UntilFailure (fun r => k.HasPRV sys r ∧ k.Succeeds r) (fun r => k.HasPRV sys r → k.RoundSane r)
    (k.systemRounds draw sys)

/-- The systems of a list come to no assertion, up to the first that throws. -/
def SystemsSane : List SystemNr → ℕ → Prop
  | [], _ => True
  | sys :: syss, draw =>
    k.SystemSane draw sys ∧
      (k.SystemReady sys ∧ (∀ r ∈ k.systemRounds draw sys, k.Succeeds r) →
        SystemsSane syss (draw + k.drawsOf (k.systemRounds draw sys)))

end KexParams

section Initiator

variable {k : KexParams} {sys : SystemNr} {sysEnum : CryptoSystemType} {sysId : Int8}
  {b : Block hash1Size} {tosend : Kexasym} {count : CryptoSystemCount} {draw : ℕ}

private theorem safe_kexSecret_iff (hside : k.sideInitiator = true) {r : KexRound} :
    Safe (kexSecret k r.sysEnum sysId r.keyAPub r.keyAPRV r.keyBPub r.passNr tosend) r.draw
      (fun _ _ => True) ↔ k.RoundSane r := by
  obtain ⟨sysEnum, passNr, draw, keyAPub, keyAPRV, keyBPub⟩ := r
  cases sysEnum with
  | x25519 => exact iff_of_true (by simp [kexSecret]) trivial
  | ntruEES439EP1 =>
    have hlen : (k.lib.randomBytes draw 65).octets.length = 65 := Block.length_octets _
    simp only [kexSecret, hside, if_true, nextDraw, safe_bind, safe_get, safe_set, safe_pure,
      safe_fromOutcome, implies_true, and_true]
    rw [ntruppEncrypt_ne_abort_iff (by rw [hlen]; norm_num) (by rw [hlen]; norm_num), hlen]
    rfl
  | sidh =>
    simp only [kexSecret, safe_bind, safe_fromOutcome, safe_pure, implies_true, and_true]
    exact sidhSecretAgreement_ne_abort_iff
  | _ => exact iff_of_true trivial trivial

private theorem noAbort_kDhAgreed {σ : Type} (lib : CryptoLib) (secret keyAPub keyBPub : Bytes) :
    NoAbort (kDhAgreed lib secret keyAPub keyBPub : Program Exn σ Bytes) :=
  .bind (noAbort_binaryStringXor _ _) fun _ => .bind (noAbort_binaryStringXor _ _) fun _ => .pure _

/-- A round is safe when our private key is not there, or the round is sane. -/
theorem safe_kexRound_iff (hside : k.sideInitiator = true) (hshared : k.Shared sys) {st : KexState}
    {i : ℕ} :
    Safe (kexRound k sys sysEnum sysId st i) draw (fun _ _ => True) ↔
      (k.HasPRV sys (k.roundAt sys sysEnum draw i) → k.RoundSane (k.roundAt sys sysEnum draw i)) := by
  have hA := MultiCryptoStrings.getKey_eq_ok (Nat.mod_lt i hshared.1) draw
  have hB := MultiCryptoStrings.getKey_eq_ok (Nat.mod_lt i hshared.2) draw
  have hrest : ∀ (secret : Bytes × Kexasym) (keyAPub keyBPub : Bytes), NoAbort (do
      let agreed ← kDhAgreed k.lib secret.1 keyAPub keyBPub
      let accum ← binaryStringXor st.accum agreed
      return { st with accum, tosend := secret.2 } : Crypto KexState) := fun _ _ _ =>
    .bind (noAbort_kDhAgreed _ _ _ _) fun _ => .bind (noAbort_binaryStringXor _ _) fun _ => .pure _
  by_cases hPRV : i % k.self.pub.getCountKeysInSystem sys < k.self.PRV.getCountKeysInSystem sys
  · rw [forall_prop_of_true (p := k.HasPRV sys (k.roundAt sys sysEnum draw i)) hPRV,
      ← @safe_kexSecret_iff k sysId st.tosend hside, kexRound, safe_bind_of_ok hA,
      safe_bind_of_ok (MultiCryptoStrings.getKey_eq_ok hPRV draw), safe_bind_of_ok hB]
    exact NoAbort.safe_bind_iff fun secret => hrest secret _ _
  · refine iff_of_true ?_ fun h => absurd h hPRV
    rw [kexRound, safe_bind_of_ok hA]
    exact safe_bind_of_throw (MultiCryptoStrings.getKey_eq_error hPRV draw)

/-- The rounds of a system from number `i` on. -/
theorem safe_kexRounds_iff (hside : k.sideInitiator = true) (hshared : k.Shared sys)
    (hID : CryptoSystemType.toID sysEnum.value = .ok sysId) (n : ℕ) :
    ∀ (i : ℕ) (b : Block hash1Size) (tosend : Kexasym),
      Safe ((List.range' i n).foldlM (kexRound k sys sysEnum sysId) (.ofBlock b tosend count))
          (draw + k.drawsPerRound sysEnum * i) (fun _ _ => True) ↔
        UntilFailure (fun r => k.HasPRV sys r ∧ k.Succeeds r) (fun r => k.HasPRV sys r → k.RoundSane r)
          ((List.range' i n).map fun j =>
            k.roundAt sys sysEnum (draw + k.drawsPerRound sysEnum * j) j) := by
  induction n with
  | zero => exact fun _ _ _ => Iff.rfl
  | succ n ih =>
    intro i b tosend
    have hnext : draw + k.drawsPerRound sysEnum * i + k.drawsPerRound sysEnum =
        draw + k.drawsPerRound sysEnum * (i + 1) := by ring
    rw [List.range'_succ, List.foldlM_cons, List.map_cons, UntilFailure, safe_bind_iff,
      safe_kexRound_iff hside hshared]
    refine and_congr_right fun _ => ?_
    constructor
    · rintro h ⟨hPRV, hsucceeds⟩
      have hrest := h _ _ ((kexRound_eq_ok_iff hshared hID).mpr ⟨hPRV, hsucceeds, rfl, rfl⟩)
      rw [hnext] at hrest
      exact (ih (i + 1) _ _).mp hrest
    · intro h st d hround
      obtain ⟨hPRV, hsucceeds, rfl, rfl⟩ := (kexRound_eq_ok_iff hshared hID).mp hround
      rw [hnext]
      exact (ih (i + 1) _ _).mpr (h ⟨hPRV, hsucceeds⟩)

/-- A system that the build exchanges keys of has a letter. -/
private theorem exists_toID_of_kexEnabled {lib : CryptoLib} (h : kexEnabled lib sysEnum = true) :
    ∃ ID, CryptoSystemType.toID sysEnum.value = .ok ID := by
  cases sysEnum with
  | x25519 => exact ⟨_, rfl⟩
  | ntruEES439EP1 => exact ⟨_, rfl⟩
  | sidh => exact ⟨_, rfl⟩
  | _ => simp [kexEnabled] at h

/-- A system is gone through safely exactly when its rounds come to no assertion. -/
theorem safe_kexSystem_iff (hside : k.sideInitiator = true) :
    Safe (kexSystem k (.ofBlock b tosend count) sys) draw (fun _ _ => True) ↔ k.SystemSane draw sys := by
  cases hsys : CryptoSystemType.ofInt sys with
  | none =>
    rw [kexSystem_of_not_shared (by simp [hsys])]
    refine iff_of_true trivial ?_
    simp [KexParams.SystemSane, KexParams.systemRounds, hsys, UntilFailure]
  | some sysEnum =>
    by_cases hactive : k.Shared sys ∧ kexEnabled k.lib sysEnum = true
    · obtain ⟨sysId, hID⟩ := exists_toID_of_kexEnabled hactive.2
      have hrounds : k.systemRounds draw sys = (List.range' 0 (k.keyCountBigger sys)).map
          fun j => k.roundAt sys sysEnum (draw + k.drawsPerRound sysEnum * j) j := by
        simp [KexParams.systemRounds, hsys, hactive, List.range_eq_range']
      have hloop := @safe_kexRounds_iff k sys sysEnum sysId (k.countAfter count sys) draw hside hactive.1
        hID (k.keyCountBigger sys) 0 b tosend
      rw [kexSystem_of_shared hsys hactive.1, safe_bind_of_ok (fromExcept_eq_ok_iff.mpr ⟨hID, rfl⟩),
        if_pos hactive.2, KexParams.SystemSane, hrounds, List.range_eq_range']
      simpa using hloop
    -- Without rounds, only the letter of the system is looked up.
    · have hnone : k.systemRounds draw sys = [] := by
        simp [KexParams.systemRounds, hsys, hactive]
      rw [KexParams.SystemSane, hnone]
      refine iff_of_true ?_ trivial
      by_cases hshared : k.Shared sys
      · have hen : ¬ kexEnabled k.lib sysEnum = true := fun h => hactive ⟨hshared, h⟩
        rw [kexSystem_of_shared hsys hshared]
        refine (NoAbort.bind (.fromExcept _) fun _ => ?_).safe draw
        rw [if_neg hen]
        exact .pure _
      · rw [kexSystem_of_not_shared fun _ _ => hshared]
        trivial

private theorem safe_kexSystems_iff (hside : k.sideInitiator = true) (syss : List SystemNr) :
    ∀ (b : Block hash1Size) (tosend : Kexasym) (count : CryptoSystemCount) (draw : ℕ),
      Safe (syss.foldlM (kexSystem k) (.ofBlock b tosend count)) draw (fun _ _ => True) ↔
        k.SystemsSane syss draw := by
  induction syss with
  | nil => exact fun _ _ _ _ => Iff.rfl
  | cons sys syss ih =>
    intro b tosend count draw
    rw [List.foldlM_cons, KexParams.SystemsSane, safe_bind_iff, safe_kexSystem_iff hside]
    refine and_congr_right fun _ => ?_
    constructor
    · rintro h ⟨hready, hsucceed⟩
      exact (ih _ _ _ _).mp (h _ _ (kexSystem_eq_ok_iff.mpr ⟨hready, hsucceed, rfl, rfl⟩))
    · intro h st d hsystem
      obtain ⟨hready, hsucceed, rfl, rfl⟩ := kexSystem_eq_ok_iff.mp hsystem
      exact (ih _ _ _ _).mpr (h ⟨hready, hsucceed⟩)

end Initiator

/-- Calculating the key of a new exchange is safe exactly when its systems come to no assertion. What the
other party sends decides it, together with our own keys. -/
theorem safe_calculateKCT_iff {lib : CryptoLib} {self : MultikeysPAIR} {them : MultikeysPub} {draw : ℕ} :
    Safe (calculateKCT lib (CStream.new true) self them true []) draw (fun _ _ => True) ↔
      (initiatorParams lib self them).SystemsSane (List.finRange systemCount) draw := by
  have hrest : ∀ st : KexState, NoAbort (do
      let kctReadyFull := lib.hash1PRV st.accum
      assertThat (kctReadyFull.length ≥ 32)
      let kctReady ← substr kctReadyFull 32
      let packetstartKexasym ← generate (pushMapObject st.tosend)
      return (kctReady, { CStream.new true with cryptolistsCount := st.count, packetstartKexasym }) :
        Crypto (Bytes × CStream)) := by
    intro st
    have hlength : (lib.hash1PRV st.accum).length = 64 := Block.length_octets _
    refine .bind (.assertThat (by omega)) fun _ => .bind ?_ fun _ => .bind ?_ fun _ => .pure _
    · exact .bind (.checkThat _ _) fun _ => .bind (.assertThat (by omega)) fun _ => .pure _
    · exact noAbort_generate (noAbort_pushMapObject (fun k => noAbort_pushByteU _)
        (fun v => noAbort_pushVectorObject noAbort_pushVarstring _) _)
  have hread : (readKexasym (CStream.new true).sideInitiator [] : Crypto Kexasym) draw = .ok ∅ draw := rfl
  have hthem : self.PRV.getCountOfSystems = them.getCountOfSystems := rfl
  have hself : self.PRV.getCountOfSystems = self.pub.getCountOfSystems := rfl
  rw [calculateKCT, safe_bind_of_ok (assertThat_eq_ok_iff (a := ()).mpr ⟨hthem, rfl⟩),
    safe_bind_of_ok (assertThat_eq_ok_iff (a := ()).mpr ⟨hself, rfl⟩), safe_bind_of_ok hread]
  refine (NoAbort.safe_bind_iff hrest).trans ?_
  exact safe_kexSystems_iff rfl _ 0 ∅ _ draw

end CStream

/-- Making a tunnel to the keys of another node is safe exactly when the exchange with them comes to no
assertion. -/
theorem CryptoTunnel.safe_new_iff {lib : CryptoLib} {self : MultikeysPAIR} {them : MultikeysPub}
    {draw : ℕ} : Safe (CryptoTunnel.new lib self them) draw (fun _ _ => True) ↔
      (CStream.initiatorParams lib self them).SystemsSane (List.finRange systemCount) draw := by
  have hnonce : NoAbort (CStream.calculateNonceOdd lib self them : Crypto Bool) :=
    .bind (MultiCryptoStrings.noAbort_readHash lib _) fun _ =>
      .bind (MultiCryptoStrings.noAbort_readHash lib _) fun _ => .pure _
  rw [CryptoTunnel.new, NoAbort.safe_bind_iff fun _ => .pure _, CStream.exchangeStart,
    NoAbort.safe_bind_iff fun _ => .bind hnonce fun _ => .pure _, CStream.safe_calculateKCT_iff]

end Galaxy42
