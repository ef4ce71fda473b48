import Galaxy42.Crypto.Stream

/-!
# The rounds of a key exchange

What `calculate_KCT` computes, without its loops: the list of the rounds it goes through, one for each
pair of keys, and the secret each round contributes. `calculateKCT_eq_ok_iff` is the exact
description of a successful run in these terms: every system that both parties use has a letter and
enough private keys, every round gets its secret, and the session key is the hash of the exclusive or
of the contributions of all rounds, cut to 32 octets.

Random octets are drawn by the initiator only, in the NTRU rounds, two draws in each; a round carries
the number of draws made before it.

There are three nested loops in the source, over the systems, over the pairs of keys in a system and, where
the lists of the two parties differ in length, around in the shorter one. Each is followed by one lemma with
the list that it goes through (`kexRound_eq_ok_iff`, `kexSystem_eq_ok_iff`), and the variables that the loops
share are determined by what the rounds so far have contributed (`KexState.ofBlock`). The results of the other
modules on key exchanges are about the list of the rounds, and none of them looks at the loops again.

The list is in the order of the enumeration, since the packetstart has the passwords in the order in which
they were made: the position of a round in its system (`passNr`) is how its password is found.
-/

namespace Galaxy42

open Toolkit Program TrivialSerialize

/-! ### Contributions -/

/-- `k_dh_agreed` as a block: what a secret agreed on by two public keys contributes. The secret and the keys
are hashed each for itself, and then their exclusive or is hashed. -/
def agreedBlock (lib : CryptoLib) (secret keyAPub keyBPub : Bytes) : Block hash1Size :=
  lib.genericHash
    (lib.genericHash secret + lib.genericHash keyAPub + lib.genericHash keyBPub).octets

/-- It does not matter whose public key comes first. -/
theorem agreedBlock_comm (lib : CryptoLib) (secret keyAPub keyBPub : Bytes) :
    agreedBlock lib secret keyAPub keyBPub = agreedBlock lib secret keyBPub keyAPub := by
  rw [agreedBlock, agreedBlock, add_right_comm]

private theorem CStream.kDhAgreed_eq_ok {σ : Type} (lib : CryptoLib) (secret keyAPub keyBPub : Bytes)
    (s : σ) :
    kDhAgreed lib secret keyAPub keyBPub s =
      .ok (agreedBlock lib secret keyAPub keyBPub).octets s := by
  simp [kDhAgreed, bind_apply, CryptoLib.hash1PRV, CryptoLib.hash1, agreedBlock]

/-- One pair of keys in the exchange. It has the place of the pair, and the keys of both sides there. It is
all that a round of the loops depends on, but for the parameters of the exchange. -/
structure KexRound where
  /-- The key system. -/
  sysEnum : CryptoSystemType
  /-- The number of the round within its system. -/
  passNr : ℕ
  /-- The draws made before the round. -/
  draw : ℕ
  /-- Our public key. -/
  keyAPub : Bytes
  /-- Our private key. -/
  keyAPRV : Bytes
  /-- Their public key. -/
  keyBPub : Bytes
  deriving DecidableEq, Repr

/-- The letter of NTRU, under which the encrypted passwords are sent. -/
def ntruID : Int8 := CryptoSystemType.charCode 't'

namespace CStream

namespace KexParams

variable (k : KexParams)

/-- Both parties have keys of the system. -/
def Shared (sys : SystemNr) : Prop :=
  0 < k.self.pub.getCountKeysInSystem sys ∧ 0 < k.them.getCountKeysInSystem sys

instance (sys : SystemNr) : Decidable (k.Shared sys) := inferInstanceAs (Decidable (_ ∧ _))

/-- The number of rounds in a shared system. The shorter list of keys is gone through again from its
beginning. -/
def keyCountBigger (sys : SystemNr) : ℕ :=
  max (k.self.pub.getCountKeysInSystem sys) (k.them.getCountKeysInSystem sys)

/-- How many draws a round of a system takes. Only the initiator draws, once for the password and once for its
encryption. -/
def drawsPerRound (sysEnum : CryptoSystemType) : ℕ :=
  if sysEnum = .ntruEES439EP1 ∧ k.sideInitiator then 2 else 0

/-- The round with a given number, when `draw` draws were made before it. The indices of both keys wrap
around. -/
def roundAt (sys : SystemNr) (sysEnum : CryptoSystemType) (draw keynrI : ℕ) : KexRound :=
  let keynrA := keynrI % k.self.pub.getCountKeysInSystem sys
  let keynrB := keynrI % k.them.getCountKeysInSystem sys
  { sysEnum
    passNr := keynrI
    draw
    keyAPub := (k.self.pub.cryptolistsGeneral sys).getD keynrA []
    keyAPRV := (k.self.PRV.cryptolistsGeneral sys).getD keynrA []
    keyBPub := (k.them.cryptolistsGeneral sys).getD keynrB [] }

/-- The system takes part in the exchange: an enumerator, shared, and supported by the build. The number of a
system need not be that of an enumerator, and then it has no rounds. -/
def Active (sys : SystemNr) (sysEnum : CryptoSystemType) : Prop :=
  CryptoSystemType.ofInt sys = some sysEnum ∧ k.Shared sys ∧ kexEnabled k.lib sysEnum = true

/-- The rounds of one system, when `draw` draws were made before it. All of them are there, also those that
come after one that fails. -/
def systemRounds (draw : ℕ) (sys : SystemNr) : List KexRound :=
  match CryptoSystemType.ofInt sys with
  | none => []
  | some sysEnum =>
    if k.Shared sys ∧ kexEnabled k.lib sysEnum = true then
      (List.range (k.keyCountBigger sys)).map fun i =>
        k.roundAt sys sysEnum (draw + k.drawsPerRound sysEnum * i) i
    else []

/-- How many draws the rounds of a list take. -/
def drawsOf (rs : List KexRound) : ℕ :=
  (rs.map fun r => k.drawsPerRound r.sysEnum).sum

/-- The rounds of the given systems, one system after the other. -/
def roundsFrom : List SystemNr → ℕ → List KexRound
  | [], _ => []
  | sys :: syss, draw =>
    k.systemRounds draw sys ++ roundsFrom syss (draw + k.drawsOf (k.systemRounds draw sys))

/-- All rounds of the exchange. -/
def rounds (draw : ℕ) : List KexRound :=
  k.roundsFrom (List.finRange systemCount) draw

/-- The password an initiator generates in an NTRU round. -/
def password (r : KexRound) : Bytes :=
  (k.lib.randomBytes r.draw 65).octets

/-- Its encryption. -/
def encrypted (r : KexRound) : Except (Fault Exn) Bytes :=
  ntruppEncrypt k.lib (r.draw + 1) (k.password r) r.keyBPub

/-- The secret of a round. What it is computed from depends on the system and on which side this is. For
Diffie-Hellman it is what the two keys agree on. For NTRU it is a password, which the initiator has made and
the other side decrypts. -/
def secret (r : KexRound) : Except (Fault Exn) Bytes :=
  match r.sysEnum with
  | .x25519 => liftLib (k.lib.keyAgreement r.keyAPRV r.keyBPub)
  | .ntruEES439EP1 =>
    if k.sideInitiator then do
      let _ ← k.encrypted r
      return k.password r
    else
      match k.received[ntruID]? with
      | none => .error (.throw .outOfRange)
      | some passwords =>
        match passwords[r.passNr]? with
        | none => .error (.throw .outOfRange)
        | some passwordEncrypted => ntruppDecrypt k.lib passwordEncrypted r.keyAPRV
  | .sidh => sidhSecretAgreement k.lib r.keyAPRV r.keyAPub r.keyBPub
  | _ => .ok []

/-- What a round contributes to the key, once it has a secret. A round that fails contributes nothing, but
then the exchange fails too. -/
def block (r : KexRound) : Block hash1Size :=
  match k.secret r with
  | .ok secret => agreedBlock k.lib secret r.keyAPub r.keyBPub
  | .error _ => 0

/-- The encrypted password that a round of the initiator sends. -/
def cipher (r : KexRound) : Bytes :=
  match k.encrypted r with
  | .ok passwordEncrypted => passwordEncrypted
  | .error _ => []

/-- The passwords to send after a round. -/
def sendAfter (tosend : Kexasym) (r : KexRound) : Kexasym :=
  if r.sysEnum = .ntruEES439EP1 ∧ k.sideInitiator then pushPassword tosend ntruID (k.cipher r)
  else tosend

/-- The passwords that a run sends. They are in the order of their rounds. -/
def tosend (draw : ℕ) : Kexasym :=
  (k.rounds draw).foldl k.sendAfter ∅

/-- The count of keys after a system. -/
def countAfter (count : CryptoSystemCount) (sys : SystemNr) : CryptoSystemCount :=
  if (CryptoSystemType.ofInt sys).isSome ∧ k.Shared sys ∧ k.willNewId then
    Function.update count sys 1
  else count

/-- A system that both parties use has a letter, and when it takes part in the exchange then there is
a private key for each public one that is paired. -/
def SystemReady (sys : SystemNr) : Prop :=
  ∀ sysEnum, CryptoSystemType.ofInt sys = some sysEnum → k.Shared sys →
    (∃ ID, CryptoSystemType.toID sysEnum.value = .ok ID) ∧
      (kexEnabled k.lib sysEnum = true →
        k.self.pub.getCountKeysInSystem sys ≤ k.self.PRV.getCountKeysInSystem sys)

/-- The round gets its secret. -/
def Succeeds (r : KexRound) : Prop :=
  ∃ secret, k.secret r = .ok secret

/-- The session key of a successful exchange. It is a function of the exclusive or of all contributions, so
their order does not matter. -/
def sessionKey (draw : ℕ) : Bytes :=
  (k.lib.genericHash ((k.rounds draw).map k.block).sum.octets).octets.take 32

end KexParams

/-! ### Programs that draw -/

private theorem nextDraw_apply (draw : ℕ) : nextDraw draw = .ok draw (draw + 1) := rfl

private theorem liftLib_eq_ok_iff {τ : Type} {r : Except Exn τ} {a : τ} :
    liftLib r = .ok a ↔ r = .ok a := by
  cases r <;> simp [liftLib]

/-- A secret that is found without a draw, next to what is sent. -/
theorem pair_eq_ok_iff {p : Crypto Bytes} {r : Except (Fault Exn) Bytes}
    (hp : ∀ {a draw draw'}, p draw = .ok a draw' ↔ r = .ok a ∧ draw = draw') {tosend tosend' : Kexasym}
    {secret : Bytes} {draw draw' : ℕ} :
    (do return (← p, tosend) : Crypto (Bytes × Kexasym)) draw = .ok (secret, tosend') draw' ↔
      r = .ok secret ∧ tosend' = tosend ∧ draw' = draw := by
  rw [bind_pure_eq_ok_iff]
  simp only [hp, Prod.mk.injEq]
  constructor
  · rintro ⟨_, ⟨h, rfl⟩, rfl, rfl⟩
    exact ⟨h, rfl, rfl⟩
  · rintro ⟨h, rfl, rfl⟩
    exact ⟨_, ⟨h, rfl⟩, rfl, rfl⟩

/-- The secret of a round, and what is sent and drawn with it. -/
theorem kexSecret_eq_ok_iff {k : KexParams} {r : KexRound} {sysId : Int8} {tosend : Kexasym}
    (hID : CryptoSystemType.toID r.sysEnum.value = .ok sysId) {secret : Bytes}
    {tosend' : Kexasym} {draw' : ℕ} :
    kexSecret k r.sysEnum sysId r.keyAPub r.keyAPRV r.keyBPub r.passNr tosend r.draw =
        .ok (secret, tosend') draw' ↔
      k.secret r = .ok secret ∧ tosend' = k.sendAfter tosend r ∧
        draw' = r.draw + k.drawsPerRound r.sysEnum := by
  obtain ⟨sysEnum, passNr, draw, keyAPub, keyAPRV, keyBPub⟩ := r
  cases sysEnum with
  | x25519 =>
    refine pair_eq_ok_iff fun {_ _ _} => ?_
    rw [fromExcept_eq_ok_iff, KexParams.secret, liftLib_eq_ok_iff]
  | ntruEES439EP1 =>
    obtain rfl : sysId = ntruID := (Except.ok.inj hID).symm
    by_cases hside : k.sideInitiator = true
    · -- the initiator draws a password, and its encryption must succeed
      simp only [kexSecret, KexParams.secret, KexParams.sendAfter, KexParams.drawsPerRound, hside,
        and_self, if_true]
      rw [bind_of_ok (nextDraw_apply draw), bind_of_ok (nextDraw_apply (draw + 1)),
        bind_pure_eq_ok_iff]
      simp only [fromOutcome_eq_ok_iff, KexParams.encrypted, KexParams.cipher, KexParams.password,
        Prod.mk.injEq]
      cases hc : ntruppEncrypt k.lib (draw + 1) (k.lib.randomBytes draw 65).octets keyBPub with
      | error e => simp [bind, Except.bind]
      | ok c =>
        simp only [Except.ok.injEq, bind, Except.bind, pure, Except.pure]
        constructor
        · rintro ⟨_, ⟨rfl, rfl⟩, rfl, rfl⟩
          exact ⟨rfl, rfl, rfl⟩
        · rintro ⟨rfl, rfl, rfl⟩
          exact ⟨c, ⟨rfl, rfl⟩, rfl, rfl⟩
    · -- the respondent looks the encrypted password up
      simp only [kexSecret, KexParams.secret, KexParams.sendAfter, KexParams.drawsPerRound, hside,
        Bool.false_eq_true, and_false, if_false, Nat.add_zero]
      cases k.received[ntruID]? with
      | none => simp
      | some passwords =>
        dsimp only
        cases hp : passwords[passNr]? with
        | none =>
          have hv : (vectorAt passwords passNr : Crypto Bytes) draw =
              .error (.throw .outOfRange) draw := by
            simp [vectorAt, hp]
          simp [bind_of_error hv]
        | some c =>
          rw [bind_of_ok (vectorAt_eq_ok_iff.mpr ⟨hp, rfl⟩)]
          exact pair_eq_ok_iff fromOutcome_eq_ok_iff
  | sidh =>
    exact pair_eq_ok_iff fromOutcome_eq_ok_iff
  | _ =>
    -- systems without an exchange contribute the empty string, and are never asked for one
    simp only [kexSecret, KexParams.secret, KexParams.sendAfter, KexParams.drawsPerRound,
      pure_apply, EStateM.Result.ok.injEq, Prod.mk.injEq, Except.ok.injEq]
    constructor
    · rintro ⟨⟨rfl, rfl⟩, rfl⟩
      exact ⟨rfl, rfl, rfl⟩
    · rintro ⟨rfl, rfl, rfl⟩
      exact ⟨⟨rfl, rfl⟩, rfl⟩

/-! ### The loops -/

/-- The variables of the loops when the exclusive or of the contributions so far is `b`. -/
def KexState.ofBlock (b : Block hash1Size) (tosend : Kexasym) (count : CryptoSystemCount) :
    KexState :=
  { accum := b.octets, tosend, count }

section Loops

variable {k : KexParams} {sys : SystemNr} {sysEnum : CryptoSystemType} {sysId : Int8}
  {b : Block hash1Size} {tosend : Kexasym} {count : CryptoSystemCount} {st' : KexState}
  {draw draw' : ℕ}

/-- A round with a secret contributes what the two parties agree on. -/
theorem KexParams.block_of_secret {r : KexRound} {secret : Bytes} (h : k.secret r = .ok secret) :
    k.block r = agreedBlock k.lib secret r.keyAPub r.keyBPub := by
  rw [KexParams.block, h]

/-- One round: the keys are there, and the round gets its secret. What it contributes is added to the
exclusive or, and what it sends is put behind what was to be sent. -/
theorem kexRound_eq_ok_iff (hshared : k.Shared sys)
    (hID : CryptoSystemType.toID sysEnum.value = .ok sysId) {i : ℕ} :
    kexRound k sys sysEnum sysId (.ofBlock b tosend count) i draw = .ok st' draw' ↔
      i % k.self.pub.getCountKeysInSystem sys < k.self.PRV.getCountKeysInSystem sys ∧
      k.Succeeds (k.roundAt sys sysEnum draw i) ∧
      st' = .ofBlock (b + k.block (k.roundAt sys sysEnum draw i))
        (k.sendAfter tosend (k.roundAt sys sysEnum draw i)) count ∧
      draw' = draw + k.drawsPerRound sysEnum := by
  have hA := MultiCryptoStrings.getKey_eq_ok (Nat.mod_lt i hshared.1) draw
  have hB := MultiCryptoStrings.getKey_eq_ok (Nat.mod_lt i hshared.2) draw
  by_cases hPRV : i % k.self.pub.getCountKeysInSystem sys < k.self.PRV.getCountKeysInSystem sys
  · rw [kexRound, bind_of_ok hA, bind_of_ok (MultiCryptoStrings.getKey_eq_ok hPRV draw), bind_of_ok hB,
      bind_eq_ok_iff, and_iff_right hPRV]
    -- what is left of the round once it has its secret
    have hjoin : ∀ {secret : Bytes} (tosend' : Kexasym) (d : ℕ),
        k.secret (k.roundAt sys sysEnum draw i) = .ok secret →
        (do let agreed ← kDhAgreed k.lib secret (k.roundAt sys sysEnum draw i).keyAPub
              (k.roundAt sys sysEnum draw i).keyBPub
            let accum ← binaryStringXor (KexState.ofBlock b tosend count).accum agreed
            return { KexState.ofBlock b tosend count with accum, tosend := tosend' } :
          Crypto KexState) d =
        .ok (.ofBlock (b + k.block (k.roundAt sys sysEnum draw i)) tosend' count) d := by
      intro secret tosend' d h
      rw [bind_of_ok (kDhAgreed_eq_ok _ _ _ _ d), KexParams.block_of_secret h]
      exact bind_of_ok (binaryStringXor_octets b _ d)
    constructor
    · rintro ⟨⟨secret, tosend'⟩, d, hsec, h⟩
      obtain ⟨hs, rfl, rfl⟩ := (kexSecret_eq_ok_iff (r := k.roundAt sys sysEnum draw i) hID).mp hsec
      obtain ⟨rfl, rfl⟩ := EStateM.Result.ok.inj ((hjoin _ _ hs).symm.trans h)
      exact ⟨⟨secret, hs⟩, rfl, rfl⟩
    · rintro ⟨⟨secret, hsec⟩, rfl, rfl⟩
      exact ⟨(secret, _), _, (kexSecret_eq_ok_iff (r := k.roundAt sys sysEnum draw i) hID).mpr
        ⟨hsec, rfl, rfl⟩, hjoin _ _ hsec⟩
  · rw [kexRound, bind_of_ok hA, bind_of_error (MultiCryptoStrings.getKey_eq_error hPRV draw)]
    simp [hPRV]

/-- The rounds of a system from number `i` on. -/
private theorem kexRounds_eq_ok_iff (hshared : k.Shared sys)
    (hID : CryptoSystemType.toID sysEnum.value = .ok sysId) (n : ℕ) :
    ∀ (i : ℕ) (b : Block hash1Size) (tosend : Kexasym),
      (List.range' i n).foldlM (kexRound k sys sysEnum sysId) (.ofBlock b tosend count)
          (draw + k.drawsPerRound sysEnum * i) = .ok st' draw' ↔
        (∀ j ∈ List.range' i n,
          j % k.self.pub.getCountKeysInSystem sys < k.self.PRV.getCountKeysInSystem sys) ∧
        (∀ r ∈ (List.range' i n).map fun j =>
            k.roundAt sys sysEnum (draw + k.drawsPerRound sysEnum * j) j, k.Succeeds r) ∧
        st' = .ofBlock
          (b + (((List.range' i n).map fun j =>
            k.roundAt sys sysEnum (draw + k.drawsPerRound sysEnum * j) j).map k.block).sum)
          (((List.range' i n).map fun j =>
            k.roundAt sys sysEnum (draw + k.drawsPerRound sysEnum * j) j).foldl k.sendAfter tosend)
          count ∧
        draw' = draw + k.drawsPerRound sysEnum * (i + n) := by
  induction n with
  | zero =>
    intro i b tosend
    simp [eq_comm]
  | succ n ih =>
    intro i b tosend
    have hnext : draw + k.drawsPerRound sysEnum * i + k.drawsPerRound sysEnum =
        draw + k.drawsPerRound sysEnum * (i + 1) := by ring
    simp only [List.range'_succ, List.foldlM_cons, bind_eq_ok_iff, List.map_cons, List.sum_cons,
      List.foldl_cons, List.forall_mem_cons, ← add_assoc]
    constructor
    · rintro ⟨st₁, d, h₁, h⟩
      obtain ⟨hPRV, hr, rfl, rfl⟩ := (kexRound_eq_ok_iff hshared hID).mp h₁
      rw [hnext] at h
      obtain ⟨hPRVs, hrs, rfl, rfl⟩ := (ih (i + 1) _ _).mp h
      exact ⟨⟨hPRV, hPRVs⟩, ⟨hr, hrs⟩, rfl, by ring⟩
    · rintro ⟨⟨hPRV, hPRVs⟩, ⟨hr, hrs⟩, rfl, rfl⟩
      refine ⟨_, _, (kexRound_eq_ok_iff hshared hID).mpr ⟨hPRV, hr, rfl, rfl⟩, ?_⟩
      rw [hnext]
      exact (ih (i + 1) _ _).mpr ⟨hPRVs, hrs, rfl, by ring⟩

/-- The private keys that the rounds of a system ask for are there exactly when there are as many as
public ones. -/
private theorem forall_mod_lt_iff {a n m : ℕ} (ha : 0 < a) (hn : a ≤ n) :
    (∀ j ∈ List.range' 0 n, j % a < m) ↔ a ≤ m := by
  constructor
  · intro h
    have hlast := h (a - 1) (by rw [List.mem_range'_1]; omega)
    rw [Nat.mod_eq_of_lt (by omega)] at hlast
    omega
  · exact fun h j _ => (Nat.mod_lt j ha).trans_le h

/-- All rounds of a system take the same number of draws. -/
private theorem drawsOf_systemRounds (hactive : k.Active sys sysEnum) :
    k.drawsOf (k.systemRounds draw sys) =
      k.drawsPerRound sysEnum * k.keyCountBigger sys := by
  obtain ⟨hsys, hshared, hen⟩ := hactive
  simp [KexParams.drawsOf, KexParams.systemRounds, hsys, hshared, hen, KexParams.roundAt,
    Function.comp_def, Nat.mul_comm]

/-- A system that the parties do not share is left out. -/
theorem kexSystem_of_not_shared (h : ∀ sysEnum, CryptoSystemType.ofInt sys = some sysEnum → ¬ k.Shared sys)
    (st : KexState) : kexSystem k st sys = pure st := by
  unfold kexSystem
  cases hsys : CryptoSystemType.ofInt sys with
  | none => rfl
  | some sysEnum =>
    dsimp only
    split
    · rfl
    · exact if_pos (h sysEnum hsys)

/-- A shared system has a letter, and goes through its rounds if the build supports it. -/
theorem kexSystem_of_shared (hsys : CryptoSystemType.ofInt sys = some sysEnum) (hshared : k.Shared sys) :
    kexSystem k (.ofBlock b tosend count) sys =
      (do let sysId ← fromExcept (CryptoSystemType.toID sysEnum.value)
          if kexEnabled k.lib sysEnum then
            (List.range (k.keyCountBigger sys)).foldlM (kexRound k sys sysEnum sysId)
              (.ofBlock b tosend (k.countAfter count sys))
          else pure (.ofBlock b tosend (k.countAfter count sys))) := by
  have hcount : ¬ max (k.self.pub.getCountKeysInSystem sys) (k.them.getCountKeysInSystem sys) < 1 :=
    not_lt.mpr (hshared.1.trans_le (le_max_left _ _))
  have hcountAfter : (if k.willNewId then
        { KexState.ofBlock b tosend count with count := Function.update count sys 1 }
      else .ofBlock b tosend count) = KexState.ofBlock b tosend (k.countAfter count sys) := by
    cases hw : k.willNewId <;> simp [KexParams.countAfter, hsys, hshared, hw, KexState.ofBlock]
  simp only [kexSystem, hsys]
  rw [if_neg hcount, ← hcountAfter]
  exact if_neg (not_not.mpr hshared)

/-- What it takes for a shared system to be ready. -/
theorem KexParams.systemReady_iff {sysEnum : CryptoSystemType}
    (hsys : CryptoSystemType.ofInt sys = some sysEnum) (hshared : k.Shared sys) : k.SystemReady sys ↔
      (∃ ID, CryptoSystemType.toID sysEnum.value = .ok ID) ∧ (kexEnabled k.lib sysEnum = true →
        k.self.pub.getCountKeysInSystem sys ≤ k.self.PRV.getCountKeysInSystem sys) := by
  constructor
  · exact fun h => h sysEnum hsys hshared
  · intro h sysEnum' hsys' _
    obtain rfl : sysEnum = sysEnum' := Option.some.inj (hsys.symm.trans hsys')
    exact h

/-- One system: it is ready, and its rounds succeed. The rounds of a system come one after the other, and each
of them adds its contribution. -/
theorem kexSystem_eq_ok_iff :
    kexSystem k (.ofBlock b tosend count) sys draw = .ok st' draw' ↔
      k.SystemReady sys ∧ (∀ r ∈ k.systemRounds draw sys, k.Succeeds r) ∧
      st' = .ofBlock (b + ((k.systemRounds draw sys).map k.block).sum)
        ((k.systemRounds draw sys).foldl k.sendAfter tosend) (k.countAfter count sys) ∧
      draw' = draw + k.drawsOf (k.systemRounds draw sys) := by
  -- A system that is not gone through leaves everything as it is.
  have hstay : ∀ {Q : Prop}, Q → ((pure (.ofBlock b tosend count) : Crypto KexState) draw =
      .ok st' draw' ↔ Q ∧ st' = .ofBlock b tosend count ∧ draw' = draw) := by
    intro Q hQ
    rw [and_iff_right hQ, pure_apply, EStateM.Result.ok.injEq, eq_comm, eq_comm (a := draw)]
  cases hsys : CryptoSystemType.ofInt sys with
  | none =>
    have hready : k.SystemReady sys := fun sysEnum h => by simp [hsys] at h
    rw [kexSystem_of_not_shared (by simp [hsys])]
    simpa [hsys, KexParams.systemRounds, KexParams.countAfter, KexParams.drawsOf, hready] using
      hstay trivial
  | some sysEnum =>
    by_cases hshared : k.Shared sys
    · rw [kexSystem_of_shared hsys hshared]
      cases hID : CryptoSystemType.toID sysEnum.value with
      | error e =>
        -- The letter of the system is asked for before it is known whether the build exchanges keys of it.
        have hready : ¬ k.SystemReady sys := by
          simp [KexParams.systemReady_iff hsys hshared, hID]
        simp [fromExcept, bind_apply, hready]
      | ok sysId =>
        by_cases hen : kexEnabled k.lib sysEnum = true
        · have hactive : k.Active sys sysEnum := ⟨hsys, hshared, hen⟩
          have hready : k.SystemReady sys ↔ k.self.pub.getCountKeysInSystem sys ≤
              k.self.PRV.getCountKeysInSystem sys := by
            simp [KexParams.systemReady_iff hsys hshared, hID, hen]
          have hrounds : k.systemRounds draw sys = (List.range' 0 (k.keyCountBigger sys)).map
              fun j => k.roundAt sys sysEnum (draw + k.drawsPerRound sysEnum * j) j := by
            simp [KexParams.systemRounds, hsys, hshared, hen, List.range_eq_range']
          -- Every key of ours is used in some round, so all private keys must be there.
          have hloop := @kexRounds_eq_ok_iff k sys sysEnum sysId (k.countAfter count sys) st' draw
            draw' hshared hID (k.keyCountBigger sys) 0 b tosend
          rw [forall_mod_lt_iff hshared.1 (show _ ≤ k.keyCountBigger sys from le_max_left _ _),
            ← hrounds, ← hready, Nat.mul_zero,
            Nat.add_zero, Nat.zero_add, ← drawsOf_systemRounds hactive] at hloop
          simpa [fromExcept, hen, List.range_eq_range'] using hloop
        · have hready : k.SystemReady sys := by
            simp [KexParams.systemReady_iff hsys hshared, hID, hen]
          have hrounds : k.systemRounds draw sys = [] := by
            simp [KexParams.systemRounds, hsys, hen]
          simp [fromExcept, hen, hready, hrounds, KexParams.drawsOf, eq_comm]
    · have hready : k.SystemReady sys := fun _ _ h => absurd h hshared
      rw [kexSystem_of_not_shared fun _ _ => hshared]
      simpa [hsys, KexParams.systemRounds, KexParams.countAfter, KexParams.drawsOf, hshared,
        hready] using hstay trivial

/-- The systems of a list, one after the other. -/
private theorem kexSystems_eq_ok_iff (syss : List SystemNr) :
    ∀ (b : Block hash1Size) (tosend : Kexasym) (count : CryptoSystemCount) (draw : ℕ),
      syss.foldlM (kexSystem k) (.ofBlock b tosend count) draw = .ok st' draw' ↔
        (∀ sys ∈ syss, k.SystemReady sys) ∧ (∀ r ∈ k.roundsFrom syss draw, k.Succeeds r) ∧
        st' = .ofBlock (b + ((k.roundsFrom syss draw).map k.block).sum)
          ((k.roundsFrom syss draw).foldl k.sendAfter tosend) (syss.foldl k.countAfter count) ∧
        draw' = draw + k.drawsOf (k.roundsFrom syss draw) := by
  induction syss with
  | nil =>
    intro b tosend count draw
    simp [KexParams.roundsFrom, KexParams.drawsOf, eq_comm]
  | cons sys syss ih =>
    intro b tosend count draw
    have hdraws : k.drawsOf (k.roundsFrom (sys :: syss) draw) =
        k.drawsOf (k.systemRounds draw sys) + k.drawsOf (k.roundsFrom syss
          (draw + k.drawsOf (k.systemRounds draw sys))) := by
      simp [KexParams.roundsFrom, KexParams.drawsOf]
    rw [hdraws, KexParams.roundsFrom]
    simp only [List.foldlM_cons, bind_eq_ok_iff, List.forall_mem_cons, List.forall_mem_append,
      List.map_append, List.sum_append, List.foldl_append, List.foldl_cons, ← add_assoc]
    constructor
    · rintro ⟨st₁, d, h₁, h⟩
      obtain ⟨hready, hr, rfl, rfl⟩ := kexSystem_eq_ok_iff.mp h₁
      obtain ⟨hreadys, hrs, rfl, rfl⟩ := (ih _ _ _ _).mp h
      exact ⟨⟨hready, hreadys⟩, ⟨hr, hrs⟩, rfl, rfl⟩
    · rintro ⟨⟨hready, hreadys⟩, ⟨hr, hrs⟩, rfl, rfl⟩
      exact ⟨_, _, kexSystem_eq_ok_iff.mpr ⟨hready, hr, rfl, rfl⟩,
        (ih _ _ _ _).mpr ⟨hreadys, hrs, rfl, rfl⟩⟩

end Loops

/-! ### The list of rounds -/

section Rounds

variable {k : KexParams} {draw : ℕ} {sys : SystemNr} {syss : List SystemNr} {r : KexRound}

/-- The rounds of a system: one for each number, when it takes part in the exchange. -/
theorem mem_systemRounds_iff :
    r ∈ k.systemRounds draw sys ↔ ∃ sysEnum, k.Active sys sysEnum ∧ ∃ i < k.keyCountBigger sys,
      r = k.roundAt sys sysEnum (draw + k.drawsPerRound sysEnum * i) i := by
  unfold KexParams.systemRounds
  constructor
  · intro h
    split at h
    · simp at h
    next sysEnum hsys =>
      split at h
      next hactive =>
        obtain ⟨i, hi, rfl⟩ := List.mem_map.mp h
        exact ⟨sysEnum, ⟨hsys, hactive⟩, i, List.mem_range.mp hi, rfl⟩
      · simp at h
  · rintro ⟨sysEnum, ⟨hsys, hactive⟩, i, hi, rfl⟩
    rw [hsys]
    dsimp only
    rw [if_pos hactive]
    exact List.mem_map.mpr ⟨i, List.mem_range.mpr hi, rfl⟩

/-- There are as many rounds as the longer list has keys. -/
theorem length_systemRounds {sysEnum : CryptoSystemType} (h : k.Active sys sysEnum) :
    (k.systemRounds draw sys).length = k.keyCountBigger sys := by
  obtain ⟨hsys, hactive⟩ := h
  simp [KexParams.systemRounds, hsys, hactive]

/-- The rounds of a system are numbered in order. -/
theorem passNr_of_getElem?_systemRounds {j : ℕ} (h : (k.systemRounds draw sys)[j]? = some r) :
    r.passNr = j := by
  unfold KexParams.systemRounds at h
  split at h
  · simp at h
  · split at h
    · rw [List.getElem?_map, Option.map_eq_some_iff] at h
      obtain ⟨i, hi, rfl⟩ := h
      obtain ⟨hj, rfl⟩ := List.getElem?_eq_some_iff.mp hi
      exact List.getElem_range hj
    · simp at h

/-- Every round is one of the rounds of a system. -/
theorem exists_mem_systemRounds_of_mem_roundsFrom :
    ∀ {draw : ℕ}, r ∈ k.roundsFrom syss draw →
      ∃ sys ∈ syss, ∃ draw', r ∈ k.systemRounds draw' sys := by
  induction syss with
  | nil => simp [KexParams.roundsFrom]
  | cons sys syss ih =>
    intro draw h
    rcases List.mem_append.mp h with h | h
    · exact ⟨sys, List.mem_cons_self, draw, h⟩
    · obtain ⟨sys', hmem, draw', hr⟩ := ih h
      exact ⟨sys', List.mem_cons_of_mem _ hmem, draw', hr⟩

end Rounds

/-! ### The whole exchange -/

/-- What `calculate_KCT` works on after it has read the packetstart. -/
def kexParams (lib : CryptoLib) (stream : CStream) (self : MultikeysPAIR) (them : MultikeysPub)
    (willNewId : Bool) (received : Kexasym) : KexParams :=
  { lib, sideInitiator := stream.sideInitiator, self, them, willNewId, received }

namespace KexParams

variable (k : KexParams)

/-- The exchange can be carried out: every system is ready, every round gets its secret, and the passwords can
be serialized. It can be told before any secret is made, from the keys of both sides and from what was
received. -/
structure Ready (draw : ℕ) : Prop where
  systems : ∀ sys, k.SystemReady sys
  rounds : ∀ r ∈ k.rounds draw, k.Succeeds r
  fits : MapFits (k.tosend draw)

/-- The counts of keys after the exchange. -/
def countOf (count : CryptoSystemCount) : CryptoSystemCount :=
  (List.finRange systemCount).foldl k.countAfter (if k.willNewId then fun _ => 0 else count)

end KexParams

/-- Reading the packetstart draws nothing. -/
private theorem state_of_readKexasym {σ : Type} {sideInitiator : Bool} {packetstart : Bytes} {s s' : σ}
    {received : Kexasym} (h : readKexasym sideInitiator packetstart s = .ok received s') : s = s' := by
  cases sideInitiator with
  | true =>
    simp only [readKexasym, if_true, bind_pure_eq_ok_iff, checkThat_eq_ok_iff] at h
    exact h.choose_spec.1.2
  | false =>
    simp only [readKexasym, Bool.false_eq_true, if_false, bind_eq_ok_iff, checkThat_eq_ok_iff,
      parsePacketstartKexasym, parseString_eq_ok_iff] at h
    obtain ⟨_, _, ⟨-, rfl⟩, _, _, ⟨-, -, rfl⟩, -, -, rfl⟩ := h
    rfl

/-- `calculate_KCT` succeeds exactly when the packetstart can be read and the exchange carried out,
and then it returns the session key. -/
theorem calculateKCT_eq_ok_iff {lib : CryptoLib} {stream : CStream} {self : MultikeysPAIR}
    {them : MultikeysPub} {willNewId : Bool} {packetstart KCT : Bytes} {stream' : CStream}
    {draw draw' : ℕ} :
    calculateKCT lib stream self them willNewId packetstart draw = .ok (KCT, stream') draw' ↔
      ∃ received, (readKexasym stream.sideInitiator packetstart : Crypto Kexasym) draw =
          .ok received draw ∧
        let k := kexParams lib stream self them willNewId received
        k.Ready draw ∧ KCT = k.sessionKey draw ∧
        stream' = { stream with
          cryptolistsCount := k.countOf stream.cryptolistsCount
          packetstartKexasym := mapOctets (k.tosend draw) } ∧
        draw' = draw + k.drawsOf (k.rounds draw) := by
  -- The hash has 64 octets, so the key can always be cut from it.
  have hsubstr : ∀ (accum : Bytes) (d : ℕ), (substr (lib.hash1PRV accum) 32 : Crypto Bytes) d =
      .ok ((lib.hash1PRV accum).take 32) d := fun accum d =>
    substr_eq_ok (by norm_num) (by rw [CryptoLib.length_hash1PRV]; norm_num) d
  have hgenerate : ∀ {tosend : Kexasym} {d d' : ℕ} {out : Bytes},
      generate (pushMapObject tosend) d = .ok out d' ↔
        MapFits tosend ∧ out = mapOctets tosend ∧ d = d' := fun {tosend} _ _ _ =>
    generate_eq_ok_iff_of_emits (emits_pushMapObject tosend)
  simp only [calculateKCT, bind_eq_ok_iff, assertThat_eq_ok_iff]
  constructor
  · rintro ⟨_, _, ⟨-, rfl⟩, _, _, ⟨-, rfl⟩, received, d, hread, st, d', hloop, _, _, ⟨-, rfl⟩, K, _,
      hK, kexasym, _, hkexasym, h⟩
    obtain rfl : draw = d := state_of_readKexasym hread
    obtain ⟨hsystems, hrounds, rfl, rfl⟩ := (kexSystems_eq_ok_iff
      (k := kexParams lib stream self them willNewId received) _ 0 ∅ _ draw).mp hloop
    rw [hsubstr] at hK
    obtain ⟨rfl, rfl⟩ := EStateM.Result.ok.inj hK
    obtain ⟨hfits, rfl, rfl⟩ := hgenerate.mp hkexasym
    obtain ⟨hr, rfl⟩ := EStateM.Result.ok.inj h
    obtain ⟨rfl, rfl⟩ := Prod.mk.inj hr
    refine ⟨received, hread, ⟨fun sys => hsystems sys (List.mem_finRange sys), hrounds, hfits⟩, ?_,
      rfl, rfl⟩
    rw [zero_add]
    rfl
  · rintro ⟨received, hread, hready, rfl, rfl, rfl⟩
    have hloop := (kexSystems_eq_ok_iff
      (k := kexParams lib stream self them willNewId received) _ 0 ∅
      (if willNewId then fun _ => 0 else stream.cryptolistsCount) draw).mpr
      ⟨fun sys _ => hready.systems sys, hready.rounds, rfl, rfl⟩
    refine ⟨(), draw, ⟨rfl, rfl⟩, (), draw, ⟨rfl, rfl⟩, received, draw, hread, _, _, hloop, (), _,
      ⟨?_, rfl⟩, _, _, hsubstr _ _, _, _, hgenerate.mpr ⟨hready.fits, rfl, rfl⟩, ?_⟩
    · rw [CryptoLib.length_hash1PRV]
      norm_num
    · rw [zero_add]
      rfl

end CStream

end Galaxy42
