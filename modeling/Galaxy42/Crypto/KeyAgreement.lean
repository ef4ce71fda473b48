import Galaxy42.Crypto.KexRounds
import Mathlib.Data.List.Forall2

/-!
# Both sides agree on the key

The initiator of an exchange runs through its rounds, sends the encrypted passwords in its
packetstart, and the respondent runs through rounds of its own. The rounds of the two sides are
mirror images of each other (`forall₂_mirror_rounds`): the same key pairs in the same order, although
each side takes its own counts modulo. Each round gets the same secret on both sides, by the symmetry
of Diffie-Hellman or because decrypting undoes encrypting, and contributes the same block. So the
respondent succeeds whenever the initiator does, with the same key (`calculateKCT_agree`).

The passwords travel in a variable string, which the parser of the respondent asserts to be within
its limit. An initiator with enough NTRU keys to exceed it succeeds, and the respondent aborts
(`not_calculateKCT_agree_of_oversize`).

`Sides` collects what is known of the two parties of one exchange: each has its own pairs of keys, whose
private and public halves belong together, and the public keys of the other one. `KexAgree` is what they rely
on about the primitives, for these keys and no others. The way of the passwords is followed separately: only
the rounds of one system add to what is sent (`tosend_eq_insert`), each finds its own password at its number
again, and what is sent is taken by the parser as long as it is not too long (`mapSane_tosend`).

The second part builds the input on which the two sides do not agree. It has to be large, so nothing of it is
evaluated: that the exchange succeeds, and how many octets it sends, is shown for any number of keys.
-/

namespace Galaxy42

open Toolkit Program TrivialSerialize

/-! ### What the two parties rely on -/

/-- The primitives agree on the keys of `A`, which initiates, and of `B`: Diffie-Hellman is symmetric, and
decrypting an NTRU password gives back what was encrypted. Nothing is asked of keys of other objects, nor of
systems that only sign. -/
structure KexAgree (lib : CryptoLib) (A B : MultikeysPAIR) : Prop where
  x25519 : ∀ {skA pkA skB pkB}, A.KeyPair .x25519 skA pkA → B.KeyPair .x25519 skB pkB →
    lib.keyAgreement skA pkB = lib.keyAgreement skB pkA
  ntru : ∀ {skB pkB}, B.KeyPair .ntruEES439EP1 skB pkB → ∀ {draw password cipher},
    password.length = 65 → ntruppEncrypt lib draw password pkB = .ok cipher →
    ntruppDecrypt lib cipher skB = .ok password
  sidh : ∀ {skA pkA skB pkB}, A.KeyPair .sidh skA pkA → B.KeyPair .sidh skB pkB →
    lib.secretAgreementA (firstHalf skA) (secondHalf pkB) =
        lib.secretAgreementB (secondHalf skB) (firstHalf pkA) ∧
      lib.secretAgreementB (secondHalf skA) (firstHalf pkB) =
        lib.secretAgreementA (firstHalf skB) (secondHalf pkA)
  sidh_even : ∀ {skB pkB}, B.KeyPair .sidh skB pkB → skB.length % 2 = 0

namespace CStream

/-! ### Rounds that mirror each other -/

/-- The same pair of keys, seen from the two sides. -/
structure Mirror (A B : MultikeysPAIR) (r r' : KexRound) : Prop where
  sysEnum : r'.sysEnum = r.sysEnum
  passNr : r'.passNr = r.passNr
  keyAPub : r'.keyAPub = r.keyBPub
  keyBPub : r'.keyBPub = r.keyAPub
  keyA : A.KeyPair r.sysEnum r.keyAPRV r.keyAPub
  keyB : B.KeyPair r.sysEnum r'.keyAPRV r'.keyAPub

/-- Positions that exist on both sides of a pair hold a pair of keys. -/
private theorem keyPair_getD {pair : MultikeysPAIR} (hcounts : pair.CountsMatch) {sys : SystemNr}
    {sysEnum : CryptoSystemType} (hsys : CryptoSystemType.ofInt sys = some sysEnum) {i : ℕ}
    (hi : i < pair.pub.getCountKeysInSystem sys) :
    pair.KeyPair sysEnum ((pair.PRV.cryptolistsGeneral sys).getD i [])
      ((pair.pub.cryptolistsGeneral sys).getD i []) := by
  have hi' : i < pair.PRV.getCountKeysInSystem sys := hcounts sys ▸ hi
  refine ⟨i, ?_, ?_⟩ <;> rw [CryptoSystemType.nr_of_ofInt hsys, List.getD_eq_getElem?_getD]
  · rw [List.getElem?_eq_getElem hi', Option.getD_some]
  · rw [List.getElem?_eq_getElem hi, Option.getD_some]

section Agree

variable {lib : CryptoLib} {A B : MultikeysPAIR} {kA kB : KexParams}

/-- The two sides of one exchange. All that is asked of the two parties is in it, so that the lemmas behind it
are about one object. -/
structure Sides (lib : CryptoLib) (A B : MultikeysPAIR) (kA kB : KexParams) : Prop where
  libA : kA.lib = lib
  libB : kB.lib = lib
  selfA : kA.self = A
  themA : kA.them = B.pub
  selfB : kB.self = B
  themB : kB.them = A.pub
  initiator : kA.sideInitiator = true
  respondent : kB.sideInitiator = false
  countsA : A.CountsMatch
  countsB : B.CountsMatch

namespace Sides

variable (h : Sides lib A B kA kB)

include h

/-- Both sides see the same systems as shared. -/
theorem shared_iff (sys : SystemNr) : kB.Shared sys ↔ kA.Shared sys := by
  rw [KexParams.Shared, KexParams.Shared, h.selfA, h.themA, h.selfB, h.themB, and_comm]

private theorem keyCountBigger_eq (sys : SystemNr) : kB.keyCountBigger sys = kA.keyCountBigger sys := by
  rw [KexParams.keyCountBigger, KexParams.keyCountBigger, h.selfA, h.themA, h.selfB, h.themB,
    max_comm]

/-- The rounds with the same number mirror each other, whatever was drawn before them. -/
private theorem mirror_roundAt {sys : SystemNr} {sysEnum : CryptoSystemType}
    (hsys : CryptoSystemType.ofInt sys = some sysEnum) (hshared : kA.Shared sys)
    (draw draw' i : ℕ) :
    Mirror A B (kA.roundAt sys sysEnum draw i) (kB.roundAt sys sysEnum draw' i) := by
  have hA := Nat.mod_lt i hshared.1
  have hB := Nat.mod_lt i hshared.2
  have hpairA := keyPair_getD h.countsA hsys (h.selfA ▸ hA)
  have hpairB := keyPair_getD h.countsB hsys (h.themA ▸ hB)
  refine ⟨rfl, rfl, ?_, ?_, ?_, ?_⟩ <;>
    simp only [KexParams.roundAt, h.selfA, h.themA, h.selfB, h.themB] at *
  · exact hpairA
  · exact hpairB

/-- The rounds of a system mirror each other. -/
private theorem forall₂_mirror_systemRounds (sys : SystemNr) (draw draw' : ℕ) :
    List.Forall₂ (Mirror A B) (kA.systemRounds draw sys) (kB.systemRounds draw' sys) := by
  unfold KexParams.systemRounds
  simp only [h.libA, h.libB, h.keyCountBigger_eq, h.shared_iff]
  cases hsys : CryptoSystemType.ofInt sys with
  | none => exact .nil
  | some sysEnum =>
    dsimp only
    split
    next hactive =>
      rw [List.forall₂_map_left_iff, List.forall₂_map_right_iff, List.forall₂_same]
      exact fun i _ => h.mirror_roundAt hsys hactive.1 _ _ i
    next => exact .nil

/-- All rounds of the two sides mirror each other. There are as many of them on either side, and they come in
the same order. -/
theorem forall₂_mirror_rounds (draw draw' : ℕ) :
    List.Forall₂ (Mirror A B) (kA.rounds draw) (kB.rounds draw') := by
  have hfrom : ∀ (syss : List SystemNr) (draw draw' : ℕ),
      List.Forall₂ (Mirror A B) (kA.roundsFrom syss draw) (kB.roundsFrom syss draw') := by
    intro syss
    induction syss with
    | nil => exact fun _ _ => .nil
    | cons sys syss ih =>
      intro draw draw'
      exact List.rel_append (h.forall₂_mirror_systemRounds sys draw draw') (ih _ _)
  exact hfrom _ draw draw'

end Sides

end Agree

/-! ### The encrypted passwords -/

section Passwords

variable {k : KexParams}

/-- The rounds that send an encrypted password. -/
def ntruRounds (rs : List KexRound) : List KexRound :=
  rs.filter fun r => r.sysEnum = .ntruEES439EP1

/-- Only rounds of NTRU add to the passwords, and they add under its letter. -/
private theorem getD_foldl_sendAfter (hside : k.sideInitiator = true) (rs : List KexRound) :
    ∀ tosend : Kexasym, (rs.foldl k.sendAfter tosend).getD ntruID [] =
      tosend.getD ntruID [] ++ (ntruRounds rs).map k.cipher := by
  induction rs with
  | nil => simp [ntruRounds]
  | cons r rs ih =>
    intro tosend
    rw [List.foldl_cons, ih]
    by_cases hr : r.sysEnum = .ntruEES439EP1
    · simp [KexParams.sendAfter, hside, hr, pushPassword, ntruRounds]
    · simp [KexParams.sendAfter, hr, ntruRounds]

/-- The rounds of NTRU are those of its index. -/
private theorem sysEnum_eq_ntru_iff {draw : ℕ} {sys : SystemNr} {r : KexRound}
    (h : r ∈ k.systemRounds draw sys) :
    r.sysEnum = .ntruEES439EP1 ↔ sys = CryptoSystemType.ntruEES439EP1.nr := by
  obtain ⟨sysEnum, ⟨hsys, -⟩, i, -, rfl⟩ := mem_systemRounds_iff.mp h
  change sysEnum = _ ↔ _
  constructor
  · rintro rfl
    exact (CryptoSystemType.nr_of_ofInt hsys).symm
  · rintro rfl
    exact (Option.some.inj hsys).symm

/-- Without the system of NTRU there are no rounds of NTRU. -/
private theorem ntruRounds_eq_nil {syss : List SystemNr}
    (hsyss : CryptoSystemType.ntruEES439EP1.nr ∉ syss) (draw : ℕ) :
    ntruRounds (k.roundsFrom syss draw) = [] := by
  rw [ntruRounds, List.filter_eq_nil_iff]
  intro r hr hntru
  obtain ⟨sys, hmem, draw', hr'⟩ := exists_mem_systemRounds_of_mem_roundsFrom hr
  exact hsyss ((sysEnum_eq_ntru_iff hr').mp (of_decide_eq_true hntru) ▸ hmem)

/-- The rounds of NTRU are the rounds of one system, when each system is gone through once. -/
private theorem exists_ntruRounds_roundsFrom_eq {syss : List SystemNr} (hnodup : syss.Nodup)
    (hsyss : CryptoSystemType.ntruEES439EP1.nr ∈ syss) :
    ∀ draw, ∃ draw', ntruRounds (k.roundsFrom syss draw) =
      k.systemRounds draw' CryptoSystemType.ntruEES439EP1.nr := by
  induction syss with
  | nil => simp at hsyss
  | cons sys syss ih =>
    intro draw
    obtain ⟨hsys, hnodup⟩ := List.nodup_cons.mp hnodup
    rw [KexParams.roundsFrom, ntruRounds, List.filter_append]
    rcases List.mem_cons.mp hsyss with rfl | hmem
    · refine ⟨draw, ?_⟩
      have hhere : (k.systemRounds draw CryptoSystemType.ntruEES439EP1.nr).filter
          (fun r => r.sysEnum = .ntruEES439EP1) =
          k.systemRounds draw CryptoSystemType.ntruEES439EP1.nr :=
        List.filter_eq_self.mpr fun r hr => decide_eq_true ((sysEnum_eq_ntru_iff hr).mpr rfl)
      have hrest := ntruRounds_eq_nil (k := k) hsys
      rw [hhere, ← ntruRounds, hrest, List.append_nil]
    · have hhere : (k.systemRounds draw sys).filter
          (fun r => r.sysEnum = .ntruEES439EP1) = [] := by
        rw [List.filter_eq_nil_iff]
        intro r hr hntru
        exact hsys ((sysEnum_eq_ntru_iff hr).mp (of_decide_eq_true hntru) ▸ hmem)
      rw [hhere, List.nil_append]
      exact ih hnodup hmem _

/-- The rounds of NTRU are the rounds of its system. -/
theorem exists_ntruRounds_rounds_eq (draw : ℕ) :
    ∃ draw', ntruRounds (k.rounds draw) =
      k.systemRounds draw' CryptoSystemType.ntruEES439EP1.nr :=
  exists_ntruRounds_roundsFrom_eq (List.nodup_finRange _) (List.mem_finRange _) draw

/-- Rounds add nothing under other letters. -/
private theorem getElem?_foldl_sendAfter_of_ne {ID : Int8} (hID : ID ≠ ntruID) (rs : List KexRound) :
    ∀ tosend : Kexasym, (rs.foldl k.sendAfter tosend)[ID]? = tosend[ID]? := by
  induction rs with
  | nil => exact fun _ => rfl
  | cons r rs ih =>
    intro tosend
    rw [List.foldl_cons, ih]
    unfold KexParams.sendAfter
    split
    · rw [pushPassword, Std.ExtTreeMap.getElem?_insert, if_neg]
      exact fun h => hID (Std.LawfulEqCmp.eq_of_compare h).symm
    · rfl

/-- All passwords are sent under the letter of NTRU. -/
theorem tosend_eq_insert (hside : k.sideInitiator = true) {draw : ℕ}
    (hne : ntruRounds (k.rounds draw) ≠ []) :
    k.tosend draw = (∅ : Kexasym).insert ntruID ((ntruRounds (k.rounds draw)).map k.cipher) := by
  apply Std.ExtTreeMap.ext_getElem?
  intro ID
  by_cases hID : ID = ntruID
  · subst hID
    have hget := getD_foldl_sendAfter hside (k.rounds draw) ∅
    rw [Std.ExtTreeMap.getD_eq_getD_getElem?, Std.ExtTreeMap.getD_empty, List.nil_append] at hget
    rw [Std.ExtTreeMap.getElem?_insert_self, KexParams.tosend]
    cases hsome : (List.foldl k.sendAfter ∅ (k.rounds draw))[ntruID]? with
    | none =>
      rw [hsome, Option.getD_none] at hget
      exact absurd (List.map_eq_nil_iff.mp hget.symm) hne
    | some passwords => rw [← hget, hsome, Option.getD_some]
  · rw [KexParams.tosend, getElem?_foldl_sendAfter_of_ne hID, Std.ExtTreeMap.getElem?_insert, if_neg]
    exact fun h => hID (Std.LawfulEqCmp.eq_of_compare h).symm

/-- Nothing is sent without a round of NTRU, nor by the respondent. -/
theorem tosend_eq_empty {draw : ℕ}
    (h : k.sideInitiator = false ∨ ntruRounds (k.rounds draw) = []) : k.tosend draw = ∅ := by
  have hfold : ∀ rs : List KexRound, (∀ r ∈ rs, r ∈ k.rounds draw) →
      rs.foldl k.sendAfter ∅ = ∅ := by
    intro rs
    induction rs with
    | nil => exact fun _ => rfl
    | cons r rs ih =>
      intro hrs
      have hsend : k.sendAfter ∅ r = ∅ := by
        refine if_neg fun ⟨hntru, hside⟩ => ?_
        rcases h with h | h
        · simp [h] at hside
        · exact (List.filter_eq_nil_iff.mp h) r (hrs r List.mem_cons_self) (decide_eq_true hntru)
      rw [List.foldl_cons, hsend]
      exact ih fun r hr => hrs r (List.mem_cons_of_mem _ hr)
  exact hfold _ fun _ h => h

/-- A round of NTRU finds its encrypted password at its number, under the letter of NTRU. -/
private theorem exists_getElem?_tosend (hside : k.sideInitiator = true) {draw : ℕ} {r : KexRound}
    (hmem : r ∈ k.rounds draw) (hr : r.sysEnum = .ntruEES439EP1) :
    ∃ passwords, (k.tosend draw)[ntruID]? = some passwords ∧
      passwords[r.passNr]? = some (k.cipher r) := by
  have hntru : r ∈ ntruRounds (k.rounds draw) := List.mem_filter.mpr ⟨hmem, decide_eq_true hr⟩
  obtain ⟨j, hj⟩ := List.mem_iff_getElem?.mp hntru
  obtain ⟨draw', hrounds⟩ := exists_ntruRounds_rounds_eq (k := k) draw
  have hpassNr : r.passNr = j := passNr_of_getElem?_systemRounds (hrounds ▸ hj)
  refine ⟨_, by rw [tosend_eq_insert hside (List.ne_nil_of_mem hntru),
    Std.ExtTreeMap.getElem?_insert_self], ?_⟩
  rw [List.getElem?_map, hpassNr, hj, Option.map_some]

/-- An encrypted password has at most as many octets as a `uint16_t` counts. -/
theorem length_cipher_lt (r : KexRound) : (k.cipher r).length < 2 ^ 16 := by
  unfold KexParams.cipher
  cases h : k.encrypted r with
  | error _ => norm_num
  | ok c =>
    obtain ⟨-, -, rfl, -⟩ := ntruppEncrypt_eq_ok_iff.mp h
    exact (k.lib.ntruEncrypt _ _ _).property

/-- The parser takes the passwords back. -/
theorem mapSane_tosend (draw : ℕ) : MapSane (k.tosend draw) := by
  by_cases h : k.sideInitiator = false ∨ ntruRounds (k.rounds draw) = []
  · rw [tosend_eq_empty h]
    simp [MapSane]
  · rw [not_or, Bool.not_eq_false] at h
    rw [tosend_eq_insert h.1 h.2, MapSane, toList_insert_empty]
    rintro pair hpair
    obtain rfl := List.mem_singleton.mp hpair
    refine ⟨trivial, fun x hx => ?_⟩
    obtain ⟨r, -, rfl⟩ := List.mem_map.mp hx
    exact (length_cipher_lt r).le.trans (by decide)

end Passwords

/-! ### Agreement -/

section Agreement

variable {lib : CryptoLib} {A B : MultikeysPAIR} {kA kB : KexParams}

/-- Mirrored rounds get the same secret, once the respondent has the passwords. -/
private theorem Sides.secret_eq (h : Sides lib A B kA kB) (hagree : KexAgree lib A B) {draw : ℕ}
    (hreceived : kB.received = kA.tosend draw) {r r' : KexRound} (hmem : r ∈ kA.rounds draw)
    (hr : Mirror A B r r') {secret : Bytes} (hsecret : kA.secret r = .ok secret) :
    kB.secret r' = .ok secret := by
  have hkeyA := hr.keyA
  have hkeyB := hr.keyB
  rw [hr.keyAPub] at hkeyB
  unfold KexParams.secret at hsecret ⊢
  rw [hr.sysEnum]
  cases hsys : r.sysEnum <;> rw [hsys] at hsecret hkeyA hkeyB <;> dsimp only at hsecret ⊢
  case x25519 =>
    rw [h.libA] at hsecret
    rw [h.libB, hr.keyBPub, ← hagree.x25519 hkeyA hkeyB, hsecret]
  -- The respondent decrypts the password that the initiator has encrypted for this round.
  case ntruEES439EP1 =>
    rw [if_pos h.initiator] at hsecret
    rw [if_neg (by simp [h.respondent]), hreceived]
    obtain ⟨passwords, hpasswords, hcipher⟩ := exists_getElem?_tosend h.initiator hmem hsys
    rw [hpasswords, hr.passNr]
    dsimp only
    rw [hcipher]
    cases henc : kA.encrypted r with
    | error e => simp [henc, bind, Except.bind] at hsecret
    | ok cipher =>
      have hpassword : kA.password r = secret := by
        simpa [henc, bind, Except.bind, pure, Except.pure] using hsecret
      have hc : kA.cipher r = cipher := by rw [KexParams.cipher, henc]
      rw [h.libB, hc, ← hpassword]
      rw [KexParams.encrypted, h.libA] at henc
      exact hagree.ntru hkeyB (Block.length_octets _) henc
  -- The two halves of the keys change places, and so do the two halves of the secret.
  case sidh =>
    rw [h.libA, sidhSecretAgreement_eq_ok_iff] at hsecret
    rw [h.libB, hr.keyAPub, hr.keyBPub, sidhSecretAgreement_eq_ok_iff]
    obtain ⟨hlen, -, a, b, ha, hb, rfl⟩ := hsecret
    obtain ⟨hAB, hBA⟩ := hagree.sidh hkeyA hkeyB
    exact ⟨hlen.symm, hagree.sidh_even hkeyB, b, a, hBA ▸ hb, hAB ▸ ha, by rw [add_comm]⟩
  all_goals exact hsecret

/-- Mirrored rounds contribute the same block. -/
private theorem Sides.block_eq (h : Sides lib A B kA kB) (hagree : KexAgree lib A B) {draw : ℕ}
    (hreceived : kB.received = kA.tosend draw) {r r' : KexRound} (hmem : r ∈ kA.rounds draw)
    (hr : Mirror A B r r') (hsucceeds : kA.Succeeds r) :
    kB.Succeeds r' ∧ kB.block r' = kA.block r := by
  obtain ⟨secret, hsecret⟩ := hsucceeds
  have hsecret' := h.secret_eq hagree hreceived hmem hr hsecret
  refine ⟨⟨secret, hsecret'⟩, ?_⟩
  rw [KexParams.block_of_secret hsecret, KexParams.block_of_secret hsecret', h.libA, h.libB,
    hr.keyAPub, hr.keyBPub, agreedBlock_comm]

/-- The respondent can carry out the exchange that the initiator carried out, and gets the same
session key. -/
theorem Sides.ready_and_sessionKey_eq (h : Sides lib A B kA kB) (hagree : KexAgree lib A B)
    {draw : ℕ} (hready : kA.Ready draw) (hreceived : kB.received = kA.tosend draw) (draw' : ℕ) :
    kB.Ready draw' ∧ kB.sessionKey draw' = kA.sessionKey draw := by
  have hmirror : List.Forall₂ (fun r r' => r ∈ kA.rounds draw ∧ Mirror A B r r')
      (kA.rounds draw) (kB.rounds draw') :=
    (List.forall₂_and_left _ _).mpr ⟨fun _ hmem => hmem, h.forall₂_mirror_rounds draw draw'⟩
  have hrounds : List.Forall₂ (fun r r' => kB.Succeeds r' ∧ kB.block r' = kA.block r)
      (kA.rounds draw) (kB.rounds draw') :=
    hmirror.imp fun r _ hr => h.block_eq hagree hreceived hr.1 hr.2 (hready.rounds r hr.1)
  have hblocks : (kA.rounds draw).map kA.block = (kB.rounds draw').map kB.block := by
    rw [← List.forall₂_eq_eq_eq, List.forall₂_map_left_iff, List.forall₂_map_right_iff]
    exact hrounds.imp fun _ _ hr => hr.2.symm
  refine ⟨⟨?_, ?_, ?_⟩, ?_⟩
  · intro sys sysEnum hsys hshared
    obtain ⟨hID, -⟩ := hready.systems sys sysEnum hsys ((h.shared_iff sys).mp hshared)
    exact ⟨hID, fun _ => by rw [h.selfB, h.countsB sys]⟩
  · exact ((List.forall₂_and_left (p := kB.Succeeds) _ _).mp hrounds.flip).1
  · -- the respondent sends no passwords
    rw [tosend_eq_empty (.inl h.respondent)]
    simp [MapFits, uvarintLimit]
  · rw [KexParams.sessionKey, KexParams.sessionKey, hblocks, h.libA, h.libB]

/-- A packetstart is the encrypted passwords, and the boxed identity behind them. -/
theorem generatePacketstart_eq_ok {σ : Type} {stream streamToEncryptWith stream' : CStream}
    {packetstart : Bytes} {s s' : σ}
    (h : generatePacketstart lib stream streamToEncryptWith s = .ok (packetstart, stream') s') :
    stream.packetstartKexasym.length < uvarintLimit ∧ ∃ packetstartIDeViaCT, packetstart =
      varstringOctets stream.packetstartKexasym ++ varstringOctets packetstartIDeViaCT := by
  have hemits (viaCT : Bytes) := (emits_pushVarstring stream.packetstartKexasym).seq
    (emits_pushVarstring viaCT)
  simp only [generatePacketstart, bind_eq_ok_iff] at h
  obtain ⟨⟨⟨viaCT, N⟩, _⟩, _, -, str, _, hstr, hret⟩ := h
  obtain ⟨⟨hlim, -⟩, rfl, -⟩ := (generate_eq_ok_iff_of_emits (hemits viaCT)).mp hstr
  exact ⟨hlim, viaCT, (Prod.mk.inj (EStateM.Result.ok.inj hret).1).1.symm⟩

/-- The respondent reads the passwords that the initiator sent. -/
theorem readKexasym_eq_ok {σ : Type} {received : Kexasym} (hfits : MapFits received)
    (hsane : MapSane received) (hlen : (mapOctets received).length ≤ saneMaxSizeForString)
    (rest : Bytes) (s : σ) :
    readKexasym false (varstringOctets (mapOctets received) ++ rest) s = .ok received s := by
  have hmap : mapOctets received ++ [] ≠ [] := by
    simp [mapOctets, uvarintOctets_ne_nil]
  have hpacketstart : varstringOctets (mapOctets received) ++ rest ≠ [] := by
    simp [varstringOctets, uvarintOctets_ne_nil]
  have hkexasym : parsePacketstartKexasym (varstringOctets (mapOctets received) ++ rest) s =
      .ok (mapOctets received) s :=
    parseString_of_reads (reads_popVarstring hlen) hpacketstart s
  have hparse := parseString_of_reads (reads_popMapObject hfits hsane) hmap s
  rw [List.append_nil] at hparse
  rw [readKexasym, if_neg Bool.false_ne_true]
  exact (bind_of_ok (a := ()) (checkThat_eq_ok_iff.mpr ⟨hpacketstart, rfl⟩)).trans
    ((bind_of_ok hkexasym).trans hparse)

/-- Whenever the initiator's `calculate_KCT` succeeds, the respondent's succeeds on a packetstart made of it,
with the same key, unless the encrypted passwords are longer than the parser accepts. The two sides have any
numbers of keys, in any systems, and either may have more of them than the other. Where the passwords are too
long, the respondent does not compute another key, but stops. -/
theorem calculateKCT_agree (hA : A.CountsMatch) (hB : B.CountsMatch) (hagree : KexAgree lib A B)
    {streamA streamA' streamB : CStream} (hinitiator : streamA.sideInitiator = true)
    (hrespondent : streamB.sideInitiator = false) {willNewIdA willNewIdB : Bool}
    {packetstart₀ KCT : Bytes} {draw draw' : ℕ}
    (hrun : calculateKCT lib streamA A B.pub willNewIdA packetstart₀ draw =
      .ok (KCT, streamA') draw')
    (hlen : streamA'.packetstartKexasym.length ≤ saneMaxSizeForString)
    {stream streamToEncryptWith stream' : CStream}
    (hstream : stream.packetstartKexasym = streamA'.packetstartKexasym) {packetstart : Bytes}
    {σ : Type} {s s' : σ}
    (hpacketstart : generatePacketstart lib stream streamToEncryptWith s =
      .ok (packetstart, stream') s') (drawB : ℕ) :
    ∃ streamB' drawB', calculateKCT lib streamB B A.pub willNewIdB packetstart drawB =
      .ok (KCT, streamB') drawB' := by
  obtain ⟨received, -, hready, rfl, rfl, -⟩ := calculateKCT_eq_ok_iff.mp hrun
  obtain ⟨-, rest, rfl⟩ := generatePacketstart_eq_ok hpacketstart
  set kA := kexParams lib streamA A B.pub willNewIdA received with hkA
  set kB := kexParams lib streamB B A.pub willNewIdB (kA.tosend draw) with hkB
  have hsides : Sides lib A B kA kB :=
    ⟨rfl, rfl, rfl, rfl, rfl, rfl, hinitiator, hrespondent, hA, hB⟩
  obtain ⟨hreadyB, hkey⟩ := hsides.ready_and_sessionKey_eq hagree hready rfl drawB
  have hread : (readKexasym streamB.sideInitiator
      (varstringOctets stream.packetstartKexasym ++ varstringOctets rest) : Crypto Kexasym) drawB =
      .ok (kA.tosend draw) drawB := by
    rw [hrespondent, hstream]
    exact readKexasym_eq_ok hready.fits (mapSane_tosend draw) hlen _ drawB
  exact ⟨_, _, calculateKCT_eq_ok_iff.mpr ⟨_, hread, hreadyB, hkey.symm, rfl, rfl⟩⟩

end Agreement

/-! ### A packetstart that is too long -/

section Oversize

/-- `n` keys of NTRU. -/
def ntruKeys (n : ℕ) : SystemNr → List Bytes :=
  Function.update (fun _ => []) CryptoSystemType.ntruEES439EP1.nr (List.replicate n [0])

/-- A party with `n` keys of NTRU, and no others. -/
def ntruPair (n : ℕ) : MultikeysPAIR where
  pub := { MultikeysPub.new with cryptolistsGeneral := ntruKeys n }
  PRV := { MultikeysPRV.new with cryptolistsGeneral := ntruKeys n }

/-- The stream of one side. -/
def ntruParams (m n : ℕ) : KexParams :=
  kexParams CryptoLib.sample (CStream.new true) (ntruPair m) (ntruPair n).pub false ∅

variable {m n : ℕ}

private theorem countsMatch_ntruPair (n : ℕ) : (ntruPair n).CountsMatch := fun _ => rfl

private theorem length_ntruKeys (sys : SystemNr) :
    (ntruKeys n sys).length = if sys = CryptoSystemType.ntruEES439EP1.nr then n else 0 := by
  unfold ntruKeys
  by_cases h : sys = CryptoSystemType.ntruEES439EP1.nr
  · subst h
    simp
  · simp [h]

theorem eq_of_mem_ntruKeys {sys : SystemNr} {key : Bytes} (h : key ∈ ntruKeys n sys) :
    sys = CryptoSystemType.ntruEES439EP1.nr ∧ key = [0] := by
  unfold ntruKeys at h
  by_cases hsys : sys = CryptoSystemType.ntruEES439EP1.nr
  · subst hsys
    rw [Function.update_self] at h
    exact ⟨rfl, List.eq_of_mem_replicate h⟩
  · simp [hsys] at h

theorem eq_of_keyPair_ntruPair {type : CryptoSystemType} {PRV pub : Bytes}
    (h : (ntruPair n).KeyPair type PRV pub) :
    type.nr = CryptoSystemType.ntruEES439EP1.nr ∧ PRV = [0] := by
  obtain ⟨i, hPRV, -⟩ := h
  have hmem : PRV ∈ ntruKeys n type.nr := List.mem_of_getElem? hPRV
  exact eq_of_mem_ntruKeys hmem

private theorem kexAgree_ntruPair (m n : ℕ) : KexAgree CryptoLib.sample (ntruPair m) (ntruPair n) where
  x25519 hA := absurd (eq_of_keyPair_ntruPair hA).1 (by decide)
  ntru := by
    intro skB pkB hB draw password cipher hpassword hcipher
    obtain ⟨-, -, rfl, -⟩ := ntruppEncrypt_eq_ok_iff.mp hcipher
    obtain ⟨-, rfl⟩ := eq_of_keyPair_ntruPair hB
    rw [ntruppDecrypt_eq_ok_iff]
    have htake : (password.take 65 ++ List.replicate 539 0).take 65 = password := by
      rw [List.take_append_of_le_length (by rw [List.length_take]; omega), List.take_take,
        min_self, List.take_of_length_le hpassword.le]
    refine ⟨by decide, (CryptoLib.sample.ntruEncrypt _ _ _).property, htake.symm, .inl ?_⟩
    exact List.ne_nil_of_length_pos (by omega)
  sidh hA := absurd (eq_of_keyPair_ntruPair hA).1 (by decide)
  sidh_even hB := absurd (eq_of_keyPair_ntruPair hB).1 (by decide)

/-- Every key is encrypted to, and every encryption has 604 octets. -/
theorem encrypted_of_mem_rounds {draw : ℕ} {r : KexRound} (h : r ∈ (ntruParams m n).rounds draw) :
    r.sysEnum = .ntruEES439EP1 ∧ ∃ cipher, (ntruParams m n).encrypted r = .ok cipher ∧
      cipher.length = 604 := by
  obtain ⟨sys, -, draw', hr⟩ := exists_mem_systemRounds_of_mem_roundsFrom h
  obtain ⟨sysEnum, ⟨hsys, hshared, -⟩, i, -, rfl⟩ := mem_systemRounds_iff.mp hr
  have hi : i % (ntruKeys n sys).length < (ntruKeys n sys).length := Nat.mod_lt i hshared.2
  have hmem : ((ntruKeys n sys).getD (i % (ntruKeys n sys).length) []) ∈ ntruKeys n sys := by
    rw [List.getD_eq_getElem?_getD, List.getElem?_eq_getElem hi, Option.getD_some]
    exact List.getElem_mem hi
  obtain ⟨rfl, hkey⟩ := eq_of_mem_ntruKeys hmem
  have hcipher : ∀ password : Bytes, password.length = 65 →
      (password.take 65 ++ List.replicate 539 0 : Bytes).length = 604 := by
    intro password hpassword
    rw [List.length_append, List.length_take, List.length_replicate, hpassword, min_self]
  have hpassword := Block.length_octets (CryptoLib.sample.randomBytes
    (draw' + (ntruParams m n).drawsPerRound sysEnum * i) 65)
  refine ⟨(Option.some.inj hsys).symm, _, ntruppEncrypt_eq_ok_iff.mpr
    ⟨?_, hpassword.trans_lt (by norm_num), rfl, ?_⟩, hcipher _ hpassword⟩
  · exact (congrArg List.length hkey).trans_lt (by norm_num)
  · exact hpassword.le.trans ((by norm_num : 65 ≤ 604).trans (hcipher _ hpassword).ge)

private theorem active_ntruParams (hm : 0 < m) (hn : 0 < n) :
    (ntruParams m n).Active CryptoSystemType.ntruEES439EP1.nr .ntruEES439EP1 := by
  have hcount : ∀ n, (ntruKeys n CryptoSystemType.ntruEES439EP1.nr).length = n := fun n => by
    rw [length_ntruKeys, if_pos rfl]
  exact ⟨by decide, ⟨hm.trans_eq (hcount m).symm, hn.trans_eq (hcount n).symm⟩, rfl⟩

/-- One password is sent for each pair of keys. -/
theorem exists_tosend_ntruParams (hm : 0 < m) (hn : 0 < n) (draw : ℕ) :
    ∃ passwords : List Bytes, (ntruParams m n).tosend draw = (∅ : Kexasym).insert ntruID passwords ∧
      passwords.length = max m n ∧ ∀ x ∈ passwords, x.length = 604 := by
  obtain ⟨draw', hrounds⟩ := exists_ntruRounds_rounds_eq (k := ntruParams m n) draw
  have hlen : (ntruRounds ((ntruParams m n).rounds draw)).length = max m n := by
    rw [hrounds, length_systemRounds (active_ntruParams hm hn)]
    have hcount : ∀ n, (ntruKeys n CryptoSystemType.ntruEES439EP1.nr).length = n := fun n => by
      rw [length_ntruKeys, if_pos rfl]
    exact congrArg₂ max (hcount m) (hcount n)
  have hne : ntruRounds ((ntruParams m n).rounds draw) ≠ [] :=
    List.ne_nil_of_length_pos (by omega)
  refine ⟨_, tosend_eq_insert rfl hne, by rw [List.length_map, hlen], fun x hx => ?_⟩
  obtain ⟨r, hr, rfl⟩ := List.mem_map.mp hx
  obtain ⟨-, cipher, hcipher, hlen⟩ := encrypted_of_mem_rounds (List.mem_of_mem_filter hr)
  rw [KexParams.cipher, hcipher, hlen]

private theorem ready_ntruParams (hm : 0 < m) (hn : 0 < n) (hlt : max m n < 2 ^ 32) (draw : ℕ) :
    (ntruParams m n).Ready draw := by
  refine ⟨?_, fun r hr => ?_, ?_⟩
  · intro sys sysEnum hsys hshared
    have hsys' : sys = CryptoSystemType.ntruEES439EP1.nr := by
      by_contra hne
      have hpos : 0 < (ntruKeys m sys).length := hshared.1
      rw [length_ntruKeys, if_neg hne] at hpos
      exact lt_irrefl 0 hpos
    subst hsys'
    obtain rfl : .ntruEES439EP1 = sysEnum := Option.some.inj hsys
    exact ⟨⟨ntruID, rfl⟩, fun _ => le_rfl⟩
  · obtain ⟨hsys, cipher, hcipher, -⟩ := encrypted_of_mem_rounds hr
    refine ⟨(ntruParams m n).password r, ?_⟩
    rw [KexParams.secret, hsys]
    simp only [hcipher]
    rfl
  · obtain ⟨passwords, htosend, hlen, hpasswords⟩ := exists_tosend_ntruParams hm hn draw
    rw [htosend]
    refine ⟨by simp [Std.ExtTreeMap.size_insert, uvarintLimit], fun pair hpair => ?_⟩
    rw [toList_insert_empty] at hpair
    obtain rfl := List.mem_singleton.mp hpair
    have hfits : passwords.length < uvarintLimit := by
      rw [hlen, uvarintLimit]
      omega
    exact ⟨trivial, hfits, fun x hx => (hpasswords x hx).trans_lt (by decide)⟩

/-- What is sent has 604 octets for each password, and little more. -/
theorem length_mapOctets_tosend (hm : 0 < m) (hn : 0 < n) (draw : ℕ) :
    604 * max m n ≤ (mapOctets ((ntruParams m n).tosend draw)).length ∧
      (mapOctets ((ntruParams m n).tosend draw)).length ≤ 19 + 613 * max m n := by
  obtain ⟨passwords, htosend, hlen, hpasswords⟩ := exists_tosend_ntruParams hm hn draw
  have hflat : ∀ xs : List Bytes, (∀ x ∈ xs, x.length = 604) →
      604 * xs.length ≤ (xs.flatMap varstringOctets).length ∧
        (xs.flatMap varstringOctets).length ≤ 613 * xs.length := by
    intro xs
    induction xs with
    | nil => simp
    | cons x xs ih =>
      intro h
      have hx := h x List.mem_cons_self
      have hxs := ih fun y hy => h y (List.mem_cons_of_mem _ hy)
      have hsize := length_uvarintOctets_le 604
      rw [List.flatMap_cons, List.length_append, List.length_cons, varstringOctets,
        List.length_append, hx]
      omega
  have h := hflat passwords hpasswords
  have hone : (uvarintOctets 1).length = 1 := by decide
  have hcount := length_uvarintOctets_le passwords.length
  have hentry : (mapEntryOctets (ntruID, passwords)).length =
      1 + ((uvarintOctets passwords.length).length + (passwords.flatMap varstringOctets).length) := by
    rw [mapEntryOctets, List.length_append]
    exact congrArg (1 + ·) List.length_append
  rw [htosend, mapOctets_insert_empty, List.length_append, hone, hentry]
  omega

/-- The initiator's exchange succeeds. -/
theorem calculateKCT_ntruPair (hm : 0 < m) (hn : 0 < n) (hlt : max m n < 2 ^ 32) (draw : ℕ) :
    ∃ KCT stream' draw', calculateKCT CryptoLib.sample (CStream.new true) (ntruPair m)
        (ntruPair n).pub false [] draw = .ok (KCT, stream') draw' ∧
      stream'.packetstartKexasym = mapOctets ((ntruParams m n).tosend draw) ∧
      stream'.packetstartIDe = [] :=
  ⟨_, _, _, calculateKCT_eq_ok_iff.mpr ⟨∅, rfl, ready_ntruParams hm hn hlt draw, rfl, rfl, rfl⟩, rfl,
    rfl⟩

/-- A packetstart without an identity. -/
theorem generatePacketstart_sample {stream : CStream}
    (h : stream.packetstartKexasym.length < uvarintLimit) (hIDe : stream.packetstartIDe = [])
    (s : ℕ) :
    ∃ stream', (generatePacketstart CryptoLib.sample stream (CStream.new true).createBoxerWithK :
        Crypto _) s =
      .ok (varstringOctets stream.packetstartKexasym ++ varstringOctets [], stream') s := by
  have hgenerate : (generate (do pushVarstring stream.packetstartKexasym; pushVarstring []) :
      Crypto Bytes) s = .ok (varstringOctets stream.packetstartKexasym ++ varstringOctets []) s :=
    (generate_eq_ok_iff_of_emits ((emits_pushVarstring _).seq (emits_pushVarstring []))).mpr
      ⟨⟨h, by decide⟩, rfl, rfl⟩
  rw [← hIDe] at hgenerate ⊢
  exact ⟨_, bind_of_ok hgenerate⟩

/-- One key against two. -/
theorem calculateKCT_agree_example :
    ∃ KCT packetstart streamA' draw' streamB' drawB',
      calculateKCT CryptoLib.sample (CStream.new true) (ntruPair 1) (ntruPair 2).pub false [] 0 =
        .ok (KCT, streamA') draw' ∧
      calculateKCT CryptoLib.sample (CStream.new false) (ntruPair 2) (ntruPair 1).pub false
        packetstart 0 = .ok (KCT, streamB') drawB' := by
  obtain ⟨KCT, streamA', draw', hrun, hkexasym, hIDe⟩ :=
    calculateKCT_ntruPair (m := 1) (n := 2) (by norm_num) (by norm_num) (by norm_num) 0
  have hlen : streamA'.packetstartKexasym.length ≤ 19 + 613 * max 1 2 := by
    rw [hkexasym]
    exact (length_mapOctets_tosend (m := 1) (n := 2) (by norm_num) (by norm_num) 0).2
  obtain ⟨stream', hpacketstart⟩ := generatePacketstart_sample
    (hlen.trans_lt (by decide)) hIDe 0
  obtain ⟨streamB', drawB', hrunB⟩ : ∃ streamB' drawB', calculateKCT CryptoLib.sample
      (CStream.new false) (ntruPair 2) (ntruPair 1).pub false _ 0 = .ok (KCT, streamB') drawB' :=
    calculateKCT_agree (countsMatch_ntruPair 1) (countsMatch_ntruPair 2) (kexAgree_ntruPair 1 2) rfl
      rfl hrun (hlen.trans (by decide)) rfl hpacketstart 0
  exact ⟨KCT, _, streamA', draw', streamB', drawB', hrun, hrunB⟩

/-- The respondent aborts on passwords longer than the parser accepts. -/
theorem readKexasym_ne_ok_of_oversize {kexasym : Bytes} (h : saneMaxSizeForString < kexasym.length)
    (hlim : kexasym.length < uvarintLimit) (rest : Bytes) {σ : Type} (s s' : σ) (received : Kexasym) :
    readKexasym false (varstringOctets kexasym ++ rest) s ≠ .ok received s' := by
  intro hread
  simp only [readKexasym, Bool.false_eq_true, if_false, bind_eq_ok_iff, checkThat_eq_ok_iff,
    parsePacketstartKexasym, parseString_eq_ok_iff] at hread
  obtain ⟨_, _, -, data, _, ⟨-, ⟨c, hpop⟩, -⟩, -⟩ := hread
  have habort := popVarstring_between_oversize h hlim [] (kexasym ++ rest)
  rw [Cursor.between, List.nil_append, ← List.append_assoc] at habort
  cases habort.symm.trans hpop

/-- With a hundred thousand keys of NTRU the initiator succeeds, and the respondent cannot read what
it sent. -/
theorem not_calculateKCT_agree_of_oversize :
    ¬ ∀ (lib : CryptoLib) (A B : MultikeysPAIR) (streamA streamA' streamB : CStream)
        (stream streamToEncryptWith stream' : CStream) (KCT packetstart : Bytes)
        (draw draw' drawB : ℕ), A.CountsMatch → B.CountsMatch → KexAgree lib A B →
      streamA.sideInitiator = true → streamB.sideInitiator = false →
      calculateKCT lib streamA A B.pub false [] draw = .ok (KCT, streamA') draw' →
      stream.packetstartKexasym = streamA'.packetstartKexasym →
      generatePacketstart lib stream streamToEncryptWith draw' = .ok (packetstart, stream') draw' →
      ∃ streamB' drawB', calculateKCT lib streamB B A.pub false packetstart drawB =
        .ok (KCT, streamB') drawB' := by
  intro h
  obtain ⟨m, hm⟩ : ∃ m, m = 100000 := ⟨_, rfl⟩
  have hmax : max m 1 = 100000 := by omega
  obtain ⟨KCT, streamA', draw', hrun, hkexasym, hIDe⟩ :=
    calculateKCT_ntruPair (m := m) (n := 1) (by omega) (by norm_num) (by omega) 0
  have hlen := length_mapOctets_tosend (m := m) (n := 1) (by omega) (by norm_num) 0
  rw [← hkexasym, hmax] at hlen
  have hlim : streamA'.packetstartKexasym.length < uvarintLimit :=
    hlen.2.trans_lt (by decide)
  obtain ⟨stream', hpacketstart⟩ := generatePacketstart_sample hlim hIDe draw'
  obtain ⟨streamB', drawB', hrunB⟩ := h _ _ _ _ _ (CStream.new false) _ _ _ _ _ _ _ 0
    (countsMatch_ntruPair m) (countsMatch_ntruPair 1) (kexAgree_ntruPair m 1) rfl rfl hrun rfl
    hpacketstart
  obtain ⟨received, hread, -⟩ := calculateKCT_eq_ok_iff.mp hrunB
  have hover : saneMaxSizeForString < streamA'.packetstartKexasym.length :=
    lt_of_lt_of_le (by decide) hlen.1
  exact readKexasym_ne_ok_of_oversize hover hlim _ _ _ _ hread

end Oversize

end CStream

end Galaxy42
