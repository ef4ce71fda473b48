import Galaxy42.Crypto.GeneratedKeys
import Galaxy42.Crypto.KeyAgreement

/-!
# The exchange of one stream

`exchange_start` on one side and `exchange_done` on the other set up one stream. With keys that belong
together (`KexLaws`) the initiator succeeds when both parties use only key systems that have a letter
and the encrypted passwords fit into a packetstart (`ready_of_laws`); the respondent then succeeds on
that packetstart (`exchangeDone_eq_ok`), and both have the same key and, unless their keys have the
same hash, opposite parities. The identity in the packetstart is boxed by one stream and unboxed by the
stream on the other side (`exists_generatePacketstart_eq_ok`).

The laws of the key exchange are about pairs of keys that are valid together, whatever that means for a
library: agreeing on a secret succeeds and gives both the same, and a password that can be encrypted with a
public key is decrypted with the private one. The laws of boxing say that what was boxed is unboxed with the
same key and nonce. Neither says that anything is secret.

A stream after its exchange is known up to its key and its parity (`exchangedStream`), and so are the numbers
of keys that were counted for the next stream: one for each system that both parties use, on both sides
(`countOf_eq`).
-/

namespace Galaxy42

open Toolkit Program TrivialSerialize

/-! ### What the two parties rely on -/

/-- The primitives of the key exchange agree on keys that belong together. What it means that two keys belong
together (`Valid`) is left open; the generators of the libraries say it of what they return. -/
structure KexLaws (lib : CryptoLib) (Valid : CryptoSystemType → Bytes → Bytes → Prop) : Prop where
  x25519 : ∀ {skA pkA skB pkB}, Valid .x25519 skA pkA → Valid .x25519 skB pkB →
    ∃ secret, lib.keyAgreement skA pkB = .ok secret ∧ lib.keyAgreement skB pkA = .ok secret
  ntru : ∀ {sk pk}, Valid .ntruEES439EP1 sk pk → ∀ draw {password : Bytes}, password.length = 65 →
    ∃ cipher, ntruppEncrypt lib draw password pk = .ok cipher ∧
      ntruppDecrypt lib cipher sk = .ok password
  sidh : ∀ {skA pkA skB pkB}, Valid .sidh skA pkA → Valid .sidh skB pkB →
    ∃ secret, lib.secretAgreementA (firstHalf skA) (secondHalf pkB) = .ok secret ∧
      lib.secretAgreementB (secondHalf skB) (firstHalf pkA) = .ok secret
  sidh_length : ∀ {skA pkA skB pkB}, Valid .sidh skA pkA → Valid .sidh skB pkB →
    pkA.length = pkB.length
  sidh_even : ∀ {sk pk}, Valid .sidh sk pk → sk.length % 2 = 0

/-- Boxing with a session key and a nonce can be undone with the same key and nonce, and adds at most an
authenticator. The first nonce of either sequence is there. That there are only so many nonces is not
excluded. -/
structure BoxLaws (lib : CryptoLib) : Prop where
  nonce : ∀ odd, ∃ N, lib.nonceAt odd 0 = .ok N
  box : ∀ {odd count N}, lib.nonceAt odd count = .ok N → ∀ {key : Bytes}, key.length = 32 →
    ∀ msg, ∃ cipher, lib.secretbox key N msg = .ok cipher ∧ cipher.length ≤ msg.length + 16 ∧
      lib.secretboxOpen key N cipher = .ok msg

section Agree

variable {lib : CryptoLib} {Valid : CryptoSystemType → Bytes → Bytes → Prop} {A B : MultikeysPAIR}

/-- Encrypting only gives one result, so what was encrypted is decrypted. -/
private theorem KexLaws.kexAgree (laws : KexLaws lib Valid) (hA : A.KeysValid Valid)
    (hB : B.KeysValid Valid) : KexAgree lib A B where
  x25519 hkeyA hkeyB := by
    obtain ⟨secret, hAB, hBA⟩ := laws.x25519 (hA (by decide) hkeyA) (hB (by decide) hkeyB)
    rw [hAB, hBA]
  ntru hkeyB draw password cipher hpassword hcipher := by
    obtain ⟨cipher', hcipher', hplain⟩ := laws.ntru (hB (by decide) hkeyB) draw hpassword
    obtain rfl : cipher = cipher' := Except.ok.inj (hcipher.symm.trans hcipher')
    exact hplain
  sidh hkeyA hkeyB := by
    have hvalidA := hA (by decide) hkeyA
    have hvalidB := hB (by decide) hkeyB
    obtain ⟨a, hAB, hBA⟩ := laws.sidh hvalidA hvalidB
    obtain ⟨b, hBA', hAB'⟩ := laws.sidh hvalidB hvalidA
    exact ⟨hAB.trans hBA.symm, hAB'.trans hBA'.symm⟩
  sidh_even hkeyB := laws.sidh_even (hB (by decide) hkeyB)

end Agree

namespace CStream

/-! ### The initiator -/

/-- What the initiator works on. -/
def initiatorParams (lib : CryptoLib) (self : MultikeysPAIR) (them : MultikeysPub) : KexParams :=
  kexParams lib (CStream.new true) self them true ∅

/-- What the respondent works on. -/
def respondentParams (lib : CryptoLib) (self : MultikeysPAIR) (them : MultikeysPub)
    (received : Kexasym) : KexParams :=
  kexParams lib (CStream.new false) self them true received

section Initiator

variable {lib : CryptoLib} {Valid : CryptoSystemType → Bytes → Bytes → Prop} {A B : MultikeysPAIR}
  {kA kB : KexParams} {draw : ℕ}

/-- The two sides of the exchange between two parties. -/
theorem sides (hA : A.CountsMatch) (hB : B.CountsMatch) (received : Kexasym) :
    Sides lib A B (initiatorParams lib A B.pub) (respondentParams lib B A.pub received) :=
  ⟨rfl, rfl, rfl, rfl, rfl, rfl, rfl, rfl, hA, hB⟩

/-- The initiator gets a secret from every pair of keys. -/
private theorem Sides.succeeds (h : Sides lib A B kA kB) (laws : KexLaws lib Valid)
    (hA : A.KeysValid Valid) (hB : B.KeysValid Valid) {r : KexRound} (hr : r ∈ kA.rounds draw) :
    kA.Succeeds r := by
  obtain ⟨r', hmirror⟩ : ∃ r', Mirror A B r r' := by
    obtain ⟨j, hlt, rfl⟩ := List.mem_iff_getElem.mp hr
    have hall := h.forall₂_mirror_rounds draw draw
    exact ⟨_, hall.get hlt (hall.length_eq ▸ hlt)⟩
  have hkeyA := hmirror.keyA
  have hkeyB := hmirror.keyB
  rw [hmirror.keyAPub] at hkeyB
  unfold KexParams.Succeeds KexParams.secret
  cases hsys : r.sysEnum <;> rw [hsys] at hkeyA hkeyB <;> dsimp only
  case x25519 =>
    obtain ⟨secret, hsecret, -⟩ := laws.x25519 (hA (by decide) hkeyA) (hB (by decide) hkeyB)
    exact ⟨secret, by rw [h.libA, hsecret]; rfl⟩
  case ntruEES439EP1 =>
    rw [if_pos h.initiator]
    have hlen : (kA.password r).length = 65 := Block.length_octets _
    obtain ⟨cipher, hcipher, -⟩ := laws.ntru (hB (by decide) hkeyB) (r.draw + 1) hlen
    have henc : kA.encrypted r = .ok cipher := by
      rw [KexParams.encrypted, h.libA]
      exact hcipher
    exact ⟨kA.password r, by rw [henc]; rfl⟩
  case sidh =>
    have hvalidA := hA (by decide) hkeyA
    have hvalidB := hB (by decide) hkeyB
    obtain ⟨a, ha, -⟩ := laws.sidh hvalidA hvalidB
    obtain ⟨b, -, hb⟩ := laws.sidh hvalidB hvalidA
    rw [h.libA]
    exact ⟨_, sidhSecretAgreement_eq_ok_iff.mpr
      ⟨laws.sidh_length hvalidA hvalidB, laws.sidh_even hvalidA, a, b, ha, hb, rfl⟩⟩
  all_goals exact ⟨[], rfl⟩

/-- Passwords that are short enough for a packetstart can be written. -/
private theorem mapFits_tosend (hlen : (mapOctets (kA.tosend draw)).length ≤ saneMaxSizeForString) :
    MapFits (kA.tosend draw) := by
  by_cases h : kA.sideInitiator = false ∨ ntruRounds (kA.rounds draw) = []
  · rw [tosend_eq_empty h]
    simp [MapFits, uvarintLimit]
  · rw [not_or, Bool.not_eq_false] at h
    set passwords := (ntruRounds (kA.rounds draw)).map kA.cipher with hpasswords
    have hshort : ∀ x ∈ passwords, x.length < uvarintLimit := by
      intro x hx
      obtain ⟨r, -, rfl⟩ := List.mem_map.mp hx
      exact (length_cipher_lt r).trans (by decide)
    have hflat : ∀ xs : List Bytes, xs.length ≤ (xs.flatMap varstringOctets).length := by
      intro xs
      induction xs with
      | nil => simp
      | cons x xs ih =>
        have hpos : 0 < (varstringOctets x).length :=
          List.length_pos_iff.mpr (by simp [varstringOctets, uvarintOctets_ne_nil])
        rw [List.flatMap_cons, List.length_append, List.length_cons]
        omega
    have hentry : (mapEntryOctets (ntruID, passwords)).length =
        1 + ((uvarintOctets passwords.length).length +
          (passwords.flatMap varstringOctets).length) := by
      rw [mapEntryOctets, List.length_append]
      exact congrArg (1 + ·) List.length_append
    rw [tosend_eq_insert h.1 h.2, mapOctets_insert_empty, List.length_append, hentry] at hlen
    have hcount : passwords.length ≤ saneMaxSizeForString := by
      have := hflat passwords
      omega
    rw [tosend_eq_insert h.1 h.2]
    refine ⟨by simp [Std.ExtTreeMap.size_insert, uvarintLimit], fun pair hpair => ?_⟩
    rw [toList_insert_empty] at hpair
    obtain rfl := List.mem_singleton.mp hpair
    exact ⟨trivial, lt_uvarintLimit_of_le_sane hcount, hshort⟩

/-- The initiator can carry out the exchange when the shared systems have letters, and the passwords
fit into a packetstart. -/
theorem Sides.ready_of_laws (h : Sides lib A B kA kB) (laws : KexLaws lib Valid)
    (hA : A.KeysValid Valid) (hB : B.KeysValid Valid)
    (hletters : ∀ (sys : SystemNr) type, CryptoSystemType.ofInt sys = some type → kA.Shared sys →
      ∃ ID, CryptoSystemType.toID sys = .ok ID)
    (hlen : (mapOctets (kA.tosend draw)).length ≤ saneMaxSizeForString) : kA.Ready draw := by
  refine ⟨fun sys type hsys hshared => ?_, fun r hr => h.succeeds laws hA hB hr, mapFits_tosend hlen⟩
  rw [CryptoSystemType.value_of_ofInt hsys]
  exact ⟨hletters sys type hsys hshared, fun _ => by rw [h.selfA, h.countsA sys]⟩

/-- With at most one key in each system, the passwords fit into a packetstart. -/
theorem length_mapOctets_tosend_le (hcount : ∀ sys, kA.keyCountBigger sys ≤ 1) :
    (mapOctets (kA.tosend draw)).length ≤ saneMaxSizeForString := by
  by_cases h : kA.sideInitiator = false ∨ ntruRounds (kA.rounds draw) = []
  · rw [tosend_eq_empty h]
    decide
  · rw [not_or, Bool.not_eq_false] at h
    obtain ⟨draw', hrounds⟩ := exists_ntruRounds_rounds_eq (k := kA) draw
    have hone : (ntruRounds (kA.rounds draw)).length ≤ 1 := by
      rw [hrounds]
      refine le_trans ?_ (hcount CryptoSystemType.ntruEES439EP1.nr)
      unfold KexParams.systemRounds
      split
      · simp
      · split <;> simp
    obtain ⟨r, hr⟩ : ∃ r, ntruRounds (kA.rounds draw) = [r] :=
      List.length_eq_one_iff.mp (le_antisymm hone (List.length_pos_iff.mpr h.2))
    have hcipher := length_cipher_lt (k := kA) r
    have hsize := length_uvarintOctets_le (kA.cipher r).length
    have hentry : (mapEntryOctets (ntruID, [kA.cipher r])).length =
        1 + ((uvarintOctets 1).length +
          ((uvarintOctets (kA.cipher r).length).length + (kA.cipher r).length)) := by
      simp only [mapEntryOctets, LawfulObj.octets, vectorOctets, varstringOctets, List.length_append,
        List.flatMap_cons, List.flatMap_nil, List.append_nil, List.length_singleton]
    have hnumber : (uvarintOctets 1).length = 1 := by decide
    rw [tosend_eq_insert h.1 h.2, hr, List.map_singleton, mapOctets_insert_empty, List.length_append,
      hentry, hnumber]
    unfold saneMaxSizeForString
    omega

end Initiator

/-! ### The streams after the exchange -/

section Exchanged

variable {lib : CryptoLib} {Valid : CryptoSystemType → Bytes → Bytes → Prop} {A B : MultikeysPAIR}
  {hashA hashB : Bytes}

/-- A stream after its exchange. -/
def exchangedStream (k : KexParams) (draw : ℕ) (nonceOdd : Bool) : CStream where
  sideInitiator := k.sideInitiator
  KCT := k.sessionKey draw
  nonceOdd
  packetstartKexasym := mapOctets (k.tosend draw)
  packetstartIDe := []
  cryptolistsCount := k.countOf fun _ => 0
  boxer := some { odd := nonceOdd, key := k.sessionKey draw, count := 0 }
  unboxer := some { odd := !nonceOdd, key := k.sessionKey draw, count := 0 }

theorem length_sessionKey (k : KexParams) (draw : ℕ) : (k.sessionKey draw).length = 32 := by
  rw [KexParams.sessionKey, List.length_take, Block.length_octets]
  rfl

/-- Two different hashes give the two sides opposite parities. -/
theorem isGT_compare_eq_not {hash hash' : Bytes} (h : hash ≠ hash') :
    (compare hash hash').isGT = !(compare hash' hash).isGT := by
  have hne : compare hash' hash ≠ .eq := fun heq =>
    h (Std.LawfulEqOrd.eq_of_compare heq).symm
  rw [Std.OrientedOrd.eq_swap (a := hash)]
  cases hcompare : compare hash' hash
  · rfl
  · exact absurd hcompare hne
  · rfl

/-- A hash that is only read does not depend on the state. -/
private theorem readHash_eq_ok {m : MultiCryptoStrings} {hash : Bytes}
    (h : m.readHash lib () = .ok hash ()) {σ : Type} (s : σ) : m.readHash lib s = .ok hash s := by
  have hrun := (within_eq_ok_iff.mp h).1
  exact within_eq_ok_iff.mpr ⟨hrun, rfl⟩

private theorem calculateNonceOdd_eq_ok (hA : A.pub.readHash lib () = .ok hashA ())
    (hB : B.pub.readHash lib () = .ok hashB ()) {σ : Type} (s : σ) :
    calculateNonceOdd lib A B.pub s = .ok (compare hashA hashB).isGT s :=
  (bind_of_ok (readHash_eq_ok hA s)).trans ((bind_of_ok (readHash_eq_ok hB s)).trans rfl)

/-- The initiator's exchange, in terms of its rounds. -/
theorem exchangeStart_eq_ok_iff (hA : A.pub.readHash lib () = .ok hashA ())
    (hB : B.pub.readHash lib () = .ok hashB ()) {stream : CStream} {draw draw' : ℕ} :
    exchangeStart lib (CStream.new true) A B.pub true draw = .ok stream draw' ↔
      let k := initiatorParams lib A B.pub
      k.Ready draw ∧ stream = exchangedStream k draw (compare hashA hashB).isGT ∧
        draw' = draw + k.drawsOf (k.rounds draw) := by
  have hread : (readKexasym (CStream.new true).sideInitiator [] : Crypto Kexasym) draw =
      .ok ∅ draw := rfl
  rw [exchangeStart, bind_eq_ok_iff]
  constructor
  · rintro ⟨⟨KCT, st⟩, draw₁, hKCT, hrest⟩
    obtain ⟨received, hread', hready, rfl, rfl, rfl⟩ := calculateKCT_eq_ok_iff.mp hKCT
    obtain rfl : ∅ = received := (EStateM.Result.ok.inj (hread.symm.trans hread')).1
    have hret := (bind_of_ok (calculateNonceOdd_eq_ok hA hB _)).symm.trans hrest
    obtain ⟨rfl, rfl⟩ := EStateM.Result.ok.inj hret
    exact ⟨hready, rfl, rfl⟩
  · rintro ⟨hready, rfl, rfl⟩
    refine ⟨_, _, calculateKCT_eq_ok_iff.mpr ⟨∅, hread, hready, rfl, rfl, rfl⟩, ?_⟩
    exact (bind_of_ok (calculateNonceOdd_eq_ok hA hB _)).trans rfl

/-- The respondent's exchange succeeds on the packetstart of the initiator, with the same key. It is the
composition of what the initiator has written, of reading it, and of the rounds of both sides. -/
theorem exchangeDone_eq_ok (laws : KexLaws lib Valid) (hcountsA : A.CountsMatch)
    (hcountsB : B.CountsMatch) (hvalidA : A.KeysValid Valid) (hvalidB : B.KeysValid Valid)
    (hA : A.pub.readHash lib () = .ok hashA ()) (hB : B.pub.readHash lib () = .ok hashB ())
    {drawA : ℕ} (hready : (initiatorParams lib A B.pub).Ready drawA)
    (hlen : (mapOctets ((initiatorParams lib A B.pub).tosend drawA)).length ≤ saneMaxSizeForString)
    (rest : Bytes) (drawB : ℕ) :
    let kA := initiatorParams lib A B.pub
    let kB := respondentParams lib B A.pub (kA.tosend drawA)
    kB.sessionKey drawB = kA.sessionKey drawA ∧
      ∃ drawB', exchangeDone lib (CStream.new false) B A.pub
          (varstringOctets (mapOctets (kA.tosend drawA)) ++ rest) drawB =
        .ok (exchangedStream kB drawB (compare hashB hashA).isGT) drawB' := by
  intro kA kB
  have hsides : Sides lib A B kA kB := sides hcountsA hcountsB _
  obtain ⟨hreadyB, hkey⟩ := hsides.ready_and_sessionKey_eq (laws.kexAgree hvalidA hvalidB) hready rfl
    drawB
  refine ⟨hkey, drawB + kB.drawsOf (kB.rounds drawB), ?_⟩
  have hread : (readKexasym (CStream.new false).sideInitiator
      (varstringOctets (mapOctets (kA.tosend drawA)) ++ rest) : Crypto Kexasym) drawB =
      .ok (kA.tosend drawA) drawB :=
    readKexasym_eq_ok hready.fits (mapSane_tosend drawA) hlen rest drawB
  have hKCT := calculateKCT_eq_ok_iff.mpr ⟨_, hread, hreadyB, rfl, rfl, rfl⟩
  exact (bind_of_ok hKCT).trans ((bind_of_ok (calculateNonceOdd_eq_ok hB hA _)).trans rfl)

/-- The respondent fails on encrypted passwords that are longer than the parser accepts. -/
theorem le_sane_of_exchangeDone_eq_ok {stream : CStream} {self : MultikeysPAIR} {them : MultikeysPub}
    {kexasym rest : Bytes} (hlim : kexasym.length < uvarintLimit) {draw draw' : ℕ}
    (h : exchangeDone lib (CStream.new false) self them (varstringOctets kexasym ++ rest) draw =
      .ok stream draw') : kexasym.length ≤ saneMaxSizeForString := by
  rw [exchangeDone, bind_eq_ok_iff] at h
  obtain ⟨⟨KCT, st⟩, draw₁, hKCT, -⟩ := h
  obtain ⟨received, hread, -⟩ := calculateKCT_eq_ok_iff.mp hKCT
  by_contra hover
  exact readKexasym_ne_ok_of_oversize (not_le.mp hover) hlim rest _ _ received hread

/-! ### Counting the keys of the next stream -/

/-- One key for each system that both parties use. -/
def sharedCount (A B : MultikeysPub) : CryptoSystemCount := fun sys =>
  if (CryptoSystemType.ofInt sys).isSome ∧
      0 < A.getCountKeysInSystem sys ∧ 0 < B.getCountKeysInSystem sys then 1
  else 0

theorem sharedCount_comm (A B : MultikeysPub) : sharedCount A B = sharedCount B A := by
  funext sys
  simp only [sharedCount, and_comm]

theorem sharedCount_le (A B : MultikeysPub) (sys : SystemNr) : sharedCount A B sys ≤ 1 := by
  unfold sharedCount
  split <;> omega

/-- Both parties count the same. -/
theorem countOf_eq (stream : CStream) (A : MultikeysPAIR) (B : MultikeysPub) (received : Kexasym)
    (count : CryptoSystemCount) :
    (kexParams lib stream A B true received).countOf count = sharedCount A.pub B := by
  set k := kexParams lib stream A B true received with hk
  have hloop : ∀ (syss : List SystemNr) (count : CryptoSystemCount) (sys : SystemNr),
      syss.foldl k.countAfter count sys =
        if sys ∈ syss ∧ (CryptoSystemType.ofInt sys).isSome ∧ k.Shared sys then 1
        else count sys := by
    intro syss
    induction syss with
    | nil => simp
    | cons sys' syss ih =>
      intro count sys
      rw [List.foldl_cons, ih]
      have hwill : k.willNewId = true := rfl
      have hafter : k.countAfter count sys' sys =
          if sys = sys' ∧ (CryptoSystemType.ofInt sys').isSome ∧ k.Shared sys' then 1
          else count sys := by
        unfold KexParams.countAfter
        by_cases hcond : (CryptoSystemType.ofInt sys').isSome ∧ k.Shared sys'
        · simp only [hcond, hwill, and_self, if_true, and_true, Function.update_apply]
        · have hcond' : ¬ ((CryptoSystemType.ofInt sys').isSome ∧ k.Shared sys' ∧
              k.willNewId = true) := fun h => hcond ⟨h.1, h.2.1⟩
          rw [if_neg hcond', if_neg fun h => hcond h.2]
      rw [hafter]
      by_cases hsys : sys = sys'
      · subst hsys
        by_cases hcond : (CryptoSystemType.ofInt sys).isSome ∧ k.Shared sys <;> simp [hcond]
      · simp [hsys]
  funext sys
  rw [KexParams.countOf, hloop]
  simp only [List.mem_finRange, true_and, sharedCount, KexParams.Shared, hk, kexParams, if_true]

end Exchanged

/-! ### The identity in the packetstart -/

/-- Boxing takes the next nonce of the boxer. -/
theorem box_eq_ok {lib : CryptoLib} {stream : CStream} {cb : Boxer} (hboxer : stream.boxer = some cb)
    {N msg cipher : Bytes} (hN : lib.nonceAt cb.odd cb.count = .ok N)
    (hcipher : lib.secretbox cb.key N msg = .ok cipher) {σ : Type} (s : σ) :
    stream.box lib msg s = .ok ((cipher, N),
      { stream with boxer := some { cb with count := cb.count + 1 } }) s := by
  unfold box
  rw [hboxer]
  exact (bind_of_ok (fromExcept_eq_ok_iff.mpr ⟨hN, rfl⟩)).trans
    (bind_of_ok (fromExcept_eq_ok_iff.mpr ⟨hcipher, rfl⟩))

/-- A stream boxes an identity into a packetstart, and the stream on the other side, whose unboxer is
where that boxer is, gets it back. -/
theorem exists_generatePacketstart_eq_ok {lib : CryptoLib} (laws : BoxLaws lib)
    (stream streamToEncryptWith : CStream) {cb : Boxer} (hboxer : streamToEncryptWith.boxer = some cb)
    (hkey : cb.key.length = 32) (hcount : cb.count = 0)
    (hkexasym : stream.packetstartKexasym.length ≤ saneMaxSizeForString)
    (hIDe : stream.packetstartIDe.length + 16 ≤ saneMaxSizeForString) :
    ∃ packetstart,
      (∃ rest, packetstart = varstringOctets stream.packetstartKexasym ++ rest) ∧
      (∀ {σ : Type} (s : σ), generatePacketstart lib stream streamToEncryptWith s = .ok (packetstart,
        { streamToEncryptWith with boxer := some { cb with count := cb.count + 1 } }) s) ∧
      ∀ {σ : Type} (s : σ) {streamToDecryptWith : CStream}, streamToDecryptWith.unboxer = some cb →
        parsePacketstartIDe lib streamToDecryptWith packetstart s = .ok (stream.packetstartIDe,
          { streamToDecryptWith with unboxer := some { cb with count := cb.count + 1 } }) s := by
  obtain ⟨N, hN⟩ := laws.nonce cb.odd
  rw [← hcount] at hN
  obtain ⟨viaCT, hbox, hlen, hopen⟩ := laws.box hN hkey stream.packetstartIDe
  have hviaCT : viaCT.length ≤ saneMaxSizeForString := hlen.trans hIDe
  refine ⟨varstringOctets stream.packetstartKexasym ++ varstringOctets viaCT, ⟨_, rfl⟩, ?_, ?_⟩
  · intro σ s
    have hgenerate := (generate_eq_ok_iff_of_emits ((emits_pushVarstring
      stream.packetstartKexasym).seq (emits_pushVarstring viaCT)) (t := s)).mpr
      ⟨⟨lt_uvarintLimit_of_le_sane hkexasym, lt_uvarintLimit_of_le_sane hviaCT⟩, rfl, rfl⟩
    rw [generatePacketstart, bind_of_ok (box_eq_ok hboxer hN hbox s)]
    exact bind_of_ok hgenerate
  · intro σ s streamToDecryptWith hunboxer
    have hne : varstringOctets stream.packetstartKexasym ++ varstringOctets viaCT ++ [] ≠ [] := by
      simp [varstringOctets, uvarintOctets_ne_nil]
    have hreads : Reads (do skipVarstring; popVarstring)
        (varstringOctets stream.packetstartKexasym ++ varstringOctets viaCT) viaCT :=
      (reads_skipVarstring hkexasym).bind (reads_popVarstring hviaCT)
    have hparse := parseString_of_reads hreads hne s
    rw [List.append_nil] at hparse
    unfold parsePacketstartIDe
    rw [bind_of_ok hparse, hunboxer]
    exact (bind_of_ok (fromExcept_eq_ok_iff.mpr ⟨hN, rfl⟩)).trans
      ((bind_of_ok (fromExcept_eq_ok_iff.mpr ⟨hopen, rfl⟩)).trans rfl)

end CStream

end Galaxy42
