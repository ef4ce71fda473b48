import Galaxy42.Crypto.Multikeys

/-!
# Streams

A `c_stream` agrees on a symmetric key with the keys of two parties, and then boxes and unboxes
messages with it. `calculate_KCT` goes through the key systems; in each one that both parties have
keys of, it pairs the keys up (the shorter list wraps around), gets one secret from each pair, and
joins all of them by exclusive or. A Diffie-Hellman secret comes from the keys alone. An NTRU secret
is a random password of the initiator, sent encrypted in the packetstart.

A boxer and an unboxer have a key and a counter of nonces, and take either the even or the odd ones; which of
the two sides takes which is decided by comparing the hashes of their keys (`calculateNonceOdd`). Boxing moves
the counter of the boxer on. An unboxer that is given the nonce stays where it is, and only the one that
unboxes the identity in a packetstart moves on by itself.

The loops of `calculate_KCT` are kept as they are, with the variables that they share in one record
(`KexState`): the secret so far, the passwords to send, and the numbers of keys that the next stream is to
have. What they compute is worked out in `KexRounds`.

A stream whose exchange throws is not used any more, so the changed stream is returned only on
success. The wrappers around the optional libraries are here too, with the errors and assertions that they
have.
-/

namespace Galaxy42

open Toolkit Program TrivialSerialize

/-! ### The optional key systems -/

section KexLibraries

variable (lib : CryptoLib)

/-- `numeric_cast<uint16_t>` of a length. -/
def castUint16 (n : ℕ) : Except (Fault Exn) ℕ :=
  if n < 2 ^ 16 then .ok n else .error (.throw .badNumericCast)

/-- `ntrupp::encrypt`, at the given draw. A ciphertext that is shorter than the text aborts the process. -/
def ntruppEncrypt (draw : ℕ) (plain pubkey : Bytes) : Except (Fault Exn) Bytes := do
  let _ ← castUint16 pubkey.length
  let _ ← castUint16 plain.length
  let cipher := (lib.ntruEncrypt draw plain pubkey).val
  if cipher.length ≠ 0 ∨ plain.length = 0 then
    if cipher.length ≥ plain.length then .ok cipher else .error .abort
  else .error .abort

/-- `ntrupp::decrypt`. When nothing comes out of a ciphertext that is not empty, the process is aborted. -/
def ntruppDecrypt (cyphertext PRVkey : Bytes) : Except (Fault Exn) Bytes := do
  let _ ← castUint16 PRVkey.length
  let _ ← castUint16 cyphertext.length
  let plain := (lib.ntruDecrypt cyphertext PRVkey).val
  if plain.length ≠ 0 ∨ cyphertext.length = 0 then .ok plain else .error .abort

/-- An exception of the library. -/
def liftLib {τ : Type} (r : Except Exn τ) : Except (Fault Exn) τ :=
  match r with
  | .ok a => .ok a
  | .error e => .error (.throw e)

/-- The half of a SIDH key that belongs to side A. -/
def firstHalf (key : Bytes) : Bytes := key.take (key.length / 2)

/-- The half of a SIDH key that belongs to side B. -/
def secondHalf (key : Bytes) : Bytes := key.drop (key.length / 2)

/-- `sidhpp::secret_agreement`. The two halves of a key belong to the two sides of SIDH. Lengths that do not
match throw or abort, as the checks come. -/
def sidhSecretAgreement (keySelfPRV keySelfPub themPublicKey : Bytes) :
    Except (Fault Exn) Bytes := do
  let themPublicKeyA := themPublicKey.take (themPublicKey.length / 2)
  if themPublicKey.length < keySelfPub.length / 2 then .error (.throw .outOfRange)
  let themPublicKeyB := themPublicKey.drop (keySelfPub.length / 2)
  if keySelfPub.length ≠ themPublicKey.length then .error .abort
  if themPublicKey ≠ themPublicKeyA ++ themPublicKeyB then .error .abort
  let half := keySelfPRV.length / 2
  if keySelfPRV.length ≠ half + half then .error .abort
  let keySelfPRVA := keySelfPRV.take half
  let keySelfPRVB := keySelfPRV.drop half
  let sharedSecretA ← liftLib (lib.secretAgreementA keySelfPRVA themPublicKeyB)
  let sharedSecretB ← liftLib (lib.secretAgreementB keySelfPRVB themPublicKeyA)
  .ok (sharedSecretA + sharedSecretB).octets

/-- What `ntrupp::encrypt` returns, when it returns. -/
theorem ntruppEncrypt_eq_ok_iff {lib : CryptoLib} {draw : ℕ} {plain pubkey cipher : Bytes} :
    ntruppEncrypt lib draw plain pubkey = .ok cipher ↔
      pubkey.length < 2 ^ 16 ∧ plain.length < 2 ^ 16 ∧
        cipher = (lib.ntruEncrypt draw plain pubkey).val ∧ plain.length ≤ cipher.length := by
  unfold ntruppEncrypt castUint16
  by_cases hpub : pubkey.length < 2 ^ 16
  · by_cases hplain : plain.length < 2 ^ 16
    · simp only [hpub, hplain, if_true, true_and, bind, Except.bind]
      split
      · split
        next hge =>
          rw [Except.ok.injEq, eq_comm]
          exact ⟨fun h => ⟨h, h ▸ hge⟩, And.left⟩
        next hge =>
          simp only [reduceCtorEq, false_iff, not_and]
          rintro rfl
          exact hge
      next h =>
        -- an empty output is too short for a plaintext that is not empty
        simp only [reduceCtorEq, false_iff, not_and]
        rintro rfl hle
        omega
    · simp only [hpub, hplain, if_true, if_false, bind, Except.bind, reduceCtorEq, false_and,
        and_false]
  · simp only [hpub, if_false, bind, Except.bind, reduceCtorEq, false_and]

/-- What `ntrupp::decrypt` returns, when it returns. -/
theorem ntruppDecrypt_eq_ok_iff {lib : CryptoLib} {cyphertext PRVkey plain : Bytes} :
    ntruppDecrypt lib cyphertext PRVkey = .ok plain ↔
      PRVkey.length < 2 ^ 16 ∧ cyphertext.length < 2 ^ 16 ∧
        plain = (lib.ntruDecrypt cyphertext PRVkey).val ∧ (plain ≠ [] ∨ cyphertext = []) := by
  unfold ntruppDecrypt castUint16
  by_cases hPRV : PRVkey.length < 2 ^ 16
  · by_cases hcipher : cyphertext.length < 2 ^ 16
    · simp only [hPRV, hcipher, if_true, true_and, bind, Except.bind, ne_eq,
        List.length_eq_zero_iff]
      split
      next h =>
        rw [Except.ok.injEq, eq_comm]
        exact ⟨fun hp => ⟨hp, hp ▸ h⟩, And.left⟩
      next h =>
        simp only [reduceCtorEq, false_iff, not_and]
        rintro rfl
        exact h
    · simp only [hPRV, hcipher, if_true, if_false, bind, Except.bind, reduceCtorEq, false_and,
        and_false]
  · simp only [hPRV, if_false, bind, Except.bind, reduceCtorEq, false_and]

/-- `sidhpp::secret_agreement` joins the secrets of the two sides of SIDH. -/
theorem sidhSecretAgreement_eq_ok_iff {lib : CryptoLib}
    {keySelfPRV keySelfPub themPublicKey secret : Bytes} :
    sidhSecretAgreement lib keySelfPRV keySelfPub themPublicKey = .ok secret ↔
      keySelfPub.length = themPublicKey.length ∧ keySelfPRV.length % 2 = 0 ∧
      ∃ a b, lib.secretAgreementA (firstHalf keySelfPRV) (secondHalf themPublicKey) = .ok a ∧
        lib.secretAgreementB (secondHalf keySelfPRV) (firstHalf themPublicKey) = .ok b ∧
        secret = (a + b).octets := by
  unfold sidhSecretAgreement firstHalf secondHalf
  by_cases hlen : keySelfPub.length = themPublicKey.length
  · have hhalf : ¬ themPublicKey.length < themPublicKey.length / 2 := by omega
    by_cases heven : keySelfPRV.length % 2 = 0
    · have hPRV : keySelfPRV.length = keySelfPRV.length / 2 + keySelfPRV.length / 2 := by omega
      simp only [hlen, hhalf, ← hPRV, heven, List.take_append_drop, ne_eq, not_true_eq_false,
        if_false, true_and, bind, Except.bind]
      cases lib.secretAgreementA (keySelfPRV.take (keySelfPRV.length / 2))
          (themPublicKey.drop (themPublicKey.length / 2)) with
      | error e => simp [liftLib]
      | ok a =>
        cases lib.secretAgreementB (keySelfPRV.drop (keySelfPRV.length / 2))
            (themPublicKey.take (themPublicKey.length / 2)) with
        | error e => simp [liftLib]
        | ok b => simp [liftLib, eq_comm]
    · have hPRV : keySelfPRV.length ≠ keySelfPRV.length / 2 + keySelfPRV.length / 2 := by omega
      simp [hlen, hhalf, hPRV, heven, bind, Except.bind]
  · by_cases hhalf : themPublicKey.length < keySelfPub.length / 2
    · simp [hlen, hhalf, bind, Except.bind]
    · simp [hlen, hhalf, bind, Except.bind]

end KexLibraries

/-! ### The state of a stream -/

/-- A `sodiumpp::boxer` or `unboxer` for a shared key. Each party is to take one of the two sequences of
nonces. -/
structure Boxer where
  /-- Which of the two sequences of nonces it takes. -/
  odd : Bool
  /-- The shared key. -/
  key : Bytes
  /-- How many nonces it has used. -/
  count : ℕ
  deriving DecidableEq, Repr

/-- `c_stream` -/
structure CStream where
  /-- `m_side_initiator` -/
  sideInitiator : Bool
  /-- `m_KCT` -/
  KCT : Bytes
  /-- `m_nonce_odd` -/
  nonceOdd : Bool
  /-- `m_packetstart_kexasym` -/
  packetstartKexasym : Bytes
  /-- `m_packetstart_IDe` -/
  packetstartIDe : Bytes
  /-- `m_cryptolists_count` -/
  cryptolistsCount : CryptoSystemCount
  /-- `m_boxer` -/
  boxer : Option Boxer
  /-- `m_unboxer` -/
  unboxer : Option Boxer

/-- The encrypted passwords, grouped by the letter of their key system. -/
abbrev Kexasym := Std.ExtTreeMap Int8 (List Bytes)

namespace CStream

variable {σ : Type}

/-- The constructor of `c_stream`. -/
def new (sideInitiator : Bool) : CStream where
  sideInitiator
  KCT := List.replicate hash1Size 0
  nonceOdd := false
  packetstartKexasym := []
  packetstartIDe := []
  cryptolistsCount _ := 0
  boxer := none
  unboxer := none

/-! ### Boxing -/

/-- `c_stream::box`, with the nonce that was used. -/
def box (lib : CryptoLib) (stream : CStream) (msg : Bytes) :
    Program Exn σ ((Bytes × Bytes) × CStream) :=
  match stream.boxer with
  | none => abort
  | some cb => do
    let N ← fromExcept (lib.nonceAt cb.odd cb.count)
    let ret ← fromExcept (lib.secretbox cb.key N msg)
    return ((ret, N), { stream with boxer := some { cb with count := cb.count + 1 } })

/-- `c_stream::unbox(msg, nonce)` -/
def unboxNonce (lib : CryptoLib) (stream : CStream) (msg nonce : Bytes) : Program Exn σ Bytes :=
  match stream.unboxer with
  | none => abort
  | some cb => fromExcept (lib.secretboxOpen cb.key nonce msg)

/-- `c_stream::unbox(msg)`, with the nonce the unboxer has come to. The unboxer is handed that nonce,
so it does not move on. -/
def unbox (lib : CryptoLib) (stream : CStream) (msg : Bytes) : Program Exn σ Bytes :=
  match stream.unboxer with
  | none => abort
  | some cb => do
    let N ← fromExcept (lib.nonceAt cb.odd cb.count)
    fromExcept (lib.secretboxOpen cb.key N msg)

/-! ### Packetstarts -/

/-- `generate_packetstart`. The stream that encrypts it has used a nonce then. -/
def generatePacketstart (lib : CryptoLib) (stream streamToEncryptWith : CStream) :
    Program Exn σ (Bytes × CStream) := do
  let ((packetstartIDeViaCT, _), streamToEncryptWith) ←
    streamToEncryptWith.box lib stream.packetstartIDe
  let str ← generate do
    pushVarstring stream.packetstartKexasym
    pushVarstring packetstartIDeViaCT
  return (str, streamToEncryptWith)

/-- `parse_packetstart_kexasym` -/
def parsePacketstartKexasym (data : Bytes) : Program Exn σ Bytes :=
  parseString data popVarstring

/-- `parse_packetstart_IDe`. The unboxer uses its own nonce, and moves on. -/
def parsePacketstartIDe (lib : CryptoLib) (stream : CStream) (data : Bytes) :
    Program Exn σ (Bytes × CStream) := do
  let dataEncr ← parseString data do
    skipVarstring
    popVarstring
  match stream.unboxer with
  | none => abort
  | some cb =>
    let N ← fromExcept (lib.nonceAt cb.odd cb.count)
    let dataDecr ← fromExcept (lib.secretboxOpen cb.key N dataEncr)
    return (dataDecr, { stream with unboxer := some { cb with count := cb.count + 1 } })

/-! ### The key exchange -/

/-- A secret is hashed, joined with the hashes of the two public keys, and hashed again. -/
def kDhAgreed (lib : CryptoLib) (secret keyAPub keyBPub : Bytes) : Program Exn σ Bytes := do
  let x ← binaryStringXor (lib.hash1PRV secret) (lib.hash1 keyAPub)
  let y ← binaryStringXor x (lib.hash1 keyBPub)
  return lib.hash1PRV y

/-- The variables of the loops of `calculate_KCT`. -/
structure KexState where
  /-- `KCT_accum` -/
  accum : Bytes
  /-- `kexasym_passencr_tosend` -/
  tosend : Kexasym
  /-- `m_cryptolists_count` -/
  count : CryptoSystemCount

/-- Append an encrypted password to the list of its key system, `tosend[sys_id].push_back(...)`. -/
def pushPassword (tosend : Kexasym) (sysId : Int8) (passwordEncrypted : Bytes) : Kexasym :=
  tosend.insert sysId (tosend.getD sysId [] ++ [passwordEncrypted])

/-- The key systems with an exchange in this build. -/
def kexEnabled (lib : CryptoLib) : CryptoSystemType → Bool
  | .x25519 => true
  | .ntruEES439EP1 => lib.enableNTRU
  | .sidh => lib.enableSIDH
  | _ => false

/-- What `calculate_KCT` works on. -/
structure KexParams where
  /-- The libraries. -/
  lib : CryptoLib
  /-- `m_side_initiator` -/
  sideInitiator : Bool
  /-- Our keys. -/
  self : MultikeysPAIR
  /-- Their public keys. -/
  them : MultikeysPub
  /-- Whether the keys for a next stream are to be counted. -/
  willNewId : Bool
  /-- `kexasym_passencr_received` -/
  received : Kexasym

/-- The secret of one pair of keys, and the passwords to send after it. What is done with a pair depends on
the system; a system that only signs has no secret. -/
def kexSecret (k : KexParams) (sysEnum : CryptoSystemType) (sysId : Int8)
    (keyAPub keyAPRV keyBPub : Bytes) (passNr : ℕ) (tosend : Kexasym) :
    Crypto (Bytes × Kexasym) :=
  match sysEnum with
  | .x25519 => do
    let kDhRaw ← fromExcept (k.lib.keyAgreement keyAPRV keyBPub)
    return (kDhRaw, tosend)
  | .ntruEES439EP1 =>
    if k.sideInitiator then do
      let draw ← nextDraw
      let passwordCleartext := (k.lib.randomBytes draw 65).octets
      let draw ← nextDraw
      let passwordEncrypted ← fromOutcome (ntruppEncrypt k.lib draw passwordCleartext keyBPub)
      return (passwordCleartext, pushPassword tosend sysId passwordEncrypted)
    else
      match k.received[sysId]? with
      | none => raise .outOfRange
      | some passwords => do
        let encrypted ← vectorAt passwords passNr
        let decrypted ← fromOutcome (ntruppDecrypt k.lib encrypted keyAPRV)
        return (decrypted, tosend)
  | .sidh => do
    let dhSecret ← fromOutcome (sidhSecretAgreement k.lib keyAPRV keyAPub keyBPub)
    return (dhSecret, tosend)
  | _ => return ([], tosend)

/-- One round of the loop over the pairs of keys of a system: the lists wrap around. So a side with fewer keys
uses them again. -/
def kexRound (k : KexParams) (sys : SystemNr) (sysEnum : CryptoSystemType) (sysId : Int8)
    (st : KexState) (keynrI : ℕ) : Crypto KexState := do
  let keynrA := keynrI % k.self.pub.getCountKeysInSystem sys
  let keynrB := keynrI % k.them.getCountKeysInSystem sys
  let keyAPub ← k.self.pub.getKey sys keynrA
  let keyAPRV ← k.self.PRV.getKey sys keynrA
  let keyBPub ← k.them.getKey sys keynrB
  let (secret, tosend) ← kexSecret k sysEnum sysId keyAPub keyAPRV keyBPub keynrI st.tosend
  let agreed ← kDhAgreed k.lib secret keyAPub keyBPub
  let accum ← binaryStringXor st.accum agreed
  return { st with accum, tosend }

/-- One round of the loop over the key systems. -/
def kexSystem (k : KexParams) (st : KexState) (sys : SystemNr) : Crypto KexState :=
  match CryptoSystemType.ofInt sys with
  | none => pure st
  | some sysEnum => do
    let keyCountA := k.self.pub.getCountKeysInSystem sys
    let keyCountB := k.them.getCountKeysInSystem sys
    let keyCountBigger := max keyCountA keyCountB
    if keyCountBigger < 1 then
      return st
    if ¬ (keyCountA > 0 ∧ keyCountB > 0) then
      return st
    let sysId ← fromExcept (CryptoSystemType.toID sysEnum.value)
    let st := if k.willNewId then { st with count := Function.update st.count sys 1 } else st
    if kexEnabled k.lib sysEnum then
      (List.range keyCountBigger).foldlM (kexRound k sys sysEnum sysId) st
    else
      -- only a warning that the system is not supported
      return st

/-- `kexasym_passencr_received`: the initiator has none, the respondent reads them from the
packetstart. -/
def readKexasym (sideInitiator : Bool) (packetstart : Bytes) : Program Exn σ Kexasym :=
  if sideInitiator then do
    checkThat (packetstart = []) (.invalidArgument
      "Invalid use of CT: initiator mode, but not-empty packetstarter")
    return ∅
  else do
    checkThat (packetstart ≠ []) (.invalidArgument
      "Invalid use of CT: not-initiator mode, but empty packetstarter")
    let packetstartKexasym ← parsePacketstartKexasym packetstart
    parseString packetstartKexasym popMapObject

/-- `c_stream::calculate_KCT`. The secrets of all rounds are hashed with their public keys and put together by
exclusive or, and the key is the beginning of the hash of that. -/
def calculateKCT (lib : CryptoLib) (stream : CStream) (self : MultikeysPAIR) (them : MultikeysPub)
    (willNewId : Bool) (packetstart : Bytes) : Crypto (Bytes × CStream) := do
  assertThat (self.PRV.getCountOfSystems = them.getCountOfSystems)
  assertThat (self.PRV.getCountOfSystems = self.pub.getCountOfSystems)
  let received ← readKexasym stream.sideInitiator packetstart
  let k : KexParams :=
    { lib, sideInitiator := stream.sideInitiator, self, them, willNewId, received }
  let count : CryptoSystemCount := if willNewId then fun _ => 0 else stream.cryptolistsCount
  let st ← (List.finRange systemCount).foldlM (kexSystem k)
    { accum := List.replicate hash1Size 0, tosend := ∅, count }
  let kctReadyFull := lib.hash1PRV st.accum
  assertThat (kctReadyFull.length ≥ 32)
  let kctReady ← substr kctReadyFull 32
  let packetstartKexasym ← generate (pushMapObject st.tosend)
  return (kctReady, { stream with cryptolistsCount := st.count, packetstartKexasym })

/-- `calculate_nonce_odd` -/
def calculateNonceOdd (lib : CryptoLib) (self : MultikeysPAIR) (them : MultikeysPub) :
    Program Exn σ Bool :=
  self.pub.greater lib them.toMultiCryptoStrings

/-- `create_boxer_with_K` -/
def createBoxerWithK (stream : CStream) : CStream :=
  { stream with
    boxer := some { odd := stream.nonceOdd, key := stream.KCT, count := 0 }
    unboxer := some { odd := !stream.nonceOdd, key := stream.KCT, count := 0 } }

/-- `exchange_start` -/
def exchangeStart (lib : CryptoLib) (stream : CStream) (IDself : MultikeysPAIR)
    (IDthem : MultikeysPub) (willNewId : Bool) : Crypto CStream := do
  let (KCT, stream) ← calculateKCT lib stream IDself IDthem willNewId []
  let nonceOdd ← calculateNonceOdd lib IDself IDthem
  return createBoxerWithK { stream with KCT, nonceOdd }

/-- `exchange_done` -/
def exchangeDone (lib : CryptoLib) (stream : CStream) (IDself : MultikeysPAIR)
    (IDthem : MultikeysPub) (packetstart : Bytes) : Crypto CStream := do
  let (KCT, stream) ← calculateKCT lib stream IDself IDthem true packetstart
  let nonceOdd ← calculateNonceOdd lib IDself IDthem
  return createBoxerWithK { stream with KCT, nonceOdd }

/-- `create_IDe`: a new ephemeral identity, with as many keys as were counted in the exchange. -/
def createIDe (lib : CryptoLib) (stream : CStream) (willAsymkex : Bool) :
    Crypto (MultikeysPAIR × CStream) := do
  let IDe ← MultikeysPAIR.generate lib MultikeysPAIR.new stream.cryptolistsCount willAsymkex
  let packetstartIDe ← IDe.pub.serializeBin
  return (IDe, { stream with packetstartIDe })

/-- `set_packetstart_IDe_from` -/
def setPacketstartIDeFrom (stream : CStream) (keypair : MultikeysPAIR) : Program Exn σ CStream := do
  let packetstartIDe ← keypair.pub.serializeBin
  return { stream with packetstartIDe }

end CStream

end Galaxy42
