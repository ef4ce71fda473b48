import Galaxy42.Crypto.Multikeys

/-!
# Signatures with many keys

A message is signed with each private key of the signing systems, and the signatures are collected by
system in a `c_multisign`. `multi_sign_verify` goes through all systems, compares how many signatures
and public keys there are in each, and then verifies those of the signing systems one by one.

The counts are compared in every system, also in those without signatures, and no key is required to
be there. So a set without signing keys passes unless the counts differ
(`multiSignVerify_sound_iff`), and a set with other keys beside the signing ones does not pass with its
own signatures (`multiSignVerify_multiSign_iff`).

What verifying accepts is described without its loops: `Verified` is what the primitive of a signing system
says of one key and one signature, `VerifiedAt` is this at one place of the two lists, and
`multiSignVerify_eq_ok_iff` puts the systems together. What signing produces is described in the same terms
(`SystemSigned`), so that the round trip is a comparison of two conditions on lists.

What is asked of the primitives is asked for one message and the keys of one pair (`SignLaws`): that what was
signed with a private key is verified with the public one at its place. Nothing is assumed of keys that do not
belong together, nor of forged signatures: that an accepted message was signed is said of the primitives, by
which key has verified which signature.
-/

namespace Galaxy42

open Toolkit Program TrivialSerialize

/-- `c_multisign` -/
structure Multisign extends MultiCryptoStrings

namespace Multisign

variable {σ : Type}

/-- A new object without signatures. -/
def new : Multisign :=
  { MultiCryptoStrings.new .signature with }

/-- `add_signature` -/
def addSignature (m : Multisign) (cryptoType : SystemNr) (signature : Bytes) : Multisign :=
  { toMultiCryptoStrings := m.addKey cryptoType signature }

/-- `add_signature_vec` -/
def addSignatureVec (m : Multisign) (signaturesVec : List Bytes) (cryptoType : SystemNr) : Multisign :=
  signaturesVec.foldl (fun m signature => m.addSignature cryptoType signature) m

/-- `get_signature` -/
def getSignature (m : Multisign) (cryptoType : SystemNr) (numberOfKey : ℕ) : Program Exn σ Bytes :=
  m.getKey cryptoType numberOfKey

/-- `get_signature_vec` -/
def getSignatureVec (m : Multisign) (cryptoType : SystemNr) : Program Exn σ (List Bytes) :=
  (List.range (m.getCountKeysInSystem cryptoType)).mapM (m.getSignature cryptoType)

/-- `cryptosystem_sign_allowed` -/
def cryptosystemSignAllowed : CryptoSystemType → Bool
  | .ed25519 => true
  | .ntruSign => true
  | _ => false

/-- `serialize_bin` -/
def serializeBin (m : Multisign) : Program Exn σ Bytes := do
  let ed ← m.getSignatureVec CryptoSystemType.ed25519.nr
  let ntru ← m.getSignatureVec CryptoSystemType.ntruSign.nr
  generate do
    pushByteU (UInt8.ofNat CryptoSystemType.ed25519.value)
    pushVectorString ed
    pushByteU (UInt8.ofNat CryptoSystemType.ntruSign.value)
    pushVectorString ntru

/-- The part of `load_from_bin` for one system: its number, and its signatures. -/
def loadSignatures (type : CryptoSystemType) : Program Exn (Cursor UInt8 × Multisign) Unit := do
  let readType ← onFst popByteU
  assertThat (readType.toNat = type.value)
  let keys ← onFst popVectorString
  onSnd (modify fun m => m.addSignatureVec keys type.nr)

/-- `load_from_bin` -/
def loadFromBin (data : Bytes) : Program Exn Multisign Unit := do
  let parser ← parserOfString data
  withLocal parser do
    loadSignatures .ed25519
    loadSignatures .ntruSign

/-- `load_from_bin` on a new object. -/
def ofBin (data : Bytes) : Program Exn σ Multisign := do
  let (_, m) ← withinState new (loadFromBin data)
  return m

/-! ### Signing -/

/-- `ntrupp::sign` -/
def ntruppSign (lib : CryptoLib) (msg privateKey : Bytes) : Crypto Bytes := do
  checkThat (lib.nttSetup ≠ -1) (.runtimeError "ERROR: Could not initialize FFTW. Bad wisdom?")
  let draw ← nextDraw
  let (z, hash) := lib.passSign draw privateKey msg
  return z.octets ++ hash.octets

/-- `multi_sign(msg, sign_type)`. The message is signed with each private key of the system, in their order. -/
def multiSignType (lib : CryptoLib) (PRV : MultikeysPRV) (msg : Bytes) (signType : CryptoSystemType) :
    Crypto (List Bytes) := do
  let keysCount := PRV.getCountKeysInSystem signType.nr
  assertThat (keysCount > 0)
  match signType with
  | .ed25519 => (List.range keysCount).mapM fun i => do
      let PRVKey ← PRV.getKey signType.nr i
      fromExcept (lib.signDetached msg PRVKey)
  | .ntruSign =>
    if lib.enableNTRU then
      (List.range keysCount).mapM fun i => do
        let PRVKey ← PRV.getKey signType.nr i
        ntruppSign lib msg PRVKey
    else raise (.invalidArgumentInVersion "NTru signature (signing) not enabled")
  | _ => raise (.runtimeError "sign type not supported")

/-- One round of the loop of `multi_sign` over the key systems. -/
def signSystem (lib : CryptoLib) (PRV : MultikeysPRV) (msg : Bytes) (multiSignature : Multisign)
    (sys : SystemNr) : Crypto Multisign :=
  match CryptoSystemType.ofInt sys with
  | none => pure multiSignature
  | some sysEnum =>
    if ¬ cryptosystemSignAllowed sysEnum ∨ PRV.getCountKeysInSystem sysEnum.nr = 0 then
      pure multiSignature
    else do
      let signatures ← multiSignType lib PRV msg sysEnum
      return multiSignature.addSignatureVec signatures sysEnum.nr

/-- `multi_sign(msg)` -/
def multiSign (lib : CryptoLib) (PRV : MultikeysPRV) (msg : Bytes) : Crypto Multisign :=
  (List.finRange systemCount).foldlM (signSystem lib PRV msg) new

/-! ### Verifying -/

/-- `ntrupp::verify`. The signature is the polynomial, and the hash behind it. -/
def ntruppVerify (lib : CryptoLib) (sign msg publicKey : Bytes) : Program Exn σ Bool := do
  checkThat (lib.nttSetup ≠ -1) (.runtimeError "ERROR: Could not initialize FFTW. Bad wisdom?")
  let publicKeyVectorData ← parseString publicKey popVectorString
  let publicKeyData ← vectorAt publicKeyVectorData 1
  let messageHash ← stringSubstr sign passSize
  return lib.passVerify messageHash (sign.take passSize) publicKeyData msg

/-- Verifying one signature with Ed25519. A failure is rethrown as an invalid argument. -/
def verifyEd25519 (lib : CryptoLib) (signs : List Bytes) (msg pubkey : Bytes) (i : ℕ) :
    Program Exn σ Unit :=
  catching (do
    let sign ← vectorAt signs i
    fromExcept (lib.signVerifyDetached sign msg pubkey))
    fun
    | .cryptoError msg => some (raise (.invalidArgument msg))
    | _ => none

/-- `multi_sign_verify(signs, msg, pubkeys, sign_type)`. The first signature that does not verify ends it. -/
def multiSignVerifyType (lib : CryptoLib) (signs : List Bytes) (msg : Bytes) (pubkeys : MultikeysPub)
    (signType : CryptoSystemType) : Program Exn σ Unit := do
  let amountOfPubkeys := pubkeys.getCountKeysInSystem signType.nr
  assertThat (amountOfPubkeys = signs.length)
  if amountOfPubkeys = 0 then
    return
  match signType with
  | .ed25519 => (List.range amountOfPubkeys).forM fun i => do
      let pubkey ← pubkeys.getKey signType.nr i
      verifyEd25519 lib signs msg pubkey i
  | .ntruSign =>
    if lib.enableNTRU then
      (List.range amountOfPubkeys).forM fun i => do
        let pubkey ← pubkeys.getKey signType.nr i
        let sign ← vectorAt signs i
        let valid ← ntruppVerify lib sign msg pubkey
        checkThat (valid = true) (.invalidArgument "Ntru sign verify: fail")
    else raise (.invalidArgumentInVersion "NTru signature (verify) not enabled")
  | _ => raise (.invalidArgument "sign type not supported")

/-- One round of the loop of `multi_sign_verify` over the key systems. -/
def verifySystem (lib : CryptoLib) (allSignatures : Multisign) (msg : Bytes) (pubkeys : MultikeysPub)
    (sys : SystemNr) : Program Exn σ Unit :=
  match CryptoSystemType.ofInt sys with
  | none => pure ()
  | some sysEnum => do
    checkThat (allSignatures.getCountKeysInSystem sysEnum.nr =
        pubkeys.getCountKeysInSystem sysEnum.nr)
      (.invalidArgument ("count of keys system [" ++ sysEnum.toName ++
        "] in c_multikeypub and c_multisign different!"))
    if cryptosystemSignAllowed sysEnum then
      let signs ← allSignatures.getSignatureVec sysEnum.nr
      multiSignVerifyType lib signs msg pubkeys sysEnum

/-- `multi_sign_verify(all_signatures, msg, pubkeys)` -/
def multiSignVerify (lib : CryptoLib) (allSignatures : Multisign) (msg : Bytes)
    (pubkeys : MultikeysPub) : Program Exn σ Unit := do
  checkThat (allSignatures.getCountOfSystems = pubkeys.getCountOfSystems)
    (.invalidArgument "count of systems in c_multikeypub and c_multisign different!")
  (List.finRange systemCount).forM (verifySystem lib allSignatures msg pubkeys)

/-! ### What verifying checks -/

/-- All signatures of a system are read. -/
theorem getSignatureVec_eq (m : Multisign) (cryptoType : SystemNr) :
    (m.getSignatureVec cryptoType : Program Exn σ (List Bytes)) =
      pure (m.cryptolistsGeneral cryptoType) := by
  have hread : ∀ is : List ℕ, (∀ i ∈ is, i < m.getCountKeysInSystem cryptoType) →
      (is.mapM (m.getSignature cryptoType) : Program Exn σ (List Bytes)) =
        pure (is.map fun i => (m.cryptolistsGeneral cryptoType).getD i []) := by
    intro is
    induction is with
    | nil => exact fun _ => rfl
    | cons i is ih =>
      intro h
      have hi : (m.getSignature cryptoType i : Program Exn σ Bytes) =
          pure ((m.cryptolistsGeneral cryptoType).getD i []) :=
        funext fun s => MultiCryptoStrings.getKey_eq_ok (h i List.mem_cons_self) s
      rw [List.mapM_cons, hi, pure_bind, ih fun j hj => h j (List.mem_cons_of_mem _ hj), pure_bind,
        List.map_cons]
  rw [getSignatureVec, hread _ fun i hi => List.mem_range.mp hi]
  congr 1
  refine List.ext_getElem (by simp [MultiCryptoStrings.getCountKeysInSystem]) fun i hi hi' => ?_
  rw [List.getElem_map, List.getElem_range, List.getD_eq_getElem?_getD,
    List.getElem?_eq_getElem hi', Option.getD_some]

/-- Verifying with NTRU: the library can be set up, the public key is a vector with the key at its
second place, and the signature is long enough and verified. -/
theorem ntruppVerify_eq_ok_iff {lib : CryptoLib} {sign msg publicKey : Bytes} {valid : Bool}
    {s s' : σ} :
    ntruppVerify lib sign msg publicKey s = .ok valid s' ↔
      (lib.nttSetup ≠ -1 ∧ passSize ≤ sign.length ∧ ∃ data c publicKeyData,
        publicKey ≠ [] ∧ popVectorString (Cursor.start publicKey) = .ok data c ∧
        data[1]? = some publicKeyData ∧
        valid = lib.passVerify (sign.drop passSize) (sign.take passSize) publicKeyData msg) ∧
      s = s' := by
  simp only [ntruppVerify, bind_eq_ok_iff, checkThat_eq_ok_iff, parseString_eq_ok_iff,
    vectorAt_eq_ok_iff, stringSubstr, pure_apply, EStateM.Result.ok.injEq]
  constructor
  · rintro ⟨_, _, ⟨hsetup, rfl⟩, data, _, ⟨hne, ⟨c, hpop⟩, rfl⟩, publicKeyData, _, ⟨hdata, rfl⟩, _,
      _, ⟨_, _, ⟨hlen, rfl⟩, rfl, rfl⟩, rfl, rfl⟩
    exact ⟨⟨hsetup, hlen, data, c, publicKeyData, hne, hpop, hdata, rfl⟩, rfl⟩
  · rintro ⟨⟨hsetup, hlen, data, c, publicKeyData, hne, hpop, hdata, rfl⟩, rfl⟩
    exact ⟨(), s, ⟨hsetup, rfl⟩, data, s, ⟨hne, ⟨c, hpop⟩, rfl⟩, publicKeyData, s, ⟨hdata, rfl⟩, _,
      s, ⟨(), s, ⟨hlen, rfl⟩, rfl, rfl⟩, rfl, rfl⟩

/-- The primitive of a signing system verifies the signature of a message. -/
def Verified (lib : CryptoLib) (signType : CryptoSystemType) (sign msg pubkey : Bytes) : Prop :=
  match signType with
  | .ed25519 => lib.signVerifyDetached sign msg pubkey = .ok ()
  | .ntruSign => lib.enableNTRU = true ∧ ntruppVerify lib sign msg pubkey () = .ok true ()
  | _ => False

private theorem verifyEd25519_eq_ok_iff {lib : CryptoLib} {signs : List Bytes} {msg pubkey : Bytes} {i : ℕ}
    {s s' : σ} {u : Unit} :
    verifyEd25519 lib signs msg pubkey i s = .ok u s' ↔
      (∃ sign, signs[i]? = some sign ∧ Verified lib .ed25519 sign msg pubkey) ∧ s = s' := by
  simp only [verifyEd25519, catching_eq_ok_iff, bind_eq_ok_iff, vectorAt_eq_ok_iff,
    fromExcept_eq_ok_iff]
  constructor
  · rintro (⟨sign, _, ⟨hsign, rfl⟩, hverify, rfl⟩ | ⟨e, s₁, h, -, hhandle, hok⟩)
    · exact ⟨⟨sign, hsign, hverify⟩, rfl⟩
    · -- the handler only throws
      split at hhandle
      · obtain rfl := Option.some.inj hhandle
        cases hok
      · cases hhandle
  · rintro ⟨⟨sign, hsign, hverify⟩, rfl⟩
    exact .inl ⟨sign, s, ⟨hsign, rfl⟩, hverify, rfl⟩

/-- The key at a place verifies the signature at that place. -/
def VerifiedAt (lib : CryptoLib) (signs : List Bytes) (msg : Bytes) (pubkeys : List Bytes)
    (signType : CryptoSystemType) (i : ℕ) : Prop :=
  ∃ pubkey sign, pubkeys[i]? = some pubkey ∧ signs[i]? = some sign ∧
    Verified lib signType sign msg pubkey

/-- Each place is verified exactly when the lists are verified element by element. -/
theorem forall_verifiedAt_iff {lib : CryptoLib} {signs : List Bytes} {msg : Bytes}
    {pubkeys : List Bytes} {signType : CryptoSystemType} (hlen : pubkeys.length = signs.length) :
    (∀ i ∈ List.range pubkeys.length, VerifiedAt lib signs msg pubkeys signType i) ↔
      List.Forall₂ (fun sign pubkey => Verified lib signType sign msg pubkey) signs pubkeys := by
  rw [List.forall₂_iff_get, and_iff_right hlen.symm]
  constructor
  · intro h i hi hi'
    obtain ⟨pubkey, sign, hpubkey, hsign, hverified⟩ := h i (List.mem_range.mpr hi')
    rw [List.getElem?_eq_getElem hi'] at hpubkey
    rw [List.getElem?_eq_getElem hi] at hsign
    rw [List.get_eq_getElem, List.get_eq_getElem, Option.some.inj hsign, Option.some.inj hpubkey]
    exact hverified
  · intro h i hi
    have hi' := List.mem_range.mp hi
    exact ⟨_, _, List.getElem?_eq_getElem hi', List.getElem?_eq_getElem (hlen ▸ hi'),
      h i (hlen ▸ hi') hi'⟩

/-- One round of the loop over the signatures of NTRU. -/
theorem verifyNtruAt_eq_ok_iff {lib : CryptoLib} (hen : lib.enableNTRU = true) {signs : List Bytes}
    {msg : Bytes} {pubkeys : MultikeysPub} {i : ℕ} {s s' : σ} {u : Unit} :
    (do let pubkey ← pubkeys.getKey CryptoSystemType.ntruSign.nr i
        let sign ← vectorAt signs i
        let valid ← ntruppVerify lib sign msg pubkey
        checkThat (valid = true) (.invalidArgument "Ntru sign verify: fail") :
      Program Exn σ Unit) s = .ok u s' ↔
    VerifiedAt lib signs msg (pubkeys.cryptolistsGeneral CryptoSystemType.ntruSign.nr) .ntruSign i ∧
      s = s' := by
  simp only [bind_eq_ok_iff, MultiCryptoStrings.getKey, vectorAt_eq_ok_iff,
    ntruppVerify_eq_ok_iff, checkThat_eq_ok_iff, VerifiedAt, Verified]
  constructor
  · rintro ⟨pubkey, _, ⟨hpubkey, rfl⟩, sign, _, ⟨hsign, rfl⟩, valid, _, ⟨hverified, rfl⟩, rfl, rfl⟩
    exact ⟨⟨pubkey, sign, hpubkey, hsign, hen, hverified, trivial⟩, rfl⟩
  · rintro ⟨⟨pubkey, sign, hpubkey, hsign, -, hverified, -⟩, rfl⟩
    exact ⟨pubkey, s, ⟨hpubkey, rfl⟩, sign, s, ⟨hsign, rfl⟩, true, s, ⟨hverified, rfl⟩, rfl, rfl⟩

/-- Verifying the signatures of a signing system: as many as there are public keys, and each of them
verified with the key at its place. -/
theorem multiSignVerifyType_eq_ok_iff {lib : CryptoLib} {signs : List Bytes} {msg : Bytes}
    {pubkeys : MultikeysPub} {signType : CryptoSystemType}
    (hallowed : cryptosystemSignAllowed signType = true) {s s' : σ} {u : Unit} :
    multiSignVerifyType lib signs msg pubkeys signType s = .ok u s' ↔
      List.Forall₂ (fun sign pubkey => Verified lib signType sign msg pubkey) signs
          (pubkeys.cryptolistsGeneral signType.nr) ∧ s = s' := by
  unfold multiSignVerifyType
  by_cases hlen : pubkeys.getCountKeysInSystem signType.nr = signs.length
  · rw [bind_of_ok (a := ()) (assertThat_eq_ok_iff.mpr ⟨hlen, rfl⟩)]
    by_cases hnone : pubkeys.getCountKeysInSystem signType.nr = 0
    -- Without keys nothing is checked, and there must be no signatures.
    · have hpubkeys : pubkeys.cryptolistsGeneral signType.nr = [] := List.length_eq_zero_iff.mp hnone
      have hsigns : signs = [] := List.length_eq_zero_iff.mp (hlen ▸ hnone)
      simp [hnone, hpubkeys, hsigns]
    · rw [if_neg hnone, ← forall_verifiedAt_iff hlen]
      cases signType with
      | ed25519 =>
        refine forM_eq_ok_iff (P := VerifiedAt lib signs msg _ .ed25519) fun i s s' u => ?_
        simp only [bind_eq_ok_iff, MultiCryptoStrings.getKey, vectorAt_eq_ok_iff,
          verifyEd25519_eq_ok_iff, VerifiedAt]
        constructor
        · rintro ⟨pubkey, _, ⟨hpubkey, rfl⟩, ⟨sign, hsign, hverified⟩, rfl⟩
          exact ⟨⟨pubkey, sign, hpubkey, hsign, hverified⟩, rfl⟩
        · rintro ⟨⟨pubkey, sign, hpubkey, hsign, hverified⟩, rfl⟩
          exact ⟨pubkey, s, ⟨hpubkey, rfl⟩, ⟨sign, hsign, hverified⟩, rfl⟩
      | ntruSign =>
        by_cases hen : lib.enableNTRU = true
        · dsimp only
          rw [if_pos hen]
          exact forM_eq_ok_iff (P := VerifiedAt lib signs msg _ .ntruSign)
            fun _ _ _ _ => verifyNtruAt_eq_ok_iff hen
        · dsimp only
          rw [if_neg hen, raise_apply]
          simp only [reduceCtorEq, false_iff, not_and]
          intro h
          obtain ⟨_, _, -, -, hen', -⟩ := h 0 (List.mem_range.mpr (Nat.pos_of_ne_zero hnone))
          exact absurd hen' hen
      | _ => cases hallowed
  · have habort := assertThat_apply
      (ε := Exn) (pubkeys.getCountKeysInSystem signType.nr = signs.length) s
    rw [if_neg hlen] at habort
    rw [bind_of_error habort]
    simp only [reduceCtorEq, false_iff, not_and]
    exact fun h => absurd h.length_eq.symm hlen

/-- What verifying checks of a system: as many signatures as public keys, and each signature of a
signing system verified with the key at its place. -/
def SystemVerified (lib : CryptoLib) (allSignatures : Multisign) (msg : Bytes)
    (pubkeys : MultikeysPub) (sys : SystemNr) : Prop :=
  ∀ type, CryptoSystemType.ofInt sys = some type →
    allSignatures.getCountKeysInSystem sys = pubkeys.getCountKeysInSystem sys ∧
    (cryptosystemSignAllowed type = true →
      List.Forall₂ (fun sign pubkey => Verified lib type sign msg pubkey)
        (allSignatures.cryptolistsGeneral sys) (pubkeys.cryptolistsGeneral sys))

theorem verifySystem_eq_ok_iff {lib : CryptoLib} {allSignatures : Multisign} {msg : Bytes}
    {pubkeys : MultikeysPub} {sys : SystemNr} {s s' : σ} {u : Unit} :
    verifySystem lib allSignatures msg pubkeys sys s = .ok u s' ↔
      SystemVerified lib allSignatures msg pubkeys sys ∧ s = s' := by
  unfold verifySystem SystemVerified
  cases hsys : CryptoSystemType.ofInt sys with
  | none => simp
  | some type =>
    simp only [CryptoSystemType.nr_of_ofInt hsys, Option.some.injEq, forall_eq', bind_eq_ok_iff,
      checkThat_eq_ok_iff, getSignatureVec_eq, pure_bind]
    cases hallowed : cryptosystemSignAllowed type with
    | true =>
      simp only [if_true, multiSignVerifyType_eq_ok_iff hallowed, CryptoSystemType.nr_of_ofInt hsys,
        forall_true_left]
      constructor
      · rintro ⟨_, _, ⟨hcount, rfl⟩, hverified, rfl⟩
        exact ⟨⟨hcount, hverified⟩, rfl⟩
      · rintro ⟨⟨hcount, hverified⟩, rfl⟩
        exact ⟨(), s, ⟨hcount, rfl⟩, hverified, rfl⟩
    | false =>
      simp only [Bool.false_eq_true, if_false, pure_apply, EStateM.Result.ok.injEq, false_imp_iff,
        and_true]
      constructor
      · rintro ⟨_, _, ⟨hcount, rfl⟩, -, rfl⟩
        exact ⟨hcount, rfl⟩
      · rintro ⟨hcount, rfl⟩
        exact ⟨(), s, ⟨hcount, rfl⟩, trivial, rfl⟩

/-- Verifying goes through all systems. The counts agree in each of them, and in those that sign each key
verifies its signature. -/
theorem multiSignVerify_eq_ok_iff {lib : CryptoLib} {allSignatures : Multisign} {msg : Bytes}
    {pubkeys : MultikeysPub} {s s' : σ} {u : Unit} :
    multiSignVerify lib allSignatures msg pubkeys s = .ok u s' ↔
      (∀ sys, SystemVerified lib allSignatures msg pubkeys sys) ∧ s = s' := by
  have hcount : allSignatures.getCountOfSystems = pubkeys.getCountOfSystems := rfl
  have hloop : (List.finRange systemCount).forM (verifySystem lib allSignatures msg pubkeys) s =
      .ok u s' ↔ (∀ sys ∈ List.finRange systemCount,
        SystemVerified lib allSignatures msg pubkeys sys) ∧ s = s' :=
    forM_eq_ok_iff (P := SystemVerified lib allSignatures msg pubkeys)
      fun _ _ _ _ => verifySystem_eq_ok_iff
  rw [multiSignVerify, bind_of_ok (a := ()) (checkThat_eq_ok_iff.mpr ⟨hcount, rfl⟩)]
  simpa only [List.mem_finRange, forall_true_left] using hloop

/-! ### What a verified message was signed with -/

/-- The set holds a key of a signing system. -/
def HasSigningKey (pubkeys : MultikeysPub) : Prop :=
  ∃ type, cryptosystemSignAllowed type = true ∧ pubkeys.cryptolistsGeneral type.nr ≠ []

/-- Every signing key of the set verified the signature at its system and place. It is not enough that one of
them has. -/
def AllVerified (lib : CryptoLib) (allSignatures : Multisign) (msg : Bytes) (pubkeys : MultikeysPub) :
    Prop :=
  ∀ type, cryptosystemSignAllowed type = true →
    ∀ (i : ℕ) (pubkey : Bytes), (pubkeys.cryptolistsGeneral type.nr)[i]? = some pubkey →
      ∃ sign, (allSignatures.cryptolistsGeneral type.nr)[i]? = some sign ∧
        Verified lib type sign msg pubkey

/-- When every system is verified, then so is every signing key. -/
private theorem allVerified_of_systemVerified {lib : CryptoLib} {allSignatures : Multisign} {msg : Bytes}
    {pubkeys : MultikeysPub} (h : ∀ sys, SystemVerified lib allSignatures msg pubkeys sys) :
    AllVerified lib allSignatures msg pubkeys := by
  intro type hallowed i pubkey hpubkey
  have hsys : CryptoSystemType.ofInt type.nr = some type := by
    cases type <;> first | rfl | cases hallowed
  have hverified := (h type.nr type hsys).2 hallowed
  rw [List.forall₂_iff_get] at hverified
  obtain ⟨hlen, hverified⟩ := hverified
  obtain ⟨hi, rfl⟩ := List.getElem?_eq_some_iff.mp hpubkey
  exact ⟨_, List.getElem?_eq_getElem (hlen ▸ hi), hverified i (hlen ▸ hi) hi⟩

/-- An accepted message is signed by a key of the set exactly when the set holds a signing key, or the counts
of signatures and keys differ in some system, so that nothing is accepted. A set without such a key accepts
every message for which the counts agree. -/
theorem multiSignVerify_sound_iff {lib : CryptoLib} {allSignatures : Multisign} {msg : Bytes}
    {pubkeys : MultikeysPub} {s : σ} :
    (∀ u s', multiSignVerify lib allSignatures msg pubkeys s = .ok u s' →
      HasSigningKey pubkeys ∧ AllVerified lib allSignatures msg pubkeys) ↔
    HasSigningKey pubkeys ∨ ∃ sys : SystemNr, (CryptoSystemType.ofInt sys).isSome ∧
      allSignatures.getCountKeysInSystem sys ≠ pubkeys.getCountKeysInSystem sys := by
  constructor
  · intro hsound
    by_contra hnot
    simp only [not_or, not_exists, not_and, not_not] at hnot
    obtain ⟨hnokey, hcounts⟩ := hnot
    refine hnokey (hsound () s (multiSignVerify_eq_ok_iff.mpr ⟨fun sys type hsys => ?_, rfl⟩)).1
    refine ⟨hcounts sys (by rw [hsys]; rfl), fun hallowed => ?_⟩
    -- without a signing key there is nothing to verify
    have hpubkeys : pubkeys.cryptolistsGeneral sys = [] := by
      by_contra hne
      exact hnokey ⟨type, hallowed, by rwa [CryptoSystemType.nr_of_ofInt hsys]⟩
    have hsigns : allSignatures.cryptolistsGeneral sys = [] := by
      have hcount := hcounts sys (by rw [hsys]; rfl)
      rw [MultiCryptoStrings.getCountKeysInSystem, MultiCryptoStrings.getCountKeysInSystem, hpubkeys,
        List.length_nil] at hcount
      exact List.length_eq_zero_iff.mp hcount
    rw [hpubkeys, hsigns]
    exact .nil
  · rintro hcond u s' hverify
    obtain ⟨hsystems, -⟩ := multiSignVerify_eq_ok_iff.mp hverify
    rcases hcond with hkey | ⟨sys, hsys, hcount⟩
    · exact ⟨hkey, allVerified_of_systemVerified hsystems⟩
    · obtain ⟨type, hsys⟩ := Option.isSome_iff_exists.mp hsys
      exact absurd (hsystems sys type hsys).1 hcount

/-- The empty set of keys accepts every message with the empty set of signatures. -/
theorem not_multiSignVerify_sound :
    ¬ ∀ (lib : CryptoLib) (allSignatures : Multisign) (msg : Bytes) (pubkeys : MultikeysPub),
      multiSignVerify lib allSignatures msg pubkeys () = .ok () () →
        HasSigningKey pubkeys ∧ AllVerified lib allSignatures msg pubkeys := by
  intro h
  have hverify : multiSignVerify CryptoLib.sample new [] MultikeysPub.new () = .ok () () :=
    multiSignVerify_eq_ok_iff.mpr ⟨fun sys _ _ => ⟨rfl, fun _ => .nil⟩, rfl⟩
  obtain ⟨⟨type, -, hne⟩, -⟩ := h _ _ _ _ hverify
  exact hne rfl

/-! ### Signing and verifying -/

/-- What a pair of keys relies on to sign a message: each signature primitive verifies its own signatures, and
the optional library can be set up. It is asked of the keys of the pair only, and of one message. -/
structure SignLaws (lib : CryptoLib) (pair : MultikeysPAIR) (msg : Bytes) : Prop where
  ed25519 : ∀ {PRV pub}, pair.KeyPair .ed25519 PRV pub → ∃ sign,
    lib.signDetached msg PRV = .ok sign ∧ lib.signVerifyDetached sign msg pub = .ok ()
  ntruSign : lib.enableNTRU = true → ∀ {PRV pub}, pair.KeyPair .ntruSign PRV pub →
    ∃ publicKey : Block passSize, pub = vectorOctets varstringOctets [[49], publicKey.octets] ∧
      ∀ draw, lib.passVerify (lib.passSign draw PRV msg).2.octets
        (lib.passSign draw PRV msg).1.octets publicKey.octets msg = true
  nttSetup : lib.enableNTRU = true → lib.nttSetup ≠ -1

/-- The signing systems, as indices. -/
def Signing (sys : SystemNr) : Prop :=
  ∃ type, CryptoSystemType.ofInt sys = some type ∧ cryptosystemSignAllowed type = true

theorem cryptolistsGeneral_addSignatureVec (m : Multisign) (signatures : List Bytes)
    (type : SystemNr) :
    (m.addSignatureVec signatures type).cryptolistsGeneral =
      Function.update m.cryptolistsGeneral type (m.cryptolistsGeneral type ++ signatures) := by
  unfold addSignatureVec
  induction signatures generalizing m with
  | nil => simp
  | cons signature signatures ih =>
    rw [List.foldl_cons, ih]
    simp [addSignature, MultiCryptoStrings.addKey]

/-- What one round of signing leaves alone, and when it can succeed. -/
private theorem signSystem_of_eq_ok {lib : CryptoLib} {PRV : MultikeysPRV} {msg : Bytes}
    {multiSignature multiSignature' : Multisign} {sys : SystemNr} {draw draw' : ℕ}
    (h : signSystem lib PRV msg multiSignature sys draw = .ok multiSignature' draw') :
    (∀ sys', ¬ Signing sys' → multiSignature'.cryptolistsGeneral sys' =
        multiSignature.cryptolistsGeneral sys') ∧
      (sys = CryptoSystemType.ntruSign.nr → PRV.getCountKeysInSystem sys ≠ 0 →
        lib.enableNTRU = true) := by
  unfold signSystem at h
  cases hsys : CryptoSystemType.ofInt sys with
  | none =>
    rw [hsys] at h
    obtain ⟨rfl, -⟩ := EStateM.Result.ok.inj h
    refine ⟨fun _ _ => rfl, ?_⟩
    rintro rfl
    cases hsys
  | some type =>
    rw [hsys] at h
    dsimp only at h
    rw [CryptoSystemType.nr_of_ofInt hsys] at h
    split at h
    next hskip =>
      obtain ⟨rfl, -⟩ := EStateM.Result.ok.inj h
      refine ⟨fun _ _ => rfl, ?_⟩
      rintro rfl hcount
      obtain rfl : .ntruSign = type := Option.some.inj hsys
      exact absurd hskip (by simp [cryptosystemSignAllowed, hcount])
    next hsign =>
      rw [not_or, not_not] at hsign
      obtain ⟨signatures, draw₁, hsignatures, hret⟩ := bind_eq_ok_iff.mp h
      obtain ⟨rfl, -⟩ := EStateM.Result.ok.inj hret
      constructor
      · intro sys' hnot
        have hne : sys' ≠ sys := by
          rintro rfl
          exact hnot ⟨type, hsys, hsign.1⟩
        rw [cryptolistsGeneral_addSignatureVec, Function.update_of_ne hne]
      -- In a build without NTRU this round throws.
      · rintro rfl -
        obtain rfl : .ntruSign = type := Option.some.inj hsys
        by_contra hen
        simp [multiSignType, hen, bind_apply, assertThat_apply] at hsignatures
        split at hsignatures <;> cases hsignatures

/-- The key at a place verifies the signature made at that place. -/
def SignedAt (lib : CryptoLib) (msg : Bytes) (pubkeys : List Bytes) (type : CryptoSystemType) (i : ℕ)
    (sign : Bytes) : Prop :=
  ∃ pubkey, pubkeys[i]? = some pubkey ∧ Verified lib type sign msg pubkey

private theorem forall₂_verified_of_signedAt {lib : CryptoLib} {msg : Bytes} {pubkeys signs : List Bytes}
    {type : CryptoSystemType} {n : ℕ} (hn : pubkeys.length = n)
    (h : List.Forall₂ (SignedAt lib msg pubkeys type) (List.range n) signs) :
    List.Forall₂ (fun sign pubkey => Verified lib type sign msg pubkey) signs pubkeys := by
  rw [List.forall₂_iff_get] at h ⊢
  obtain ⟨hlen, h⟩ := h
  rw [List.length_range] at hlen
  refine ⟨hlen.symm.trans hn.symm, fun i hi hi' => ?_⟩
  obtain ⟨pubkey, hpubkey, hverified⟩ := h i (by rw [List.length_range]; omega) hi
  rw [List.get_eq_getElem, List.getElem_range, List.getElem?_eq_getElem hi'] at hpubkey
  obtain rfl := Option.some.inj hpubkey
  exact hverified

/-- Each private key of a matching pair is read, together with its public key. -/
private theorem exists_keyPair_of_lt {pair : MultikeysPAIR} (hcounts : pair.CountsMatch)
    {type : CryptoSystemType} {i : ℕ} (hi : i < pair.PRV.getCountKeysInSystem type.nr) :
    ∃ PRV pub, pair.KeyPair type PRV pub ∧
      (pair.pub.cryptolistsGeneral type.nr)[i]? = some pub ∧
      ∀ s : σ, pair.PRV.getKey type.nr i s = .ok PRV s := by
  have hi' : i < pair.pub.getCountKeysInSystem type.nr := (hcounts type.nr).symm ▸ hi
  exact ⟨_, _, ⟨i, List.getElem?_eq_getElem hi, List.getElem?_eq_getElem hi'⟩,
    List.getElem?_eq_getElem hi',
    fun s => vectorAt_eq_ok_iff.mpr ⟨List.getElem?_eq_getElem hi, rfl⟩⟩

/-- What NTRU signs, it verifies. -/
private theorem verified_ntruppSign {lib : CryptoLib} (hen : lib.enableNTRU = true)
    (hsetup : lib.nttSetup ≠ -1) {publicKey : Block passSize} {z : Block passSize}
    {hash : Block passHashSize} {msg : Bytes}
    (h : lib.passVerify hash.octets z.octets publicKey.octets msg = true) :
    Verified lib .ntruSign (z.octets ++ hash.octets) msg
      (vectorOctets varstringOctets [[49], publicKey.octets]) := by
  have hlen : z.octets.length = passSize := Block.length_octets z
  have hread : Reads popVectorString (vectorOctets varstringOctets [[49], publicKey.octets])
      [[49], publicKey.octets] := by
    refine reads_popVectorString (by simp [uvarintLimit]) fun x hx => ?_
    rcases List.mem_pair.mp hx with rfl | rfl
    · decide
    · rw [Block.length_octets]
      decide
  have hpop := hread.apply_start []
  rw [List.append_nil] at hpop
  refine ⟨hen, ntruppVerify_eq_ok_iff.mpr ⟨⟨hsetup, ?_, [[49], publicKey.octets], _,
    publicKey.octets, ?_, hpop, rfl, ?_⟩, rfl⟩⟩
  · rw [List.length_append, hlen]
    exact Nat.le_add_right _ _
  · exact List.append_ne_nil_of_left_ne_nil (uvarintOctets_ne_nil _) _
  · rw [List.drop_left' hlen, List.take_left' hlen, h]

/-- A signing system signs with each of its keys. -/
private theorem exists_multiSignType_eq_ok {lib : CryptoLib} {pair : MultikeysPAIR} {msg : Bytes}
    (hcounts : pair.CountsMatch) (hlaws : SignLaws lib pair msg) {type : CryptoSystemType}
    (hallowed : cryptosystemSignAllowed type = true)
    (hen : type = .ntruSign → lib.enableNTRU = true)
    (hpos : 0 < pair.PRV.getCountKeysInSystem type.nr) (draw : ℕ) :
    ∃ signatures draw', multiSignType lib pair.PRV msg type draw = .ok signatures draw' ∧
      List.Forall₂ (fun sign pubkey => Verified lib type sign msg pubkey) signatures
        (pair.pub.cryptolistsGeneral type.nr) := by
  have hlen : (pair.pub.cryptolistsGeneral type.nr).length =
      pair.PRV.getCountKeysInSystem type.nr := hcounts type.nr
  suffices hloop : ∃ signatures draw', multiSignType lib pair.PRV msg type draw =
      .ok signatures draw' ∧ List.Forall₂ (SignedAt lib msg (pair.pub.cryptolistsGeneral type.nr) type)
        (List.range (pair.PRV.getCountKeysInSystem type.nr)) signatures by
    obtain ⟨signatures, draw', hrun, hsigned⟩ := hloop
    exact ⟨signatures, draw', hrun, forall₂_verified_of_signedAt hlen hsigned⟩
  unfold multiSignType
  rw [bind_of_ok (a := ()) (assertThat_eq_ok_iff.mpr ⟨hpos, rfl⟩)]
  cases type with
  | ed25519 =>
    refine exists_mapM_eq_ok (fun i hi s => ?_) draw
    obtain ⟨PRV, pub, hpair, hpub, hkey⟩ := exists_keyPair_of_lt hcounts (List.mem_range.mp hi)
    obtain ⟨sign, hsign, hverify⟩ := hlaws.ed25519 hpair
    exact ⟨sign, s, (bind_of_ok (hkey s)).trans (fromExcept_eq_ok_iff.mpr ⟨hsign, rfl⟩), pub, hpub,
      hverify⟩
  | ntruSign =>
    dsimp only
    rw [if_pos (hen rfl)]
    refine exists_mapM_eq_ok (fun i hi s => ?_) draw
    obtain ⟨PRV, pub, hpair, hpub, hkey⟩ := exists_keyPair_of_lt hcounts (List.mem_range.mp hi)
    obtain ⟨publicKey, rfl, hverify⟩ := hlaws.ntruSign (hen rfl) hpair
    have hsetup := hlaws.nttSetup (hen rfl)
    exact ⟨_, _, (bind_of_ok (hkey s)).trans
      (bind_of_ok (a := ()) (checkThat_eq_ok_iff.mpr ⟨hsetup, rfl⟩)), _, hpub,
      verified_ntruppSign (hen rfl) hsetup (hverify s)⟩
  | _ => cases hallowed

/-- After signing with a system: its signatures are verified, and other systems have none. -/
def SystemSigned (lib : CryptoLib) (allSignatures : Multisign) (msg : Bytes) (pubkeys : MultikeysPub)
    (sys : SystemNr) : Prop :=
  ∀ type, CryptoSystemType.ofInt sys = some type →
    if cryptosystemSignAllowed type = true then
      List.Forall₂ (fun sign pubkey => Verified lib type sign msg pubkey)
        (allSignatures.cryptolistsGeneral sys) (pubkeys.cryptolistsGeneral sys)
    else allSignatures.cryptolistsGeneral sys = []

/-- One round of signing. -/
private theorem exists_signSystem_eq_ok {lib : CryptoLib} {pair : MultikeysPAIR} {msg : Bytes}
    (hcounts : pair.CountsMatch) (hlaws : SignLaws lib pair msg)
    (hen : pair.pub.cryptolistsGeneral CryptoSystemType.ntruSign.nr = [] ∨ lib.enableNTRU = true)
    {multiSignature : Multisign} {sys : SystemNr}
    (hnone : multiSignature.cryptolistsGeneral sys = []) (draw : ℕ) :
    ∃ multiSignature' draw', signSystem lib pair.PRV msg multiSignature sys draw =
        .ok multiSignature' draw' ∧
      SystemSigned lib multiSignature' msg pair.pub sys ∧
      ∀ sys' ≠ sys, multiSignature'.cryptolistsGeneral sys' =
        multiSignature.cryptolistsGeneral sys' := by
  unfold signSystem
  cases hsys : CryptoSystemType.ofInt sys with
  | none =>
    exact ⟨multiSignature, draw, rfl, fun type h => by simp [hsys] at h, fun _ _ => rfl⟩
  | some type =>
    have hnr := CryptoSystemType.nr_of_ofInt hsys
    have hcount : (pair.pub.cryptolistsGeneral sys).length = pair.PRV.getCountKeysInSystem sys :=
      hcounts sys
    dsimp only
    -- A system that cannot sign, or has no keys, is skipped.
    by_cases hskip : ¬ cryptosystemSignAllowed type = true ∨
        pair.PRV.getCountKeysInSystem type.nr = 0
    · rw [if_pos hskip]
      refine ⟨multiSignature, draw, rfl, fun type' hsys' => ?_, fun _ _ => rfl⟩
      obtain rfl : type = type' := Option.some.inj (hsys.symm.trans hsys')
      split
      next hallowed =>
        rw [hnr] at hskip
        rw [hnone, List.length_eq_zero_iff.mp (hcount.trans (hskip.resolve_left (not_not.mpr hallowed)))]
        exact .nil
      next => exact hnone
    · rw [if_neg hskip]
      rw [not_or, not_not] at hskip
      have hen' : type = .ntruSign → lib.enableNTRU = true := by
        rintro rfl
        refine hen.resolve_left fun hnil => hskip.2 ?_
        rw [← hcounts, MultiCryptoStrings.getCountKeysInSystem, hnil]
        rfl
      obtain ⟨signatures, draw', hsignatures, hverified⟩ := exists_multiSignType_eq_ok hcounts hlaws
        hskip.1 hen' (Nat.pos_of_ne_zero hskip.2) draw
      refine ⟨_, draw', bind_of_ok hsignatures, fun type' hsys' => ?_, fun sys' hne => ?_⟩
      · obtain rfl : type = type' := Option.some.inj (hsys.symm.trans hsys')
        rw [if_pos hskip.1, cryptolistsGeneral_addSignatureVec, hnr, Function.update_self, hnone,
          List.nil_append, ← hnr]
        exact hverified
      · rw [cryptolistsGeneral_addSignatureVec, hnr, Function.update_of_ne hne]

/-- All rounds of signing. -/
private theorem exists_signSystems_eq_ok {lib : CryptoLib} {pair : MultikeysPAIR} {msg : Bytes}
    (hcounts : pair.CountsMatch) (hlaws : SignLaws lib pair msg)
    (hen : pair.pub.cryptolistsGeneral CryptoSystemType.ntruSign.nr = [] ∨ lib.enableNTRU = true)
    {syss : List SystemNr} (hnodup : syss.Nodup) :
    ∀ (multiSignature : Multisign) (draw : ℕ),
      (∀ sys ∈ syss, multiSignature.cryptolistsGeneral sys = []) →
      ∃ multiSignature' draw', syss.foldlM (signSystem lib pair.PRV msg) multiSignature draw =
          .ok multiSignature' draw' ∧
        (∀ sys ∈ syss, SystemSigned lib multiSignature' msg pair.pub sys) ∧
        ∀ sys ∉ syss, multiSignature'.cryptolistsGeneral sys =
          multiSignature.cryptolistsGeneral sys := by
  induction syss with
  | nil => exact fun multiSignature draw _ => ⟨multiSignature, draw, rfl, by simp, fun _ _ => rfl⟩
  | cons sys syss ih =>
    intro multiSignature draw hnone
    obtain ⟨hsys, hnodup⟩ := List.nodup_cons.mp hnodup
    obtain ⟨multiSignature₁, draw₁, hfirst, hsigned, hframe⟩ :=
      exists_signSystem_eq_ok hcounts hlaws hen (hnone sys List.mem_cons_self) draw
    have hnone₁ : ∀ sys' ∈ syss, multiSignature₁.cryptolistsGeneral sys' = [] := by
      intro sys' hmem
      have hne : sys' ≠ sys := fun h => hsys (h ▸ hmem)
      rw [hframe sys' hne]
      exact hnone sys' (List.mem_cons_of_mem _ hmem)
    obtain ⟨multiSignature', draw', hrest, hsigneds, hframes⟩ := ih hnodup multiSignature₁ draw₁ hnone₁
    refine ⟨multiSignature', draw', ?_, List.forall_mem_cons.mpr ⟨?_, hsigneds⟩, ?_⟩
    · rw [List.foldlM_cons]
      exact (bind_of_ok hfirst).trans hrest
    · unfold SystemSigned at hsigned ⊢
      rwa [hframes sys hsys]
    · intro sys' hmem
      rw [List.mem_cons, not_or] at hmem
      rw [hframes sys' hmem.2, hframe sys' hmem.1]

/-- What any run of signing leaves alone, and when it can succeed. -/
theorem signSystems_of_eq_ok {lib : CryptoLib} {PRV : MultikeysPRV} {msg : Bytes}
    {syss : List SystemNr} {multiSignature' : Multisign} {draw' : ℕ} :
    ∀ {multiSignature : Multisign} {draw : ℕ},
      syss.foldlM (signSystem lib PRV msg) multiSignature draw = .ok multiSignature' draw' →
      (∀ sys, ¬ Signing sys → multiSignature'.cryptolistsGeneral sys =
          multiSignature.cryptolistsGeneral sys) ∧
        (CryptoSystemType.ntruSign.nr ∈ syss →
          PRV.getCountKeysInSystem CryptoSystemType.ntruSign.nr ≠ 0 → lib.enableNTRU = true) := by
  induction syss with
  | nil =>
    intro multiSignature draw h
    obtain ⟨rfl, -⟩ := EStateM.Result.ok.inj h
    exact ⟨fun _ _ => rfl, by simp⟩
  | cons sys syss ih =>
    intro multiSignature draw h
    rw [List.foldlM_cons] at h
    obtain ⟨multiSignature₁, draw₁, hfirst, hrest⟩ := bind_eq_ok_iff.mp h
    obtain ⟨hframe, hen⟩ := signSystem_of_eq_ok hfirst
    obtain ⟨hframes, hens⟩ := ih hrest
    refine ⟨fun sys' hsys' => (hframes sys' hsys').trans (hframe sys' hsys'), fun hmem hcount => ?_⟩
    rcases List.mem_cons.mp hmem with rfl | hmem
    · exact hen rfl hcount
    · exact hens hmem hcount

/-- A set of keys verifies its own signatures exactly when it holds keys of signing systems only, and the
build supports them. Keys of other systems make the counts differ, since nothing is signed with them, and the
signatures of the set are then refused by the set. -/
theorem multiSignVerify_multiSign_iff {lib : CryptoLib} {pair : MultikeysPAIR} {msg : Bytes}
    (hcounts : pair.CountsMatch) (hlaws : SignLaws lib pair msg) (draw : ℕ) :
    (∃ allSignatures draw', multiSign lib pair.PRV msg draw = .ok allSignatures draw' ∧
        multiSignVerify lib allSignatures msg pair.pub draw' = .ok () draw') ↔
      (∀ (sys : SystemNr) (type : CryptoSystemType), CryptoSystemType.ofInt sys = some type →
        cryptosystemSignAllowed type = false → pair.pub.cryptolistsGeneral sys = []) ∧
      (pair.pub.cryptolistsGeneral CryptoSystemType.ntruSign.nr = [] ∨ lib.enableNTRU = true) := by
  constructor
  · rintro ⟨allSignatures, draw', hsign, hverify⟩
    obtain ⟨hframes, hen⟩ := signSystems_of_eq_ok hsign
    obtain ⟨hsystems, -⟩ := multiSignVerify_eq_ok_iff.mp hverify
    constructor
    · intro sys type hsys hnot
      have hnotSigning : ¬ Signing sys := by
        rintro ⟨type', hsys', hallowed⟩
        obtain rfl : type = type' := Option.some.inj (hsys.symm.trans hsys')
        exact absurd hallowed (by rw [hnot]; decide)
      have hcount := (hsystems sys type hsys).1
      rw [MultiCryptoStrings.getCountKeysInSystem, hframes sys hnotSigning] at hcount
      exact List.length_eq_zero_iff.mp hcount.symm
    · by_contra hnot
      rw [not_or] at hnot
      refine hnot.2 (hen (List.mem_finRange _) ?_)
      rw [← hcounts]
      exact fun h => hnot.1 (List.length_eq_zero_iff.mp h)
  · rintro ⟨hothers, hen⟩
    obtain ⟨allSignatures, draw', hsign, hsigned, -⟩ := exists_signSystems_eq_ok hcounts hlaws hen
      (List.nodup_finRange systemCount) new draw fun _ _ => rfl
    refine ⟨allSignatures, draw', hsign, multiSignVerify_eq_ok_iff.mpr ⟨fun sys type hsys => ?_, rfl⟩⟩
    have h := hsigned sys (List.mem_finRange sys) type hsys
    split at h
    next hallowed => exact ⟨h.length_eq, fun _ => h⟩
    next hnot =>
      rw [MultiCryptoStrings.getCountKeysInSystem, MultiCryptoStrings.getCountKeysInSystem, h,
        hothers sys type hsys (Bool.not_eq_true _ ▸ hnot)]
      exact ⟨rfl, fun hallowed => absurd hallowed hnot⟩

/-- A key of Ed25519, with a private key that is the public one. -/
def ed25519Pair : MultikeysPAIR :=
  MultikeysPAIR.new.addPublicAndPRIVATE CryptoSystemType.ed25519.nr [1] [1]

/-- The keys at a place of a pair whose keys are all the same. -/
theorem eq_of_keyPair {pair : MultikeysPAIR} {type : CryptoSystemType} {PRV pub : Bytes}
    (hsame : pair.PRV.cryptolistsGeneral = pair.pub.cryptolistsGeneral)
    (h : pair.KeyPair type PRV pub) :
    PRV = pub ∧ pair.pub.cryptolistsGeneral type.nr ≠ [] := by
  obtain ⟨i, hPRV, hpub⟩ := h
  rw [hsame] at hPRV
  exact ⟨Option.some.inj (hPRV.symm.trans hpub), List.ne_nil_of_mem (List.mem_of_getElem? hpub)⟩

/-- The sample library signs with any keys but those of NTRU. -/
theorem signLaws_sample {pair : MultikeysPAIR} (msg : Bytes)
    (hsame : pair.PRV.cryptolistsGeneral = pair.pub.cryptolistsGeneral)
    (hntru : pair.pub.cryptolistsGeneral CryptoSystemType.ntruSign.nr = []) :
    SignLaws CryptoLib.sample pair msg where
  ed25519 := by
    intro PRV pub h
    obtain ⟨rfl, -⟩ := eq_of_keyPair hsame h
    exact ⟨PRV ++ msg, rfl, if_pos rfl⟩
  ntruSign _ _ _ h := absurd hntru (eq_of_keyPair hsame h).2
  nttSetup _ := by decide

/-- A set with one key of Ed25519 verifies its own signature. -/
theorem multiSignVerify_multiSign_iff_example :
    ∃ allSignatures draw', multiSign CryptoLib.sample ed25519Pair.PRV [7] 0 =
        .ok allSignatures draw' ∧
      multiSignVerify CryptoLib.sample allSignatures [7] ed25519Pair.pub draw' = .ok () draw' :=
  (multiSignVerify_multiSign_iff (fun _ => rfl) (signLaws_sample [7] rfl rfl) 0).mpr
    ⟨by decide, .inl rfl⟩

/-- With a key of X25519 beside the one of Ed25519, the set does not verify its own signature. -/
theorem not_multiSignVerify_multiSign :
    ¬ ∀ (lib : CryptoLib) (pair : MultikeysPAIR) (msg : Bytes) (draw : ℕ), pair.CountsMatch →
      SignLaws lib pair msg → ∃ allSignatures draw',
        multiSign lib pair.PRV msg draw = .ok allSignatures draw' ∧
          multiSignVerify lib allSignatures msg pair.pub draw' = .ok () draw' := by
  intro h
  let pair := ed25519Pair.addPublicAndPRIVATE CryptoSystemType.x25519.nr [2] [2]
  obtain ⟨allSignatures, draw', hsign, hverify⟩ := h CryptoLib.sample pair [7] 0 (fun _ => rfl)
    (signLaws_sample [7] rfl rfl)
  obtain ⟨hframes, -⟩ := signSystems_of_eq_ok hsign
  have hnot : ¬ Signing CryptoSystemType.x25519.nr := by
    rintro ⟨type, hsys, hallowed⟩
    obtain rfl : .x25519 = type := Option.some.inj hsys
    cases hallowed
  have hcount := ((multiSignVerify_eq_ok_iff.mp hverify).1 CryptoSystemType.x25519.nr .x25519 rfl).1
  rw [MultiCryptoStrings.getCountKeysInSystem, hframes _ hnot] at hcount
  exact absurd hcount (by decide)

end Multisign

end Galaxy42
