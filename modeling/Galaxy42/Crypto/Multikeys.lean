import Galaxy42.Crypto.CryptoBasic
import Galaxy42.StringsUtils
import Galaxy42.TrivialSerialize.Encoding

/-!
# Sets of keys

`c_multicryptostrings` holds a list of strings for each key system: the public keys of an identity,
its private keys, or signatures made with them. The classes derived from it fix what the strings are
used for, and `c_multikeys_PAIR` joins public and private keys.

Two encodings of such a set are written by `trivialserialize`: `serialize_bin` keeps every string, and
the fingerprint behind `get_hash` keeps, for each key system, the exclusive or of the hashes of its
keys. Both refuse a set with keys of a system that has no letter.

The lists are a function of the index of the system, as they are an array in the source. Loops over the array
skip the systems without strings, which is why the systems that are in use are listed once (`usedSystems`) and
the lemmas about these loops are about that list. `get_hash` is `const` in the source and changes the cache:
here it is a program over the object, and `readHash` is what a caller sees of it who only reads.

The hash of a set of public keys is where virtual addresses come from: the address is the prefix of the
network, followed by as much of the hash as fits. It exists in three forms, as octets, in hexadecimal, and in
hexadecimal with colons.

The generators of keys are here as well, with the random octets they draw, in the order of the sources.
-/

namespace Galaxy42

open Toolkit Program TrivialSerialize

/-- `c_multicryptostrings<std::string>`. The strings are public keys, or private keys, or signatures, as the
use tells. -/
structure MultiCryptoStrings where
  /-- `m_cryptolists_general`: the strings of each key system -/
  cryptolistsGeneral : SystemNr → List Bytes
  /-- `m_hash_cached`: the hash of all strings, or empty when it must be calculated -/
  hashCached : Bytes
  /-- `m_crypto_use` -/
  cryptoUse : CryptoUse

namespace MultiCryptoStrings

variable {σ : Type}

/-- A new object without strings. -/
def new (cryptoUse : CryptoUse) : MultiCryptoStrings :=
  { cryptolistsGeneral := fun _ => [], hashCached := [], cryptoUse }

/-- `get_count_keys_in_system` -/
def getCountKeysInSystem (m : MultiCryptoStrings) (sys : SystemNr) : ℕ :=
  (m.cryptolistsGeneral sys).length

/-- `get_count_of_systems` -/
def getCountOfSystems (_ : MultiCryptoStrings) : ℕ :=
  systemCount

/-- `add_key`. The cached hash stays. -/
def addKey (m : MultiCryptoStrings) (type : SystemNr) (key : Bytes) : MultiCryptoStrings :=
  { m with cryptolistsGeneral :=
      Function.update m.cryptolistsGeneral type (m.cryptolistsGeneral type ++ [key]) }

/-- `get_key`. A number that is too large throws what `at` throws. -/
def getKey (m : MultiCryptoStrings) (type : SystemNr) (numberOfKey : ℕ) : Program Exn σ Bytes :=
  vectorAt (m.cryptolistsGeneral type) numberOfKey

/-- A key that is there is read. -/
theorem getKey_eq_ok {m : MultiCryptoStrings}
    {type : SystemNr} {n : ℕ} (h : n < m.getCountKeysInSystem type) (s : σ) :
    m.getKey type n s = .ok ((m.cryptolistsGeneral type).getD n []) s := by
  rw [getKey, vectorAt_eq_ok_iff, List.getD_eq_getElem?_getD,
    List.getElem?_eq_getElem h]
  exact ⟨rfl, rfl⟩

/-- A key that is not there is not. -/
theorem getKey_eq_error {m : MultiCryptoStrings}
    {type : SystemNr} {n : ℕ} (h : ¬ n < m.getCountKeysInSystem type) (s : σ) :
    m.getKey type n s = .error (.throw .outOfRange) s := by
  rw [getKey, vectorAt, List.getElem?_eq_none (not_lt.mp h)]
  rfl

/-- `set_hash_dirty` -/
def setHashDirty (m : MultiCryptoStrings) : MultiCryptoStrings :=
  { m with hashCached := [] }

/-- `clear`. The cached hash stays. -/
def clear (m : MultiCryptoStrings) : MultiCryptoStrings :=
  { m with cryptolistsGeneral := fun _ => [] }

/-- The systems that have strings, in the order of their numbers. -/
def usedSystems (m : MultiCryptoStrings) : List SystemNr :=
  (List.finRange systemCount).filter fun ix => m.getCountKeysInSystem ix ≠ 0

/-- The characters `GMK`, with which both encodings of a set begin. -/
def magicMarker : Bytes := [71, 77, 75]

/-- The version `'a'` of both encodings. -/
def magicVersion : UInt8 := 97

/-! ### The fingerprint -/

/-- The exclusive or of the hashes of the keys of one system. The order of the keys does not matter for it,
and keys that are there twice cancel. -/
def fingerprintAccum (lib : CryptoLib) (pubkeys : List Bytes) : Program Exn σ Bytes :=
  pubkeys.foldlM (fun fprAccum pk => binaryStringXor fprAccum (lib.hash1 pk))
    (List.replicate hash1Size 0)

/-- One round of the loop of `update_hash` over the key systems. Systems without keys leave no trace in the
string. -/
def pushFingerprint (lib : CryptoLib) (m : MultiCryptoStrings) (ix : SystemNr) : Generator Unit := do
  if m.getCountKeysInSystem ix ≠ 0 then
    let ID ← fromExcept (CryptoSystemType.toID ix)
    pushByteU ID.toUInt8
    let fprAccum ← fingerprintAccum lib (m.cryptolistsGeneral ix)
    pushVarstring fprAccum

/-- The string that `update_hash` hashes. It begins as a set that is serialized does, but for its use. -/
def fingerprintSerial (lib : CryptoLib) (m : MultiCryptoStrings) : Program Exn σ Bytes :=
  generate do
    pushBytesN 3 magicMarker
    pushByteU magicVersion
    pushByteU CryptoUse.fingerprint.value
    pushByteU 1
    pushIntegerUvarint m.usedSystems.length
    (List.finRange systemCount).forM (pushFingerprint lib m)

/-- `update_hash` -/
def updateHash (lib : CryptoLib) : Program Exn MultiCryptoStrings Unit := do
  let m ← get
  let serial ← fingerprintSerial lib m
  set { m with hashCached := lib.hash1 serial }

/-- `get_hash`, which fills the cache. A cache that is not empty is returned as it is, whether it still
belongs to the keys or not. -/
def getHash (lib : CryptoLib) : Program Exn MultiCryptoStrings Bytes := do
  let m ← get
  if m.hashCached = [] then
    updateHash lib
  let m ← get
  assertThat (m.hashCached ≠ [])
  return m.hashCached

/-- What `get_hash` returns on an object that is only read here. -/
def readHash (lib : CryptoLib) (m : MultiCryptoStrings) : Program Exn σ Bytes :=
  within m (getHash lib)

/-- `operator>`. It compares the hashes as strings of octets. -/
def greater (lib : CryptoLib) (m rhs : MultiCryptoStrings) : Program Exn σ Bool := do
  let hash ← m.readHash lib
  let rhsHash ← rhs.readHash lib
  return (compare hash rhsHash).isGT

/-! ### The serialized set -/

/-- One round of the loop of `serialize_bin` over the key systems. A system without a letter throws. -/
def pushSystem (m : MultiCryptoStrings) (ix : SystemNr) : Generator Unit := do
  if m.getCountKeysInSystem ix ≠ 0 then
    let ID ← fromExcept (CryptoSystemType.toID ix)
    pushIntegerUvarint ID.toUInt8.toNat
    pushVectorObject (m.cryptolistsGeneral ix)

/-- `serialize_bin`. Systems without strings are left out, and so are the cached hash and the prefix. -/
def serializeBin (m : MultiCryptoStrings) : Program Exn σ Bytes :=
  generate do
    pushBytesN 3 magicMarker
    pushByteU magicVersion
    pushByteU m.cryptoUse.value
    pushIntegerUvarint m.usedSystems.length
    (List.finRange systemCount).forM (pushSystem m)

/-- One round of the loop of `load_from_bin`. The number read is cut to a `char`, and the list of the
system is replaced. -/
def loadSystem : Program Exn (Cursor UInt8 × MultiCryptoStrings) Unit := do
  let number ← onFst popIntegerUvarint
  let sysId ← fromExcept (CryptoSystemType.fromID (UInt8.ofNat number).toInt8)
  let sysKeys : List Bytes ← onFst popVectorObject
  onSnd (modify fun m =>
    { m with cryptolistsGeneral := Function.update m.cryptolistsGeneral sysId.nr sysKeys })

/-- The part of `load_from_bin` behind the constructor of the parser. The systems are read one after the other
and put into the object at once, so what was read before a failure stays there. -/
def loadFromParser : Program Exn (Cursor UInt8 × MultiCryptoStrings) Unit := do
  let magic ← onFst (popBytesN 3)
  checkThat (magic = magicMarker) (.runtimeError "Format incorrect: bad magic marker for GMK")
  let version ← onFst popByteU
  let magicCryptoUse ← onFst popByteU
  let m ← onSnd get
  checkThat (magicCryptoUse = m.cryptoUse.value) (.runtimeError
    s!"Format error: crypto_use was={magicCryptoUse} but we expected={m.cryptoUse.value}")
  checkThat (version = magicVersion) .formatErrorReadInvalidVersion
  let mapSize ← onFst popIntegerUvarint
  assertThat (mapSize ≤ 100)
  let _ ← replicateM loadSystem mapSize
  let atEnd ← onFst isEnd
  checkThat (atEnd = true) (.runtimeError "Format incorrect: extra elements at end")
  onSnd (modify setHashDirty)

/-- `load_from_bin`. The object is changed as the systems are read, so after an exception it has those that
were read before. -/
def loadFromBin (data : Bytes) : Program Exn MultiCryptoStrings Unit := do
  let parser ← parserOfString data
  withLocal parser loadFromParser

end MultiCryptoStrings

/-! ### Public keys, private keys, pairs -/

/-- `c_multikeys_pub`: the public keys of an identity. -/
structure MultikeysPub extends MultiCryptoStrings where
  /-- `m_ipv6_prefix`, in hexadecimal; `"fd42"` in a new object -/
  ipv6Prefix : Bytes

namespace MultikeysPub

variable {σ : Type}

/-- A new object without keys. -/
def new : MultikeysPub :=
  { MultiCryptoStrings.new .open with ipv6Prefix := [102, 100, 52, 50] }

/-- `get_ipv6_string_bin`. A prefix of more than 16 octets would make the count of `substr` negative,
which as a size is beyond the end of the hash. -/
def getIpv6StringBin (lib : CryptoLib) (pub : MultikeysPub) : Program Exn σ Bytes := do
  let hash ← pub.readHash lib
  let prefixBin ← fromExcept (stringAsBin pub.ipv6Prefix)
  let lenIp := 128 / 8
  let lenPre := prefixBin.length
  return prefixBin ++ if lenPre ≤ lenIp then hash.take (lenIp - lenPre) else hash

/-- `get_ipv6_string_hex` -/
def getIpv6StringHex (lib : CryptoLib) (pub : MultikeysPub) : Program Exn σ Bytes := do
  let asBin ← pub.getIpv6StringBin lib
  fromExcept (stringAsHex asBin)

/-- The loop of `get_ipv6_string_hexdot`, from the character with some index on. A colon comes behind each
four characters but the last ones. -/
def hexdotFrom (i : ℕ) : Bytes → Bytes
  | [] => []
  | c :: hexStr =>
    if i ≠ 0 ∧ hexStr ≠ [] ∧ (i + 1) % 4 = 0 then c :: 58 :: hexdotFrom (i + 1) hexStr
    else c :: hexdotFrom (i + 1) hexStr

/-- `get_ipv6_string_hexdot` -/
def getIpv6StringHexdot (lib : CryptoLib) (pub : MultikeysPub) : Program Exn σ Bytes := do
  let hexStr ← pub.getIpv6StringHex lib
  return hexdotFrom 0 hexStr

/-- `set_ipv6_prefix` -/
def setIpv6Prefix (pub : MultikeysPub) (ipv6Prefix : Bytes) : MultikeysPub :=
  { pub with ipv6Prefix }

/-- `load_from_bin` on a new object. Its prefix is that of a new object, as none is in the data. -/
def ofBin (data : Bytes) : Program Exn σ MultikeysPub := do
  let (_, m) ← withinState (MultiCryptoStrings.new .open) (MultiCryptoStrings.loadFromBin data)
  return { MultikeysPub.new with toMultiCryptoStrings := m }

/-- A public key as it is after it was sent, with the prefix of the node that has read it. -/
def received (pubkey : MultikeysPub) (ipv6Prefix : Bytes) : MultikeysPub :=
  { MultikeysPub.new with cryptolistsGeneral := pubkey.cryptolistsGeneral }.setIpv6Prefix ipv6Prefix

end MultikeysPub

/-- `c_multikeys_PRV`: the private keys of an identity. -/
structure MultikeysPRV extends MultiCryptoStrings

/-- A new object without keys. -/
def MultikeysPRV.new : MultikeysPRV :=
  { MultiCryptoStrings.new .secret with }

/-- `c_multikeys_PAIR` -/
structure MultikeysPAIR where
  /-- `m_pub` -/
  pub : MultikeysPub
  /-- `m_PRV` -/
  PRV : MultikeysPRV

namespace MultikeysPAIR

/-- A new object without keys. -/
def new : MultikeysPAIR :=
  { pub := MultikeysPub.new, PRV := MultikeysPRV.new }

/-- `add_public_and_PRIVATE` -/
def addPublicAndPRIVATE (pair : MultikeysPAIR) (cryptoType : SystemNr) (pubkey PRVkey : Bytes) :
    MultikeysPAIR :=
  { pub := { pair.pub with
      toMultiCryptoStrings := pair.pub.toMultiCryptoStrings.addKey cryptoType pubkey }
    PRV := { toMultiCryptoStrings := pair.PRV.toMultiCryptoStrings.addKey cryptoType PRVkey } }

/-- As many private keys as public ones, in every system. Generating keys keeps this, as it adds one of each. -/
def CountsMatch (pair : MultikeysPAIR) : Prop :=
  ∀ sys, pair.pub.getCountKeysInSystem sys = pair.PRV.getCountKeysInSystem sys

/-- A private and a public key at the same position of a pair of key sets. -/
def KeyPair (pair : MultikeysPAIR) (type : CryptoSystemType) (PRV pub : Bytes) :
    Prop :=
  ∃ i : ℕ, (pair.PRV.cryptolistsGeneral type.nr)[i]? = some PRV ∧
    (pair.pub.cryptolistsGeneral type.nr)[i]? = some pub

/-! ### Generating keys -/

variable (lib : CryptoLib)

/-- `generate_x25519_key_pair`, private key first. A first string of random octets is thrown away. -/
def generateX25519KeyPair : Crypto (Bytes × Bytes) := do
  let _ ← nextDraw
  let draw ← nextDraw
  let keyPRV := (lib.randomBytes draw 32).octets
  let keyPub ← fromExcept (lib.generatePubkeyFromPrivkey keyPRV)
  return (keyPRV, keyPub)

/-- `generate_ed25519_key_pair` -/
def generateEd25519KeyPair : Crypto (Bytes × Bytes) := do
  let draw ← nextDraw
  return lib.signKeypair draw

/-- `generate_nrtu_encrypt_key_pair` -/
def generateNrtuEncryptKeyPair : Crypto (Bytes × Bytes) := do
  if lib.enableNTRU then
    let draw ← nextDraw
    let keypair ← fromOutcome (lib.ntruGenerateEncryptKeypair draw)
    assertThat (keypair.1.length = 659)
    assertThat (keypair.2.length = 609)
    return keypair
  else
    raise (.invalidArgumentInVersion "NTru encryption (keygen) not enabled")

/-- `ntrupp::generate_sign_keypair`. The public key is written with the version of its format. -/
def ntruppGenerateSignKeypair : Crypto (Bytes × Bytes) := do
  checkThat (lib.nttSetup ≠ -1) (.runtimeError "ERROR: Could not initialize FFTW. Bad wisdom?")
  let draw ← nextDraw
  let (privateKey, publicKey) := lib.passKeypair draw
  let pub ← TrivialSerialize.generate (pushVectorString [[49], publicKey.octets])
  return (privateKey.octets, pub)

/-- `generate_nrtu_sign_key_pair` -/
def generateNrtuSignKeyPair : Crypto (Bytes × Bytes) := do
  if lib.enableNTRU then
    let keypair ← ntruppGenerateSignKeypair lib
    assertThat (keypair.1.length = 6152)
    assertThat (keypair.2.length = 6158)
    return keypair
  else
    raise (.invalidArgumentInVersion "NTru signature (keygen) not enabled")

/-- `sidhpp::generate_keypair`, as the `generate` for SIDH calls it. -/
def generateSidhKeyPair : Crypto (Bytes × Bytes) := do
  let draw ← nextDraw
  fromOutcome (lib.sidhGenerateKeypair draw)

/-- The loop of `generate(type, count)`: `count` new pairs of keys of one system. Each round adds the new keys
at the end of their lists. -/
def generateLoop (newKeypair : Crypto (Bytes × Bytes)) (cryptoType : SystemNr) :
    ℕ → MultikeysPAIR → Crypto MultikeysPAIR
  | 0, pair => pure pair
  | i + 1, pair => do
    let keypair ← newKeypair
    generateLoop newKeypair cryptoType i
      (pair.addPublicAndPRIVATE cryptoType keypair.2 keypair.1)

/-- The `switch` of `generate(type, count)`: how to generate one pair of keys of a system. Systems that keys
are not made of are refused with an exception. -/
def newKeypair : CryptoSystemType → Crypto (Bytes × Bytes)
  | .x25519 => generateX25519KeyPair lib
  | .ed25519 => generateEd25519KeyPair lib
  | .ntruEES439EP1 => generateNrtuEncryptKeyPair lib
  | .ntruSign =>
    if lib.enableNTRU then generateNrtuSignKeyPair lib
    else raise (.invalidArgumentInVersion "SIDH (generate) not enabled")
  | .sidh =>
    if lib.enableSIDH then generateSidhKeyPair lib
    else raise (.invalidArgumentInVersion "SIDH (generate) not enabled")
  | type => raise (.runtimeError ("Trying to generate unsupported key type:" ++ type.toName))

/-- `generate(t_crypto_system_type, int count)`. For no keys at all nothing is done, and the cache stays. -/
def generateType (pair : MultikeysPAIR) (cryptoSystemType : CryptoSystemType) (count : ℕ) :
    Crypto MultikeysPAIR := do
  if count = 0 then
    return pair
  let pair ← generateLoop (newKeypair lib cryptoSystemType) cryptoSystemType.nr count pair
  let pair := { pair with pub := { pair.pub with
    toMultiCryptoStrings := pair.pub.setHashDirty } }
  -- only printed, but it can throw
  let _ ← pair.pub.serializeBin
  return pair

/-- One round of the loop of `generate(cryptolists_count, will_asymkex)`. Without `will_asymkex` the systems
of a key exchange are left out. -/
def generateSystem (cryptolistsCount : CryptoSystemCount) (willAsymkex : Bool) (pair : MultikeysPAIR)
    (sys : SystemNr) : Crypto MultikeysPAIR :=
  match CryptoSystemType.ofInt sys with
  | none => pure pair
  | some sysEnum => do
    if cryptolistsCount sys = 0 then
      return pair
    if willAsymkex then
      generateType lib pair sysEnum (cryptolistsCount sys)
    else
      let asymkex ← fromExcept sysEnum.isAsymkex
      if asymkex then
        return pair
      generateType lib pair sysEnum (cryptolistsCount sys)

/-- `generate(t_crypto_system_count, bool will_asymkex)`. The systems are gone through in the order of their
numbers. -/
def generate (pair : MultikeysPAIR) (cryptolistsCount : CryptoSystemCount) (willAsymkex : Bool) :
    Crypto MultikeysPAIR :=
  (List.finRange systemCount).foldlM (generateSystem lib cryptolistsCount willAsymkex) pair

/-- `generate()`: the default set of keys. -/
def generateDefault (pair : MultikeysPAIR) : Crypto MultikeysPAIR := do
  let pair ← generateType lib pair .x25519 1
  let pair ← generateType lib pair .ntruEES439EP1 1
  let pair ← generateType lib pair .sidh 1
  return { pair with pub := { pair.pub with toMultiCryptoStrings := pair.pub.setHashDirty } }

end MultikeysPAIR

end Galaxy42
