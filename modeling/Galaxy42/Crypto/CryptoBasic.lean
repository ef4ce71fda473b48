import Galaxy42.Exceptions
import Galaxy42.Lib.XorSum

/-!
# Basic cryptography

The libraries under the program (libsodium through its wrapper `sodiumpp`, and the optional NTRU and
SIDH libraries) are not part of the sources. `CryptoLib` lists what the program calls of them, and the
build options that switch the optional ones on; every definition takes it as a parameter. What the
program relies on about these functions is a hypothesis of the theorem that needs it.

Functions that draw random octets run over the number of draws made so far, and hand it to the
library, so that a run is a function of what was drawn. Two parties of a protocol have a counter each.

The kinds of keys are the enumeration of the sources, where some enumerators are no kinds of keys but
reserve numbers. Three conversions are made of them: to an index into arrays (`nr`), to a letter that is
written in front of the keys of a system (`toID`), and back from that letter (`fromID`). Systems without
keys have no letter, which is an exception that many functions may throw. The two conversions of letters
undo each other where they succeed (`fromID_of_toID`, `toID_of_fromID`).

A hash of the program is the generic hash of libsodium with an output of 64 octets, as a `Block`, so that
the exclusive or of hashes is a sum. `CryptoLib.sample` is a library to run examples on; it keeps nothing
secret, but does all that is asked of a library.
-/

namespace Galaxy42

open Toolkit Program

/-- `Hash1_size()`, in octets. -/
def hash1Size : ℕ := 64

instance : NeZero hash1Size := ⟨by decide⟩

/-- The octets of a shared secret of SIDHp751: two elements of a 768-bit field. -/
def sidhSharedSecretSize : ℕ := 192

/-- `PASS_N * sizeof(int64_t)`: the octets of a key or a signature of the PASS signature library. -/
def passSize : ℕ := 6152

/-- `HASH_BYTES` of the PASS signature library. -/
def passHashSize : ℕ := 64

/-- What the program uses of the cryptographic libraries it is built with. Pairs of keys are private
key first. -/
structure CryptoLib where
  /-- `ENABLE_CRYPTO_NTRU` -/
  enableNTRU : Bool
  /-- `ENABLE_CRYPTO_SIDH` -/
  enableSIDH : Bool
  /-- `crypto_generichash` with an output of 64 octets and no key -/
  genericHash : Bytes → Block hash1Size
  /-- `sodiumpp::randombytes_locked(len)`, at the given draw -/
  randomBytes : (draw len : ℕ) → Block len
  /-- `sodiumpp::key_agreement_locked(PRV, pub)` -/
  keyAgreement : (PRV pub : Bytes) → Except Exn Bytes
  /-- `sodiumpp::generate_pubkey_from_privkey` -/
  generatePubkeyFromPrivkey : (PRV : Bytes) → Except Exn Bytes
  /-- `sodiumpp::crypto_sign_keypair`, at the given draw -/
  signKeypair : (draw : ℕ) → Bytes × Bytes
  /-- `sodiumpp::crypto_sign_detached(msg, PRV)` -/
  signDetached : (msg PRV : Bytes) → Except Exn Bytes
  /-- `sodiumpp::crypto_sign_verify_detached(sign, msg, pub)` -/
  signVerifyDetached : (sign msg pub : Bytes) → Except Exn Unit
  /-- The nonce of the `sodiumpp` boxers for the given parity, after `count` uses. There is none once
  its sequential part is used up. -/
  nonceAt : (odd : Bool) → (count : ℕ) → Except Exn Bytes
  /-- Boxing with a shared key, `crypto_secretbox` -/
  secretbox : (key nonce msg : Bytes) → Except Exn Bytes
  /-- Unboxing with a shared key, `crypto_secretbox_open` -/
  secretboxOpen : (key nonce cipher : Bytes) → Except Exn Bytes
  /-- `ntrupp::generate_encrypt_keypair`, at the given draw -/
  ntruGenerateEncryptKeypair : (draw : ℕ) → Except (Fault Exn) (Bytes × Bytes)
  /-- `ntru_crypto_ntru_encrypt`, at the given draw. The length of the output is a `uint16_t`, and
  stays zero on an error. -/
  ntruEncrypt : (draw : ℕ) → (plain pub : Bytes) → {cipher : Bytes // cipher.length < 2 ^ 16}
  /-- `ntru_crypto_ntru_decrypt`. The length of the output is a `uint16_t`, and stays zero on an
  error. -/
  ntruDecrypt : (cipher PRV : Bytes) → {plain : Bytes // plain.length < 2 ^ 16}
  /-- `ntt_setup`, which returns -1 on a failure -/
  nttSetup : ℤ
  /-- `gen_key` and `gen_pubkey` of the PASS signature library, at the given draw -/
  passKeypair : (draw : ℕ) → Block passSize × Block passSize
  /-- `::sign` of the PASS signature library, at the given draw: the signature, and its hash -/
  passSign : (draw : ℕ) → (PRV msg : Bytes) → Block passSize × Block passHashSize
  /-- `::verify(hash, sign, pub, msg)` of the PASS signature library -/
  passVerify : (hash sign pub msg : Bytes) → Bool
  /-- `sidhpp::generate_keypair`, at the given draw -/
  sidhGenerateKeypair : (draw : ℕ) → Except (Fault Exn) (Bytes × Bytes)
  /-- `SecretAgreement_A(PRV, pub)` -/
  secretAgreementA : (PRV pub : Bytes) → Except Exn (Block sidhSharedSecretSize)
  /-- `SecretAgreement_B(PRV, pub)` -/
  secretAgreementB : (PRV pub : Bytes) → Except Exn (Block sidhSharedSecretSize)

/-- A function that draws random octets: a program over the number of draws made so far. -/
abbrev Crypto (α : Type) := Program Exn ℕ α

/-- Make the next draw. -/
def nextDraw : Crypto ℕ := do
  let draw ← get
  set (draw + 1)
  return draw

/-! ### Strings -/

section Strings

variable {σ : Type}

/-- `binary_string_xor` -/
def binaryStringXor (str1 str2 : Bytes) : Program Exn σ Bytes := do
  checkThat (str1.length = str2.length) (.runtimeError
    s!"Can not execute function binary_string_xor because different size: {str1.length} vs {str2.length}")
  return List.zipWith (· ^^^ ·) str1 str2

/-- `substr(const locked_string &, size_t len)`, which asserts that it really shortens the string. -/
def substr (str : Bytes) (len : ℕ) : Program Exn σ Bytes := do
  checkThat (¬ len < 1) (.runtimeError s!"Invalid substring of len={len}")
  assertThat (len < str.length)
  return str.take len

/-- `std::string::substr(pos)`, and with a count the characters after it. -/
def stringSubstr (str : Bytes) (pos : ℕ) : Program Exn σ Bytes := do
  checkThat (pos ≤ str.length) .outOfRange
  return str.drop pos

/-- `std::vector::at` -/
def vectorAt {τ : Type} (xs : List τ) (i : ℕ) : Program Exn σ τ :=
  match xs[i]? with
  | some x => pure x
  | none => raise .outOfRange

@[simp] theorem binaryStringXor_octets {n : ℕ} (a b : Block n) (s : σ) :
    binaryStringXor a.octets b.octets s = .ok (a + b).octets s := by
  simp [binaryStringXor, bind_apply, checkThat_apply, Block.octets_add]

theorem substr_eq_ok {str : Bytes} {len : ℕ} (hpos : 0 < len) (h : len < str.length) (s : σ) :
    substr str len s = .ok (str.take len) s := by
  simp [substr, bind_apply, checkThat_apply, assertThat_apply, h, Nat.pos_iff_ne_zero.mp hpos]

theorem noAbort_binaryStringXor (str1 str2 : Bytes) :
    NoAbort (binaryStringXor str1 str2 : Program Exn σ Bytes) :=
  .bind (.checkThat _ _) fun _ => .pure _

theorem noAbort_stringSubstr (str : Bytes) (pos : ℕ) :
    NoAbort (stringSubstr str pos : Program Exn σ Bytes) :=
  .bind (.checkThat _ _) fun _ => .pure _

theorem noAbort_vectorAt {τ : Type} (xs : List τ) (i : ℕ) :
    NoAbort (vectorAt xs i : Program Exn σ τ) := by
  unfold vectorAt
  split
  · exact .pure _
  · exact .raise _

@[simp] theorem vectorAt_eq_ok_iff {τ : Type} {xs : List τ} {i : ℕ} {x : τ} {s s' : σ} :
    vectorAt xs i s = .ok x s' ↔ xs[i]? = some x ∧ s = s' := by
  unfold vectorAt
  cases xs[i]? <;> simp

end Strings

/-! ### Hashes -/

namespace CryptoLib

variable (lib : CryptoLib)

/-- `Hash1` -/
def hash1 (data : Bytes) : Bytes :=
  (lib.genericHash data).octets

/-- `Hash1_PRV`: the same function, on strings in locked memory. -/
def hash1PRV (data : Bytes) : Bytes :=
  (lib.genericHash data).octets

@[simp] theorem length_hash1 (data : Bytes) : (lib.hash1 data).length = 64 :=
  Block.length_octets _

@[simp] theorem length_hash1PRV (data : Bytes) : (lib.hash1PRV data).length = 64 :=
  Block.length_octets _

end CryptoLib

/-- A library that keeps nothing secret, to run examples on. A public key is its private key, boxing
and encrypting only pad, and the hash is the first octets of what is hashed. -/
def CryptoLib.sample : CryptoLib where
  enableNTRU := true
  enableSIDH := false
  genericHash data := ⟨(data ++ List.replicate 64 0).take 64, by simp [hash1Size]⟩
  randomBytes draw len := ⟨List.replicate len (UInt8.ofNat draw), List.length_replicate⟩
  keyAgreement PRV pub := .ok (List.zipWith (· ^^^ ·) PRV pub)
  generatePubkeyFromPrivkey PRV := .ok PRV
  signKeypair draw := ([UInt8.ofNat draw], [UInt8.ofNat draw])
  signDetached msg PRV := .ok (PRV ++ msg)
  signVerifyDetached sign msg pub :=
    if sign = pub ++ msg then .ok () else .error (.runtimeError "bad signature")
  nonceAt odd count := .ok ((if odd then 1 else 0) :: List.replicate count 0)
  secretbox _ _ msg := .ok msg
  secretboxOpen _ _ cipher := .ok cipher
  ntruGenerateEncryptKeypair draw :=
    .ok (List.replicate 659 (UInt8.ofNat draw), List.replicate 609 (UInt8.ofNat draw))
  ntruEncrypt _ plain _ := ⟨plain.take 65 ++ List.replicate 539 0, by
    rw [List.length_append, List.length_take, List.length_replicate]
    omega⟩
  ntruDecrypt cipher _ := ⟨cipher.take 65, by
    rw [List.length_take]
    omega⟩
  nttSetup := 0
  passKeypair draw :=
    (⟨List.replicate passSize (UInt8.ofNat draw), List.length_replicate⟩,
      ⟨List.replicate passSize (UInt8.ofNat draw), List.length_replicate⟩)
  passSign _ _ _ := (0, 0)
  passVerify _ _ _ _ := true
  sidhGenerateKeypair _ := .error .abort
  secretAgreementA _ _ := .ok 0
  secretAgreementB _ _ := .ok 0

/-! ### Key systems -/

/-- `t_crypto_system_type`: the kinds of keys, and some other things with a number among them. -/
inductive CryptoSystemType where
  | invalid
  | x25519
  | ed25519
  | ntruEES439EP1
  | sidh
  | geportTodo
  | symhashTodo
  | ntruSign
  | endNormal
  | multikeyPub
  | multikeyPrivate
  | multisign
  | endAll
  deriving DecidableEq, Repr

/-- `e_crypto_system_type_END`: the size of the arrays indexed by a key system. -/
def systemCount : ℕ := 32

/-- An index into the arrays that have one element for each key system. -/
abbrev SystemNr := Fin systemCount

namespace CryptoSystemType

/-- The number of an enumerator. -/
def value : CryptoSystemType → ℕ
  | invalid => 0
  | x25519 => 5
  | ed25519 => 6
  | ntruEES439EP1 => 7
  | sidh => 8
  | geportTodo => 9
  | symhashTodo => 10
  | ntruSign => 11
  | endNormal => 12
  | multikeyPub => 29
  | multikeyPrivate => 30
  | multisign => 31
  | endAll => 32

/-- `int_to_enum<t_crypto_system_type>(val, true)`, without a value where it throws
`expected_not_found`. -/
def ofInt : ℕ → Option CryptoSystemType
  | 0 => some invalid
  | 5 => some x25519
  | 6 => some ed25519
  | 7 => some ntruEES439EP1
  | 8 => some sidh
  | 9 => some geportTodo
  | 10 => some symhashTodo
  | 11 => some ntruSign
  | 12 => some endNormal
  | 29 => some multikeyPub
  | 30 => some multikeyPrivate
  | 31 => some multisign
  | 32 => some endAll
  | _ => none

/-- The enumerator as an index. `endAll` is the size of the arrays, and no caller indexes with it. -/
def nr (type : CryptoSystemType) : SystemNr :=
  ⟨type.value % systemCount, Nat.mod_lt _ (by decide)⟩

/-- `t_crypto_system_type_to_name`. An enumerator without a name gets a text with its number. -/
def toName : CryptoSystemType → String
  | x25519 => "X25519"
  | ed25519 => "Ed25519"
  | ntruEES439EP1 => "NTRU-EES439EP1"
  | ntruSign => "NTRU-sign"
  | sidh => "SIDH-p751"
  | geportTodo => "geport_todo"
  | symhashTodo => "symhash_todo"
  | multikeyPub => "multikey-pub"
  | multikeyPrivate => "multikey-PRIVATE"
  | type => s!"(Invalid enum type={type.value})"

/-- A character of the source, as the signed byte it is. -/
def charCode (c : Char) : Int8 :=
  Int8.ofNat c.toNat

/-- `t_crypto_system_type_to_ID`, on the number of a key system. The letter stands for the system in
everything that is written. -/
def toID (val : ℕ) : Except Exn Int8 :=
  match ofInt val with
  | some x25519 => .ok (charCode 'x')
  | some ed25519 => .ok (charCode 'e')
  | some ntruEES439EP1 => .ok (charCode 't')
  | some ntruSign => .ok (charCode 'r')
  | some sidh => .ok (charCode 's')
  | some geportTodo => .ok (charCode 'g')
  | _ => .error (.invalidArgument
      s!"[t_crypto_system_type_to_ID] Unknown crypto type (val == {val})")

/-- `t_crypto_system_type_from_ID`. A letter that stands for nothing is refused. -/
def fromID (name : Int8) : Except Exn CryptoSystemType :=
  if name = charCode 'x' then .ok x25519
  else if name = charCode 'e' then .ok ed25519
  else if name = charCode 't' then .ok ntruEES439EP1
  else if name = charCode 'r' then .ok ntruSign
  else if name = charCode 's' then .ok sidh
  else if name = charCode 'g' then .ok geportTodo
  else .error (.invalidArgument ("[t_crypto_system_type_from_ID] Unknown crypto type (name == " ++
    String.singleton (Char.ofNat name.toUInt8.toNat) ++ ")"))

/-- `t_crypto_system_type_is_asymkex` -/
def isAsymkex (sys : CryptoSystemType) : Except Exn Bool :=
  match sys with
  | x25519 => .ok false
  | sidh => .ok false
  | ntruEES439EP1 => .ok true
  | _ => .error (.invalidArgument ("[t_crypto_system_type_is_asymkex] Unknown crypto type (name == " ++
    sys.toName ++ ")"))

/-- Only the number of an enumerator is converted to it. -/
theorem value_of_ofInt {val : ℕ} {type : CryptoSystemType} (h : ofInt val = some type) :
    type.value = val := by
  unfold ofInt at h
  split at h <;> cases h <;> rfl

/-- The enumerator of an index has that index. -/
theorem nr_of_ofInt {sys : SystemNr} {type : CryptoSystemType} (h : ofInt sys = some type) :
    type.nr = sys := by
  have hval : type.value % systemCount = sys := by
    rw [value_of_ofInt h]
    exact Nat.mod_eq_of_lt sys.isLt
  exact Fin.ext hval

/-- A letter read back denotes the system it was written for. -/
theorem fromID_of_toID {val : ℕ} {ID : Int8} (h : toID val = .ok ID) :
    ∃ type, ofInt val = some type ∧ fromID ID = .ok type := by
  unfold toID at h
  split at h <;> cases h <;> exact ⟨_, by assumption, by decide⟩

/-- A letter that is read is the one that is written for its system. -/
theorem toID_of_fromID {name : Int8} {type : CryptoSystemType} (h : fromID name = .ok type) :
    toID type.nr = .ok name := by
  unfold fromID at h
  split_ifs at h with h1 h2 h3 h4 h5 h6 <;> cases h
  · rw [h1]; rfl
  · rw [h2]; rfl
  · rw [h3]; rfl
  · rw [h4]; rfl
  · rw [h5]; rfl
  · rw [h6]; rfl

end CryptoSystemType

/-- `t_crypto_use`: what the strings of a collection are used for. -/
inductive CryptoUse where
  /-- A private key. -/
  | secret
  /-- A public key. -/
  | «open»
  /-- A signature. -/
  | signature
  /-- A fingerprint. -/
  | fingerprint
  deriving DecidableEq, Repr

/-- The octet that marks a use. -/
def CryptoUse.value : CryptoUse → UInt8
  | secret => 83
  | «open» => 111
  | signature => 110
  | fingerprint => 102

/-- `t_crypto_system_count`: how many keys to have of each system. -/
abbrev CryptoSystemCount := SystemNr → ℕ

end Galaxy42
