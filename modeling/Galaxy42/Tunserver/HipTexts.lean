import Galaxy42.Crypto.HashCache
import Galaxy42.Tunserver.Invitations
import Galaxy42.Utils.HexCodec

/-!
# The forms of an address

The address of a public key is made in binary, in hexadecimal, and in groups of four digits with colons
between them, each by a function of `c_multikeys_pub`. A hip is made of the last form, and written in the
same two ways by `get_hip_as_string`, which has a loop of its own.

All forms are those of one address, for every hash that the cache of a public key can hold (`formsAgree`).
The hash of a set with keys of a system without a letter cannot be made; then no form can.

Which hashes the cache can hold is not assumed, but follows from the life of the object: it is empty at
first, setters leave it or empty it, and `get_hash` puts a whole hash there (`HashSized`). So the result is about
every object that any sequence of operations leads to, also when the cached hash is one of other keys.

The two loops put their colons in different places. One of them writes a colon in front of a character whose
index is divided by four, unless it is the first; the other one writes it behind the character before that,
unless that is the last. An induction over the characters shows that they write the same (`hipFrom_true`), and
the text is the one of an IPv6 address, which `c_haship_addr` is then read from with the functions of the
system, a parameter here (`IpLib`).
-/

namespace Galaxy42

open Toolkit Program TrivialSerialize

variable {σ : Type}

/-! ### Writing a hip -/

/-- The loop of `get_hip_as_string`, from the character with some index on. -/
def hipFrom (withDots : Bool) (i : ℕ) : Bytes → Bytes
  | [] => []
  | c :: hip =>
    if withDots ∧ i ≠ 0 ∧ i % 4 = 0 then 58 :: c :: hipFrom withDots (i + 1) hip
    else c :: hipFrom withDots (i + 1) hip

/-- `get_hip_as_string` -/
def HashipAddr.getHipAsString (addr : HashipAddr) (withDots : Bool) : Except Exn Bytes := do
  let hip ← stringAsHex addr.octets
  return hipFrom withDots 0 hip

private theorem hipFrom_false (i : ℕ) (hip : Bytes) : hipFrom false i hip = hip := by
  induction hip generalizing i with
  | nil => rfl
  | cons c hip ih =>
    rw [hipFrom, if_neg fun h => Bool.false_ne_true h.1, ih]

/-- A colon in front of a character of the one loop is one behind the character before it in the other. -/
private theorem hipFrom_true (i : ℕ) {hip : Bytes} (h : hip ≠ []) :
    hipFrom true i hip =
      (if i ≠ 0 ∧ i % 4 = 0 then [58] else []) ++ MultikeysPub.hexdotFrom i hip := by
  induction hip generalizing i with
  | nil => exact absurd rfl h
  | cons c hip ih =>
    have hrest : hipFrom true (i + 1) hip = (if hip ≠ [] ∧ (i + 1) % 4 = 0 then [58] else []) ++
        MultikeysPub.hexdotFrom (i + 1) hip := by
      by_cases hlast : hip = []
      · simp [hlast, hipFrom, MultikeysPub.hexdotFrom]
      · simp [ih (i + 1) hlast, hlast]
    have hfirst : (i ≠ 0 ∧ hip ≠ [] ∧ (i + 1) % 4 = 0) ↔ hip ≠ [] ∧ (i + 1) % 4 = 0 := by
      constructor
      · exact fun h => h.2
      · rintro ⟨hlast, hmod⟩
        refine ⟨?_, hlast, hmod⟩
        rintro rfl
        exact absurd hmod (by decide)
    rw [hipFrom, MultikeysPub.hexdotFrom, hrest]
    simp only [hfirst]
    split_ifs <;> simp_all

private theorem HashipAddr.getHipAsString_false (addr : HashipAddr) :
    addr.getHipAsString false = .ok (hexString addr.octets) := by
  rw [getHipAsString, bindExcept_of_ok (stringAsHex_eq _), hipFrom_false]
  rfl

private theorem HashipAddr.getHipAsString_true (addr : HashipAddr) :
    addr.getHipAsString true = .ok (ipv6Text addr) := by
  have hne : hexString addr.octets ≠ [] := by
    refine List.ne_nil_of_length_pos ?_
    rw [length_hexString, addr.length_octets]
    decide
  rw [getHipAsString, bindExcept_of_ok (stringAsHex_eq _), hipFrom_true 0 hne]
  rfl

/-! ### The hash of a public key -/

namespace MultiCryptoStrings

/-- Nothing is cached, or a whole hash. -/
def HashSized (m : MultiCryptoStrings) : Prop :=
  m.hashCached = [] ∨ m.hashCached.length = hash1Size

/-- `get_hash` returns a whole hash and keeps it, or throws and changes nothing. -/
theorem getHash_of_hashSized (lib : CryptoLib) {m : MultiCryptoStrings} (hm : m.HashSized) :
    (∃ hash m', getHash lib m = .ok hash m' ∧ hash.length = hash1Size ∧ m'.HashSized) ∨
      ∃ e, getHash lib m = .error e m := by
  have hlength : ∀ data, (lib.hash1 data).length = hash1Size := fun data => CryptoLib.length_hash1 lib data
  by_cases hempty : m.hashCached = []
  · obtain ⟨r, hserial⟩ := exists_fingerprintSerial_eq lib m
    rw [getHash_of_empty hempty hserial]
    cases r with
    | ok serial => exact .inl ⟨_, _, rfl, hlength serial, .inr (hlength serial)⟩
    | error e => exact .inr ⟨e, rfl⟩
  · have hsized := hm.resolve_left hempty
    exact .inl ⟨_, _, getHash_of_cached lib hempty, hsized, .inr hsized⟩

private theorem hashSized_step {lib : CryptoLib} {s s' : ℕ × MultiCryptoStrings} {op : KeyOp}
    (hs : s.2.HashSized) (h : op.Step lib s s') : s'.2.HashSized := by
  by_cases hop : op = .getHash
  · subst hop
    have hfinal : s'.2 = finalState (getHash lib) s.2 := by
      rcases h with h | ⟨e, h⟩
      · rw [← finalState_of_ok h]
        exact finalState_onSnd_snd.trans (finalState_bind_pure fun _ => ())
      · rw [← finalState_of_error h]
        exact finalState_onSnd_snd.trans (finalState_bind_pure fun _ => ())
    rw [hfinal]
    rcases getHash_of_hashSized lib hs with ⟨hash, m', hget, -, hm'⟩ | ⟨e, hget⟩
    · rwa [finalState_of_ok hget]
    · rwa [finalState_of_error hget]
  · obtain ⟨-, -, hemptied, hkept⟩ := stepped_of_ne_getHash hop h
    by_cases hempties : op.EmptiesCache lib s
    · exact .inl (hemptied hempties)
    · rw [HashSized, hkept hempties]
      exact hs

/-- The cache of every object is empty, or holds a whole hash. -/
private theorem hashSized_of_steps {lib : CryptoLib} {cryptoUse : CryptoUse} {draw : ℕ}
    {trace : List ((ℕ × MultiCryptoStrings) × KeyOp)} {s' : ℕ × MultiCryptoStrings}
    (hrun : Steps (KeyOp.Step lib) (draw, new cryptoUse) trace s') : s'.2.HashSized :=
  (Steps.invariant (I := fun s => s.2.HashSized) (H := fun _ _ => True)
    (fun _ _ _ hs _ hstep => hashSized_step hs hstep) hrun (.inl rfl) fun _ _ => trivial).2

end MultiCryptoStrings

/-! ### All forms of one address -/

/-- The forms of the address of a public key are forms of one address, which begins with the prefix of the
key. The hip that is read from the text with colons is the address again. -/
structure FormsAgree (lib : CryptoLib) (ip : IpLib) (pub : MultikeysPub) (addr : HashipAddr) (s : σ) :
    Prop where
  bin : pub.getIpv6StringBin lib s = .ok addr.octets s
  prefixBin : ∃ prefixBin, stringAsBin pub.ipv6Prefix = .ok prefixBin ∧ prefixBin <+: addr.octets
  hex : ∃ hexStr, pub.getIpv6StringHex lib s = .ok hexStr s ∧ addr.getHipAsString false = .ok hexStr ∧
    pub.ipv6Prefix <+: hexStr
  hexdot : ∃ hexdotStr, pub.getIpv6StringHexdot lib s = .ok hexdotStr s ∧
    addr.getHipAsString true = .ok hexdotStr ∧ HashipAddr.ofText ip hexdotStr = .ok addr

/-- A prefix of at most 16 octets and a whole hash make an address. -/
private theorem MultikeysPub.exists_formsAgree (lib : CryptoLib) (ip : IpLib) {pub : MultikeysPub}
    {hash : Bytes}
    {s : σ} (hhash : pub.readHash lib s = .ok hash s) (hlength : hash.length = hash1Size)
    (heven : Even pub.ipv6Prefix.length) (hsize : pub.ipv6Prefix.length ≤ 32)
    (hdigits : ∀ c ∈ pub.ipv6Prefix, IsHexchar c) : ∃ addr, FormsAgree lib ip pub addr s := by
  obtain ⟨prefixBin, hprefix, hprefixLength, -, hprefixHex⟩ := exists_stringAsBin_of_even heven hdigits
  have hle : prefixBin.length ≤ 16 := by omega
  have haddrLength : (prefixBin ++ hash.take (16 - prefixBin.length)).length = 16 := by
    rw [List.length_append, List.length_take, hlength, hash1Size]
    omega
  let addr : HashipAddr := ⟨prefixBin ++ hash.take (16 - prefixBin.length), haddrLength⟩
  have hbin : pub.getIpv6StringBin lib s = .ok addr.octets s := by
    rw [getIpv6StringBin, bind_of_ok hhash, hprefix]
    change EStateM.Result.ok (prefixBin ++ if prefixBin.length ≤ 16 then _ else _) s = _
    rw [if_pos hle]
    rfl
  have hhex : pub.getIpv6StringHex lib s = .ok (hexString addr.octets) s := by
    rw [getIpv6StringHex, bind_of_ok hbin, stringAsHex_eq]
    rfl
  have hhexdot : pub.getIpv6StringHexdot lib s = .ok (ipv6Text addr) s := by
    rw [getIpv6StringHexdot, bind_of_ok hhex]
    rfl
  refine ⟨addr, hbin, ⟨prefixBin, hprefix, List.prefix_append _ _⟩,
    ⟨_, hhex, addr.getHipAsString_false, ?_⟩, ⟨_, hhexdot, addr.getHipAsString_true, ?_⟩⟩
  · rw [← hprefixHex]
    exact ⟨hexString (hash.take (16 - prefixBin.length)), (List.flatMap_append ..).symm⟩
  · rw [HashipAddr.ofText, cStr_ipv6Text, ip.addressV6FromString_ipv6Text]

/-- The forms of the address of every public key with a prefix of up to 32 digits, in pairs, agree. When the
hash of the keys cannot be made there is no address, and no form of one. The hash need not be in the cache;
where one is, it is what all forms are made of. -/
theorem formsAgree (lib : CryptoLib) (ip : IpLib) {draw draw' : ℕ}
    {trace : List ((ℕ × MultiCryptoStrings) × MultiCryptoStrings.KeyOp)} {m : MultiCryptoStrings}
    (hrun : Steps (MultiCryptoStrings.KeyOp.Step lib) (draw, .new .open) trace (draw', m))
    {ipv6Prefix : Bytes} (heven : Even ipv6Prefix.length) (hsize : ipv6Prefix.length ≤ 32)
    (hdigits : ∀ c ∈ ipv6Prefix, IsHexchar c) (s : σ) :
    (∃ addr, FormsAgree lib ip ⟨m, ipv6Prefix⟩ addr s) ∨
      ∃ e, m.readHash lib s = .error (.throw e) s ∧
        MultikeysPub.getIpv6StringBin lib ⟨m, ipv6Prefix⟩ s = .error (.throw e) s ∧
        MultikeysPub.getIpv6StringHex lib ⟨m, ipv6Prefix⟩ s = .error (.throw e) s ∧
        MultikeysPub.getIpv6StringHexdot lib ⟨m, ipv6Prefix⟩ s = .error (.throw e) s := by
  have hsized : m.HashSized := MultiCryptoStrings.hashSized_of_steps hrun
  rcases MultiCryptoStrings.getHash_of_hashSized lib hsized with ⟨hash, m', hget, hlength, -⟩ | ⟨e, hget⟩
  · refine .inl (MultikeysPub.exists_formsAgree lib ip ?_ hlength heven hsize hdigits)
    exact within_eq_ok_iff.mpr ⟨⟨m', hget⟩, rfl⟩
  · have hread : m.readHash lib s = .error e s := by
      rw [MultiCryptoStrings.readHash, within, hget]
    cases e with
    | abort => exact absurd hread (MultiCryptoStrings.noAbort_readHash lib m s s)
    | throw e =>
      have hbin : MultikeysPub.getIpv6StringBin lib ⟨m, ipv6Prefix⟩ s = .error (.throw e) s :=
        bind_of_error hread
      have hhex : MultikeysPub.getIpv6StringHex lib ⟨m, ipv6Prefix⟩ s = .error (.throw e) s :=
        bind_of_error hbin
      exact .inr ⟨e, hread, hbin, hhex, bind_of_error hhex⟩

/-- A public key with keys of two systems, and the prefix of the network. -/
theorem formsAgree_example :
    let m := ((MultiCryptoStrings.new .open).addKey CryptoSystemType.x25519.nr [1]).addKey
      CryptoSystemType.ed25519.nr [2]
    ∃ addr, FormsAgree CryptoLib.sample sampleIpLib ⟨m, [102, 100, 52, 50]⟩ addr () := by
  intro m
  have hrun : Steps (MultiCryptoStrings.KeyOp.Step CryptoLib.sample) (0, .new .open)
      [((0, .new .open), .addKey CryptoSystemType.x25519.nr [1]),
        ((0, (MultiCryptoStrings.new .open).addKey CryptoSystemType.x25519.nr [1]),
          .addKey CryptoSystemType.ed25519.nr [2])] (0, m) :=
    .snoc (.snoc (.nil _) (.inl rfl)) (.inl rfl)
  refine (formsAgree CryptoLib.sample sampleIpLib hrun (by decide) (by decide)
    (by decide +kernel) ()).resolve_right ?_
  rintro ⟨e, hread, -⟩
  have hletters : m.HasLetters :=
    ((MultiCryptoStrings.hasLetters_new .open).addKey rfl [1]).addKey rfl [2]
  have hhash : m.readHash CryptoLib.sample () = .ok _ () :=
    (MultiCryptoStrings.readHash_eq_ok_iff (.inl rfl)).mpr ⟨hletters, rfl, rfl⟩
  exact absurd (hread.symm.trans hhash) (by simp)

end Galaxy42
