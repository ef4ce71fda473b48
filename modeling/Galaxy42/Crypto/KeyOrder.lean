import Galaxy42.Crypto.KeySyntax

/-!
# The order of keys

The hash of a set of keys, its virtual address and its place among other sets are calculated from the
exclusive ors of the hashes of the keys in each system, so the order in which keys were added does not
matter. Neither does a way through `serialize_bin` and `load_from_bin`, whatever it does to the object
otherwise: keys that are longer than the parser takes are not loaded at all, and keys that are loaded are
the ones that were written (`cryptolistsGeneral_of_reloaded`).

The prefix of the virtual address is not a part of the data. A new object has its own, which is the one of
the node only when the node has not been given another (`not_addr_of_reloaded`).

That two objects describe their keys alike is one structure (`DescribesAlike`), whose fields are the hash, the
comparison with any third object from both sides, and the virtual address for any prefix. All of them follow
from the first one, so that only the hash has to be compared. It is compared as a program: two sets for which
it cannot be calculated throw the same exception, which is the one about the first system without a letter.
-/

namespace Galaxy42

open Toolkit Program TrivialSerialize

variable {σ : Type}

namespace MultiCryptoStrings

/-! ### The hash without a cache -/

variable {lib : CryptoLib} {m m' : MultiCryptoStrings}

/-- The hash that is not cached is calculated from the string that is hashed, and fails as that does. -/
private theorem readHash_setHashDirty_eq (lib : CryptoLib) (m : MultiCryptoStrings) :
    (m.setHashDirty.readHash lib : Program Exn σ Bytes) = lib.hash1 <$> m.fingerprintSerial lib := by
  obtain ⟨r, hserial⟩ := exists_fingerprintSerial_eq lib m
  have hget := @getHash_of_empty lib m.setHashDirty r rfl hserial
  funext s
  rw [hserial, readHash, within, hget]
  cases r <;> rfl

/-- The same keys in each system, in any order. It is a permutation of each of the lists, so a key that occurs
twice stays there twice. -/
def Reordered (m m' : MultiCryptoStrings) : Prop :=
  ∀ sys, (m.cryptolistsGeneral sys).Perm (m'.cryptolistsGeneral sys)

/-- What `load_from_bin` makes of a new object with what `serialize_bin` returns. The new object is made for
the same use. -/
def Reloaded (m m' : MultiCryptoStrings) : Prop :=
  ∃ out, m.serializeBin () = .ok out () ∧ loadFromBin out (new m.cryptoUse) = .ok () m'

/-- Two objects without cached hashes say the same about their keys. Caches are set aside here; when they are
valid is the subject of `HashCache`. -/
structure DescribesAlike (lib : CryptoLib) (m m' : MultiCryptoStrings) : Prop where
  /-- `get_hash` -/
  hash : (m.setHashDirty.readHash lib : Program Exn Unit Bytes) = m'.setHashDirty.readHash lib
  /-- `get_ipv6_string_bin`, with the same prefix -/
  addr : ∀ ipv6Prefix, (MultikeysPub.getIpv6StringBin lib ⟨m.setHashDirty, ipv6Prefix⟩ :
    Program Exn Unit Bytes) = MultikeysPub.getIpv6StringBin lib ⟨m'.setHashDirty, ipv6Prefix⟩
  /-- `operator>`, with any set on the other side -/
  greater : ∀ rhs, (m.setHashDirty.greater lib rhs : Program Exn Unit Bool) =
    m'.setHashDirty.greater lib rhs
  /-- `operator>`, with any set on this side -/
  greater_self : ∀ lhs : MultiCryptoStrings, (lhs.greater lib m.setHashDirty : Program Exn Unit Bool) =
    lhs.greater lib m'.setHashDirty

/-- What is said about the keys depends on the hash alone. -/
private theorem DescribesAlike.of_hash
    (h : (m.setHashDirty.readHash lib : Program Exn Unit Bytes) = m'.setHashDirty.readHash lib) :
    m.DescribesAlike lib m' where
  hash := h
  addr ipv6Prefix := by rw [MultikeysPub.getIpv6StringBin, MultikeysPub.getIpv6StringBin, h]
  greater rhs := by rw [MultiCryptoStrings.greater, MultiCryptoStrings.greater, h]
  greater_self lhs := by rw [MultiCryptoStrings.greater, MultiCryptoStrings.greater, h]

/-! ### Keys in another order -/

/-- The exclusive or does not depend on the order. -/
private theorem keyHashes_perm {keys keys' : List Bytes} (h : keys.Perm keys') :
    keyHashes lib keys = keyHashes lib keys' :=
  (h.map lib.genericHash).sum_eq

/-- The string that is hashed is the same for keys in another order, and so is the exception if there is
none. -/
private theorem fingerprintSerial_of_reordered (h : m.Reordered m') :
    (m.fingerprintSerial lib : Program Exn σ Bytes) = m'.fingerprintSerial lib := by
  have hcount : ∀ ix, m.getCountKeysInSystem ix = m'.getCountKeysInSystem ix := fun ix =>
    (h ix).length_eq
  have hused : m.usedSystems = m'.usedSystems := List.filter_congr fun ix _ => by rw [hcount]
  have hpush : pushFingerprint lib m = pushFingerprint lib m' := by
    funext ix
    rw [pushFingerprint, pushFingerprint, hcount, fingerprintAccum_eq, fingerprintAccum_eq,
      keyHashes_perm (h ix)]
  rw [fingerprintSerial, fingerprintSerial, hused, hpush]

private theorem describesAlike_of_reordered (lib : CryptoLib) (h : m.Reordered m') :
    m.DescribesAlike lib m' :=
  .of_hash (by rw [readHash_setHashDirty_eq, readHash_setHashDirty_eq,
    fingerprintSerial_of_reordered h])

/-! ### Keys that were written and loaded -/

/-- Written keys that are accepted are the entries of their tree, whatever their lengths. -/
private theorem entries_of_serializedOctets {t : SerializedSet} (hletters : m.HasLetters)
    (hfit : ∀ sys, KeysFit (m.cryptolistsGeneral sys))
    (h : t.octets m.cryptoUse = m.serializedOctets) :
    t.entries = m.usedSystems.map fun sys => (sys, m.cryptolistsGeneral sys) := by
  obtain ⟨-, -, hall⟩ := SerializedSet.systems_of_serializedOctets hletters hfit h
  have hvalues : List.Forall₂ Eq t.entries
      (m.usedSystems.map fun sys => (sys, m.cryptolistsGeneral sys)) :=
    List.forall₂_map_left_iff.mpr (List.forall₂_map_right_iff.mpr (hall.imp fun _ _ h => h.2))
  rwa [List.forall₂_eq_eq_eq] at hvalues

/-- Keys that were written and loaded are the same, in the same order. -/
theorem cryptolistsGeneral_of_reloaded (h : m.Reloaded m') :
    m'.cryptolistsGeneral = m.cryptolistsGeneral := by
  obtain ⟨out, hout, hload⟩ := h
  obtain ⟨⟨hletters, hfit⟩, rfl, -⟩ := serializeBin_eq_ok_iff.mp hout
  obtain ⟨t, ht, rfl⟩ := loadFromBin_eq_ok_iff.mp hload
  have hentries := entries_of_serializedOctets hletters hfit ht.symm
  calc loadEntries (fun _ => []) t.entries
      = loadEntries (fun _ => []) (m.usedSystems.map fun sys => (sys, m.cryptolistsGeneral sys)) := by
        rw [hentries]
    _ = m.cryptolistsGeneral := loadEntries_usedSystems m

private theorem describesAlike_of_reloaded (lib : CryptoLib) (h : m.Reloaded m') : m.DescribesAlike lib m' :=
  describesAlike_of_reordered lib fun sys => by rw [cryptolistsGeneral_of_reloaded h]

/-- A set whose systems have letters is written and loaded if its keys are not too long. -/
private theorem exists_reloaded (hletters : m.HasLetters)
    (hcount : ∀ sys, m.getCountKeysInSystem sys < uvarintLimit)
    (hsane : ∀ sys, ∀ key ∈ m.cryptolistsGeneral sys, key.length ≤ saneMaxSizeForString) :
    ∃ m', m.Reloaded m' := by
  refine ⟨m.setHashDirty, m.serializedOctets, serializeBin_eq_ok_iff.mpr ⟨⟨hletters, fun sys => ?_⟩,
    rfl, rfl⟩, loadFromBin_serializedOctets hletters fun sys => ⟨hcount sys, hsane sys⟩⟩
  exact ⟨hcount sys, fun key hkey => lt_uvarintLimit_of_le_sane (hsane sys key hkey)⟩

/-- Neither the order of the keys of each system matters, nor a way through `serialize_bin` and
`load_from_bin`, which is open to sets with letters and keys that are not too long. The prefix of the address
is not written, and is left to whoever loads the keys; so the addresses agree for each prefix that both are
given. -/
theorem describesAlike (lib : CryptoLib) (m : MultiCryptoStrings) :
    (∀ m', m.Reordered m' ∨ m.Reloaded m' → m.DescribesAlike lib m') ∧
      (m.HasLetters → (∀ sys, m.getCountKeysInSystem sys < uvarintLimit) →
        (∀ sys, ∀ key ∈ m.cryptolistsGeneral sys, key.length ≤ saneMaxSizeForString) →
        ∃ m', m.Reloaded m') :=
  ⟨fun _ h => h.elim (describesAlike_of_reordered lib) (describesAlike_of_reloaded lib),
    exists_reloaded⟩

/-- Two keys of one system. -/
def twoKeys (key key' : Bytes) : MultiCryptoStrings :=
  ((new .open).addKey CryptoSystemType.x25519.nr key).addKey CryptoSystemType.x25519.nr key'

private theorem cryptolistsGeneral_twoKeys (key key' : Bytes) (sys : SystemNr) :
    (twoKeys key key').cryptolistsGeneral sys =
      if sys = CryptoSystemType.x25519.nr then [key, key'] else [] := by
  by_cases hsys : sys = CryptoSystemType.x25519.nr
  · subst hsys
    rw [if_pos rfl]
    rfl
  · simp [twoKeys, addKey, new, hsys]

/-- Two keys in the other order, and two keys that were written and loaded. -/
theorem describesAlike_example :
    (twoKeys [1] [2]).DescribesAlike CryptoLib.sample (twoKeys [2] [1]) ∧
      ∃ m', (twoKeys [1] [2]).Reloaded m' ∧ (twoKeys [1] [2]).DescribesAlike CryptoLib.sample m' := by
  obtain ⟨hsame, hreloaded⟩ := describesAlike CryptoLib.sample (twoKeys [1] [2])
  refine ⟨hsame _ (.inl fun sys => ?_), ?_⟩
  · rw [cryptolistsGeneral_twoKeys, cryptolistsGeneral_twoKeys]
    split
    · exact List.Perm.swap _ _ _
    · exact List.Perm.refl _
  · have hletters : (twoKeys [1] [2]).HasLetters :=
      ((hasLetters_new .open).addKey rfl [1]).addKey rfl [2]
    obtain ⟨m', hm'⟩ := hreloaded hletters (by decide) (by decide)
    exact ⟨m', hm', hsame m' (.inr hm')⟩

end MultiCryptoStrings

/-- A public key with another prefix than the one of new objects is loaded without it. -/
theorem MultikeysPub.not_addr_of_reloaded :
    ¬ ∀ (lib : CryptoLib) (pub pub' : MultikeysPub) (out : Bytes), pub.hashCached = [] →
      pub.serializeBin () = .ok out () → MultikeysPub.ofBin out () = .ok pub' () →
      (pub'.getIpv6StringBin lib : Program Exn Unit Bytes) () = pub.getIpv6StringBin lib () := by
  intro h
  let key : MultikeysPub := { MultikeysPub.new with
    toMultiCryptoStrings := (MultiCryptoStrings.new .open).addKey CryptoSystemType.x25519.nr [1] }
  have hletters : key.HasLetters := (MultiCryptoStrings.hasLetters_new .open).addKey rfl [1]
  have hlists : ∀ sys, key.getCountKeysInSystem sys < uvarintLimit ∧
      ∀ x ∈ key.cryptolistsGeneral sys, x.length ≤ saneMaxSizeForString := by decide
  have hfit : ∀ sys, MultiCryptoStrings.KeysFit (key.cryptolistsGeneral sys) := fun sys =>
    ⟨(hlists sys).1, fun x hx => lt_uvarintLimit_of_le_sane ((hlists sys).2 x hx)⟩
  have hwritten : (key.setIpv6Prefix [102, 100, 52, 51]).serializeBin () =
      .ok key.serializedOctets () :=
    MultiCryptoStrings.serializeBin_eq_ok_iff.mpr ⟨⟨hletters, hfit⟩, rfl, rfl⟩
  have hload : MultikeysPub.ofBin key.serializedOctets () = .ok key () :=
    ofBin_serializedOctets rfl hletters hlists ()
  exact absurd (h CryptoLib.sample _ key _ rfl hwritten hload) (by decide +kernel)

end Galaxy42
