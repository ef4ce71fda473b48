import Galaxy42.Crypto.CryptoBasic
import Galaxy42.Lib.Octets
import Mathlib.Algebra.Group.Nat.Even

/-!
# Hashes of secrets

`Hash2` hashes a hash with all octets negated, and `Hash2_PRV` does it in locked memory. The loop of the
latter goes through the octets, but negates the first one in every round; as a hash has 64 octets, that
octet is in the end what it was, and nothing is negated (`hash2PRV_eq`). So a secret has the hash of a
public string with the same octets only where `Hash1` has a collision (`secretHashesAgree_iff`).

The collision is one between the hash of the string and its negation, two strings of 64 octets that differ in
every bit. Whether there is one for some string cannot be decided here, since `Hash1` is a parameter. For the
empty string it is known what BLAKE2b gives for it, and for its hash, and for the negation of its hash. With a
library that has these three values, the hashes of the empty string do not agree
(`not_secretHashesAgree_empty`).

The loop is kept as a loop, over the positions that the source counts and does not use, because what it does
depends on the number of its rounds being even.
-/

namespace Galaxy42

open Toolkit Program Octets

/-- `Hash2_size()`, in octets. -/
def hash2Size : ℕ := 64

/-- Negate the octet at a position, which `at` looks up. -/
def negateAt {σ : Type} (str : Bytes) (pos : ℕ) : Program Exn σ Bytes := do
  let ch ← vectorAt str pos
  return str.set pos (~~~ch)

namespace CryptoLib

variable {σ : Type} (lib : CryptoLib)

/-- `Hash2` -/
def hash2 (hash : Bytes) : Program Exn σ Bytes := do
  let hashFromHash := (lib.hash1 hash).map fun ch => ~~~ch
  let ret := lib.hash1 hashFromHash
  assertThat (ret.length = hash2Size)
  return ret

/-- `Hash2_PRV`. The position in the loop is not used: it is the first octet that is negated. -/
def hash2PRV (hash : Bytes) : Program Exn σ Bytes := do
  let hashFromHash := lib.hash1PRV hash
  let hashFromHash ←
    (List.range hashFromHash.length).foldlM (fun str _p => negateAt str 0) hashFromHash
  let ret := lib.hash1PRV hashFromHash
  assertThat (ret.length = hash2Size)
  return ret

end CryptoLib

/-! ### What the loop does -/

section Loop

variable {σ : Type} (rest : Bytes)

private theorem negateAt_zero (b : UInt8) (s : σ) :
    negateAt (b :: rest) 0 s = .ok (~~~b :: rest) s := by
  simp [negateAt, vectorAt, bind_apply]

/-- An even number of rounds does nothing. -/
private theorem foldlM_negateAt_zero (ps : List ℕ) :
    ∀ (b : UInt8) (s : σ), ps.foldlM (fun str _p => negateAt str 0) (b :: rest) s =
      .ok ((if Even ps.length then b else ~~~b) :: rest) s := by
  induction ps with
  | nil =>
    intro b s
    rw [List.foldlM_nil, pure_apply, List.length_nil, if_pos Even.zero]
  | cons p ps ih =>
    intro b s
    rw [List.foldlM_cons, bind_of_ok (negateAt_zero rest b s), ih, List.length_cons]
    by_cases heven : Even ps.length
    · rw [if_pos heven, if_neg (by rwa [Nat.even_add_one, not_not])]
    · rw [if_neg heven, if_pos (by rwa [Nat.even_add_one]), UInt8.not_not]

end Loop

namespace CryptoLib

variable {σ : Type} (lib : CryptoLib) (hash : Bytes) (s : σ)

private theorem hash2_eq :
    lib.hash2 hash s = .ok (lib.hash1 ((lib.hash1 hash).map fun ch => ~~~ch)) s := by
  simp [hash2, assertThat_apply, hash2Size]

/-- Nothing is negated in the end. The loop has an even number of rounds, and each of them negates the same
octet. -/
theorem hash2PRV_eq : lib.hash2PRV hash s = .ok (lib.hash1PRV (lib.hash1PRV hash)) s := by
  have hlen := lib.length_hash1PRV hash
  obtain ⟨b, rest, hcons⟩ : ∃ b rest, lib.hash1PRV hash = b :: rest :=
    List.exists_cons_of_ne_nil (List.ne_nil_of_length_pos (by rw [hlen]; decide))
  have hloop := foldlM_negateAt_zero rest (List.range (lib.hash1PRV hash).length) b s
  rw [List.length_range, hlen, if_pos (by decide), ← hcons] at hloop
  rw [hash2PRV, hlen, bind_of_ok hloop]
  simp [bind_apply, assertThat_apply, hash2Size]

/-- The hashes of a secret string are those of the same string in public. Both functions in locked memory are
compared with the ones for ordinary strings. -/
def SecretHashesAgree : Prop :=
  lib.hash1PRV hash = lib.hash1 hash ∧
    ∀ {σ : Type} (s : σ), lib.hash2PRV hash s = lib.hash2 hash s

/-- Two different strings with the same hash. -/
def Collide (a b : Bytes) : Prop :=
  a ≠ b ∧ lib.hash1 a = lib.hash1 b

/-- A hash is not its own negation. -/
private theorem hash1_ne_map_not : lib.hash1 hash ≠ (lib.hash1 hash).map fun ch => ~~~ch := by
  have hlen := lib.length_hash1 hash
  obtain ⟨b, rest, hcons⟩ : ∃ b rest, lib.hash1 hash = b :: rest :=
    List.exists_cons_of_ne_nil (List.ne_nil_of_length_pos (by rw [hlen]; decide))
  have hb : ∀ b : UInt8, b ≠ ~~~b := by
    intro b heq
    have hval := congrArg UInt8.toNat heq
    rw [UInt8.toNat_not, UInt8.size] at hval
    have hlt := b.toNat_lt
    omega
  rw [hcons, List.map_cons]
  exact fun heq => hb b (List.cons.inj heq).1

/-- The hashes of a secret agree with those in public exactly when `Hash1` takes the hash and its negation to
the same hash. So a string for which they agree gives a collision of `Hash1`. -/
theorem secretHashesAgree_iff :
    lib.SecretHashesAgree hash ↔
      lib.Collide (lib.hash1 hash) ((lib.hash1 hash).map fun ch => ~~~ch) := by
  constructor
  · rintro ⟨-, hagree⟩
    have heq := hagree ()
    rw [hash2PRV_eq, hash2_eq] at heq
    exact ⟨lib.hash1_ne_map_not hash, (EStateM.Result.ok.inj heq).1⟩
  · rintro ⟨-, hcollide⟩
    refine ⟨rfl, fun s => ?_⟩
    rw [hash2PRV_eq, hash2_eq, ← hcollide]
    rfl

end CryptoLib

/-! ### The empty string -/

/-- A hash, given by its two halves. -/
private def hashOfHalves (high low : ℕ) : Block hash1Size :=
  ⟨bigEndian 32 high ++ bigEndian 32 low, by
    rw [List.length_append, length_bigEndian, length_bigEndian, hash1Size]⟩

/-- The hash of the empty string, BLAKE2b with 64 octets. -/
def hashOfEmpty : Block hash1Size :=
  hashOfHalves
    0x786a02f742015903c6c6fd852552d272912f4740e15847618a86e217f71f5419
    0xd25e1031afee585313896444934eb04b903a685b1448b755d56f701afe9be2ce

/-- A library that hashes the empty string, its hash, and the negation of its hash as BLAKE2b does. -/
def CryptoLib.blake2bOfEmpty : CryptoLib :=
  { CryptoLib.sample with
    genericHash := fun data =>
      if data = [] then hashOfEmpty
      else if data = hashOfEmpty.octets then
        hashOfHalves
          0x2a9de08d916b01b9bd81fd951405ef6b4e964970a34417766c2b76c7a75bb24e
          0x255b31e3fda9143b08e88cba6817353b8df2116c39230feb7b67f2abd5cb8f4f
      else if data = hashOfEmpty.octets.map fun ch => ~~~ch then
        hashOfHalves
          0xd21105c57c959dc00a0739893af18818ca60e5d40a6c7f5231799786a193acfb
          0x42d5fe3f21ac6d768e14711b66ec8be5ef5a367602aa29390f0d233dd99e30b4
      else CryptoLib.sample.genericHash data }

/-- The hashes of the empty string do not agree. The three values are those of BLAKE2b with 64 octets. -/
theorem not_secretHashesAgree_empty : ¬ CryptoLib.blake2bOfEmpty.SecretHashesAgree [] := by
  rintro ⟨-, hagree⟩
  have heq := hagree ()
  rw [CryptoLib.hash2PRV_eq, CryptoLib.hash2_eq] at heq
  exact absurd (EStateM.Result.ok.inj heq).1 (by decide)

end Galaxy42
