import Galaxy42.Lib.Octets
import Mathlib.Algebra.BigOperators.Group.List.Basic
import Mathlib.Data.Int.ModEq
import Mathlib.Data.Nat.ModEq

/-!
# One's complement sums

In one's complement with base `B` the carry out of a sum is added to it again. So numbers count modulo
`B - 1`, and 0 comes back as `B - 1`: `residue B n` is 0 for 0 alone, and otherwise a number from 1 to
`B - 1`. A sum of words is the residue of their ordinary sum, however the carries are added
(`sum_eq_residue`, `residue_div_add_mod`).

Octets form words most significant first, padded with a zero (`words`). The sum does not depend on the
order of the octets in a word: with them swapped, it comes out swapped (`residue_swappedSum`). With the
complement of the sum among the words, they add up to `B - 1` (`residue_add_complement`).

The three facts are what an implementation of the internet checksum relies on. It adds up in a wide type and
folds the carries at the end, in two rounds; it reads words in the order of the machine and stores the
result in that order; and who checks a message adds up all its words, the checksum among them. Padding is part
of `words`, so that an odd number of octets needs no case of its own, but for the place where a second piece
is put behind a first one, which must have an even number of octets (`words_append`).
-/

namespace Toolkit

namespace OnesComplement

variable {B a b n m : ℕ}

/-! ### Residues -/

/-- The one's complement form of a number. It is the one of the numbers `1` to `B - 1` that is the same modulo
`B - 1`, and zero for zero alone. -/
def residue (B n : ℕ) : ℕ := if n = 0 then 0 else (n - 1) % (B - 1) + 1

@[simp] theorem residue_zero : residue B 0 = 0 := rfl

theorem residue_of_pos (h : 0 < n) : residue B n = (n - 1) % (B - 1) + 1 := if_neg h.ne'

theorem residue_pos (h : 0 < n) : 0 < residue B n := by
  rw [residue_of_pos h]
  exact Nat.succ_pos _

theorem residue_le (hB : 1 < B) : residue B n ≤ B - 1 := by
  rcases Nat.eq_zero_or_pos n with rfl | hpos
  · exact Nat.zero_le _
  · rw [residue_of_pos hpos]
    exact Nat.mod_lt _ (by omega)

theorem residue_of_lt (h : n < B) : residue B n = n := by
  rcases Nat.eq_zero_or_pos n with rfl | hpos
  · rfl
  · rw [residue_of_pos hpos, Nat.mod_eq_of_lt (by omega)]
    omega

/-- A number and its residue are the same modulo `B - 1`. -/
theorem residue_modEq (n : ℕ) : residue B n ≡ n [MOD B - 1] := by
  rcases Nat.eq_zero_or_pos n with rfl | hpos
  · exact Nat.ModEq.refl _
  · rw [residue_of_pos hpos]
    calc (n - 1) % (B - 1) + 1 ≡ (n - 1) + 1 [MOD B - 1] := (Nat.mod_modEq _ _).add_right 1
      _ = n := Nat.sub_add_cancel hpos

/-- Positive numbers that are the same modulo `B - 1` have one residue. -/
theorem residue_congr (hn : 0 < n) (hm : 0 < m) (h : n ≡ m [MOD B - 1]) : residue B n = residue B m := by
  rw [residue_of_pos hn, residue_of_pos hm]
  have hcancel : n - 1 ≡ m - 1 [MOD B - 1] := by
    refine Nat.ModEq.add_right_cancel' 1 ?_
    rwa [Nat.sub_add_cancel hn, Nat.sub_add_cancel hm]
  exact congrArg (· + 1) hcancel

/-- Adding the carry to what is left of a number does not change its residue. -/
theorem residue_div_add_mod (hB : 1 < B) : residue B (n / B + n % B) = residue B n := by
  rcases Nat.eq_zero_or_pos n with rfl | hpos
  · simp
  · have hdiv : B * (n / B) + n % B = n := Nat.div_add_mod n B
    have hsum : 0 < n / B + n % B := by
      rcases Nat.eq_zero_or_pos (n / B) with hzero | hquot
      · rw [hzero] at hdiv
        omega
      · omega
    refine residue_congr hsum hpos ?_
    have hone : B ≡ 1 [MOD B - 1] := by
      have hself : (B - 1) + 1 ≡ 0 + 1 [MOD B - 1] := (Nat.modEq_zero_iff_dvd.mpr dvd_rfl).add_right 1
      rwa [Nat.sub_add_cancel hB.le] at hself
    calc n / B + n % B = 1 * (n / B) + n % B := by rw [Nat.one_mul]
      _ ≡ B * (n / B) + n % B [MOD B - 1] := (hone.symm.mul_right _).add_right _
      _ = n := hdiv

theorem residue_add_residue (n m : ℕ) : residue B (residue B n + m) = residue B (n + m) := by
  rcases Nat.eq_zero_or_pos n with rfl | hpos
  · rfl
  · refine residue_congr ?_ ?_ ((residue_modEq n).add_right m)
    · have h := residue_pos (B := B) hpos
      omega
    · omega

/-! ### Sums -/

/-- The sum of two words, with the carry added to it. -/
def add (B a b : ℕ) : ℕ := if a + b < B then a + b else a + b - (B - 1)

/-- The sum of some words, with the carry added each time. -/
def sum (B : ℕ) (ws : List ℕ) : ℕ := ws.foldl (add B) 0

theorem add_eq_residue (ha : a < B) (hb : b < B) : add B a b = residue B (a + b) := by
  unfold add
  split_ifs with h
  · exact (residue_of_lt h).symm
  · rw [residue_of_pos (by omega)]
    have hsub : a + b - 1 = (a + b - 1 - (B - 1)) + (B - 1) := by omega
    rw [hsub, Nat.add_mod_right, Nat.mod_eq_of_lt (by omega)]
    omega

theorem foldl_add (hB : 1 < B) {ws : List ℕ} (hws : ∀ w ∈ ws, w < B) (n : ℕ) :
    ws.foldl (add B) (residue B n) = residue B (n + ws.sum) := by
  induction ws generalizing n with
  | nil => rfl
  | cons w ws ih =>
    have hresidue : residue B n < B := by
      have hle := residue_le (n := n) hB
      omega
    have hadd : add B (residue B n) w = residue B (n + w) := by
      rw [add_eq_residue hresidue (hws w List.mem_cons_self), residue_add_residue]
    rw [List.foldl_cons, hadd, ih (fun x hx => hws x (List.mem_cons_of_mem _ hx)), List.sum_cons,
      Nat.add_assoc]

/-- The sum of some words is the residue of their ordinary sum. So the order of the words does not matter, and
neither does when the carries are added. -/
theorem sum_eq_residue (hB : 1 < B) {ws : List ℕ} (hws : ∀ w ∈ ws, w < B) :
    sum B ws = residue B ws.sum := by
  have h := foldl_add hB hws 0
  rwa [residue_zero, Nat.zero_add] at h

/-- A number and the complement of its residue add up to `B - 1`. -/
theorem residue_add_complement (hB : 1 < B) (n : ℕ) :
    residue B (n + (B - 1 - residue B n)) = B - 1 := by
  rcases Nat.eq_zero_or_pos n with rfl | hpos
  · rw [residue_zero, Nat.sub_zero, Nat.zero_add, residue_of_lt (by omega)]
  · have hle := residue_le (n := n) hB
    rw [← residue_add_residue, Nat.add_sub_cancel' hle, residue_of_lt (by omega)]

/-! ### Words of two octets -/

/-- The words that octets form, most significant octet first, padded with a zero. -/
def words : List UInt8 → List ℕ
  | [] => []
  | [high] => [high.toNat * 256]
  | high :: low :: rest => (high.toNat * 256 + low.toNat) :: words rest

/-- The ordinary sum of the words that octets form, least significant octet first. -/
def swappedSum : List UInt8 → ℕ
  | [] => 0
  | [low] => low.toNat
  | low :: high :: rest => low.toNat + high.toNat * 256 + swappedSum rest

/-- The two octets of a word, swapped. -/
def swap (n : ℕ) : ℕ := n % 256 * 256 + n / 256

theorem words_lt (octets : List UInt8) : ∀ w ∈ words octets, w < 65536 := by
  induction octets using words.induct with
  | case1 => exact fun w hw => absurd hw List.not_mem_nil
  | case2 high =>
    intro w hw
    have hhigh := high.toNat_lt
    rw [words, List.mem_singleton] at hw
    omega
  | case3 high low rest ih =>
    intro w hw
    rw [words, List.mem_cons] at hw
    rcases hw with rfl | hw
    · have hhigh := high.toNat_lt
      have hlow := low.toNat_lt
      omega
    · exact ih w hw

/-- Words of octets behind an even number of others. -/
theorem words_append {front : List UInt8} (h : front.length % 2 = 0) (rest : List UInt8) :
    words (front ++ rest) = words front ++ words rest := by
  induction front using words.induct with
  | case1 => rfl
  | case2 high => exact absurd h Nat.one_ne_zero
  | case3 high low front ih =>
    rw [List.length_cons, List.length_cons] at h
    rw [List.cons_append, List.cons_append, words, words, ih (by omega), List.cons_append]

theorem swappedSum_append {front : List UInt8} (h : front.length % 2 = 0) (rest : List UInt8) :
    swappedSum (front ++ rest) = swappedSum front + swappedSum rest := by
  induction front using words.induct with
  | case1 => exact (Nat.zero_add _).symm
  | case2 high => exact absurd h Nat.one_ne_zero
  | case3 high low front ih =>
    rw [List.length_cons, List.length_cons] at h
    rw [List.cons_append, List.cons_append, swappedSum, swappedSum, ih (by omega)]
    omega

/-- Swapping the octets of all words multiplies their sum by 256, modulo 65535. -/
theorem swappedSum_modEq (octets : List UInt8) :
    swappedSum octets ≡ 256 * (words octets).sum [MOD 65535] := by
  induction octets using words.induct with
  | case1 => exact Nat.ModEq.refl _
  | case2 high =>
    rw [swappedSum, words, List.sum_singleton]
    unfold Nat.ModEq
    omega
  | case3 high low rest ih =>
    rw [swappedSum, words, List.sum_cons]
    unfold Nat.ModEq at ih ⊢
    omega

theorem swappedSum_pos_iff (octets : List UInt8) : 0 < swappedSum octets ↔ 0 < (words octets).sum := by
  induction octets using words.induct with
  | case1 => exact Iff.rfl
  | case2 high =>
    rw [swappedSum, words, List.sum_singleton]
    omega
  | case3 high low rest ih =>
    rw [swappedSum, words, List.sum_cons]
    omega

theorem swap_modEq (n : ℕ) : swap n ≡ 256 * n [MOD 65535] := by
  unfold swap Nat.ModEq
  omega

/-- With the octets of all words swapped, the one's complement sum comes out swapped. So a program may sum up
words in the order of octets of its own machine, and swap the two octets of the result. -/
theorem residue_swappedSum (octets : List UInt8) :
    residue 65536 (swappedSum octets) = swap (sum 65536 (words octets)) := by
  rw [sum_eq_residue (by decide) (words_lt octets)]
  rcases Nat.eq_zero_or_pos (words octets).sum with hzero | hpos
  · have hswapped : swappedSum octets = 0 := by
      have hiff := swappedSum_pos_iff octets
      omega
    rw [hzero, hswapped]
    rfl
  · have hresidue := residue_pos (B := 65536) hpos
    have hmod : residue 65536 (words octets).sum ≡ (words octets).sum [MOD 65535] := residue_modEq _
    have hle : residue 65536 (words octets).sum ≤ 65535 := residue_le (by decide)
    have hlt : swap (residue 65536 (words octets).sum) < 65536 := by
      unfold swap
      omega
    have hswap : 0 < swap (residue 65536 (words octets).sum) := by
      unfold swap
      omega
    rw [← residue_of_lt hlt]
    refine residue_congr ((swappedSum_pos_iff octets).mpr hpos) hswap ?_
    calc swappedSum octets ≡ 256 * (words octets).sum [MOD 65535] := swappedSum_modEq octets
      _ ≡ 256 * residue 65536 (words octets).sum [MOD 65535] := hmod.symm.mul_left 256
      _ ≡ swap (residue 65536 (words octets).sum) [MOD 65535] := (swap_modEq _).symm

end OnesComplement

end Toolkit
