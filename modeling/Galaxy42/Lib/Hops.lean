import Mathlib.Data.List.Chain
import Mathlib.Data.List.Nodup
import Mathlib.Logic.Relation

/-!
# Hops to a goal

A relation says from where one can go where in one hop. `Leads hop goal i n` says that there is a way from
`i` to the goal in `n` hops, which ends when it comes to the goal for the first time.

When there is one way to go at most (`Relator.RightUnique`), the number of hops is determined
(`Leads.length_unique`). So nobody is on the way twice (`Leads.exists_chain`), and no way that leads to the
goal goes around in a circle (`Leads.not_cycle`).

This is the general part of the argument that packets do not circle: a table of routes is such a relation,
with at most one hop from each node for each destination. That a way leads to the goal is then an invariant
of the table, which is shown elsewhere; here it is only used. The relation may grow, and ways that lead to the
goal still do (`Leads.mono`), but a change of a hop is not covered by this: where the next hop of some node is
replaced, it has to be shown again that what it leads to is nearer to the goal.
-/

namespace Toolkit

variable {ι : Type} {hop hop' : ι → ι → Prop} {goal i j : ι} {n m : ℕ}

/-- The goal is reached in so many hops. -/
inductive Leads (hop : ι → ι → Prop) (goal : ι) : ι → ℕ → Prop
  | arrived : Leads hop goal goal 0
  | hop {i j : ι} {n : ℕ} (hne : i ≠ goal) (hhop : hop i j) (h : Leads hop goal j n) :
      Leads hop goal i (n + 1)

namespace Leads

/-- More ways to go take nothing away. -/
theorem mono (hmono : ∀ i j, hop i j → hop' i j) (h : Leads hop goal i n) : Leads hop' goal i n := by
  induction h with
  | arrived => exact .arrived
  | hop hne hhop _ ih => exact .hop hne (hmono _ _ hhop) ih

theorem eq_goal_iff (h : Leads hop goal i n) : i = goal ↔ n = 0 := by
  cases h with
  | arrived => exact iff_of_true rfl rfl
  | hop hne _ _ => exact iff_of_false hne (Nat.succ_ne_zero _)

/-- Who is one hop away from the goal is one hop away from who is not further. -/
theorem next (hunique : Relator.RightUnique hop) (h : Leads hop goal i n) (hne : i ≠ goal) (hhop : hop i j) :
    ∃ m, n = m + 1 ∧ Leads hop goal j m := by
  cases h with
  | arrived => exact absurd rfl hne
  | @hop _ k m _ hhop' hrest =>
    obtain rfl := hunique hhop hhop'
    exact ⟨m, rfl, hrest⟩

/-- The number of hops is determined. -/
theorem length_unique (hunique : Relator.RightUnique hop) (h : Leads hop goal i n)
    (h' : Leads hop goal i m) : n = m := by
  induction h generalizing m with
  | arrived => exact (h'.eq_goal_iff.mp rfl).symm
  | hop hne hhop _ ih =>
    obtain ⟨k, rfl, hrest⟩ := h'.next hunique hne hhop
    rw [ih hrest]

/-- The way, on which nobody is twice. -/
theorem exists_chain (hunique : Relator.RightUnique hop) (h : Leads hop goal i n) :
    ∃ chain : List ι, chain.length = n ∧ List.IsChain hop (i :: chain) ∧ (i :: chain).Nodup ∧
      (i :: chain).getLast? = some goal ∧ ∀ k ∈ i :: chain, ∃ m ≤ n, Leads hop goal k m := by
  induction h with
  | arrived =>
    refine ⟨[], rfl, .singleton _, List.nodup_singleton _, rfl, fun k hk => ?_⟩
    obtain rfl := List.mem_singleton.mp hk
    exact ⟨0, le_rfl, .arrived⟩
  | @hop i j n hne hhop hrest ih =>
    obtain ⟨chain, hlen, hchain, hnodup, hlast, hleads⟩ := ih
    -- Who comes later is less hops away.
    have hnew : i ∉ j :: chain := by
      intro hmem
      obtain ⟨m, hle, hm⟩ := hleads i hmem
      have hlength := length_unique hunique (.hop hne hhop hrest) hm
      omega
    refine ⟨j :: chain, congrArg Nat.succ hlen, .cons_cons hhop hchain, List.nodup_cons.mpr ⟨hnew, hnodup⟩,
      hlast, fun k hk => ?_⟩
    obtain rfl | hk := List.mem_cons.mp hk
    · exact ⟨n + 1, le_rfl, .hop hne hhop hrest⟩
    · obtain ⟨m, hle, hm⟩ := hleads k hk
      exact ⟨m, hle.trans (Nat.le_succ n), hm⟩

/-- Going on from hop to hop, one comes nearer to the goal, or through it. -/
theorem of_transGen (hunique : Relator.RightUnique hop) (h : Leads hop goal i n)
    (hway : Relation.TransGen (fun i j => i ≠ goal ∧ hop i j) i j) : ∃ m < n, Leads hop goal j m := by
  induction hway with
  | single hstep =>
    obtain ⟨m, rfl, hm⟩ := h.next hunique hstep.1 hstep.2
    exact ⟨m, Nat.lt_succ_self m, hm⟩
  | tail _ hstep ih =>
    obtain ⟨k, hlt, hk⟩ := ih
    obtain ⟨m, rfl, hm⟩ := hk.next hunique hstep.1 hstep.2
    exact ⟨m, (Nat.lt_succ_self m).trans hlt, hm⟩

/-- No way to the goal goes around in a circle. -/
theorem not_cycle (hunique : Relator.RightUnique hop) (h : Leads hop goal i n) :
    ¬ Relation.TransGen (fun i j => i ≠ goal ∧ hop i j) i i := by
  intro hway
  obtain ⟨m, hlt, hm⟩ := h.of_transGen hunique hway
  exact hlt.ne' (h.length_unique hunique hm)

end Leads

end Toolkit
