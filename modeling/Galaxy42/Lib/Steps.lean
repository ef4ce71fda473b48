import Mathlib.Data.List.Basic
import Mathlib.Logic.Relation

/-!
# Runs of labelled steps

A run of a system goes from state to state, and each step has a label. `Steps step s trace s'` says that a
run leads from `s` to `s'`, where `trace` lists the states it went through and the labels of the steps
taken there.

An invariant that every step keeps on some condition holds all along a run whose steps meet the
condition (`invariant`). When the condition is also necessary, it tells exactly which runs stay within
the invariant (`invariant_iff`). So the analysis of a run comes down to one equivalence about one step, from
a state in which the invariant holds: it is kept exactly when the step meets the condition.

Where a system has several parties, one often wants to know what can be seen of a run from outside: which
calls the parties made, and what they got for them. `Observed` is a run of a system together with the list of
what was seen of its steps, of which party, in the order in which it happened. A system can be compared with a
simpler one that takes one step where it takes many. If each step is a step of the simpler system of which the
same is seen, or one that the simpler system does not notice and of which nothing is seen, then the simpler
system has a run of which exactly the same is seen (`Observed.simulate`).
-/

namespace Toolkit

variable {σ ο : Type} {step : σ → ο → σ → Prop}

/-- A run from one state to another, with the states it left and the labels of its steps. A run is built up
from its beginning, so that its last step is at hand in an induction. -/
inductive Steps (step : σ → ο → σ → Prop) : σ → List (σ × ο) → σ → Prop
  | nil (s : σ) : Steps step s [] s
  | snoc {s s₁ s₂ : σ} {trace : List (σ × ο)} {o : ο} (hrun : Steps step s trace s₁)
      (hstep : step s₁ o s₂) : Steps step s (trace ++ [(s₁, o)]) s₂

namespace Steps

variable {s s' : σ} {trace : List (σ × ο)} {I : σ → Prop} {H : σ → ο → Prop}

/-- The invariant holds in every state of the run. That is in the states that were left, and in the last one. -/
def Throughout (I : σ → Prop) (trace : List (σ × ο)) (s' : σ) : Prop :=
  (∀ p ∈ trace, I p.1) ∧ I s'

/-- Every step of the run meets the condition. The condition is on the state before the step, and on its
label. -/
def All (H : σ → ο → Prop) (trace : List (σ × ο)) : Prop :=
  ∀ p ∈ trace, H p.1 p.2

theorem all_snoc {s₁ : σ} {o : ο} : All H (trace ++ [(s₁, o)]) ↔ All H trace ∧ H s₁ o := by
  simp only [All, List.mem_append, List.mem_singleton]
  constructor
  · exact fun h => ⟨fun p hp => h p (.inl hp), h (s₁, o) (.inr rfl)⟩
  · rintro ⟨hall, hlast⟩ p (hp | rfl)
    · exact hall p hp
    · exact hlast

theorem throughout_snoc {s₁ s₂ : σ} {o : ο} :
    Throughout I (trace ++ [(s₁, o)]) s₂ ↔ Throughout I trace s₁ ∧ I s₂ := by
  simp only [Throughout, List.mem_append, List.mem_singleton]
  constructor
  · rintro ⟨h, hlast⟩
    exact ⟨⟨fun p hp => h p (.inl hp), h (s₁, o) (.inr rfl)⟩, hlast⟩
  · rintro ⟨⟨hall, hs₁⟩, hlast⟩
    refine ⟨?_, hlast⟩
    rintro p (hp | rfl)
    · exact hall p hp
    · exact hs₁

/-- What holds throughout a run holds where it starts. -/
theorem Throughout.start (h : Throughout I trace s') (hrun : Steps step s trace s') : I s := by
  induction hrun with
  | nil => exact h.2
  | snoc _ _ ih => exact ih (throughout_snoc.mp h).1

/-- An invariant is carried along a run whose steps meet the condition under which they keep it. The condition
may fail in other runs, and nothing is said about those. -/
theorem invariant (hkeep : ∀ s o s', I s → H s o → step s o s' → I s')
    (hrun : Steps step s trace s') (hs : I s) (hall : All H trace) : Throughout I trace s' := by
  induction hrun with
  | nil => exact ⟨fun _ hp => absurd hp List.not_mem_nil, hs⟩
  | snoc _ hstep ih =>
    obtain ⟨hall, hlast⟩ := all_snoc.mp hall
    have hthroughout := ih hall
    exact throughout_snoc.mpr ⟨hthroughout, hkeep _ _ _ hthroughout.2 hlast hstep⟩

/-- When the steps keep an invariant exactly on a condition, it holds throughout a run exactly when all
steps meet the condition. -/
theorem invariant_iff (hkeep : ∀ s o s', I s → step s o s' → (I s' ↔ H s o))
    (hrun : Steps step s trace s') (hs : I s) : Throughout I trace s' ↔ All H trace := by
  constructor
  · intro h
    induction hrun with
    | nil => exact fun _ hp => absurd hp List.not_mem_nil
    | snoc _ hstep ih =>
      obtain ⟨hthroughout, hlast⟩ := throughout_snoc.mp h
      exact all_snoc.mpr ⟨ih hthroughout, (hkeep _ _ _ hthroughout.2 hstep).mp hlast⟩
  · exact invariant (fun s o s' hI hH hstep => (hkeep s o s' hI hstep).mpr hH) hrun hs

end Steps

/-! ### What is seen of a run -/

section Observed

variable {ι σ τ ε : Type}

/-- A run of several parties, and what was seen of their steps. A step of which nothing is seen leaves no
trace in the history. -/
inductive Observed (step : ι → σ → σ → Prop) (seen : ι → σ → σ → Option ε) (s : σ) :
    List (ι × ε) → σ → Prop
  | start : Observed step seen s [] s
  | step {s₁ s₂ : σ} {history : List (ι × ε)} {i : ι} (hrun : Observed step seen s history s₁)
      (hstep : step i s₁ s₂) :
      Observed step seen s (history ++ ((seen i s₁ s₂).map (Prod.mk i)).toList) s₂

namespace Observed

variable {step : ι → σ → σ → Prop} {seen : ι → σ → σ → Option ε} {step' : ι → τ → τ → Prop}
  {seen' : ι → τ → τ → Option ε} {s s' : σ} {history : List (ι × ε)}

theorem reflTransGen (hrun : Observed step seen s history s') :
    Relation.ReflTransGen (fun s s' => ∃ i, step i s s') s s' := by
  induction hrun with
  | start => exact .refl
  | step _ hstep ih => exact ih.tail ⟨_, hstep⟩

/-- What is seen of a run is seen of a run of a simpler system, when the simpler system makes each step with
the same seen, or does not notice it. -/
theorem simulate (abs : σ → τ)
    (hsim : ∀ i s₁ s₂, Relation.ReflTransGen (fun s s' => ∃ i, step i s s') s s₁ → step i s₁ s₂ →
      abs s₂ = abs s₁ ∧ seen i s₁ s₂ = none ∨
        step' i (abs s₁) (abs s₂) ∧ seen' i (abs s₁) (abs s₂) = seen i s₁ s₂)
    (hrun : Observed step seen s history s') : Observed step' seen' (abs s) history (abs s') := by
  induction hrun with
  | start => exact .start
  | @step s₁ s₂ history i hbefore hstep ih =>
    rcases hsim i s₁ s₂ hbefore.reflTransGen hstep with ⟨hsame, hnone⟩ | ⟨hstep', hseen⟩
    · rw [hsame, hnone, Option.map_none, Option.toList_none, List.append_nil]
      exact ih
    · rw [← hseen]
      exact ih.step hstep'

end Observed

end Observed

end Toolkit
