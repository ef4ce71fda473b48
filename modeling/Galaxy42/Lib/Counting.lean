import Galaxy42.Lib.Script

/-!
# Counting runs

`counting p` is `p` with a counter of its runs next to the state. The counter makes no difference to what
is done (`Simulates.counting`). When every run that returns makes a measure of the state smaller, a
repeated program is run no more often than the measure allows, however often it is to be repeated
(`finalState_replicateM_counting_le`).

This bounds the work of a loop whose number of rounds is read from its input. The number may be as large as
the input says, but a round that returns has taken something of the input away, and the first round that
does not return is the last one. So the bound is one more than the measure, and it does not depend on the
number that was read. The counter is added to a program from outside, and the program that is counted is
shown to be the program itself, so that a bound for the one is a bound for the other.
-/

namespace Toolkit

namespace Program

variable {ε σ τ α β : Type}

/-- Run a program, and count the run, however it ends. The count is next to the state, where the program does
not see it. -/
def counting (p : Program ε σ α) : Program ε (σ × ℕ) α := do
  modify fun s => (s.1, s.2 + 1)
  onFst p

theorem counting_of_ok {p : Program ε σ α} {s s' : σ} {a : α} (h : p s = .ok a s') (k : ℕ) :
    counting p (s, k) = .ok a (s', k + 1) := by
  simp [counting, bind_apply, onFst, h]

theorem counting_of_error {p : Program ε σ α} {s s' : σ} {e : Fault ε} (h : p s = .error e s')
    (k : ℕ) : counting p (s, k) = .error e (s', k + 1) := by
  simp [counting, bind_apply, onFst, h]

/-! ### The counter makes no difference -/

namespace Simulates

theorem onFst (p : Program ε σ α) :
    Simulates (fun (s : σ × τ) t => s.1 = t) (onFst p : Program ε (σ × τ) α) p := by
  rintro s _ rfl
  unfold Program.onFst
  cases p s.1 with
  | ok a s' => exact .inl ⟨a, (s', s.2), s', rfl, rfl, rfl⟩
  | error e s' => exact .inr ⟨e, (s', s.2), s', rfl, rfl, rfl⟩

theorem counting (p : Program ε σ α) :
    Simulates (fun (s : σ × ℕ) t => s.1 = t) (counting p) p := by
  rintro ⟨s, k⟩ _ rfl
  cases h : p s with
  | ok a s' => exact .inl ⟨a, (s', k + 1), s', counting_of_ok h k, rfl, rfl⟩
  | error e s' => exact .inr ⟨e, (s', k + 1), s', counting_of_error h k, rfl, rfl⟩

theorem replicateM {R : σ → τ → Prop} {p : Program ε σ α} {q : Program ε τ α}
    (h : Simulates R p q) (n : ℕ) : Simulates R (replicateM p n) (Program.replicateM q n) := by
  induction n with
  | zero => exact pure []
  | succ n ih => exact h.bind fun a => ih.bind fun as => pure (a :: as)

end Simulates

/-! ### A measure of the state -/

/-- A repeated program is run once more than it makes the measure smaller, at most. The one run more is a run
that fails. So however often a program is to be repeated, it is not run more often than the measure of the
first state allows. -/
theorem finalState_replicateM_counting_le {p : Program ε σ α} (size : σ → ℕ)
    (h : ∀ s a s', p s = .ok a s' → size s' < size s) (n : ℕ) :
    ∀ s k, (finalState (replicateM (counting p) n) (s, k)).2 ≤ k + size s + 1 := by
  induction n with
  | zero =>
    intro s k
    exact Nat.le_trans (Nat.le_add_right k _) (Nat.le_succ _)
  | succ n ih =>
    intro s k
    cases hrun : p s with
    | ok a s' =>
      have hless := h s a s' hrun
      have hrest := ih s' (k + 1)
      rw [replicateM, finalState_bind_of_ok (counting_of_ok hrun k), finalState_bind_pure]
      omega
    | error e s' =>
      rw [replicateM, finalState_bind_of_error (counting_of_error hrun k)]
      dsimp only
      omega

end Program

end Toolkit
