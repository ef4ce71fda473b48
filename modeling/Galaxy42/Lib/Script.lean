import Galaxy42.Lib.Program

/-!
# Programs over an interface

Code that uses an object cannot touch what the object keeps for itself: it calls the operations of its
interface. `Script ε ι α` is the syntax of such code, where the operations that return an `α` are the
members of `ι α`, and `Script.run` gives it a meaning once the operations have one.

Two rules reduce statements about all such code to its operations. An invariant that each operation
preserves is preserved by every script (`Script.preserves_run`), and two implementations of an interface
that simulate each other run every script alike (`Script.simulates_run`).

Both rules are about code that nobody has written yet: a template that a user instantiates, a function of
the user that a template calls, a sequence of calls that depends on what the calls before it returned. The
syntax has a sequence whose second part is a function of what the first one returned, so that such code may
decide by anything it was given; it may throw exceptions of its own, abort, and catch what was thrown.
`Simulates` is the relation of two programs that end alike from related states. It is closed under the ways
to build programs, which is the whole proof of the second rule.
-/

namespace Toolkit

namespace Program

variable {ε σ τ α β : Type}

/-! ### Simulation -/

/-- From related states, the two programs end alike, and in related states. What is returned, thrown or
aborted is the same on both sides. -/
def Simulates (R : σ → τ → Prop) (p : Program ε σ α) (q : Program ε τ α) : Prop :=
  ∀ s t, R s t →
    (∃ a s' t', p s = .ok a s' ∧ q t = .ok a t' ∧ R s' t') ∨
      ∃ e s' t', p s = .error e s' ∧ q t = .error e t' ∧ R s' t'

namespace Simulates

variable {R : σ → τ → Prop}

theorem pure (a : α) : Simulates R (Pure.pure a : Program ε σ α) (Pure.pure a) :=
  fun s t hR => .inl ⟨a, s, t, rfl, rfl, hR⟩

theorem raise (e : ε) : Simulates R (raise e : Program ε σ α) (raise e) :=
  fun s t hR => .inr ⟨.throw e, s, t, rfl, rfl, hR⟩

theorem abort : Simulates R (abort : Program ε σ α) abort :=
  fun s t hR => .inr ⟨.abort, s, t, rfl, rfl, hR⟩

theorem bind {p : Program ε σ α} {q : Program ε τ α} {f : α → Program ε σ β}
    {g : α → Program ε τ β} (hp : Simulates R p q) (hf : ∀ a, Simulates R (f a) (g a)) :
    Simulates R (p >>= f) (q >>= g) := by
  intro s t hR
  rcases hp s t hR with ⟨a, s', t', hs, ht, hR'⟩ | ⟨e, s', t', hs, ht, hR'⟩
  · rw [bind_of_ok hs, bind_of_ok ht]
    exact hf a s' t' hR'
  · exact .inr ⟨e, s', t', bind_of_error hs, bind_of_error ht, hR'⟩

theorem catching {p : Program ε σ α} {q : Program ε τ α} {h : ε → Program ε σ α}
    {g : ε → Program ε τ α} (hp : Simulates R p q) (hh : ∀ e, Simulates R (h e) (g e)) :
    Simulates R (catching p fun e => some (h e)) (Program.catching q fun e => some (g e)) := by
  intro s t hR
  unfold Program.catching
  rcases hp s t hR with ⟨a, s', t', hs, ht, hR'⟩ | ⟨e | _, s', t', hs, ht, hR'⟩
  · rw [hs, ht]
    exact .inl ⟨a, s', t', rfl, rfl, hR'⟩
  · rw [hs, ht]
    exact hh e s' t' hR'
  · rw [hs, ht]
    exact .inr ⟨.abort, s', t', rfl, rfl, hR'⟩

end Simulates

end Program

open Program

variable {ε σ τ α β : Type} {ι : Type → Type}

/-! ### Scripts -/

/-- Code over the interface `ι`, that may throw, abort, and catch what was thrown. It has no state of its own,
so all that it can do to the state of an implementation is to call operations. -/
inductive Script (ε : Type) (ι : Type → Type) : Type → Type 1 where
  | pure {α : Type} (a : α) : Script ε ι α
  | raise {α : Type} (e : ε) : Script ε ι α
  | abort {α : Type} : Script ε ι α
  /-- A call of an operation. -/
  | call {α : Type} (op : ι α) : Script ε ι α
  | bind {α β : Type} (p : Script ε ι α) (f : α → Script ε ι β) : Script ε ι β
  /-- The handler takes every exception, and may throw it again. -/
  | catching {α : Type} (p : Script ε ι α) (handle : ε → Script ε ι α) : Script ε ι α

namespace Script

instance : Monad (Script ε ι) where
  pure := Script.pure
  bind := Script.bind

/-- Throw `e` unless `c` holds. -/
def checkThat (c : Prop) [Decidable c] (e : ε) : Script ε ι Unit :=
  if c then pure () else raise e

/-- Abort unless `c` holds. -/
def assertThat (c : Prop) [Decidable c] : Script ε ι Unit :=
  if c then pure () else abort

/-- Run a script `n` times in a row, and collect what it returns. -/
def replicateM (p : Script ε ι α) : ℕ → Script ε ι (List α)
  | 0 => pure []
  | n + 1 => do
    let a ← p
    let as ← replicateM p n
    return a :: as

/-- The meaning of a script, for an implementation of the interface. The one script can so be run on different
implementations, and what they do compared. -/
def run (impl : ∀ {α : Type}, ι α → Program ε σ α) : {α : Type} → Script ε ι α → Program ε σ α
  | _, .pure a => Pure.pure a
  | _, .raise e => Program.raise e
  | _, .abort => Program.abort
  | _, .call op => impl op
  | _, .bind p f => run impl p >>= fun a => run impl (f a)
  | _, .catching p handle => Program.catching (run impl p) fun e => some (run impl (handle e))

section Run

variable {impl : ∀ {α : Type}, ι α → Program ε σ α}

@[simp] theorem run_pure (a : α) : run impl (Pure.pure a) = Pure.pure a := rfl

@[simp] theorem run_bind (p : Script ε ι α) (f : α → Script ε ι β) :
    run impl (p >>= f) = run impl p >>= fun a => run impl (f a) := rfl

@[simp] theorem run_ite (c : Prop) [Decidable c] (p q : Script ε ι α) :
    run impl (if c then p else q) = if c then run impl p else run impl q :=
  apply_ite _ _ _ _

@[simp] theorem run_checkThat (c : Prop) [Decidable c] (e : ε) :
    run impl (checkThat c e) = Program.checkThat c e :=
  run_ite _ _ _

@[simp] theorem run_assertThat (c : Prop) [Decidable c] :
    run impl (assertThat c) = Program.assertThat c :=
  run_ite _ _ _

@[simp] theorem run_replicateM (p : Script ε ι α) (n : ℕ) :
    run impl (replicateM p n) = Program.replicateM (run impl p) n := by
  induction n with
  | zero => rfl
  | succ n ih =>
    rw [replicateM, run_bind]
    simp only [run_bind, ih]
    rfl

/-- What every operation preserves, every script does. This is so however the script ends, and whatever it
catches. -/
theorem preserves_run {I : σ → Prop} (h : ∀ {α : Type} (op : ι α), Preserves I (impl op))
    (p : Script ε ι α) : Preserves I (run impl p) := by
  induction p with
  | pure a => exact .pure a
  | raise e => exact .raise e
  | abort => exact .abort
  | call op => exact h op
  | bind p f ihp ihf => exact .bind ihp ihf
  | catching p handle ihp ihh =>
    exact .catching ihp fun e q hq => Option.some.inj hq ▸ ihh e

/-- Implementations that simulate each other run every script alike. So two implementations have to be
compared one operation at a time. -/
theorem simulates_run {impl' : ∀ {α : Type}, ι α → Program ε τ α} {R : σ → τ → Prop}
    (h : ∀ {α : Type} (op : ι α), Simulates R (impl op) (impl' op)) (p : Script ε ι α) :
    Simulates R (run impl p) (run impl' p) := by
  induction p with
  | pure a => exact .pure a
  | raise e => exact .raise e
  | abort => exact .abort
  | call op => exact h op
  | bind p f ihp ihf => exact ihp.bind ihf
  | catching p handle ihp ihh => exact ihp.catching ihh

end Run

end Script

end Toolkit
