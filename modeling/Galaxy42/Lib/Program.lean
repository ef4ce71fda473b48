import Mathlib.Logic.Basic
import Mathlib.Tactic.Common

/-!
# Stateful programs that throw or abort

A C++ function can end in three ways: it returns, it throws an exception that some caller may
catch, or it fails an assertion and takes the whole process down. `Program ε σ α` is a state
program over the state `σ` whose runs end in one of these three ways; the two bad ones are the
constructors of `Fault ε`. The state is kept when a run throws, so that what an operation leaves
behind on failure can be stated too.

Four views of a run are developed, each with a law for every way to build a program:

* `p s = .ok a s'`, with one inversion law per program former (`bind_eq_ok_iff` and the `apply`
  lemmas);
* `Safe p s Q`, the weakest precondition in which throwing is allowed and aborting is not. Its laws
  are equivalences, so a sequence of them computes the *exact* condition under which a program does
  not abort. `NoAbort` is the case of programs that abort from no state;
* `finalState p s`, the state that a run leaves, however it ends, and `Preserves I p`, which says that
  it is in `I` when the run started there. A handler is entered with the state that the exception left,
  so these are the laws by which invariants are shown of code that catches;
* `Finishes`, for code that establishes something when it returns, and keeps an invariant when it does
  not.

`within` runs a program on a local object of its own, as a C++ function does with an object it
declares. `onFst`, `onSnd` and `zoom` run a program on a part of the state. A loop that reads a value in
each round and puts it into an object is `replicateM` of a `readPut`: what such a loop has put before a
failure are the values that were read until then (`valuesUntilFailure`).
-/

namespace Toolkit

universe u v

/-- How a run that does not return ends: with an exception `e`, or with the process aborted. The two are kept
apart since handlers see exceptions only. -/
inductive Fault (ε : Type u) where
  /-- An exception, which a caller may catch. -/
  | throw (e : ε)
  /-- A failed assertion: nothing can catch it. -/
  | abort
  deriving DecidableEq, Repr

/-- A program over the state `σ` that returns an `α`, throws an `ε`, or aborts. The state is there after an
exception and after an abort too, as the program has left it. -/
abbrev Program (ε σ α : Type) := EStateM (Fault ε) σ α

instance decidableEqResult {ε σ α : Type} [DecidableEq ε] [DecidableEq σ] [DecidableEq α] :
    DecidableEq (EStateM.Result ε σ α)
  | .ok a s, .ok b t => decidable_of_iff (a = b ∧ s = t) (by simp)
  | .error e s, .error f t => decidable_of_iff (e = f ∧ s = t) (by simp)
  | .ok _ _, .error _ _ => isFalse (by simp)
  | .error _ _, .ok _ _ => isFalse (by simp)

namespace Program

variable {ε σ τ α β : Type}

/-! ### Program formers -/

/-- Throw the exception `e`. The state stays as it is, so what was done before is not undone. -/
def raise (e : ε) : Program ε σ α := fun s => .error (.throw e) s

/-- Abort the process. -/
def abort : Program ε σ α := fun s => .error .abort s

/-- Throw `e` unless `c` holds. -/
def checkThat (c : Prop) [Decidable c] (e : ε) : Program ε σ Unit :=
  if c then pure () else raise e

/-- Abort unless `c` holds. -/
def assertThat (c : Prop) [Decidable c] : Program ε σ Unit :=
  if c then pure () else abort

/-- A computation without state, as a program. -/
def fromExcept (r : Except ε α) : Program ε σ α :=
  match r with
  | .ok a => pure a
  | .error e => raise e

/-- A computation without state that may also abort, as a program. It neither reads nor changes the state. -/
def fromOutcome (r : Except (Fault ε) α) : Program ε σ α := fun s =>
  match r with
  | .ok a => .ok a s
  | .error e => .error e s

/-- Run `p` on a local object that starts as `s₀` and is gone when `p` ends. The state of the caller is not
touched, whatever `p` does. -/
def within (s₀ : σ) (p : Program ε σ α) : Program ε τ α := fun t =>
  match p s₀ with
  | .ok a _ => .ok a t
  | .error e _ => .error e t

/-- Run `p` on a local object that starts as `s₀`, and return that object too. After an exception the object
is gone, and the exception is all that is left. -/
def withinState (s₀ : σ) (p : Program ε σ α) : Program ε τ (α × σ) := fun t =>
  match p s₀ with
  | .ok a s => .ok (a, s) t
  | .error e _ => .error e t

/-- Run a program of the first component of the state. -/
def onFst (p : Program ε σ α) : Program ε (σ × τ) α := fun s =>
  match p s.1 with
  | .ok a s₁ => .ok a (s₁, s.2)
  | .error e s₁ => .error e (s₁, s.2)

/-- Run a program of the second component of the state. -/
def onSnd (p : Program ε τ α) : Program ε (σ × τ) α := fun s =>
  match p s.2 with
  | .ok a s₂ => .ok a (s.1, s₂)
  | .error e s₂ => .error e (s.1, s₂)

/-- Run `p` with a local object next to the state. What `p` does to the state stays, also when it
fails; the object is gone. -/
def withLocal (s₀ : σ) (p : Program ε (σ × τ) α) : Program ε τ α := fun t =>
  match p (s₀, t) with
  | .ok a s => .ok a s.2
  | .error e s => .error e s.2

/-- Run `p` on a part of the state, that `part` reads and `put` replaces. -/
def zoom (part : τ → σ) (put : σ → τ → τ) (p : Program ε σ α) : Program ε τ α := fun t =>
  match p (part t) with
  | .ok a s => .ok a (put s t)
  | .error e s => .error e (put s t)

/-- Run `p`, `n` times in a row, and collect what it returns. A round that does not return ends the
repetition, and what was collected is lost. -/
def replicateM (p : Program ε σ α) : ℕ → Program ε σ (List α)
  | 0 => pure []
  | n + 1 => do
    let a ← p
    let as ← replicateM p n
    return a :: as

/-- Run `p`, and when it throws an exception that `handle` knows, run the handler instead. An abort
is never caught. -/
def catching (p : Program ε σ α) (handle : ε → Option (Program ε σ α)) : Program ε σ α := fun s =>
  match p s with
  | .error (.throw e) s' =>
    match handle e with
    | some h => h s'
    | none => .error (.throw e) s'
  | r => r

/-! ### Runs -/

@[simp] theorem pure_apply (a : α) (s : σ) : (pure a : Program ε σ α) s = .ok a s := rfl

@[simp] theorem raise_apply (e : ε) (s : σ) :
    (raise e : Program ε σ α) s = .error (.throw e) s := rfl

@[simp] theorem abort_apply (s : σ) : (abort : Program ε σ α) s = .error .abort s := rfl

@[simp] theorem get_apply (s : σ) : (get : Program ε σ σ) s = .ok s s := rfl

@[simp] theorem set_apply (s s' : σ) : (set s' : Program ε σ PUnit) s = .ok ⟨⟩ s' := rfl

@[simp] theorem modify_apply (f : σ → σ) (s : σ) :
    (modify f : Program ε σ PUnit) s = .ok ⟨⟩ (f s) := rfl

/-- A sequence runs its second part from where the first one stopped. -/
theorem bind_apply (p : Program ε σ α) (f : α → Program ε σ β) (s : σ) :
    (p >>= f) s = match p s with
      | .ok a s' => f a s'
      | .error e s' => .error e s' := by
  change EStateM.bind p f s = _
  unfold EStateM.bind
  cases p s <;> rfl

theorem bind_of_ok {p : Program ε σ α} {f : α → Program ε σ β} {s s' : σ} {a : α}
    (h : p s = .ok a s') : (p >>= f) s = f a s' := by
  rw [bind_apply, h]

theorem bind_of_error {p : Program ε σ α} {f : α → Program ε σ β} {s s' : σ} {e : Fault ε}
    (h : p s = .error e s') : (p >>= f) s = .error e s' := by
  rw [bind_apply, h]

/-- A sequence returns exactly when both of its parts do. It is the rule by which a run that returns is taken
apart. -/
theorem bind_eq_ok_iff {p : Program ε σ α} {f : α → Program ε σ β} {s s'' : σ} {b : β} :
    (p >>= f) s = .ok b s'' ↔ ∃ a s', p s = .ok a s' ∧ f a s' = .ok b s'' := by
  rw [bind_apply]
  cases p s with
  | ok a s' => simp
  | error e s' => simp

/-- A sequence whose second part only returns. -/
theorem bind_pure_eq_ok_iff {p : Program ε σ α} {g : α → β} {s s' : σ} {b : β} :
    (p >>= fun a => pure (g a)) s = .ok b s' ↔ ∃ a, p s = .ok a s' ∧ g a = b := by
  rw [bind_apply]
  cases p s with
  | ok a s₁ => simp [and_comm]
  | error e s₁ => simp

theorem map_apply (g : α → β) (p : Program ε σ α) (s : σ) :
    (g <$> p) s = match p s with
      | .ok a s' => .ok (g a) s'
      | .error e s' => .error e s' := by
  change EStateM.map g p s = _
  unfold EStateM.map
  cases p s <;> rfl

@[simp] theorem map_eq_ok_iff {g : α → β} {p : Program ε σ α} {s s' : σ} {b : β} :
    (g <$> p) s = .ok b s' ↔ ∃ a, p s = .ok a s' ∧ g a = b := by
  rw [map_apply]
  cases p s with
  | ok a s' => simp; tauto
  | error e s' => simp

theorem checkThat_apply (c : Prop) [Decidable c] (e : ε) (s : σ) :
    checkThat c e s = if c then .ok () s else .error (.throw e) s := by
  unfold checkThat
  split <;> rfl

theorem assertThat_apply (c : Prop) [Decidable c] (s : σ) :
    (assertThat c : Program ε σ Unit) s = if c then .ok () s else .error .abort s := by
  unfold assertThat
  split <;> rfl

/-- A check is passed exactly when its condition holds, and changes nothing. -/
@[simp] theorem checkThat_eq_ok_iff {c : Prop} [Decidable c] {e : ε} {s s' : σ} {a : Unit} :
    checkThat c e s = .ok a s' ↔ c ∧ s = s' := by
  rw [checkThat_apply]
  split <;> simp [*]

/-- An assertion is passed exactly when its condition holds, and changes nothing. -/
@[simp] theorem assertThat_eq_ok_iff {c : Prop} [Decidable c] {s s' : σ} {a : Unit} :
    (assertThat c : Program ε σ Unit) s = .ok a s' ↔ c ∧ s = s' := by
  rw [assertThat_apply]
  split <;> simp [*]

@[simp] theorem fromExcept_eq_ok_iff {r : Except ε α} {s s' : σ} {a : α} :
    fromExcept r s = .ok a s' ↔ r = .ok a ∧ s = s' := by
  cases r <;> simp [fromExcept]

@[simp] theorem fromOutcome_eq_ok_iff {r : Except (Fault ε) α} {s s' : σ} {a : α} :
    fromOutcome r s = .ok a s' ↔ r = .ok a ∧ s = s' := by
  cases r <;> simp [fromOutcome]

@[simp] theorem within_eq_ok_iff {s₀ : σ} {p : Program ε σ α} {t t' : τ} {a : α} :
    within s₀ p t = .ok a t' ↔ (∃ s, p s₀ = .ok a s) ∧ t = t' := by
  unfold within
  cases p s₀ with
  | ok b s => simp
  | error e s => simp

@[simp] theorem withinState_eq_ok_iff {s₀ : σ} {p : Program ε σ α} {t t' : τ} {r : α × σ} :
    withinState s₀ p t = .ok r t' ↔ p s₀ = .ok r.1 r.2 ∧ t = t' := by
  unfold withinState
  cases p s₀ with
  | ok b s => simp [Prod.ext_iff]
  | error e s => simp

@[simp] theorem onFst_eq_ok_iff {p : Program ε σ α} {s s' : σ × τ} {a : α} :
    (onFst p : Program ε (σ × τ) α) s = .ok a s' ↔ p s.1 = .ok a s'.1 ∧ s.2 = s'.2 := by
  unfold onFst
  cases p s.1 with
  | ok b t => simp [Prod.ext_iff, and_assoc]
  | error e t => simp

@[simp] theorem onSnd_eq_ok_iff {p : Program ε τ α} {s s' : σ × τ} {a : α} :
    (onSnd p : Program ε (σ × τ) α) s = .ok a s' ↔ p s.2 = .ok a s'.2 ∧ s.1 = s'.1 := by
  unfold onSnd
  cases p s.2 with
  | ok b t => simp [Prod.ext_iff, and_assoc, and_comm]
  | error e t => simp

theorem catching_eq_ok_iff {p : Program ε σ α} {handle : ε → Option (Program ε σ α)} {s s' : σ}
    {a : α} :
    catching p handle s = .ok a s' ↔
      p s = .ok a s' ∨ ∃ e s₁ h, p s = .error (.throw e) s₁ ∧ handle e = some h ∧ h s₁ = .ok a s' := by
  rcases hp : p s with ⟨b, s₁⟩ | ⟨e | _, s₁⟩
  · simp [catching, hp]
  · rcases hh : handle e with _ | h
    · simp only [catching, hp, hh, reduceCtorEq, EStateM.Result.error.injEq, Fault.throw.injEq,
        false_or, false_iff, not_exists, not_and]
      rintro e' s₂ h' ⟨rfl, rfl⟩ hh'
      simp [hh] at hh'
    · simp only [catching, hp, hh, reduceCtorEq, EStateM.Result.error.injEq, Fault.throw.injEq,
        false_or]
      constructor
      · exact fun hok => ⟨e, s₁, h, ⟨rfl, rfl⟩, hh, hok⟩
      · rintro ⟨e', s₂, h', ⟨rfl, rfl⟩, hh', hok⟩
        obtain rfl : h = h' := by simpa [hh] using hh'
        exact hok
  · simp [catching, hp]

@[simp] theorem withLocal_eq_ok_iff {s₀ : σ} {p : Program ε (σ × τ) α} {t t' : τ} {a : α} :
    withLocal s₀ p t = .ok a t' ↔ ∃ s, p (s₀, t) = .ok a (s, t') := by
  unfold withLocal
  cases p (s₀, t) with
  | ok b s => simp [Prod.ext_iff]
  | error e s => simp

theorem zoom_eq_ok_iff {part : τ → σ} {put : σ → τ → τ} {p : Program ε σ α} {t t' : τ} {a : α} :
    zoom part put p t = .ok a t' ↔ ∃ s, p (part t) = .ok a s ∧ put s t = t' := by
  unfold zoom
  cases p (part t) with
  | ok b s => simp
  | error e s => simp

theorem withinState_of_error {s₀ s : σ} {p : Program ε σ α} {e : Fault ε} (h : p s₀ = .error e s)
    (t : τ) : withinState s₀ p t = .error e t := by
  rw [withinState, h]

/-- A loop of checks succeeds when all of them do. -/
theorem forM_eq_ok_iff {β : Type} {f : β → Program ε σ Unit} {P : β → Prop}
    (hf : ∀ x s s' u, f x s = .ok u s' ↔ P x ∧ s = s') {xs : List β} {s s' : σ} {u : Unit} :
    xs.forM f s = .ok u s' ↔ (∀ x ∈ xs, P x) ∧ s = s' := by
  induction xs generalizing s with
  | nil => simp
  | cons x xs ih =>
    change (f x >>= fun _ => xs.forM f) s = _ ↔ _
    simp only [bind_eq_ok_iff, hf, ih, List.forall_mem_cons]
    constructor
    · rintro ⟨_, _, ⟨hx, rfl⟩, hxs, rfl⟩
      exact ⟨⟨hx, hxs⟩, rfl⟩
    · rintro ⟨⟨hx, hxs⟩, rfl⟩
      exact ⟨(), s, ⟨hx, rfl⟩, hxs, rfl⟩

/-- A loop that counts, whose rounds lead from one of some states to the next. -/
theorem forM_range'_of_ok {f : ℕ → Program ε σ Unit} {s : ℕ → σ} {first : ℕ} (count : ℕ)
    (hf : ∀ i, first ≤ i → i < first + count → f i (s i) = .ok () (s (i + 1))) :
    (List.range' first count).forM f (s first) = .ok () (s (first + count)) := by
  induction count generalizing first with
  | zero => rfl
  | succ count ih =>
    have hfirst := hf first (Nat.le_refl first) (by omega)
    have hrest := @ih (first + 1) fun i hle hlt => hf i (by omega) (by omega)
    rw [show first + 1 + count = first + (count + 1) by omega] at hrest
    exact (bind_of_ok hfirst).trans hrest

/-- A map whose rounds all succeed. -/
theorem exists_mapM_eq_ok {β γ : Type} {f : β → Program ε σ γ} {R : β → γ → Prop} {xs : List β}
    (hf : ∀ x ∈ xs, ∀ s, ∃ b s', f x s = .ok b s' ∧ R x b) :
    ∀ s, ∃ bs s', xs.mapM f s = .ok bs s' ∧ List.Forall₂ R xs bs := by
  induction xs with
  | nil => exact fun s => ⟨[], s, by simp, .nil⟩
  | cons x xs ih =>
    intro s
    obtain ⟨b, s₁, hb, hR⟩ := hf x List.mem_cons_self s
    obtain ⟨bs, s₂, hbs, hRs⟩ := ih (fun y hy => hf y (List.mem_cons_of_mem _ hy)) s₁
    refine ⟨b :: bs, s₂, ?_, .cons hR hRs⟩
    rw [List.mapM_cons]
    exact (bind_of_ok hb).trans (bind_of_ok hbs)

/-- A fold whose steps all succeed. The invariant tells which elements have been gone through. The elements
must be different from each other. -/
theorem exists_foldlM_eq_ok {β γ : Type} {f : γ → β → Program ε σ γ} {I : List β → γ → Prop}
    (hf : ∀ done x c s, x ∉ done → I done c → ∃ c' s', f c x s = .ok c' s' ∧ I (done ++ [x]) c')
    (xs : List β) :
    ∀ done c s, (done ++ xs).Nodup → I done c →
      ∃ c' s', xs.foldlM f c s = .ok c' s' ∧ I (done ++ xs) c' := by
  induction xs with
  | nil =>
    intro done c s _ hI
    exact ⟨c, s, rfl, by simpa using hI⟩
  | cons x xs ih =>
    intro done c s hnodup hI
    have hx : x ∉ done := fun hmem =>
      (List.nodup_append.mp hnodup).2.2 x hmem x List.mem_cons_self rfl
    obtain ⟨c₁, s₁, h₁, hI₁⟩ := hf done x c s hx hI
    rw [List.append_cons] at hnodup
    obtain ⟨c', s', h', hI'⟩ := ih (done ++ [x]) c₁ s₁ hnodup hI₁
    rw [List.append_assoc, List.singleton_append] at hI'
    refine ⟨c', s', ?_, hI'⟩
    rw [List.foldlM_cons, bind_of_ok h₁, h']

/-- In a fold that succeeds, each element has a step that does. -/
theorem exists_step_of_foldlM_eq_ok {β γ : Type} {f : γ → β → Program ε σ γ} {xs : List β} {x : β}
    (hx : x ∈ xs) :
    ∀ {c c' : γ} {s s' : σ}, xs.foldlM f c s = .ok c' s' → ∃ c₁ s₁ c₂ s₂, f c₁ x s₁ = .ok c₂ s₂ := by
  induction xs with
  | nil => cases hx
  | cons y ys ih =>
    intro c c' s s' h
    rw [List.foldlM_cons] at h
    obtain ⟨c₁, s₁, h₁, hrest⟩ := bind_eq_ok_iff.mp h
    rcases List.mem_cons.mp hx with rfl | hmem
    · exact ⟨c, s, c₁, s₁, h₁⟩
    · exact ih hmem hrest

/-- As many values come out of a repeated program as there were rounds. -/
theorem length_of_replicateM_eq_ok {p : Program ε σ α} {n : ℕ} {s s' : σ} {as : List α}
    (h : replicateM p n s = .ok as s') : as.length = n := by
  induction n generalizing s as with
  | zero =>
    simp only [replicateM, pure_apply, EStateM.Result.ok.injEq] at h
    simp [← h.1]
  | succ n ih =>
    simp only [replicateM, bind_eq_ok_iff, pure_apply, EStateM.Result.ok.injEq] at h
    obtain ⟨a, s₁, -, bs, s₂, hbs, rfl, rfl⟩ := h
    rw [List.length_cons, ih hbs]

/-- What holds of every value a program returns holds of all values it returns when it is repeated. -/
theorem forall_of_replicateM_eq_ok {p : Program ε σ α} {P : α → Prop}
    (h : ∀ s a s', p s = .ok a s' → P a) :
    ∀ {n : ℕ} {s s' : σ} {as : List α}, replicateM p n s = .ok as s' → ∀ a ∈ as, P a
  | 0, _, _, _, hrun => by
    obtain ⟨rfl, -⟩ := EStateM.Result.ok.inj hrun
    simp
  | n + 1, _, _, _, hrun => by
    simp only [replicateM, bind_eq_ok_iff, pure_apply, EStateM.Result.ok.injEq] at hrun
    obtain ⟨a, s₁, ha, as, s₂, has, rfl, -⟩ := hrun
    exact List.forall_mem_cons.mpr ⟨h _ _ _ ha, forall_of_replicateM_eq_ok h has⟩

/-- Values that are turned into others after the repetition, or each of them in its round. -/
theorem replicateM_map (g : α → β) (p : Program ε σ α) (n : ℕ) :
    replicateM (g <$> p) n = List.map g <$> replicateM p n := by
  induction n with
  | zero => rfl
  | succ n ih => simp [replicateM, ih]

/-! ### Reading and putting -/

@[simp] theorem onFst_pure (a : α) : (onFst (pure a) : Program ε (σ × τ) α) = pure a := rfl

theorem onFst_bind (p : Program ε σ α) (f : α → Program ε σ β) :
    (onFst (p >>= f) : Program ε (σ × τ) β) = onFst p >>= fun a => onFst (f a) := by
  funext s
  rw [bind_apply]
  simp only [onFst, bind_apply]
  cases p s.1 <;> rfl

@[simp] theorem onFst_checkThat (c : Prop) [Decidable c] (e : ε) :
    (onFst (checkThat c e) : Program ε (σ × τ) Unit) = checkThat c e := by
  unfold checkThat
  split <;> rfl

@[simp] theorem onFst_assertThat (c : Prop) [Decidable c] :
    (onFst (assertThat c) : Program ε (σ × τ) Unit) = assertThat c := by
  unfold assertThat
  split <;> rfl

@[simp] theorem onFst_fromExcept (r : Except ε α) :
    (onFst (fromExcept r) : Program ε (σ × τ) α) = fromExcept r := by
  cases r <;> rfl

/-- The second component may be read before or after a program of the first one. -/
theorem get_bind_onFst (p : Program ε σ α) (f : τ → α → Program ε (σ × τ) β) :
    (onSnd get >>= fun t => onFst p >>= f t) =
      onFst p >>= fun a => onSnd get >>= fun t => f t a := by
  funext s
  have hget : ∀ s : σ × τ, (onSnd get : Program ε (σ × τ) τ) s = .ok s.2 s := fun _ => rfl
  rw [bind_of_ok (hget s), bind_apply, bind_apply, onFst]
  cases p s.1 with
  | ok a s₁ =>
    dsimp only
    rw [bind_of_ok (hget (s₁, s.2))]
  | error e s₁ => rfl

/-- Read a value from the first component, and put it into the second. When the reading fails, the second
component stays as it is. -/
def readPut (read : Program ε σ α) (put : τ → α → τ) : Program ε (σ × τ) Unit := do
  let a ← onFst read
  onSnd (modify fun t => put t a)

theorem readPut_eq_ok_iff {read : Program ε σ α} {put : τ → α → τ} {s s' : σ × τ} {u : Unit} :
    readPut read put s = .ok u s' ↔ ∃ a, read s.1 = .ok a s'.1 ∧ s'.2 = put s.2 a := by
  obtain ⟨s₁, t⟩ := s
  obtain ⟨s₁', t'⟩ := s'
  simp only [readPut, bind_eq_ok_iff, onFst_eq_ok_iff, onSnd_eq_ok_iff, modify_apply,
    EStateM.Result.ok.injEq]
  constructor
  · rintro ⟨a, ⟨s₂, _⟩, ⟨ha, rfl⟩, ⟨-, rfl⟩, rfl⟩
    exact ⟨a, ha, rfl⟩
  · rintro ⟨a, ha, rfl⟩
    exact ⟨a, (s₁', t), ⟨ha, rfl⟩, ⟨trivial, rfl⟩, rfl⟩

theorem readPut_of_ok {read : Program ε σ α} {put : τ → α → τ} {s₁ s₁' : σ} {t : τ} {a : α}
    (h : read s₁ = .ok a s₁') : readPut read put (s₁, t) = .ok () (s₁', put t a) :=
  readPut_eq_ok_iff.mpr ⟨a, h, rfl⟩

theorem readPut_of_error {read : Program ε σ α} {put : τ → α → τ} {s₁ s₁' : σ} {t : τ} {e : Fault ε}
    (h : read s₁ = .error e s₁') : readPut read put (s₁, t) = .error e (s₁', t) :=
  bind_of_error (by simp only [onFst, h])

/-- The values that have been read are put one after the other. -/
theorem replicateM_readPut_eq_ok_iff {read : Program ε σ α} {put : τ → α → τ} {n : ℕ}
    {s s' : σ × τ} :
    (∃ us, replicateM (readPut read put) n s = .ok us s') ↔
      ∃ as, replicateM read n s.1 = .ok as s'.1 ∧ s'.2 = as.foldl put s.2 := by
  induction n generalizing s with
  | zero =>
    simp only [replicateM, pure_apply, EStateM.Result.ok.injEq, Prod.ext_iff]
    constructor
    · rintro ⟨_, rfl, h, h'⟩
      exact ⟨[], ⟨rfl, h⟩, h'.symm⟩
    · rintro ⟨_, ⟨rfl, h⟩, h'⟩
      exact ⟨[], rfl, h, h'.symm⟩
  | succ n ih =>
    simp only [replicateM, bind_eq_ok_iff, pure_apply, EStateM.Result.ok.injEq]
    constructor
    · rintro ⟨_, u, s₁, hfirst, us, s₂, hrest, rfl, rfl⟩
      obtain ⟨a, ha, hput⟩ := readPut_eq_ok_iff.mp hfirst
      obtain ⟨as, has, hputs⟩ := ih.mp ⟨us, hrest⟩
      exact ⟨_, ⟨a, _, ha, as, _, has, rfl, rfl⟩, by rw [hputs, hput, List.foldl_cons]⟩
    · rintro ⟨_, ⟨a, s₁, ha, as, s₂, has, rfl, rfl⟩, hputs⟩
      have hfirst : readPut read put s = .ok () (s₁, put s.2 a) := readPut_of_ok ha
      obtain ⟨us, hrest⟩ := (ih (s := (s₁, put s.2 a))).mpr ⟨as, has, hputs⟩
      exact ⟨_, (), _, hfirst, us, _, hrest, rfl, rfl⟩

/-- The values that a repeated program returns, up to the round in which it fails. It tells what was collected
in a loop that an exception has left. -/
def valuesUntilFailure (p : Program ε σ α) : ℕ → σ → List α
  | 0, _ => []
  | n + 1, s =>
    match p s with
    | .ok a s' => a :: valuesUntilFailure p n s'
    | .error _ _ => []

theorem valuesUntilFailure_of_eq_ok {p : Program ε σ α} :
    ∀ {n : ℕ} {s s' : σ} {as : List α}, replicateM p n s = .ok as s' →
      valuesUntilFailure p n s = as
  | 0, _, _, _, h => (EStateM.Result.ok.inj h).1
  | n + 1, s, _, _, h => by
    simp only [replicateM, bind_eq_ok_iff, pure_apply, EStateM.Result.ok.injEq] at h
    obtain ⟨a, s₁, ha, as, s₂, has, rfl, -⟩ := h
    simp only [valuesUntilFailure, ha, valuesUntilFailure_of_eq_ok has]

/-- A repetition fails exactly when it returns fewer values than it has rounds. -/
theorem length_valuesUntilFailure_eq_iff {p : Program ε σ α} {n : ℕ} {s : σ} :
    (valuesUntilFailure p n s).length = n ↔ ∃ as s', replicateM p n s = .ok as s' := by
  constructor
  · intro h
    induction n generalizing s with
    | zero => exact ⟨[], s, rfl⟩
    | succ n ih =>
      cases hp : p s with
      | error e s₁ => simp [valuesUntilFailure, hp] at h
      | ok a s₁ =>
        simp only [valuesUntilFailure, hp, List.length_cons, Nat.add_right_cancel_iff] at h
        obtain ⟨as, s', has⟩ := ih h
        exact ⟨a :: as, s', by rw [replicateM, bind_of_ok hp, bind_of_ok has]; rfl⟩
  · rintro ⟨as, s', h⟩
    rw [valuesUntilFailure_of_eq_ok h, length_of_replicateM_eq_ok h]

/-! ### Programs that do not abort -/

/-- `p`, run from `s`, does not abort, and when it returns then `Q` holds of the result and of the
state it leaves. -/
def Safe (p : Program ε σ α) (s : σ) (Q : α → σ → Prop) : Prop :=
  match p s with
  | .ok a s' => Q a s'
  | .error (.throw _) _ => True
  | .error .abort _ => False

variable {p : Program ε σ α} {s : σ} {Q : α → σ → Prop}

theorem Safe.mono {Q' : α → σ → Prop} (h : Safe p s Q) (hQ : ∀ a s', Q a s' → Q' a s') :
    Safe p s Q' := by
  unfold Safe at *
  split at h
  · exact hQ _ _ h
  · trivial
  · exact h.elim

/-- Safety says exactly that there is no abort and that the postcondition holds on return. -/
theorem safe_iff :
    Safe p s Q ↔ (∀ s', p s ≠ .error .abort s') ∧ ∀ a s', p s = .ok a s' → Q a s' := by
  unfold Safe
  split <;> rename_i h
  · simp [h]
  · simp [h]
  · simp [h]

/-- Any postcondition that holds of everything may be taken to be the trivial one. -/
theorem safe_true_iff : Safe p s (fun _ _ => True) ↔ ∀ s', p s ≠ .error .abort s' := by
  rw [safe_iff]
  exact and_iff_left fun _ _ _ => trivial

/-- A program that cannot return safely throws. -/
theorem safe_false_iff : Safe p s (fun _ _ => False) ↔ ∃ e s', p s = .error (.throw e) s' := by
  unfold Safe
  rcases p s with ⟨a, s'⟩ | ⟨e | _, s'⟩
  · simp
  · simp
  · simp

@[simp] theorem safe_pure {a : α} : Safe (pure a : Program ε σ α) s Q ↔ Q a s := Iff.rfl

@[simp] theorem safe_raise {e : ε} : Safe (raise e : Program ε σ α) s Q ↔ True := Iff.rfl

@[simp] theorem safe_abort : Safe (abort : Program ε σ α) s Q ↔ False := Iff.rfl

@[simp] theorem safe_get {Q : σ → σ → Prop} : Safe (get : Program ε σ σ) s Q ↔ Q s s := Iff.rfl

@[simp] theorem safe_set {s' : σ} {Q : PUnit → σ → Prop} :
    Safe (set s' : Program ε σ PUnit) s Q ↔ Q ⟨⟩ s' := Iff.rfl

@[simp] theorem safe_modify {f : σ → σ} {Q : PUnit → σ → Prop} :
    Safe (modify f : Program ε σ PUnit) s Q ↔ Q ⟨⟩ (f s) := Iff.rfl

/-- A sequence is safe exactly when its first part is, with the safety of the rest as its
postcondition. -/
@[simp] theorem safe_bind {f : α → Program ε σ β} {Q : β → σ → Prop} :
    Safe (p >>= f) s Q ↔ Safe p s fun a s' => Safe (f a) s' Q := by
  unfold Safe
  rw [bind_apply]
  cases p s with
  | ok a s' => rfl
  | error e s' => cases e <;> rfl

@[simp] theorem safe_map {g : α → β} {Q : β → σ → Prop} :
    Safe (g <$> p) s Q ↔ Safe p s fun a s' => Q (g a) s' := by
  unfold Safe
  rw [map_apply]
  cases p s with
  | ok a s' => rfl
  | error e s' => cases e <;> rfl

@[simp] theorem safe_checkThat {c : Prop} [Decidable c] {e : ε} {Q : Unit → σ → Prop} :
    Safe (checkThat c e) s Q ↔ (c → Q () s) := by
  unfold checkThat
  split <;> simp [*]

@[simp] theorem safe_assertThat {c : Prop} [Decidable c] {Q : Unit → σ → Prop} :
    Safe (assertThat c : Program ε σ Unit) s Q ↔ c ∧ Q () s := by
  unfold assertThat
  split <;> simp [*]

@[simp] theorem safe_fromExcept {r : Except ε α} :
    Safe (fromExcept r) s Q ↔ ∀ a, r = .ok a → Q a s := by
  cases r <;> simp [fromExcept]

@[simp] theorem safe_fromOutcome {r : Except (Fault ε) α} :
    Safe (fromOutcome r) s Q ↔ r ≠ .error .abort ∧ ∀ a, r = .ok a → Q a s := by
  rcases r with (e | _) | a <;> simp [Safe, fromOutcome]

@[simp] theorem safe_within {s₀ : σ} {t : τ} {Q : α → τ → Prop} :
    Safe (within s₀ p : Program ε τ α) t Q ↔ Safe p s₀ fun a _ => Q a t := by
  unfold Safe within
  cases p s₀ with
  | ok a s => rfl
  | error e s => cases e <;> rfl

@[simp] theorem safe_withinState {s₀ : σ} {t : τ} {Q : α × σ → τ → Prop} :
    Safe (withinState s₀ p : Program ε τ (α × σ)) t Q ↔ Safe p s₀ fun a s => Q (a, s) t := by
  unfold Safe withinState
  cases p s₀ with
  | ok a s => rfl
  | error e s => cases e <;> rfl

@[simp] theorem safe_onFst {s : σ × τ} {Q : α → σ × τ → Prop} :
    Safe (onFst p : Program ε (σ × τ) α) s Q ↔ Safe p s.1 fun a s₁ => Q a (s₁, s.2) := by
  unfold Safe onFst
  cases p s.1 with
  | ok a s => rfl
  | error e s => cases e <;> rfl

@[simp] theorem safe_onSnd {p : Program ε τ α} {s : σ × τ} {Q : α → σ × τ → Prop} :
    Safe (onSnd p : Program ε (σ × τ) α) s Q ↔ Safe p s.2 fun a s₂ => Q a (s.1, s₂) := by
  unfold Safe onSnd
  cases p s.2 with
  | ok a s => rfl
  | error e s => cases e <;> rfl

@[simp] theorem safe_withLocal {s₀ : σ} {p : Program ε (σ × τ) α} {t : τ} {Q : α → τ → Prop} :
    Safe (withLocal s₀ p) t Q ↔ Safe p (s₀, t) fun a s => Q a s.2 := by
  unfold Safe withLocal
  cases p (s₀, t) with
  | ok a s => rfl
  | error e s => cases e <;> rfl

@[simp] theorem safe_zoom {part : τ → σ} {put : σ → τ → τ} {t : τ} {Q : α → τ → Prop} :
    Safe (zoom part put p) t Q ↔ Safe p (part t) fun a s => Q a (put s t) := by
  unfold Safe zoom
  cases p (part t) with
  | ok a s => rfl
  | error e s => cases e <;> rfl

/-- A sequence is safe exactly when its first part is, and the rest wherever that returns. -/
theorem safe_bind_iff {f : α → Program ε σ β} {Q : β → σ → Prop} :
    Safe (p >>= f) s Q ↔
      Safe p s (fun _ _ => True) ∧ ∀ a s', p s = .ok a s' → Safe (f a) s' Q := by
  rw [safe_bind, safe_iff, ← safe_true_iff]

theorem safe_bind_of_ok {f : α → Program ε σ β} {Q : β → σ → Prop} {a : α} {s' : σ}
    (h : p s = .ok a s') : Safe (p >>= f) s Q ↔ Safe (f a) s' Q := by
  unfold Safe
  rw [bind_of_ok h]

theorem safe_bind_of_throw {f : α → Program ε σ β} {Q : β → σ → Prop} {e : ε} {s' : σ}
    (h : p s = .error (.throw e) s') : Safe (p >>= f) s Q := by
  unfold Safe
  rw [bind_of_error h]
  trivial

/-- Only the run matters. -/
theorem safe_congr_run {q : Program ε σ α} (h : p s = q s) : Safe p s Q ↔ Safe q s Q := by
  unfold Safe
  rw [h]

/-- Each round of a repeated program starts where `P` holds, as far as the rounds before it return. Rounds
behind one that does not return are never started, and nothing is asked of them. -/
def Rounds (P : σ → Prop) (p : Program ε σ α) : ℕ → σ → Prop
  | 0, _ => True
  | n + 1, s => P s ∧ ∀ a s', p s = .ok a s' → Rounds P p n s'

/-- A repeated program is safe exactly when each of its rounds is. -/
theorem safe_replicateM_iff {P : σ → Prop} (hP : ∀ s, Safe p s (fun _ _ => True) ↔ P s) (n : ℕ) :
    ∀ s, Safe (replicateM p n) s (fun _ _ => True) ↔ Rounds P p n s := by
  induction n with
  | zero => exact fun s => Iff.rfl
  | succ n ih =>
    intro s
    simp only [replicateM, safe_bind, safe_pure, ih, Rounds]
    rw [safe_iff, ← hP, safe_true_iff]

/-- `S` holds of the elements of a list, up to the first that fails `P`. What is behind that element is never
looked at. -/
def UntilFailure {β : Type} (P S : β → Prop) : List β → Prop
  | [] => True
  | x :: xs => S x ∧ (P x → UntilFailure P S xs)

/-- A loop of checks is safe exactly when its checks are, up to the first that throws. -/
theorem safe_forM_iff {β : Type} {f : β → Program ε σ Unit} {P S : β → Prop}
    (hf : ∀ x s s' u, f x s = .ok u s' ↔ P x ∧ s = s')
    (hS : ∀ x s, Safe (f x) s (fun _ _ => True) ↔ S x) {xs : List β} {s : σ} :
    Safe (xs.forM f) s (fun _ _ => True) ↔ UntilFailure P S xs := by
  induction xs with
  | nil => exact Iff.rfl
  | cons x xs ih =>
    change Safe (f x >>= fun _ => xs.forM f) s _ ↔ _
    rw [safe_bind, safe_iff, ← safe_true_iff, hS, UntilFailure]
    refine and_congr_right fun _ => ?_
    simp only [hf]
    constructor
    · exact fun h hx => ih.mp (h () s ⟨hx, rfl⟩)
    · rintro h _ _ ⟨hx, rfl⟩
      exact ih.mpr (h hx)

/-- Catching is safe when the program is, and every handler it may run into is. -/
theorem safe_catching {handle : ε → Option (Program ε σ α)} :
    Safe (catching p handle) s Q ↔
      Safe p s Q ∧ ∀ e s' h, p s = .error (.throw e) s' → handle e = some h → Safe h s' Q := by
  rcases hp : p s with ⟨a, s'⟩ | ⟨e | _, s'⟩
  · simp [Safe, catching, hp]
  · rcases hh : handle e with _ | h
    · have hno : ∀ e' s'' h, e = e' → s' = s'' → handle e' = some h → Safe h s'' Q := by
        rintro e' s'' h rfl rfl heq
        simp [hh] at heq
      simpa [Safe, catching, hp, hh] using hno
    · have hcatch : Safe (catching p handle) s Q ↔ Safe h s' Q := by
        simp [Safe, catching, hp, hh]
      have hp' : Safe p s Q := by simp [Safe, hp]
      rw [hcatch, and_iff_right hp']
      constructor
      · intro hs e' s'' h' heq hh'
        obtain ⟨rfl, rfl⟩ : e = e' ∧ s' = s'' := by simpa using heq
        obtain rfl : h = h' := by simpa [hh] using hh'
        exact hs
      · exact fun hs => hs e s' h rfl hh
  · simp [Safe, catching, hp]

/-- Handlers that only return are safe. -/
theorem safe_catching_pure {handle : ε → Option (Program ε σ α)}
    (h : ∀ e q, handle e = some q → ∃ a, q = pure a) :
    Safe (catching p handle) s (fun _ _ => True) ↔ Safe p s fun _ _ => True := by
  rw [safe_catching]
  refine and_iff_left fun e s' q _ hq => ?_
  obtain ⟨a, rfl⟩ := h e q hq
  trivial

/-- A program whose exceptions are answered in the way of its returning returns that, unless it aborts. -/
theorem exists_catching_eq_ok_iff {β : Type} {b c : β} :
    (∃ s', catching (p >>= fun _ => pure b) (fun _ => some (pure b)) s = .ok c s') ↔
      Safe p s (fun _ _ => True) ∧ c = b := by
  rcases hp : p s with ⟨a, s'⟩ | ⟨e | _, s'⟩
  · simp [catching, bind_apply, Safe, hp, eq_comm]
  · simp [catching, bind_apply, Safe, hp, eq_comm]
  · simp [catching, bind_apply, Safe, hp]

/-! ### Programs that abort from no state -/

/-- No run of `p` aborts. It is about every state, so it is a property of the code alone. -/
def NoAbort (p : Program ε σ α) : Prop := ∀ s s', p s ≠ .error .abort s'

theorem noAbort_iff_safe : NoAbort p ↔ ∀ s, Safe p s fun _ _ => True :=
  forall_congr' fun _ => safe_true_iff.symm

namespace NoAbort

theorem safe (h : NoAbort p) (s : σ) : Safe p s fun _ _ => True := noAbort_iff_safe.mp h s

/-- For a program that does not abort, safety is about what it returns with. -/
theorem safe_iff (h : NoAbort p) {s : σ} {Q : α → σ → Prop} :
    Safe p s Q ↔ ∀ a s', p s = .ok a s' → Q a s' := by
  rw [Program.safe_iff, and_iff_right (h s)]

theorem pure (a : α) : NoAbort (Pure.pure a : Program ε σ α) := by
  simp [NoAbort]

theorem raise (e : ε) : NoAbort (raise e : Program ε σ α) := by
  simp [NoAbort]

theorem get : NoAbort (get : Program ε σ σ) := by
  simp [NoAbort]

theorem set (s₀ : σ) : NoAbort (set s₀ : Program ε σ PUnit) := by
  simp [NoAbort]

theorem modify (f : σ → σ) : NoAbort (modify f : Program ε σ PUnit) := by
  simp [NoAbort]

theorem checkThat (c : Prop) [Decidable c] (e : ε) :
    NoAbort (checkThat c e : Program ε σ Unit) := by
  simp [noAbort_iff_safe]

theorem assertThat {c : Prop} [Decidable c] (h : c) :
    NoAbort (assertThat c : Program ε σ Unit) := by
  simp [noAbort_iff_safe, h]

theorem fromExcept (r : Except ε α) : NoAbort (fromExcept r : Program ε σ α) := by
  simp [noAbort_iff_safe]

theorem bind {f : α → Program ε σ β} (hp : NoAbort p) (hf : ∀ a, NoAbort (f a)) :
    NoAbort (p >>= f) := by
  rw [noAbort_iff_safe]
  intro s
  rw [safe_bind]
  exact (hp.safe s).mono fun a s' _ => (hf a).safe s'

/-- What follows and does not abort makes no difference. -/
theorem safe_bind_iff {f : α → Program ε σ β} (hf : ∀ a, NoAbort (f a)) :
    Safe (p >>= f) s (fun _ _ => True) ↔ Safe p s fun _ _ => True := by
  rw [Program.safe_bind_iff]
  exact and_iff_left fun a s' _ => (hf a).safe s'

theorem ite {c : Prop} [Decidable c] {q : Program ε σ α} (hp : NoAbort p) (hq : NoAbort q) :
    NoAbort (if c then p else q) := by
  split
  · exact hp
  · exact hq

theorem within (h : NoAbort p) (s₀ : σ) : NoAbort (within s₀ p : Program ε τ α) := by
  rw [noAbort_iff_safe]
  exact fun t => safe_within.mpr (h.safe s₀)

theorem withinState (h : NoAbort p) (s₀ : σ) :
    NoAbort (withinState s₀ p : Program ε τ (α × σ)) := by
  rw [noAbort_iff_safe]
  exact fun t => safe_withinState.mpr (h.safe s₀)

theorem catching {handle : ε → Option (Program ε σ α)} (hp : NoAbort p)
    (hh : ∀ e h, handle e = some h → NoAbort h) : NoAbort (catching p handle) := by
  rw [noAbort_iff_safe]
  exact fun s => safe_catching.mpr ⟨hp.safe s, fun e s' h _ hhandle => (hh e h hhandle).safe s'⟩

theorem forM {β : Type} {f : β → Program ε σ Unit} {xs : List β} (h : ∀ x ∈ xs, NoAbort (f x)) :
    NoAbort (xs.forM f) := by
  induction xs with
  | nil => exact pure ()
  | cons x xs ih =>
    exact bind (h x List.mem_cons_self) fun _ => ih fun y hy => h y (List.mem_cons_of_mem _ hy)

theorem foldlM {β γ : Type} {f : γ → β → Program ε σ γ} (h : ∀ c x, NoAbort (f c x)) (xs : List β) :
    ∀ c, NoAbort (xs.foldlM f c) := by
  induction xs with
  | nil => exact fun c => pure c
  | cons x xs ih =>
    intro c
    rw [List.foldlM_cons]
    exact bind (h c x) ih

end NoAbort

/-! ### States that programs leave -/

/-- The state a run leaves, however it ends. With it the state is followed through code that may throw. -/
def finalState (p : Program ε σ α) (s : σ) : σ :=
  match p s with
  | .ok _ s' => s'
  | .error _ s' => s'

theorem finalState_of_ok {s' : σ} {a : α} (h : p s = .ok a s') : finalState p s = s' := by
  rw [finalState, h]

theorem finalState_of_error {s' : σ} {e : Fault ε} (h : p s = .error e s') :
    finalState p s = s' := by
  rw [finalState, h]

theorem finalState_congr {q g : Program ε σ β} (h : q s = g s) :
    finalState q s = finalState g s := by
  rw [finalState, h, finalState]

theorem finalState_bind_of_ok {f : α → Program ε σ β} {s' : σ} {a : α} (h : p s = .ok a s') :
    finalState (p >>= f) s = finalState (f a) s' := by
  rw [finalState, bind_of_ok h, finalState]

theorem finalState_bind_of_error {f : α → Program ε σ β} {s' : σ} {e : Fault ε}
    (h : p s = .error e s') : finalState (p >>= f) s = s' := by
  rw [finalState, bind_of_error h]

/-- What a run returns, if it does. -/
def returned (p : Program ε σ α) (s : σ) : Option α :=
  match p s with
  | .ok a _ => some a
  | .error _ _ => none

theorem returned_eq_some_iff {a : α} : returned p s = some a ↔ ∃ s', p s = .ok a s' := by
  unfold returned
  cases p s with
  | ok b s' => simp
  | error e s' => simp

/-- A run that returns ends in the state it leaves. -/
theorem eq_ok_finalState {a : α} (h : returned p s = some a) : p s = .ok a (finalState p s) := by
  obtain ⟨s', hrun⟩ := returned_eq_some_iff.mp h
  rw [finalState_of_ok hrun, hrun]

/-- Returning something else leaves the same state. -/
theorem finalState_bind_pure (g : α → β) :
    finalState (p >>= fun a => pure (g a)) s = finalState p s := by
  unfold finalState
  rw [bind_apply]
  cases p s <;> rfl

theorem finalState_map (g : α → β) : finalState (g <$> p) s = finalState p s := by
  unfold finalState
  rw [map_apply]
  cases p s <;> rfl

theorem finalState_discard : finalState (discard p) s = finalState p s :=
  finalState_map _

/-- However it ends, a program next to a local object leaves what it leaves of the state. -/
theorem finalState_withLocal {s₀ : σ} {q : Program ε (σ × τ) α} {t : τ} :
    finalState (withLocal s₀ q) t = (finalState q (s₀, t)).2 := by
  unfold finalState withLocal
  cases q (s₀, t) <;> rfl

theorem finalState_onSnd_snd {q : Program ε τ α} {s : σ × τ} :
    (finalState (onSnd q : Program ε (σ × τ) α) s).2 = finalState q s.2 := by
  unfold finalState onSnd
  cases q s.2 <;> rfl

theorem finalState_zoom {part : τ → σ} {put : σ → τ → τ} {t : τ} :
    finalState (zoom part put p) t = put (finalState p (part t)) t := by
  unfold finalState zoom
  cases p (part t) <;> rfl

/-- What was read before a failure has been put. -/
theorem finalState_replicateM_readPut (read : Program ε σ α) (put : τ → α → τ) (n : ℕ) (s : σ × τ) :
    (finalState (replicateM (readPut read put) n) s).2 =
      (valuesUntilFailure read n s.1).foldl put s.2 := by
  induction n generalizing s with
  | zero => rfl
  | succ n ih =>
    obtain ⟨s₁, t⟩ := s
    cases hread : read s₁ with
    | error e s₂ =>
      rw [replicateM, finalState_bind_of_error (readPut_of_error hread)]
      simp only [valuesUntilFailure, hread, List.foldl_nil]
    | ok a s₂ =>
      rw [replicateM, finalState_bind_of_ok (readPut_of_ok hread), finalState_bind_pure, ih]
      simp only [valuesUntilFailure, hread, List.foldl_cons]

/-- Handlers that only return leave the state that was left when they were entered. -/
theorem finalState_catching_pure {handle : ε → Option (Program ε σ α)}
    (h : ∀ e q, handle e = some q → ∃ a, q = pure a) :
    finalState (catching p handle) s = finalState p s := by
  unfold finalState catching
  rcases hp : p s with ⟨a, s'⟩ | ⟨e | _, s'⟩
  · rfl
  · cases hq : handle e with
    | none => simp [hq]
    | some q =>
      obtain ⟨a, rfl⟩ := h e q hq
      simp [hq]
  · rfl

/-- However it ends, a run from a state in `I` leaves a state in `I`. It is what code that may throw at any
place has to keep. -/
def Preserves (I : σ → Prop) (p : Program ε σ α) : Prop :=
  ∀ s, I s → I (finalState p s)

namespace Preserves

variable {I : σ → Prop}

theorem pure (a : α) : Preserves I (Pure.pure a : Program ε σ α) := fun _ h => h

theorem raise (e : ε) : Preserves I (raise e : Program ε σ α) := fun _ h => h

theorem abort : Preserves I (abort : Program ε σ α) := fun _ h => h

theorem checkThat (c : Prop) [Decidable c] (e : ε) : Preserves I (checkThat c e) := by
  unfold Program.checkThat
  split
  · exact pure ()
  · exact raise e

theorem assertThat (c : Prop) [Decidable c] : Preserves I (assertThat c : Program ε σ Unit) := by
  unfold Program.assertThat
  split
  · exact pure ()
  · exact abort

theorem fromExcept (r : Except ε α) : Preserves I (fromExcept r) := by
  cases r with
  | ok a => exact pure a
  | error e => exact raise e

/-- A sequence preserves an invariant when its first part does, and its second part does from where
the first one may stop. -/
theorem bind_of {f : α → Program ε σ β} (hp : Preserves I p)
    (hf : ∀ s a s', I s → p s = .ok a s' → I s' → I (finalState (f a) s')) :
    Preserves I (p >>= f) := by
  intro s hs
  have hfst := hp s hs
  cases hrun : p s with
  | ok a s' =>
    rw [finalState_of_ok hrun] at hfst
    rw [finalState, bind_of_ok hrun]
    exact hf s a s' hs hrun hfst
  | error e s' =>
    rw [finalState_of_error hrun] at hfst
    rwa [finalState, bind_of_error hrun]

/-- A sequence goes on within an invariant that holds where its first part stops. The invariant has to be
known only where the first part ends. -/
theorem finalState_bind {f : α → Program ε σ β} {s : σ} (hp : I (finalState p s))
    (hf : ∀ a, Preserves I (f a)) : I (finalState (p >>= f) s) := by
  cases hrun : p s with
  | ok a s' =>
    rw [finalState_of_ok hrun] at hp
    rw [finalState_bind_of_ok hrun]
    exact hf a s' hp
  | error e s' =>
    rw [finalState_of_error hrun] at hp
    rwa [finalState_bind_of_error hrun]

/-- A sequence ends in a second invariant, when its first part preserves one that implies it, and its second
part takes the one to the other. -/
theorem finalState_bind_of_preserves {J : σ → Prop} {f : α → Program ε σ β} {s : σ}
    (hp : Preserves J p) (hJ : ∀ s, J s → I s) (hf : ∀ a s, J s → I (finalState (f a) s)) (h : J s) :
    I (finalState (p >>= f) s) := by
  have hfst := hp s h
  cases hrun : p s with
  | ok a s' =>
    rw [finalState_of_ok hrun] at hfst
    rw [finalState_bind_of_ok hrun]
    exact hf a s' hfst
  | error e s' =>
    rw [finalState_of_error hrun] at hfst
    rw [finalState_bind_of_error hrun]
    exact hJ s' hfst

/-- A sequence preserves what both of its parts preserve. -/
theorem bind {f : α → Program ε σ β} (hp : Preserves I p) (hf : ∀ a, Preserves I (f a)) :
    Preserves I (p >>= f) :=
  bind_of hp fun _ a s' _ _ hs' => hf a s' hs'

/-- What only reads the state, and goes on with what it has read. -/
theorem get_bind {f : σ → Program ε σ β} (hf : ∀ s, I s → I (finalState (f s) s)) :
    Preserves I (get >>= f) :=
  fun s hs => hf s hs

theorem modify {f : σ → σ} (hf : ∀ s, I s → I (f s)) :
    Preserves I (modify f : Program ε σ PUnit) :=
  fun s hs => hf s hs

theorem within {s₀ : τ} {p : Program ε τ α} : Preserves I (within s₀ p) := by
  intro s hs
  unfold finalState Program.within
  cases p s₀ <;> exact hs

theorem withinState {s₀ : τ} {p : Program ε τ α} : Preserves I (withinState s₀ p) := by
  intro s hs
  unfold finalState Program.withinState
  cases p s₀ <;> exact hs

theorem ite {c : Prop} [Decidable c] {q : Program ε σ α} (hp : Preserves I p)
    (hq : Preserves I q) : Preserves I (if c then p else q) := by
  split
  · exact hp
  · exact hq

theorem forM {β : Type} {f : β → Program ε σ Unit} {xs : List β}
    (h : ∀ x ∈ xs, Preserves I (f x)) : Preserves I (xs.forM f) := by
  induction xs with
  | nil => exact pure ()
  | cons x xs ih =>
    exact bind (h x List.mem_cons_self) fun _ => ih fun y hy => h y (List.mem_cons_of_mem _ hy)

/-- Running on a part of the state that the invariant does not read. -/
theorem zoom {part : σ → τ} {put : τ → σ → σ} {p : Program ε τ α}
    (hput : ∀ t s, I s → I (put t s)) : Preserves I (zoom part put p) := by
  intro s hs
  unfold finalState Program.zoom
  cases p (part s) with
  | ok a t => exact hput t s hs
  | error e t => exact hput t s hs

/-- The handler goes on within an invariant that holds where an exception was thrown. -/
theorem finalState_catching {handle : ε → Option (Program ε σ α)} {s : σ} (hp : I (finalState p s))
    (hh : ∀ e h, handle e = some h → Preserves I h) : I (finalState (Program.catching p handle) s) := by
  rcases h : p s with ⟨a, s'⟩ | ⟨e | _, s'⟩
  · rw [finalState_of_ok h] at hp
    rwa [finalState_of_ok (catching_eq_ok_iff.mpr (.inl h))]
  · rw [finalState_of_error h] at hp
    cases hhandle : handle e with
    | none => simpa [finalState, Program.catching, h, hhandle] using hp
    | some handler =>
      have heq : finalState (Program.catching p handle) s = finalState handler s' := by
        simp [finalState, Program.catching, h, hhandle]
      exact heq ▸ hh e handler hhandle s' hp
  · rw [finalState_of_error h] at hp
    simpa [finalState, Program.catching, h] using hp

/-- A handler that is entered preserves the invariant too. -/
theorem catching {handle : ε → Option (Program ε σ α)} (hp : Preserves I p)
    (hh : ∀ e h, handle e = some h → Preserves I h) : Preserves I (catching p handle) :=
  fun s hs => finalState_catching (hp s hs) hh

end Preserves

/-- From a state in `I`, a run that returns ends in `Q`, and a run that does not return stays in `I`. A loop
that must not be left in the middle is described by it: what was begun is either done, or not to be seen. -/
def Finishes (I Q : σ → Prop) (p : Program ε σ α) : Prop :=
  ∀ s, I s → match p s with
    | .ok _ s' => Q s'
    | .error _ s' => I s'

namespace Finishes

variable {I Q : σ → Prop}

theorem of_ok (h : Finishes I Q p) {s s' : σ} {a : α} (hs : I s) (hp : p s = .ok a s') : Q s' := by
  have hrun := h s hs
  rwa [hp] at hrun

theorem of_error (h : Finishes I Q p) {s s' : σ} {e : Fault ε} (hs : I s) (hp : p s = .error e s') :
    I s' := by
  have hrun := h s hs
  rwa [hp] at hrun

/-- A program that finishes in its invariant keeps it. -/
theorem preserves (h : Finishes I I p) : Preserves I p := by
  intro s hs
  cases hp : p s with
  | ok a s' =>
    rw [finalState_of_ok hp]
    exact h.of_ok hs hp
  | error e s' =>
    rw [finalState_of_error hp]
    exact h.of_error hs hp

theorem raise (e : ε) : Finishes I Q (raise e : Program ε σ α) := fun _ h => h

theorem modify {f : σ → σ} (hf : ∀ s, I s → Q (f s)) : Finishes I Q (modify f : Program ε σ PUnit) :=
  fun s hs => hf s hs

/-- A sequence finishes when its first part keeps the invariant, and its second part finishes. -/
theorem bind {f : α → Program ε σ β} (hp : Preserves I p) (hf : ∀ a, Finishes I Q (f a)) :
    Finishes I Q (p >>= f) := by
  intro s hs
  have hfst := hp s hs
  cases hrun : p s with
  | ok a s' =>
    rw [finalState_of_ok hrun] at hfst
    rw [bind_of_ok hrun]
    exact hf a s' hfst
  | error e s' =>
    rw [finalState_of_error hrun] at hfst
    rwa [bind_of_error hrun]

/-- What is read from the state may be used when the rest runs from that state. -/
theorem get_bind {f : σ → Program ε σ α}
    (hf : ∀ s, I s → match f s s with | .ok _ s' => Q s' | .error _ s' => I s') :
    Finishes I Q (get >>= f) :=
  fun s hs => hf s hs

theorem ite {c : Prop} [Decidable c] {q : Program ε σ α} (hp : Finishes I Q p) (hq : Finishes I Q q) :
    Finishes I Q (if c then p else q) := by
  split
  · exact hp
  · exact hq

/-- Where an exception was thrown, the handler finishes. -/
theorem catching {handle : ε → Option (Program ε σ α)} (hp : Finishes I Q p)
    (hh : ∀ e h, handle e = some h → Finishes I Q h) : Finishes I Q (Program.catching p handle) := by
  intro s hs
  have hrun := hp s hs
  rcases h : p s with ⟨a, s'⟩ | ⟨e | _, s'⟩
  · rw [h] at hrun
    simpa only [Program.catching, h] using hrun
  · rw [h] at hrun
    cases hhandle : handle e with
    | none => simpa only [Program.catching, h, hhandle] using hrun
    | some handler => simpa only [Program.catching, h, hhandle] using hh e handler hhandle s' hrun
  · rw [h] at hrun
    simpa only [Program.catching, h] using hrun

end Finishes

end Program

end Toolkit
