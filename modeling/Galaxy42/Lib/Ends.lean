import Galaxy42.Lib.Program

/-!
# How programs end

`Ends p s Q E` says that `p`, run from `s`, does not abort, that `Q` holds when it returns, and that `E`
holds when it throws an exception. It has a rule for each way to build a program. For a sequence the second
part is a postcondition of the first one, and for a `catch` block the handler is a postcondition of the
exceptions that it catches. With these rules, the condition under which a program ends in some way is
computed from its text.

All rules but the one for `catch` are equivalences, and are `simp` lemmas where the program is a single
operation. So they can be used in both directions: to show that a program ends well, and to find out what
must have been the case when it did. The rule for `catch` is stated for handlers of every exception
(`ends_catching`), which is the form in which a handler of a connection appears.

`Safe` in `Program` is the special case in which nothing is said of the exception; here it is said, because
what a session does behind an exception depends on which one it was.
-/

namespace Toolkit

namespace Program

variable {ε σ τ α β : Type}

/-- `p`, run from `s`, returns with `Q` or throws with `E`. A run that aborts does not end in this sense. -/
def Ends (p : Program ε σ α) (s : σ) (Q : α → σ → Prop) (E : ε → σ → Prop) : Prop :=
  match p s with
  | .ok a s' => Q a s'
  | .error (.throw e) s' => E e s'
  | .error .abort _ => False

variable {p : Program ε σ α} {s s' : σ} {Q Q' : α → σ → Prop} {E E' : ε → σ → Prop}

theorem ends_of_ok {a : α} (h : p s = .ok a s') : Ends p s Q E ↔ Q a s' := by
  rw [Ends, h]

/-- Only what holds of the results and of the exceptions counts. -/
theorem ends_congr (hQ : ∀ a s', p s = .ok a s' → (Q a s' ↔ Q' a s'))
    (hE : ∀ e s', p s = .error (.throw e) s' → (E e s' ↔ E' e s')) : Ends p s Q E ↔ Ends p s Q' E' := by
  unfold Ends
  split <;> rename_i h
  · exact hQ _ _ h
  · exact hE _ _ h
  · exact Iff.rfl

/-- A program returns exactly when it ends without an exception. -/
theorem ends_return_iff : Ends p s (fun _ _ => True) (fun _ _ => False) ↔ ∃ a s', p s = .ok a s' := by
  unfold Ends
  split <;> simp [*]

@[simp] theorem ends_pure {a : α} : Ends (pure a : Program ε σ α) s Q E ↔ Q a s := Iff.rfl

@[simp] theorem ends_raise {e : ε} : Ends (raise e : Program ε σ α) s Q E ↔ E e s := Iff.rfl

@[simp] theorem ends_get {Q : σ → σ → Prop} : Ends (get : Program ε σ σ) s Q E ↔ Q s s := Iff.rfl

@[simp] theorem ends_set {s' : σ} {Q : PUnit → σ → Prop} :
    Ends (set s' : Program ε σ PUnit) s Q E ↔ Q ⟨⟩ s' := Iff.rfl

@[simp] theorem ends_modify {f : σ → σ} {Q : PUnit → σ → Prop} :
    Ends (modify f : Program ε σ PUnit) s Q E ↔ Q ⟨⟩ (f s) := Iff.rfl

/-- A sequence ends as its second part does, behind its first part. An exception of the first part ends the
whole. -/
@[simp] theorem ends_bind {f : α → Program ε σ β} {Q : β → σ → Prop} :
    Ends (p >>= f) s Q E ↔ Ends p s (fun a s' => Ends (f a) s' Q E) E := by
  rcases h : p s with ⟨a, s'⟩ | ⟨e | _, s'⟩
  · simp [Ends, bind_apply, h]
  · simp [Ends, bind_apply, h]
  · simp [Ends, bind_apply, h]

@[simp] theorem ends_checkThat {c : Prop} [Decidable c] {e : ε} {Q : Unit → σ → Prop} :
    Ends (checkThat c e) s Q E ↔ if c then Q () s else E e s := by
  by_cases h : c <;> simp [Ends, checkThat_apply, h]

@[simp] theorem ends_assertThat {c : Prop} [Decidable c] {Q : Unit → σ → Prop} :
    Ends (assertThat c) s Q E ↔ c ∧ Q () s := by
  by_cases h : c <;> simp [Ends, assertThat_apply, h]

@[simp] theorem ends_fromExcept {r : Except ε α} : Ends (fromExcept r) s Q E ↔
    match r with
    | .ok a => Q a s
    | .error e => E e s := by
  cases r <;> exact Iff.rfl

/-- The same result is computed in two programs. -/
theorem ends_fromExcept_bind_congr {γ : Type} {r : Except ε γ} {f : γ → Program ε σ α}
    {g : γ → Program ε τ β} {t : τ} {Q' : β → τ → Prop} {E' : ε → τ → Prop}
    (hf : ∀ c, Ends (f c) s Q E ↔ Ends (g c) t Q' E') (hE : ∀ e, E e s ↔ E' e t) :
    Ends (fromExcept r >>= f) s Q E ↔ Ends (fromExcept r >>= g) t Q' E' := by
  rw [ends_bind, ends_bind, ends_fromExcept, ends_fromExcept]
  cases r with
  | ok c => exact hf c
  | error e => exact hE e

/-- The program works on a part of the state. -/
theorem ends_zoom {part : τ → σ} {put : σ → τ → τ} {t : τ} {Q : α → τ → Prop} {E : ε → τ → Prop} :
    Ends (zoom part put p) t Q E ↔
      Ends p (part t) (fun a s => Q a (put s t)) (fun e s => E e (put s t)) := by
  rcases h : p (part t) with ⟨a, s'⟩ | ⟨e | _, s'⟩
  · simp [Ends, zoom, h]
  · simp [Ends, zoom, h]
  · simp [Ends, zoom, h]

theorem ends_ite {c : Prop} [Decidable c] {q : Program ε σ α} :
    Ends (if c then p else q) s Q E ↔ if c then Ends p s Q E else Ends q s Q E := by
  split <;> rfl

/-- With a handler for every exception, the handler is what an exception leads to. -/
theorem ends_catching {handle : ε → Program ε σ α} :
    Ends (catching p fun e => some (handle e)) s Q E ↔
      Ends p s Q (fun e s' => Ends (handle e) s' Q E) := by
  rcases h : p s with ⟨a, s'⟩ | ⟨e | _, s'⟩
  · simp [Ends, catching, h]
  · simp [Ends, catching, h]
  · simp [Ends, catching, h]

end Program

end Toolkit
