import Mathlib.Data.List.Basic

/-!
# Lifetimes of objects

A log lists actions in the order in which they happened. Each action is on an object, and some of them
delete it. In a log that respects the lifetimes nothing happens to an object behind its deletion, so it
is deleted at most once (`count_le_one_of_respectsLifetimes`).

The log is what a program with manual or asynchronous deletion can be checked by from outside: the model of
the program writes down each use of an object, and each deletion, where the source makes it. The property is
then one of the log alone, and it is kept by a step exactly when the step does nothing to objects that were
deleted (`respectsLifetimes_concat`). How objects are told apart, and what the actions are, is left open; an
object whose place is used again for a new one has to get a new name in the log.
-/

namespace Toolkit

variable {α ι : Type} (object : α → ι) (Deletes : α → Prop)

/-- Nothing happens to an object behind its deletion. A second deletion is an action like any other, so that
an object is deleted once at most. -/
def RespectsLifetimes (log : List α) : Prop :=
  ∀ before d after, log = before ++ d :: after → Deletes d → ∀ a ∈ after, object a ≠ object d

/-- The log has the deletion of an object. -/
def Deleted (i : ι) (log : List α) : Prop :=
  ∃ d ∈ log, Deletes d ∧ object d = i

variable {object Deletes}

theorem deleted_concat {i : ι} {log : List α} {a : α} : Deleted object Deletes i (log ++ [a]) ↔
    Deleted object Deletes i log ∨ Deletes a ∧ object a = i := by
  simp [Deleted, or_and_right, exists_or]

theorem respectsLifetimes_nil : RespectsLifetimes object Deletes [] := by
  intro before d after h
  simp at h

/-- An action respects the lifetimes when its object was not deleted. It is the step lemma of the results on
runs: all that has to be known of the log is which objects it deletes. -/
theorem respectsLifetimes_concat {log : List α} {a : α} : RespectsLifetimes object Deletes (log ++ [a]) ↔
    RespectsLifetimes object Deletes log ∧ ¬ Deleted object Deletes (object a) log := by
  constructor
  · intro h
    refine ⟨fun before d after heq hd b hb => ?_, ?_⟩
    · exact h before d (after ++ [a]) (by simp [heq]) hd b (List.mem_append_left _ hb)
    · rintro ⟨d, hd, hdeletes, hobject⟩
      obtain ⟨before, after, rfl⟩ := List.append_of_mem hd
      exact h before d (after ++ [a]) (by simp) hdeletes a (by simp) hobject.symm
  · rintro ⟨hlog, halive⟩ before d after heq hd b hb
    rcases List.eq_nil_or_concat' after with rfl | ⟨after, last, rfl⟩
    · exact absurd hb List.not_mem_nil
    · rw [← List.cons_append, ← List.append_assoc] at heq
      obtain ⟨rfl, hlast⟩ := List.append_inj' heq rfl
      obtain rfl : a = last := List.singleton_inj.mp hlast
      rcases List.mem_append.mp hb with hb | hb
      · exact hlog before d after rfl hd b hb
      · obtain rfl := List.mem_singleton.mp hb
        exact fun hobject => halive ⟨d, by simp, hd, hobject.symm⟩

/-- A deletion happens at most once. -/
theorem count_le_one_of_respectsLifetimes [DecidableEq α] {log : List α}
    (h : RespectsLifetimes object Deletes log) {d : α} (hd : Deletes d) : log.count d ≤ 1 := by
  by_cases hmem : d ∈ log
  · obtain ⟨before, after, rfl, hbefore⟩ := List.eq_append_cons_of_mem hmem
    have hafter : d ∉ after := fun hagain => h before d after rfl hd d hagain rfl
    have hcount : (before ++ d :: after).count d = 1 := by
      rw [List.count_append, List.count_cons_self, List.count_eq_zero_of_not_mem hbefore,
        List.count_eq_zero_of_not_mem hafter]
    exact Nat.le_of_eq hcount
  · exact Nat.le_of_lt (Nat.lt_one_iff.mpr (List.count_eq_zero_of_not_mem hmem))

end Toolkit
