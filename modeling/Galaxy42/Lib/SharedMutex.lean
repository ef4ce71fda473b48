import Mathlib.Data.Finset.Basic

/-!
# Mutexes that are shared by readers

A mutex is held by one writer, or by any number of readers. Threads do what they do in several steps, and
what a thread is about says which mutexes it holds. `HeldBy` says that the mutex agrees with the threads;
each way to take or release it keeps that, when the thread goes on as if it had it or not
(`HeldBy.lock`, `HeldBy.unlock`, `HeldBy.lockShared`, `HeldBy.unlockShared`, `HeldBy.keep`). While someone
holds it exclusively nobody else holds it (`HeldBy.alone`).

What a function does to an object that others may see meanwhile is a number of accesses, each at once
(`Accesses`), or of readings when it must not change the object (`Readings`). Such a function is not run in
one step, so that the steps of other threads may come between its accesses; its result when nobody else
changes the object is `run`.

The two sides of the mutex are stored apart: the mutex has the threads that hold it, and a thread has, in
what it is about, the mutexes that it holds. In a program only the first exists. The second is what the text
of the program between a lock and its end says, and `HeldBy` is the invariant that the two agree, from which
exclusion follows with no look at how the threads were interleaved.
-/

namespace Toolkit

/-! ### Functions that take several steps -/

/-- What a function does to an object, one access after the other, and what it returns. An access may change
the object, and what comes next may depend on what was found there. -/
inductive Accesses (τ ρ : Type) where
  | done (ret : ρ)
  | access (change : τ → τ) (next : τ → Accesses τ ρ)

/-- The result of a function when nobody else changes the object, and what it leaves there. -/
def Accesses.run {τ ρ : Type} : Accesses τ ρ → τ → ρ × τ
  | done ret, obj => (ret, obj)
  | access change next, obj => (next obj).run (change obj)

/-- What a function does that only looks at an object. Such functions can share a lock, as none of them sees
what another does. -/
inductive Readings (τ ρ : Type) where
  | done (ret : ρ)
  | read (next : τ → Readings τ ρ)

/-- The result of such a function when nobody changes the object. -/
def Readings.run {τ ρ : Type} : Readings τ ρ → τ → ρ
  | done ret, _ => ret
  | read next, obj => (next obj).run obj

/-! ### The mutex -/

/-- A mutex with the threads that hold it. Its operations do not check that they are allowed, which is up to
the steps of a thread. -/
structure SharedMutex (ι : Type) where
  /-- The thread that holds it exclusively. -/
  writer : Option ι
  /-- The threads that share it. -/
  readers : Finset ι

namespace SharedMutex

variable {ι : Type}

/-- A mutex that nobody holds. -/
def unlocked : SharedMutex ι := ⟨none, ∅⟩

/-- The mutex is not held, so it can be locked. A thread that wants the mutex for itself waits for this. -/
def Free (m : SharedMutex ι) : Prop := m.writer = none ∧ m.readers = ∅

/-- The mutex is not held exclusively, so it can be shared. Other readers do not keep a reader from sharing
it. -/
def Shareable (m : SharedMutex ι) : Prop := m.writer = none

/-- Lock the mutex. -/
def lock (m : SharedMutex ι) (i : ι) : SharedMutex ι := { m with writer := some i }

/-- Unlock the mutex. -/
def unlock (m : SharedMutex ι) : SharedMutex ι := { m with writer := none }

/-- Lock the mutex as a reader. -/
def lockShared [DecidableEq ι] (m : SharedMutex ι) (i : ι) : SharedMutex ι :=
  { m with readers := insert i m.readers }

/-- Unlock the mutex as a reader. -/
def unlockShared [DecidableEq ι] (m : SharedMutex ι) (i : ι) : SharedMutex ι :=
  { m with readers := m.readers.erase i }

/-- The mutex is held by those threads that read and that write, by what they are about. That nobody reads
while another writes is part of it, so it is the invariant of a mutex that is used as it should be. -/
structure HeldBy {τ : Type} (m : SharedMutex ι) (reads writes : τ → Prop) (threads : ι → τ) : Prop where
  readers : ∀ i, i ∈ m.readers ↔ reads (threads i)
  writer : ∀ i, m.writer = some i ↔ writes (threads i)
  exclusive : m.writer = none ∨ m.readers = ∅

namespace HeldBy

variable {τ : Type} {m : SharedMutex ι} {reads writes : τ → Prop} {threads : ι → τ} {i j : ι} {t : τ}

theorem unlocked (hreads : ∀ i, ¬ reads (threads i)) (hwrites : ∀ i, ¬ writes (threads i)) :
    (unlocked : SharedMutex ι).HeldBy reads writes threads where
  readers i := iff_of_false (Finset.notMem_empty i) (hreads i)
  writer i := iff_of_false (by rintro ⟨⟩) (hwrites i)
  exclusive := .inl rfl

/-- While a thread writes, it is the only one that has the mutex. No other thread reads or writes then. -/
theorem alone (h : m.HeldBy reads writes threads) (hi : writes (threads i)) :
    (∀ j, ¬ reads (threads j)) ∧ ∀ j, writes (threads j) → j = i := by
  have hwriter := (h.writer i).mpr hi
  constructor
  · intro j hj
    have hempty : m.readers = ∅ := h.exclusive.resolve_left (by rw [hwriter]; rintro ⟨⟩)
    have hmem := (h.readers j).mpr hj
    rw [hempty] at hmem
    exact Finset.notMem_empty j hmem
  · intro j hj
    exact Option.some.inj (((h.writer j).mpr hj).symm.trans hwriter)

/-- Nobody writes while the mutex is shared. -/
theorem not_writes (h : m.HeldBy reads writes threads) (hi : reads (threads i)) : ¬ writes (threads j) :=
  fun hj => (h.alone hj).1 i hi

theorem not_writes_of_shareable (h : m.HeldBy reads writes threads) (hm : m.Shareable) : ¬ writes (threads i) := by
  intro hi
  have hwriter := (h.writer i).mpr hi
  rw [hm] at hwriter
  cases hwriter

theorem not_reads_of_free (h : m.HeldBy reads writes threads) (hm : m.Free) : ¬ reads (threads i) := by
  intro hi
  have hmem := (h.readers i).mpr hi
  rw [hm.2] at hmem
  exact Finset.notMem_empty i hmem

/-- A mutex that nobody has can be locked. -/
theorem free (h : m.HeldBy reads writes threads) (hreads : ∀ i, ¬ reads (threads i))
    (hwrites : ∀ i, ¬ writes (threads i)) : m.Free := by
  refine ⟨?_, Finset.eq_empty_of_forall_notMem fun i hi => hreads i ((h.readers i).mp hi)⟩
  cases hwriter : m.writer with
  | none => rfl
  | some i => exact absurd ((h.writer i).mp hwriter) (hwrites i)

variable [DecidableEq ι]

/-- A thread goes on with what it has. Its next task has the same share of the mutex as its last one. -/
theorem keep (h : m.HeldBy reads writes threads) (hreads : reads t ↔ reads (threads i))
    (hwrites : writes t ↔ writes (threads i)) : m.HeldBy reads writes (Function.update threads i t) where
  readers j := by
    rcases eq_or_ne j i with rfl | hne
    · rw [Function.update_self, hreads, h.readers]
    · rw [Function.update_of_ne hne, h.readers]
  writer j := by
    rcases eq_or_ne j i with rfl | hne
    · rw [Function.update_self, hwrites, h.writer]
    · rw [Function.update_of_ne hne, h.writer]
  exclusive := h.exclusive

theorem lock (h : m.HeldBy reads writes threads) (hm : m.Free) (hreads : ¬ reads t) (hwrites : writes t) :
    (m.lock i).HeldBy reads writes (Function.update threads i t) where
  readers j := by
    have hempty : (m.lock i).readers = ∅ := hm.2
    rw [hempty]
    refine iff_of_false (Finset.notMem_empty j) ?_
    rcases eq_or_ne j i with rfl | hne
    · rwa [Function.update_self]
    · rw [Function.update_of_ne hne]
      exact h.not_reads_of_free hm
  writer j := by
    rcases eq_or_ne j i with rfl | hne
    · rw [Function.update_self]
      exact iff_of_true rfl hwrites
    · rw [Function.update_of_ne hne]
      exact iff_of_false (fun heq => hne (Option.some.inj heq).symm) (h.not_writes_of_shareable hm.1)
  exclusive := .inr hm.2

theorem unlock (h : m.HeldBy reads writes threads) (hi : writes (threads i)) (hreads : ¬ reads t)
    (hwrites : ¬ writes t) : m.unlock.HeldBy reads writes (Function.update threads i t) where
  readers j := by
    have hsame : j ∈ m.unlock.readers ↔ reads (threads j) := h.readers j
    rw [hsame]
    refine iff_of_false ((h.alone hi).1 j) ?_
    rcases eq_or_ne j i with rfl | hne
    · rwa [Function.update_self]
    · rw [Function.update_of_ne hne]
      exact (h.alone hi).1 j
  writer j := by
    refine iff_of_false (by rintro ⟨⟩) ?_
    rcases eq_or_ne j i with rfl | hne
    · rwa [Function.update_self]
    · rw [Function.update_of_ne hne]
      exact fun hj => hne ((h.alone hi).2 j hj)
  exclusive := .inl rfl

theorem lockShared (h : m.HeldBy reads writes threads) (hm : m.Shareable) (hreads : reads t)
    (hwrites : ¬ writes t) : (m.lockShared i).HeldBy reads writes (Function.update threads i t) where
  readers j := by
    rcases eq_or_ne j i with rfl | hne
    · rw [Function.update_self]
      exact iff_of_true (Finset.mem_insert_self _ _) hreads
    · rw [Function.update_of_ne hne, ← h.readers]
      exact ⟨fun hmem => (Finset.mem_insert.mp hmem).resolve_left hne, Finset.mem_insert_of_mem⟩
  writer j := by
    have hnone : (m.lockShared i).writer = none := hm
    rw [hnone]
    refine iff_of_false (by rintro ⟨⟩) ?_
    rcases eq_or_ne j i with rfl | hne
    · rwa [Function.update_self]
    · rw [Function.update_of_ne hne]
      exact h.not_writes_of_shareable hm
  exclusive := .inl hm

theorem unlockShared (h : m.HeldBy reads writes threads) (hi : reads (threads i)) (hreads : ¬ reads t)
    (hwrites : ¬ writes t) : (m.unlockShared i).HeldBy reads writes (Function.update threads i t) where
  readers j := by
    rcases eq_or_ne j i with rfl | hne
    · rw [Function.update_self]
      exact iff_of_false (Finset.notMem_erase _ _) hreads
    · rw [Function.update_of_ne hne, ← h.readers]
      exact ⟨Finset.mem_of_mem_erase, Finset.mem_erase_of_ne_of_mem hne⟩
  writer j := by
    have hsame : (m.unlockShared i).writer = some j ↔ writes (threads j) := h.writer j
    rw [hsame]
    refine iff_of_false (h.not_writes hi) ?_
    rcases eq_or_ne j i with rfl | hne
    · rwa [Function.update_self]
    · rw [Function.update_of_ne hne]
      exact h.not_writes hi
  exclusive := h.exclusive.imp id fun hempty => absurd ((h.readers i).mpr hi)
    (by rw [hempty]; exact Finset.notMem_empty i)

end HeldBy

end SharedMutex

end Toolkit
