import Mathlib.Data.List.Basic
import Mathlib.Data.Int.Notation
import Mathlib.Logic.Function.Iterate

/-!
# Circular buffers

A `CircularBuffer` holds as many elements as its capacity, and drops the oldest one when another is put into
it. It is full when it holds that many. That it never holds more is a field of the structure, so that it
need not be shown again wherever a buffer is used.

It may be used as a window over a sequence that is indexed by the integers: it then holds the last elements
of the sequence up to some index (`Shows`). As the index advances, elements are put into it
(`Shows.advance`), and the last of them may change (`Shows.modifyBack`). A buffer that was filled with
copies of one element shows a sequence that is constant so far (`Shows.replicate`).

The sequence is a function on the integers, not a list that grows: a buffer that was just filled shows
indices before the first one at which anything happened, and the rule for advancing over several indices at
once needs no case for the beginning.
-/

namespace Toolkit

/-- A buffer that drops the oldest element for a new one. It never has more elements than its capacity, which
is part of it. -/
structure CircularBuffer (α : Type) where
  /-- How many elements it holds at most. -/
  capacity : ℕ
  /-- Its elements, the newest first. -/
  items : List α
  length_le : items.length ≤ capacity

namespace CircularBuffer

variable {α : Type}

/-- A buffer that is full of copies of one element. -/
def replicate (n : ℕ) (a : α) : CircularBuffer α where
  capacity := n
  items := List.replicate n a
  length_le := Nat.le_of_eq List.length_replicate

/-- `push_back` -/
def pushBack (b : CircularBuffer α) (a : α) : CircularBuffer α where
  capacity := b.capacity
  items := (a :: b.items).take b.capacity
  length_le := List.length_take_le ..

/-- The newest element is changed. -/
def modifyBack (b : CircularBuffer α) (f : α → α) : CircularBuffer α where
  capacity := b.capacity
  items := b.items.modifyHead f
  length_le := Nat.le_trans (Nat.le_of_eq List.length_modifyHead) b.length_le

/-- The buffer after `n` copies of an element were put into it. -/
def pushCopies (b : CircularBuffer α) (n : ℕ) (a : α) : CircularBuffer α := (fun b => b.pushBack a)^[n] b

variable {b : CircularBuffer α} {a : α} {f : α → α} {n j : ℕ}

theorem pushCopies_succ : b.pushCopies (n + 1) a = (b.pushBack a).pushCopies n a :=
  Function.iterate_succ_apply ..

theorem capacity_pushCopies : (b.pushCopies n a).capacity = b.capacity := by
  induction n generalizing b with
  | zero => rfl
  | succ n ih => exact pushCopies_succ ▸ ih

/-! ### Full buffers -/

theorem length_pushBack (h : b.items.length = b.capacity) : (b.pushBack a).items.length = b.capacity := by
  rw [pushBack, List.length_take, List.length_cons, h]
  exact Nat.min_eq_left (Nat.le_succ _)

theorem length_pushCopies (h : b.items.length = b.capacity) :
    (b.pushCopies n a).items.length = b.capacity := by
  induction n generalizing b with
  | zero => exact h
  | succ n ih => exact pushCopies_succ ▸ ih (length_pushBack h)

theorem getElem?_pushBack_zero (h : 0 < b.capacity) : (b.pushBack a).items[0]? = some a := by
  rw [pushBack, List.getElem?_take_of_lt h, List.getElem?_cons_zero]

theorem getElem?_pushBack_succ (h : j + 1 < b.capacity) :
    (b.pushBack a).items[j + 1]? = b.items[j]? := by
  rw [pushBack, List.getElem?_take_of_lt h, List.getElem?_cons_succ]

/-- The elements move on by the number of the copies. -/
theorem getElem?_pushCopies (hj : j < b.capacity) :
    (b.pushCopies n a).items[j]? = if j < n then some a else b.items[j - n]? := by
  induction n generalizing b with
  | zero => rfl
  | succ n ih =>
    have hpushed := ih (b := b.pushBack a) hj
    rw [pushCopies_succ, hpushed]
    rcases Nat.lt_trichotomy j n with hlt | rfl | hgt
    · rw [if_pos hlt, if_pos (Nat.lt_succ_of_lt hlt)]
    · rw [if_neg (Nat.lt_irrefl j), if_pos (Nat.lt_succ_self j), Nat.sub_self]
      exact getElem?_pushBack_zero (Nat.zero_lt_of_lt hj)
    · have hindex : j - n = j - (n + 1) + 1 := by omega
      rw [if_neg (Nat.lt_asymm hgt), if_neg (Nat.not_lt.mpr hgt), hindex]
      exact getElem?_pushBack_succ (by omega)

/-! ### Windows -/

/-- The buffer is full of the last elements of a sequence up to an index. The newest element is the one at the
index, and the sequence goes back without end. -/
structure Shows (b : CircularBuffer α) (v : ℤ → α) (last : ℤ) : Prop where
  full : b.items.length = b.capacity
  getElem?_items : ∀ j < b.capacity, b.items[j]? = some (v (last - j))

namespace Shows

variable {v : ℤ → α} {last : ℤ}

/-- The same elements, behind the index too, are put into the buffer as the index advances. So a buffer that
is moved on by several places at a time shows the sequence further on, when nothing has happened at those
places. -/
theorem advance (h : b.Shows v last) (n : ℕ) (hnew : ∀ k > last, v k = a) :
    (b.pushCopies n a).Shows v (last + n) where
  full := (length_pushCopies h.full).trans capacity_pushCopies.symm
  getElem?_items j hj := by
    rw [capacity_pushCopies] at hj
    rw [getElem?_pushCopies hj]
    split_ifs with hcopy
    · rw [hnew (last + n - j) (by omega)]
    · have hindex : last + n - j = last - (j - n : ℕ) := by omega
      rw [hindex]
      exact h.getElem?_items (j - n) (by omega)

/-- The last element may change. -/
theorem modifyBack {v' : ℤ → α} (h : b.Shows v last) (hlast : v' last = f (v last))
    (hothers : ∀ k < last, v' k = v k) : (b.modifyBack f).Shows v' last where
  full := List.length_modifyHead.trans h.full
  getElem?_items j hj := by
    have hold : b.items[j]? = some (v (last - j)) := h.getElem?_items j hj
    cases j with
    | zero =>
      rw [Int.natCast_zero, Int.sub_zero] at hold ⊢
      rw [CircularBuffer.modifyBack, List.getElem?_modifyHead_zero, hold, Option.map_some, hlast]
    | succ j =>
      rw [CircularBuffer.modifyBack, List.getElem?_modifyHead_succ, hold, hothers _ (by omega)]

theorem replicate (hv : ∀ k ≤ last, v k = a) : (CircularBuffer.replicate n a).Shows v last where
  full := List.length_replicate
  getElem?_items j hj := by
    rw [hv _ (by omega)]
    exact List.getElem?_replicate_of_lt hj

end Shows

end CircularBuffer

end Toolkit
