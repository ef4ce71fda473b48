import Galaxy42.Lib.Program
import Galaxy42.Lib.Steps
import Mathlib.Logic.Function.Basic

/-!
# Vectors in an array

`arrayvector`: an array of a fixed size, and next to it how many of its elements are in use. Nothing
initialises that size. `push_back` and `pop_back` put together the text of an exception when they are not
possible, but do not throw it: they go on, and the size leaves its bounds.

`isStack_throughout_iff` tells exactly in which runs the object is a stack all along: those from a size of
0 in which no `push_back` is made when it is full and no `pop_back` when it is empty.

The elements stand in the memory of the object, and a write behind the last one changes what is behind it. So
what is found there is a part of the model (`outside`), and an operation that goes on out of bounds has an
effect instead of having none.

A run is followed with a list next to the object, of what was put in and not yet taken off (`Using`). The list
is changed by the operations that have returned, and not read off the array. To be a stack (`IsStack`) is to have
just these elements from the front of the array on; that an operation is right (`Right`) is said by what it
should return for the list. One step keeps both exactly when it is `Harmless`, which looks only at the size
and the operation, and a run is a chain of such steps.
-/

namespace Galaxy42

open Toolkit Program

namespace Stdplus

/-- `std::out_of_range` -/
structure OutOfRange where
  /-- Its text. -/
  what : String
  deriving DecidableEq, Repr

/-- `arrayvector`. No check of the source keeps an index within the array, only within the current size. -/
structure Arrayvector (T : Type) (TMax : UInt64) where
  /-- `m_current_size` -/
  mCurrentSize : UInt64
  /-- `m_array` -/
  mArray : Vector T TMax.toNat
  /-- What is found in the memory around the array by an index that is out of range. -/
  outside : UInt64 → T

namespace Arrayvector

variable {T : Type} {TMax : UInt64}

/-- `m_array[ix]`, read -/
def slot (v : Arrayvector T TMax) (ix : UInt64) : T := v.mArray[ix.toNat]?.getD (v.outside ix)

/-- `m_array[ix]`, assigned to -/
def setSlot (v : Arrayvector T TMax) (ix : UInt64) (val : T) : Arrayvector T TMax :=
  { v with
    mArray := v.mArray.setIfInBounds ix.toNat val
    outside := if ix < TMax then v.outside else Function.update v.outside ix val }

/-- `size` -/
def size (v : Arrayvector T TMax) : UInt64 := v.mCurrentSize

/-- `capacity`, and `max_size` -/
def capacity (_ : Arrayvector T TMax) : UInt64 := TMax

/-- The text of an exception, which goes on with what was not possible. -/
def whatOf (v : Arrayvector T TMax) (cause : String) : String :=
  s!"Out of range in arrayvector with TMax={TMax}, m_current_size={v.mCurrentSize}, " ++ cause

/-- `assert_access`. The index is compared with the size, and not with the capacity. -/
def assertAccess (ix : UInt64) : Program OutOfRange (Arrayvector T TMax) Unit := do
  let v ← get
  if ix ≥ v.mCurrentSize then
    raise ⟨v.whatOf s!"requested ix={ix}"⟩

/-- `at`, read -/
def at_ (ix : UInt64) : Program OutOfRange (Arrayvector T TMax) T := do
  assertAccess ix
  return (← get).slot ix

/-- `operator[]`, read -/
def operatorIndex (ix : UInt64) : Program OutOfRange (Arrayvector T TMax) T := do
  assertAccess ix
  return (← get).slot ix

/-- The reference that `at` or `operator[]` returns, assigned to -/
def assign (ix : UInt64) (val : T) : Program OutOfRange (Arrayvector T TMax) Unit := do
  assertAccess ix
  modify fun v => v.setSlot ix val

/-- `push_back`, both for a value that is copied and for one that is moved -/
def pushBack (val : T) : Program OutOfRange (Arrayvector T TMax) Unit := do
  let v ← get
  if ¬ v.mCurrentSize < TMax then
    -- the text is not thrown
    let _oss := v.whatOf "can not increase size"
    pure ()
  modify fun v => v.setSlot v.mCurrentSize val
  modify fun v => { v with mCurrentSize := v.mCurrentSize + 1 }

/-- `pop_back` -/
def popBack : Program OutOfRange (Arrayvector T TMax) Unit := do
  let v ← get
  if ¬ v.mCurrentSize > 0 then
    let _oss := v.whatOf "can not decrease size"
    pure ()
  modify fun v => { v with mCurrentSize := v.mCurrentSize - 1 }

section Outcomes

variable {v : Arrayvector T TMax} {ix ix' : UInt64} {val : T}

/-- What is assigned to is read back, also out of range. -/
theorem slot_setSlot : (v.setSlot ix val).slot ix = val := by
  rw [slot, setSlot]
  by_cases h : ix < TMax
  · rw [Vector.getElem?_setIfInBounds_self_of_lt (UInt64.lt_iff_toNat_lt.mp h)]
    rfl
  · have hle : TMax.toNat ≤ ix.toNat := Nat.not_lt.mp (mt UInt64.lt_iff_toNat_lt.mpr h)
    rw [Vector.getElem?_eq_none hle, Option.getD_none]
    exact (congrFun (if_neg h) ix).trans (Function.update_self ..)

private theorem slot_setSlot_of_ne (h : ix' ≠ ix) : (v.setSlot ix val).slot ix' = v.slot ix' := by
  have hne : ix.toNat ≠ ix'.toNat := fun heq => h (UInt64.toNat_inj.mp heq.symm)
  have houtside : (v.setSlot ix val).outside ix' = v.outside ix' := by
    rw [setSlot]
    split_ifs
    · rfl
    · exact Function.update_of_ne h ..
  rw [slot, houtside, setSlot, Vector.getElem?_setIfInBounds_ne hne]
  rfl

/-- `push_back` never throws. -/
theorem pushBack_apply (val : T) (v : Arrayvector T TMax) :
    pushBack val v = .ok () { v.setSlot v.size val with mCurrentSize := v.size + 1 } := by
  by_cases h : v.mCurrentSize < TMax
  · simp [pushBack, bind_apply, h, size, setSlot]
  · simp [pushBack, bind_apply, h, size, setSlot]

/-- `pop_back` never throws. -/
theorem popBack_apply (v : Arrayvector T TMax) :
    popBack v = .ok () { v with mCurrentSize := v.size - 1 } := by
  by_cases h : v.mCurrentSize > 0
  · simp [popBack, bind_apply, size]
  · simp [popBack, bind_apply, size]

private theorem assertAccess_of_lt (h : ix < v.size) : assertAccess ix v = .ok () v := by
  have hin : ¬ ix ≥ v.mCurrentSize := UInt64.not_le.mpr h
  simp [assertAccess, bind_apply, hin]

private theorem assertAccess_of_not_lt (h : ¬ ix < v.size) :
    ∃ e, assertAccess ix v = .error (.throw e) v := by
  have hout : ix ≥ v.mCurrentSize := UInt64.not_lt.mp h
  exact ⟨_, by simp [assertAccess, bind_apply, hout]; rfl⟩

end Outcomes

end Arrayvector

/-! ### Runs -/

/-- An object, and next to it which elements are in it and how often it was changed. The elements are what a
stack without a bound would hold. -/
structure Using (T : Type) (TMax : UInt64) where
  /-- The object. -/
  object : Arrayvector T TMax
  /-- What was put in and not yet taken off. -/
  live : List T
  /-- How many calls of `push_back` have returned. -/
  pushes : ℕ
  /-- How many calls of `pop_back` have returned. -/
  pops : ℕ

namespace Using

variable {T : Type} {TMax : UInt64}

/-- The operations on an object. -/
inductive Operation (T : Type) where
  /-- `push_back` -/
  | pushBack (val : T)
  /-- `pop_back` -/
  | popBack
  /-- `at`, read -/
  | at_ (ix : UInt64)
  /-- `operator[]`, read -/
  | operatorIndex (ix : UInt64)
  /-- `at` or `operator[]`, assigned to -/
  | assign (ix : UInt64) (val : T)

/-- What is run, and what it returns, if anything. -/
def perform : Operation T → Program OutOfRange (Arrayvector T TMax) (Option T)
  | .pushBack val => do
    Arrayvector.pushBack val
    return none
  | .popBack => do
    Arrayvector.popBack
    return none
  | .at_ ix => return some (← Arrayvector.at_ ix)
  | .operatorIndex ix => return some (← Arrayvector.operatorIndex ix)
  | .assign ix val => do
    Arrayvector.assign ix val
    return none

/-- A new object, with whatever its memory holds. -/
def start (object : Arrayvector T TMax) : Using T TMax := ⟨object, [], 0, 0⟩

/-- What an operation that has returned does to the elements. -/
def record (s : Using T TMax) (object : Arrayvector T TMax) : Operation T → Using T TMax
  | .pushBack val => ⟨object, s.live ++ [val], s.pushes + 1, s.pops⟩
  | .popBack => ⟨object, s.live.dropLast, s.pushes, s.pops + 1⟩
  | .assign ix val => { s with object := object, live := s.live.set ix.toNat val }
  | _ => { s with object := object }

/-- One operation. -/
inductive Step : Using T TMax → Operation T → Using T TMax → Prop
  | returns {s : Using T TMax} {op : Operation T} {answer : Option T} {object : Arrayvector T TMax}
      (hrun : perform op s.object = .ok answer object) : Step s op (s.record object op)
  | fails {s : Using T TMax} {op : Operation T} {e : Fault OutOfRange} {object : Arrayvector T TMax}
      (hrun : perform op s.object = .error e object) : Step s op { s with object := object }

/-- The object is a stack of the elements that are in it. Its size is the number of what was put in, without
what was taken off. -/
structure IsStack (s : Using T TMax) : Prop where
  size_add_pops : s.object.size.toNat + s.pops = s.pushes
  size_le : s.object.size ≤ s.object.capacity
  length_live : s.live.length = s.object.size.toNat
  slot : ∀ ix < s.object.size, s.live[ix.toNat]? = some (s.object.slot ix)

/-- A stack of this size allows the operation. The size is that of the object, which is the number of the
elements as long as it is a stack. -/
def Possible (s : Using T TMax) : Operation T → Prop
  | .pushBack _ => s.object.size ≠ s.object.capacity
  | .popBack => s.object.size ≠ 0
  | .at_ ix | .operatorIndex ix | .assign ix _ => ix < s.object.size

/-- What the operation is to return. -/
def answerOf (s : Using T TMax) : Operation T → Option T
  | .at_ ix | .operatorIndex ix => s.live[ix.toNat]?
  | _ => none

/-- The operation returns, and returns the element that it should, exactly when it is possible, and otherwise
throws and changes nothing. What is possible depends on the size only. -/
structure Right (s : Using T TMax) (op : Operation T) : Prop where
  returns : s.Possible op → ∃ object, perform op s.object = .ok (s.answerOf op) object
  throws : ¬ s.Possible op → ∃ e, perform op s.object = .error (.throw e) s.object

/-- When an operation keeps the object a stack: a `push_back` is not made when it is full, and a `pop_back`
not when it is empty. -/
def Harmless (s : Using T TMax) : Operation T → Prop
  | .pushBack val => s.Possible (.pushBack val)
  | .popBack => s.Possible .popBack
  | _ => True

variable {s s' : Using T TMax} {op : Operation T} {trace : List (Using T TMax × Operation T)}

private theorem isStack_start_iff {object : Arrayvector T TMax} :
    IsStack (start object) ↔ object.size = 0 := by
  constructor
  · intro h
    exact UInt64.toNat_inj.mp h.length_live.symm
  · intro hzero
    refine ⟨?_, ?_, ?_, ?_⟩
    · rw [start, hzero]
      rfl
    · rw [start, hzero]
      exact UInt64.zero_le
    · rw [start, hzero]
      rfl
    · intro ix hix
      rw [start, hzero] at hix
      exact absurd hix UInt64.not_lt_zero

/-- `push_back` keeps a stack exactly when it is not full: otherwise the size leaves its bounds. -/
theorem isStack_pushBack_iff (h : IsStack s) (val : T) :
    IsStack (s.record { s.object.setSlot s.object.size val with mCurrentSize := s.object.size + 1 }
      (.pushBack val)) ↔ s.object.size ≠ s.object.capacity := by
  have hpushes := h.size_add_pops
  constructor
  · rintro h' hfull
    have hpushes' : (s.object.size + 1).toNat + s.pops = s.pushes + 1 := h'.size_add_pops
    have hle' : (s.object.size + 1).toNat ≤ s.object.capacity.toNat := UInt64.le_iff_toNat_le.mp h'.size_le
    rw [← hfull] at hle'
    omega
  · intro hne
    have hlt : s.object.size.toNat < s.object.capacity.toNat :=
      Nat.lt_of_le_of_ne (UInt64.le_iff_toNat_le.mp h.size_le) (mt UInt64.toNat_inj.mp hne)
    have hsize : (s.object.size + 1).toNat = s.object.size.toNat + 1 := by
      rw [UInt64.toNat_add, UInt64.toNat_one]
      exact Nat.mod_eq_of_lt (by have := s.object.capacity.toNat_lt; omega)
    refine ⟨?_, ?_, ?_, fun ix hix => ?_⟩
    · change (s.object.size + 1).toNat + s.pops = s.pushes + 1
      omega
    · change s.object.size + 1 ≤ s.object.capacity
      rw [UInt64.le_iff_toNat_le, hsize]
      exact hlt
    · change (s.live ++ [val]).length = (s.object.size + 1).toNat
      rw [List.length_append, List.length_singleton, h.length_live, hsize]
    · change (s.live ++ [val])[ix.toNat]? = some ((s.object.setSlot s.object.size val).slot ix)
      by_cases heq : ix = s.object.size
      · rw [heq, Arrayvector.slot_setSlot, ← h.length_live, List.getElem?_concat_length]
      · have hlt' : ix < s.object.size := by
          have hix' : ix < s.object.size + 1 := hix
          rw [UInt64.lt_iff_toNat_lt, hsize] at hix'
          rw [UInt64.lt_iff_toNat_lt]
          exact Nat.lt_of_le_of_ne (Nat.le_of_lt_succ hix') (mt UInt64.toNat_inj.mp heq)
        have hlength : ix.toNat < s.live.length := by
          rw [h.length_live]
          exact UInt64.lt_iff_toNat_lt.mp hlt'
        rw [List.getElem?_append_left hlength, Arrayvector.slot_setSlot_of_ne heq]
        exact h.slot ix hlt'

/-- `pop_back` keeps a stack exactly when it is not empty: otherwise the size wraps around. -/
theorem isStack_popBack_iff (h : IsStack s) :
    IsStack (s.record { s.object with mCurrentSize := s.object.size - 1 } .popBack) ↔
      s.object.size ≠ 0 := by
  have hpushes := h.size_add_pops
  constructor
  · rintro h' hempty
    have hpushes' : (s.object.size - 1).toNat + (s.pops + 1) = s.pushes := h'.size_add_pops
    rw [hempty] at hpushes hpushes'
    have hzero : (0 : UInt64).toNat = 0 := rfl
    omega
  · intro hne
    have hpos : s.object.size.toNat ≠ 0 := fun hzero => hne (UInt64.toNat_inj.mp hzero)
    have hsize : (s.object.size - 1).toNat = s.object.size.toNat - 1 :=
      UInt64.toNat_sub_of_le _ _ (UInt64.le_iff_toNat_le.mpr (Nat.one_le_iff_ne_zero.mpr hpos))
    have hle := UInt64.le_iff_toNat_le.mp h.size_le
    refine ⟨?_, ?_, ?_, fun ix hix => ?_⟩
    · change (s.object.size - 1).toNat + (s.pops + 1) = s.pushes
      omega
    · change s.object.size - 1 ≤ s.object.capacity
      rw [UInt64.le_iff_toNat_le, hsize]
      omega
    · change s.live.dropLast.length = (s.object.size - 1).toNat
      rw [List.length_dropLast, h.length_live, hsize]
    · change s.live.dropLast[ix.toNat]? = some (s.object.slot ix)
      have hix' : ix.toNat < s.object.size.toNat - 1 := hsize ▸ UInt64.lt_iff_toNat_lt.mp hix
      rw [List.getElem?_dropLast, if_pos (by rw [h.length_live]; exact hix')]
      exact h.slot ix (UInt64.lt_iff_toNat_lt.mpr (by omega))

/-- What is assigned to an element of a stack is then that element of it. -/
private theorem isStack_assign (h : IsStack s) {ix : UInt64} (hix : ix < s.object.size) (val : T) :
    IsStack (s.record (s.object.setSlot ix val) (.assign ix val)) := by
  refine ⟨h.size_add_pops, h.size_le, (List.length_set ..).trans h.length_live, fun ix' hix' => ?_⟩
  change (s.live.set ix.toNat val)[ix'.toNat]? = some ((s.object.setSlot ix val).slot ix')
  by_cases heq : ix' = ix
  · have hlength : ix.toNat < s.live.length := by
      rw [h.length_live]
      exact UInt64.lt_iff_toNat_lt.mp hix
    rw [heq, Arrayvector.slot_setSlot, List.getElem?_set_self hlength]
  · have hne : ix.toNat ≠ ix'.toNat := fun h => heq (UInt64.toNat_inj.mp h.symm)
    rw [List.getElem?_set_ne hne, Arrayvector.slot_setSlot_of_ne heq]
    exact h.slot ix' hix'

private theorem perform_pushBack (val : T) (v : Arrayvector T TMax) : perform (.pushBack val) v =
    .ok none { v.setSlot v.size val with mCurrentSize := v.size + 1 } :=
  bind_of_ok (Arrayvector.pushBack_apply val v)

private theorem perform_popBack (v : Arrayvector T TMax) :
    perform .popBack v = .ok none { v with mCurrentSize := v.size - 1 } :=
  bind_of_ok (Arrayvector.popBack_apply v)

/-- What is possible on a stack is done, and leaves a stack. -/
theorem returns_of_possible (h : IsStack s) (hpossible : s.Possible op) :
    ∃ object, perform op s.object = .ok (s.answerOf op) object ∧ IsStack (s.record object op) := by
  cases op with
  | pushBack val => exact ⟨_, perform_pushBack val s.object, (isStack_pushBack_iff h val).mpr hpossible⟩
  | popBack => exact ⟨_, perform_popBack s.object, (isStack_popBack_iff h).mpr hpossible⟩
  | at_ ix =>
    refine ⟨s.object, ?_, h⟩
    rw [answerOf, h.slot ix hpossible]
    exact bind_of_ok (bind_of_ok (Arrayvector.assertAccess_of_lt hpossible))
  | operatorIndex ix =>
    refine ⟨s.object, ?_, h⟩
    rw [answerOf, h.slot ix hpossible]
    exact bind_of_ok (bind_of_ok (Arrayvector.assertAccess_of_lt hpossible))
  | assign ix val =>
    exact ⟨_, bind_of_ok (bind_of_ok (Arrayvector.assertAccess_of_lt hpossible)),
      isStack_assign h hpossible val⟩

/-- An access that is not possible throws. -/
theorem throws_of_not_possible (hharmless : Harmless s op) (h : ¬ s.Possible op) :
    ∃ e, perform op s.object = .error (.throw e) s.object := by
  cases op with
  | pushBack val => exact absurd hharmless h
  | popBack => exact absurd hharmless h
  | at_ ix =>
    obtain ⟨e, haccess⟩ := Arrayvector.assertAccess_of_not_lt h
    exact ⟨e, bind_of_error (bind_of_error haccess)⟩
  | operatorIndex ix =>
    obtain ⟨e, haccess⟩ := Arrayvector.assertAccess_of_not_lt h
    exact ⟨e, bind_of_error (bind_of_error haccess)⟩
  | assign ix val =>
    obtain ⟨e, haccess⟩ := Arrayvector.assertAccess_of_not_lt h
    exact ⟨e, bind_of_error (bind_of_error haccess)⟩

/-- An operation on a stack that is harmless does what it should. -/
private theorem right_of_harmless (h : IsStack s) (hharmless : Harmless s op) : Right s op where
  returns hpossible := by
    obtain ⟨object, hrun, -⟩ := returns_of_possible h hpossible
    exact ⟨object, hrun⟩
  throws hnot := throws_of_not_possible hharmless hnot

private theorem isStack_of_harmless (h : IsStack s) (hharmless : Harmless s op) (hstep : Step s op s') :
    IsStack s' := by
  by_cases hpossible : s.Possible op
  · obtain ⟨object, hreturns, hafter⟩ := returns_of_possible h hpossible
    cases hstep with
    | returns hrun =>
      obtain ⟨-, rfl⟩ := EStateM.Result.ok.inj (hreturns.symm.trans hrun)
      exact hafter
    | fails hrun => exact nomatch hreturns.symm.trans hrun
  · obtain ⟨e, hthrows⟩ := throws_of_not_possible hharmless hpossible
    cases hstep with
    | returns hrun => exact nomatch hthrows.symm.trans hrun
    | fails hrun =>
      obtain ⟨-, rfl⟩ := EStateM.Result.error.inj (hthrows.symm.trans hrun)
      exact h

/-- A `push_back` on a full stack and a `pop_back` on an empty one leave no stack. -/
private theorem harmless_of_isStack (h : IsStack s) (hstep : Step s op s') (h' : IsStack s') :
    Harmless s op := by
  cases op with
  | pushBack val =>
    cases hstep with
    | returns hrun =>
      obtain ⟨-, rfl⟩ := EStateM.Result.ok.inj ((perform_pushBack val s.object).symm.trans hrun)
      exact (isStack_pushBack_iff h val).mp h'
    | fails hrun => exact nomatch (perform_pushBack val s.object).symm.trans hrun
  | popBack =>
    cases hstep with
    | returns hrun =>
      obtain ⟨-, rfl⟩ := EStateM.Result.ok.inj ((perform_popBack s.object).symm.trans hrun)
      exact (isStack_popBack_iff h).mp h'
    | fails hrun => exact nomatch (perform_popBack s.object).symm.trans hrun
  | at_ ix => exact trivial
  | operatorIndex ix => exact trivial
  | assign ix val => exact trivial

/-- In a run from a new object, the object is a stack all along and all operations do what they should exactly
when its size is 0 at first and all operations are harmless. In a run that is not harmless the size leaves its
bounds without an exception. -/
theorem isStack_throughout_iff {object : Arrayvector T TMax} (hrun : Steps Step (start object) trace s) :
    (Steps.Throughout IsStack trace s ∧ Steps.All Right trace) ↔
      object.size = 0 ∧ Steps.All Harmless trace := by
  have hiff (hstart : IsStack (start object)) :
      Steps.Throughout IsStack trace s ↔ Steps.All Harmless trace :=
    Steps.invariant_iff (fun _ _ _ h hstep =>
      ⟨harmless_of_isStack h hstep, fun hharmless => isStack_of_harmless h hharmless hstep⟩) hrun hstart
  constructor
  · rintro ⟨hthroughout, -⟩
    have hstart : IsStack (start object) := hthroughout.start hrun
    exact ⟨isStack_start_iff.mp hstart, (hiff hstart).mp hthroughout⟩
  · rintro ⟨hzero, hall⟩
    have hthroughout := (hiff (isStack_start_iff.mpr hzero)).mpr hall
    exact ⟨hthroughout, fun p hp => right_of_harmless (hthroughout.1 p hp) (hall p hp)⟩

/-- A place for one number, in memory that is zero. -/
def zeroed : Arrayvector ℕ 1 := ⟨0, Vector.replicate _ 0, fun _ => 0⟩

/-- What an operation leaves, whether it returns or throws. -/
def next (s : Using T TMax) (op : Operation T) : Using T TMax :=
  match perform op s.object with
  | .ok _ object => s.record object op
  | .error _ object => { s with object := object }

private theorem step_next (s : Using T TMax) (op : Operation T) : Step s op (s.next op) := by
  rw [next]
  cases hrun : perform op s.object with
  | ok answer object => exact .returns hrun
  | error e object => exact .fails hrun

/-- A number is put into the place for one, another one is assigned to it, an access behind it throws, and
it is taken off. -/
theorem isStack_throughout_pushed_assigned_popped :
    let pushed := (start zeroed).next (.pushBack 7)
    let assigned := pushed.next (.assign 0 8)
    let refused := assigned.next (.at_ 1)
    let trace : List (Using ℕ 1 × Operation ℕ) :=
      [(start zeroed, .pushBack 7), (pushed, .assign 0 8), (assigned, .at_ 1), (refused, .popBack)]
    Steps.Throughout IsStack trace (refused.next .popBack) ∧ Steps.All Right trace := by
  intro pushed assigned refused trace
  have hrun : Steps Step (start zeroed) trace (refused.next .popBack) :=
    .snoc (.snoc (.snoc (.snoc (.nil _) (step_next _ _)) (step_next _ _)) (step_next _ _))
      (step_next _ _)
  refine (isStack_throughout_iff hrun).mpr ⟨rfl, fun p hp => ?_⟩
  simp only [trace, List.mem_cons, List.not_mem_nil, or_false] at hp
  rcases hp with rfl | rfl | rfl | rfl
  · exact show (start zeroed).object.size ≠ (start zeroed).object.capacity by decide
  · trivial
  · trivial
  · exact show refused.object.size ≠ 0 by decide +kernel

/-- When another one is put there, nothing is thrown, and the size is 2. -/
theorem exists_not_isStack :
    ∃ (trace : List (Using ℕ 1 × Operation ℕ)) (s : Using ℕ 1),
      Steps Step (start zeroed) trace s ∧ ¬ (Steps.Throughout IsStack trace s ∧ Steps.All Right trace) := by
  refine ⟨_, _, .snoc (.snoc (.nil _) (step_next (start zeroed) (.pushBack 7))) (step_next _ (.pushBack 8)),
    ?_⟩
  rintro ⟨hthroughout, -⟩
  exact absurd hthroughout.2.size_le (by decide +kernel)

end Using

end Stdplus

end Galaxy42
