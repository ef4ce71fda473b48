import Galaxy42.Lib.Program
import Galaxy42.Lib.Steps
import Mathlib.Data.Int.Notation
import Mathlib.Logic.Function.Basic

/-!
# Threads that join themselves

`wrap_thread`: its constructors and moves, `join`, `try_join` and the destructor. What a thread does is not
modelled, but how long it still runs at the time of a wait, and whether it has thrown, come with the
operation. The times that are only for `info()` are left out.

A move takes the thread, but not the timeout of the destructor: an object that is constructed by a move has
whatever was in its memory, and one that is assigned keeps its own. `try_join` returns true also when the
thread could not be joined, and false when it was. `keepsTimeouts_throughout_iff` tells exactly in which runs
neither matters.

A run is one of any number of objects, which are made, moved, assigned, joined and destroyed in any order. Next
to each object stands the timeout that it should have (`Threads`), which goes with the thread when it is moved.
There is also a record of the answers, and of whether the process has ended and would have ended anyway. So
the property is about what is in a state, and the condition (`Harmless`) is about the operation and the
objects before it: what the memory holds, which timeout an object has, and whether there is a thread.

Whether an object ends the process when it is joined can be told from the object and the thread (`Aborts`), and
`join`, the moves and the destructor have one lemma each for either case. Each kind of operation then has its
own equivalence, and the one of a step is put together from them.
-/

namespace Galaxy42

open Toolkit Program

namespace Utils

/-- What the function of a thread has thrown, and its future throws again. -/
inductive ThreadFailed where
  | threadFailed
  deriving DecidableEq, Repr

/-- A thread at the time when it is waited for. -/
structure Thread where
  /-- In how many seconds it is ready, if ever. -/
  readyIn : Option ℕ
  /-- Its function throws. -/
  fails : Bool

/-- `wait_for`: whether the thread is ready in time. -/
def Thread.waitFor (thread : Thread) (timeout : ℤ) : Bool :=
  thread.readyIn.any fun seconds => seconds ≤ max timeout 0

/-- `wrap_thread` -/
structure WrapThread where
  /-- `m_future.valid()`: it has a thread that was not joined yet. -/
  mFuture : Bool
  /-- `m_destroy_timeout`, in seconds -/
  mDestroyTimeout : ℤ
  deriving DecidableEq, Repr

namespace WrapThread

/-- `m_future.get()` -/
def futureGet (thread : Thread) : Program ThreadFailed WrapThread Unit := do
  modify fun w => { w with mFuture := false }
  if thread.fails then
    raise .threadFailed

/-- What throws in a `noexcept` function ends the process. -/
def noexcept {σ : Type} (p : Program ThreadFailed σ Unit) : Program ThreadFailed σ Unit :=
  catching p fun _ => some abort

/-- `wrap_thread::join` -/
def join (thread : Thread) : Program ThreadFailed WrapThread Unit := do
  let w ← get
  if ¬ w.mFuture then
    return
  assertThat (w.mDestroyTimeout ≠ 0)
  assertThat (thread.waitFor w.mDestroyTimeout)
  futureGet thread

/-- `wrap_thread::try_join`, for a duration that is cut off to seconds -/
def tryJoin (thread : Thread) (destTime : ℤ) : Program ThreadFailed WrapThread Bool := do
  let w ← get
  if ¬ w.mFuture then
    return true
  if ¬ thread.waitFor destTime then
    return true
  futureGet thread
  return false

/-- `wrap_thread::~wrap_thread` -/
def destroy (thread : Thread) : Program ThreadFailed WrapThread Unit :=
  noexcept do
    let w ← get
    if ¬ w.mFuture then
      return
    if w.mDestroyTimeout ≠ 0 then
      assertThat (thread.waitFor w.mDestroyTimeout)
      futureGet thread
    else
      abort

/-- The body of both moves, from the second object to the first: `m_destroy_timeout` is not moved. -/
def moveInto (thread : Thread) : Program ThreadFailed (WrapThread × WrapThread) Unit :=
  noexcept do
    onFst (join thread)
    modify fun (lhs, rhs) => ({ lhs with mFuture := rhs.mFuture }, { rhs with mFuture := false })

/-! ### When the process ends -/

/-- To join the object in its timeout ends the process. It depends on the timeout, on how long the thread
still runs, and on whether it has thrown. -/
def Aborts (thread : Thread) (w : WrapThread) : Prop :=
  w.mFuture = true ∧
    (w.mDestroyTimeout = 0 ∨ thread.waitFor w.mDestroyTimeout = false ∨ thread.fails = true)

instance (thread : Thread) (w : WrapThread) : Decidable (w.Aborts thread) :=
  inferInstanceAs (Decidable (_ ∧ _))

section Outcomes

variable {thread : Thread} {w lhs rhs : WrapThread} {destTime : ℤ}

private theorem futureGet_of_fails (h : thread.fails = true) :
    futureGet thread w = .error (.throw .threadFailed) { w with mFuture := false } := by
  simp [futureGet, bind_apply, h]

private theorem futureGet_of_not_fails (h : thread.fails = false) :
    futureGet thread w = .ok () { w with mFuture := false } := by
  simp [futureGet, bind_apply, h]

/-- An object with a thread that does not abort is joined in its timeout. -/
private theorem of_not_aborts (hfuture : w.mFuture = true) (h : ¬ w.Aborts thread) :
    w.mDestroyTimeout ≠ 0 ∧ thread.waitFor w.mDestroyTimeout = true ∧ thread.fails = false := by
  refine ⟨fun hzero => h ⟨hfuture, .inl hzero⟩, ?_, ?_⟩
  · by_contra hlate
    exact h ⟨hfuture, .inr (.inl (eq_false_of_ne_true hlate))⟩
  · exact eq_false_of_ne_true fun hfails => h ⟨hfuture, .inr (.inr hfails)⟩

/-- `join` leaves an object without a thread, when it does not end the process. -/
theorem join_of_not_aborts (h : ¬ w.Aborts thread) :
    join thread w = .ok () { w with mFuture := false } := by
  cases hfuture : w.mFuture with
  | false =>
    have hsame : { w with mFuture := false } = w := by rw [← hfuture]
    rw [hsame]
    simp [join, bind_apply, hfuture]
  | true =>
    obtain ⟨htimeout, hready, hfails⟩ := of_not_aborts hfuture h
    simp [join, bind_apply, assertThat_apply, hfuture, htimeout, hready, futureGet_of_not_fails hfails]

private theorem join_of_aborts (h : w.Aborts thread) : ∃ e w', join thread w = .error e w' := by
  obtain ⟨hfuture, hcause⟩ := h
  by_cases hzero : w.mDestroyTimeout = 0
  · exact ⟨_, _, by simp [join, bind_apply, assertThat_apply, hfuture, hzero]; exact ⟨rfl, rfl⟩⟩
  cases hready : thread.waitFor w.mDestroyTimeout with
  | false =>
    exact ⟨_, _, by
      simp [join, bind_apply, assertThat_apply, hfuture, hzero, hready]
      exact ⟨rfl, rfl⟩⟩
  | true =>
    have hfails : thread.fails = true := by
      rcases hcause with hzero' | hlate | hfails
      · exact absurd hzero' hzero
      · exact absurd (hready.symm.trans hlate) (by decide)
      · exact hfails
    exact ⟨_, _, by
      simp [join, bind_apply, assertThat_apply, hfuture, hzero, hready, futureGet_of_fails hfails]
      exact ⟨rfl, rfl⟩⟩

private theorem noexcept_of_ok {σ : Type} {p : Program ThreadFailed σ Unit} {s s' : σ} (h : p s = .ok () s') :
    noexcept p s = .ok () s' := by
  rw [noexcept, catching, h]

/-- However a `noexcept` function fails, the process ends. -/
theorem noexcept_of_error {σ : Type} {p : Program ThreadFailed σ Unit} {s s' : σ}
    {e : Fault ThreadFailed} (h : p s = .error e s') : noexcept p s = .error .abort s' := by
  rw [noexcept, catching, h]
  cases e <;> rfl

/-- The destructor does what `join` does. -/
theorem destroy_eq (thread : Thread) (w : WrapThread) : destroy thread w = noexcept (join thread) w := by
  cases hfuture : w.mFuture with
  | false => simp [destroy, join, noexcept, catching, bind_apply, hfuture]
  | true =>
    by_cases hzero : w.mDestroyTimeout = 0
    · simp [destroy, join, noexcept, catching, bind_apply, assertThat_apply, hfuture, hzero]
    · simp [destroy, join, noexcept, catching, bind_apply, assertThat_apply, hfuture, hzero]

private theorem destroy_of_not_aborts (h : ¬ w.Aborts thread) :
    destroy thread w = .ok () { w with mFuture := false } := by
  rw [destroy_eq]
  exact noexcept_of_ok (join_of_not_aborts h)

private theorem destroy_of_aborts (h : w.Aborts thread) : ∃ w', destroy thread w = .error .abort w' := by
  obtain ⟨e, w', hjoin⟩ := join_of_aborts h
  rw [destroy_eq]
  exact ⟨w', noexcept_of_error hjoin⟩

/-- A move takes the thread, and leaves both timeouts. -/
theorem moveInto_of_not_aborts (h : ¬ lhs.Aborts thread) :
    moveInto thread (lhs, rhs) =
      .ok () ({ lhs with mFuture := rhs.mFuture }, { rhs with mFuture := false }) := by
  refine noexcept_of_ok ?_
  have hfst : (onFst (join thread) : Program ThreadFailed (WrapThread × WrapThread) Unit) (lhs, rhs) =
      .ok () ({ lhs with mFuture := false }, rhs) := by
    rw [onFst, join_of_not_aborts h]
  exact bind_of_ok hfst

private theorem moveInto_of_aborts (h : lhs.Aborts thread) :
    ∃ p, moveInto thread (lhs, rhs) = .error .abort p := by
  obtain ⟨e, w', hjoin⟩ := join_of_aborts h
  have hfst : (onFst (join thread) : Program ThreadFailed (WrapThread × WrapThread) Unit) (lhs, rhs) =
      .error e (w', rhs) := by
    rw [onFst, hjoin]
  exact ⟨_, noexcept_of_error (bind_of_error hfst)⟩

/-- What `try_join` does with a thread: it returns true when it was not in time, and false when it was. -/
theorem tryJoin_apply : tryJoin thread destTime w =
    if w.mFuture = true ∧ thread.waitFor destTime = true then
      if thread.fails = true then .error (.throw .threadFailed) { w with mFuture := false }
      else .ok false { w with mFuture := false }
    else .ok true w := by
  cases hfuture : w.mFuture with
  | false => simp [tryJoin, bind_apply, hfuture]
  | true =>
    cases hready : thread.waitFor destTime with
    | false => simp [tryJoin, bind_apply, hready]
    | true =>
      cases hfails : thread.fails with
      | false => simp [tryJoin, bind_apply, hfuture, hready, futureGet_of_not_fails hfails]
      | true => simp [tryJoin, bind_apply, map_apply, hfuture, hready, futureGet_of_fails hfails]

/-- A move that does not end the process. -/
private theorem of_moveInto {p : WrapThread × WrapThread} (h : moveInto thread (lhs, rhs) = .ok () p) :
    ¬ lhs.Aborts thread ∧
      p = ({ lhs with mFuture := rhs.mFuture }, { rhs with mFuture := false }) := by
  have hlives : ¬ lhs.Aborts thread := by
    intro haborts
    obtain ⟨p', herr⟩ : ∃ p', moveInto thread (lhs, rhs) = .error .abort p' := moveInto_of_aborts haborts
    exact nomatch h.symm.trans herr
  rw [moveInto_of_not_aborts hlives] at h
  cases h
  exact ⟨hlives, rfl⟩

private theorem aborts_of_moveInto {e : Fault ThreadFailed} {p : WrapThread × WrapThread}
    (h : moveInto thread (lhs, rhs) = .error e p) : lhs.Aborts thread := by
  by_contra hlives
  exact nomatch h.symm.trans (moveInto_of_not_aborts hlives)

private theorem aborts_of_destroy {e : Fault ThreadFailed} {w' : WrapThread}
    (h : destroy thread w = .error e w') : w.Aborts thread := by
  by_contra hlives
  exact nomatch h.symm.trans (destroy_of_not_aborts hlives)

/-- What `try_join` returns tells whether the thread was joined only when there was none. -/
theorem answer_tryJoin_iff {answer : Bool} {w' : WrapThread} (h : tryJoin thread destTime w = .ok answer w') :
    (answer = !w'.mFuture) ↔ w.mFuture = false := by
  rw [tryJoin_apply] at h
  split_ifs at h with hready hfails
  · cases h
    simp [hready.1]
  · cases h
    simp

private theorem mDestroyTimeout_tryJoin {answer : Bool} {w' : WrapThread}
    (h : tryJoin thread destTime w = .ok answer w') : w'.mDestroyTimeout = w.mDestroyTimeout := by
  rw [tryJoin_apply] at h
  split_ifs at h <;> cases h <;> rfl

private theorem not_throws_of_tryJoin {answer : Bool} {w' : WrapThread}
    (h : tryJoin thread destTime w = .ok answer w') (hfuture : w.mFuture = true) :
    ¬ (thread.waitFor destTime = true ∧ thread.fails = true) := by
  rintro ⟨hready, hfails⟩
  rw [tryJoin_apply, if_pos ⟨hfuture, hready⟩, if_pos hfails] at h
  exact nomatch h

private theorem of_tryJoin_throws {e : Fault ThreadFailed} {w' : WrapThread}
    (h : tryJoin thread destTime w = .error e w') :
    (thread.waitFor destTime = true ∧ thread.fails = true) ∧ w' = { w with mFuture := false } := by
  rw [tryJoin_apply] at h
  split_ifs at h with hready hfails
  cases h
  exact ⟨⟨hready.2, hfails⟩, rfl⟩

end Outcomes

end WrapThread

/-! ### Runs -/

/-- The objects of a program, and next to them what the timeouts of their destructors should be, what
`try_join` has returned, and how the process has ended. -/
structure Threads (ι : Type) where
  /-- The objects that are alive. -/
  objects : ι → Option WrapThread
  /-- The timeout that each object should have: a move takes it along. -/
  kept : ι → ℤ
  /-- What `try_join` returned each time, and whether the thread was joined then. -/
  answers : List (Bool × Bool)
  /-- The process was ended by a join in a destructor or a move. -/
  aborted : Bool
  /-- It would have been ended there with the right timeout too. -/
  due : Bool

/-- The operations on `wrap_thread` objects. -/
inductive Operation (ι : Type) where
  /-- The constructor without a thread. -/
  | construct (o : ι)
  /-- The constructors that start a thread, with the timeout 0 or the one that is given. -/
  | constructThread (o : ι) (destroyTime : ℤ)
  /-- The constructor that moves, in memory with something in the place of the timeout. -/
  | moveConstruct (o src : ι) (garbage : ℤ)
  /-- The assignment that moves, and how the thread of the assigned object goes on. -/
  | moveAssign (o src : ι) (thread : Thread)
  /-- `try_join`, and how the thread goes on. -/
  | tryJoin (o : ι) (destTime : ℤ) (thread : Thread)
  /-- The destructor, and how the thread goes on. -/
  | destroy (o : ι) (thread : Thread)

namespace Threads

variable {ι : Type} [DecidableEq ι]

/-- No objects yet. -/
def start : Threads ι := ⟨fun _ => none, fun _ => 0, [], false, false⟩

/-- An object with the timeout that it should have. -/
def put (s : Threads ι) (o : ι) (w : WrapThread) (timeout : ℤ) : Threads ι :=
  { s with objects := Function.update s.objects o (some w), kept := Function.update s.kept o timeout }

/-- An object that has changed. -/
def replace (s : Threads ι) (o : ι) (w : WrapThread) : Threads ι :=
  { s with objects := Function.update s.objects o (some w) }

/-- The process ends when an object is joined. -/
def abortAt (s : Threads ι) (o : ι) (w : WrapThread) (thread : Thread) : Threads ι :=
  { s with aborted := true, due := decide (WrapThread.Aborts thread ⟨w.mFuture, s.kept o⟩) }

/-- One operation. -/
inductive Step : Threads ι → Operation ι → Threads ι → Prop
  | construct {s : Threads ι} {o : ι} (halive : s.aborted = false) (hnew : s.objects o = none) :
    Step s (.construct o) (s.put o ⟨false, 0⟩ 0)
  | constructThread {s : Threads ι} {o : ι} {destroyTime : ℤ} (halive : s.aborted = false)
      (hnew : s.objects o = none) :
    Step s (.constructThread o destroyTime) (s.put o ⟨true, destroyTime⟩ destroyTime)
  | moveConstruct {s : Threads ι} {o src : ι} {garbage : ℤ} {thread : Thread} {w rhs rhs' : WrapThread}
      (halive : s.aborted = false) (hnew : s.objects o = none) (hsrc : s.objects src = some rhs)
      (hrun : WrapThread.moveInto thread (⟨false, garbage⟩, rhs) = .ok () (w, rhs')) :
    Step s (.moveConstruct o src garbage) ((s.put o w (s.kept src)).replace src rhs')
  | moveSelf {s : Threads ι} {o : ι} {thread : Thread} {w : WrapThread} (halive : s.aborted = false)
      (ho : s.objects o = some w) :
    Step s (.moveAssign o o thread) s
  | moveAssign {s : Threads ι} {o src : ι} {thread : Thread} {w w' rhs rhs' : WrapThread}
      (halive : s.aborted = false) (hne : o ≠ src) (ho : s.objects o = some w)
      (hsrc : s.objects src = some rhs)
      (hrun : WrapThread.moveInto thread (w, rhs) = .ok () (w', rhs')) :
    Step s (.moveAssign o src thread) ((s.put o w' (s.kept src)).replace src rhs')
  | moveAssignAborts {s : Threads ι} {o src : ι} {thread : Thread} {w rhs : WrapThread}
      {p : WrapThread × WrapThread} (halive : s.aborted = false) (hne : o ≠ src)
      (ho : s.objects o = some w) (hsrc : s.objects src = some rhs)
      (hrun : WrapThread.moveInto thread (w, rhs) = .error .abort p) :
    Step s (.moveAssign o src thread) (s.abortAt o w thread)
  | tryJoin {s : Threads ι} {o : ι} {destTime : ℤ} {thread : Thread} {w w' : WrapThread} {answer : Bool}
      (halive : s.aborted = false) (ho : s.objects o = some w)
      (hrun : WrapThread.tryJoin thread destTime w = .ok answer w') :
    Step s (.tryJoin o destTime thread)
      { s.replace o w' with answers := s.answers ++ [(answer, !w'.mFuture)] }
  | tryJoinThrows {s : Threads ι} {o : ι} {destTime : ℤ} {thread : Thread} {w w' : WrapThread}
      {e : ThreadFailed} (halive : s.aborted = false) (ho : s.objects o = some w)
      (hrun : WrapThread.tryJoin thread destTime w = .error (.throw e) w') :
    Step s (.tryJoin o destTime thread) (s.replace o w')
  | destroy {s : Threads ι} {o : ι} {thread : Thread} {w w' : WrapThread} (halive : s.aborted = false)
      (ho : s.objects o = some w) (hrun : WrapThread.destroy thread w = .ok () w') :
    Step s (.destroy o thread) { s with objects := Function.update s.objects o none }
  | destroyAborts {s : Threads ι} {o : ι} {thread : Thread} {w w' : WrapThread}
      (halive : s.aborted = false) (ho : s.objects o = some w)
      (hrun : WrapThread.destroy thread w = .error .abort w') :
    Step s (.destroy o thread) (s.abortAt o w thread)

/-- All objects have the timeouts that they should have, `try_join` has returned true exactly when the thread
was joined, and the process did not end for a timeout that was lost. A process that would have ended with the
right timeout too has ended as it should. -/
structure KeepsTimeouts (s : Threads ι) : Prop where
  timeouts : ∀ o w, s.objects o = some w → w.mDestroyTimeout = s.kept o
  answers : ∀ p ∈ s.answers, p.1 = p.2
  due : s.aborted = true → s.due = true

/-- When an operation keeps the timeouts: what is in the memory of a new object is the timeout of the one it
is moved from; an object that is assigned had the timeout of the other one, unless to join its thread ends
the process; and `try_join` finds no thread, or one that throws. -/
def Harmless (s : Threads ι) : Operation ι → Prop
  | .moveConstruct _ src garbage => ∀ rhs, s.objects src = some rhs → garbage = rhs.mDestroyTimeout
  | .moveAssign o src thread => o = src ∨ ∀ w rhs, s.objects o = some w → s.objects src = some rhs →
      w.Aborts thread ∨ w.mDestroyTimeout = rhs.mDestroyTimeout
  | .tryJoin o destTime thread => ∀ w, s.objects o = some w → w.mFuture = true →
      thread.waitFor destTime = true ∧ thread.fails = true
  | _ => True

variable {s s' : Threads ι} {op : Operation ι} {trace : List (Threads ι × Operation ι)}

omit [DecidableEq ι] in
private theorem keepsTimeouts_start : KeepsTimeouts (start : Threads ι) where
  timeouts _ _ h := nomatch h
  answers _ h := absurd h List.not_mem_nil
  due h := nomatch h

section Objects

variable {o o' : ι} {w : WrapThread} {timeout : ℤ}

private theorem objects_put : (s.put o w timeout).objects o = some w := Function.update_self ..

private theorem objects_put_of_ne (h : o' ≠ o) : (s.put o w timeout).objects o' = s.objects o' :=
  Function.update_of_ne h ..

private theorem kept_put : (s.put o w timeout).kept o = timeout := Function.update_self ..

private theorem kept_put_of_ne (h : o' ≠ o) : (s.put o w timeout).kept o' = s.kept o' :=
  Function.update_of_ne h ..

private theorem objects_replace : (s.replace o w).objects o = some w := Function.update_self ..

private theorem objects_replace_of_ne (h : o' ≠ o) : (s.replace o w).objects o' = s.objects o' :=
  Function.update_of_ne h ..

end Objects

/-- A new object keeps the timeouts when its own is the one it should have. -/
theorem keepsTimeouts_put_iff (h : KeepsTimeouts s) {o : ι} {w : WrapThread} {timeout : ℤ} :
    KeepsTimeouts (s.put o w timeout) ↔ w.mDestroyTimeout = timeout := by
  constructor
  · intro hput
    rw [hput.timeouts o w objects_put, kept_put]
  · intro hw
    refine ⟨fun o' w' ho' => ?_, h.answers, h.due⟩
    by_cases heq : o' = o
    · subst heq
      rw [objects_put, Option.some_inj] at ho'
      rw [kept_put, ← ho', hw]
    · rw [objects_put_of_ne heq] at ho'
      rw [kept_put_of_ne heq]
      exact h.timeouts o' w' ho'

/-- An object that still has its timeout changes nothing. -/
theorem keepsTimeouts_replace_iff {o : ι} {w w' : WrapThread} (ho : s.objects o = some w)
    (hsame : w'.mDestroyTimeout = w.mDestroyTimeout) :
    KeepsTimeouts (s.replace o w') ↔ KeepsTimeouts s := by
  constructor
  · intro h
    refine ⟨fun o₁ w₁ ho₁ => ?_, h.answers, h.due⟩
    by_cases heq : o₁ = o
    · subst heq
      obtain rfl : w = w₁ := Option.some_inj.mp (ho.symm.trans ho₁)
      rw [← hsame]
      exact h.timeouts o₁ w' objects_replace
    · exact h.timeouts o₁ w₁ ((objects_replace_of_ne heq).trans ho₁)
  · intro h
    refine ⟨fun o₁ w₁ ho₁ => ?_, h.answers, h.due⟩
    by_cases heq : o₁ = o
    · subst heq
      rw [objects_replace, Option.some_inj] at ho₁
      rw [← ho₁, hsame]
      exact h.timeouts o₁ w ho
    · rw [objects_replace_of_ne heq] at ho₁
      exact h.timeouts o₁ w₁ ho₁

/-- After a move the timeouts are kept when the object has the timeout of the other one. -/
theorem keepsTimeouts_move_iff (h : KeepsTimeouts s) {o src : ι} (hne : o ≠ src) {w rhs : WrapThread}
    (hsrc : s.objects src = some rhs) :
    KeepsTimeouts ((s.put o w (s.kept src)).replace src { rhs with mFuture := false }) ↔
      w.mDestroyTimeout = rhs.mDestroyTimeout := by
  have hsrc' : (s.put o w (s.kept src)).objects src = some rhs :=
    (objects_put_of_ne hne.symm).trans hsrc
  have hreplace : KeepsTimeouts ((s.put o w (s.kept src)).replace src { rhs with mFuture := false }) ↔
      KeepsTimeouts (s.put o w (s.kept src)) := keepsTimeouts_replace_iff hsrc' rfl
  rw [hreplace, keepsTimeouts_put_iff h, h.timeouts src rhs hsrc]

omit [DecidableEq ι] in
/-- Where the timeouts are kept, what ends the process would end it in any case. -/
private theorem keepsTimeouts_abortAt (h : KeepsTimeouts s) {o : ι} {w : WrapThread} {thread : Thread}
    (ho : s.objects o = some w) (haborts : w.Aborts thread) : KeepsTimeouts (s.abortAt o w thread) := by
  refine ⟨h.timeouts, h.answers, fun _ => ?_⟩
  have hsame : (⟨w.mFuture, s.kept o⟩ : WrapThread) = w := by rw [← h.timeouts o w ho]
  rw [abortAt, hsame]
  exact decide_eq_true haborts

/-- What `try_join` returns is right when the object had no thread. -/
theorem keepsTimeouts_tryJoin_iff (h : KeepsTimeouts s) {o : ι} {destTime : ℤ} {thread : Thread}
    {w w' : WrapThread} {answer : Bool} (ho : s.objects o = some w)
    (hrun : WrapThread.tryJoin thread destTime w = .ok answer w') :
    KeepsTimeouts { s.replace o w' with answers := s.answers ++ [(answer, !w'.mFuture)] } ↔
      w.mFuture = false := by
  have hsame : w'.mDestroyTimeout = w.mDestroyTimeout := WrapThread.mDestroyTimeout_tryJoin hrun
  have hreplace : KeepsTimeouts (s.replace o w') := (keepsTimeouts_replace_iff ho hsame).mpr h
  rw [← WrapThread.answer_tryJoin_iff hrun]
  constructor
  · intro hafter
    exact hafter.answers (answer, !w'.mFuture) (List.mem_append_right _ (List.mem_singleton_self _))
  · intro hanswer
    refine ⟨hreplace.timeouts, fun p hp => ?_, hreplace.due⟩
    rcases List.mem_append.mp hp with hold | hnew
    · exact h.answers p hold
    · rw [List.mem_singleton.mp hnew]
      exact hanswer

private theorem keepsTimeouts_destroy (h : KeepsTimeouts s) (o : ι) :
    KeepsTimeouts { s with objects := Function.update s.objects o none } := by
  refine ⟨fun o' w ho' => ?_, h.answers, h.due⟩
  by_cases heq : o' = o
  · subst heq
    exact nomatch (Function.update_self o' none s.objects).symm.trans ho'
  · exact h.timeouts o' w ((Function.update_of_ne heq none s.objects).symm.trans ho')

/-- What an operation does to the timeouts and the answers. -/
theorem keepsTimeouts_step_iff (h : KeepsTimeouts s) (hstep : Step s op s') :
    KeepsTimeouts s' ↔ Harmless s op := by
  cases hstep with
  | construct halive hnew => exact iff_of_true ((keepsTimeouts_put_iff h).mpr rfl) trivial
  | constructThread halive hnew => exact iff_of_true ((keepsTimeouts_put_iff h).mpr rfl) trivial
  | @moveConstruct o src garbage thread w rhs rhs' halive hnew hsrc hrun =>
    have hne : o ≠ src := by
      rintro rfl
      exact nomatch hnew.symm.trans hsrc
    obtain ⟨-, hafter⟩ := WrapThread.of_moveInto hrun
    obtain ⟨rfl, rfl⟩ := Prod.mk.inj hafter
    rw [keepsTimeouts_move_iff h hne hsrc]
    constructor
    · rintro heq rhs₁ hsrc₁
      rw [← Option.some_inj.mp (hsrc.symm.trans hsrc₁)]
      exact heq
    · exact fun hharmless => hharmless rhs hsrc
  | moveSelf halive ho => exact iff_of_true h (.inl rfl)
  | @moveAssign o src thread w w' rhs rhs' halive hne ho hsrc hrun =>
    obtain ⟨hlives, hafter⟩ := WrapThread.of_moveInto hrun
    obtain ⟨rfl, rfl⟩ := Prod.mk.inj hafter
    rw [keepsTimeouts_move_iff h hne hsrc]
    constructor
    · refine fun heq => .inr fun w₁ rhs₁ ho₁ hsrc₁ => .inr ?_
      rw [← Option.some_inj.mp (ho.symm.trans ho₁), ← Option.some_inj.mp (hsrc.symm.trans hsrc₁)]
      exact heq
    · rintro (hself | hharmless)
      · exact absurd hself hne
      · exact (hharmless w rhs ho hsrc).resolve_left hlives
  | @moveAssignAborts o src thread w rhs p halive hne ho hsrc hrun =>
    have haborts := WrapThread.aborts_of_moveInto hrun
    refine iff_of_true (keepsTimeouts_abortAt h ho haborts) (.inr fun w₁ rhs₁ ho₁ _ => .inl ?_)
    rw [← Option.some_inj.mp (ho.symm.trans ho₁)]
    exact haborts
  | @tryJoin o destTime thread w w' answer halive ho hrun =>
    rw [keepsTimeouts_tryJoin_iff h ho hrun]
    constructor
    · intro hnone w₁ ho₁ hfuture
      rw [← Option.some_inj.mp (ho.symm.trans ho₁), hnone] at hfuture
      exact nomatch hfuture
    · -- a thread that is ready and has thrown does not return
      exact fun hharmless => eq_false_of_ne_true fun hfuture =>
        WrapThread.not_throws_of_tryJoin hrun hfuture (hharmless w ho hfuture)
  | @tryJoinThrows o destTime thread w w' e halive ho hrun =>
    obtain ⟨hthrows, rfl⟩ := WrapThread.of_tryJoin_throws hrun
    have hafter : KeepsTimeouts (s.replace o { w with mFuture := false }) ↔ KeepsTimeouts s :=
      keepsTimeouts_replace_iff ho rfl
    exact iff_of_true (hafter.mpr h) fun _ _ _ => hthrows
  | @destroy o thread w w' halive ho hrun => exact iff_of_true (keepsTimeouts_destroy h o) trivial
  | @destroyAborts o thread w w' halive ho hrun =>
    exact iff_of_true (keepsTimeouts_abortAt h ho (WrapThread.aborts_of_destroy hrun)) trivial

/-- In a run without any objects at first, the timeouts are kept and `try_join` is right all along exactly
when every operation is harmless. A run is one of any number of objects, and ends where the process does. -/
theorem keepsTimeouts_throughout_iff (hrun : Steps Step start trace s) :
    Steps.Throughout KeepsTimeouts trace s ↔ Steps.All Harmless trace :=
  Steps.invariant_iff (fun _ _ _ h hstep => keepsTimeouts_step_iff h hstep) hrun keepsTimeouts_start

/-- A thread that is to be joined in 5 seconds. -/
def joinsItself : Threads ℕ := start.put 0 ⟨true, 5⟩ 5

private theorem step_joinsItself : Step start (.constructThread 0 5) joinsItself := .constructThread rfl rfl

/-- It is moved into memory that holds the same timeout. -/
def movedOn : Threads ℕ := (joinsItself.put 1 ⟨true, 5⟩ 5).replace 0 ⟨false, 5⟩

/-- The object that it was moved from has been joined: there was no thread. -/
def askedToJoin : Threads ℕ :=
  { movedOn.replace 0 ⟨false, 5⟩ with answers := [(true, true)] }

/-- A thread that is to be joined in 5 seconds is moved, what it was moved from is joined, and where it
was moved to is destroyed when it is ready. -/
def moveAndJoin : List (Threads ℕ × Operation ℕ) :=
  [(start, .constructThread 0 5), (joinsItself, .moveConstruct 1 0 5),
    (movedOn, .tryJoin 0 1 ⟨none, false⟩), (askedToJoin, .destroy 1 ⟨some 0, false⟩)]

private theorem steps_moveAndJoin : Steps Step start moveAndJoin
    { askedToJoin with objects := Function.update askedToJoin.objects 1 none } := by
  have hempty : ¬ WrapThread.Aborts ⟨none, false⟩ ⟨false, 5⟩ := by decide
  have hmoved : Step joinsItself (.moveConstruct 1 0 5) movedOn :=
    .moveConstruct rfl rfl objects_put (WrapThread.moveInto_of_not_aborts hempty)
  have hasked : Step movedOn (.tryJoin 0 1 ⟨none, false⟩) askedToJoin :=
    .tryJoin rfl objects_replace WrapThread.tryJoin_apply
  have hlast : askedToJoin.objects 1 = some ⟨true, 5⟩ := by decide
  exact .snoc (.snoc (.snoc (.snoc (.nil start) step_joinsItself) hmoved) hasked)
    (.destroy rfl hlast (WrapThread.destroy_of_not_aborts (by decide)))

/-- The timeouts are kept all along. -/
theorem keepsTimeouts_throughout_moveAndJoin :
    Steps.Throughout KeepsTimeouts moveAndJoin
      { askedToJoin with objects := Function.update askedToJoin.objects 1 none } := by
  refine (keepsTimeouts_throughout_iff steps_moveAndJoin).mpr fun p hp => ?_
  simp only [moveAndJoin, List.mem_cons, List.not_mem_nil, or_false] at hp
  rcases hp with rfl | rfl | rfl | rfl
  · trivial
  · intro rhs hrhs
    rw [← Option.some_inj.mp (objects_put.symm.trans hrhs)]
  · intro w hw hfuture
    rw [← Option.some_inj.mp (objects_replace.symm.trans hw)] at hfuture
    exact nomatch hfuture
  · trivial

/-- It is moved into memory that is zero. The new object ends the process, though the thread is ready. -/
theorem exists_not_keepsTimeouts :
    ∃ (trace : List (Threads ℕ × Operation ℕ)) (s : Threads ℕ),
      Steps Step start trace s ∧ ¬ KeepsTimeouts s := by
  let ready : Thread := ⟨some 0, false⟩
  have hlives : ¬ WrapThread.Aborts ready ⟨false, 0⟩ := by decide
  have hmove : Step joinsItself (.moveConstruct 1 0 0)
      ((joinsItself.put 1 ⟨true, 0⟩ 5).replace 0 ⟨false, 5⟩) :=
    .moveConstruct rfl rfl objects_put (WrapThread.moveInto_of_not_aborts hlives)
  obtain ⟨w', hrun⟩ : ∃ w', WrapThread.destroy ready ⟨true, 0⟩ = .error .abort w' :=
    WrapThread.destroy_of_aborts (by decide)
  have hdestroy : Step ((joinsItself.put 1 ⟨true, 0⟩ 5).replace 0 ⟨false, 5⟩) (.destroy 1 ready)
      (((joinsItself.put 1 ⟨true, 0⟩ 5).replace 0 ⟨false, 5⟩).abortAt 1 ⟨true, 0⟩ ready) :=
    .destroyAborts rfl ((objects_replace_of_ne (by decide)).trans objects_put) hrun
  refine ⟨_, _, .snoc (.snoc (.snoc (.nil start) step_joinsItself) hmove) hdestroy, fun h => ?_⟩
  exact absurd (h.due rfl) (by decide)

end Threads

end Utils

end Galaxy42
