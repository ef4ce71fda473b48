import Galaxy42.Lib.SharedMutex
import Galaxy42.Lib.Steps
import Galaxy42.Stdplus.VectorMutexedObj

/-!
# Vectors of objects with a mutex each, in many threads

`vector_mutexed_obj` once more, with any number of threads that call `push_back`, `run_on` and
`run_on_matching`. The container has a mutex, and so has each object (`with_mutex`). The guards lock in their
constructor and unlock in their destructor, and between that a function may take many steps to do what it
does to the object it is given (`Accesses`, `Readings`). The container is filled by `push_back` only, so no
slot is empty.

Each interleaving does what the calls do when their functions run at once (`plain_of_run`): a function of
`run_on` has the object for itself, and `run_on_matching` runs its function on objects that match when it
does, though the object was free for others between the two tests. And there is always a thread in a call
that can go on (`goesOn_of_run`), also if a reader has to wait while a writer waits.

A run is compared with one of a container without locks (`PlainVector`), in which a function is one step. The
callers must not be able to tell them apart: each step of a run shows what a caller sees of it, which is a call
with its arguments, or what a call returned (`seen`), and both runs show the same, in the same order. The
state without locks in which the second run ends is not just any one. It is read off the first
(`ThreadedVector.plain`): the objects of `m_data`, where those that are locked have what their functions are
about to leave in them, and the tasks, with the calls that are under way and how far each of them is.

A function is taken to run at once when it has got its lock. That nothing else sees the object between that and
the unlocking follows from who holds which mutex (`Sound`), which is the one invariant of the module. The
simulation goes by the kinds of steps, and a run is followed by the rule of `Lib.Steps` for observed runs.
-/

namespace Galaxy42

open Toolkit

namespace Stdplus

variable {ι TObj TRet : Type}

/-! ### What a thread is about -/

/-- What `run_on_matching` is called with. Both functions are called with one object, and may access it in
several steps. -/
structure Search (TObj TRet : Type) where
  /-- `fun_test` -/
  funTest : Readings TObj Bool
  /-- `fun_run` -/
  funRun : Accesses TObj TRet
  /-- `limit_matched` -/
  limitMatched : ℕ

/-- The variables of the loop of `run_on_matching`. -/
structure SearchLoop where
  /-- The slot that `iter` points to. -/
  ix : ℕ
  /-- `so_far` -/
  soFar : ℕ
  /-- `is_not_enough` -/
  isNotEnough : Bool

namespace SearchLoop

/-- Before the first round. -/
def start : SearchLoop := ⟨0, 0, false⟩

/-- The next round, when the object did not match. -/
def next (loop : SearchLoop) : SearchLoop := { loop with ix := loop.ix + 1 }

/-- The next round, when the function was run. -/
def ran (loop : SearchLoop) : SearchLoop := ⟨loop.ix + 1, loop.soFar + 1, true⟩

/-- What is thrown behind the loop. -/
def error (loop : SearchLoop) : VectorError :=
  if loop.isNotEnough then .notEnoughMatchFound else .noMatchFound

end SearchLoop

/-- How a call ends. -/
abbrev Result (TRet : Type) := Except VectorError (Option TRet)

/-- What the caller sees: that it calls a function with some arguments, and with what it returns. Which step
of a call took the lock, or saw which object, is not seen. -/
inductive Seen (TObj TRet : Type) where
  | pushBack (obj : TObj)
  | runOn (ix : ℕ) (funOn : Accesses TObj TRet)
  | runOnMatching (search : Search TObj TRet)
  | returned (result : Result TRet)

/-- Where a thread is in a call, with what is left of a function that runs. -/
inductive Task (TObj TRet : Type) where
  | idle
  /-- `push_back` waits for `lg_all`. -/
  | pushBack (obj : TObj)
  /-- It has the container for itself. -/
  | appending (obj : TObj)
  /-- The element is in the container. -/
  | appended
  /-- `run_on` waits for `lg_all`. -/
  | runOn (ix : ℕ) (funOn : Accesses TObj TRet)
  /-- It shares the container, and looks up the element. -/
  | atIndex (ix : ℕ) (funOn : Accesses TObj TRet)
  /-- It has the pointer to the element. -/
  | found (ix : ℕ) (funOn : Accesses TObj TRet)
  /-- It waits for `lg_one`. -/
  | lockingOne (ix : ℕ) (funOn : Accesses TObj TRet)
  /-- Its function runs. -/
  | runningOne (ix : ℕ) (rest : Accesses TObj TRet)
  /-- `run_on_matching` waits for `lg_all`. -/
  | runOnMatching (search : Search TObj TRet)
  /-- It shares the container until it leaves. Here it is at the top of its loop. -/
  | atRound (search : Search TObj TRet) (loop : SearchLoop)
  /-- The object is tested, under `lg_one_RO`. -/
  | testing (search : Search TObj TRet) (loop : SearchLoop) (rest : Readings TObj Bool)
  /-- The object has matched, and has no lock for now. -/
  | lockingToRun (search : Search TObj TRet) (loop : SearchLoop)
  /-- The object is tested again, under `lg_one_RW`. -/
  | testingAgain (search : Search TObj TRet) (loop : SearchLoop) (rest : Readings TObj Bool)
  /-- The function runs on it. -/
  | running (search : Search TObj TRet) (loop : SearchLoop) (rest : Accesses TObj TRet)
  /-- It leaves the block of `lg_all`, or `run_on` does so by an exception. -/
  | leaving (result : Result TRet)
  | finished (result : Result TRet)

namespace Task

/-- A call begins here. -/
def Begins : Task TObj TRet → Prop
  | pushBack _ | runOn _ _ | runOnMatching _ => True
  | _ => False

/-- The thread is in no call. It has not called anything, or its call has a result. -/
def Quiet : Task TObj TRet → Prop
  | idle | finished _ => True
  | _ => False

/-- The thread shares the container. -/
def ReadsAll : Task TObj TRet → Prop
  | atIndex _ _ | found _ _ | atRound _ _ | testing _ _ _ | lockingToRun _ _ | testingAgain _ _ _
  | running _ _ _ | leaving _ => True
  | _ => False

/-- The thread has the container for itself. -/
def WritesAll : Task TObj TRet → Prop
  | appending _ | appended => True
  | _ => False

/-- The slot that the thread shares. -/
def reads : Task TObj TRet → Option ℕ
  | testing _ loop _ => some loop.ix
  | _ => none

/-- The slot that the thread has for itself. -/
def writes : Task TObj TRet → Option ℕ
  | runningOne ix _ => some ix
  | testingAgain _ loop _ | running _ loop _ => some loop.ix
  | _ => none

/-- The slot that the thread has a pointer to. -/
def pointer : Task TObj TRet → Option ℕ
  | found ix _ | lockingOne ix _ | runningOne ix _ => some ix
  | testing _ loop _ | lockingToRun _ loop | testingAgain _ loop _ | running _ loop _ => some loop.ix
  | _ => none

/-- The mutex that the thread waits for as a reader: the one of the container, or of a slot. -/
def waitsToRead : Task TObj TRet → Option (Option ℕ)
  | runOn _ _ | runOnMatching _ => some none
  | atRound _ loop => some (some loop.ix)
  | _ => none

/-- The mutex that the thread waits for as a writer. -/
def waitsToWrite : Task TObj TRet → Option (Option ℕ)
  | pushBack _ => some none
  | lockingOne ix _ => some (some ix)
  | lockingToRun _ loop => some (some loop.ix)
  | _ => none

private theorem pointer_of_reads {task : Task TObj TRet} {ix : ℕ} (h : task.reads = some ix) :
    task.pointer = some ix := by
  cases task with
  | testing => exact h
  | _ => cases h

private theorem pointer_of_writes {task : Task TObj TRet} {ix : ℕ} (h : task.writes = some ix) :
    task.pointer = some ix := by
  cases task with
  | runningOne | testingAgain | running => exact h
  | _ => cases h

/-- Where `run_on_matching` goes when its function has returned. -/
def afterRun (search : Search TObj TRet) (loop : SearchLoop) (ret : TRet) : Task TObj TRet :=
  if loop.soFar + 1 ≥ search.limitMatched then leaving (.ok (some ret)) else atRound search loop.ran

/-- What the caller sees of a step from one task to another. -/
def seen : Task TObj TRet → Task TObj TRet → Option (Seen TObj TRet)
  | idle, pushBack obj => some (.pushBack obj)
  | idle, runOn ix funOn => some (.runOn ix funOn)
  | idle, runOnMatching search => some (.runOnMatching search)
  | finished result, idle => some (.returned result)
  | _, _ => none

end Task

/-! ### Steps -/

/-- `with_mutex` -/
structure WithMutex (ι TObj : Type) where
  /-- `m_mutex` -/
  mutex : SharedMutex ι
  /-- `m_obj` -/
  obj : TObj

/-- `vector_mutexed_obj`, and what its threads are about. Each element has a mutex of its own beside that of
the container. -/
structure ThreadedVector (ι TObj TRet : Type) where
  /-- `m_mutex_all` -/
  mutexAll : SharedMutex ι
  /-- `m_data` -/
  mData : List (WithMutex ι TObj)
  tasks : ι → Task TObj TRet

/-- What a thread may do next, and what then is the mutex of the container, its data, and the task. -/
inductive Acts [DecidableEq ι] (i : ι) (mutexAll : SharedMutex ι) (mData : List (WithMutex ι TObj)) :
    Task TObj TRet → SharedMutex ι → List (WithMutex ι TObj) → Task TObj TRet → Prop
  | call {task : Task TObj TRet} (hbegins : task.Begins) : Acts i mutexAll mData .idle mutexAll mData task
  | returned (result : Result TRet) : Acts i mutexAll mData (.finished result) mutexAll mData .idle
  | lockToPush {obj : TObj} (hfree : mutexAll.Free) :
      Acts i mutexAll mData (.pushBack obj) (mutexAll.lock i) mData (.appending obj)
  | append {obj : TObj} :
      Acts i mutexAll mData (.appending obj) mutexAll (mData ++ [⟨.unlocked, obj⟩]) .appended
  | unlockPushed : Acts i mutexAll mData .appended mutexAll.unlock mData (.finished (.ok none))
  | lockToFind {ix : ℕ} {funOn : Accesses TObj TRet} (hshare : mutexAll.Shareable) :
      Acts i mutexAll mData (.runOn ix funOn) (mutexAll.lockShared i) mData (.atIndex ix funOn)
  | lookup {ix : ℕ} {funOn : Accesses TObj TRet} (hix : ix < mData.length) :
      Acts i mutexAll mData (.atIndex ix funOn) mutexAll mData (.found ix funOn)
  | atThrows {ix : ℕ} {funOn : Accesses TObj TRet} (hix : mData.length ≤ ix) :
      Acts i mutexAll mData (.atIndex ix funOn) mutexAll mData (.leaving (.error .outOfRange))
  | unlockFound {ix : ℕ} {funOn : Accesses TObj TRet} :
      Acts i mutexAll mData (.found ix funOn) (mutexAll.unlockShared i) mData (.lockingOne ix funOn)
  | lockOne {ix : ℕ} {funOn : Accesses TObj TRet} {slot : WithMutex ι TObj} (hslot : mData[ix]? = some slot)
      (hfree : slot.mutex.Free) :
      Acts i mutexAll mData (.lockingOne ix funOn) mutexAll
        (mData.set ix { slot with mutex := slot.mutex.lock i }) (.runningOne ix funOn)
  | accessOne {ix : ℕ} {change : TObj → TObj} {next : TObj → Accesses TObj TRet} {slot : WithMutex ι TObj}
      (hslot : mData[ix]? = some slot) :
      Acts i mutexAll mData (.runningOne ix (.access change next)) mutexAll
        (mData.set ix { slot with obj := change slot.obj }) (.runningOne ix (next slot.obj))
  | unlockOne {ix : ℕ} {ret : TRet} {slot : WithMutex ι TObj} (hslot : mData[ix]? = some slot) :
      Acts i mutexAll mData (.runningOne ix (.done ret)) mutexAll
        (mData.set ix { slot with mutex := slot.mutex.unlock }) (.finished (.ok (some ret)))
  | lockToMatch {search : Search TObj TRet} (hshare : mutexAll.Shareable) :
      Acts i mutexAll mData (.runOnMatching search) (mutexAll.lockShared i) mData (.atRound search .start)
  | lockToTest {search : Search TObj TRet} {loop : SearchLoop} {slot : WithMutex ι TObj}
      (hslot : mData[loop.ix]? = some slot) (hshare : slot.mutex.Shareable) :
      Acts i mutexAll mData (.atRound search loop) mutexAll
        (mData.set loop.ix { slot with mutex := slot.mutex.lockShared i }) (.testing search loop search.funTest)
  | readTest {search : Search TObj TRet} {loop : SearchLoop} {next : TObj → Readings TObj Bool}
      {slot : WithMutex ι TObj} (hslot : mData[loop.ix]? = some slot) :
      Acts i mutexAll mData (.testing search loop (.read next)) mutexAll mData
        (.testing search loop (next slot.obj))
  | unlockTested {search : Search TObj TRet} {loop : SearchLoop} {isMatch : Bool} {slot : WithMutex ι TObj}
      (hslot : mData[loop.ix]? = some slot) :
      Acts i mutexAll mData (.testing search loop (.done isMatch)) mutexAll
        (mData.set loop.ix { slot with mutex := slot.mutex.unlockShared i })
        (if isMatch then .lockingToRun search loop else .atRound search loop.next)
  | lockToRun {search : Search TObj TRet} {loop : SearchLoop} {slot : WithMutex ι TObj}
      (hslot : mData[loop.ix]? = some slot) (hfree : slot.mutex.Free) :
      Acts i mutexAll mData (.lockingToRun search loop) mutexAll
        (mData.set loop.ix { slot with mutex := slot.mutex.lock i }) (.testingAgain search loop search.funTest)
  | readAgain {search : Search TObj TRet} {loop : SearchLoop} {next : TObj → Readings TObj Bool}
      {slot : WithMutex ι TObj} (hslot : mData[loop.ix]? = some slot) :
      Acts i mutexAll mData (.testingAgain search loop (.read next)) mutexAll mData
        (.testingAgain search loop (next slot.obj))
  | unlockNotAgain {search : Search TObj TRet} {loop : SearchLoop} {slot : WithMutex ι TObj}
      (hslot : mData[loop.ix]? = some slot) :
      Acts i mutexAll mData (.testingAgain search loop (.done false)) mutexAll
        (mData.set loop.ix { slot with mutex := slot.mutex.unlock }) (.atRound search loop.next)
  | runAgain {search : Search TObj TRet} {loop : SearchLoop} :
      Acts i mutexAll mData (.testingAgain search loop (.done true)) mutexAll mData
        (.running search loop search.funRun)
  | access {search : Search TObj TRet} {loop : SearchLoop} {change : TObj → TObj}
      {next : TObj → Accesses TObj TRet} {slot : WithMutex ι TObj} (hslot : mData[loop.ix]? = some slot) :
      Acts i mutexAll mData (.running search loop (.access change next)) mutexAll
        (mData.set loop.ix { slot with obj := change slot.obj }) (.running search loop (next slot.obj))
  | unlockRun {search : Search TObj TRet} {loop : SearchLoop} {ret : TRet} {slot : WithMutex ι TObj}
      (hslot : mData[loop.ix]? = some slot) :
      Acts i mutexAll mData (.running search loop (.done ret)) mutexAll
        (mData.set loop.ix { slot with mutex := slot.mutex.unlock }) (.afterRun search loop ret)
  | endLoop {search : Search TObj TRet} {loop : SearchLoop} (hix : mData.length ≤ loop.ix) :
      Acts i mutexAll mData (.atRound search loop) mutexAll mData (.leaving (.error loop.error))
  | leave (result : Result TRet) :
      Acts i mutexAll mData (.leaving result) (mutexAll.unlockShared i) mData (.finished result)

namespace ThreadedVector

variable [DecidableEq ι]

/-- An empty container, and threads that have not called anything. -/
def start : ThreadedVector ι TObj TRet := ⟨.unlocked, [], fun _ => .idle⟩

/-- A step of a thread. -/
def Stepped (s : ThreadedVector ι TObj TRet) (i : ι) (s' : ThreadedVector ι TObj TRet) : Prop :=
  ∃ mutexAll mData task, Acts i s.mutexAll s.mData (s.tasks i) mutexAll mData task ∧
    s' = ⟨mutexAll, mData, Function.update s.tasks i task⟩

omit [DecidableEq ι] in
/-- What the caller sees of a step of a thread. -/
def seen (i : ι) (s s' : ThreadedVector ι TObj TRet) : Option (Seen TObj TRet) := (s.tasks i).seen (s'.tasks i)

/-! ### Who holds which lock -/

/-- The mutex of an element is held as the tasks say. -/
def HeldAt (tasks : ι → Task TObj TRet) (ix : ℕ) (slot : WithMutex ι TObj) : Prop :=
  slot.mutex.HeldBy (fun task : Task TObj TRet => task.reads = some ix) (fun task => task.writes = some ix) tasks

/-- The mutexes are held as the tasks say, and each pointer is to an element. The tasks say all about the
locks, so that no thread holds one that it does not use. -/
structure Sound (mutexAll : SharedMutex ι) (mData : List (WithMutex ι TObj)) (tasks : ι → Task TObj TRet) :
    Prop where
  all : mutexAll.HeldBy Task.ReadsAll Task.WritesAll tasks
  one : ∀ ix slot, mData[ix]? = some slot → HeldAt tasks ix slot
  pointer : ∀ i ix, (tasks i).pointer = some ix → ix < mData.length

omit [DecidableEq ι] in
private theorem sound_start : Sound (.unlocked : SharedMutex ι) [] (fun _ => (.idle : Task TObj TRet)) where
  all := .unlocked (fun _ h => h) fun _ h => h
  one ix slot h := by cases h
  pointer i ix h := by cases h

namespace Sound

variable {mutexAll mutexAll' : SharedMutex ι} {mData mData' : List (WithMutex ι TObj)}
  {tasks : ι → Task TObj TRet} {i : ι} {ix : ℕ} {slot slot' : WithMutex ι TObj} {before task : Task TObj TRet}
  (h : Sound mutexAll mData tasks) (htask : tasks i = before)

include h htask

private theorem all_keep (hreads : task.ReadsAll ↔ before.ReadsAll)
    (hwrites : task.WritesAll ↔ before.WritesAll) :
    mutexAll.HeldBy Task.ReadsAll Task.WritesAll (Function.update tasks i task) :=
  h.all.keep (by rw [htask, hreads]) (by rw [htask, hwrites])

/-- The elements when a thread goes on with what it has of them. -/
theorem one_keep (task : Task TObj TRet) (hreads : task.reads = before.reads)
    (hwrites : task.writes = before.writes) (ix : ℕ) (slot : WithMutex ι TObj) (hslot : mData[ix]? = some slot) :
    HeldAt (Function.update tasks i task) ix slot :=
  (h.one ix slot hslot).keep (by rw [htask, hreads]) (by rw [htask, hwrites])

/-- The elements when a thread does something to one of them, and has no pointer to others. -/
private theorem one_set (hslot : mData[ix]? = some slot)
    (hset : HeldAt (Function.update tasks i task) ix slot')
    (hbefore : ∀ ix', before.pointer = some ix' → ix' = ix) (hafter : ∀ ix', task.pointer = some ix' → ix' = ix)
    (ix' : ℕ) (slot₁ : WithMutex ι TObj) (hget : (mData.set ix slot')[ix']? = some slot₁) :
    HeldAt (Function.update tasks i task) ix' slot₁ := by
  rcases eq_or_ne ix' ix with rfl | hne
  · rw [List.getElem?_set_self (List.getElem?_eq_some_iff.mp hslot).1] at hget
    obtain rfl := Option.some.inj hget
    exact hset
  · rw [List.getElem?_set_ne hne.symm] at hget
    refine (h.one ix' slot₁ hget).keep (iff_of_false ?_ ?_) (iff_of_false ?_ ?_)
    · exact fun heq => hne (hafter ix' (Task.pointer_of_reads heq))
    · rw [htask]
      exact fun heq => hne (hbefore ix' (Task.pointer_of_reads heq))
    · exact fun heq => hne (hafter ix' (Task.pointer_of_writes heq))
    · rw [htask]
      exact fun heq => hne (hbefore ix' (Task.pointer_of_writes heq))

omit htask in
/-- The pointers when a thread has another one. -/
theorem pointer_keep (hlength : mData.length ≤ mData'.length)
    (htask : ∀ ix, task.pointer = some ix → ix < mData'.length) (j : ι) (ix : ℕ)
    (hpointer : (Function.update tasks i task j).pointer = some ix) : ix < mData'.length := by
  rcases eq_or_ne j i with rfl | hne
  · rw [Function.update_self] at hpointer
    exact htask ix hpointer
  · rw [Function.update_of_ne hne] at hpointer
    exact (h.pointer j ix hpointer).trans_le hlength

/-- A thread that only takes or releases the container, or does nothing to the mutexes. -/
private theorem of_all (hall : mutexAll'.HeldBy Task.ReadsAll Task.WritesAll (Function.update tasks i task))
    (hreads : task.reads = before.reads) (hwrites : task.writes = before.writes)
    (hpointer : ∀ ix, task.pointer = some ix → ix < mData.length) :
    Sound mutexAll' mData (Function.update tasks i task) where
  all := hall
  one := h.one_keep htask task hreads hwrites
  pointer := h.pointer_keep le_rfl hpointer

/-- A thread that does something to an element. -/
private theorem of_set (hslot : mData[ix]? = some slot)
    (hset : HeldAt (Function.update tasks i task) ix slot')
    (hreads : task.ReadsAll ↔ before.ReadsAll) (hwrites : task.WritesAll ↔ before.WritesAll)
    (hbefore : ∀ ix', before.pointer = some ix' → ix' = ix)
    (hafter : ∀ ix', task.pointer = some ix' → ix' = ix) :
    Sound mutexAll (mData.set ix slot') (Function.update tasks i task) where
  all := h.all_keep htask hreads hwrites
  one := h.one_set htask hslot hset hbefore hafter
  pointer := by
    have hlength : mData.length ≤ (mData.set ix slot').length := by rw [List.length_set]
    refine h.pointer_keep hlength fun ix' hpointer => ?_
    obtain rfl := hafter ix' hpointer
    exact (List.getElem?_eq_some_iff.mp hslot).1.trans_le hlength

/-- A thread that puts an element into the container: no thread has anything of it yet. -/
private theorem of_append {obj : TObj} (hreads : task.reads = before.reads)
    (hwrites : task.writes = before.writes)
    (hreadsAll : task.ReadsAll ↔ before.ReadsAll) (hwritesAll : task.WritesAll ↔ before.WritesAll)
    (hpointer : task.pointer = none) :
    Sound mutexAll (mData ++ [⟨.unlocked, obj⟩]) (Function.update tasks i task) := by
  have hlength : mData.length ≤ (mData ++ [(⟨.unlocked, obj⟩ : WithMutex ι TObj)]).length := by simp
  refine ⟨h.all_keep htask hreadsAll hwritesAll, fun ix slot hget => ?_,
    h.pointer_keep hlength fun ix hix => by rw [hpointer] at hix; cases hix⟩
  rcases lt_or_ge ix mData.length with hlt | hge
  · rw [List.getElem?_append_left hlt] at hget
    exact h.one_keep htask task hreads hwrites ix slot hget
  · obtain rfl : ix = mData.length := by
      have hix := (List.getElem?_eq_some_iff.mp hget).1
      rw [List.length_append, List.length_singleton] at hix
      omega
    rw [List.getElem?_concat_length] at hget
    obtain rfl := Option.some.inj hget
    have hnone : ∀ j, (Function.update tasks i task j).pointer ≠ some mData.length := by
      intro j hj
      have hlt : mData.length < mData.length :=
        h.pointer_keep le_rfl (fun ix hix => by rw [hpointer] at hix; cases hix) j mData.length hj
      omega
    exact .unlocked (fun j hj => hnone j (Task.pointer_of_reads hj))
      fun j hj => hnone j (Task.pointer_of_writes hj)

omit htask in
/-- Each step keeps to the locks. -/
private theorem act (hact : Acts i mutexAll mData (tasks i) mutexAll' mData' task) :
    Sound mutexAll' mData' (Function.update tasks i task) := by
  generalize htask : tasks i = before at hact
  have hpointer : ∀ ix, before.pointer = some ix → ix < mData.length := by
    rw [← htask]
    exact h.pointer i
  have hone : ∀ ix slot, mData[ix]? = some slot → HeldAt tasks ix slot := h.one
  have hat (ix ix' : ℕ) (heq : some ix = some ix') : ix' = ix := (Option.some.inj heq).symm
  cases hact with
  | call hbegins =>
    cases task with
    | pushBack | runOn | runOnMatching =>
      exact h.of_all htask (h.all_keep htask .rfl .rfl) rfl rfl nofun
    | _ => cases hbegins
  | returned result => exact h.of_all htask (h.all_keep htask .rfl .rfl) rfl rfl nofun
  | lockToPush hfree => exact h.of_all htask (h.all.lock hfree id trivial) rfl rfl nofun
  | append => exact h.of_append htask rfl rfl .rfl .rfl rfl
  | unlockPushed =>
    refine h.of_all htask (h.all.unlock (i := i) ?_ id id) rfl rfl nofun
    rw [htask]
    trivial
  | lockToFind hshare => exact h.of_all htask (h.all.lockShared hshare trivial id) rfl rfl nofun
  | lookup hix =>
    refine h.of_all htask (h.all_keep htask .rfl .rfl) rfl rfl fun _ heq => ?_
    cases heq
    exact hix
  | atThrows hix => exact h.of_all htask (h.all_keep htask .rfl .rfl) rfl rfl nofun
  | unlockFound =>
    refine h.of_all htask (h.all.unlockShared (i := i) ?_ id id) rfl rfl hpointer
    rw [htask]
    trivial
  | lockOne hslot hfree =>
    exact h.of_set htask hslot ((hone _ _ hslot).lock hfree nofun rfl) .rfl .rfl (hat _) (hat _)
  | @accessOne ix change next slot hslot =>
    have hkept := h.one_keep htask (.runningOne ix (next slot.obj)) rfl rfl ix slot hslot
    exact h.of_set htask hslot hkept .rfl .rfl (hat _) (hat _)
  | unlockOne hslot =>
    refine h.of_set htask hslot ((hone _ _ hslot).unlock (i := i) ?_ nofun nofun) .rfl .rfl (hat _) nofun
    rw [htask]
    rfl
  | lockToMatch hshare => exact h.of_all htask (h.all.lockShared hshare trivial id) rfl rfl nofun
  | lockToTest hslot hshare =>
    exact h.of_set htask hslot ((hone _ _ hslot).lockShared hshare rfl nofun) .rfl .rfl nofun (hat _)
  | readTest hslot => exact h.of_all htask (h.all_keep htask .rfl .rfl) rfl rfl hpointer
  | @unlockTested search loop isMatch slot hslot =>
    have hunlocked : ∀ after : Task TObj TRet, after.reads = none → after.writes = none →
        HeldAt (Function.update tasks i after) loop.ix { slot with mutex := slot.mutex.unlockShared i } := by
      intro after hreads hwrites
      refine (hone _ _ hslot).unlockShared (i := i) ?_ (by rw [hreads]; nofun) (by rw [hwrites]; nofun)
      rw [htask]
      rfl
    cases isMatch with
    | true => exact h.of_set htask hslot (hunlocked _ rfl rfl) .rfl .rfl (hat _) (hat _)
    | false => exact h.of_set htask hslot (hunlocked _ rfl rfl) .rfl .rfl (hat _) nofun
  | lockToRun hslot hfree =>
    exact h.of_set htask hslot ((hone _ _ hslot).lock hfree nofun rfl) .rfl .rfl (hat _) (hat _)
  | readAgain hslot => exact h.of_all htask (h.all_keep htask .rfl .rfl) rfl rfl hpointer
  | unlockNotAgain hslot =>
    refine h.of_set htask hslot ((hone _ _ hslot).unlock (i := i) ?_ nofun nofun) .rfl .rfl (hat _) nofun
    rw [htask]
    rfl
  | runAgain => exact h.of_all htask (h.all_keep htask .rfl .rfl) rfl rfl hpointer
  | @access search loop change next slot hslot =>
    have hkept := h.one_keep htask (.running search loop (next slot.obj)) rfl rfl loop.ix slot hslot
    exact h.of_set htask hslot hkept .rfl .rfl (hat _) (hat _)
  | @unlockRun search loop ret slot hslot =>
    have hunlocked : ∀ after : Task TObj TRet, after.reads = none → after.writes = none →
        HeldAt (Function.update tasks i after) loop.ix { slot with mutex := slot.mutex.unlock } := by
      intro after hreads hwrites
      refine (hone _ _ hslot).unlock (i := i) ?_ (by rw [hreads]; nofun) (by rw [hwrites]; nofun)
      rw [htask]
      rfl
    rw [Task.afterRun]
    split
    · exact h.of_set htask hslot (hunlocked _ rfl rfl) .rfl .rfl (hat _) nofun
    · exact h.of_set htask hslot (hunlocked _ rfl rfl) .rfl .rfl (hat _) nofun
  | endLoop hix => exact h.of_all htask (h.all_keep htask .rfl .rfl) rfl rfl nofun
  | leave result =>
    refine h.of_all htask (h.all.unlockShared (i := i) ?_ id id) rfl rfl nofun
    rw [htask]
    trivial

end Sound

/-! ### Functions that run at once -/

end ThreadedVector

/-- Where a thread is in a call, when functions run at once. -/
inductive PlainTask (TObj TRet : Type) where
  | idle
  | pushBack (obj : TObj)
  | runOn (ix : ℕ) (funOn : Accesses TObj TRet)
  /-- `run_on` has found the element. -/
  | found (ix : ℕ) (funOn : Accesses TObj TRet)
  | runOnMatching (search : Search TObj TRet)
  /-- `run_on_matching` is at the top of its loop over so many elements. -/
  | atRound (search : Search TObj TRet) (loop : SearchLoop) (size : ℕ)
  /-- The object has matched. -/
  | hasMatched (search : Search TObj TRet) (loop : SearchLoop) (size : ℕ)
  | finished (result : Result TRet)

namespace PlainTask

/-- A call begins here. -/
def Begins : PlainTask TObj TRet → Prop
  | pushBack _ | runOn _ _ | runOnMatching _ => True
  | _ => False

/-- Where `run_on_matching` goes when its object was tested. -/
def afterTest (search : Search TObj TRet) (loop : SearchLoop) (size : ℕ) (isMatch : Bool) : PlainTask TObj TRet :=
  if isMatch then hasMatched search loop size else atRound search loop.next size

/-- Where `run_on_matching` goes when its function has returned. -/
def afterRun (search : Search TObj TRet) (loop : SearchLoop) (size : ℕ) (ret : TRet) : PlainTask TObj TRet :=
  if loop.soFar + 1 ≥ search.limitMatched then finished (.ok (some ret)) else atRound search loop.ran size

/-- The next step of a call, and what it does to the objects. The object that has matched is tested once
more, and when it still matches the function runs on it at the same time. -/
def step (objs : List TObj) : PlainTask TObj TRet → PlainTask TObj TRet × List TObj
  | idle => (idle, objs)
  | pushBack obj => (finished (.ok none), objs ++ [obj])
  | runOn ix funOn => (if ix < objs.length then found ix funOn else finished (.error .outOfRange), objs)
  | found ix funOn =>
    match objs[ix]? with
    | some obj => (finished (.ok (some (funOn.run obj).1)), objs.set ix (funOn.run obj).2)
    | none => (idle, objs)
  | runOnMatching search => (atRound search .start objs.length, objs)
  | atRound search loop size =>
    if loop.ix < size then
      match objs[loop.ix]? with
      | some obj => (afterTest search loop size (search.funTest.run obj), objs)
      | none => (idle, objs)
    else
      (finished (.error loop.error), objs)
  | hasMatched search loop size =>
    match objs[loop.ix]? with
    | some obj =>
      if search.funTest.run obj then
        (afterRun search loop size (search.funRun.run obj).1, objs.set loop.ix (search.funRun.run obj).2)
      else
        (atRound search loop.next size, objs)
    | none => (idle, objs)
  | finished result => (finished result, objs)

/-- What the caller sees of a step from one task to another. -/
def seen : PlainTask TObj TRet → PlainTask TObj TRet → Option (Seen TObj TRet)
  | idle, pushBack obj => some (.pushBack obj)
  | idle, runOn ix funOn => some (.runOn ix funOn)
  | idle, runOnMatching search => some (.runOnMatching search)
  | finished result, idle => some (.returned result)
  | _, _ => none

end PlainTask

/-- A container without locks, and what its threads are about. Nothing else is shared by the threads. -/
structure PlainVector (ι TObj TRet : Type) where
  objs : List TObj
  tasks : ι → PlainTask TObj TRet

/-- A step of a thread: it calls something, goes on in its call, or has returned. -/
inductive PlainVector.Stepped [DecidableEq ι] (v : PlainVector ι TObj TRet) (i : ι) :
    PlainVector ι TObj TRet → Prop
  | call {task : PlainTask TObj TRet} (hidle : v.tasks i = .idle) (hbegins : task.Begins) :
      Stepped v i ⟨v.objs, Function.update v.tasks i task⟩
  | returned {result : Result TRet} (hfinished : v.tasks i = .finished result) :
      Stepped v i ⟨v.objs, Function.update v.tasks i .idle⟩
  | goesOn {objs : List TObj} {task : PlainTask TObj TRet} (hstep : (v.tasks i).step v.objs = (task, objs)) :
      Stepped v i ⟨objs, Function.update v.tasks i task⟩

/-- What the caller sees of a step of a thread. -/
def PlainVector.seen (i : ι) (v v' : PlainVector ι TObj TRet) : Option (Seen TObj TRet) :=
  (v.tasks i).seen (v'.tasks i)

namespace Task

/-- The result that a function is on its way to, with the object that it has now. -/
def onObj (mData : List (WithMutex ι TObj)) (ix : ℕ) (f : TObj → PlainTask TObj TRet) : PlainTask TObj TRet :=
  (mData[ix]?.map fun slot => f slot.obj).getD .idle

private theorem onObj_of_getElem? {mData : List (WithMutex ι TObj)} {ix : ℕ} {slot : WithMutex ι TObj}
    (hslot : mData[ix]? = some slot) (f : TObj → PlainTask TObj TRet) : onObj mData ix f = f slot.obj := by
  rw [onObj, hslot]
  rfl

private theorem onObj_set {mData : List (WithMutex ι TObj)} {ix : ℕ} {slot : WithMutex ι TObj}
    (hslot : mData[ix]? = some slot) (slot' : WithMutex ι TObj) (f : TObj → PlainTask TObj TRet) :
    onObj (mData.set ix slot') ix f = f slot'.obj :=
  onObj_of_getElem? (List.getElem?_set_self (List.getElem?_eq_some_iff.mp hslot).1) f

/-- Where a thread is when a function is taken to run at once, where it has got its lock. -/
def plain (mData : List (WithMutex ι TObj)) : Task TObj TRet → PlainTask TObj TRet
  | idle => .idle
  | pushBack obj => .pushBack obj
  | appending obj => .pushBack obj
  | appended => .finished (.ok none)
  | runOn ix funOn => .runOn ix funOn
  | atIndex ix funOn => .runOn ix funOn
  | found ix funOn => .found ix funOn
  | lockingOne ix funOn => .found ix funOn
  | runningOne ix rest => onObj mData ix fun obj => .finished (.ok (some (rest.run obj).1))
  | runOnMatching search => .runOnMatching search
  | atRound search loop => .atRound search loop mData.length
  | testing search loop rest =>
    onObj mData loop.ix fun obj => .afterTest search loop mData.length (rest.run obj)
  | lockingToRun search loop => .hasMatched search loop mData.length
  | testingAgain search loop rest =>
    onObj mData loop.ix fun obj =>
      if rest.run obj then .afterRun search loop mData.length (search.funRun.run obj).1
      else .atRound search loop.next mData.length
  | running search loop rest =>
    onObj mData loop.ix fun obj => .afterRun search loop mData.length (rest.run obj).1
  | leaving result => .finished result
  | finished result => .finished result

/-- What the thread leaves of the object that it has for itself. A test that is run again may lead to the
function, or not. -/
def leaves : Task TObj TRet → TObj → TObj
  | runningOne _ rest, obj => (rest.run obj).2
  | testingAgain search _ rest, obj => if rest.run obj then (search.funRun.run obj).2 else obj
  | running _ _ rest, obj => (rest.run obj).2
  | _, obj => obj

private theorem plain_afterRun (mData : List (WithMutex ι TObj)) (search : Search TObj TRet)
    (loop : SearchLoop)
    (ret : TRet) : (afterRun search loop ret).plain mData = .afterRun search loop mData.length ret := by
  rw [afterRun, PlainTask.afterRun]
  split <;> rfl

/-- Where a thread is depends on the element it has, and while it shares the container on their number. -/
theorem plain_congr {mData mData' : List (WithMutex ι TObj)} {task : Task TObj TRet}
    (hall : task.ReadsAll → mData'.length = mData.length)
    (hobj : ∀ ix, task.reads = some ix ∨ task.writes = some ix →
      mData'[ix]?.map WithMutex.obj = mData[ix]?.map WithMutex.obj) :
    task.plain mData' = task.plain mData := by
  have honObj (ix : ℕ) (hix : task.reads = some ix ∨ task.writes = some ix) (f : TObj → PlainTask TObj TRet) :
      onObj mData' ix f = onObj mData ix f := by
    have hmap (xs : List (WithMutex ι TObj)) : onObj xs ix f = ((xs[ix]?.map WithMutex.obj).map f).getD .idle := by
      rw [onObj, Option.map_map]
      rfl
    rw [hmap, hmap, hobj ix hix]
  cases task with
  | runningOne ix rest =>
    rw [plain, plain]
    exact honObj ix (.inr rfl) _
  | atRound search loop => rw [plain, plain, hall trivial]
  | testing search loop rest =>
    rw [plain, plain, hall trivial]
    exact honObj loop.ix (.inl rfl) _
  | lockingToRun search loop => rw [plain, plain, hall trivial]
  | testingAgain search loop rest =>
    rw [plain, plain, hall trivial]
    exact honObj loop.ix (.inr rfl) _
  | running search loop rest =>
    rw [plain, plain, hall trivial]
    exact honObj loop.ix (.inr rfl) _
  | _ => rfl

end Task

namespace ThreadedVector

/-- The object of an element when the function that has it for itself is taken to have run. Where nobody has
it for himself it is what is there. -/
def plainObj (tasks : ι → Task TObj TRet) (slot : WithMutex ι TObj) : TObj :=
  match slot.mutex.writer with
  | some i => (tasks i).leaves slot.obj
  | none => slot.obj

/-- The container without locks. -/
def plain (mData : List (WithMutex ι TObj)) (tasks : ι → Task TObj TRet) : PlainVector ι TObj TRet where
  objs := mData.map (plainObj tasks)
  tasks i := (tasks i).plain mData

private theorem plainObj_of_none {tasks : ι → Task TObj TRet} (slot : WithMutex ι TObj)
    (h : slot.mutex.writer = none) :
    plainObj tasks slot = slot.obj := by
  rw [plainObj, h]

private theorem plainObj_of_some {tasks : ι → Task TObj TRet} (slot : WithMutex ι TObj) {i : ι}
    (h : slot.mutex.writer = some i) : plainObj tasks slot = (tasks i).leaves slot.obj := by
  rw [plainObj, h]

variable [DecidableEq ι]

namespace Sound

variable {mutexAll mutexAll' : SharedMutex ι} {mData mData' : List (WithMutex ι TObj)}
  {tasks : ι → Task TObj TRet} {i : ι} {ix : ℕ} {slot slot' : WithMutex ι TObj} {before task : Task TObj TRet}
  (h : Sound mutexAll mData tasks) (htask : tasks i = before)

include h htask

/-- The objects when a thread goes on, if it leaves the same of the one that it has. -/
theorem objs_keep (hleaves : ∀ ix slot, before.writes = some ix → mData[ix]? = some slot →
      task.leaves slot.obj = before.leaves slot.obj) :
    mData.map (plainObj (Function.update tasks i task)) = mData.map (plainObj tasks) := by
  refine List.map_congr_left fun slot hmem => ?_
  obtain ⟨ix, hslot⟩ := List.mem_iff_getElem?.mp hmem
  cases hwriter : slot.mutex.writer with
  | none => rw [plainObj_of_none slot hwriter, plainObj_of_none slot hwriter]
  | some j =>
    rw [plainObj_of_some slot hwriter, plainObj_of_some slot hwriter]
    rcases eq_or_ne j i with rfl | hne
    · have hwrites := ((h.one ix slot hslot).writer j).mp hwriter
      rw [htask] at hwrites
      rw [Function.update_self, htask, hleaves ix slot hwrites hslot]
    · rw [Function.update_of_ne hne]

/-- The objects when a thread does something to an element, and has no pointer to others. -/
private theorem objs_set (hbefore : ∀ ix', before.pointer = some ix' → ix' = ix) :
    (mData.set ix slot').map (plainObj (Function.update tasks i task)) =
      (mData.map (plainObj tasks)).set ix (plainObj (Function.update tasks i task) slot') := by
  rw [List.map_set]
  refine List.ext_getElem? fun ix' => ?_
  rcases eq_or_ne ix ix' with rfl | hne
  · simp [List.getElem?_set_self']
  · rw [List.getElem?_set_ne hne, List.getElem?_set_ne hne, List.getElem?_map, List.getElem?_map]
    cases hslot : mData[ix']? with
    | none => rfl
    | some slot =>
      refine congrArg some ?_
      cases hwriter : slot.mutex.writer with
      | none => rw [plainObj_of_none slot hwriter, plainObj_of_none slot hwriter]
      | some j =>
        rw [plainObj_of_some slot hwriter, plainObj_of_some slot hwriter]
        rcases eq_or_ne j i with rfl | hji
        · have hwrites := ((h.one ix' slot hslot).writer j).mp hwriter
          rw [htask] at hwrites
          exact absurd (hbefore ix' (Task.pointer_of_writes hwrites)).symm hne
        · rw [Function.update_of_ne hji]

omit [DecidableEq ι] in
/-- The other threads when a thread does something to an element: it does not change the object, or has it for
itself. -/
private theorem others_set (hslot : mData[ix]? = some slot)
    (hobj : slot'.obj = slot.obj ∨ before.writes = some ix) (j : ι)
    (hne : j ≠ i) : (tasks j).plain (mData.set ix slot') = (tasks j).plain mData := by
  refine Task.plain_congr (fun _ => List.length_set) fun ix' hix' => ?_
  rcases eq_or_ne ix ix' with rfl | hix
  · rw [List.getElem?_set_self (List.getElem?_eq_some_iff.mp hslot).1, hslot]
    rcases hobj with hobj | hwrites
    · exact congrArg some hobj
    · rw [← htask] at hwrites
      obtain ⟨hreads, honly⟩ := (h.one ix slot hslot).alone hwrites
      rcases hix' with hj | hj
      · exact absurd hj (hreads j)
      · exact absurd (honly j hj) hne
  · rw [List.getElem?_set_ne hix]

omit [DecidableEq ι] in
/-- The other threads when a thread puts an element into the container, which it has for itself. -/
private theorem others_append (hwrites : before.WritesAll) (j : ι) :
    (tasks j).plain (mData ++ [slot]) = (tasks j).plain mData := by
  rw [← htask] at hwrites
  refine Task.plain_congr (fun hreads => absurd hreads ((h.all.alone hwrites).1 j)) fun ix hix => ?_
  have hlt : ix < mData.length := h.pointer j ix (hix.elim Task.pointer_of_reads Task.pointer_of_writes)
  rw [List.getElem?_append_left hlt]

omit h htask in
private theorem plain_update (task : Task TObj TRet)
    (hothers : ∀ j, j ≠ i → (tasks j).plain mData' = (tasks j).plain mData) :
    (plain mData' (Function.update tasks i task)).tasks =
      Function.update (plain mData tasks).tasks i (task.plain mData') := by
  funext j
  rcases eq_or_ne j i with rfl | hne
  · rw [Function.update_self]
    exact congrArg (Task.plain mData') (Function.update_self ..)
  · rw [Function.update_of_ne hne]
    exact (congrArg (Task.plain mData') (Function.update_of_ne hne ..)).trans (hothers j hne)

omit h in
/-- A step that nobody sees when functions run at once. -/
private theorem plain_eq (hothers : ∀ j, j ≠ i → (tasks j).plain mData' = (tasks j).plain mData)
    (hobjs : mData'.map (plainObj (Function.update tasks i task)) = mData.map (plainObj tasks))
    (hplain : task.plain mData' = before.plain mData) :
    plain mData' (Function.update tasks i task) = plain mData tasks := by
  have htasks := plain_update task hothers
  have hself : Function.update (plain mData tasks).tasks i ((tasks i).plain mData) = (plain mData tasks).tasks :=
    Function.update_eq_self i _
  rw [hplain, ← htask, hself] at htasks
  rw [plain, plain, PlainVector.mk.injEq]
  exact ⟨hobjs, htasks⟩

/-- The container without locks when a thread is somewhere else. -/
private theorem plain_task (hwrites : before.writes = none) : plain mData (Function.update tasks i task) =
    ⟨(plain mData tasks).objs, Function.update (plain mData tasks).tasks i (task.plain mData)⟩ := by
  have hobjs : mData.map (plainObj (Function.update tasks i task)) = mData.map (plainObj tasks) :=
    h.objs_keep htask fun ix _ heq => by rw [hwrites] at heq; cases heq
  have htasks := plain_update task fun (j : ι) (_ : j ≠ i) => (rfl : (tasks j).plain mData = (tasks j).plain mData)
  rw [← htasks]
  exact congrArg (fun objs => PlainVector.mk objs _) hobjs

omit h in
/-- A step that is one of the container without locks. -/
private theorem plain_stepped {objs : List TObj} {after : PlainTask TObj TRet}
    (hothers : ∀ j, j ≠ i → (tasks j).plain mData' = (tasks j).plain mData)
    (hobjs : mData'.map (plainObj (Function.update tasks i task)) = objs) (hplain : task.plain mData' = after)
    (hstep : (before.plain mData).step (mData.map (plainObj tasks)) = (after, objs)) :
    (plain mData tasks).Stepped i (plain mData' (Function.update tasks i task)) := by
  have hafter : plain mData' (Function.update tasks i task) =
      ⟨objs, Function.update (plain mData tasks).tasks i after⟩ := by
    have htasks := plain_update task hothers
    rw [hplain] at htasks
    rw [← hobjs, ← htasks]
    rfl
  rw [hafter]
  refine .goesOn ?_
  rw [← hstep, ← htask]
  rfl

omit h htask in
private theorem set_of_getElem? {objs : List TObj} {obj : TObj} (hget : objs[ix]? = some obj) :
    objs.set ix obj = objs := by
  obtain ⟨hlt, rfl⟩ := List.getElem?_eq_some_iff.mp hget
  exact List.set_getElem_self hlt

omit h htask [DecidableEq ι] in
/-- The object of an element that nobody has for himself is what it is without locks. -/
private theorem getElem?_objs_of_none (hslot : mData[ix]? = some slot) (hfree : slot.mutex.writer = none) :
    (mData.map (plainObj tasks))[ix]? = some slot.obj := by
  rw [List.getElem?_map, hslot, Option.map_some, plainObj_of_none slot hfree]

omit [DecidableEq ι] in
/-- A thread that changes an object has the mutex of its element. -/
private theorem writer_of_writes (hslot : mData[ix]? = some slot) (hwrites : before.writes = some ix) :
    slot.mutex.writer = some i := by
  rw [← htask] at hwrites
  exact ((h.one ix slot hslot).writer i).mpr hwrites

/-- The objects when a thread leaves of its element what it was about to leave: an access, or the end of a
function. -/
private theorem objs_set_of_leaves (hslot : mData[ix]? = some slot)
    (hpointer : ∀ ix', before.pointer = some ix' → ix' = ix) (hwrites : before.writes = some ix)
    (hleaves : plainObj (Function.update tasks i task) slot' = before.leaves slot.obj) :
    (mData.set ix slot').map (plainObj (Function.update tasks i task)) = mData.map (plainObj tasks) := by
  have hobj : (mData.map (plainObj tasks))[ix]? = some (before.leaves slot.obj) := by
    rw [List.getElem?_map, hslot, Option.map_some,
      plainObj_of_some slot (h.writer_of_writes htask hslot hwrites), htask]
  rw [h.objs_set htask hpointer, hleaves, set_of_getElem? hobj]

omit htask in
/-- Each step is one of the container without locks, or nobody sees it there. -/
private theorem plain_act (hact : Acts i mutexAll mData (tasks i) mutexAll' mData' task) :
    plain mData' (Function.update tasks i task) = plain mData tasks ∧ (tasks i).seen task = none ∨
      (plain mData tasks).Stepped i (plain mData' (Function.update tasks i task)) ∧
        ((tasks i).plain mData).seen (task.plain mData') = (tasks i).seen task := by
  generalize htask : tasks i = before at hact ⊢
  have hsame (j : ι) (_ : j ≠ i) : (tasks j).plain mData = (tasks j).plain mData := rfl
  have hat (ix ix' : ℕ) (heq : some ix = some ix') : ix' = ix := (Option.some.inj heq).symm
  cases hact with
  | call hbegins =>
    rw [h.plain_task htask rfl]
    refine .inr ⟨.call (congrArg (Task.plain mData) htask) ?_, ?_⟩ <;> cases task with
    | pushBack | runOn | runOnMatching => trivial
    | _ => cases hbegins
  | returned result =>
    rw [h.plain_task htask rfl]
    exact .inr ⟨.returned (congrArg (Task.plain mData) htask), rfl⟩
  | lockToPush hfree => exact .inl ⟨plain_eq htask hsame (h.objs_keep htask nofun) rfl, rfl⟩
  | @append obj =>
    refine .inr ⟨plain_stepped htask (fun j _ => h.others_append htask trivial j) ?_ rfl rfl, rfl⟩
    rw [List.map_append, h.objs_keep htask nofun]
    rfl
  | unlockPushed => exact .inl ⟨plain_eq htask hsame (h.objs_keep htask nofun) rfl, rfl⟩
  | lockToFind hshare => exact .inl ⟨plain_eq htask hsame (h.objs_keep htask nofun) rfl, rfl⟩
  | lookup hix =>
    refine .inr ⟨plain_stepped htask hsame (h.objs_keep htask nofun) rfl ?_, rfl⟩
    rw [Task.plain, PlainTask.step, List.length_map, if_pos hix]
    rfl
  | atThrows hix =>
    refine .inr ⟨plain_stepped htask hsame (h.objs_keep htask nofun) rfl ?_, rfl⟩
    rw [Task.plain, PlainTask.step, List.length_map, if_neg (Nat.not_lt.mpr hix)]
    rfl
  | unlockFound => exact .inl ⟨plain_eq htask hsame (h.objs_keep htask nofun) rfl, rfl⟩
  | @lockOne ix funOn slot hslot hfree =>
    refine .inr ⟨plain_stepped htask (h.others_set htask hslot (.inl rfl)) (h.objs_set htask (hat _)) rfl ?_, rfl⟩
    rw [Task.plain, Task.plain, PlainTask.step, getElem?_objs_of_none hslot hfree.1, Task.onObj_set hslot,
      plainObj_of_some ⟨slot.mutex.lock i, slot.obj⟩ rfl, Function.update_self]
    rfl
  | @accessOne ix change next slot hslot =>
    have hmine : slot.mutex.writer = some i := h.writer_of_writes htask hslot rfl
    refine .inl ⟨plain_eq htask (h.others_set htask hslot (.inr rfl)) (h.objs_set_of_leaves htask hslot (hat _) rfl ?_) ?_, rfl⟩
    · rw [plainObj_of_some ⟨slot.mutex, change slot.obj⟩ hmine, Function.update_self]
      rfl
    · rw [Task.plain, Task.plain, Task.onObj_set hslot, Task.onObj_of_getElem? hslot]
      rfl
  | @unlockOne ix ret slot hslot =>
    refine .inl ⟨plain_eq htask (h.others_set htask hslot (.inl rfl)) (h.objs_set_of_leaves htask hslot (hat _) rfl rfl) ?_, rfl⟩
    rw [Task.plain, Task.plain, Task.onObj_of_getElem? hslot]
    rfl
  | lockToMatch hshare =>
    refine .inr ⟨plain_stepped htask hsame (h.objs_keep htask nofun) rfl ?_, rfl⟩
    rw [Task.plain, PlainTask.step, List.length_map]
    rfl
  | @lockToTest search loop slot hslot hshare =>
    have hlt : loop.ix < mData.length := (List.getElem?_eq_some_iff.mp hslot).1
    have hobj : (mData.map (plainObj tasks))[loop.ix]? = some slot.obj := getElem?_objs_of_none hslot hshare
    refine .inr ⟨plain_stepped htask (h.others_set htask hslot (.inl rfl)) (h.objs_set htask nofun) rfl ?_, rfl⟩
    rw [Task.plain, Task.plain, PlainTask.step, if_pos hlt, hobj, Task.onObj_set hslot, List.length_set,
      plainObj_of_none ⟨slot.mutex.lockShared i, slot.obj⟩ hshare, set_of_getElem? hobj]
  | @readTest search loop next slot hslot =>
    refine .inl ⟨plain_eq htask hsame (h.objs_keep htask nofun) ?_, rfl⟩
    rw [Task.plain, Task.plain, Task.onObj_of_getElem? hslot, Task.onObj_of_getElem? hslot]
    rfl
  | @unlockTested search loop isMatch slot hslot =>
    have hreader : slot.mutex.writer = none := by
      refine (h.one loop.ix slot hslot).exclusive.resolve_right fun hempty => ?_
      have hmem := ((h.one loop.ix slot hslot).readers i).mpr (by rw [htask]; rfl)
      rw [hempty] at hmem
      exact Finset.notMem_empty i hmem
    refine .inl ⟨plain_eq htask (h.others_set htask hslot (.inl rfl)) ?_ ?_, rfl⟩
    · rw [h.objs_set htask (hat _), plainObj_of_none ⟨slot.mutex.unlockShared i, slot.obj⟩ hreader,
        set_of_getElem? (getElem?_objs_of_none hslot hreader)]
    · rw [Task.plain, Task.onObj_of_getElem? hslot]
      cases isMatch with
      | true => exact congrArg _ List.length_set
      | false => exact congrArg _ List.length_set
  | @lockToRun search loop slot hslot hfree =>
    refine .inr ⟨plain_stepped htask (h.others_set htask hslot (.inl rfl)) (h.objs_set htask (hat _)) rfl ?_, rfl⟩
    have hobj : (mData.map (plainObj tasks))[loop.ix]? = some slot.obj := getElem?_objs_of_none hslot hfree.1
    rw [Task.plain, Task.plain, PlainTask.step, hobj, Task.onObj_set hslot, List.length_set,
      plainObj_of_some ⟨slot.mutex.lock i, slot.obj⟩ rfl, Function.update_self, Task.leaves]
    dsimp only
    split
    · rfl
    · rw [set_of_getElem? hobj]
  | @readAgain search loop next slot hslot =>
    refine .inl ⟨plain_eq htask hsame (h.objs_keep htask fun ix slot' heq hslot' => ?_) ?_, rfl⟩
    · obtain rfl := Option.some.inj heq
      obtain rfl := Option.some.inj (hslot.symm.trans hslot')
      rfl
    · rw [Task.plain, Task.plain, Task.onObj_of_getElem? hslot, Task.onObj_of_getElem? hslot]
      rfl
  | @unlockNotAgain search loop slot hslot =>
    refine .inl ⟨plain_eq htask (h.others_set htask hslot (.inl rfl)) (h.objs_set_of_leaves htask hslot (hat _) rfl rfl) ?_, rfl⟩
    rw [Task.plain, Task.plain, Task.onObj_of_getElem? hslot, List.length_set]
    rfl
  | runAgain => exact .inl ⟨plain_eq htask hsame (h.objs_keep htask fun _ _ _ _ => rfl) rfl, rfl⟩
  | @access search loop change next slot hslot =>
    have hmine : slot.mutex.writer = some i := h.writer_of_writes htask hslot rfl
    refine .inl ⟨plain_eq htask (h.others_set htask hslot (.inr rfl)) (h.objs_set_of_leaves htask hslot (hat _) rfl ?_) ?_, rfl⟩
    · rw [plainObj_of_some ⟨slot.mutex, change slot.obj⟩ hmine, Function.update_self]
      rfl
    · rw [Task.plain, Task.plain, Task.onObj_set hslot, Task.onObj_of_getElem? hslot, List.length_set]
      rfl
  | @unlockRun search loop ret slot hslot =>
    refine .inl ⟨plain_eq htask (h.others_set htask hslot (.inl rfl)) (h.objs_set_of_leaves htask hslot (hat _) rfl rfl) ?_, rfl⟩
    rw [Task.plain_afterRun, Task.plain, Task.onObj_of_getElem? hslot, List.length_set]
    rfl
  | @endLoop search loop hix =>
    refine .inr ⟨plain_stepped htask hsame (h.objs_keep htask nofun) rfl ?_, rfl⟩
    rw [Task.plain, PlainTask.step, if_neg (Nat.not_lt.mpr hix)]
    rfl
  | leave result => exact .inl ⟨plain_eq htask hsame (h.objs_keep htask nofun) rfl, rfl⟩

end Sound

/-! ### Whole runs -/

section Run

variable {s : ThreadedVector ι TObj TRet}

private theorem sound_of_run (hrun : Relation.ReflTransGen (fun s s' => ∃ i, Stepped s i s') start s) :
    Sound s.mutexAll s.mData s.tasks := by
  induction hrun with
  | refl => exact sound_start
  | tail _ hstep ih =>
    obtain ⟨i, mutexAll, mData, task, hact, rfl⟩ := hstep
    exact ih.act hact

/-- Whatever the threads do in turn, the container without locks has a run of which the callers see the same:
the same calls of the same threads, with the same results, in the same order. It ends with the container
without its locks (`plain`), in which each function that has begun to change an object has run. Objects that
nobody has for himself, and results, are the same in both. -/
theorem plain_of_run {history : List (ι × Seen TObj TRet)}
    (hrun : Observed (fun i s s' => Stepped s i s') seen start history s) :
    Observed (fun i v v' => PlainVector.Stepped v i v') PlainVector.seen ⟨[], fun _ => .idle⟩ history
        (plain s.mData s.tasks) ∧
      (plain s.mData s.tasks).objs.length = s.mData.length ∧
      (∀ (ix : ℕ) (slot : WithMutex ι TObj), s.mData[ix]? = some slot → slot.mutex.writer = none →
        (plain s.mData s.tasks).objs[ix]? = some slot.obj) ∧
      ∀ i result, s.tasks i = .finished result → (plain s.mData s.tasks).tasks i = .finished result := by
  refine ⟨?_, List.length_map _, fun ix slot hslot hfree => ?_, fun i result hresult => ?_⟩
  · refine hrun.simulate (fun s => plain s.mData s.tasks) fun i s₁ s₂ hbefore hstep => ?_
    obtain ⟨mutexAll, mData, task, hact, rfl⟩ := hstep
    have htask : Function.update s₁.tasks i task i = task := Function.update_self ..
    have hseen : seen i s₁ ⟨mutexAll, mData, Function.update s₁.tasks i task⟩ = (s₁.tasks i).seen task :=
      congrArg (s₁.tasks i).seen htask
    rw [hseen]
    refine ((sound_of_run hbefore).plain_act hact).imp_right fun ⟨hplain, hsame⟩ => ⟨hplain, ?_⟩
    exact (congrArg (fun t => ((s₁.tasks i).plain s₁.mData).seen (Task.plain mData t)) htask).trans hsame
  · exact Sound.getElem?_objs_of_none hslot hfree
  · exact congrArg (Task.plain s.mData) hresult

/-- A thread in a call can go on, and not as a reader where a writer waits. For a reader behind a writer
nothing is promised here, as the mutex may let the writer go first. -/
def CanGoOn (s : ThreadedVector ι TObj TRet) (j : ι) : Prop :=
  ¬ (s.tasks j).Quiet ∧ (∃ s', s.Stepped j s') ∧
    ∀ lock, (s.tasks j).waitsToRead = some lock → ∀ k, (s.tasks k).waitsToWrite ≠ some lock

/-- What a thread does not wait for as a reader it can go on with. -/
theorem canGoOn_of_acts {j : ι} {before task : Task TObj TRet} {mutexAll : SharedMutex ι}
    {mData : List (WithMutex ι TObj)} (htask : s.tasks j = before) (hquiet : ¬ before.Quiet)
    (hwaits : ∀ lock, before.waitsToRead = some lock → ∀ k, (s.tasks k).waitsToWrite ≠ some lock)
    (hact : Acts j s.mutexAll s.mData before mutexAll mData task) : s.CanGoOn j := by
  subst htask
  exact ⟨hquiet, ⟨_, mutexAll, mData, task, hact, rfl⟩, hwaits⟩

variable (h : Sound s.mutexAll s.mData s.tasks)

include h

/-- A thread that has an element can go on. -/
private theorem canGoOn_of_element {j : ι} (hone : (s.tasks j).reads ≠ none ∨ (s.tasks j).writes ≠ none) :
    s.CanGoOn j := by
  have hget : ∀ ix, (s.tasks j).pointer = some ix → ∃ slot, s.mData[ix]? = some slot := fun ix hix =>
    ⟨_, List.getElem?_eq_getElem (h.pointer j ix hix)⟩
  generalize htask : s.tasks j = before at hone hget
  cases before with
  | runningOne ix rest =>
    obtain ⟨slot, hslot⟩ := hget ix rfl
    cases rest with
    | done ret => exact canGoOn_of_acts htask id nofun (.unlockOne hslot)
    | access change next => exact canGoOn_of_acts htask id nofun (.accessOne hslot)
  | testing search loop rest =>
    obtain ⟨slot, hslot⟩ := hget loop.ix rfl
    cases rest with
    | done isMatch => exact canGoOn_of_acts htask id nofun (.unlockTested hslot)
    | read next => exact canGoOn_of_acts htask id nofun (.readTest hslot)
  | testingAgain search loop rest =>
    obtain ⟨slot, hslot⟩ := hget loop.ix rfl
    cases rest with
    | done isMatch =>
      cases isMatch with
      | true => exact canGoOn_of_acts htask id nofun .runAgain
      | false => exact canGoOn_of_acts htask id nofun (.unlockNotAgain hslot)
    | read next => exact canGoOn_of_acts htask id nofun (.readAgain hslot)
  | running search loop rest =>
    obtain ⟨slot, hslot⟩ := hget loop.ix rfl
    cases rest with
    | done ret => exact canGoOn_of_acts htask id nofun (.unlockRun hslot)
    | access change next => exact canGoOn_of_acts htask id nofun (.access hslot)
  | _ => exact absurd hone (by rintro (hnone | hnone) <;> exact hnone rfl)

/-- A thread that waits for an element as a writer can go on when nobody has one. -/
private theorem canGoOn_of_waits {j : ι} {ix : ℕ}
    (hnone : ∀ k, (s.tasks k).reads = none ∧ (s.tasks k).writes = none)
    (hwaits : (s.tasks j).waitsToWrite = some (some ix)) : s.CanGoOn j := by
  have hslot : ∀ ix, (s.tasks j).pointer = some ix → ∃ slot, s.mData[ix]? = some slot ∧ slot.mutex.Free := by
    intro ix hix
    have hget := List.getElem?_eq_getElem (h.pointer j ix hix)
    exact ⟨_, hget, (h.one ix _ hget).free (fun k hk => by rw [(hnone k).1] at hk; cases hk)
      fun k hk => by rw [(hnone k).2] at hk; cases hk⟩
  generalize htask : s.tasks j = before at hwaits hslot
  cases before with
  | lockingOne ix funOn =>
    obtain ⟨slot, hslot, hfree⟩ := hslot ix rfl
    exact canGoOn_of_acts htask id nofun (.lockOne hslot hfree)
  | lockingToRun search loop =>
    obtain ⟨slot, hslot, hfree⟩ := hslot loop.ix rfl
    exact canGoOn_of_acts htask id nofun (.lockToRun hslot hfree)
  | _ => cases hwaits

/-- A thread that has the container can go on when nobody has an element or waits for one as a writer. -/
private theorem canGoOn_of_all {j : ι} (hnone : ∀ k, (s.tasks k).reads = none ∧ (s.tasks k).writes = none)
    (hwaits : ∀ k ix, (s.tasks k).waitsToWrite ≠ some (some ix))
    (hall : (s.tasks j).ReadsAll ∨ (s.tasks j).WritesAll) : s.CanGoOn j := by
  have honly := hnone j
  have hwaitsj := hwaits j
  generalize htask : s.tasks j = before at honly hwaitsj hall
  cases before with
  | appending obj => exact canGoOn_of_acts htask id nofun .append
  | appended => exact canGoOn_of_acts htask id nofun .unlockPushed
  | atIndex ix funOn =>
    rcases lt_or_ge ix s.mData.length with hlt | hge
    · exact canGoOn_of_acts htask id nofun (.lookup hlt)
    · exact canGoOn_of_acts htask id nofun (.atThrows hge)
  | found ix funOn => exact canGoOn_of_acts htask id nofun .unlockFound
  | atRound search loop =>
    have hothers : ∀ lock, (Task.atRound search loop : Task TObj TRet).waitsToRead = some lock →
        ∀ k, (s.tasks k).waitsToWrite ≠ some lock := by
      rintro lock ⟨⟩ k
      exact hwaits k loop.ix
    rcases lt_or_ge loop.ix s.mData.length with hlt | hge
    · have hget := List.getElem?_eq_getElem hlt
      have hshare := (h.one loop.ix _ hget).free (fun k hk => by rw [(hnone k).1] at hk; cases hk)
        fun k hk => by rw [(hnone k).2] at hk; cases hk
      exact canGoOn_of_acts htask id hothers (.lockToTest hget hshare.1)
    · exact canGoOn_of_acts htask id hothers (.endLoop hge)
  | lockingToRun search loop => exact absurd rfl (hwaitsj loop.ix)
  | leaving result => exact canGoOn_of_acts htask id nofun (.leave result)
  | testing => cases honly.1
  | testingAgain | running => cases honly.2
  | _ => exact absurd hall (by rintro (hall | hall) <;> exact hall)

omit h in
/-- While some thread is in a call, one that is can go on. It need not be let in as a reader where a writer
waits. So the threads never all come to a stand. -/
theorem goesOn_of_run (hrun : Relation.ReflTransGen (fun s s' => ∃ i, Stepped s i s') start s) {i : ι}
    (hi : ¬ (s.tasks i).Quiet) :
    ∃ j s', ¬ (s.tasks j).Quiet ∧ s.Stepped j s' ∧
      ∀ lock, (s.tasks j).waitsToRead = some lock → ∀ k, (s.tasks k).waitsToWrite ≠ some lock := by
  have h := sound_of_run hrun
  suffices hgoes : ∃ j, s.CanGoOn j by
    obtain ⟨j, hquiet, ⟨s', hstep⟩, hwaits⟩ := hgoes
    exact ⟨j, s', hquiet, hstep, hwaits⟩
  by_cases hone : ∃ j, (s.tasks j).reads ≠ none ∨ (s.tasks j).writes ≠ none
  · obtain ⟨j, hj⟩ := hone
    exact ⟨j, canGoOn_of_element h hj⟩
  have hnone : ∀ k, (s.tasks k).reads = none ∧ (s.tasks k).writes = none := by simpa using hone
  by_cases hwaits : ∃ j ix, (s.tasks j).waitsToWrite = some (some ix)
  · obtain ⟨j, ix, hj⟩ := hwaits
    exact ⟨j, canGoOn_of_waits h hnone hj⟩
  have hnowait : ∀ k ix, (s.tasks k).waitsToWrite ≠ some (some ix) := by simpa using hwaits
  by_cases hall : ∃ j, (s.tasks j).ReadsAll ∨ (s.tasks j).WritesAll
  · obtain ⟨j, hj⟩ := hall
    exact ⟨j, canGoOn_of_all h hnone hnowait hj⟩
  -- Nobody has the container, so a writer that waits for it can have it, and else a reader.
  have hfree : s.mutexAll.Free := h.all.free (fun k hk => hall ⟨k, .inl hk⟩) fun k hk => hall ⟨k, .inr hk⟩
  by_cases hpush : ∃ j obj, s.tasks j = .pushBack obj
  · obtain ⟨j, obj, hj⟩ := hpush
    exact ⟨j, canGoOn_of_acts hj id nofun (.lockToPush hfree)⟩
  have hnopush : ∀ lock, (some none : Option (Option ℕ)) = some lock →
      ∀ k, (s.tasks k).waitsToWrite ≠ some lock := by
    rintro lock ⟨⟩ k hk
    generalize htask : s.tasks k = task at hk
    cases task with
    | pushBack obj => exact hpush ⟨k, obj, htask⟩
    | _ => cases hk
  refine ⟨i, ?_⟩
  have honly := hnone i
  have hwaitsi := hnowait i
  have halli : ¬ ((s.tasks i).ReadsAll ∨ (s.tasks i).WritesAll) := fun hi => hall ⟨i, hi⟩
  generalize htask : s.tasks i = task at hi honly hwaitsi halli
  cases task with
  | runOn ix funOn => exact canGoOn_of_acts htask id hnopush (.lockToFind hfree.1)
  | runOnMatching search => exact canGoOn_of_acts htask id hnopush (.lockToMatch hfree.1)
  | pushBack obj => exact absurd ⟨i, obj, htask⟩ hpush
  | lockingOne ix funOn => exact absurd rfl (hwaitsi ix)
  | lockingToRun search loop => exact absurd rfl (hwaitsi loop.ix)
  | idle | finished => exact absurd trivial hi
  | testing => cases honly.1
  | runningOne | testingAgain | running => cases honly.2
  | appending | appended => exact absurd (.inr trivial) halli
  | _ => exact absurd (.inl trivial) halli

end Run

/-- A search for an even number, to which one is added. -/
def sampleSearch : Search ℕ ℕ where
  funTest := .read fun obj => .done (obj % 2 = 0)
  funRun := .access (fun obj => obj + 1) fun obj => .done obj
  limitMatched := 1

/-- One thread waits with its search while the other one puts an element into the container. -/
def samplePushed : ThreadedVector (Fin 2) ℕ ℕ where
  mutexAll := .unlocked
  mData := [⟨.unlocked, 4⟩]
  tasks
    | 0 => .finished (.ok none)
    | 1 => .runOnMatching sampleSearch

private theorem run_samplePushed :
    Relation.ReflTransGen (fun s s' : ThreadedVector (Fin 2) ℕ ℕ => ∃ i, Stepped s i s') start samplePushed := by
  have hbegins : (Task.runOnMatching sampleSearch : Task ℕ ℕ).Begins := trivial
  have hpush : (Task.pushBack 4 : Task ℕ ℕ).Begins := trivial
  have hrun := Relation.ReflTransGen.refl (r := fun s s' : ThreadedVector (Fin 2) ℕ ℕ => ∃ i, Stepped s i s')
    (a := start) |>.tail ⟨1, _, _, _, .call hbegins, rfl⟩ |>.tail ⟨0, _, _, _, .call hpush, rfl⟩
    |>.tail ⟨0, _, _, _, .lockToPush ⟨rfl, rfl⟩, rfl⟩ |>.tail ⟨0, _, _, _, .append, rfl⟩
    |>.tail ⟨0, _, _, _, .unlockPushed, rfl⟩
  convert hrun using 1
  refine congrArg (ThreadedVector.mk _ _) (funext fun i => ?_)
  match i with
  | 0 => rfl
  | 1 => rfl

private theorem observed_act {history : List (Fin 2 × Seen ℕ ℕ)} {s : ThreadedVector (Fin 2) ℕ ℕ} (i : Fin 2)
    {mutexAll : SharedMutex (Fin 2)} {mData : List (WithMutex (Fin 2) ℕ)} {task : Task ℕ ℕ}
    (hrun : Observed (fun i s s' => Stepped s i s') seen start history s)
    (hact : Acts i s.mutexAll s.mData (s.tasks i) mutexAll mData task) :
    Observed (fun i s s' => Stepped s i s') seen start
      (history ++ (((s.tasks i).seen task).map (Prod.mk i)).toList)
      ⟨mutexAll, mData, Function.update s.tasks i task⟩ := by
  have hself : seen i s ⟨mutexAll, mData, Function.update s.tasks i task⟩ = (s.tasks i).seen task :=
    congrArg (s.tasks i).seen (Function.update_self ..)
  rw [← hself]
  exact hrun.step ⟨mutexAll, mData, task, hact, rfl⟩

/-- Then that thread does its search. -/
private theorem observed_sampleSearch : ∃ s : ThreadedVector (Fin 2) ℕ ℕ,
    Observed (fun i s s' => Stepped s i s') seen start
        [(1, .runOnMatching sampleSearch), (0, .pushBack 4), (0, .returned (.ok none))] s ∧
      s.mData = [⟨.unlocked, 5⟩] ∧ s.tasks 1 = .finished (.ok (some 4)) := by
  have hbegins : (Task.runOnMatching sampleSearch : Task ℕ ℕ).Begins := trivial
  have hpush : (Task.pushBack 4 : Task ℕ ℕ).Begins := trivial
  have hcalls := observed_act 0 (observed_act 1 .start (.call hbegins)) (.call hpush)
  have hpushed := observed_act 0 (observed_act 0 (observed_act 0 (observed_act 0 hcalls
    (.lockToPush ⟨rfl, rfl⟩)) .append) .unlockPushed) (.returned (.ok none))
  have htested := observed_act 1 (observed_act 1 (observed_act 1 (observed_act 1 hpushed
    (.lockToMatch rfl)) (.lockToTest rfl rfl)) (.readTest rfl)) (.unlockTested rfl)
  have hran := observed_act 1 (observed_act 1 (observed_act 1 (observed_act 1 htested
    (.lockToRun rfl ⟨rfl, rfl⟩)) (.readAgain rfl)) .runAgain) (.access rfl)
  have hleft := observed_act 1 (observed_act 1 hran (.unlockRun rfl)) (.leave (.ok (some 4)))
  exact ⟨_, hleft, rfl, rfl⟩

/-- The search comes after the element without locks as well, and changes it. -/
theorem plain_of_run_example : ∃ v : PlainVector (Fin 2) ℕ ℕ,
    Observed (fun i v v' => PlainVector.Stepped v i v') PlainVector.seen ⟨[], fun _ => .idle⟩
        [(1, .runOnMatching sampleSearch), (0, .pushBack 4), (0, .returned (.ok none))] v ∧
      v.objs[0]? = some 5 ∧ v.tasks 1 = .finished (.ok (some 4)) := by
  obtain ⟨s, hrun, hdata, htask⟩ := observed_sampleSearch
  obtain ⟨hplain, -, hobjs, htasks⟩ := plain_of_run hrun
  exact ⟨_, hplain, hobjs 0 ⟨.unlocked, 5⟩ (by rw [hdata]; rfl) rfl, htasks 1 _ htask⟩

/-- The search can go on. -/
theorem goesOn_of_run_example : ∃ s', samplePushed.Stepped 1 s' := by
  have hcalls : ¬ (samplePushed.tasks 1).Quiet := id
  obtain ⟨j, s', hquiet, hstep, -⟩ := goesOn_of_run run_samplePushed hcalls
  match j with
  | 0 => exact absurd trivial hquiet
  | 1 => exact ⟨s', hstep⟩

end ThreadedVector

end Stdplus

end Galaxy42
