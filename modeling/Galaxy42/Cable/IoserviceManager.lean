import Mathlib.Order.Interval.Finset.Nat
import Galaxy42.Exceptions
import Galaxy42.Lib.Steps

/-!
# The pool of io_services

`c_asioservice_manager` has an array of io_services, and runs the first `m_size` of them, each with an idle
work and a thread of its own. The number grows with `resize_to_at_least` up to the size of the array, and
`get_next_ioservice` goes around among those that are there.

The size, the idle works and the threads stay together in all runs, and as long as the pool does not grow,
as many calls of `get_next_ioservice` as there are services return each once (`poolKept_of_new`). The flag
`m_stop` is read before the pool grows, but nothing sets it, so that a pool can grow after it was stopped
(`staysStopped_iff`).

A run is any list of calls, and a call that throws is followed by the next one, as a caller that catches
would go on. One lemma for each method says what it returns and what it leaves (`resizeToAtLeast_apply`,
`getNextIoservice_apply`, `stopAllThreadsafe_apply`); they are stated for managers in the `Invariant`, which
all of them keep. The services that a run returns are then known from the calls alone (`services_eq`): those
of the methods that return one go around, from the service behind the last one on.

The contract class of the sources (`guard_inv`) checks the same conditions when a method is entered and when
it is left. The second check stands in a destructor, so that its exception ends the process, and it has to be
shown that it is never thrown.

Threads are created without failure here. If one is not, the invariant guard of `resize_to_at_least` ends
the process.
-/

namespace Galaxy42

open Toolkit Program

/-- `m_ioservice_max`, the size of the array and so the `capacity` -/
def ioserviceMax : ℕ := 16

/-- `c_asioservice_manager`. A service is its index in the array here. A thread runs its service until the
service is stopped. -/
structure IoserviceManager where
  /-- `m_size` -/
  size : ℕ
  /-- `m_last_ioservice` -/
  lastIoservice : ℕ
  /-- `m_ioservice_array`: of each service, whether it is stopped. -/
  ioserviceArray : Vector Bool ioserviceMax
  /-- `m_ioservice_idle_works`: of each work, the index of its service. -/
  ioserviceIdleWorks : List ℕ
  /-- `m_ioservice_threads`: of each thread, the index of the service that it runs. -/
  ioserviceThreads : List ℕ
  /-- `m_stop` -/
  stop : Bool
  deriving DecidableEq

/-- Methods of the manager, which all hold its mutex. One call comes after the other, for that reason. -/
abbrev Manager (α : Type) := Program Exn IoserviceManager α

namespace IoserviceManager

/-! ### The methods -/

/-- `Precond`, and `Postcond` as well. There are as many works and threads as services. -/
def Precond (m : IoserviceManager) : Prop :=
  m.size ≤ ioserviceMax ∧ m.size = m.ioserviceThreads.length ∧ m.size = m.ioserviceIdleWorks.length

instance (m : IoserviceManager) : Decidable m.Precond :=
  inferInstanceAs (Decidable (_ ∧ _ ∧ _))

/-- `guard_inv`. The second check is in a destructor, so that its exception ends the process. -/
def guardInv {α : Type} (p : Manager α) : Manager α := fun m =>
  if m.Precond then
    match p m with
    | .ok a m' => if m'.Precond then .ok a m' else .error .abort m'
    | .error e m' => if m'.Precond then .error e m' else .error .abort m'
  else .error (.throw (.runtimeError "Precond")) m

/-- `size` -/
def getSize : Manager ℕ := guardInv do
  let m ← get
  return m.size

/-- `capacity` -/
def getCapacity : Manager ℕ := guardInv (return ioserviceMax)

/-- `run_ioservice`. The work keeps the thread from running out of things to do. -/
def runIoservice (index : ℕ) : Manager Unit := do
  checkThat (index < ioserviceMax) .outOfRange
  modify fun m =>
    { m with
      ioserviceIdleWorks := m.ioserviceIdleWorks ++ [index]
      ioserviceThreads := m.ioserviceThreads ++ [index] }

/-- `stop_ioservice` -/
def stopIoservice (index : ℕ) : Manager Unit := guardInv do
  checkThat (index < ioserviceMax) .outOfRange
  modify fun m => { m with ioserviceArray := m.ioserviceArray.setIfInBounds index true }

/-- The members before the body of the constructor. -/
def initial (size : ℕ) : IoserviceManager where
  size := size
  lastIoservice := 0
  ioserviceArray := Vector.replicate ioserviceMax false
  ioserviceIdleWorks := []
  ioserviceThreads := []
  stop := false

/-- The body of the constructor. The guard there checks nothing. A size of zero throws, and so does one above
the capacity. -/
def construct (size : ℕ) : Manager Unit := do
  checkThat (size ≤ ioserviceMax) (.runtimeError "size_ <= m_ioservice_array.size()")
  checkThat (size ≥ 1) (.runtimeError "size_ >= 1")
  let m ← get
  (List.range m.size).forM runIoservice

/-- `resize_to_at_least`. It never makes the pool smaller. The size is counted up with each service that is
started. -/
def resizeToAtLeast (size : ℕ) : Manager Unit := guardInv do
  let m ← get
  if m.stop then return ()
  else if size ≤ m.size then return ()
  else
    let capacity ← getCapacity
    checkThat (size ≤ capacity) (.errCheckInput "size_ <= capacity()")
    (List.range' m.size (size - m.size)).forM fun i => do
      modify fun m => { m with size := i + 1 }
      runIoservice i
    let m ← get
    checkThat (m.size = size) (.runtimeError "m_size == size_")

/-- `get_next_ioservice`. The result is the index of the service. The counter is increased first, so the first
service that is returned is not the one with index zero, unless it is the only one. -/
def getNextIoservice : Manager ℕ := guardInv do
  modify fun m => { m with lastIoservice := m.lastIoservice + 1 }
  let size ← getSize
  modify fun m => { m with lastIoservice := m.lastIoservice % size }
  let m ← get
  checkThat (m.lastIoservice < ioserviceMax) (.runtimeError "m_last_ioservice < m_ioservice_array.size()")
  return m.lastIoservice

/-- `stop_all_threadsafe`. Works and threads stay in their lists, and `m_stop` stays as it is. -/
def stopAllThreadsafe : Manager Unit := guardInv do
  let m ← get
  (List.range m.size).forM stopIoservice

/-- The service is run by a thread, and was not stopped. -/
def IsRunning (m : IoserviceManager) (index : ℕ) : Prop :=
  index ∈ m.ioserviceThreads ∧ m.ioserviceArray[index]? = some false

/-- A manager that was made. The constructor has returned. -/
def IsNew (size : ℕ) (m : IoserviceManager) : Prop := construct size (initial size) = .ok () m

/-! ### Sequences of calls -/

/-- The methods. -/
inductive Op where
  | resizeToAtLeast (size : ℕ)
  | getNextIoservice
  | stopAllThreadsafe
  deriving DecidableEq

/-- One call, with the service that it returns if it does. -/
def Op.run : Op → Manager (Option ℕ)
  | resizeToAtLeast size => do
    IoserviceManager.resizeToAtLeast size
    return none
  | getNextIoservice => do
    let index ← IoserviceManager.getNextIoservice
    return some index
  | stopAllThreadsafe => do
    IoserviceManager.stopAllThreadsafe
    return none

/-- The manager after some calls. Exceptions are caught by the callers. A call that throws is followed by the
next one. -/
def after (m : IoserviceManager) : List Op → IoserviceManager
  | [] => m
  | op :: ops => after (finalState op.run m) ops

/-- The services that some calls return, in their order. A call that throws has none. -/
def services (m : IoserviceManager) : List Op → List ℕ
  | [] => []
  | op :: ops => ((returned op.run m).join).toList ++ services (finalState op.run m) ops

/-! ### What the methods do -/

/-- What holds of a manager after any calls. The results about the pool use nothing else of the calls that
came before. -/
structure Invariant (m : IoserviceManager) : Prop where
  size_pos : 1 ≤ m.size
  size_le : m.size ≤ ioserviceMax
  idleWorks : m.ioserviceIdleWorks = List.range m.size
  threads : m.ioserviceThreads = List.range m.size
  last_lt : m.lastIoservice < m.size
  stop : m.stop = false
  not_stopped : ∀ i, m.size ≤ i → i < ioserviceMax → m.ioserviceArray[i]? = some false

/-- The manager with more services. The works and threads are those of the first `size` services. -/
def grow (m : IoserviceManager) (size : ℕ) : IoserviceManager :=
  { m with
    size := size
    ioserviceIdleWorks := List.range size
    ioserviceThreads := List.range size }

/-- The manager with another service returned last. -/
def advance (m : IoserviceManager) : IoserviceManager :=
  { m with lastIoservice := (m.lastIoservice + 1) % m.size }

/-- The manager with the first of its services stopped. -/
def stopped (m : IoserviceManager) (count : ℕ) : IoserviceManager :=
  { m with ioserviceArray := m.ioserviceArray.mapIdx fun i b => b || decide (i < count) }

variable {m m' : IoserviceManager}

private theorem Invariant.precond (h : m.Invariant) : m.Precond := by
  refine ⟨h.size_le, ?_, ?_⟩
  · rw [h.threads, List.length_range]
  · rw [h.idleWorks, List.length_range]

private theorem guardInv_of_ok {α : Type} {p : Manager α} {a : α} (hm : m.Precond) (h : p m = .ok a m')
    (hm' : m'.Precond) : guardInv p m = .ok a m' := by
  rw [guardInv, if_pos hm, h]
  exact if_pos hm'

private theorem guardInv_of_error {α : Type} {p : Manager α} {e : Fault Exn} (hm : m.Precond)
    (h : p m = .error e m') (hm' : m'.Precond) : guardInv p m = .error e m' := by
  rw [guardInv, if_pos hm, h]
  exact if_pos hm'

private theorem getSize_apply (h : m.Precond) : getSize m = .ok m.size m :=
  guardInv_of_ok h rfl h

private theorem getCapacity_apply (h : m.Precond) : getCapacity m = .ok ioserviceMax m :=
  guardInv_of_ok h rfl h

private theorem precond_grow {size : ℕ} (h : size ≤ ioserviceMax) : (m.grow size).Precond :=
  ⟨h, List.length_range.symm, List.length_range.symm⟩

/-- A manager has all that its size says. -/
private theorem Invariant.grow_size (h : m.Invariant) : m.grow m.size = m := by
  cases m with
  | mk size last array works threads stop =>
    obtain rfl : works = List.range size := h.idleWorks
    obtain rfl : threads = List.range size := h.threads
    rfl

/-- One more service is started. -/
theorem runIoservice_apply {index : ℕ} (h : index < ioserviceMax) (m : IoserviceManager) :
    runIoservice index m = .ok ()
      { m with
        ioserviceIdleWorks := m.ioserviceIdleWorks ++ [index]
        ioserviceThreads := m.ioserviceThreads ++ [index] } := by
  have hcheck : checkThat (index < ioserviceMax) Exn.outOfRange m = .ok () m := by
    rw [checkThat_apply, if_pos h]
  exact bind_of_ok hcheck

/-- What `resize_to_at_least` does. When there are enough services already, it changes nothing; otherwise it
makes them as many as asked for, or throws when there is no room for so many. -/
theorem resizeToAtLeast_apply (h : m.Invariant) (size : ℕ) :
    resizeToAtLeast size m =
      if size ≤ m.size then .ok () m
      else if size ≤ ioserviceMax then .ok () (m.grow size)
      else .error (.throw (.errCheckInput "size_ <= capacity()")) m := by
  have hstop : ¬ m.stop = true := by simp [h.stop]
  have hcapacity := getCapacity_apply h.precond
  split_ifs with hsmall hfits
  · refine guardInv_of_ok h.precond ((bind_of_ok (get_apply m)).trans ?_) h.precond
    rw [if_neg hstop, if_pos hsmall]
    rfl
  · have hround : ∀ i, m.size ≤ i → i < m.size + (size - m.size) →
        (do modify fun m : IoserviceManager => { m with size := i + 1 }
            runIoservice i : Manager Unit) (m.grow i) = .ok () (m.grow (i + 1)) := fun i _ hlt => by
      refine (bind_of_ok rfl).trans ((runIoservice_apply (by omega) _).trans ?_)
      simp only [grow, List.range_succ]
    have hloop := forM_range'_of_ok (size - m.size) hround
    rw [h.grow_size, show m.size + (size - m.size) = size by omega] at hloop
    have hcheck : checkThat (size ≤ ioserviceMax) (Exn.errCheckInput "size_ <= capacity()") m =
        .ok () m := by
      rw [checkThat_apply, if_pos hfits]
    refine guardInv_of_ok h.precond ((bind_of_ok (get_apply m)).trans ?_) (precond_grow hfits)
    rw [if_neg hstop, if_neg hsmall, bind_of_ok hcapacity, bind_of_ok hcheck, bind_of_ok hloop,
      bind_of_ok (get_apply _), checkThat_apply]
    exact if_pos rfl
  · have hcheck : checkThat (size ≤ ioserviceMax) (Exn.errCheckInput "size_ <= capacity()") m =
        .error (.throw (.errCheckInput "size_ <= capacity()")) m := by
      rw [checkThat_apply, if_neg hfits]
    refine guardInv_of_error h.precond ((bind_of_ok (get_apply m)).trans ?_) h.precond
    rw [if_neg hstop, if_neg hsmall, bind_of_ok hcapacity, bind_of_error hcheck]

/-- What `get_next_ioservice` does. It goes on to the next service, and begins with the first one again behind
the last. -/
theorem getNextIoservice_apply (h : m.Invariant) :
    getNextIoservice m = .ok ((m.lastIoservice + 1) % m.size) m.advance := by
  have hpre := h.precond
  have hlt : m.advance.lastIoservice < m.size := Nat.mod_lt (m.lastIoservice + 1) h.size_pos
  have hsize : getSize { m with lastIoservice := m.lastIoservice + 1 } =
      .ok m.size { m with lastIoservice := m.lastIoservice + 1 } := getSize_apply hpre
  have hcheck : checkThat (m.advance.lastIoservice < ioserviceMax)
      (Exn.runtimeError "m_last_ioservice < m_ioservice_array.size()") m.advance = .ok () m.advance := by
    rw [checkThat_apply, if_pos (Nat.lt_of_lt_of_le hlt h.size_le)]
  refine guardInv_of_ok hpre ((bind_of_ok rfl).trans ((bind_of_ok hsize).trans ?_)) hpre
  exact (bind_of_ok rfl).trans ((bind_of_ok (get_apply _)).trans (bind_of_ok hcheck))

/-- One more service is stopped. -/
private theorem stopIoservice_stopped (h : m.Invariant) {index : ℕ} (hlt : index < m.size) :
    stopIoservice index (m.stopped index) = .ok () (m.stopped (index + 1)) := by
  have hcheck : checkThat (index < ioserviceMax) Exn.outOfRange (m.stopped index) =
      .ok () (m.stopped index) := by
    rw [checkThat_apply, if_pos (Nat.lt_of_lt_of_le hlt h.size_le)]
  have harray : (m.stopped index).ioserviceArray.setIfInBounds index true =
      (m.stopped (index + 1)).ioserviceArray := by
    ext i hi
    simp only [stopped, Vector.getElem_setIfInBounds, Vector.getElem_mapIdx]
    grind
  have hstopped : { m.stopped index with
      ioserviceArray := (m.stopped index).ioserviceArray.setIfInBounds index true } =
        m.stopped (index + 1) := by
    rw [harray]
    rfl
  exact guardInv_of_ok h.precond ((bind_of_ok hcheck).trans (congrArg (EStateM.Result.ok ()) hstopped))
    h.precond

private theorem stopped_zero : m.stopped 0 = m := by
  have harray : (m.ioserviceArray.mapIdx fun i b => b || decide (i < 0)) = m.ioserviceArray := by
    ext i hi
    simp
  rw [stopped, harray]

private theorem stopAllThreadsafe_apply (h : m.Invariant) :
    stopAllThreadsafe m = .ok () (m.stopped m.size) := by
  have hround : ∀ i, 0 ≤ i → i < 0 + m.size →
      stopIoservice i (m.stopped i) = .ok () (m.stopped (i + 1)) :=
    fun i _ hlt => stopIoservice_stopped h (by omega)
  have hloop := forM_range'_of_ok m.size hround
  rw [stopped_zero, Nat.zero_add, ← List.range_eq_range'] at hloop
  exact guardInv_of_ok h.precond ((bind_of_ok (get_apply m)).trans hloop) h.precond

/-- A manager that was made has the size that it was asked for. -/
theorem isNew_iff {size : ℕ} :
    IsNew size m ↔ (1 ≤ size ∧ size ≤ ioserviceMax) ∧ m = (initial size).grow size := by
  have hround : size ≤ ioserviceMax → ∀ i, 0 ≤ i → i < 0 + size →
      runIoservice i { (initial size).grow i with size := size } =
        .ok () { (initial size).grow (i + 1) with size := size } := fun hle i _ hlt => by
    refine (runIoservice_apply (by omega) _).trans ?_
    simp only [grow, List.range_succ]
  have hloop : size ≤ ioserviceMax →
      (List.range size).forM runIoservice (initial size) = .ok () ((initial size).grow size) := fun hle => by
    have hloop := forM_range'_of_ok size (hround hle)
    rw [Nat.zero_add, ← List.range_eq_range'] at hloop
    exact hloop
  rw [IsNew, construct]
  simp only [bind_eq_ok_iff, checkThat_eq_ok_iff]
  constructor
  · rintro ⟨_, _, ⟨hle, rfl⟩, _, _, ⟨hpos, rfl⟩, _, _, hget, h⟩
    cases hget
    exact ⟨⟨hpos, hle⟩, (EStateM.Result.ok.inj (h.symm.trans (hloop hle))).2⟩
  · rintro ⟨⟨hpos, hle⟩, rfl⟩
    exact ⟨(), _, ⟨hle, rfl⟩, (), _, ⟨hpos, rfl⟩, _, _, get_apply _, hloop hle⟩

/-! ### Runs -/

namespace Invariant

theorem of_isNew {size : ℕ} (h : IsNew size m) : m.Invariant := by
  obtain ⟨⟨hpos, hle⟩, rfl⟩ := isNew_iff.mp h
  exact {
    size_pos := hpos
    size_le := hle
    idleWorks := rfl
    threads := rfl
    last_lt := hpos
    stop := rfl
    not_stopped := fun i _ hlt => by simp [grow, initial, hlt] }

private theorem grow (h : m.Invariant) {size : ℕ} (hle : m.size ≤ size) (hfits : size ≤ ioserviceMax) :
    (m.grow size).Invariant where
  size_pos := h.size_pos.trans hle
  size_le := hfits
  idleWorks := rfl
  threads := rfl
  last_lt := Nat.lt_of_lt_of_le h.last_lt hle
  stop := h.stop
  not_stopped i hi := h.not_stopped i (hle.trans hi)

theorem advance (h : m.Invariant) : m.advance.Invariant where
  size_pos := h.size_pos
  size_le := h.size_le
  idleWorks := h.idleWorks
  threads := h.threads
  last_lt := Nat.mod_lt _ h.size_pos
  stop := h.stop
  not_stopped := h.not_stopped

private theorem stopped (h : m.Invariant) : (m.stopped m.size).Invariant where
  size_pos := h.size_pos
  size_le := h.size_le
  idleWorks := h.idleWorks
  threads := h.threads
  last_lt := h.last_lt
  stop := h.stop
  not_stopped i hi hlt := by
    have harray := h.not_stopped i hi hlt
    change (m.ioserviceArray.mapIdx _)[i]? = _
    rw [Vector.getElem?_mapIdx, harray, Option.map_some]
    exact congrArg some (decide_eq_false (Nat.not_lt.mpr hi))

end Invariant

/-- The manager after a call. A size that is too large throws and changes nothing. -/
def next (m : IoserviceManager) : Op → IoserviceManager
  | .resizeToAtLeast size => if m.size < size ∧ size ≤ ioserviceMax then m.grow size else m
  | .getNextIoservice => m.advance
  | .stopAllThreadsafe => m.stopped m.size

private theorem finalState_run (h : m.Invariant) (op : Op) : finalState op.run m = m.next op := by
  cases op with
  | resizeToAtLeast size =>
    have happly := resizeToAtLeast_apply h size
    rw [Op.run, finalState_bind_pure]
    split_ifs at happly with hsmall hfits
    · rw [finalState_of_ok happly, next, if_neg (by omega)]
    · rw [finalState_of_ok happly, next, if_pos ⟨by omega, hfits⟩]
    · rw [finalState_of_error happly, next, if_neg (by omega)]
  | getNextIoservice =>
    rw [Op.run, finalState_bind_pure, finalState_of_ok (getNextIoservice_apply h), next]
  | stopAllThreadsafe =>
    rw [Op.run, finalState_bind_pure, finalState_of_ok (stopAllThreadsafe_apply h), next]

/-- The services that a call returns. It is the one behind the service that was returned last, and the first
one comes behind the last one. -/
theorem returned_run (h : m.Invariant) (op : Op) :
    (returned op.run m).join =
      if op = .getNextIoservice then some ((m.lastIoservice + 1) % m.size) else none := by
  have hnone : ∀ p : Manager Unit,
      (returned (p >>= fun _ => pure none : Manager (Option ℕ)) m).join = none := fun p => by
    rw [returned, bind_apply]
    cases p m <;> rfl
  cases op with
  | resizeToAtLeast size => exact hnone _
  | getNextIoservice =>
    have hrun : Op.getNextIoservice.run m = .ok (some ((m.lastIoservice + 1) % m.size)) m.advance :=
      bind_of_ok (getNextIoservice_apply h)
    rw [returned, hrun]
    rfl
  | stopAllThreadsafe => exact hnone _

private theorem Invariant.next (h : m.Invariant) (op : Op) : (m.next op).Invariant := by
  cases op with
  | resizeToAtLeast size =>
    rw [IoserviceManager.next]
    split_ifs with hgrows
    · exact h.grow hgrows.1.le hgrows.2
    · exact h
  | getNextIoservice => exact h.advance
  | stopAllThreadsafe => exact h.stopped

private theorem size_le_next (m : IoserviceManager) (op : Op) : m.size ≤ (m.next op).size := by
  cases op with
  | resizeToAtLeast size =>
    rw [next]
    split_ifs with hgrows
    · exact hgrows.1.le
    · exact Nat.le_refl _
  | getNextIoservice => exact Nat.le_refl _
  | stopAllThreadsafe => exact Nat.le_refl _

private theorem Invariant.after (h : m.Invariant) (ops : List Op) : (m.after ops).Invariant := by
  induction ops generalizing m with
  | nil => exact h
  | cons op ops ih =>
    rw [IoserviceManager.after, finalState_run h]
    exact ih (h.next op)

private theorem size_le_after (h : m.Invariant) (ops : List Op) : m.size ≤ (m.after ops).size := by
  induction ops generalizing m with
  | nil => exact Nat.le_refl _
  | cons op ops ih =>
    rw [after, finalState_run h]
    exact (size_le_next m op).trans (ih (h.next op))

/-- As long as the pool does not grow, the services are returned in their order, around and around. -/
private theorem services_eq (h : m.Invariant) {ops : List Op} (hsize : (m.after ops).size = m.size) :
    m.services ops =
      (List.range (m.services ops).length).map fun i => (m.lastIoservice + 1 + i) % m.size := by
  induction ops generalizing m with
  | nil => rfl
  | cons op ops ih =>
    rw [after, finalState_run h] at hsize
    have hnext := size_le_next m op
    have hafter := size_le_after (h.next op) ops
    have hsame : (m.next op).size = m.size := by omega
    have hrest := ih (h.next op) (by omega)
    rw [services, returned_run h, finalState_run h]
    split_ifs with hop
    · subst hop
      have hadvance : ∀ i, (m.advance.lastIoservice + 1 + i) % m.advance.size =
          (m.lastIoservice + 1 + (i + 1)) % m.size := fun i => by
        change ((m.lastIoservice + 1) % m.size + 1 + i) % m.size = _
        rw [Nat.add_assoc, Nat.mod_add_mod, Nat.add_comm 1 i]
      rw [Option.toList_some, List.singleton_append, List.length_cons, List.range_succ_eq_map,
        List.map_cons, List.map_map]
      refine congrArg₂ List.cons rfl (hrest.trans (List.map_congr_left fun i _ => hadvance i))
    · have hkept : (m.next op).lastIoservice = m.lastIoservice := by
        cases op with
        | resizeToAtLeast size =>
          rw [next]
          split_ifs <;> rfl
        | getNextIoservice => exact absurd rfl hop
        | stopAllThreadsafe => rfl
      rw [hkept, hsame] at hrest
      exact hrest

/-- What the pool promises: its size is what it says, it does not shrink, what is rejected does not change
it, every call of `get_next_ioservice` returns a service, and as many such calls in a row as there are
services return each of them once, whatever is called in between that does not make the pool grow. -/
structure PoolKept (m : IoserviceManager) : Prop where
  size_eq_idleWorks : m.size = m.ioserviceIdleWorks.length
  size_eq_threads : m.size = m.ioserviceThreads.length
  size_le_capacity : m.size ≤ ioserviceMax
  size_le_after : ∀ ops, m.size ≤ (m.after ops).size
  accepted : ∀ size, size ≤ ioserviceMax →
    ∃ m', resizeToAtLeast size m = .ok () m' ∧ m'.size = max m.size size
  rejected : ∀ size, ioserviceMax < size →
    resizeToAtLeast size m = .error (.throw (.errCheckInput "size_ <= capacity()")) m
  returns : ∃ index m', getNextIoservice m = .ok index m' ∧ m.IsRunning index ∧ m'.size = m.size
  rotates : ∀ ops, .stopAllThreadsafe ∉ ops → (m.after ops).size = m.size →
    ops.count .getNextIoservice = m.size →
    (m.services ops).length = m.size ∧ (m.services ops).Nodup ∧
      ∀ index, index ∈ m.services ops ↔ (m.after ops).IsRunning index

/-- Every call of `get_next_ioservice` returns a service, and no other call does. -/
private theorem length_services (h : m.Invariant) (ops : List Op) :
    (m.services ops).length = ops.count .getNextIoservice := by
  induction ops generalizing m with
  | nil => rfl
  | cons op ops ih =>
    rw [services, returned_run h, finalState_run h, List.length_append, ih (h.next op),
      List.count_cons, Nat.add_comm]
    by_cases hop : op = .getNextIoservice
    · rw [if_pos hop, if_pos (beq_iff_eq.mpr hop)]
      rfl
    · rw [if_neg hop, if_neg (mt beq_iff_eq.mp hop)]
      rfl

/-- In a pool that does not grow, as many services in a row as there are are all of them. -/
private theorem perm_services (h : m.Invariant) {ops : List Op} (hsize : (m.after ops).size = m.size)
    (hlength : (m.services ops).length = m.size) : (m.services ops).Perm (List.range m.size) := by
  have hico := Nat.multiset_Ico_map_mod (m.lastIoservice + 1) m.size
  have hlist : (List.range m.size).map (fun i => (m.lastIoservice + 1 + i) % m.size) =
      (List.range' (m.lastIoservice + 1) m.size).map fun i => i % m.size := by
    rw [List.range'_eq_map_range, List.map_map]
    rfl
  have hrange : (↑(List.range' (m.lastIoservice + 1) m.size) : Multiset ℕ) =
      Multiset.Ico (m.lastIoservice + 1) (m.lastIoservice + 1 + m.size) := by
    rw [Multiset.Ico, Nat.Ico_eq_range', Nat.add_sub_cancel_left]
  rw [services_eq h hsize, hlength, hlist, ← Multiset.coe_eq_coe, ← Multiset.map_coe, hrange, hico]
  rfl

/-- No service was stopped. -/
def NoneStopped (m : IoserviceManager) : Prop :=
  ∀ i, i < ioserviceMax → m.ioserviceArray[i]? = some false

private theorem NoneStopped.after (h : m.Invariant) (hnone : m.NoneStopped) {ops : List Op}
    (hops : .stopAllThreadsafe ∉ ops) : (m.after ops).NoneStopped := by
  induction ops generalizing m with
  | nil => exact hnone
  | cons op ops ih =>
    rw [List.mem_cons, not_or] at hops
    rw [IoserviceManager.after, finalState_run h]
    refine ih (h.next op) ?_ hops.2
    cases op with
    | resizeToAtLeast size =>
      rw [IoserviceManager.next]
      split_ifs
      · exact hnone
      · exact hnone
    | getNextIoservice => exact hnone
    | stopAllThreadsafe => exact absurd rfl hops.1

/-- Where no service was stopped, all run. -/
theorem NoneStopped.isRunning_iff (h : m.Invariant) (hnone : m.NoneStopped) {index : ℕ} :
    m.IsRunning index ↔ index < m.size := by
  rw [IsRunning, h.threads, List.mem_range, and_iff_left_iff_imp]
  exact fun hlt => hnone index (Nat.lt_of_lt_of_le hlt h.size_le)

/-- A pool that was made keeps its promises in all runs in which it is not stopped. It may be made larger and
be asked for services in any order and any number of times. -/
theorem poolKept_of_new {size : ℕ} (hnew : IsNew size m) {ops : List Op}
    (hops : .stopAllThreadsafe ∉ ops) : (m.after ops).PoolKept := by
  have hinv := (Invariant.of_isNew hnew).after ops
  have hnone : m.NoneStopped := by
    obtain ⟨-, rfl⟩ := isNew_iff.mp hnew
    exact fun i hlt => by simp [grow, initial, hlt]
  have hnone := hnone.after (.of_isNew hnew) hops
  exact {
    size_eq_idleWorks := hinv.precond.2.2
    size_eq_threads := hinv.precond.2.1
    size_le_capacity := hinv.size_le
    size_le_after := size_le_after hinv
    accepted := fun size hle => by
      rw [resizeToAtLeast_apply hinv]
      split_ifs with hsmall
      · exact ⟨_, rfl, (Nat.max_eq_left hsmall).symm⟩
      · refine ⟨_, rfl, ?_⟩
        change size = max _ size
        omega
    rejected := fun size hlt => by
      rw [resizeToAtLeast_apply hinv, if_neg (by have := hinv.size_le; omega), if_neg (by omega)]
    returns := ⟨_, _, getNextIoservice_apply hinv,
      (hnone.isRunning_iff hinv).mpr (Nat.mod_lt _ hinv.size_pos), rfl⟩
    rotates := fun more hmore hsize hcalls => by
      have hlength := (length_services hinv more).trans hcalls
      have hperm := perm_services hinv hsize hlength
      refine ⟨hlength, hperm.nodup_iff.mpr List.nodup_range, fun index => ?_⟩
      rw [hperm.mem_iff, (hnone.after hinv hmore).isRunning_iff (hinv.after more), hsize, List.mem_range] }

/-- A pool of two services. -/
theorem poolKept_of_new_two :
    (((initial 2).grow 2).after [.getNextIoservice, .resizeToAtLeast 17, .resizeToAtLeast 4]).PoolKept :=
  poolKept_of_new (isNew_iff.mpr ⟨⟨by decide, by decide⟩, rfl⟩) (by decide)

/-! ### After the stop -/

/-- A manager, and whether `stop_all_threadsafe` has returned. Only a call that has returned counts. -/
structure Watched where
  manager : IoserviceManager
  wasStopped : Bool

/-- One call. -/
def Watched.Step (s : Watched) (op : Op) (s' : Watched) : Prop :=
  s' = {
    manager := finalState op.run s.manager
    wasStopped := s.wasStopped || (decide (op = .stopAllThreadsafe) && (returned op.run s.manager).isSome) }

/-- After the stop no service runs. -/
def Watched.StaysStopped (s : Watched) : Prop :=
  s.wasStopped = true → ∀ index, ¬ s.manager.IsRunning index

/-- A call that does not make the pool grow, once it was stopped. It asks for no more services than there are,
or for more than there can be. -/
def Watched.KeepsSize (s : Watched) (op : Op) : Prop :=
  s.wasStopped = true → ∀ size, op = .resizeToAtLeast size →
    size ≤ s.manager.size ∨ ioserviceMax < size

/-- A stopped pool does not run anything. -/
private theorem not_isRunning_stopped (h : m.Invariant) (index : ℕ) :
    ¬ (m.stopped m.size).IsRunning index := by
  rintro ⟨hmem, hrunning⟩
  have hthreads : index ∈ m.ioserviceThreads := hmem
  rw [h.threads, List.mem_range] at hthreads
  change (m.ioserviceArray.mapIdx _)[index]? = _ at hrunning
  simp [Vector.getElem?_mapIdx, hthreads] at hrunning

/-- A pool that has grown runs its last service. -/
private theorem isRunning_grow (h : m.Invariant) {size : ℕ} (hlt : m.size < size)
    (hle : size ≤ ioserviceMax) :
    (m.grow size).IsRunning (size - 1) := by
  refine ⟨List.mem_range.mpr (by omega), h.not_stopped (size - 1) (by omega) (by omega)⟩

/-- Which calls leave a stopped pool stopped. -/
private theorem staysStopped_step {s s' : Watched} {op : Op} (h : s.manager.Invariant ∧ s.StaysStopped)
    (hstep : s.Step op s') : s'.manager.Invariant ∧ s'.StaysStopped ↔ s.KeepsSize op := by
  obtain ⟨hinv, hstays⟩ := h
  obtain rfl := hstep
  rw [and_iff_right (by rw [finalState_run hinv]; exact hinv.next op)]
  simp only [Watched.StaysStopped, finalState_run hinv]
  cases op with
  | resizeToAtLeast size =>
    simp only [reduceCtorEq, decide_false, Bool.false_and, Bool.or_false]
    by_cases hgrows : s.manager.size < size ∧ size ≤ ioserviceMax
    · rw [next, if_pos hgrows]
      constructor
      · intro hstays hstopped
        exact absurd (isRunning_grow hinv hgrows.1 hgrows.2) (hstays hstopped _)
      · intro hkeeps hstopped
        have hsize := hkeeps hstopped size rfl
        omega
    · rw [next, if_neg hgrows]
      refine iff_of_true hstays ?_
      rintro - size' heq
      obtain rfl := Op.resizeToAtLeast.inj heq
      omega
  | getNextIoservice =>
    refine iff_of_true (fun hstopped => hstays ?_) fun _ _ heq => nomatch heq
    simpa using hstopped
  | stopAllThreadsafe =>
    exact iff_of_true (fun _ => not_isRunning_stopped hinv) fun _ _ heq => nomatch heq

/-- In a run the pool stays stopped exactly when no call after the stop makes it grow. Services that are added
behind the stop are running, as nothing remembers that there was one. -/
theorem staysStopped_iff {size : ℕ} (hnew : IsNew size m) {trace : List (Watched × Op)} {s' : Watched}
    (hrun : Steps Watched.Step { manager := m, wasStopped := false } trace s') :
    Steps.Throughout Watched.StaysStopped trace s' ↔ Steps.All Watched.KeepsSize trace := by
  have hstart : (Invariant m ∧ Watched.StaysStopped { manager := m, wasStopped := false }) :=
    ⟨.of_isNew hnew, fun hstopped => nomatch hstopped⟩
  have hinv := Steps.invariant (I := fun s : Watched => s.manager.Invariant) (H := fun _ _ => True)
    (fun s op s' hs _ hstep => by
      obtain rfl := hstep
      change (finalState op.run s.manager).Invariant
      rw [finalState_run hs]
      exact hs.next op) hrun hstart.1 fun _ _ => trivial
  rw [← Steps.invariant_iff (fun s op s' hI hstep => staysStopped_step hI hstep) hrun hstart]
  refine and_congr (forall₂_congr fun p hp => ?_) ?_
  · exact (and_iff_right (hinv.1 p hp)).symm
  · exact (and_iff_right hinv.2).symm

/-- A stop and no growth after it. -/
theorem staysStopped_iff_example :
    ∃ trace s', Steps Watched.Step { manager := (initial 2).grow 2, wasStopped := false } trace s' ∧
      (Steps.Throughout Watched.StaysStopped trace s' ↔ Steps.All Watched.KeepsSize trace) := by
  have hrun : Steps Watched.Step { manager := (initial 2).grow 2, wasStopped := false } _ _ :=
    .snoc (.snoc (.nil _) (o := .stopAllThreadsafe) rfl) (o := .resizeToAtLeast 2) rfl
  exact ⟨_, _, hrun, staysStopped_iff (isNew_iff.mpr ⟨⟨by decide, by decide⟩, rfl⟩) hrun⟩

/-- A pool that was stopped runs another service. -/
theorem not_staysStopped_grow :
    ∃ trace s', Steps Watched.Step { manager := (initial 1).grow 1, wasStopped := false } trace s' ∧
      ¬ Steps.Throughout Watched.StaysStopped trace s' := by
  have hrun : Steps Watched.Step { manager := (initial 1).grow 1, wasStopped := false } _ _ :=
    .snoc (.snoc (.nil _) (o := .stopAllThreadsafe) rfl) (o := .resizeToAtLeast 2) rfl
  refine ⟨_, _, hrun, fun h => ?_⟩
  exact h.2 (by decide) 1 ⟨by decide, by decide⟩

end IoserviceManager

end Galaxy42
