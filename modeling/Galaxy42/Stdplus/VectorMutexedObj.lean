import Galaxy42.Lib.Buffer
import Galaxy42.Lib.Program
import Galaxy42.Lib.Steps

/-!
# Vectors of objects with a mutex each

`vector_mutexed_obj`, in one thread. The container holds pointers, and `grow_to` adds null pointers: a slot
is `none` when nothing was put into it, and to use its object takes the process down. All slots hold an
object all along a run exactly when no `grow_to` in it makes the container larger
(`allConstructed_throughout_iff`).

`run_on_matching` counts a match before it compares the count with the limit. With a limit of 0 it runs on
the first match all the same (`runsOnMatching_iff`).

The functions that are run may change the object they are given, and what they capture; both are a state
that goes through the loop (`Running`), with the list of the slots on which they were run. That a function
changes its own object only is why the later ones still match as they did (`matching_after`), so that what
is to be run can be said before the loop is: it is the matching slots in their order, the first so many of them
(`matching`, `runEach`).

The loop is one recursion over the slots that are left (`scan`). It meets an empty slot only when it gets
there before the limit is reached, and `ObjectsUntil` says that it does not. With enough matches and with fewer
of them, what the loop does is one lemma each, and the condition of `runsOnMatching_iff` is put together
from these two.
-/

namespace Galaxy42

open Toolkit Program

namespace Stdplus

/-- The exceptions of the container. -/
inductive VectorError where
  /-- `error_no_match_found` -/
  | noMatchFound
  /-- `error_not_enough_match_found` -/
  | notEnoughMatchFound
  /-- `std::out_of_range`, as `at()` throws it -/
  | outOfRange
  deriving DecidableEq, Repr

/-- The text of an exception. -/
def VectorError.what : VectorError → String
  | noMatchFound => "No matching object was found in container"
  | notEnoughMatchFound => "Not enough matching objects was found in container"
  | outOfRange => "out_of_range"

variable {TObj TRet σ : Type}

/-! ### The container -/

/-- `m_data`: the object of each slot, and `none` for a null pointer. -/
abbrev Slots (TObj : Type) := List (Option TObj)

/-- `grow_to` -/
def growTo (mData : Slots TObj) (size : ℕ) : Slots TObj :=
  if ¬ size > mData.length then mData else Buffer.resize mData size none

/-- `push_back` -/
def pushBack (mData : Slots TObj) (obj : TObj) : Slots TObj := mData ++ [some obj]

/-- A container that functions run on: its data, what the functions capture, and the slots on which they
were run. -/
structure Running (TObj σ : Type) where
  /-- The data of the container. -/
  mData : Slots TObj
  /-- What the functions capture. -/
  env : σ
  /-- The slots on whose objects a function was run, in order. -/
  calls : List ℕ

/-- The object of a slot is given to a function, which may change it. -/
def Running.after (s : Running TObj σ) (funRun : TObj → σ → TRet × TObj × σ) (ix : ℕ) (obj : TObj) :
    Running TObj σ where
  mData := s.mData.set ix (some (funRun obj s.env).2.1)
  env := (funRun obj s.env).2.2
  calls := s.calls ++ [ix]

/-- `fun_run(obj_rw)` -/
def runFun (funRun : TObj → σ → TRet × TObj × σ) (ix : ℕ) (obj : TObj) :
    Program VectorError (Running TObj σ) TRet := do
  let s ← get
  set (s.after funRun ix obj)
  return (funRun obj s.env).1

/-- `run_on` -/
def runOn (funRun : TObj → σ → TRet × TObj × σ) (ix : ℕ) :
    Program VectorError (Running TObj σ) TRet := do
  match (← get).mData[ix]? with
  | none => raise .outOfRange
  | some none => abort
  | some (some obj) => runFun funRun ix obj

/-- The loop of `run_on_matching`, with `n` slots left from `ix` on, and what is thrown behind it. -/
def scan (funTest : TObj → Bool) (funRun : TObj → σ → TRet × TObj × σ) (limitMatched : ℕ) :
    ℕ → ℕ → ℕ → Bool → Program VectorError (Running TObj σ) TRet
  | 0, _, _, isNotEnough => if isNotEnough then raise .notEnoughMatchFound else raise .noMatchFound
  | n + 1, ix, soFar, isNotEnough => do
    match (← get).mData[ix]? with
    | some (some obj) =>
      let matched := funTest obj
      if matched then
        -- it is tested again, under the other lock
        let matchedAgain := funTest obj
        if matchedAgain then
          let soFar := soFar + 1
          if soFar ≥ limitMatched then
            runFun funRun ix obj
          else do
            let _ ← runFun funRun ix obj
            scan funTest funRun limitMatched n (ix + 1) soFar true
        else scan funTest funRun limitMatched n (ix + 1) soFar isNotEnough
      else scan funTest funRun limitMatched n (ix + 1) soFar isNotEnough
    | _ => abort

/-- `run_on_matching` -/
def runOnMatching (funTest : TObj → Bool) (funRun : TObj → σ → TRet × TObj × σ) (limitMatched : ℕ) :
    Program VectorError (Running TObj σ) TRet := do
  scan funTest funRun limitMatched (← get).mData.length 0 0 false

/-! ### What is to be run -/

/-- The slots, `n` of them from `ix` on, whose objects match. -/
def matching (mData : Slots TObj) (funTest : TObj → Bool) (ix n : ℕ) : List ℕ :=
  (List.range' ix n).filter fun i => mData[i]?.join.any funTest

/-- The function is run on the objects of some slots, one after the other; what it returned each time, and
what is left. -/
def runEach (funRun : TObj → σ → TRet × TObj × σ) : List ℕ → Running TObj σ → List TRet × Running TObj σ
  | [], s => ([], s)
  | ix :: rest, s =>
    match s.mData[ix]?.join with
    | some obj =>
      let later := runEach funRun rest (s.after funRun ix obj)
      ((funRun obj s.env).1 :: later.1, later.2)
    | none => runEach funRun rest s

section Scan

variable {funTest : TObj → Bool} {funRun : TObj → σ → TRet × TObj × σ} {limitMatched n ix soFar : ℕ}
  {isNotEnough : Bool} {s : Running TObj σ} {obj : TObj}

private theorem matching_succ_of_match (h : s.mData[ix]? = some (some obj)) (htest : funTest obj = true) :
    matching s.mData funTest ix (n + 1) = ix :: matching s.mData funTest (ix + 1) n := by
  simp [matching, List.range'_succ, h, htest]

private theorem matching_succ_of_not_match (h : s.mData[ix]? = some (some obj))
    (htest : funTest obj = false) :
    matching s.mData funTest ix (n + 1) = matching s.mData funTest (ix + 1) n := by
  simp [matching, List.range'_succ, h, htest]

private theorem runEach_cons (h : s.mData[ix]? = some (some obj)) (rest : List ℕ) :
    runEach funRun (ix :: rest) s = ((funRun obj s.env).1 :: (runEach funRun rest (s.after funRun ix obj)).1,
      (runEach funRun rest (s.after funRun ix obj)).2) := by
  rw [runEach, h]
  rfl

/-- Running on an object does not change which of the later ones match. -/
theorem matching_after : matching (s.after funRun ix obj).mData funTest (ix + 1) n =
    matching s.mData funTest (ix + 1) n := by
  refine List.filter_congr fun i hi => ?_
  rw [List.mem_range'_1] at hi
  have hne : ix ≠ i := by omega
  rw [Running.after, List.getElem?_set_ne hne]

/-! ### What one round does -/

private theorem scan_of_none (h : s.mData[ix]? = some none) :
    scan funTest funRun limitMatched (n + 1) ix soFar isNotEnough s = .error .abort s := by
  rw [scan, bind_of_ok (get_apply s), h]
  rfl

private theorem scan_of_not_match (h : s.mData[ix]? = some (some obj)) (htest : funTest obj = false) :
    scan funTest funRun limitMatched (n + 1) ix soFar isNotEnough s =
      scan funTest funRun limitMatched n (ix + 1) soFar isNotEnough s := by
  rw [scan, bind_of_ok (get_apply s), h]
  simp [htest]

private theorem scan_of_last (h : s.mData[ix]? = some (some obj)) (htest : funTest obj = true)
    (hlimit : soFar + 1 ≥ limitMatched) :
    scan funTest funRun limitMatched (n + 1) ix soFar isNotEnough s =
      .ok (funRun obj s.env).1 (s.after funRun ix obj) := by
  rw [scan, bind_of_ok (get_apply s), h]
  simp only [htest, if_true, if_pos hlimit]
  rfl

private theorem scan_of_match (h : s.mData[ix]? = some (some obj)) (htest : funTest obj = true)
    (hlimit : ¬ soFar + 1 ≥ limitMatched) :
    scan funTest funRun limitMatched (n + 1) ix soFar isNotEnough s =
      scan funTest funRun limitMatched n (ix + 1) (soFar + 1) true (s.after funRun ix obj) := by
  rw [scan, bind_of_ok (get_apply s), h]
  simp only [htest, if_true, if_neg hlimit]
  rfl

/-! ### What the loop does -/

/-- No slot is empty, of `n` from `ix` on, as long as fewer objects than the limit have matched. Behind the
object at which the limit is reached, slots may be empty. -/
def ObjectsUntil (mData : Slots TObj) (funTest : TObj → Bool) (limitMatched soFar ix n : ℕ) : Prop :=
  ∀ k, k < n → mData[ix + k]? = some none →
    limitMatched ≤ soFar + (matching mData funTest ix k).length

private theorem objectsUntil_of_not_match (h : s.mData[ix]? = some (some obj)) (htest : funTest obj = false) :
    ObjectsUntil s.mData funTest limitMatched soFar ix (n + 1) ↔
      ObjectsUntil s.mData funTest limitMatched soFar (ix + 1) n := by
  constructor
  · intro hobjects k hk hnone
    have hle := hobjects (k + 1) (by omega) (by rwa [← Nat.add_assoc, Nat.add_right_comm])
    rwa [matching_succ_of_not_match h htest] at hle
  · intro hobjects k hk hnone
    cases k with
    | zero => exact absurd (h.symm.trans hnone) (by simp)
    | succ k =>
      rw [matching_succ_of_not_match h htest]
      exact hobjects k (by omega) (by rwa [Nat.add_right_comm])

private theorem objectsUntil_of_match (h : s.mData[ix]? = some (some obj)) (htest : funTest obj = true) :
    ObjectsUntil s.mData funTest limitMatched soFar ix (n + 1) ↔
      ObjectsUntil (s.after funRun ix obj).mData funTest limitMatched (soFar + 1) (ix + 1) n := by
  have hafter (k : ℕ) : (s.after funRun ix obj).mData[ix + 1 + k]? = s.mData[ix + (k + 1)]? := by
    have hne : ix ≠ ix + 1 + k := by omega
    rw [Running.after, List.getElem?_set_ne hne, Nat.add_right_comm, Nat.add_assoc]
  constructor
  · intro hobjects k hk hnone
    have hle := hobjects (k + 1) (by omega) ((hafter k).symm.trans hnone)
    rw [matching_succ_of_match h htest, List.length_cons] at hle
    rw [matching_after]
    omega
  · intro hobjects k hk hnone
    cases k with
    | zero => exact absurd (h.symm.trans hnone) (by simp)
    | succ k =>
      have hle := hobjects k (by omega) ((hafter k).trans hnone)
      rw [matching_after] at hle
      rw [matching_succ_of_match h htest, List.length_cons]
      omega

/-- With enough matches, the loop runs on the first ones and returns the last result. -/
private theorem scan_of_le (isNotEnough : Bool) (hlength : ix + n ≤ s.mData.length)
    (hlt : soFar < limitMatched)
    (hobjects : ObjectsUntil s.mData funTest limitMatched soFar ix n)
    (hle : limitMatched ≤ soFar + (matching s.mData funTest ix n).length) :
    ∃ ret, (runEach funRun ((matching s.mData funTest ix n).take (limitMatched - soFar)) s).1.getLast? =
        some ret ∧
      scan funTest funRun limitMatched n ix soFar isNotEnough s =
        .ok ret (runEach funRun ((matching s.mData funTest ix n).take (limitMatched - soFar)) s).2 := by
  induction n generalizing ix soFar isNotEnough s with
  | zero => exact absurd hle (Nat.not_le.mpr hlt)
  | succ n ih =>
    obtain ⟨slot, hslot⟩ : ∃ slot, s.mData[ix]? = some slot := ⟨_, List.getElem?_eq_getElem (by omega)⟩
    cases slot with
    | none => exact absurd (hobjects 0 (Nat.succ_pos n) hslot) (Nat.not_le.mpr hlt)
    | some obj =>
      cases htest : funTest obj with
      | false =>
        rw [matching_succ_of_not_match hslot htest] at hle ⊢
        rw [scan_of_not_match hslot htest]
        exact ih isNotEnough (by omega) hlt ((objectsUntil_of_not_match hslot htest).mp hobjects) hle
      | true =>
        rw [matching_succ_of_match hslot htest] at hle ⊢
        by_cases hlimit : soFar + 1 ≥ limitMatched
        · have hone : limitMatched - soFar = 0 + 1 := by omega
          rw [scan_of_last hslot htest hlimit, hone, List.take_succ_cons, List.take_zero,
            runEach_cons hslot]
          exact ⟨_, rfl, rfl⟩
        · have hrest : limitMatched - soFar = (limitMatched - (soFar + 1)) + 1 := by omega
          rw [scan_of_match hslot htest hlimit, hrest, List.take_succ_cons, runEach_cons hslot]
          rw [List.length_cons] at hle
          have hlater := ih true (s := s.after funRun ix obj)
            (by rw [Running.after, List.length_set]; omega) (by omega)
            ((objectsUntil_of_match hslot htest).mp hobjects) (by rw [matching_after]; omega)
          rw [matching_after] at hlater
          obtain ⟨ret, hlast, hrun⟩ := hlater
          refine ⟨ret, ?_, hrun⟩
          rw [List.getLast?_cons, hlast]
          rfl

/-- With fewer matches, the loop runs on all of them, and something is thrown. -/
private theorem scan_of_lt (hlength : ix + n ≤ s.mData.length)
    (hobjects : ObjectsUntil s.mData funTest limitMatched soFar ix n)
    (hlt : soFar + (matching s.mData funTest ix n).length < limitMatched) :
    scan funTest funRun limitMatched n ix soFar isNotEnough s =
      .error (.throw (if isNotEnough ∨ matching s.mData funTest ix n ≠ [] then .notEnoughMatchFound
        else .noMatchFound)) (runEach funRun (matching s.mData funTest ix n) s).2 := by
  induction n generalizing ix soFar isNotEnough s with
  | zero => cases isNotEnough <;> rfl
  | succ n ih =>
    obtain ⟨slot, hslot⟩ : ∃ slot, s.mData[ix]? = some slot := ⟨_, List.getElem?_eq_getElem (by omega)⟩
    cases slot with
    | none => exact absurd (hobjects 0 (Nat.succ_pos n) hslot) (by simp only [matching]; simp; omega)
    | some obj =>
      cases htest : funTest obj with
      | false =>
        rw [matching_succ_of_not_match hslot htest] at hlt ⊢
        rw [scan_of_not_match hslot htest]
        exact ih (by omega) ((objectsUntil_of_not_match hslot htest).mp hobjects) hlt
      | true =>
        rw [matching_succ_of_match hslot htest, List.length_cons] at hlt
        rw [matching_succ_of_match hslot htest, scan_of_match hslot htest (by omega), runEach_cons hslot,
          ih (by rw [Running.after, List.length_set]; omega)
            ((objectsUntil_of_match hslot htest).mp hobjects) (by rw [matching_after]; omega),
          matching_after]
        simp

/-- An empty slot that is met takes the process down. -/
private theorem scan_of_not_objectsUntil (hlength : ix + n ≤ s.mData.length)
    (hobjects : ¬ ObjectsUntil s.mData funTest limitMatched soFar ix n) :
    ∃ s', scan funTest funRun limitMatched n ix soFar isNotEnough s = .error .abort s' := by
  induction n generalizing ix soFar isNotEnough s with
  | zero => exact absurd (fun k hk => absurd hk (Nat.not_lt_zero k)) hobjects
  | succ n ih =>
    obtain ⟨slot, hslot⟩ : ∃ slot, s.mData[ix]? = some slot := ⟨_, List.getElem?_eq_getElem (by omega)⟩
    cases slot with
    | none => exact ⟨s, scan_of_none hslot⟩
    | some obj =>
      cases htest : funTest obj with
      | false =>
        rw [scan_of_not_match hslot htest]
        exact ih (by omega) (mt (objectsUntil_of_not_match hslot htest).mpr hobjects)
      | true =>
        by_cases hlimit : soFar + 1 ≥ limitMatched
        · refine absurd (fun k hk hnone => ?_) hobjects
          cases k with
          | zero => exact absurd (hslot.symm.trans hnone) (by simp)
          | succ k =>
            rw [matching_succ_of_match hslot htest, List.length_cons]
            omega
        · rw [scan_of_match hslot htest hlimit]
          exact ih (by rw [Running.after, List.length_set]; omega)
            (mt (objectsUntil_of_match hslot htest).mpr hobjects)

/-- A limit of 0 is one of 1. -/
private theorem scan_zero : scan funTest funRun 0 n ix soFar isNotEnough s =
    scan funTest funRun 1 n ix soFar isNotEnough s := by
  induction n generalizing ix soFar isNotEnough s with
  | zero => rfl
  | succ n ih =>
    rw [scan, scan, bind_of_ok (get_apply s), bind_of_ok (get_apply s)]
    rcases s.mData[ix]? with _ | _ | obj
    · rfl
    · rfl
    · cases htest : funTest obj with
      | false => simpa only [htest, Bool.false_eq_true, if_false] using ih
      | true => simp [htest]

private theorem runOnMatching_apply : runOnMatching funTest funRun limitMatched s =
    scan funTest funRun (max limitMatched 1) s.mData.length 0 0 false s := by
  rw [runOnMatching, bind_of_ok (get_apply s)]
  cases limitMatched with
  | zero => exact scan_zero
  | succ limit => rw [Nat.max_eq_left (Nat.succ_pos limit)]

/-! ### What is left of the container -/

private theorem getElem?_runEach_of_notMem {ixs : List ℕ} {i : ℕ} (h : i ∉ ixs) :
    (runEach funRun ixs s).2.mData[i]? = s.mData[i]? := by
  induction ixs generalizing s with
  | nil => rfl
  | cons ix ixs ih =>
    rw [List.mem_cons, not_or] at h
    cases hslot : s.mData[ix]?.join with
    | none =>
      rw [runEach, hslot]
      exact ih h.2
    | some obj =>
      rw [runEach, hslot]
      refine (ih h.2).trans ?_
      rw [Running.after, List.getElem?_set_ne (Ne.symm h.1)]

/-- The function is run once on each of the slots, when they have objects. -/
theorem calls_runEach {ixs : List ℕ} (h : ∀ ix ∈ ixs, ∃ obj, s.mData[ix]? = some (some obj)) :
    (runEach funRun ixs s).2.calls = s.calls ++ ixs := by
  induction ixs generalizing s with
  | nil => exact (List.append_nil _).symm
  | cons ix ixs ih =>
    obtain ⟨obj, hslot⟩ := h ix List.mem_cons_self
    have hafter : ∀ i ∈ ixs, ∃ obj', (s.after funRun ix obj).mData[i]? = some (some obj') := by
      intro i hi
      obtain ⟨obj', hobj'⟩ := h i (List.mem_cons_of_mem _ hi)
      by_cases heq : ix = i
      · subst heq
        have hlt : ix < s.mData.length := (List.getElem?_eq_some_iff.mp hslot).1
        exact ⟨_, List.getElem?_set_self hlt⟩
      · exact ⟨obj', (List.getElem?_set_ne heq).trans hobj'⟩
    rw [runEach_cons hslot, ih hafter, Running.after, List.append_assoc, List.singleton_append]

private theorem exists_of_mem_matching {i : ℕ} (h : i ∈ matching s.mData funTest ix n) :
    ∃ obj, s.mData[i]? = some (some obj) := by
  have hany := (List.mem_filter.mp h).2
  rcases hslot : s.mData[i]? with _ | _ | obj
  · simp [hslot] at hany
  · simp [hslot] at hany
  · exact ⟨obj, rfl⟩

/-! ### The limit -/

/-- The slots whose objects match. -/
def matchingSlots (mData : Slots TObj) (funTest : TObj → Bool) : List ℕ :=
  matching mData funTest 0 mData.length

/-- What `run_on_matching` is to do, for one call: with enough matches it runs on the first `limit` of them,
each once and in order, and returns the last result; with fewer it runs on all and throws; without any it
throws; with a limit of 0 it runs on none; and objects that do not match stay. -/
structure RunsOnMatching (funTest : TObj → Bool) (funRun : TObj → σ → TRet × TObj × σ)
    (limitMatched : ℕ) (s : Running TObj σ) : Prop where
  ends : ∀ s', runOnMatching funTest funRun limitMatched s ≠ .error .abort s'
  enough : 1 ≤ limitMatched → limitMatched ≤ (matchingSlots s.mData funTest).length →
    ∃ ret s', runEach funRun ((matchingSlots s.mData funTest).take limitMatched) s = (ret, s') ∧
      s'.calls = s.calls ++ (matchingSlots s.mData funTest).take limitMatched ∧
      ∃ last, ret.getLast? = some last ∧ runOnMatching funTest funRun limitMatched s = .ok last s'
  notEnough : 0 < (matchingSlots s.mData funTest).length →
    (matchingSlots s.mData funTest).length < limitMatched →
    ∃ ret s', runEach funRun (matchingSlots s.mData funTest) s = (ret, s') ∧
      s'.calls = s.calls ++ matchingSlots s.mData funTest ∧
      runOnMatching funTest funRun limitMatched s = .error (.throw .notEnoughMatchFound) s'
  noMatch : matchingSlots s.mData funTest = [] →
    runOnMatching funTest funRun limitMatched s = .error (.throw .noMatchFound) s
  zero : limitMatched = 0 → finalState (runOnMatching funTest funRun limitMatched) s = s
  unmatched : ∀ i, i ∉ matchingSlots s.mData funTest →
    (finalState (runOnMatching funTest funRun limitMatched) s).mData[i]? = s.mData[i]?

section Outcomes

variable (hobjects : ObjectsUntil s.mData funTest (max limitMatched 1) 0 0 s.mData.length)
include hobjects

/-- With enough matches, for a limit of at least 1. -/
theorem runOnMatching_of_le (funRun : TObj → σ → TRet × TObj × σ)
    (hle : max limitMatched 1 ≤ (matchingSlots s.mData funTest).length) :
    ∃ last, (runEach funRun ((matchingSlots s.mData funTest).take (max limitMatched 1)) s).1.getLast? =
        some last ∧
      runOnMatching funTest funRun limitMatched s =
        .ok last (runEach funRun ((matchingSlots s.mData funTest).take (max limitMatched 1)) s).2 := by
  rw [runOnMatching_apply]
  exact scan_of_le false (by omega) (by omega) hobjects (by rwa [Nat.zero_add])

/-- With fewer matches. -/
theorem runOnMatching_of_lt (funRun : TObj → σ → TRet × TObj × σ)
    (hlt : (matchingSlots s.mData funTest).length < max limitMatched 1) :
    runOnMatching funTest funRun limitMatched s =
      .error (.throw (if matchingSlots s.mData funTest ≠ [] then .notEnoughMatchFound else .noMatchFound))
        (runEach funRun (matchingSlots s.mData funTest) s).2 := by
  rw [runOnMatching_apply, scan_of_lt (by omega) hobjects (by rwa [Nat.zero_add])]
  by_cases hnone : matching s.mData funTest 0 s.mData.length = [] <;> simp [matchingSlots, hnone]

end Outcomes

/-- An empty slot that is met takes the process down. -/
private theorem runOnMatching_of_not_objectsUntil (funRun : TObj → σ → TRet × TObj × σ)
    (hobjects : ¬ ObjectsUntil s.mData funTest (max limitMatched 1) 0 0 s.mData.length) :
    ∃ s', runOnMatching funTest funRun limitMatched s = .error .abort s' := by
  rw [runOnMatching_apply]
  exact scan_of_not_objectsUntil (by omega) hobjects

private theorem calls_runEach_matchingSlots (k : ℕ) :
    (runEach funRun ((matchingSlots s.mData funTest).take k) s).2.calls =
      s.calls ++ (matchingSlots s.mData funTest).take k :=
  calls_runEach fun _ hix => exists_of_mem_matching (List.mem_of_mem_take hix)

/-- A limit of 0 does not keep the call from running on the first object that matches. -/
private theorem calls_of_zero (hobjects : ObjectsUntil s.mData funTest 1 0 0 s.mData.length)
    (hmatch : matchingSlots s.mData funTest ≠ []) :
    finalState (runOnMatching funTest funRun 0) s ≠ s := by
  have hlength : 1 ≤ (matchingSlots s.mData funTest).length := List.length_pos_of_ne_nil hmatch
  obtain ⟨last, -, hrun⟩ : ∃ last,
      (runEach funRun ((matchingSlots s.mData funTest).take 1) s).1.getLast? = some last ∧
        runOnMatching funTest funRun 0 s =
          .ok last (runEach funRun ((matchingSlots s.mData funTest).take 1) s).2 := by
    have hmax : ObjectsUntil s.mData funTest (max 0 1) 0 0 s.mData.length := hobjects
    exact runOnMatching_of_le hmax funRun hlength
  rw [finalState_of_ok hrun]
  intro hsame
  have hcalls : (runEach funRun ((matchingSlots s.mData funTest).take 1) s).2.calls =
      s.calls ++ (matchingSlots s.mData funTest).take 1 := calls_runEach_matchingSlots 1
  rw [hsame] at hcalls
  have htake : (matchingSlots s.mData funTest).take 1 = [] := by simpa using hcalls
  have hzero := congrArg List.length htake
  rw [List.length_take, List.length_nil] at hzero
  omega

private theorem runsOnMatching_of_le (hlimit : 1 ≤ limitMatched)
    (hobjects : ObjectsUntil s.mData funTest (max limitMatched 1) 0 0 s.mData.length)
    (hle : limitMatched ≤ (matchingSlots s.mData funTest).length) :
    RunsOnMatching funTest funRun limitMatched s := by
  obtain ⟨last, hlast, hrun⟩ := runOnMatching_of_le hobjects funRun (by omega)
  rw [Nat.max_eq_left hlimit] at hlast hrun
  refine ⟨fun s' habort => ?_, fun _ _ => ?_, fun _ hlt => ?_, fun hnone => ?_, fun hzero => ?_,
    fun i hi => ?_⟩
  · exact nomatch hrun.symm.trans habort
  · exact ⟨_, _, rfl, calls_runEach_matchingSlots _, last, hlast, hrun⟩
  · omega
  · rw [hnone, List.length_nil] at hle
    omega
  · omega
  · rw [finalState_of_ok hrun]
    exact getElem?_runEach_of_notMem (mt List.mem_of_mem_take hi)

private theorem runsOnMatching_of_lt (hlimit : 1 ≤ limitMatched ∨ matchingSlots s.mData funTest = [])
    (hobjects : ObjectsUntil s.mData funTest (max limitMatched 1) 0 0 s.mData.length)
    (hlt : (matchingSlots s.mData funTest).length < max limitMatched 1) :
    RunsOnMatching funTest funRun limitMatched s := by
  have hrun := runOnMatching_of_lt hobjects funRun hlt
  refine ⟨fun s' habort => ?_, fun _ hle => ?_, fun hpos _ => ?_, fun hnone => ?_, fun hzero => ?_,
    fun i hi => ?_⟩
  · exact nomatch hrun.symm.trans habort
  · omega
  · rw [if_pos (List.ne_nil_of_length_pos hpos)] at hrun
    refine ⟨_, _, rfl, ?_, hrun⟩
    exact calls_runEach fun _ hix => exists_of_mem_matching hix
  · rw [if_neg (not_not.mpr hnone), hnone] at hrun
    exact hrun
  · have hnone : matchingSlots s.mData funTest = [] := hlimit.resolve_left (by omega)
    rw [finalState_of_error hrun, hnone]
    rfl
  · rw [finalState_of_error hrun]
    exact getElem?_runEach_of_notMem hi

private theorem runsOnMatching_of_objectsUntil
    (hlimit : 1 ≤ limitMatched ∨ matchingSlots s.mData funTest = [])
    (hobjects : ObjectsUntil s.mData funTest (max limitMatched 1) 0 0 s.mData.length) :
    RunsOnMatching funTest funRun limitMatched s := by
  rcases Nat.lt_or_ge (matchingSlots s.mData funTest).length (max limitMatched 1) with hlt | hle
  · exact runsOnMatching_of_lt hlimit hobjects hlt
  · have hpos : 1 ≤ limitMatched := by
      refine hlimit.resolve_right fun hnone => ?_
      rw [hnone, List.length_nil] at hle
      omega
    exact runsOnMatching_of_le hpos hobjects (by omega)

/-- The call does what it should exactly when the limit is not 0, or no object matches, and it meets no empty
slot. The functions may be any, and what they do to an object does not change which ones come next. -/
theorem runsOnMatching_iff : RunsOnMatching funTest funRun limitMatched s ↔
    (1 ≤ limitMatched ∨ matchingSlots s.mData funTest = []) ∧
      ObjectsUntil s.mData funTest (max limitMatched 1) 0 0 s.mData.length := by
  constructor
  · intro h
    have hobjects : ObjectsUntil s.mData funTest (max limitMatched 1) 0 0 s.mData.length := by
      by_contra hnot
      obtain ⟨s', habort⟩ := runOnMatching_of_not_objectsUntil funRun hnot
      exact h.ends s' habort
    refine ⟨?_, hobjects⟩
    by_contra hnot
    obtain ⟨hzero, hmatch⟩ := not_or.mp hnot
    obtain rfl : limitMatched = 0 := by omega
    exact calls_of_zero hobjects hmatch (h.zero rfl)
  · exact fun h => runsOnMatching_of_objectsUntil h.1 h.2

end Scan

/-! ### Slots without an object -/

section Slots

/-- The operations that make the container larger. -/
inductive Operation (TObj : Type) where
  /-- `grow_to` -/
  | growTo (size : ℕ)
  /-- `push_back`, of either kind -/
  | pushBack (obj : TObj)

/-- One operation. -/
inductive Step : Slots TObj → Operation TObj → Slots TObj → Prop
  | growTo (mData : Slots TObj) (size : ℕ) : Step mData (.growTo size) (growTo mData size)
  | pushBack (mData : Slots TObj) (obj : TObj) : Step mData (.pushBack obj) (pushBack mData obj)

/-- All slots have an object. -/
def HoldsObjects (mData : Slots TObj) : Prop :=
  ∀ ix, ix < mData.length → ∃ obj, mData[ix]? = some (some obj)

/-- All slots have an object, so that `run_on` and `run_on_matching` never meet an empty one, whatever
functions they are given. The functions may be any, and so may what they capture. -/
structure AllConstructed (mData : Slots TObj) : Prop where
  holdsObjects : HoldsObjects mData
  runOn : ∀ (TRet σ : Type) (funRun : TObj → σ → TRet × TObj × σ) (ix : ℕ) (env : σ) (calls : List ℕ)
    (s' : Running TObj σ), runOn funRun ix ⟨mData, env, calls⟩ ≠ .error .abort s'
  runOnMatching : ∀ (TRet σ : Type) (funTest : TObj → Bool) (funRun : TObj → σ → TRet × TObj × σ)
    (limitMatched : ℕ) (env : σ) (calls : List ℕ) (s' : Running TObj σ),
    runOnMatching funTest funRun limitMatched ⟨mData, env, calls⟩ ≠ .error .abort s'

/-- The operation is no `grow_to` that makes the container larger. To ask for fewer slots than there are
changes nothing. -/
def DoesNotGrow (mData : Slots TObj) : Operation TObj → Prop
  | .growTo size => size ≤ mData.length
  | .pushBack _ => True

variable {mData mData' : Slots TObj} {o : Operation TObj} {trace : List (Slots TObj × Operation TObj)}

private theorem runOn_ne_abort (h : HoldsObjects mData) {funRun : TObj → σ → TRet × TObj × σ} {ix : ℕ}
    {env : σ}
    {calls : List ℕ} {s' : Running TObj σ} :
    Stdplus.runOn funRun ix ⟨mData, env, calls⟩ ≠ .error .abort s' := by
  rw [Stdplus.runOn, bind_of_ok (get_apply _)]
  by_cases hix : ix < mData.length
  · obtain ⟨obj, hobj⟩ := h ix hix
    rw [hobj]
    exact fun habort => nomatch habort
  · rw [List.getElem?_eq_none (Nat.le_of_not_lt hix)]
    exact fun habort => nomatch habort

private theorem objectsUntil_of_holdsObjects (h : HoldsObjects mData) {funTest : TObj → Bool} {limit : ℕ} :
    ObjectsUntil mData funTest limit 0 0 mData.length := by
  intro k hk hnone
  obtain ⟨obj, hobj⟩ := h k hk
  rw [Nat.zero_add, hobj] at hnone
  exact nomatch hnone

private theorem runOnMatching_ne_abort (h : HoldsObjects mData) {funTest : TObj → Bool}
    {funRun : TObj → σ → TRet × TObj × σ} {limitMatched : ℕ} {env : σ} {calls : List ℕ}
    {s' : Running TObj σ} :
    Stdplus.runOnMatching funTest funRun limitMatched ⟨mData, env, calls⟩ ≠ .error .abort s' := by
  have hobjects : ObjectsUntil mData funTest (max limitMatched 1) 0 0 mData.length :=
    objectsUntil_of_holdsObjects h
  intro habort
  rcases Nat.lt_or_ge (matchingSlots mData funTest).length (max limitMatched 1) with hlt | hle
  · have hrun := runOnMatching_of_lt (s := ⟨mData, env, calls⟩) hobjects funRun hlt
    exact nomatch hrun.symm.trans habort
  · obtain ⟨last, -, hrun⟩ := runOnMatching_of_le (s := ⟨mData, env, calls⟩) hobjects funRun hle
    exact nomatch hrun.symm.trans habort

private theorem allConstructed_iff : AllConstructed mData ↔ HoldsObjects mData where
  mp h := h.holdsObjects
  mpr h := {
    holdsObjects := h
    runOn := fun _ _ _ _ _ _ _ => runOn_ne_abort h
    runOnMatching := fun _ _ _ _ _ _ _ _ => runOnMatching_ne_abort h }

private theorem holdsObjects_pushBack (h : HoldsObjects mData) (obj : TObj) :
    HoldsObjects (pushBack mData obj) := by
  intro ix hix
  rw [pushBack, List.length_append, List.length_singleton] at hix
  rcases Nat.lt_or_ge ix mData.length with hlt | hge
  · rw [pushBack, List.getElem?_append_left hlt]
    exact h ix hlt
  · obtain rfl : ix = mData.length := by omega
    exact ⟨obj, List.getElem?_concat_length⟩

/-- A container that was made larger has an empty slot. -/
private theorem not_holdsObjects_growTo {size : ℕ} (h : size > mData.length) :
    ¬ HoldsObjects (growTo mData size) := by
  rw [growTo, if_neg (not_not.mpr h)]
  intro hobjects
  obtain ⟨obj, hobj⟩ := hobjects mData.length (by rw [Buffer.length_resize]; exact h)
  have hnone : (Buffer.resize mData size none)[mData.length]? = some none := by
    rw [Buffer.resize, List.take_of_length_le (Nat.le_of_lt h), List.getElem?_append_right (Nat.le_refl _),
      Nat.sub_self, List.getElem?_replicate_of_lt (by omega)]
  exact Option.some_ne_none obj (Option.some_inj.mp (hobj.symm.trans hnone))

/-- An operation keeps objects in all slots exactly when it does not make the container larger by empty
slots. -/
theorem allConstructed_step_iff (h : AllConstructed mData) (hstep : Step mData o mData') :
    AllConstructed mData' ↔ DoesNotGrow mData o := by
  rw [allConstructed_iff]
  cases hstep with
  | growTo size =>
    rcases Nat.lt_or_ge mData.length size with hlt | hle
    · exact iff_of_false (not_holdsObjects_growTo hlt) (Nat.not_le.mpr hlt)
    · rw [growTo, if_pos (Nat.not_lt.mpr hle)]
      exact iff_of_true h.holdsObjects hle
  | pushBack obj => exact iff_of_true (holdsObjects_pushBack h.holdsObjects obj) trivial

/-- All slots hold an object in all states of a run from an empty container exactly when no `grow_to` in it
makes the container larger. The run may be any, and ask for any sizes. -/
theorem allConstructed_throughout_iff (hrun : Steps Step [] trace mData) :
    Steps.Throughout AllConstructed trace mData ↔ Steps.All DoesNotGrow trace :=
  Steps.invariant_iff (fun _ _ _ h hstep => allConstructed_step_iff h hstep) hrun
    (allConstructed_iff.mpr fun _ hix => absurd hix (Nat.not_lt_zero _))

end Slots

/-- Two objects are put into an empty container, and `grow_to` asks for less than there is. -/
theorem allConstructed_throughout_pushed :
    let trace : List (Slots ℕ × Operation ℕ) :=
      [([], .pushBack 5), ([some 5], .pushBack 6), ([some 5, some 6], .growTo 1)]
    Steps.Throughout AllConstructed trace [some 5, some 6] := by
  intro trace
  have hrun : Steps Step [] trace [some 5, some 6] :=
    .snoc (.snoc (.snoc (.nil []) (.pushBack [] 5)) (.pushBack [some 5] 6)) (.growTo [some 5, some 6] 1)
  refine (allConstructed_throughout_iff hrun).mpr fun p hp => ?_
  simp only [trace, List.mem_cons, List.not_mem_nil, or_false] at hp
  rcases hp with rfl | rfl | rfl
  · trivial
  · trivial
  · exact show 1 ≤ 2 by decide

/-- An empty container is made to have one slot. -/
def growsToOne : List (Slots ℕ × Operation ℕ) := [([], .growTo 1)]

private theorem steps_growsToOne : Steps Step [] growsToOne [none] := .snoc (.nil []) (.growTo [] 1)

/-- The slot is empty. -/
theorem exists_not_allConstructed :
    ∃ (trace : List (Slots ℕ × Operation ℕ)) (mData : Slots ℕ), Steps Step [] trace mData ∧
      ¬ AllConstructed mData :=
  ⟨growsToOne, [none], steps_growsToOne, fun h => by
    obtain ⟨obj, hobj⟩ := h.holdsObjects 0 (by decide)
    exact nomatch hobj⟩

/-- With a limit of 0, the function is run on the object that matches. -/
theorem not_runsOnMatching_zero :
    ¬ RunsOnMatching (fun obj : ℕ => obj == 5) (fun obj (n : ℕ) => (obj, obj + 1, n + 1)) 0
      ⟨[some 5], 0, []⟩ := by
  intro h
  have hnone := h.zero rfl
  have hcalls := congrArg Running.calls hnone
  exact absurd hcalls (by decide)

end Stdplus

end Galaxy42
