import Std.Data.ExtTreeMap
import Galaxy42.Lib.Program

/-!
# Changes of capabilities

`capmodpp` changes the capabilities of the process by way of the library `libcap-ng`, which keeps a
staged copy of them: `get_caps_process` reads the copy from the process, `update` changes one bit of it,
and `apply` writes it back. These calls are faithful here; what the wrappers check before a call is kept.
The capabilities have the numbers up to `CAP_LAST_CAP`.

`security_apply_now` reads the capabilities, computes the new ones from a map of changes and a change
for all others, and goes through the differences. What it does to every capability is the change that
was given for it (`exists_securityApplyNow_eq_ok`).

The library is a state with two components, what the process has and what is staged (`CapNg`), and code that may
change capabilities is a program over that state. It ends in one of the errors of the wrappers or of the
conversion of names. The last capability and the table of the names are constants of the system (`CapNumbers`),
of which it is only known that the names that the program uses are those of capabilities.

The loop over the differences makes a call for an area only when the bit there has changed. That this comes
to the same as setting all areas is `applyArea_apply`; it needs that the old bit is the one that is staged,
which is what reading the capabilities gives and each round keeps for the capabilities to come.
-/

namespace Galaxy42

open Toolkit Program

namespace Capmodpp

/-! ### States and changes -/

/-- `cap_perm` -/
inductive CapPerm where
  | no
  | yes
  deriving DecidableEq, Repr

/-- `cap_area_type`, and the types `capng_type_t` of `libcap-ng`. -/
inductive CapArea where
  | eff
  | permit
  | inherit
  | bounding
  deriving DecidableEq, Repr

/-- `cap_state`. Each area has a bit for each capability, and these are the bits of one capability. -/
structure CapState where
  eff : CapPerm
  permit : CapPerm
  inherit : CapPerm
  bounding : CapPerm
  deriving DecidableEq, Repr

namespace CapState

/-- The bit of one area. -/
def get (cap : CapState) : CapArea → CapPerm
  | .eff => cap.eff
  | .permit => cap.permit
  | .inherit => cap.inherit
  | .bounding => cap.bounding

/-- Another bit in one area. -/
def put (cap : CapState) (area : CapArea) (perm : CapPerm) : CapState :=
  match area with
  | .eff => { cap with eff := perm }
  | .permit => { cap with permit := perm }
  | .inherit => { cap with inherit := perm }
  | .bounding => { cap with bounding := perm }

end CapState

/-- `cap_permchange` -/
inductive CapPermchange where
  | disable
  | enable
  | unchanged
  deriving DecidableEq, Repr

/-- `cap_statechange` -/
structure CapStatechange where
  eff : CapPermchange := .unchanged
  permit : CapPermchange := .unchanged
  inherit : CapPermchange := .unchanged
  bounding : CapPermchange := .unchanged
  deriving DecidableEq, Repr

/-- The constructor of `cap_statechange` with three values: the bounding set stays. -/
def CapStatechange.new (givenEff givenPermit givenInherit : CapPermchange) : CapStatechange where
  eff := givenEff
  permit := givenPermit
  inherit := givenInherit

/-- `apply_change_perm` -/
def applyChangePerm (perm : CapPerm) : CapPermchange → CapPerm
  | .enable => .yes
  | .disable => .no
  | .unchanged => perm

/-- `cap_state::apply_change` -/
def CapState.applyChange (cap : CapState) (change : CapStatechange) : CapState where
  eff := applyChangePerm cap.eff change.eff
  permit := applyChangePerm cap.permit change.permit
  inherit := applyChangePerm cap.inherit change.inherit
  bounding := applyChangePerm cap.bounding change.bounding

/-! ### The library -/

/-- What goes wrong in the wrappers and in the conversion of names. -/
inductive CapError where
  /-- `capmodpp_error` -/
  | capmodppError (msg : String)
  /-- `std::runtime_error` -/
  | runtimeError (msg : String)
  /-- `std::out_of_range` -/
  | outOfRange
  deriving DecidableEq, Repr

/-- The names by which the program asks for capabilities. -/
def namesUsed : List String :=
  ["NET_ADMIN", "NET_RAW", "SETUID", "SETGID", "SETPCAP", "CHOWN"]

/-- The constants of the system: `CAP_LAST_CAP`, and the table of the names. On another system they may be
others. -/
structure CapNumbers where
  /-- `CAP_LAST_CAP` -/
  lastCap : ℕ
  /-- `capng_name_to_capability` -/
  nameToCapability : String → Option ℕ
  /-- The names that are used are those of capabilities before the last one. -/
  exists_nameToCapability : ∀ name ∈ namesUsed, ∃ nr, nameToCapability name = some nr ∧ nr < lastCap

/-- The constants of a Linux system. -/
def CapNumbers.linux : CapNumbers where
  lastCap := 40
  nameToCapability
    | "CHOWN" => some 0
    | "SETGID" => some 6
    | "SETUID" => some 7
    | "SETPCAP" => some 8
    | "NET_ADMIN" => some 12
    | "NET_RAW" => some 13
    | _ => none
  exists_nameToCapability := by
    simp only [namesUsed, List.forall_mem_cons]
    exact ⟨⟨12, rfl, by decide⟩, ⟨13, rfl, by decide⟩, ⟨7, rfl, by decide⟩, ⟨6, rfl, by decide⟩,
      ⟨8, rfl, by decide⟩, ⟨0, rfl, by decide⟩, by simp⟩

/-- The capabilities of the process, and the copy that `libcap-ng` keeps. The code changes the copy only,
until it is applied. -/
structure CapNg where
  /-- What the process has. -/
  process : ℕ → CapState
  /-- What the library works on. -/
  staged : ℕ → CapState

/-- `capng_act_t` -/
inductive CapngAct where
  | drop
  | add
  deriving DecidableEq, Repr

/-- Code that may change capabilities. The copy is changed as the calls are made, so an exception may leave it
half changed. -/
abbrev CapProgram (α : Type) := Program CapError CapNg α

variable (sys : CapNumbers)

/-- `secure_capng_get_caps_process` -/
def secureCapngGetCapsProcess : CapProgram Unit :=
  modify fun s => { s with staged := s.process }

/-- `secure_capng_have_capability` -/
def secureCapngHaveCapability (which : CapArea) (capability : ℕ) : CapProgram ℕ := do
  let s ← get
  return if (s.staged capability).get which = .yes then 1 else 0

/-- `secure_capng_update`. The number is checked before the copy is changed. -/
def secureCapngUpdate (action : CapngAct) (type : CapArea) (capability : ℕ) : CapProgram Unit := do
  checkThat (capability ≤ sys.lastCap) (.capmodppError
    s!"Error: invalid input in secure_capng_update: capability={capability}.")
  modify fun s =>
    let perm := if action = .add then .yes else .no
    { s with
      staged := Function.update s.staged capability ((s.staged capability).put type perm) }

/-- `secure_capng_apply(CAPNG_SELECT_BOTH)`. Here the process gets all bits of the copy at once. -/
def secureCapngApplyBoth : CapProgram Unit :=
  modify fun s => { s with process := s.staged }

/-- `secure_capng_name_to_capability`. The length of the name is checked, and then the number that is found. -/
def secureCapngNameToCapability (name : String) : CapProgram ℕ := do
  checkThat (0 < name.length ∧ name.length ≤ 256) (.capmodppError
    (s!"Error: invalid input in secure_capng_name_to_capability(name had invalid length len=" ++
      s!"{name.length})."))
  match sys.nameToCapability name with
  | none => raise (.capmodppError s!"Error: FAILED in secure_capng_name_to_capability for name={name}.")
  | some nr =>
    checkThat (nr ≤ sys.lastCap) (.capmodppError
      s!"Error: BAD-VALUE in secure_capng_name_to_capability for name={name}.")
    return nr

/-- `cap_name_to_nr`, which refuses the last capability too. -/
def capNameToNr (name : String) : CapProgram ℕ := do
  let nr ← secureCapngNameToCapability sys name
  checkThat (¬ nr ≥ sys.lastCap) (.runtimeError
    s!"Can not convert cap name ({name}) to a valid cap number, got: {nr}")
  return nr

/-! ### Reading and changing the capabilities of the process -/

/-- `cap_state_map` -/
abbrev CapStateMap := Std.ExtTreeMap ℕ CapState

/-- One round of the loop of `read_process_caps`. -/
def readProcessCap (statemap : CapStateMap) (nr : ℕ) : CapProgram CapStateMap := do
  let eff ← secureCapngHaveCapability .eff nr
  let permit ← secureCapngHaveCapability .permit nr
  let inherit ← secureCapngHaveCapability .inherit nr
  let bounding ← secureCapngHaveCapability .bounding nr
  let toPerm := fun have_ : ℕ => if have_ > 0 then CapPerm.yes else .no
  return statemap.insertIfNew nr ⟨toPerm eff, toPerm permit, toPerm inherit, toPerm bounding⟩

/-- `read_process_caps`. The last capability is among those that are read. -/
def readProcessCaps : CapProgram CapStateMap := do
  secureCapngGetCapsProcess
  (List.range (sys.lastCap + 1)).foldlM readProcessCap ∅

/-- `cap_statechange_full`. A capability has the change that is given for it, or else the one for all others. -/
structure CapStatechangeFull where
  /-- The changes that are given for some capabilities. -/
  given : Std.ExtTreeMap ℕ CapStatechange := ∅
  /-- The change for all the others. -/
  allOthers : CapStatechange := {}

namespace CapStatechangeFull

/-- `set_all_others` -/
def setAllOthers (full : CapStatechangeFull) (change : CapStatechange) : CapStatechangeFull :=
  { full with allOthers := change }

/-- `set_given_cap`. A change that is there already stays. -/
def setGivenCap (full : CapStatechangeFull) (capname : String) (change : CapStatechange) :
    CapProgram CapStatechangeFull := do
  let nr ← capNameToNr sys capname
  return { full with given := full.given.insertIfNew nr change }

/-- The change for one capability: the one that is given for it, or the one for all the others. -/
def changeOf (full : CapStatechangeFull) (nr : ℕ) : CapStatechange :=
  full.given[nr]?.getD full.allOthers

/-- One area of a round of the loop over the differences. Only bits that differ are changed. -/
def applyArea (nr : ℕ) (capNew capOld : CapState) (area : CapArea) : CapProgram Unit :=
  if capNew.get area ≠ capOld.get area then
    secureCapngUpdate sys (if capNew.get area = .yes then .add else .drop) area nr
  else
    pure ()

/-- One round of the loop over the differences. -/
def applyDifference (stateOld : CapStateMap) (item : ℕ × CapState) : CapProgram Unit := do
  match stateOld[item.1]? with
  | none => raise .outOfRange
  | some capOld =>
    applyArea sys item.1 item.2 capOld .bounding
    applyArea sys item.1 item.2 capOld .permit
    applyArea sys item.1 item.2 capOld .eff
    applyArea sys item.1 item.2 capOld .inherit

/-- `security_apply_now`. The new states are computed from those the process has, and applied together at the
end. -/
def securityApplyNow (full : CapStatechangeFull) : CapProgram Unit := do
  let stateOld ← readProcessCaps sys
  let stateNew := stateOld.map fun nr cap =>
    match full.given[nr]? with
    | some change => cap.applyChange change
    | none => cap.applyChange full.allOthers
  secureCapngGetCapsProcess
  stateNew.toList.forM (applyDifference sys stateOld)
  secureCapngApplyBoth

end CapStatechangeFull

/-! ### What a change does -/

namespace CapState

private theorem get_put (cap : CapState) (area area' : CapArea) (perm : CapPerm) :
    (cap.put area perm).get area' = if area' = area then perm else cap.get area' := by
  cases area <;> cases area' <;> rfl

/-- Putting what is there. -/
private theorem put_get (cap : CapState) (area : CapArea) : cap.put area (cap.get area) = cap := by
  cases area <;> rfl

/-- The four areas are all there is. -/
theorem put_all (cap new : CapState) :
    (((cap.put .bounding (new.get .bounding)).put .permit (new.get .permit)).put .eff
      (new.get .eff)).put .inherit (new.get .inherit) = new :=
  rfl

end CapState

/-- The names that are used are found. -/
theorem exists_capNameToNr_eq_ok {name : String} (h : name ∈ namesUsed) (s : CapNg) :
    ∃ nr, capNameToNr sys name s = .ok nr s := by
  obtain ⟨nr, hnr, hlt⟩ := sys.exists_nameToCapability name h
  have hlength : ∀ name ∈ namesUsed, 0 < name.length ∧ name.length ≤ 256 := by decide
  refine ⟨nr, ?_⟩
  simp [capNameToNr, secureCapngNameToCapability, bind_apply, map_apply, checkThat_apply,
    hlength name h, hnr, Nat.le_of_lt hlt, hlt]

/-- A round of reading puts what the library has into the map. -/
theorem readProcessCap_apply (statemap : CapStateMap) (nr : ℕ) (s : CapNg) :
    readProcessCap statemap nr s = .ok (statemap.insertIfNew nr (s.staged nr)) s := by
  have hperm : ∀ perm : CapPerm,
      (if (if perm = .yes then 1 else 0) > 0 then CapPerm.yes else .no) = perm := by
    intro perm
    cases perm <;> rfl
  simp only [readProcessCap, secureCapngHaveCapability, bind_apply, get_apply, pure_apply, hperm]
  rfl

/-- Reading gives every capability of the process, and stages them. -/
theorem exists_readProcessCaps_eq_ok (s : CapNg) :
    ∃ statemap, readProcessCaps sys s = .ok statemap { s with staged := s.process } ∧
      ∀ nr, statemap[nr]? = if nr ≤ sys.lastCap then some (s.process nr) else none := by
  have hloop : ∀ n, ∃ statemap, (List.range n).foldlM readProcessCap ∅
      { s with staged := s.process } = .ok statemap { s with staged := s.process } ∧
        ∀ nr, statemap[nr]? = if nr < n then some (s.process nr) else none := by
    intro n
    induction n with
    | zero => exact ⟨∅, rfl, fun nr => by simp⟩
    | succ n ih =>
      obtain ⟨statemap, hrun, hget⟩ := ih
      refine ⟨statemap.insertIfNew n (s.process n), ?_, fun nr => ?_⟩
      · rw [List.range_succ, List.foldlM_append, bind_of_ok hrun, List.foldlM_cons,
          bind_of_ok (readProcessCap_apply _ _ _)]
        rfl
      · have hnew : n ∉ statemap := by
          rw [Std.ExtTreeMap.mem_iff_isSome_getElem?, hget, if_neg (Nat.lt_irrefl n)]
          simp
        rw [Std.ExtTreeMap.getElem?_insertIfNew, hget]
        by_cases hnr : n = nr
        · subst hnr
          simp [hnew]
        · have hcompare : compare n nr ≠ .eq := fun h => hnr (Std.LawfulEqCmp.eq_of_compare h)
          have hlt : nr < n + 1 ↔ nr < n := by omega
          simp [hcompare, hlt]
  obtain ⟨statemap, hrun, hget⟩ := hloop (sys.lastCap + 1)
  exact ⟨statemap, hrun, fun nr => by simp only [hget, Nat.lt_succ_iff]⟩

namespace CapStatechangeFull

variable {sys} {nr : ℕ} {capNew capOld : CapState} {s : CapNg}

/-- In one area the library gets the new bit, if it had the old one. So it makes no difference that areas
without a change are skipped. -/
theorem applyArea_apply (hnr : nr ≤ sys.lastCap) {area : CapArea}
    (hold : (s.staged nr).get area = capOld.get area) :
    applyArea sys nr capNew capOld area s = .ok ()
      { s with
        staged := Function.update s.staged nr ((s.staged nr).put area (capNew.get area)) } := by
  unfold applyArea
  split
  next hne =>
    have hperm : (if (if capNew.get area = .yes then CapngAct.add else .drop) = .add
        then CapPerm.yes else .no) = capNew.get area := by
      cases capNew.get area <;> rfl
    simp only [secureCapngUpdate, bind_apply, checkThat_apply, hnr, if_true, modify_apply, hperm]
  next heq =>
    -- nothing is to be done, and the bit is the new one already
    rw [← not_not.mp heq] at hold
    rw [← hold, CapState.put_get, Function.update_eq_self]
    rfl

/-- In one round the library gets the new state of a capability. -/
theorem applyDifference_apply {stateOld : CapStateMap} (hnr : nr ≤ sys.lastCap)
    (hold : stateOld[nr]? = some (s.staged nr)) :
    applyDifference sys stateOld (nr, capNew) s = .ok ()
      { s with staged := Function.update s.staged nr capNew } := by
  have hrun : ∀ {t : CapNg} {area : CapArea} {p : CapProgram Unit},
      (t.staged nr).get area = (s.staged nr).get area →
      (applyArea sys nr capNew (s.staged nr) area >>= fun _ => p) t =
        p { t with
          staged := Function.update t.staged nr ((t.staged nr).put area (capNew.get area)) } :=
    fun h => bind_of_ok (applyArea_apply hnr h)
  simp only [applyDifference, hold]
  rw [hrun rfl, hrun (by simp [CapState.get_put]), hrun (by simp [CapState.get_put]),
    applyArea_apply hnr (by simp [CapState.get_put])]
  simp only [Function.update_idem, Function.update_self, CapState.put_all]

/-- The rounds give the library the new states of all capabilities in the list, and of no others. -/
private theorem exists_forM_applyDifference_eq_ok {stateOld : CapStateMap} :
    ∀ (items : List (ℕ × CapState)) (s : CapNg), (items.map Prod.fst).Nodup →
      (∀ item ∈ items, item.1 ≤ sys.lastCap ∧ stateOld[item.1]? = some (s.staged item.1)) →
      ∃ s', items.forM (applyDifference sys stateOld) s = .ok () s' ∧ s'.process = s.process ∧
        (∀ item ∈ items, s'.staged item.1 = item.2) ∧
        ∀ nr, nr ∉ items.map Prod.fst → s'.staged nr = s.staged nr := by
  intro items
  induction items with
  | nil => exact fun s _ _ => ⟨s, rfl, rfl, fun _ h => absurd h List.not_mem_nil, fun _ _ => rfl⟩
  | cons item items ih =>
    obtain ⟨nr, capNew⟩ := item
    intro s hnodup hitems
    obtain ⟨hhead, htail⟩ := List.forall_mem_cons.mp hitems
    rw [List.map_cons, List.nodup_cons] at hnodup
    have hstep : applyDifference sys stateOld (nr, capNew) s = .ok ()
        { s with staged := Function.update s.staged nr capNew } :=
      applyDifference_apply hhead.1 hhead.2
    obtain ⟨s', hrun, hprocess, hnew, hframe⟩ :=
      ih { s with staged := Function.update s.staged nr capNew } hnodup.2 fun item hitem => by
        have hne : item.1 ≠ nr := fun heq => hnodup.1 (List.mem_map.mpr ⟨item, hitem, heq⟩)
        simpa [Function.update_of_ne hne] using htail item hitem
    refine ⟨s', (bind_of_ok hstep).trans hrun, hprocess, ?_, fun nr' hnr' => ?_⟩
    · rw [List.forall_mem_cons]
      refine ⟨?_, hnew⟩
      rw [hframe nr hnodup.1]
      exact Function.update_self _ _ _
    · rw [List.map_cons, List.mem_cons, not_or] at hnr'
      rw [hframe nr' hnr'.2]
      exact Function.update_of_ne hnr'.1 _ _

variable (sys) in
/-- `security_apply_now` does to each capability the change that is given for it, or else the change for
all the others. -/
theorem exists_securityApplyNow_eq_ok (full : CapStatechangeFull) (s : CapNg) :
    ∃ s', full.securityApplyNow sys s = .ok () s' ∧
      ∀ nr ≤ sys.lastCap, s'.process nr = (s.process nr).applyChange (full.changeOf nr) := by
  obtain ⟨stateOld, hread, hget⟩ := exists_readProcessCaps_eq_ok sys s
  let stateNew := stateOld.map fun nr cap =>
    match full.given[nr]? with
    | some change => cap.applyChange change
    | none => cap.applyChange full.allOthers
  have hnew : ∀ nr ≤ sys.lastCap,
      stateNew[nr]? = some ((s.process nr).applyChange (full.changeOf nr)) := by
    intro nr hnr
    rw [Std.ExtTreeMap.getElem?_map, hget, if_pos hnr, changeOf]
    cases full.given[nr]? <;> rfl
  have hmem : ∀ item ∈ stateNew.toList,
      item.1 ≤ sys.lastCap ∧ stateOld[item.1]? = some (s.process item.1) := by
    intro item hitem
    have hsome := Std.ExtTreeMap.mem_toList_iff_getElem?_eq_some.mp hitem
    rw [Std.ExtTreeMap.getElem?_map, hget] at hsome
    by_cases hle : item.1 ≤ sys.lastCap
    · exact ⟨hle, by rw [hget, if_pos hle]⟩
    · simp [hle] at hsome
  have hnodup : (stateNew.toList.map Prod.fst).Nodup := by
    refine List.pairwise_map.mpr (stateNew.distinct_keys_toList.imp fun hne heq => hne ?_)
    rw [heq]
    exact Std.ReflCmp.compare_self
  obtain ⟨s₁, hloop, -, hstaged, -⟩ := exists_forM_applyDifference_eq_ok stateNew.toList
    { s with staged := s.process } hnodup hmem
  refine ⟨{ s₁ with process := s₁.staged }, ?_, fun nr hnr => ?_⟩
  · exact (bind_of_ok hread).trans ((bind_of_ok rfl).trans ((bind_of_ok hloop).trans rfl))
  · exact hstaged (nr, _) (Std.ExtTreeMap.mem_toList_iff_getElem?_eq_some.mpr (hnew nr hnr))

end CapStatechangeFull

end Capmodpp

end Galaxy42
