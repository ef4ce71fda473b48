import Galaxy42.Utils.Capmodpp

/-!
# Dropping privileges

The program gives up its capabilities in three steps: at its start, behind the setup of the tunnel
device, and before its main loop. Each step is a change of capabilities in which nothing is enabled, so
none of them raises a bit of a capability (`within_run`), whatever the order of the steps, and also if
one of them ends in an error. The last step disables everything (`cleared_dropPrivilegesBeforeMainloop`).

The bounding set is never changed. What `getuid` and `geteuid` give is an argument of the first step.

A change is made of a change for each of the four areas, and to lower (`Lowers`) is a property of the change
alone: that none of them is to enable. That no bit is raised follows for all capabilities at once from what
`security_apply_now` does, and then for a step from the change that it makes. The first step fails for a program
that was started with the rights of another user. That is before it has applied anything, and what comes
then goes on from the capabilities as they were (`capsAfter`).

`drop_privileges` puts this together for any sequence of calls, from any capabilities: all states on the way are
within those before, and behind the last step there is nothing left.
-/

namespace Galaxy42

open Toolkit Program Capmodpp

namespace MyCap

variable (sys : CapNumbers)

/-! ### The steps -/

/-- `security_apply_cap_change`, with the two reports on the capabilities. -/
def securityApplyCapChange (change : CapStatechangeFull) : CapProgram Unit := do
  let _ ← readProcessCaps sys
  change.securityApplyNow sys
  let _ ← readProcessCaps sys

/-- `do_we_need_to_change_uid_or_gid` -/
def doWeNeedToChangeUidOrGid (uid euid : ℕ) : CapProgram Bool := do
  assertThat (uid = euid)
  return decide (euid = 0 ∨ uid = 0)

/-- Disables a capability, except for the bounding set. -/
def disabled : CapStatechange := .new .disable .disable .disable

/-- Leaves a capability as it is. -/
def unchanged : CapStatechange := .new .unchanged .unchanged .unchanged

/-- Gives one change for several capabilities. -/
def setGivenCaps (change : CapStatechangeFull) (capnames : List String) (value : CapStatechange) :
    CapProgram CapStatechangeFull :=
  capnames.foldlM (fun change capname => change.setGivenCap sys capname value) change

/-- `drop_privileges_on_startup` -/
def dropPrivilegesOnStartup (uid euid : ℕ) : CapProgram Unit := do
  let change := ({} : CapStatechangeFull).setAllOthers disabled
  let change ← setGivenCaps sys change ["NET_ADMIN", "NET_RAW"] unchanged
  if ← doWeNeedToChangeUidOrGid uid euid then
    let change ← setGivenCaps sys change ["SETUID", "SETGID", "SETPCAP", "CHOWN"] unchanged
    securityApplyCapChange sys change
  else
    securityApplyCapChange sys change

/-- `drop_privileges_after_tuntap` -/
def dropPrivilegesAfterTuntap : CapProgram Unit := do
  let change := ({} : CapStatechangeFull).setAllOthers unchanged
  let change ← setGivenCaps sys change ["NET_ADMIN", "NET_RAW"] disabled
  securityApplyCapChange sys change

/-- `drop_privileges_before_mainloop` -/
def dropPrivilegesBeforeMainloop : CapProgram Unit :=
  securityApplyCapChange sys (({} : CapStatechangeFull).setAllOthers disabled)

/-- The calls by which privileges are dropped. -/
inductive DropCall where
  | onStartup (uid euid : ℕ)
  | afterTuntap
  | beforeMainloop

/-- What a call does. -/
def DropCall.run : DropCall → CapProgram Unit
  | onStartup uid euid => dropPrivilegesOnStartup sys uid euid
  | afterTuntap => dropPrivilegesAfterTuntap sys
  | beforeMainloop => dropPrivilegesBeforeMainloop sys

/-- The capabilities after some calls, however each of them ends. -/
def capsAfter (s : CapNg) (calls : List DropCall) : CapNg :=
  calls.foldl (fun s call => finalState (call.run sys) s) s

/-! ### Bits that are not raised -/

/-- The areas that a capability is used in. -/
def usableAreas : List CapArea := [.eff, .permit, .inherit]

/-- No bit of the capability is set that was not set before. -/
def Within (before after : CapState) : Prop :=
  ∀ area ∈ usableAreas, after.get area = .yes → before.get area = .yes

/-- No bit of any capability is set that was not set before. The bounding set is left out, which is not
changed. -/
def AllWithin (before after : CapNg) : Prop :=
  ∀ nr ≤ sys.lastCap, Within (before.process nr) (after.process nr)

/-- All three bits are cleared. They are the effective, the permitted and the inheritable one. -/
def Cleared (cap : CapState) : Prop :=
  ∀ area ∈ usableAreas, cap.get area = .no

/-- Nothing is enabled. -/
def Lowers (change : CapStatechange) : Prop :=
  change.eff ≠ .enable ∧ change.permit ≠ .enable ∧ change.inherit ≠ .enable

private theorem Within.refl (cap : CapState) : Within cap cap := fun _ _ h => h

private theorem Within.trans {cap₁ cap₂ cap₃ : CapState} (h : Within cap₁ cap₂) (h' : Within cap₂ cap₃) :
    Within cap₁ cap₃ := fun area harea hset => h area harea (h' area harea hset)

private theorem lowers_disabled : Lowers disabled := ⟨nofun, nofun, nofun⟩

private theorem lowers_unchanged : Lowers unchanged := ⟨nofun, nofun, nofun⟩

/-- A bit that is not enabled is not raised. -/
private theorem applyChangePerm_eq_yes {perm : CapPerm} {change : CapPermchange} (hne : change ≠ .enable)
    (h : applyChangePerm perm change = .yes) : perm = .yes := by
  cases change with
  | disable => exact nomatch h
  | enable => exact absurd rfl hne
  | unchanged => exact h

private theorem within_applyChange (cap : CapState) {change : CapStatechange} (h : Lowers change) :
    Within cap (cap.applyChange change) := by
  obtain ⟨heff, hpermit, hinherit⟩ := h
  intro area harea hset
  cases area with
  | eff => exact applyChangePerm_eq_yes heff hset
  | permit => exact applyChangePerm_eq_yes hpermit hset
  | inherit => exact applyChangePerm_eq_yes hinherit hset
  | bounding => exact absurd harea (by decide)

private theorem cleared_applyChange_disabled (cap : CapState) : Cleared (cap.applyChange disabled) := by
  intro area harea
  cases area with
  | eff => rfl
  | permit => rfl
  | inherit => rfl
  | bounding => exact absurd harea (by decide)

/-! ### What the steps do -/

/-- With its reports, applying a change does to each capability what the change says. -/
theorem exists_securityApplyCapChange_eq_ok (change : CapStatechangeFull) (s : CapNg) :
    ∃ s', securityApplyCapChange sys change s = .ok () s' ∧
      ∀ nr ≤ sys.lastCap, s'.process nr = (s.process nr).applyChange (change.changeOf nr) := by
  obtain ⟨before, hbefore, -⟩ := exists_readProcessCaps_eq_ok sys s
  obtain ⟨s₁, happly, hprocess⟩ :=
    change.exists_securityApplyNow_eq_ok sys { s with staged := s.process }
  obtain ⟨after, hafter, -⟩ := exists_readProcessCaps_eq_ok sys s₁
  refine ⟨{ s₁ with staged := s₁.process }, ?_, hprocess⟩
  exact (bind_of_ok hbefore).trans ((bind_of_ok happly).trans ((bind_of_ok hafter).trans rfl))

/-- A change in which nothing is enabled. -/
def LowersAll (change : CapStatechangeFull) : Prop :=
  ∀ nr, Lowers (change.changeOf nr)

/-- Applying it raises no bit. -/
private theorem allWithin_securityApplyCapChange {change : CapStatechangeFull} (h : LowersAll change)
    (s : CapNg) : AllWithin sys s (finalState (securityApplyCapChange sys change) s) := by
  obtain ⟨s', hrun, hprocess⟩ := exists_securityApplyCapChange_eq_ok sys change s
  rw [finalState_of_ok hrun]
  intro nr hnr
  rw [hprocess nr hnr]
  exact within_applyChange _ (h nr)

/-- A change for all the others that enables nothing. -/
private theorem lowersAll_setAllOthers {value : CapStatechange} (h : Lowers value) :
    LowersAll (({} : CapStatechangeFull).setAllOthers value) := by
  intro nr
  simpa [CapStatechangeFull.changeOf, CapStatechangeFull.setAllOthers] using h

/-- The names that are used are found, and giving a change for them enables nothing new. -/
private theorem exists_setGivenCaps_eq_ok {capnames : List String}
    (hnames : ∀ name ∈ capnames, name ∈ namesUsed)
    {value : CapStatechange} (hvalue : Lowers value) {change : CapStatechangeFull}
    (h : LowersAll change) (s : CapNg) :
    ∃ change', setGivenCaps sys change capnames value s = .ok change' s ∧ LowersAll change' := by
  induction capnames generalizing change with
  | nil => exact ⟨change, rfl, h⟩
  | cons capname capnames ih =>
    obtain ⟨hname, hnames⟩ := List.forall_mem_cons.mp hnames
    obtain ⟨nr, hnr⟩ := exists_capNameToNr_eq_ok sys hname s
    have hset : change.setGivenCap sys capname value s =
        .ok { change with given := change.given.insertIfNew nr value } s := bind_of_ok hnr
    have hlowers : LowersAll { change with given := change.given.insertIfNew nr value } := by
      intro nr'
      rw [CapStatechangeFull.changeOf, Std.ExtTreeMap.getElem?_insertIfNew]
      split
      · exact hvalue
      · exact h nr'
    obtain ⟨change', hrun, hlowers'⟩ := ih hnames hlowers
    refine ⟨change', ?_, hlowers'⟩
    rw [setGivenCaps, List.foldlM_cons]
    exact (bind_of_ok hset).trans hrun

/-- Each call raises no bit and returns, unless the program was started with the rights of another user:
then the process ends, with the capabilities it had. -/
theorem run_cases (call : DropCall) (s : CapNg) :
    (∃ s', call.run sys s = .ok () s' ∧ AllWithin sys s s') ∨
    ∃ uid euid, call = .onStartup uid euid ∧ uid ≠ euid ∧ call.run sys s = .error .abort s := by
  have happly : ∀ {change : CapStatechangeFull}, LowersAll change →
      ∃ s', securityApplyCapChange sys change s = .ok () s' ∧ AllWithin sys s s' := by
    intro change hchange
    have hwithin := allWithin_securityApplyCapChange sys hchange s
    obtain ⟨s', hrun, -⟩ := exists_securityApplyCapChange_eq_ok sys change s
    rw [finalState_of_ok hrun] at hwithin
    exact ⟨s', hrun, hwithin⟩
  cases call with
  | onStartup uid euid =>
    obtain ⟨change, hset, hlowers⟩ := exists_setGivenCaps_eq_ok sys
      (show ∀ name ∈ ["NET_ADMIN", "NET_RAW"], name ∈ namesUsed by decide) lowers_unchanged
      (lowersAll_setAllOthers lowers_disabled) s
    by_cases huid : uid = euid
    · have hask : doWeNeedToChangeUidOrGid uid euid s = .ok (decide (euid = 0 ∨ uid = 0)) s := by
        simp [doWeNeedToChangeUidOrGid, map_apply, assertThat_apply, huid]
      refine .inl ?_
      by_cases hroot : euid = 0 ∨ uid = 0
      · -- the rights that are needed to become another user stay too
        obtain ⟨change', hset', hlowers'⟩ := exists_setGivenCaps_eq_ok sys
          (show ∀ name ∈ ["SETUID", "SETGID", "SETPCAP", "CHOWN"], name ∈ namesUsed by decide)
          lowers_unchanged hlowers s
        obtain ⟨s', hrun, hwithin⟩ := happly hlowers'
        refine ⟨s', (bind_of_ok hset).trans ((bind_of_ok hask).trans ?_), hwithin⟩
        rw [if_pos (decide_eq_true hroot)]
        exact (bind_of_ok hset').trans hrun
      · obtain ⟨s', hrun, hwithin⟩ := happly hlowers
        refine ⟨s', (bind_of_ok hset).trans ((bind_of_ok hask).trans ?_), hwithin⟩
        rw [if_neg (by simpa using hroot)]
        exact hrun
    -- The assertion is reached before any change is applied.
    · have hask : doWeNeedToChangeUidOrGid uid euid s = .error .abort s :=
        bind_of_error (by rw [assertThat_apply, if_neg huid])
      exact .inr ⟨uid, euid, rfl, huid, (bind_of_ok hset).trans (bind_of_error hask)⟩
  | afterTuntap =>
    obtain ⟨change, hset, hlowers⟩ := exists_setGivenCaps_eq_ok sys
      (show ∀ name ∈ ["NET_ADMIN", "NET_RAW"], name ∈ namesUsed by decide) lowers_disabled
      (lowersAll_setAllOthers lowers_unchanged) s
    obtain ⟨s', hrun, hwithin⟩ := happly hlowers
    exact .inl ⟨s', (bind_of_ok hset).trans hrun, hwithin⟩
  | beforeMainloop => exact .inl (happly (lowersAll_setAllOthers lowers_disabled))

/-- No call raises a bit, however it ends. It either returns, or ends before anything was applied. -/
theorem within_run (call : DropCall) (s : CapNg) :
    AllWithin sys s (finalState (call.run sys) s) := by
  rcases run_cases sys call s with ⟨s', hrun, hwithin⟩ | ⟨uid, euid, -, -, hrun⟩
  · rwa [finalState_of_ok hrun]
  · rw [finalState_of_error hrun]
    exact fun nr _ => Within.refl _

/-- The last step clears everything. -/
theorem cleared_dropPrivilegesBeforeMainloop (s : CapNg) :
    ∃ s', dropPrivilegesBeforeMainloop sys s = .ok () s' ∧
      ∀ nr ≤ sys.lastCap, Cleared (s'.process nr) := by
  obtain ⟨s', hrun, hprocess⟩ := exists_securityApplyCapChange_eq_ok sys
    (({} : CapStatechangeFull).setAllOthers disabled) s
  refine ⟨s', hrun, fun nr hnr => ?_⟩
  rw [hprocess nr hnr]
  simpa [CapStatechangeFull.changeOf, CapStatechangeFull.setAllOthers] using
    cleared_applyChange_disabled (s.process nr)

/-! ### Runs -/

private theorem capsAfter_append (s : CapNg) (calls calls' : List DropCall) :
    capsAfter sys s (calls ++ calls') = capsAfter sys (capsAfter sys s calls) calls' :=
  List.foldl_append

/-- Whatever capabilities the process has, and in whatever order the calls come: from the start of the run on
no bit is ever raised, and after the last call all of them are cleared. Applying a change does to each
capability the change that is given for it, or the one for all the others. The calls may fail, and then the
next ones are made all the same. -/
theorem drop_privileges (sys : CapNumbers) (s : CapNg) (calls : List DropCall) :
    (∀ i j, i ≤ j → AllWithin sys
      (capsAfter sys s ((calls ++ [DropCall.beforeMainloop]).take i))
      (capsAfter sys s ((calls ++ [DropCall.beforeMainloop]).take j))) ∧
    (∀ nr ≤ sys.lastCap,
      Cleared ((capsAfter sys s (calls ++ [.beforeMainloop])).process nr)) ∧
    ∀ (change : CapStatechangeFull) (s : CapNg), ∃ s', change.securityApplyNow sys s = .ok () s' ∧
      ∀ nr ≤ sys.lastCap, s'.process nr = (s.process nr).applyChange (change.changeOf nr) := by
  refine ⟨fun i j hij => ?_, ?_, fun change s => change.exists_securityApplyNow_eq_ok sys s⟩
  · -- by induction on the calls between the two places
    generalize calls ++ [DropCall.beforeMainloop] = calls
    have hrest : ∀ (rest : List DropCall) (s : CapNg), AllWithin sys s (capsAfter sys s rest) := by
      intro rest
      induction rest with
      | nil => exact fun s nr _ => Within.refl _
      | cons call rest ih =>
        exact fun s nr hnr => (within_run sys call s nr hnr).trans (ih _ nr hnr)
    have htake : calls.take j = calls.take i ++ (calls.take j).drop i := by
      have hsplit := List.take_append_drop i (calls.take j)
      rwa [List.take_take, Nat.min_eq_left hij, eq_comm] at hsplit
    rw [htake, capsAfter_append]
    exact hrest _ _
  · rw [capsAfter_append]
    obtain ⟨s', hrun, hcleared⟩ :=
      cleared_dropPrivilegesBeforeMainloop sys (capsAfter sys s calls)
    have hlast : capsAfter sys (capsAfter sys s calls) [.beforeMainloop] = s' :=
      finalState_of_ok hrun
    rwa [hlast]

end MyCap

end Galaxy42
