import Galaxy42.Lib.Steps
import Galaxy42.Tunserver.Runs

/-!
# Peers that have not been heard of

Each peer has the time when it was last heard of: when it was put into the table, or when its key came
again. From time to time the loop greets all peers, and before that it removes those that it has not heard
of for longer than the time-out, counted in whole seconds.

Times are readings of the steady clock in nanoseconds, and each step of a run says what it reads. A node that
has no peers at first lists a peer exactly when the peer was heard of at some time of the run, was not
deleted since, and no check since has found that time too long ago (`mem_peer_iff_of_run`). A check that
comes when no greeting is due removes nobody. Still, who is listed after a check was heard of lately: the
time-out, the time between two greetings and the time that greeting takes bound how long ago that was
(`heard_lately_of_run`).

The node is the one of the other modules, with the times next to it (`TimedNode`), and its events are the
same; so who is heard of in an event can be said of the event and the state before it (`heard`), without
looking into the handlers. The steps of the loop are those of the sources: it is entered and greets all peers,
in a round it looks whether they should be greeted again, and between that it handles events.

What is characterised is the table of peers, at every time, by the history of the run (`HeardAt`): a step
spares a peer that was heard of at some time (`Spares`), and to be listed is to have been heard of and spared
since. One step does this for the table before and after it (`mem_peer_step_iff`), and an induction for the
whole run. Seconds are cut off toward zero, as the conversion of the clock does it.
-/

namespace Galaxy42

open Toolkit Program Tunserver

/-! ### Who is heard of -/

namespace Tunserver

/-- Whom `add_peer_append_pubkey` notes as heard of: a peer of the table, or a new one that is not banned. -/
def heardWithKey (lib : CryptoLib) (node : Tunserver) (peerRef : PeeringReference) (pubkey : HashipPubkey) :
    Option HashipAddr :=
  if HasHip lib pubkey peerRef.hashipAddr ∧
      (peerRef.hashipAddr ∈ node.peer ∨ peerRef.hashipAddr ∉ node.peerBlackList) then
    some peerRef.hashipAddr
  else
    none

/-- The peer whose `m_last_ping_time` is set in an event: by its constructor, or by
`update_last_ping_time`. -/
def heard (lib : CryptoLib) (node : Tunserver) : Event → Option HashipAddr
  | .op (.addPeer peerRef) => if peerRef.hashipAddr ∈ node.peer then none else some peerRef.hashipAddr
  | .op (.addPeerAppendPubkey peerRef pubkey) => node.heardWithKey lib peerRef pubkey
  | .datagram senderPip buf =>
    (greeting lib node senderPip buf).bind fun (peerRef, pubkey) => node.heardWithKey lib peerRef pubkey
  | _ => none

end Tunserver

section Heard

variable {lib : CryptoLib} {node : Tunserver} {event : Event} {hip : HashipAddr}

private theorem heardWithKey_eq_some_iff {peerRef : PeeringReference} {pubkey : HashipPubkey} :
    node.heardWithKey lib peerRef pubkey = some hip ↔
      (HasHip lib pubkey peerRef.hashipAddr ∧
        (peerRef.hashipAddr ∈ node.peer ∨ peerRef.hashipAddr ∉ node.peerBlackList)) ∧
        peerRef.hashipAddr = hip := by
  rw [heardWithKey]
  split
  next h => simp [h]
  next h => simp [h]

/-- Who is put into the table is heard of. -/
private theorem heard_of_puts {peering : Peering} (h : node.Puts lib event hip peering) :
    node.heard lib event = some hip := by
  cases h with
  | add hnew => exact if_neg hnew
  | append hhip hmet => exact heardWithKey_eq_some_iff.mpr ⟨⟨hhip, hmet.allowed⟩, rfl⟩
  | greeting hgreeting hhip hmet =>
    rw [heard, hgreeting]
    exact heardWithKey_eq_some_iff.mpr ⟨⟨hhip, hmet.allowed⟩, rfl⟩

/-- Nobody is removed when someone is heard of. -/
private theorem removes_of_heard (h : node.heard lib event = some hip) (hip' : HashipAddr) :
    event.removes hip' = false := by
  cases event with
  | op tableOp =>
    cases tableOp with
    | addPeer | addPeerAppendPubkey => rfl
    | _ => cases h
  | datagram => rfl
  | _ => cases h

private theorem mem_putPeer {hip' : HashipAddr} {peering : Peering} :
    hip' ∈ (node.putPeer hip peering).peer ↔ hip' = hip ∨ hip' ∈ node.peer := by
  rw [putPeer, Std.ExtTreeMap.mem_insert, Std.LawfulEqCmp.compare_eq_iff_eq, eq_comm]

/-- A peer that is noted as heard of is in the table then. -/
private theorem mem_peer_of_heardWithKey {peerRef : PeeringReference} {pubkey : HashipPubkey}
    (h : node.heardWithKey lib peerRef pubkey = some hip) :
    hip ∈ (finalState (addPeerAppendPubkey lib peerRef pubkey) node).peer := by
  obtain ⟨⟨hhip, hallowed⟩, rfl⟩ := heardWithKey_eq_some_iff.mp h
  obtain hsame | ⟨-, peering, -, hput⟩ := @finalState_addPeerAppendPubkey lib peerRef pubkey node
  · rw [hsame]
    refine hallowed.elim id fun hbanned => ?_
    -- A new peer that is not banned is put into the table, so the node is not the same.
    by_contra hnew
    have hnone : node.peer[peerRef.hashipAddr]? = none := Std.ExtTreeMap.getElem?_eq_none hnew
    let node' := node.putPeer peerRef.hashipAddr ((Peering.new peerRef).setPubkey pubkey)
    have happend : appendPubkey peerRef pubkey node = .ok () node' := by
      rw [appendPubkey, bind_of_ok (get_apply node), hnone]
      dsimp only
      rw [if_pos hbanned, insertIfNew_of_not_mem _ _ hnew]
      rfl
    have hmem : peerRef.hashipAddr ∈ node'.peer := mem_putPeer.mpr (.inl rfl)
    have hshow : finalState (showPeer peerRef.hashipAddr) node' = node' := by
      rw [showPeer, finalState_bind_of_ok (get_apply node')]
      split
      · exact Preserves.checkThat (I := fun node₁ => node₁ = node') _ _ node' rfl
      · rfl
    rw [finalState_congr (addPeerAppendPubkey_of_hasHip hhip), finalState_bind_of_ok happend, hshow] at hsame
    rw [hsame] at hmem
    exact hnew hmem
  · rw [hput]
    exact mem_putPeer.mpr (.inl rfl)

/-- The same of an event. -/
private theorem mem_peer_of_heard (h : node.heard lib event = some hip) :
    hip ∈ (finalState (event.run lib) node).peer := by
  rw [finalState_run]
  cases event with
  | op tableOp =>
    cases tableOp with
    | addPeer peerRef =>
      rw [heard] at h
      split at h
      · cases h
      next hnew =>
        obtain rfl := Option.some.inj h
        rw [Event.handle, TableOp.run, finalState_discard, finalState_addPeer, if_neg hnew]
        exact mem_putPeer.mpr (.inl rfl)
    | addPeerAppendPubkey peerRef pubkey => exact mem_peer_of_heardWithKey h
    | _ => cases h
  | datagram senderPip buf =>
    obtain ⟨⟨peerRef, pubkey⟩, hgreeting, hkey⟩ := Option.bind_eq_some_iff.mp h
    obtain ⟨binHisIDIPub, hstate⟩ := finalState_handleDatagram_of_greeting hgreeting
    rw [Event.handle, hstate]
    -- The tunnel that is set up afterwards does not touch the table.
    let I : Tunserver → Prop := fun node' => hip ∈ node'.peer
    have hI : I (finalState (addPeerAppendPubkey lib peerRef pubkey) node) := mem_peer_of_heardWithKey hkey
    refine Preserves.finalState_bind (I := I) hI fun _ => .get_bind fun node₁ hmem => ?_
    refine Preserves.bind (preserves_multikeysOfBin _) (fun hisPubkey node₂ hmem => ?_) node₁ hmem
    obtain ⟨tunnel, draws, hstate⟩ :=
      finalState_addTunnelToPubkey lib (hisPubkey.setIpv6Prefix node₁.ipv6Prefix) node₂
    rw [hstate]
    exact hmem
  | _ => cases h

/-- The peers after an event. -/
theorem mem_peer_run_iff : hip ∈ (finalState (event.run lib) node).peer ↔
    node.heard lib event = some hip ∨ hip ∈ node.peer ∧ event.removes hip = false := by
  by_cases hremoves : ∃ hip', event.removes hip' = true
  · obtain ⟨hip', hremoved⟩ := hremoves
    have hheard : node.heard lib event ≠ some hip := fun h =>
      absurd (removes_of_heard h hip') (by rw [hremoved]; decide)
    rw [(tables_of_removes hremoved).1, Std.ExtTreeMap.mem_iff_isSome_getElem?, getElem?_removePeers]
    cases hhip : event.removes hip with
    | false => simp [hheard]
    | true => simp [hheard]
  · have hnone : ∀ hip', event.removes hip' = false := by simpa using hremoves
    constructor
    · let I : Tunserver → Prop := fun node' =>
        ∀ hip' ∈ node'.peer, node.heard lib event = some hip' ∨ hip' ∈ node.peer
      have hclosed : Closed I := .of_tables fun _ _ hpeer _ h hip' hmem => h hip' (by rwa [← hpeer])
      have hI : I (finalState (event.run lib) node) := by
        refine hclosed.run (fun _ hmem => .inr hmem) ⟨fun _ _ _ _ hmem => .inr hmem,
          fun hip₁ peering hput hip' hmem => ?_, fun ⟨hip₁, _, htrue⟩ => ?_⟩
        · obtain rfl | hmem := mem_putPeer.mp hmem
          · exact .inl (heard_of_puts hput)
          · exact .inr hmem
        · rw [hnone hip₁] at htrue
          cases htrue
      exact fun hmem => (hI hip hmem).imp id fun h => ⟨h, hnone hip⟩
    · rintro (h | ⟨hmem, -⟩)
      · exact mem_peer_of_heard h
      · have hclosed : Closed fun node' : Tunserver => hip ∈ node'.peer :=
          .of_tables fun _ _ hpeer _ hmem => by rwa [hpeer]
        refine hclosed.run hmem ⟨fun _ _ _ => hmem, fun _ _ _ => mem_putPeer.mpr (.inr hmem),
          fun ⟨hip₁, _, htrue⟩ => ?_⟩
        rw [hnone hip₁] at htrue
        cases htrue

end Heard

/-! ### The loop and its clock -/

/-- A second, in nanoseconds. -/
def second : ℤ := 1000000000

/-- `duration_cast` to seconds, which rounds toward zero. -/
def inSeconds (duration : ℤ) : ℤ := duration.tdiv second

/-- What a node is told about greeting its peers and about removing them. -/
structure PingConfig where
  /-- `enable_remove` -/
  enableRemove : Bool
  /-- `peer_timeout`, in seconds -/
  peerTimeout : ℕ
  /-- The option `net-hello-interval`, in seconds. -/
  netHelloInterval : ℤ
  /-- `m_IDI_IDC_sig` -/
  IDIIDCSig : Multisign

/-- `ping_all_frequency_low` for the first few times, and then `ping_all_frequency`. -/
def PingConfig.freq (config : PingConfig) (pingAllCount : ℕ) : ℤ :=
  if pingAllCount < 2 then second else config.netHelloInterval * second

/-- A node, with the times that it keeps. -/
structure TimedNode where
  node : Tunserver
  /-- `m_last_ping_time` of the peer of an address -/
  lastPingTime : HashipAddr → ℤ
  /-- `ping_all_time_last`, when the loop is entered -/
  pingAllTimeLast : Option ℤ
  /-- `ping_all_count` -/
  pingAllCount : ℕ
  /-- What the clock showed when it was last read. -/
  clock : ℤ

/-- A step, with the times that are read in it. -/
inductive LoopStep where
  /-- `event_loop` is entered, and greets all peers. -/
  | enter (now after : ℤ)
  /-- A round of the loop, at `timeNow`, looks whether all peers should be greeted again. -/
  | check (timeNow now after : ℤ)
  /-- Something else happens to the node. -/
  | event (now : ℤ) (event : Event)

namespace TimedNode

variable (lib : CryptoLib) (config : PingConfig) (s : TimedNode)

/-- It is time to greet all peers again. -/
def Due (timeNow : ℤ) : Prop :=
  ∃ last ∈ s.pingAllTimeLast, timeNow > last + config.freq s.pingAllCount

/-- All peers are greeted: who has not been heard of for too long is removed. -/
def pingAll (now : ℤ) : Event :=
  .ping config.enableRemove (fun hip => inSeconds (now - s.lastPingTime hip) > config.peerTimeout)
    config.IDIIDCSig

/-- The time of who is heard of. -/
def heardTimes (now : ℤ) (event : Event) (hip : HashipAddr) : ℤ :=
  if s.node.heard lib event = some hip then now else s.lastPingTime hip

/-- The steps that a node takes. An exception is let through when the loop is entered, and later it is
caught; then the greeting does not count. -/
inductive Stepped (s : TimedNode) : LoopStep → TimedNode → Prop
  | enter {now after : ℤ} {node : Tunserver} (hnow : s.clock ≤ now) (hafter : now ≤ after)
      (hrun : (s.pingAll config now).handle lib s.node = .ok () node) :
      Stepped s (.enter now after)
        { s with node, pingAllTimeLast := some after, pingAllCount := 0, clock := after }
  | greeted {timeNow now after : ℤ} {node : Tunserver} (htime : s.clock ≤ timeNow) (hnow : timeNow ≤ now)
      (hafter : now ≤ after) (hdue : s.Due config timeNow)
      (hrun : (s.pingAll config now).handle lib s.node = .ok () node) :
      Stepped s (.check timeNow now after)
        { s with node, pingAllTimeLast := some after, pingAllCount := s.pingAllCount + 1, clock := after }
  | thrown {timeNow now after : ℤ} {node : Tunserver} {e : Exn} (htime : s.clock ≤ timeNow)
      (hnow : timeNow ≤ now) (hafter : now ≤ after) (hdue : s.Due config timeNow)
      (hrun : (s.pingAll config now).handle lib s.node = .error (.throw e) node) :
      Stepped s (.check timeNow now after) { s with node, clock := after }
  | early {timeNow now after : ℤ} {last : ℤ} (hlast : s.pingAllTimeLast = some last)
      (htime : s.clock ≤ timeNow) (hdue : ¬ s.Due config timeNow) :
      Stepped s (.check timeNow now after) { s with clock := timeNow }
  | event {now : ℤ} {event : Event} {node : Tunserver} (hnow : s.clock ≤ now)
      (hping : ∀ enableRemove timedOut sig, event ≠ .ping enableRemove timedOut sig)
      (hrun : event.run lib s.node = .ok () node) :
      Stepped s (.event now event) { s with node, lastPingTime := s.heardTimes lib now event, clock := now }

/-- When a step looks for peers to remove, if it does. -/
inductive LooksAt (s : TimedNode) : LoopStep → ℤ → Prop
  | enter (now after : ℤ) : LooksAt s (.enter now after) now
  | check {timeNow : ℤ} (now after : ℤ) (hdue : s.Due config timeNow) : LooksAt s (.check timeNow now after) now

/-- A step does not remove a peer that was heard of at this time. It looks for peers to remove only when it
greets all of them, and then those it has not heard of for too long go. -/
structure Spares (hip : HashipAddr) (t : ℤ) (step : LoopStep) : Prop where
  event : ∀ now event, step = .event now event → event.removes hip = false
  looksAt : ∀ now, s.LooksAt config step now → config.enableRemove = true →
    inSeconds (now - t) ≤ config.peerTimeout

end TimedNode

/-- The peer was heard of at this time of a run, and was spared since. A peer may have been heard of at
several times. -/
def HeardAt (lib : CryptoLib) (config : PingConfig) (trace : List (TimedNode × LoopStep)) (hip : HashipAddr)
    (t : ℤ) : Prop :=
  ∃ before s event after, trace = before ++ (s, LoopStep.event t event) :: after ∧
    s.node.heard lib event = some hip ∧ ∀ p ∈ after, p.1.Spares config hip t p.2

/-! ### One step -/

section Step

variable {lib : CryptoLib} {config : PingConfig} {s s' : TimedNode} {step : LoopStep} {hip : HashipAddr}

private theorem inSeconds_le_iff {duration : ℤ} {n : ℕ} :
    inSeconds duration ≤ n ↔ duration < (n + 1) * second := by
  rw [inSeconds, second]
  rcases lt_or_ge duration 0 with h | h
  · have hneg : duration.tdiv 1000000000 ≤ (0 : ℤ).tdiv 1000000000 := Int.tdiv_le_tdiv (by omega) h.le
    rw [Int.zero_tdiv] at hneg
    omega
  · rw [Int.tdiv_eq_ediv_of_nonneg h]
    omega

/-- What a step that looks for peers to remove spares. -/
private theorem spares_iff_of_looksAt {now t : ℤ} (h : s.LooksAt config step now) :
    s.Spares config hip t step ↔
      (config.enableRemove = true → inSeconds (now - t) ≤ config.peerTimeout) := by
  refine ⟨fun hspares => hspares.looksAt now h, fun hle => ⟨?_, ?_⟩⟩
  · rintro now' event rfl
    cases h
  · intro now' h'
    obtain rfl : now' = now := by cases h <;> cases h' <;> rfl
    exact hle

/-- A check spares everyone when no greeting is due. -/
private theorem spares_of_not_due {timeNow now after : ℤ} (hdue : ¬ s.Due config timeNow) (t : ℤ) :
    s.Spares config hip t (.check timeNow now after) := by
  constructor
  · rintro now' event ⟨⟩
  · intro now' hlooks
    cases hlooks with
    | check _ _ h => exact absurd h hdue

/-- Greeting all peers removes who has not been heard of for too long. -/
theorem mem_peer_pingAll_iff {now : ℤ} {node : Tunserver} (hlooks : s.LooksAt config step now)
    (hstate : finalState ((s.pingAll config now).handle lib) s.node = node) :
    hip ∈ node.peer ↔ hip ∈ s.node.peer ∧ s.Spares config hip (s.lastPingTime hip) step := by
  rw [← hstate, ← finalState_run, mem_peer_run_iff, spares_iff_of_looksAt hlooks, TimedNode.pingAll]
  cases config.enableRemove with
  | false => simp [heard, Event.removes]
  | true => simp [heard, Event.removes]

/-- The peers after a step: who is heard of in it, and those it spares. It is the one place where the steps of
the loop are looked at one by one. -/
theorem mem_peer_step_iff (hstep : s.Stepped lib config step s') :
    hip ∈ s'.node.peer ↔
      (∃ now event, step = .event now event ∧ s.node.heard lib event = some hip) ∨
        hip ∈ s.node.peer ∧ s.Spares config hip (s.lastPingTime hip) step := by
  cases hstep with
  | @enter now after node hnow hafter hrun =>
    rw [mem_peer_pingAll_iff (.enter now after) (finalState_of_ok hrun)]
    simp
  | @greeted timeNow now after node htime hnow hafter hdue hrun =>
    rw [mem_peer_pingAll_iff (.check now after hdue) (finalState_of_ok hrun)]
    simp
  | @thrown timeNow now after node e htime hnow hafter hdue hrun =>
    rw [mem_peer_pingAll_iff (.check now after hdue) (finalState_of_error hrun)]
    simp
  | early hlast htime hdue => simp [spares_of_not_due hdue]
  | @event now event node hnow hping hrun =>
    have hspares : s.Spares config hip (s.lastPingTime hip) (.event now event) ↔ event.removes hip = false := by
      refine ⟨fun h => h.event now event rfl, fun h => ⟨?_, ?_⟩⟩
      · rintro now' event' ⟨⟩
        exact h
      · rintro now' ⟨⟩
    have hstate : finalState (event.run lib) s.node = node := finalState_of_ok hrun
    rw [← hstate, mem_peer_run_iff, hspares]
    simp

/-- The clock goes on, and when a peer is heard of it is what the clock shows. -/
private theorem times_of_step (hip : HashipAddr) (hstep : s.Stepped lib config step s') :
    s.clock ≤ s'.clock ∧ (s'.lastPingTime hip = s.lastPingTime hip ∨
      s.clock ≤ s'.lastPingTime hip ∧ s'.lastPingTime hip = s'.clock) := by
  cases hstep with
  | enter hnow hafter hrun => exact ⟨hnow.trans hafter, .inl rfl⟩
  | greeted htime hnow hafter hdue hrun => exact ⟨(htime.trans hnow).trans hafter, .inl rfl⟩
  | thrown htime hnow hafter hdue hrun => exact ⟨(htime.trans hnow).trans hafter, .inl rfl⟩
  | early hlast htime hdue => exact ⟨htime, .inl rfl⟩
  | @event now event node hnow hping hrun =>
    refine ⟨hnow, ?_⟩
    dsimp only
    rw [TimedNode.heardTimes]
    split
    · exact .inr ⟨hnow, rfl⟩
    · exact .inl rfl

/-- Who is heard of in a step has the time of the step. -/
theorem lastPingTime_of_heard {now : ℤ} {event : Event} (hstep : s.Stepped lib config (.event now event) s')
    (hheard : s.node.heard lib event = some hip) : s'.lastPingTime hip = now := by
  cases hstep
  exact if_pos hheard

/-- Who is not heard of in a step keeps its time. -/
theorem lastPingTime_of_not_heard (hstep : s.Stepped lib config step s')
    (hheard : ¬ ∃ now event, step = .event now event ∧ s.node.heard lib event = some hip) :
    s'.lastPingTime hip = s.lastPingTime hip := by
  cases hstep with
  | event => exact if_neg fun h => hheard ⟨_, _, rfl, h⟩
  | _ => rfl

end Step

/-! ### Whole runs -/

section Run

variable {lib : CryptoLib} {config : PingConfig} {s₀ s : TimedNode} {trace : List (TimedNode × LoopStep)}
  {step : LoopStep} {hip : HashipAddr} {t : ℤ}

/-- A peer was heard of at some time of a run when it is heard of in the last step, or earlier and the last
step spares it. -/
theorem heardAt_snoc : HeardAt lib config (trace ++ [(s, step)]) hip t ↔
    (∃ event, step = .event t event ∧ s.node.heard lib event = some hip) ∨
      HeardAt lib config trace hip t ∧ s.Spares config hip t step := by
  constructor
  · rintro ⟨before, s₁, event, after, htrace, hheard, hspares⟩
    rcases after.eq_nil_or_concat' with rfl | ⟨after, last, rfl⟩
    · obtain ⟨-, hlast⟩ := List.append_inj' htrace rfl
      cases hlast
      exact .inl ⟨event, rfl, hheard⟩
    · rw [← List.cons_append, ← List.append_assoc] at htrace
      obtain ⟨rfl, hlast⟩ := List.append_inj' htrace rfl
      obtain rfl := List.singleton_inj.mp hlast
      refine .inr ⟨⟨before, s₁, event, after, rfl, hheard, fun p hp => ?_⟩, ?_⟩
      · exact hspares p (List.mem_append_left _ hp)
      · exact hspares (s, step) (List.mem_append_right _ (List.mem_singleton_self _))
  · rintro (⟨event, rfl, hheard⟩ | ⟨⟨before, s₁, event, after, rfl, hheard, hspares⟩, hlast⟩)
    · exact ⟨trace, s, event, [], rfl, hheard, fun p hp => absurd hp List.not_mem_nil⟩
    · refine ⟨before, s₁, event, after ++ [(s, step)], by simp, hheard, fun p hp => ?_⟩
      rcases List.mem_append.mp hp with hp | hp
      · exact hspares p hp
      · obtain rfl := List.mem_singleton.mp hp
        exact hlast

/-- A peer of the table was heard of at the time that is kept for it. -/
theorem heardAt_of_mem_peer (hrun : Steps (TimedNode.Stepped lib config) s₀ trace s) (hstart : s₀.node.peer = ∅)
    (hmem : hip ∈ s.node.peer) : HeardAt lib config trace hip (s.lastPingTime hip) := by
  induction hrun with
  | nil =>
    rw [hstart] at hmem
    exact absurd hmem Std.ExtTreeMap.not_mem_empty
  | @snoc s₁ s₂ trace step hrun hstep ih =>
    by_cases hheard : ∃ now event, step = .event now event ∧ s₁.node.heard lib event = some hip
    · obtain ⟨now, event, rfl, hevent⟩ := hheard
      rw [lastPingTime_of_heard hstep hevent]
      exact heardAt_snoc.mpr (.inl ⟨event, rfl, hevent⟩)
    · obtain ⟨hmem, hspares⟩ := ((mem_peer_step_iff hstep).mp hmem).resolve_left hheard
      rw [lastPingTime_of_not_heard hstep hheard]
      exact heardAt_snoc.mpr (.inr ⟨ih hmem, hspares⟩)

/-- A step that spares who was heard of at one time spares who was heard of later. -/
private theorem TimedNode.Spares.later {t' : ℤ} (h : s.Spares config hip t step) (hle : t ≤ t') :
    s.Spares config hip t' step where
  event := h.event
  looksAt now hlooks hremove := by
    have hlt := inSeconds_le_iff.mp (h.looksAt now hlooks hremove)
    exact inSeconds_le_iff.mpr (by omega)

/-- Who was heard of, and was spared since, is in the table. -/
private theorem mem_peer_of_heardAt (hrun : Steps (TimedNode.Stepped lib config) s₀ trace s)
    (hheard : HeardAt lib config trace hip t) :
    hip ∈ s.node.peer ∧ t ≤ s.lastPingTime hip ∧ t ≤ s.clock := by
  induction hrun with
  | nil =>
    obtain ⟨before, s₁, event, after, htrace, -, -⟩ := hheard
    exact absurd htrace (by simp)
  | @snoc s₁ s₂ trace step hrun hstep ih =>
    obtain ⟨hclock, htimes⟩ := times_of_step hip hstep
    rcases heardAt_snoc.mp hheard with ⟨event, rfl, hevent⟩ | ⟨hbefore, hspares⟩
    · have hnow : s₂.clock = t := by cases hstep; rfl
      refine ⟨(mem_peer_step_iff hstep).mpr (.inl ⟨t, event, rfl, hevent⟩), ?_, hnow.ge⟩
      exact (lastPingTime_of_heard hstep hevent).ge
    · obtain ⟨hmem, hlast, htime⟩ := ih hbefore
      refine ⟨(mem_peer_step_iff hstep).mpr (.inr ⟨hmem, hspares.later hlast⟩), ?_, htime.trans hclock⟩
      rcases htimes with heq | ⟨hle, -⟩
      · rw [heq]
        exact hlast
      · exact htime.trans hle

/-- A node that starts without peers lists a peer exactly when the peer was heard of at some time, was not
deleted since, and no look at the peers since has found that this was too long ago. How the clock goes is not
fixed, but for that it does not go back. -/
theorem mem_peer_iff_of_run (hrun : Steps (TimedNode.Stepped lib config) s₀ trace s)
    (hstart : s₀.node.peer = ∅) : hip ∈ s.node.peer ↔ ∃ t, HeardAt lib config trace hip t :=
  ⟨fun hmem => ⟨_, heardAt_of_mem_peer hrun hstart hmem⟩,
    fun ⟨_, hheard⟩ => (mem_peer_of_heardAt hrun hheard).1⟩

/-- A node that removes peers after five seconds. -/
def sampleConfig : PingConfig where
  enableRemove := true
  peerTimeout := 5
  netHelloInterval := 10
  IDIIDCSig := Multisign.new

/-- A node without peers, before it enters its loop. -/
def sampleBoot : TimedNode where
  node := sampleNode 1
  lastPingTime := fun _ => 0
  pingAllTimeLast := none
  pingAllCount := 0
  clock := 0

/-- A user adds a peer. -/
def sampleAdd : Event := .op (.addPeer { peeringAddr := samplePip 2, hashipAddr := sampleHip 2 })

/-- The node when the user has added the peer after a second. -/
def sampleAdded : TimedNode :=
  { sampleBoot with
    node := finalState (sampleAdd.run CryptoLib.sample) sampleBoot.node
    lastPingTime := sampleBoot.heardTimes CryptoLib.sample second sampleAdd
    clock := second }

private theorem stepped_sampleAdded :
    sampleBoot.Stepped CryptoLib.sample sampleConfig (.event second sampleAdd) sampleAdded :=
  .event (by decide) (fun _ _ _ heq => by cases heq) rfl

/-- When all peers have been silent for too long, nobody is left to be greeted. -/
theorem peeringPingAllPeers_of_silent {node : Tunserver} {timedOut : HashipAddr → Bool}
    (h : ∀ hip ∈ node.peer, timedOut hip = true) (sig : Multisign) :
    peeringPingAllPeers true timedOut sig node = .ok () { node with peer := ∅ } := by
  have hremoved : node.removePeers timedOut = { node with peer := ∅ } := by
    refine congrArg (fun peer => { node with peer }) (Std.ExtTreeMap.ext_getElem? fun {hip} => ?_)
    have hget : (node.removePeers timedOut).peer[hip]? = _ := getElem?_removePeers
    rw [removePeers] at hget
    rw [hget, Std.ExtTreeMap.getElem?_empty]
    split
    · rfl
    next hhip => exact Std.ExtTreeMap.getElem?_eq_none fun hmem => hhip (h hip hmem)
  let pings : Node Unit := do
    let node ← get
    node.peer.toList.forM fun v => pingPeer node sig v.2
  have hping : peeringPingAllPeers true timedOut sig =
      (modify fun node => node.removePeers timedOut) >>= fun _ => pings := rfl
  rw [hping, bind_of_ok (modify_apply _ node), hremoved]
  exact bind_of_ok (get_apply _)

/-- The peer is removed when the loop is entered nine seconds later. -/
theorem mem_peer_iff_of_run_example :
    ¬ ∃ t, HeardAt CryptoLib.sample sampleConfig
      [(sampleBoot, .event second sampleAdd), (sampleAdded, .enter (10 * second) (10 * second))]
      (sampleHip 2) t := by
  have hsilent : ∀ hip ∈ sampleAdded.node.peer,
      decide (inSeconds (10 * second - sampleAdded.lastPingTime hip) > sampleConfig.peerTimeout) = true := by
    intro hip hmem
    obtain rfl : hip = sampleHip 2 := (mem_putPeer.mp hmem).resolve_right Std.ExtTreeMap.not_mem_empty
    decide
  have hrun : (sampleAdded.pingAll sampleConfig (10 * second)).handle CryptoLib.sample sampleAdded.node =
      .ok () { sampleAdded.node with peer := ∅ } :=
    peeringPingAllPeers_of_silent hsilent sampleConfig.IDIIDCSig
  have hnow : sampleAdded.clock ≤ 10 * second := by decide
  have henter := TimedNode.Stepped.enter hnow le_rfl hrun
  exact fun hheard => Std.ExtTreeMap.not_mem_empty
    ((mem_peer_iff_of_run (((Steps.nil _).snoc stepped_sampleAdded).snoc henter) rfl).mpr hheard)

/-! ### How long ago a peer was heard of -/

/-- Greeting all peers takes no longer than this in a step. The time is the one between the two readings of
the clock around it. -/
def QuickGreeting (duration : ℕ) (_ : TimedNode) : LoopStep → Prop
  | .enter now after => after - now ≤ duration
  | .check _ now after => after - now ≤ duration
  | .event _ _ => True

/-- When all peers were last greeted, none of the peers of the table had been silent for too long. -/
def HeardBeforeGreeting (config : PingConfig) (duration : ℕ) (s : TimedNode) : Prop :=
  ∀ last ∈ s.pingAllTimeLast, last ≤ s.clock ∧
    ∀ hip ∈ s.node.peer, last - s.lastPingTime hip < (config.peerTimeout + 1) * second + duration

private theorem HeardBeforeGreeting.stepped {duration : ℕ} (hremove : config.enableRemove = true)
    {s' : TimedNode}
    (h : HeardBeforeGreeting config duration s) (hquick : QuickGreeting duration s step)
    (hstep : s.Stepped lib config step s') : HeardBeforeGreeting config duration s' := by
  -- Those who are left when the peers are looked at were heard of lately.
  have hlooked (now after : ℤ) (hlooks : s.LooksAt config step now) (hafter : after - now ≤ duration)
      (hip : HashipAddr) (hmem : hip ∈ s'.node.peer) :
      after - s'.lastPingTime hip < (config.peerTimeout + 1) * second + duration := by
    have hevent : ¬ ∃ now event, step = .event now event ∧ s.node.heard lib event = some hip := by
      rintro ⟨now', event, rfl, -⟩
      cases hlooks
    have hspares := (((mem_peer_step_iff hstep).mp hmem).resolve_left hevent).2
    have hlt := inSeconds_le_iff.mp (hspares.looksAt now hlooks hremove)
    rw [lastPingTime_of_not_heard hstep hevent]
    omega
  cases hstep with
  | @enter now after node hnow hafter hrun =>
    rintro last ⟨⟩
    exact ⟨le_rfl, hlooked now after (.enter now after) hquick⟩
  | @greeted timeNow now after node htime hnow hafter hdue hrun =>
    rintro last ⟨⟩
    exact ⟨le_rfl, hlooked now after (.check now after hdue) hquick⟩
  | @thrown timeNow now after node e htime hnow hafter hdue hrun =>
    intro last hlast
    refine ⟨(h last hlast).1.trans ((htime.trans hnow).trans hafter), fun hip hmem => ?_⟩
    have hlt := hlooked now after (.check now after hdue) hquick hip hmem
    have hle := (h last hlast).1
    omega
  | early hlast htime hdue => exact fun last hlast => ⟨(h last hlast).1.trans htime, (h last hlast).2⟩
  | @event now event node hnow hping hrun =>
    intro last hlast
    obtain ⟨hclock, hall⟩ := h last hlast
    refine ⟨hclock.trans hnow, fun hip hmem => ?_⟩
    dsimp only [TimedNode.heardTimes] at hmem ⊢
    split
    next hheard =>
      rw [second]
      omega
    next hheard =>
      rw [← finalState_of_ok hrun, mem_peer_run_iff] at hmem
      exact hall hip (hmem.resolve_left hheard).1

/-- Whoever is in the table after a round has looked whether to greet the peers was heard of lately, and was
spared since: the time-out, the time between two greetings and the time that greeting takes bound how long
ago that was. -/
theorem heard_lately_of_run {duration : ℕ} {timeNow now after : ℤ} {s' : TimedNode}
    (hrun : Steps (TimedNode.Stepped lib config) s₀ trace s) (hstart : s₀.node.peer = ∅)
    (hloop : s₀.pingAllTimeLast = none) (hremove : config.enableRemove = true)
    (hquick : Steps.All (QuickGreeting duration) trace)
    (hstep : s.Stepped lib config (.check timeNow now after) s')
    (hmem : hip ∈ s'.node.peer) :
    ∃ t, HeardAt lib config (trace ++ [(s, .check timeNow now after)]) hip t ∧
      timeNow - t <
        (config.peerTimeout + 1) * second + max second (config.netHelloInterval * second) + duration := by
  refine ⟨_, heardAt_of_mem_peer (hrun.snoc hstep) hstart hmem, ?_⟩
  have hpos : 0 < second := by decide
  have hgreeted : HeardBeforeGreeting config duration s :=
    (Steps.invariant (fun _ _ _ h hquick hstep => h.stepped hremove hquick hstep) hrun
      (fun last hlast => by rw [hloop] at hlast; cases hlast) hquick).2
  have hevent : ¬ ∃ now' event, LoopStep.check timeNow now after = .event now' event ∧
      s.node.heard lib event = some hip := fun ⟨_, _, heq, _⟩ => by cases heq
  have hkept := ((mem_peer_step_iff hstep).mp hmem).resolve_left hevent
  rw [lastPingTime_of_not_heard hstep hevent]
  have hlooked (hle : timeNow ≤ now) (hdue : s.Due config timeNow) :
      timeNow - s.lastPingTime hip < (config.peerTimeout + 1) * second := by
    have hlt := inSeconds_le_iff.mp (hkept.2.looksAt now (.check now after hdue) hremove)
    omega
  cases hstep with
  | greeted htime hnow hafter hdue hrun =>
    have hlt := hlooked hnow hdue
    omega
  | thrown htime hnow hafter hdue hrun =>
    have hlt := hlooked hnow hdue
    omega
  | @early _ _ _ last hlast htime hdue =>
    have hlt := (hgreeted last hlast).2 hip hkept.1
    have hle : timeNow ≤ last + config.freq s.pingAllCount :=
      not_lt.mp fun hlater => hdue ⟨last, hlast, hlater⟩
    have hfreq : config.freq s.pingAllCount ≤ max second (config.netHelloInterval * second) := by
      rw [PingConfig.freq]
      split
      · exact le_max_left ..
      · exact le_max_right ..
    omega

end Run

/-- The node when its loop has been entered, before any peer is added. -/
def sampleEntered : TimedNode := { sampleBoot with pingAllTimeLast := some 0 }

/-- The node when the peer has been added after that. -/
def sampleEnteredAdded : TimedNode := { sampleAdded with pingAllTimeLast := some 0 }

/-- A peer that was added just before a round is listed, and was heard of lately. -/
theorem heard_lately_of_run_example :
    ∃ t, HeardAt CryptoLib.sample sampleConfig
        ([(sampleBoot, .enter 0 0), (sampleEntered, .event second sampleAdd)] ++
          [(sampleEnteredAdded, .check second second second)]) (sampleHip 2) t ∧
      second - t < (5 + 1) * second + max second (10 * second) + (0 : ℕ) := by
  have hentered : (sampleBoot.pingAll sampleConfig 0).handle CryptoLib.sample sampleBoot.node =
      .ok () { sampleBoot.node with peer := ∅ } :=
    peeringPingAllPeers_of_silent (fun _ hmem => absurd hmem Std.ExtTreeMap.not_mem_empty) sampleConfig.IDIIDCSig
  have henter : sampleBoot.Stepped CryptoLib.sample sampleConfig (.enter 0 0) sampleEntered :=
    .enter le_rfl le_rfl hentered
  have hadd : sampleEntered.Stepped CryptoLib.sample sampleConfig (.event second sampleAdd) sampleEnteredAdded :=
    .event (by decide) (fun _ _ _ heq => by cases heq) rfl
  have hcheck : sampleEnteredAdded.Stepped CryptoLib.sample sampleConfig (.check second second second)
      sampleEnteredAdded :=
    .early rfl le_rfl fun ⟨last, hlast, hdue⟩ => by
      cases hlast
      exact absurd hdue (by decide)
  refine heard_lately_of_run (((Steps.nil _).snoc henter).snoc hadd) rfl rfl rfl ?_ hcheck
    (mem_putPeer.mpr (.inl rfl))
  rintro p (_ | ⟨_, _ | ⟨_, ⟨⟩⟩⟩)
  · exact le_rfl
  · trivial

end Galaxy42
