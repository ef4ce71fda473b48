import Galaxy42.Tunserver.MalformedDatagrams

/-!
# Peers and strangers

What is true of every peer stays true, when it does not depend on the key of a peer and is true of the peers that
an event brings (`AllPeers.run`). So an address is no address of a peer, unless an operation or a greeting that
is accepted says so.

A datagram from such an address that is no greeting that is accepted does nothing, unless it takes the node down.
So a stranger cannot make another difference to a node by whatever he sends, in whatever order with what else
happens to it: the node ends in the same state as if nothing had come from him (`runEvents_eq_of_strangers`).

The result compares two runs from one state: one with all events, and one without the datagrams from these
addresses. A run ends where an event takes the node down (`runEvents`), and the conditions are asked for along
the first run only, of each event in the state that it comes in (`Along`). One of them keeps the addresses
unknown (`KeepsOut`); the other one is about greetings, which are read from everybody, and says that those of
strangers are sane in the sense of `MalformedDatagrams` (`SaneFrom`). All other datagrams of strangers are
sane by themselves.

A property of peers is a predicate on the hip and the peer. That it does not depend on the key is needed
because the key of a peer may come with any greeting of it; `LimitsFull` and the truth of tables in the
modules on networks are such properties too.
-/

namespace Galaxy42

open Toolkit Program TrivialSerialize Tunserver

variable {lib : CryptoLib} {node : Tunserver} {event : Event}

/-! ### What is true of all peers -/

/-- A node is given this reference in an event: by an operation, or since a greeting is accepted. -/
def Event.Brings (lib : CryptoLib) (node : Tunserver) (peerRef : PeeringReference) : Event → Prop
  | .op (.addPeer peerRef') => peerRef' = peerRef
  | .op (.addPeerAppendPubkey peerRef' _) => peerRef' = peerRef
  | .datagram senderPip buf => ∃ pubkey, greeting lib node senderPip buf = some (peerRef, pubkey)
  | _ => False

/-- Every peer in the table is as it should be. -/
def AllPeers (P : HashipAddr → Peering → Prop) (node : Tunserver) : Prop :=
  ∀ (hip : HashipAddr) (peering : Peering), node.peer[hip]? = some peering → P hip peering

/-- What a reference does to a peer keeps it as it should be. -/
structure Welcome (P : HashipAddr → Peering → Prop) (peerRef : PeeringReference) : Prop where
  new : P peerRef.hashipAddr (Peering.new peerRef)
  setPip : ∀ peering, P peerRef.hashipAddr peering →
    P peerRef.hashipAddr (peering.setPip peerRef.peeringAddr)

namespace AllPeers

variable {P : HashipAddr → Peering → Prop} {peerRef : PeeringReference}

private theorem put (h : AllPeers P node) {hip : HashipAddr} {peering : Peering} (hpeering : P hip peering) :
    AllPeers P (node.putPeer hip peering) := by
  intro dst peering' hget
  rw [getElem?_putPeer] at hget
  split at hget
  next heq =>
    subst heq
    obtain rfl := Option.some.inj hget
    exact hpeering
  · exact h dst peering' hget

private theorem new_peer (h : AllPeers P node) {hip : HashipAddr} {peering : Peering}
    (hpeering : P hip peering) :
    AllPeers P { node with peer := node.peer.insertIfNew hip peering } := by
  by_cases hmem : hip ∈ node.peer
  · rwa [insertIfNew_of_mem _ _ hmem]
  · rw [insertIfNew_of_not_mem _ _ hmem]
    exact h.put hpeering

/-- A peer who is met gets a key, and the address of the reference. -/
private theorem preserves_addPeerAppendPubkey
    (hkey : ∀ hip peering pubkey, P hip peering → P hip (peering.setPubkey pubkey))
    (hwelcome : Welcome P peerRef) (pubkey : HashipPubkey) :
    Preserves (AllPeers P) (addPeerAppendPubkey lib peerRef pubkey) := by
  have happend : Preserves (AllPeers P) (appendPubkey peerRef pubkey) := by
    refine .get_bind fun node h => ?_
    cases hget : node.peer[peerRef.hashipAddr]? with
    | none =>
      dsimp only
      split
      · exact h.new_peer (hkey _ _ _ hwelcome.new)
      · exact h
    | some peering =>
      have hput : ∀ {peering' : Peering}, P peerRef.hashipAddr peering' → ∀ node', AllPeers P node' →
          AllPeers P { node' with peer := node'.peer.insert peerRef.hashipAddr peering' } :=
        fun hpeering' node' h' => h'.put hpeering'
      have hmet : P peerRef.hashipAddr (peering.setPubkey pubkey) := hkey _ _ _ (h _ peering hget)
      have hupdate : Preserves (AllPeers P) (updatePeer peerRef pubkey peering) := by
        refine .bind (.modify (hput hmet)) fun _ => ?_
        refine .bind (.bind (.checkThat _ _) fun _ => .bind (.checkThat _ _) fun _ => .pure _)
          fun unchanged => ?_
        split
        · exact .modify (hput (hwelcome.setPip _ hmet))
        · exact .pure _
      exact hupdate node h
  refine .bind (preserves_ofHashOfPubkey _) fun _ => .bind (.checkThat _ _) fun _ => .bind happend fun _ => ?_
  refine .get_bind fun node h => ?_
  split
  · exact Preserves.checkThat _ _ node h
  · exact h

/-- The peers stay as they should be in an event that brings no others. -/
theorem run (hkey : ∀ hip peering pubkey, P hip peering → P hip (peering.setPubkey pubkey)) (h : AllPeers P node)
    (hwelcome : ∀ peerRef, event.Brings lib node peerRef → Welcome P peerRef) :
    AllPeers P (finalState (event.run lib) node) := by
  have hclosed : Closed (AllPeers P) := .of_tables fun node node' hpeer _ h hip peering hget =>
    h hip peering (by rwa [← hpeer])
  by_cases hputs : ∃ hip peering, node.Puts lib event hip peering
  -- Who is put into the table is put there by one of three operations.
  · obtain ⟨hip, peering, hput⟩ := hputs
    rw [finalState_run]
    cases hput with
    | add hnew =>
      rw [Event.handle, TableOp.run, finalState_discard, finalState_addPeer, if_neg hnew]
      exact h.put (hwelcome _ rfl).new
    | append _ _ => exact preserves_addPeerAppendPubkey hkey (hwelcome _ rfl) _ node h
    | @greeting senderPip buf peerRef pubkey _ hgreeting _ _ =>
      obtain ⟨binHisIDIPub, heq⟩ : ∃ _, finalState (handleDatagram lib senderPip buf) node = _ :=
        finalState_handleDatagram_of_greeting hgreeting
      have hmeet : Preserves (AllPeers P) (addPeerAppendPubkey lib peerRef pubkey) :=
        preserves_addPeerAppendPubkey hkey (hwelcome _ ⟨pubkey, hgreeting⟩) pubkey
      rw [Event.handle, heq]
      refine hmeet.bind (fun _ => .get_bind fun node' h' => ?_) node h
      refine Preserves.bind (preserves_multikeysOfBin _) (fun his node₁ h₁ => ?_) node' h'
      obtain ⟨tunnel, draws, hstate⟩ :=
        finalState_addTunnelToPubkey lib (his.setIpv6Prefix node'.ipv6Prefix) node₁
      rw [hstate]
      exact h₁
  · refine hclosed.run h ⟨fun _ _ _ => h, fun hip peering hput => absurd ⟨hip, peering, hput⟩ hputs, ?_⟩
    intro _ hip peering hget
    rw [getElem?_removePeers] at hget
    split at hget
    · cases hget
    · exact h hip peering hget

end AllPeers

/-! ### Strangers -/

/-- An event is a datagram from one of these addresses. -/
def Event.isFrom (A : Ip46Addr → Bool) : Event → Bool
  | .datagram senderPip _ => A senderPip
  | _ => false

/-- No peer has one of these addresses. The hips of peers play no role, nor their keys. -/
def KnowsNone (A : Ip46Addr → Bool) (node : Tunserver) : Prop :=
  AllPeers (fun _ peering => A peering.getPip = false) node

/-- An event that makes none of these addresses known: no reference has one of them, and a datagram from there
is no greeting that is accepted. It is asked of the events in the run with the strangers, each in its state. -/
structure KeepsOut (lib : CryptoLib) (A : Ip46Addr → Bool) (node : Tunserver) (event : Event) : Prop where
  brings : ∀ peerRef, event.Brings lib node peerRef → A peerRef.peeringAddr = false
  greeting : ∀ senderPip buf, event = .datagram senderPip buf → A senderPip = true →
    Tunserver.greeting lib node senderPip buf = none

/-- A greeting from one of these addresses does not take the node down. Other datagrams from there cannot take
it down. -/
def SaneFrom (lib : CryptoLib) (A : Ip46Addr → Bool) (node : Tunserver) (event : Event) : Prop :=
  ∀ senderPip buf, event = .datagram senderPip buf → A senderPip = true →
    datagramCmd buf = some .publicHi → GreetingSane lib node senderPip (buf.drop 2)

/-- The state of a node after a round, unless the round takes it down. -/
def Event.next (lib : CryptoLib) (event : Event) (node : Tunserver) : Option Tunserver :=
  match event.run lib node with
  | .ok _ node' => some node'
  | .error _ _ => none

/-- The state of a node after events, unless one of them takes it down. It is a partial function, as what
comes behind an abort is no state of the node. -/
def runEvents (lib : CryptoLib) : Tunserver → List Event → Option Tunserver
  | node, [] => some node
  | node, event :: events => (event.next lib node).bind fun node' => runEvents lib node' events

/-- Each event meets a condition in the state that it comes in. Behind an event that takes the node down
nothing is asked for. -/
def Along (lib : CryptoLib) (H : Tunserver → Event → Prop) : Tunserver → List Event → Prop
  | _, [] => True
  | node, event :: events => H node event ∧ ∀ node', event.next lib node = some node' → Along lib H node' events

variable {A : Ip46Addr → Bool}

theorem KnowsNone.run (h : KnowsNone A node) (hout : KeepsOut lib A node event) :
    KnowsNone A (finalState (event.run lib) node) :=
  AllPeers.run (fun _ _ _ hpeering => hpeering) h fun peerRef hbrings =>
    ⟨hout.brings peerRef hbrings, fun _ _ => hout.brings peerRef hbrings⟩

/-- The peer that a datagram is from is in the table, with the address that it is from. -/
theorem exists_of_senderOf {senderPip : Ip46Addr} {sender : Peering}
    (h : node.senderOf senderPip = some sender) :
    ∃ hip : HashipAddr, node.peer[hip]? = some sender ∧ sender.getPip = senderPip := by
  have hfind : ∀ (peers : List (HashipAddr × Peering)) (node node' : Tunserver),
      findPeerIn senderPip peers node = .ok sender node' →
        ∃ v ∈ peers, v.2 = sender ∧ v.2.getPip = senderPip := by
    intro peers
    induction peers with
    | nil => exact fun node node' hnil => by cases hnil
    | cons v peers ih =>
      intro node node' hcons
      obtain ⟨same, node₁, hequal, hrest⟩ := bind_eq_ok_iff.mp hcons
      obtain ⟨_, _, -, hequal⟩ := bind_eq_ok_iff.mp hequal
      obtain ⟨_, _, -, hequal⟩ := bind_eq_ok_iff.mp hequal
      cases hequal
      split at hrest
      next hsame =>
        cases hrest
        exact ⟨v, List.mem_cons_self, rfl, of_decide_eq_true hsame.1⟩
      · obtain ⟨w, hw, heq⟩ := ih _ node' hrest
        exact ⟨w, List.mem_cons_of_mem _ hw, heq⟩
  obtain ⟨v, hv, rfl, hpip⟩ := hfind _ _ _ (findPeer_of_senderOf h)
  exact ⟨v.1, Std.ExtTreeMap.mem_toList_iff_getElem?_eq_some.mp hv, hpip⟩

private theorem KnowsNone.senderOf_eq_none (h : KnowsNone A node) {senderPip : Ip46Addr}
    (hfrom : A senderPip = true) :
    node.senderOf senderPip = none := by
  cases hsender : node.senderOf senderPip with
  | none => rfl
  | some sender =>
    obtain ⟨hip, hget, rfl⟩ := exists_of_senderOf hsender
    have hnot := h hip sender hget
    rw [hnot] at hfrom
    cases hfrom

/-- A datagram of a stranger does nothing. -/
private theorem KnowsNone.finalState_of_isFrom (h : KnowsNone A node) (hout : KeepsOut lib A node event)
    (hfrom : event.isFrom A = true) : finalState (event.run lib) node = node := by
  cases event with
  | datagram senderPip buf =>
    have hsender := h.senderOf_eq_none hfrom
    have hgreeting : greeting lib node senderPip buf = none := hout.greeting senderPip buf rfl hfrom
    rw [finalState_run]
    refine finalState_handleDatagram_of_none ?_ ?_ ?_ hgreeting
    · simp [acceptedPacket, hsender]
    · simp [acceptedQuery, hsender]
    · simp [acceptedReply, hsender]
  | _ => cases hfrom

/-- Only by a greeting a stranger can take the node down. -/
private theorem KnowsNone.datagramSane (h : KnowsNone A node) {senderPip : Ip46Addr} {buf : Bytes}
    (hsane : SaneFrom lib A node (.datagram senderPip buf)) (hfrom : A senderPip = true) :
    DatagramSane lib node senderPip buf := by
  have hsender := h.senderOf_eq_none hfrom
  unfold DatagramSane
  cases hcmd : datagramCmd buf with
  | none => trivial
  | some cmd =>
    cases cmd with
    | publicHi => exact hsane senderPip buf rfl hfrom hcmd
    | tunneledData => exact fun sender hsome => by simp [hsender] at hsome
    | findhipQuery => exact fun sender hsome => by simp [hsender] at hsome
    | findhipReply => exact fun sender hsome => by simp [hsender] at hsome
    | _ => trivial

private theorem Event.next_eq_some_iff {node' : Tunserver} :
    event.next lib node = some node' ↔ event.run lib node = .ok () node' := by
  unfold Event.next
  cases event.run lib node with
  | ok _ node₁ => simp
  | error _ _ => simp

/-- Strangers make no difference, unless they take the node down. In every run of a node in which no reference
that the node is given has one of these addresses, and no greeting from there is accepted: if the node is not
taken down, then it ends in the state that it would end in if nothing had come from there. And the run is the
same, whatever else happens, when none of the greetings from there takes the node down. -/
theorem runEvents_eq_of_strangers (lib : CryptoLib) (A : Ip46Addr → Bool) (events : List Event)
    (node : Tunserver) (hnone : KnowsNone A node) (hout : Along lib (KeepsOut lib A) node events) :
    (∀ node', runEvents lib node events = some node' →
      runEvents lib node (events.filter fun event => !event.isFrom A) = some node') ∧
    (Along lib (SaneFrom lib A) node events →
      runEvents lib node events = runEvents lib node (events.filter fun event => !event.isFrom A)) := by
  induction events generalizing node with
  | nil => exact ⟨fun _ h => h, fun _ => rfl⟩
  | cons event events ih =>
    obtain ⟨hfirst, hrest⟩ := hout
    have hnext : ∀ node₁, event.next lib node = some node₁ → KnowsNone A node₁ := by
      intro node₁ hrun
      have hknows := hnone.run hfirst
      rwa [finalState_of_ok (Event.next_eq_some_iff.mp hrun)] at hknows
    by_cases hfrom : event.isFrom A = true
    -- The datagram of a stranger leaves the node as it was, and there is nothing of it in the other run.
    · have hsame : ∀ node₁, event.next lib node = some node₁ → node₁ = node := fun node₁ hrun =>
        (finalState_of_ok (Event.next_eq_some_iff.mp hrun)).symm.trans (hnone.finalState_of_isFrom hfirst hfrom)
      rw [List.filter_cons_of_neg (by simp [hfrom]), runEvents]
      refine ⟨fun node' hrun => ?_, fun ⟨hsane, hsanes⟩ => ?_⟩
      · obtain ⟨node₁, hone, hmore⟩ := Option.bind_eq_some_iff.mp hrun
        obtain rfl := hsame node₁ hone
        exact (ih _ hnone (hrest _ hone)).1 node' hmore
      · obtain ⟨node₁, hone⟩ : ∃ node₁, event.next lib node = some node₁ := by
          cases event with
          | datagram senderPip buf =>
            obtain ⟨node₁, hrun⟩ := (loops_iff lib node senderPip buf).mpr (hnone.datagramSane hsane hfrom)
            exact ⟨node₁, Event.next_eq_some_iff.mpr hrun⟩
          | _ => cases hfrom
        obtain rfl := hsame node₁ hone
        rw [hone, Option.bind_some]
        exact (ih _ hnone (hrest _ hone)).2 (hsanes _ hone)
    · rw [List.filter_cons_of_pos (by simp [hfrom]), runEvents, runEvents]
      refine ⟨fun node' hrun => ?_, fun ⟨_, hsanes⟩ => ?_⟩
      · obtain ⟨node₁, hone, hmore⟩ := Option.bind_eq_some_iff.mp hrun
        exact Option.bind_eq_some_iff.mpr
          ⟨node₁, hone, (ih _ (hnext _ hone) (hrest _ hone)).1 node' hmore⟩
      · cases hone : event.next lib node with
        | none => rfl
        | some node₁ => exact (ih _ (hnext _ hone) (hrest _ hone)).2 (hsanes _ hone)

private theorem along_cons {H : Tunserver → Event → Prop} {events : List Event} (h : H node event)
    (hrest : Along lib H (finalState (event.run lib) node) events) : Along lib H node (event :: events) :=
  ⟨h, fun node' hrun => by rwa [finalState_of_ok (Event.next_eq_some_iff.mp hrun)] at hrest⟩

/-- A datagram that is no greeting makes no address known. -/
private theorem keepsOut_of_cmd {senderPip : Ip46Addr} {buf : Bytes}
    (hcmd : datagramCmd buf ≠ some .publicHi) :
    KeepsOut lib A node (.datagram senderPip buf) ∧ SaneFrom lib A node (.datagram senderPip buf) := by
  have hnone : greeting lib node senderPip buf = none := if_neg hcmd
  refine ⟨⟨?_, ?_⟩, ?_⟩
  · rintro peerRef ⟨pubkey, hgreeting⟩
    rw [hnone] at hgreeting
    cases hgreeting
  · rintro _ _ ⟨rfl, rfl⟩ -
    exact hnone
  · rintro _ _ ⟨rfl, rfl⟩ - hhi
    exact absurd hhi hcmd

/-- A stranger asks for a peer twice, and in between a reply of a peer is received. -/
theorem runEvents_eq_of_strangers_example :
    let node := (sampleNode 1).after (sampleMeet 2)
    let query := sampleQuery 9 2 5
    let reply := sampleReply 2 5 3 9 9
    runEvents CryptoLib.sample node [query, reply, query] = runEvents CryptoLib.sample node [reply] := by
  intro node query reply
  let A : Ip46Addr → Bool := fun addr => addr = samplePip 9
  have hnone : KnowsNone A node := by
    intro hip peering hget
    have hall : node.peer.toList.all (fun v => !A v.2.getPip) = true := by decide +kernel
    have hmem : (hip, peering) ∈ node.peer.toList := Std.ExtTreeMap.mem_toList_iff_getElem?_eq_some.mpr hget
    simpa using List.all_eq_true.mp hall _ hmem
  have hquery : datagramCmd (queryOctets (sampleHip 2) 5) ≠ some .publicHi := by decide
  have hreply : datagramCmd (replyOctets 5 3 (sampleHip 9) (sampleKeyBin 9)) ≠ some .publicHi := by decide
  have hout : Along CryptoLib.sample (KeepsOut CryptoLib.sample A) node [query, reply, query] :=
    along_cons (keepsOut_of_cmd hquery).1
      (along_cons (keepsOut_of_cmd hreply).1 (along_cons (keepsOut_of_cmd hquery).1 trivial))
  have hsane : Along CryptoLib.sample (SaneFrom CryptoLib.sample A) node [query, reply, query] :=
    along_cons (keepsOut_of_cmd hquery).2
      (along_cons (keepsOut_of_cmd hreply).2 (along_cons (keepsOut_of_cmd hquery).2 trivial))
  exact (runEvents_eq_of_strangers CryptoLib.sample A _ node hnone hout).2 hsane

end Galaxy42
