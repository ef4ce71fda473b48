import Galaxy42.Lib.Hops
import Galaxy42.Tunserver.SearchCompleteness
import Galaxy42.Tunserver.Strangers

/-!
# Where routes lead

A node that learns a route from a reply only gets to know the next hop. That the next hop has a route itself,
and that the routes of all nodes together lead to the destination and not around in a circle, is nowhere
checked: replies have no sequence numbers, and the cost is always the same.

It holds nevertheless, when the tables of peers are true, whatever happens to the datagrams: a node only
answers with a route that it has stored, and what is stored is never replaced nor removed. So what was told
about a route stays true (`Grows`), and every route that is learned is one hop longer than one that exists
(`RoutesLead.act`). The result is about all routes of all nodes, in every state of every run
(`routes_lead_of_run`).

A hop is a relation between two nodes and a goal (`Hop`), and that a route leads there is a chain of hops with a
number (`Lib.Hops`). As a node has one route to a goal at most, hops are functional; so a chain that ends has
no circle in it, and its number is determined. No measure on the network is needed, and none is in the datagrams.

The invariant is about the replies in flight as well (`ReplyLeads`): a reply is about a goal to which its
sender had a chain when it was sent, and since chains stay, also has one when the reply arrives, however late
and how often. The receiver then has the sender as its next hop, because its table of peers is true.

The line of four nodes of `SearchCompleteness` is used again for a run in which a route is learned.
-/

namespace Galaxy42

open Toolkit Program TrivialSerialize Tunserver

/-! ### Peers that are who the table says -/

/-- Nodes that have no routes yet, and nothing is in flight. They may have peers, which are kept under the
hips they belong to. -/
def Unrouted {ι : Type} (lib : CryptoLib) (net : NodeNetwork ι) : Prop :=
  (∀ i, PeersBound lib (net.node i) ∧ ∀ goal, (net.node i).routeTo goal = none) ∧ net.flight = []

namespace Topology

variable {ι : Type} (T : Topology ι) (lib : CryptoLib)

/-- The table of a node says of each of its peers what is true: there is such a node, and it is linked with
this one. It need not have all nodes that it is linked with. -/
def PeersTrue (i : ι) (node : Tunserver) : Prop :=
  ∀ (hip : HashipAddr) (peering : Peering), node.peer[hip]? = some peering →
    ∃ j, T.link i j ∧ hip = T.hip j ∧ peering.getPip = T.addr j

/-- A node does something on its own, whose peers are who the table says. -/
def OwnTrue (i : ι) (node node' : Tunserver) (new : List (Datagram ι)) : Prop :=
  T.PeersTrue i node ∧ OwnStep lib (fun _ _ => True) i node node' new

/-- A node gets a datagram, whose peers are who the table says. -/
def GetsTrue (i : ι) (d : Datagram ι) (node node' : Tunserver) (new : List (Datagram ι)) : Prop :=
  T.PeersTrue i node ∧ Receives lib T.addr i d node node' new

/-- A node has a route to another one over a node that it is linked with. The next hop of a route is a hip,
and it is the hip of one of the nodes it is linked with. -/
def Hop (net : NodeNetwork ι) (g i j : ι) : Prop :=
  T.link i j ∧ ∃ route, (net.node i).routeTo (T.hip g) = some route ∧ route.nexthop = T.hip j

/-- The routes of a node lead to where they say. -/
def RoutesLead (net : NodeNetwork ι) : Prop :=
  ∀ i goal route, (net.node i).routeTo goal = some route →
    ∃ g n, goal = T.hip g ∧ Leads (T.Hop net g) g i n

/-- A reply tells of a route that leads to its goal from the node that has sent the reply. -/
def ReplyLeads (net : NodeNetwork ι) (j : ι) (octets : Bytes) : Prop :=
  datagramCmd octets = some .findhipReply →
    ∃ g n ttl route, octets = toldOctets ttl (T.hip g) route ∧ Leads (T.Hop net g) g j n

/-- All routes lead to where they say, and so do those that are told of in flight. -/
structure AllLead (net : NodeNetwork ι) : Prop where
  peers : ∀ i, PeersBound lib (net.node i)
  routes : T.RoutesLead net
  replies : ∀ d ∈ net.flight, T.ReplyLeads net d.sender d.octets

end Topology

/-! ### What a node says about its routes -/

section Node

variable {lib : CryptoLib} {node : Tunserver} {event : Event}

/-- Peers stay under the hips they belong to. -/
theorem PeersBound.run (h : PeersBound lib node) (event : Event) :
    PeersBound lib (finalState (event.run lib) node) := by
  have hclosed : Closed (PeersBound lib) := .of_tables fun node node' hpeer _ h hip peering hget =>
    h hip peering (by rwa [← hpeer])
  exact hclosed.run h ⟨fun _ _ _ => h, fun _ _ hput => h.put hput, fun _ => h.removed _⟩

/-- The new replies of a node are about routes that it has stored. -/
def Tunserver.TellsStored (node node' : Tunserver) : Prop :=
  ∃ new, node'.sent = new ++ node.sent ∧
    ∀ d ∈ new, datagramCmd d.2 = some .findhipReply →
      ∃ ttl goal route known, d.2 = toldOctets ttl goal route ∧ node'.routeTo goal = some known

private theorem Tunserver.TellsStored.pushSent {node' : Tunserver} (h : node.TellsStored node')
    (addr : Ip46Addr)
    {octets : Bytes} (hreply : datagramCmd octets = some .findhipReply →
      ∃ ttl goal route known, octets = toldOctets ttl goal route ∧ node'.routeTo goal = some known) :
    node.TellsStored (node'.pushSent addr octets) := by
  obtain ⟨new, hsent, htold⟩ := h
  refine ⟨(addr, octets) :: new, congrArg ((addr, octets) :: ·) hsent, fun d hd => ?_⟩
  obtain rfl | hd := List.mem_cons.mp hd
  · exact hreply
  · exact htold d hd

/-- A node only tells of routes that it has stored. -/
theorem tellsStored_run (lib : CryptoLib) (event : Event) (node : Tunserver) :
    node.TellsStored (finalState (event.run lib) node) := by
  have hother : ∀ {cmd : ProtoCmd} (bin : Bytes) (P : Prop), cmd ≠ .findhipReply →
      datagramCmd (cmdOctets cmd bin) = some .findhipReply → P := by
    intro cmd bin P hcmd hreply
    rw [datagramCmd_cmdOctets] at hreply
    exact absurd (Option.some.inj hreply) hcmd
  have hstart : ∀ node', node'.sent = node.sent → node.TellsStored node' := fun node' hsent =>
    ⟨[], hsent, fun _ hd => absurd hd List.not_mem_nil⟩
  have heffects : Effects lib node.TellsStored node event := {
    learned := fun _ _ _ => hstart _ rfl
    put := fun _ _ _ => hstart _ rfl
    removed := fun _ => hstart _ rfl
    greet := fun node' addr bin h => h.pushSent addr (hother bin _ (by decide))
    reply := fun node' _ _ sender hip ttl route _ _ hroute h =>
      h.pushSent sender.getPip fun _ => ⟨ttl, hip, route, route, rfl, hroute⟩
    data := fun node' addr packet _ h => h.pushSent addr (hother (tunneledBin packet) _ (by decide))
    search := by
      rintro dst ttl reason - node' ⟨new, hsent, htold⟩
      obtain ⟨m, hstate, -⟩ := finalState_searchRoute dst reason ttl node'
      rw [hstate]
      refine ⟨((node'.askedPeers dst ttl).map fun p =>
        (p.getPip, queryOctets dst (UInt8.ofInt (max 5 ttl)))).reverse ++ new, ?_, fun d hd hreply => ?_⟩
      · rw [List.append_assoc, ← hsent]
        rfl
      · obtain hd | hd := List.mem_append.mp hd
        · obtain ⟨p, -, rfl⟩ := List.mem_map.mp (List.mem_reverse.mp hd)
          rw [datagramCmd_queryOctets] at hreply
          cases hreply
        · exact htold d hd hreply
    unrelated := fun _ _ _ _ _ h => h }
  exact heffects.run (hstart node rfl)

end Node

/-! ### Steps -/

namespace Topology

variable {ι : Type} {T : Topology ι} {lib : CryptoLib} {net net' : NodeNetwork ι} {g i j : ι} {n : ℕ}

/-- What is stored as a route stays. What is told of a route in a reply therefore stays true while the reply
is in flight. -/
def Grows (net net' : NodeNetwork ι) : Prop :=
  ∀ i goal route, (net.node i).routeTo goal = some route → (net'.node i).routeTo goal = some route

private theorem hop_rightUnique (hhip : Function.Injective T.hip) (net : NodeNetwork ι) (g : ι) :
    Relator.RightUnique (T.Hop net g) := by
  rintro i j k ⟨-, route, hroute, hj⟩ ⟨-, route', hroute', hk⟩
  obtain rfl := Option.some.inj (hroute.symm.trans hroute')
  exact hhip (hj.symm.trans hk)

private theorem Grows.hop (h : Grows net net') (hhop : T.Hop net g i j) : T.Hop net' g i j := by
  obtain ⟨hlink, route, hroute, hnext⟩ := hhop
  exact ⟨hlink, route, h i _ route hroute, hnext⟩

theorem Grows.leads (h : Grows net net') (hleads : Leads (T.Hop net g) g i n) :
    Leads (T.Hop net' g) g i n :=
  hleads.mono fun _ _ => h.hop

private theorem Grows.replyLeads (h : Grows net net') {octets : Bytes} (hreply : T.ReplyLeads net j octets) :
    T.ReplyLeads net' j octets := by
  intro hcmd
  obtain ⟨g, n, ttl, route, heq, hleads⟩ := hreply hcmd
  exact ⟨g, n, ttl, route, heq, h.leads hleads⟩

/-- A node whose next hop has a way to the goal has one too. -/
private theorem exists_leads_of_next {route : RouteInfo} (hlink : T.link i j)
    (hroute : (net.node i).routeTo (T.hip g) = some route) (hnext : route.nexthop = T.hip j)
    (h : Leads (T.Hop net g) g j n) : ∃ m, Leads (T.Hop net g) g i m := by
  by_cases heq : i = g
  · subst heq
    exact ⟨0, .arrived⟩
  · exact ⟨n + 1, .hop heq ⟨hlink, route, hroute, hnext⟩ h⟩

section Act

variable [DecidableEq ι] {event : Event} {node' : Tunserver} {new : List (Datagram ι)}

theorem grows_act (hacts : Acts lib event i (net.node i) node' new) : Grows net (net.act i node' new) := by
  intro j goal route hroute
  by_cases hji : j = i
  · subst hji
    rw [Network.node_act_self, hacts.1]
    exact routeTo_finalState_of_known hroute
  · rwa [Network.node_act_of_ne hji]

/-- A route that is learned leads to where it says: over a peer that is the destination, or over the peer
that has told of it. -/
private theorem leads_of_learned (hpeers : PeersBound lib (net.node i)) (htrue : T.PeersTrue i (net.node i))
    (hevent : ∀ senderPip buf, event = .datagram senderPip buf →
      ∃ j, senderPip = T.addr j ∧ T.ReplyLeads net j buf)
    (hacts : Acts lib event i (net.node i) node' new) {goal : HashipAddr} {route : RouteInfo}
    (hlearned : (net.node i).learned lib event = some (goal, route))
    (hnew : (net.node i).routeTo goal = none) :
    ∃ g n, goal = T.hip g ∧ Leads (T.Hop (net.act i node' new) g) g i n := by
  have hgrows := grows_act hacts
  have hroute : ((net.act i node' new).node i).routeTo goal = some route := by
    rw [Network.node_act_self, hacts.1]
    exact routeTo_finalState_of_new hlearned hnew
  obtain hreplied | hdirect := replied_or_direct hlearned
  · cases hreplied with
    | @mk senderPip buf sender reply u node₁ hreply htunnel =>
      obtain ⟨hcmd, hsender, hparse, -⟩ := of_acceptedReply hreply
      obtain ⟨j, rfl, htold⟩ := hevent senderPip buf rfl
      obtain ⟨g, n, ttl, told, rfl, hleads⟩ := htold hcmd
      have hgoal : reply.goalHip = T.hip g := (fields_of_popFindhipReply hparse).2.2
      -- Who has sent the reply is the peer at that address, and it is kept under its hip.
      obtain ⟨hip, hget, hpip⟩ := exists_of_senderOf hsender
      obtain ⟨k, hlink, rfl, haddr⟩ := htrue hip sender hget
      obtain rfl := T.addr_injective (haddr.symm.trans hpip)
      have hnext : ((net.node i).repliedRoute sender reply).nexthop = T.hip k := (hpeers _ sender hget).1
      rw [hgoal] at hroute
      obtain ⟨m, hm⟩ := exists_leads_of_next hlink hroute hnext (hgrows.leads hleads)
      exact ⟨g, m, hgoal, hm⟩
  · obtain ⟨hmem, hnext, -⟩ := hpeers.direct hdirect
    obtain ⟨peering, hget⟩ := Option.isSome_iff_exists.mp (mem_peer_iff.mp hmem)
    obtain ⟨g, hlink, rfl, -⟩ := htrue goal peering hget
    obtain ⟨m, hm⟩ := exists_leads_of_next hlink hroute hnext .arrived
    exact ⟨g, m, rfl, hm⟩

omit [DecidableEq ι] in
theorem AllLead.of_unrouted (h : Unrouted lib net) : T.AllLead lib net where
  peers i := (h.1 i).1
  routes i goal route hroute := by
    rw [(h.1 i).2 goal] at hroute
    cases hroute
  replies d hd := by
    rw [h.2] at hd
    cases hd

/-- Whatever a node does whose peers are who the table says, all routes lead to where they say. It is the step
of the induction over runs; that datagrams are lost or repeated changes nothing that is stored. -/
theorem AllLead.act (h : T.AllLead lib net) (htrue : T.PeersTrue i (net.node i))
    (hevent : ∀ senderPip buf, event = .datagram senderPip buf →
      ∃ j, senderPip = T.addr j ∧ T.ReplyLeads net j buf)
    (hacts : Acts lib event i (net.node i) node' new) : T.AllLead lib (net.act i node' new) := by
  have hgrows := grows_act hacts
  have hroutes : T.RoutesLead (net.act i node' new) := by
    intro j goal route hroute
    cases hold : (net.node j).routeTo goal with
    | some known =>
      obtain ⟨g, n, hgoal, hleads⟩ := h.routes j goal known hold
      exact ⟨g, n, hgoal, hgrows.leads hleads⟩
    | none =>
      by_cases hji : j = i
      · subst hji
        rw [Network.node_act_self, hacts.1] at hroute
        cases hlearned : (net.node j).learned lib event with
        | none =>
          have hsame : (finalState (event.run lib) (net.node j)).routeTo goal = (net.node j).routeTo goal :=
            congrArg (·[goal]?) (routes_of_not_learned hlearned)
          rw [hsame, hold] at hroute
          cases hroute
        | some r =>
          obtain ⟨goal', route'⟩ := r
          rw [routeTo_finalState_of_learned hlearned] at hroute
          split at hroute
          next heq =>
            subst heq
            exact leads_of_learned (h.peers j) htrue hevent hacts hlearned hold
          · rw [hold] at hroute
            cases hroute
      · rw [Network.node_act_of_ne hji, hold] at hroute
        cases hroute
  refine ⟨fun j => ?_, hroutes, fun d hd => ?_⟩
  · by_cases hji : j = i
    · subst hji
      rw [Network.node_act_self, hacts.1]
      exact (h.peers j).run event
    · rw [Network.node_act_of_ne hji]
      exact h.peers j
  · rcases List.mem_append.mp hd with hd | hd
    -- A new reply is about a route that the node has now.
    · intro hcmd
      obtain ⟨told, hsent, htold⟩ := tellsStored_run lib event (net.node i)
      rw [hacts.2, hacts.1, sentSince_of_append hsent] at hd
      obtain ⟨d', hd', rfl⟩ := List.mem_map.mp hd
      obtain ⟨ttl, goal, route, known, heq, hknown⟩ := htold d' hd' hcmd
      have hroute : ((net.act i node' new).node i).routeTo goal = some known := by
        rw [Network.node_act_self, hacts.1, hknown]
      obtain ⟨g, n, rfl, hleads⟩ := hroutes i goal known hroute
      exact ⟨g, n, ttl, route, heq, hleads⟩
    · exact hgrows.replyLeads (h.replies d hd)

omit [DecidableEq ι] in
private theorem AllLead.withFlight (h : T.AllLead lib net) {flight : List (Datagram ι)}
    (hsub : flight ⊆ net.flight) : T.AllLead lib (net.withFlight flight) :=
  ⟨h.peers, h.routes, fun d hd => h.replies d (hsub hd)⟩

/-- One step of the network. -/
theorem AllLead.step (h : T.AllLead lib net)
    (hstep : Network.Step (T.OwnTrue lib) (T.GetsTrue lib) net net') : T.AllLead lib net' := by
  cases hstep with
  | own hown =>
    obtain ⟨htrue, event, hisOwn, -, hacts⟩ := hown
    refine h.act htrue (fun senderPip buf heq => ?_) hacts
    subst heq
    cases hisOwn
  | @deliver i d node' new pre suf hflight hgets =>
    obtain ⟨htrue, -, hacts⟩ := hgets
    have hsub : pre ++ suf ⊆ net.flight := by
      rw [hflight]
      exact ((List.sublist_cons_self d suf).append_left pre).subset
    have hreply : T.ReplyLeads net d.sender d.octets := h.replies d (by rw [hflight]; simp)
    have hrest : T.AllLead lib (net.withFlight (pre ++ suf)) := h.withFlight hsub
    refine hrest.act htrue (fun senderPip buf heq => ?_) hacts
    cases heq
    exact ⟨d.sender, rfl, hreply⟩

/-- A whole run, in which datagrams may be lost or be delivered again. -/
theorem AllLead.run (h : T.AllLead lib net)
    (hrun : Relation.ReflTransGen (Network.StepOrFault (T.OwnTrue lib) (T.GetsTrue lib)) net net') :
    T.AllLead lib net' := by
  induction hrun with
  | refl => exact h
  | tail _ hstep ih =>
    rcases hstep with hstep | hfault
    · exact ih.step hstep
    · cases hfault with
      | lose hflight =>
        refine ih.withFlight ?_
        rw [hflight]
        exact ((List.sublist_cons_self _ _).append_left _).subset
      | double hmem =>
        exact ih.withFlight (List.cons_subset.mpr ⟨hmem, List.Subset.refl _⟩)

omit [DecidableEq ι] in
/-- The nodes on the way that a route leads are a chain without a circle. -/
theorem AllLead.exists_chain (hhip : Function.Injective T.hip) (h : T.AllLead lib net) {goal : HashipAddr}
    {route : RouteInfo} (hroute : (net.node i).routeTo goal = some route) :
    ∃ g, goal = T.hip g ∧ ∃ chain : List ι, List.IsChain (T.Hop net g) (i :: chain) ∧
      (i :: chain).Nodup ∧ (i :: chain).getLast? = some g := by
  obtain ⟨g, n, hgoal, hleads⟩ := h.routes i goal route hroute
  obtain ⟨chain, -, hchain, hnodup, hlast, -⟩ := hleads.exists_chain (Topology.hop_rightUnique hhip net g)
  exact ⟨g, hgoal, chain, hchain, hnodup, hlast⟩

end Act

/-- Hops stay in every run. -/
theorem grows_of_run [DecidableEq ι]
    (hrun : Relation.ReflTransGen (Network.StepOrFault (T.OwnTrue lib) (T.GetsTrue lib)) net net') :
    Grows net net' := by
  induction hrun with
  | refl => exact fun _ _ _ hroute => hroute
  | @tail net₁ net₂ _ hstep ih =>
    have hlast : Grows net₁ net₂ := by
      rcases hstep with hstep | hfault
      · cases hstep with
        | own hown =>
          obtain ⟨-, event, -, -, hacts⟩ := hown
          exact grows_act hacts
        | deliver _ hgets =>
          obtain ⟨-, -, hacts⟩ := hgets
          exact fun i goal route hroute => grows_act hacts i goal route hroute
      · cases hfault with
        | lose _ => exact fun _ _ _ hroute => hroute
        | double _ => exact fun _ _ _ hroute => hroute
    exact fun i goal route hroute => hlast i goal route (ih i goal route hroute)

end Topology

/-- Routes lead to where they say, and not around in a circle. In every run of a network whose tables of peers
are true, in which datagrams may be lost or be delivered again: every route that is stored is one to a node of
the network, it leads there from hop to hop, and no node is on that way twice. No data that follow the routes
to a node come back to where they were. And a hop stays as it is. -/
theorem routes_lead_of_run {ι : Type} [DecidableEq ι] {T : Topology ι} {lib : CryptoLib}
    {net₀ net : NodeNetwork ι} (hhip : Function.Injective T.hip) (hstart : Unrouted lib net₀)
    (hrun : Relation.ReflTransGen (Network.StepOrFault (T.OwnTrue lib) (T.GetsTrue lib)) net₀ net) :
    (∀ i goal route, (net.node i).routeTo goal = some route →
      ∃ g, goal = T.hip g ∧ ∃ chain : List ι, List.IsChain (T.Hop net g) (i :: chain) ∧
        (i :: chain).Nodup ∧ (i :: chain).getLast? = some g) ∧
    (∀ g i, ¬ Relation.TransGen (fun i j => i ≠ g ∧ T.Hop net g i j) i i) ∧
    ∀ net', Relation.ReflTransGen (Network.StepOrFault (T.OwnTrue lib) (T.GetsTrue lib)) net net' →
      ∀ g i j, T.Hop net g i j → T.Hop net' g i j := by
  have hlead : T.AllLead lib net := (Topology.AllLead.of_unrouted hstart).run hrun
  refine ⟨fun i goal route hroute => hlead.exists_chain hhip hroute, fun g i hcycle => ?_,
    fun net' hrun' g i j hhop => ?_⟩
  -- Who is on a circle has a route, and it leads to the destination.
  · obtain ⟨j, hfirst, -⟩ := Relation.TransGen.head'_iff.mp hcycle
    obtain ⟨-, -, route, hroute, -⟩ := hfirst
    obtain ⟨g', n, hgoal, hleads⟩ := hlead.routes i _ route hroute
    obtain rfl := hhip hgoal
    exact hleads.not_cycle (Topology.hop_rightUnique hhip net g) hcycle
  · exact (Topology.grows_of_run hrun').hop hhop

/-! ### A line of nodes -/

/-- What the table of a node of the line says of a peer. -/
theorem HasLinePeers.of_get {i : Fin 4} {node : Tunserver} (h : HasLinePeers i node) {hip : HashipAddr}
    {peering : Peering} (hget : node.peer[hip]? = some peering) :
    ∃ j, lineTopology.link i j ∧ hip = sampleHip (lineKey j) ∧ peering.getPip = samplePip (lineKey j) ∧
      peering.getPub = some (sampleKey (lineKey j)) := by
  have hmem : (hip, peering.getPip, peering.getPub) ∈
      node.peer.toList.map fun v => (v.1, v.2.getPip, v.2.getPub) :=
    List.mem_map.mpr ⟨(hip, peering), Std.ExtTreeMap.mem_toList_iff_getElem?_eq_some.mpr hget, rfl⟩
  rw [h] at hmem
  obtain ⟨j, hj, heq⟩ := List.mem_map.mp hmem
  obtain ⟨hhip, hpip, hpub⟩ : sampleHip (lineKey j) = hip ∧ samplePip (lineKey j) = peering.getPip ∧
      some (sampleKey (lineKey j)) = peering.getPub := by simpa using heq
  have hlink : i.val + 1 = j.val ∨ j.val + 1 = i.val := of_decide_eq_true (List.mem_filter.mp hj).2
  exact ⟨j, hlink, hhip.symm, hpip.symm, hpub.symm⟩

theorem HasLinePeers.peersTrue {i : Fin 4} {node : Tunserver} (h : HasLinePeers i node) :
    lineTopology.PeersTrue i node := by
  intro hip peering hget
  obtain ⟨j, hlink, hhip, hpip, -⟩ := h.of_get hget
  exact ⟨j, hlink, hhip, hpip⟩

private theorem unrouted_lineStart : Unrouted CryptoLib.sample lineStart := by
  have hbound : ∀ k, PeersBound CryptoLib.sample (sampleNode k) := fun k => .new _ _ _ _ _
  refine ⟨fun i => ⟨?_, fun goal => ?_⟩, rfl⟩
  · match i with
    | 0 => exact (hbound 1).run _
    | 1 => exact ((hbound 2).run _).run _
    | 2 => exact ((hbound 3).run _).run _
    | 3 => exact (hbound 4).run _
  · have hroutes : (lineStart.node i).routes = ∅ := by
      match i with
      | 0 | 1 | 2 | 3 => rfl
    exact (congrArg (·[goal]?) hroutes).trans (by simp)

/-- A datagram that was sent to a node of the line is delivered to it. -/
private theorem trueStep_deliverAt {net : NodeNetwork (Fin 4)} {i : Fin 4} {d : Datagram (Fin 4)}
    {flight : List (Datagram (Fin 4))} (hflight : net.flight = d :: flight)
    (haddr : d.addr = samplePip (lineKey i)) (h : HasLinePeers i (net.node i)) :
    Network.StepOrFault (lineTopology.OwnTrue CryptoLib.sample) (lineTopology.GetsTrue CryptoLib.sample) net
      (deliverAt net i) := by
  have hdeliver : deliverAt net i =
      actAt (net.withFlight flight) i (.datagram (samplePip (lineKey d.sender)) d.octets) := by
    rw [deliverAt, hflight]
  have hfirst : net.flight = [] ++ d :: flight := hflight
  rw [hdeliver]
  exact .inl (.deliver hfirst ⟨h.peersTrue, haddr, rfl, rfl⟩)

/-- The first node asks for the third one, and its route leads over the second one. -/
theorem routes_lead_of_run_example :
    let net := deliverAt (deliverAt (askAt lineStart 0 (sampleHip 3)) 1) 0
    ∃ chain, List.IsChain (lineTopology.Hop net 2) (0 :: chain) ∧ (0 :: chain).Nodup ∧
      (0 :: chain).getLast? = some 2 := by
  intro net
  let net₁ := askAt lineStart 0 (sampleHip 3)
  let net₂ := deliverAt net₁ 1
  have hflight₁ : net₁.flight = [⟨0, samplePip 2, queryOctets (sampleHip 3) 5⟩] := by decide +kernel
  have hflight₂ : net₂.flight = [⟨1, samplePip 1, replyOctets 5 1 (sampleHip 3) (sampleKeyBin 3)⟩] := by
    decide +kernel
  have hask : Network.StepOrFault (lineTopology.OwnTrue CryptoLib.sample)
      (lineTopology.GetsTrue CryptoLib.sample) lineStart net₁ :=
    .inl (.own ⟨(hasLinePeers_lineNode 0).peersTrue, .request (sampleHip 3) ownReason 5, rfl, trivial, rfl, rfl⟩)
  have hquery : Network.StepOrFault (lineTopology.OwnTrue CryptoLib.sample)
      (lineTopology.GetsTrue CryptoLib.sample) net₁ net₂ :=
    trueStep_deliverAt hflight₁ rfl (hasLinePeers_lineNode 1)
  have hreply : Network.StepOrFault (lineTopology.OwnTrue CryptoLib.sample)
      (lineTopology.GetsTrue CryptoLib.sample) net₂ net :=
    trueStep_deliverAt hflight₂ rfl (by with_unfolding_all rfl)
  have hlead := (routes_lead_of_run (by decide) unrouted_lineStart
    (((Relation.ReflTransGen.single hask).tail hquery).tail hreply)).1
  obtain ⟨route, hroute⟩ := Option.isSome_iff_exists.mp
    (show ((net.node 0).routeTo (sampleHip 3)).isSome = true by decide +kernel)
  obtain ⟨g, hgoal, hchain⟩ := hlead 0 _ route hroute
  obtain rfl : 2 = g := (by decide : Function.Injective lineTopology.hip) hgoal
  exact hchain

end Galaxy42
