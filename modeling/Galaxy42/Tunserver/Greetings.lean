import Galaxy42.Tunserver.NodeTunnel
import Galaxy42.Tunserver.RouteChains
import Galaxy42.Tunserver.TunnelRuns

/-!
# Greetings in a network

What the tables of peers say is learned from greetings, and from references that users give. A greeting tells the
keys of who has made it, it is only sent to peers of its sender, and the receiver takes the address from where it
comes and the hip from the keys. So in a network in which datagrams come from where they seem to come, and users
give true references, the tables of all nodes are true in every state of every run (`peersTrue_of_run`), whatever
is lost or delivered again. And then all routes lead to where they say.

A reference is true (`RefTrue`) when its address and its hip are those of one node, which is linked with the
node that is given it. Users may give any true reference, at any time, and may remove whom they like. A
greeting is true (`GreetingTrue`) when it was made by its sender and was sent to a peer; that every greeting
in flight is true is carried along with the tables, as each of the two needs the other one.

What a network must have for that is that the hip of each node is the hash of its identity, as every node
calculates it (`Named`). Nothing is said of the hash itself, so two nodes may have one hip, as long as
what is said of the one is true of it.

The result is the hypothesis of the one on routes (`RouteChains`): here it is shown to hold of every run from
nodes that have just been started.
-/

namespace Galaxy42

open Toolkit Program TrivialSerialize Tunserver

variable {lib : CryptoLib} {node other : Tunserver} {event : Event}

/-! ### What is read of a greeting -/

/-- The address of a peer is the one that his greeting comes from. -/
private theorem peeringAddr_of_readHis {senderPip : Ip46Addr}
    {binHisIDCPub binHisIDIPub binHisIDIIDCSig : Bytes}
    {peerRef : PeeringReference} {pubkey : HashipPubkey}
    (h : readHis lib senderPip binHisIDCPub binHisIDIPub binHisIDIIDCSig node = .ok (peerRef, pubkey) node) :
    peerRef.peeringAddr = senderPip := by
  rw [readHis, bind_of_ok (get_apply node)] at h
  obtain ⟨_, _, -, h⟩ := bind_eq_ok_iff.mp h
  obtain ⟨_, _, -, h⟩ := bind_eq_ok_iff.mp h
  obtain ⟨_, _, -, h⟩ := bind_eq_ok_iff.mp h
  obtain ⟨_, _, -, h⟩ := bind_eq_ok_iff.mp h
  obtain ⟨_, _, -, h⟩ := bind_eq_ok_iff.mp h
  obtain ⟨_, _, -, h⟩ := bind_eq_ok_iff.mp h
  cases h
  rfl

/-- Whom a greeting is taken to be from: who has made it, at the address that it comes from. -/
private theorem of_greeting {senderPip : Ip46Addr} {data : Bytes} {peerRef : PeeringReference}
    {pubkey : HashipPubkey}
    (hgreets : other.Greets data) (h : greeting lib node senderPip data = some (peerRef, pubkey)) :
    peerRef.peeringAddr = senderPip ∧ HasHip lib (other.myIDIPub.received node.ipv6Prefix) peerRef.hashipAddr := by
  obtain ⟨binIDCPub, binIDIPub, binIDIIDCSig, hlimIDC, hlimIDI, hserialized, rfl⟩ :=
    hgreets.exists_greetingBin
  rw [greeting, if_pos (datagramCmd_cmdOctets _ _)] at h
  simp only [Option.bind_eq_bind, Option.bind_eq_some_iff] at h
  obtain ⟨⟨binHisIDCPub, binHisIDIPub, binHisIDIIDCSig⟩, hparse, hread⟩ := h
  obtain ⟨node', hrun⟩ := returned_eq_some_iff.mp hparse
  obtain ⟨c, hpop⟩ := (within_eq_ok_iff.mp hrun).1
  obtain ⟨hbin, hsane⟩ := eq_of_popPublicHi hlimIDC hlimIDI hpop
  obtain rfl : binHisIDIPub = binIDIPub := hbin
  have hreadHis := eq_ok_of_returned (fun _ => preserves_readHis _ _ _ _) hread
  obtain ⟨hhip, hkey⟩ := of_readHis_eq_ok hreadHis
  obtain ⟨hisPubkey, hload, rfl⟩ := hkey node
  have hwritten := writtenAs_of_ofBin hserialized hsane hload
  obtain ⟨rfl, -⟩ := EStateM.Result.ok.inj ((hwritten.ofBin node).symm.trans hload)
  exact ⟨peeringAddr_of_readHis hreadHis, hhip⟩

/-! ### What greetings are sent -/

/-- A greeting that a node sends to one of its peers. -/
def Tunserver.GreetsPeer (node : Tunserver) (d : Ip46Addr × Bytes) : Prop :=
  (∃ other : Tunserver, other.myIDIPub = node.myIDIPub ∧ other.Greets d.2) ∧
    ∃ (hip : HashipAddr) (peering : Peering), node.peer[hip]? = some peering ∧ d.1 = peering.getPip

/-- All greetings that a node has sent since it was in another state are to peers it had there. -/
def Tunserver.OnlyGreetsPeers (node node' : Tunserver) : Prop :=
  ∃ new, node'.sent = new ++ node.sent ∧
    ∀ d ∈ new, datagramCmd d.2 = some .publicHi → node.GreetsPeer d

namespace Tunserver.OnlyGreetsPeers

private theorem refl (node : Tunserver) : node.OnlyGreetsPeers node :=
  ⟨[], rfl, fun _ hd => absurd hd List.not_mem_nil⟩

private theorem append {node' : Tunserver} (h : node.OnlyGreetsPeers node') {more : List (Ip46Addr × Bytes)}
    (hmore : ∀ d ∈ more, datagramCmd d.2 = some .publicHi → node.GreetsPeer d) {node'' : Tunserver}
    (hsent : node''.sent = more ++ node'.sent) : node.OnlyGreetsPeers node'' := by
  obtain ⟨new, hnew, hall⟩ := h
  refine ⟨more ++ new, by rw [hsent, hnew, List.append_assoc], fun d hd => ?_⟩
  obtain hd | hd := List.mem_append.mp hd
  · exact hmore d hd
  · exact hall d hd

/-- Nothing is sent. -/
theorem nothing {node' node'' : Tunserver} (h : node.OnlyGreetsPeers node') (hsent : node''.sent = node'.sent) :
    node.OnlyGreetsPeers node'' :=
  h.append (fun _ hd => absurd hd List.not_mem_nil) (show node''.sent = [] ++ node'.sent from hsent)

private theorem tunnelEffects (lib : CryptoLib) (node : Tunserver) :
    TunnelEffects lib node.OnlyGreetsPeers where
  frame _ _ _ _ hsent h := h.nothing hsent
  send _ _ hnew h := h.append (fun d hd hcmd => absurd hcmd (hnew d hd)) rfl
  add _ _ _ _ _ _ h _ _ _ := h.nothing rfl
  box _ _ _ _ _ _ _ h _ _ := h.nothing rfl

/-- Pinging a peer sends nothing, or a greeting to it. -/
private theorem pingPeer {node' : Tunserver} (h : node.OnlyGreetsPeers node')
    (hIDI : other.myIDIPub = node.myIDIPub)
    (IDIIDCSig : Multisign) {hip : HashipAddr} {peering : Peering} (hget : node.peer[hip]? = some peering) :
    node.OnlyGreetsPeers (finalState (Tunserver.pingPeer other IDIIDCSig peering) node') := by
  let bin : Program Exn Tunserver Bytes := generate do
    pushVarstring (← other.myIDC.pub.serializeBin)
    pushVarstring (← other.myIDIPub.serializeBin)
    pushVarstring (← IDIIDCSig.serializeBin)
  have hbin : finalState bin node' = node' := preserves_generate (I := fun node₁ => node₁ = node') _ node' rfl
  cases hrun : bin node' with
  | error e node₁ =>
    rw [finalState_of_error hrun] at hbin
    have hping : Tunserver.pingPeer other IDIIDCSig peering node' = .error e node₁ := bind_of_error hrun
    rwa [finalState_of_error hping, hbin]
  | ok cmdData node₁ =>
    rw [finalState_of_ok hrun] at hbin
    subst hbin
    have hping : Tunserver.pingPeer other IDIIDCSig peering node₁ =
        peering.sendDataUdpCmd .publicHi cmdData node₁ := bind_of_ok hrun
    by_cases hsend : peering.Sendable ∧ node₁.udpDisabled = false
    · have hpush : peering.sendDataUdpCmd .publicHi cmdData node₁ =
          .ok () (node₁.pushSent peering.getPip (cmdOctets .publicHi cmdData)) := by
        rw [Peering.sendDataUdpCmd_eq]
        exact Peering.sendDataRAWUdp_of_sendable hsend.1 hsend.2
      rw [finalState_of_ok (hping.trans hpush)]
      have hsent : (node₁.pushSent peering.getPip (cmdOctets .publicHi cmdData)).sent =
          [(peering.getPip, cmdOctets .publicHi cmdData)] ++ node₁.sent := rfl
      refine h.append (fun d hd _ => ?_) hsent
      obtain rfl := List.mem_singleton.mp hd
      exact ⟨⟨other, hIDI, IDIIDCSig, peering, node₁, hping.trans hpush⟩, hip, peering, hget, rfl⟩
    · rw [finalState_congr hping, Peering.sendDataUdpCmd_eq, Peering.finalState_sendDataRAWUdp, if_neg hsend]
      exact h

/-- Whatever a node does, it only greets its peers. -/
theorem run (lib : CryptoLib) (event : Event) (node : Tunserver) :
    node.OnlyGreetsPeers (finalState (event.run lib) node) := by
  by_cases hevent : ∃ enableRemove timedOut sig, event = .ping enableRemove timedOut sig
  swap
  · exact (tunnelEffects lib node).run (refl node) fun hping => absurd hping hevent
  obtain ⟨enableRemove, timedOut, IDIIDCSig, rfl⟩ := hevent
  -- Those who are pinged are in the table, also before peers are removed.
  have hpings : ∀ node₁ : Tunserver, node₁.sent = node.sent → node₁.myIDIPub = node.myIDIPub →
      (∀ (hip : HashipAddr) (peering : Peering), node₁.peer[hip]? = some peering →
        node.peer[hip]? = some peering) →
        node.OnlyGreetsPeers (finalState (node₁.peer.toList.forM fun v =>
          Tunserver.pingPeer node₁ IDIIDCSig v.2) node₁) := by
    intro node₁ hsent hIDI hpeer
    have hstart : node.OnlyGreetsPeers node₁ := (refl node).nothing hsent
    refine Preserves.forM (fun v hv node₂ h₂ => ?_) node₁ hstart
    exact h₂.pingPeer hIDI IDIIDCSig (hpeer v.1 v.2 (Std.ExtTreeMap.mem_toList_iff_getElem?_eq_some.mp hv))
  let pings : Node Unit := do
    let node ← get
    node.peer.toList.forM fun v => Tunserver.pingPeer node IDIIDCSig v.2
  rw [finalState_run, Event.handle]
  cases enableRemove with
  | false =>
    have hping : peeringPingAllPeers false timedOut IDIIDCSig = pings := rfl
    rw [hping, finalState_bind_of_ok (get_apply node)]
    exact hpings node rfl rfl fun _ _ hget => hget
  | true =>
    have hremove : peeringPingAllPeers true timedOut IDIIDCSig =
        (modify fun node => node.removePeers timedOut) >>= fun _ => pings := rfl
    rw [hremove, finalState_bind_of_ok (modify_apply _ node), finalState_bind_of_ok (get_apply _)]
    refine hpings (node.removePeers timedOut) rfl rfl fun hip peering hget => ?_
    rw [getElem?_removePeers] at hget
    split at hget
    · cases hget
    · exact hget

end Tunserver.OnlyGreetsPeers

/-- A node keeps its identity and its prefix. -/
theorem identity_run (lib : CryptoLib) (event : Event) (node : Tunserver) :
    (finalState (event.run lib) node).myIDIPub = node.myIDIPub ∧
      (finalState (event.run lib) node).ipv6Prefix = node.ipv6Prefix := by
  have hclosed : Closed fun node' => node'.myIDIPub = node.myIDIPub ∧ node'.ipv6Prefix = node.ipv6Prefix := by
    refine ⟨fun _ _ _ _ _ h => h, fun _ _ _ _ _ h => h, fun dst reason searchTtl node' h => ?_⟩
    obtain ⟨m, hm, -⟩ := finalState_searchRoute dst reason searchTtl node'
    rw [hm]
    exact h
  exact hclosed.run ⟨rfl, rfl⟩ ⟨fun _ _ _ => ⟨rfl, rfl⟩, fun _ _ _ => ⟨rfl, rfl⟩, fun _ => ⟨rfl, rfl⟩⟩

/-! ### A network of honest nodes -/

namespace Topology

variable {ι : Type} (T : Topology ι) (lib : CryptoLib) (IDI : ι → MultikeysPub)

/-- The address of each node is the hash of its keys, as every node calculates it. The keys are taken as they
are read from a greeting, with the prefix of who reads it. -/
def Named : Prop := ∀ i j hip, HasHip lib ((IDI j).received (T.ipv6Prefix i)) hip → hip = T.hip j

/-- What a reference says is true, for a node that is linked with who it is about. -/
def RefTrue (i : ι) (peerRef : PeeringReference) : Prop :=
  ∃ j, T.link i j ∧ peerRef.hashipAddr = T.hip j ∧ peerRef.peeringAddr = T.addr j

/-- A node does something on its own, and is only given references that are true. Everything else that users
may do is allowed, removing and banning peers too. -/
def OwnHonest (i : ι) (node node' : Tunserver) (new : List (Datagram ι)) : Prop :=
  OwnStep lib (fun node event => ∀ peerRef, event.Brings lib node peerRef → T.RefTrue i peerRef) i node node' new

/-- A node has its identity, and a table of peers that is true. -/
structure Knowing (i : ι) (node : Tunserver) : Prop where
  myIDIPub : node.myIDIPub = IDI i
  ipv6Prefix : node.ipv6Prefix = T.ipv6Prefix i
  peers : T.PeersTrue i node

/-- A greeting was made by its sender, for a peer. -/
def GreetingTrue (d : Datagram ι) : Prop :=
  datagramCmd d.octets = some .publicHi →
    (∃ other : Tunserver, other.myIDIPub = IDI d.sender ∧ other.Greets d.octets) ∧
      ∃ i, T.link d.sender i ∧ d.addr = T.addr i

variable {T lib IDI} {i : ι} {node' : Tunserver} {new : List (Datagram ι)}

private theorem RefTrue.welcome {peerRef : PeeringReference} (h : T.RefTrue i peerRef) :
    Welcome (fun hip peering => ∃ j, T.link i j ∧ hip = T.hip j ∧ peering.getPip = T.addr j) peerRef := by
  obtain ⟨j, hlink, hhip, haddr⟩ := h
  exact ⟨⟨j, hlink, hhip, haddr⟩, fun _ _ => ⟨j, hlink, hhip, haddr⟩⟩

/-- Whatever a node does that is only told what is true: its table stays true, and its greetings are. -/
private theorem Knowing.act (h : T.Knowing IDI i node)
    (hbrings : ∀ peerRef, event.Brings lib node peerRef → T.RefTrue i peerRef)
    (hacts : Acts lib event i node node' new) :
    T.Knowing IDI i node' ∧ ∀ d ∈ new, T.GreetingTrue IDI d := by
  obtain ⟨rfl, rfl⟩ := hacts
  obtain ⟨hIDI, hprefix⟩ := identity_run lib event node
  refine ⟨⟨hIDI.trans h.myIDIPub, hprefix.trans h.ipv6Prefix, ?_⟩, fun d hd hcmd => ?_⟩
  · exact AllPeers.run (fun _ _ _ hpeering => hpeering) h.peers
      fun peerRef hbring => (hbrings peerRef hbring).welcome
  · obtain ⟨sent, hsent, hgreets⟩ := OnlyGreetsPeers.run lib event node
    rw [sentSince_of_append hsent] at hd
    obtain ⟨d', hd', rfl⟩ := List.mem_map.mp hd
    obtain ⟨⟨other, hother, hgreet⟩, hip, peering, hget, haddr⟩ := hgreets d' hd' hcmd
    obtain ⟨j, hlink, -, hpip⟩ := h.peers hip peering hget
    exact ⟨⟨other, hother.trans h.myIDIPub, hgreet⟩, j, hlink, haddr.trans hpip⟩

/-- All that a true greeting brings is true. -/
private theorem Knowing.refTrue (hnamed : T.Named lib IDI) (h : T.Knowing IDI i node) {d : Datagram ι}
    (hgreeting : T.GreetingTrue IDI d) (haddr : d.addr = T.addr i) {peerRef : PeeringReference}
    (hbrings : (Event.datagram (T.addr d.sender) d.octets).Brings lib node peerRef) : T.RefTrue i peerRef := by
  obtain ⟨pubkey, hsome⟩ := hbrings
  have hcmd : datagramCmd d.octets = some .publicHi := by
    by_contra hother
    rw [greeting, if_neg hother] at hsome
    cases hsome
  obtain ⟨⟨other, hIDI, hgreets⟩, k, hlink, hto⟩ := hgreeting hcmd
  obtain rfl := T.addr_injective (hto.symm.trans haddr)
  obtain ⟨hpip, hhip⟩ := of_greeting hgreets hsome
  rw [hIDI, h.ipv6Prefix] at hhip
  exact ⟨d.sender, T.link_symm hlink, hnamed _ _ _ hhip, hpip⟩

private theorem invariant_knowing (hnamed : T.Named lib IDI) :
    Network.Invariant (T.OwnHonest lib) (Receives lib T.addr) (T.Knowing IDI) (T.GreetingTrue IDI) where
  own i node node' new h hown := by
    obtain ⟨event, -, hbrings, hacts⟩ := hown
    exact h.act hbrings hacts
  receive i d node node' new h hd hgets := by
    obtain ⟨haddr, hacts⟩ := hgets
    exact h.act (fun peerRef hbrings => h.refTrue hnamed hd haddr hbrings) hacts

variable [DecidableEq ι] {net₀ net : NodeNetwork ι}

/-- So all nodes always know who their peers are, and every run is one in which they do. -/
theorem knowing_of_run (hnamed : T.Named lib IDI) (hstart : net₀.Holds (T.Knowing IDI) (T.GreetingTrue IDI))
    (hrun : Relation.ReflTransGen (Network.StepOrFault (T.OwnHonest lib) (Receives lib T.addr)) net₀ net) :
    net.Holds (T.Knowing IDI) (T.GreetingTrue IDI) ∧
      Relation.ReflTransGen (Network.StepOrFault (T.OwnTrue lib) (T.GetsTrue lib)) net₀ net := by
  induction hrun with
  | refl => exact ⟨hstart, .refl⟩
  | tail _ hstep ih =>
    obtain ⟨hholds, hrun⟩ := ih
    rcases hstep with hstep | hfault
    · refine ⟨(invariant_knowing hnamed).step hholds hstep, hrun.tail (.inl ?_)⟩
      cases hstep with
      | own hown =>
        obtain ⟨event, hisOwn, -, hacts⟩ := hown
        exact .own ⟨(hholds.1 _).peers, event, hisOwn, trivial, hacts⟩
      | deliver hflight hgets => exact .deliver hflight ⟨(hholds.1 _).peers, hgets⟩
    · exact ⟨hholds.fault hfault, hrun.tail (.inr hfault)⟩

end Topology

/-- The tables of peers are true, since greetings are. In every run of a network that begins without peers and
routes, in which users only give true references, and datagrams come from where they seem to come but may be lost
or be delivered again: whoever is in a table of peers is a node with that address, at that address of its socket,
and every route that a node has stored leads to its goal over such peers, without a circle. -/
theorem peersTrue_of_run {ι : Type} [DecidableEq ι] {T : Topology ι} {lib : CryptoLib} {IDI : ι → MultikeysPub}
    {net₀ net : NodeNetwork ι} (hnamed : T.Named lib IDI) (hhip : Function.Injective T.hip)
    (hstart : ∀ i, (net₀.node i).myIDIPub = IDI i ∧ (net₀.node i).ipv6Prefix = T.ipv6Prefix i ∧
      (net₀.node i).peer = ∅ ∧ ∀ goal, (net₀.node i).routeTo goal = none) (hquiet : net₀.flight = [])
    (hrun : Relation.ReflTransGen (Network.StepOrFault (T.OwnHonest lib) (Receives lib T.addr)) net₀ net) :
    (∀ i (hip : HashipAddr) (peering : Peering), (net.node i).peer[hip]? = some peering →
      ∃ j, T.link i j ∧ hip = T.hip j ∧ peering.getPip = T.addr j) ∧
    ∀ i goal route, (net.node i).routeTo goal = some route →
      ∃ g, goal = T.hip g ∧ ∃ chain : List ι, List.IsChain (T.Hop net g) (i :: chain) ∧
        (i :: chain).Nodup ∧ (i :: chain).getLast? = some g := by
  have hnone : ∀ i (hip : HashipAddr), (net₀.node i).peer[hip]? = none := fun i hip => by
    rw [(hstart i).2.2.1]
    exact Std.ExtTreeMap.getElem?_empty
  have hknowing : net₀.Holds (T.Knowing IDI) (T.GreetingTrue IDI) := by
    refine ⟨fun i => ⟨(hstart i).1, (hstart i).2.1, fun hip peering hget => ?_⟩, fun d hd => ?_⟩
    · rw [hnone] at hget
      cases hget
    · rw [hquiet] at hd
      cases hd
  have hunrouted : Unrouted lib net₀ := by
    refine ⟨fun i => ⟨fun hip peering hget => ?_, (hstart i).2.2.2⟩, hquiet⟩
    rw [hnone] at hget
    cases hget
  obtain ⟨hholds, htrue⟩ := Topology.knowing_of_run hnamed hknowing hrun
  have hlead := (Topology.AllLead.of_unrouted hunrouted).run htrue
  exact ⟨fun i => (hholds.1 i).peers, fun i goal route hroute => hlead.exists_chain hhip hroute⟩

/-- The number that the keys and the addresses of one of two nodes are made of. -/
def pairKey (i : Fin 2) : UInt8 := UInt8.ofNat (i.val + 1)

/-- Two nodes, with a session and an identity each. -/
def pairTopology : Topology (Fin 2) where
  addr i := samplePip (pairKey i)
  hip i := identityHip (pairKey i)
  myIDC i := x25519Pair [pairKey i]
  ipv6Prefix i := (sampleKey (pairKey i)).ipv6Prefix
  link i j := i ≠ j
  addr_injective := by decide
  link_symm h := h.symm

/-- Two nodes that have just been started. -/
def pairStart : NodeNetwork (Fin 2) where
  node i := identifiedNode (x25519Pair [pairKey i]) (pairKey i)
  flight := []

/-- The network after something has happened at one of the two nodes. -/
def pairAct (net : NodeNetwork (Fin 2)) (i : Fin 2) (event : Event) : NodeNetwork (Fin 2) :=
  let node := finalState (event.run CryptoLib.sample) (net.node i)
  net.act i node ((node.sentSince (net.node i)).map fun d => { sender := i, addr := d.1, octets := d.2 })

/-- The only datagram in flight is delivered. -/
private theorem step_pairDeliver {own : Fin 2 → Tunserver → Tunserver → List (Datagram (Fin 2)) → Prop}
    {net : NodeNetwork (Fin 2)} {i j : Fin 2} {addr pip : Ip46Addr} {octets : Bytes}
    (hflight : net.flight = [⟨j, addr, octets⟩]) (haddr : addr = pairTopology.addr i)
    (hpip : pip = pairTopology.addr j) :
    Network.StepOrFault own (Receives CryptoLib.sample pairTopology.addr) net
      (pairAct (net.withFlight []) i (.datagram pip octets)) := by
  subst hpip
  have hfirst : net.flight = [] ++ (⟨j, addr, octets⟩ : Datagram (Fin 2)) :: [] := hflight
  exact .inl (.deliver hfirst ⟨haddr, rfl, rfl⟩)

/-- The first node gets a reference to the second one, and greets it. -/
def pairGreeted : NodeNetwork (Fin 2) :=
  let first : Fin 2 := ⟨0, Nat.two_pos⟩
  let known := pairAct pairStart first (.op (.addPeer { peeringAddr := samplePip 2, hashipAddr := identityHip 2 }))
  pairAct known first
    (.ping false (fun _ => false) (Multisign.new.addSignature CryptoSystemType.ed25519.nr (1 :: oneKeyBin 120 1)))

private theorem named_pairTopology :
    pairTopology.Named CryptoLib.sample fun i => (identity (pairKey i)).pub := by
  have hhas : ∀ i j : Fin 2, HasHip CryptoLib.sample
      ((identity (pairKey j)).pub.received (pairTopology.ipv6Prefix i)) (identityHip (pairKey j)) := by
    decide +kernel
  intro i j hip hhip
  exact (EStateM.Result.ok.inj (hhip.symm.trans (hhas i j))).1

/-- The greeting is accepted, and the second node knows the first one then. -/
theorem peersTrue_of_run_example :
    let net := pairAct (pairGreeted.withFlight []) 1 (.datagram (samplePip 1) (signedGreeting 120 1 1))
    ((net.node 1).peer[identityHip 1]?.map Peering.getPip) = some (samplePip 1) ∧
      ∀ i (hip : HashipAddr) (peering : Peering), (net.node i).peer[hip]? = some peering →
        ∃ j, pairTopology.link i j ∧ hip = pairTopology.hip j ∧ peering.getPip = pairTopology.addr j := by
  intro net
  have hflight : pairGreeted.flight = [⟨0, samplePip 2, signedGreeting 120 1 1⟩] := by decide +kernel
  have hone : (0 : Fin 2) ≠ 1 := by decide
  have hdeliver : Network.StepOrFault (pairTopology.OwnHonest CryptoLib.sample)
      (Receives CryptoLib.sample pairTopology.addr) pairGreeted net := step_pairDeliver hflight rfl rfl
  have hrun : Relation.ReflTransGen (Network.StepOrFault (pairTopology.OwnHonest CryptoLib.sample)
      (Receives CryptoLib.sample pairTopology.addr)) pairStart net := by
    refine .head (.inl (.own ⟨.op (.addPeer { peeringAddr := samplePip 2, hashipAddr := identityHip 2 }), rfl,
      ?_, rfl, rfl⟩)) (.head (b := pairGreeted) (.inl (.own ⟨.ping false (fun _ => false) _, rfl, ?_, rfl, rfl⟩))
        (.single hdeliver))
    · rintro peerRef rfl
      exact ⟨1, hone, rfl, rfl⟩
    · rintro peerRef hbrings
      cases hbrings
  have hroutes : ∀ i, (pairStart.node i).routingManager.routeNexthop = ∅ := fun _ => rfl
  exact ⟨by decide +kernel, (peersTrue_of_run named_pairTopology (by decide)
    (fun i => ⟨rfl, rfl, rfl, fun goal => by rw [routeTo, hroutes, Std.ExtTreeMap.getElem?_empty]⟩) rfl hrun).1⟩

end Galaxy42
