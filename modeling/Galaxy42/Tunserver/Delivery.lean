import Mathlib.Tactic.FinCases
import Galaxy42.Tunserver.PacketIntegrity
import Galaxy42.Tunserver.RouteChains

/-!
# Data arrive

Data that follow routes from node to node. When the routes lead from a node to the destination in at most five
hops, then data that are sent from there with the TTL that packets of the card get are never dropped on the way:
in every state of every run in which no datagram is lost, they are in flight, until the destination gets them
(`data_arrive`). Each node on the way either has the destination as a peer, and sends the data there at once, or
sends them to the next hop of its route (`sent_of_way`), and the TTL is larger than the number of hops that
are left.

Two things that could keep a node from forwarding are excluded by invariants: no peer ever runs out of the
points that a node gives it, since none are taken (`LimitsFull.run`), and a node never takes the data of another
one for its own (`myHip_run`).

Two others are conditions on the run, and are parts of its steps (`OwnKnown`, `GetsKnown`): a node does something
only while it knows its peers, and while its table of peers is true. A node that has removed the peer that its
route leads over would drop the data, since routes are not looked at when peers are removed.

That the data are in transit (`InTransit`) is stated with the number of hops that are left, which is less than
the TTL of the datagram. Hops that were there stay, since routes are never replaced; so every step keeps it as
long as the datagram is not delivered, and the delivery of it leads to the next one, with a TTL and a number
of hops that are both smaller. It ends when the destination gets it (`NotYet`).
-/

namespace Galaxy42

open Toolkit Program TrivialSerialize Tunserver

variable {lib : CryptoLib} {node : Tunserver} {event : Event}

/-! ### Points of peers -/

/-- All peers have points left. Forwarding asks for points that are not negative, so this is what lets data of
any peer pass. -/
def LimitsFull (node : Tunserver) : Prop := AllPeers (fun _ peering => 0 ≤ peering.limitPoints) node

/-- No event takes points from a peer. -/
theorem LimitsFull.run (h : LimitsFull node) (event : Event) :
    LimitsFull (finalState (event.run lib) node) :=
  AllPeers.run (fun _ _ _ hlimit => hlimit) h fun _ _ =>
    ⟨show (0 : ℤ) ≤ 100 by decide, fun _ hlimit => hlimit⟩

/-- A node keeps its address. -/
theorem myHip_run (lib : CryptoLib) (event : Event) (node : Tunserver) :
    (finalState (event.run lib) node).myHip = node.myHip := by
  have hclosed : Closed fun node' => node'.myHip = node.myHip := by
    refine ⟨fun _ _ _ _ _ h => h, fun _ _ _ _ _ h => h, fun dst reason searchTtl node' h => ?_⟩
    obtain ⟨m, hm, -⟩ := finalState_searchRoute dst reason searchTtl node'
    rw [hm]
    exact h
  exact hclosed.run rfl ⟨fun _ _ _ => rfl, fun _ _ _ => rfl, fun _ => rfl⟩

/-! ### One hop -/

namespace Topology

variable {ι : Type} {T : Topology ι} {g i j k : ι} {n : ℕ}

/-- A node of the network as it is at every time: it has its address, and its peers have points left. These
are kept in every step, whatever happens. -/
structure Member (T : Topology ι) (lib : CryptoLib) (i : ι) (node : Tunserver) : Prop
    extends T.Running lib i node where
  self : node.myHip = T.hip i
  limits : LimitsFull node

/-- Data for a node go there at once, or to the next hop. -/
theorem exists_nextPeer (hhip : Function.Injective T.hip) (hknows : T.KnowsPeers lib i node)
    (htrue : T.PeersTrue i node) (hlink : T.link i k)
    (hway : k = g ∨ ∃ route, node.routeTo (T.hip g) = some route ∧ route.nexthop = T.hip k) :
    ∃ k' peering, T.link i k' ∧ (k' = g ∨ k' = k) ∧ node.nextPeer 2 (T.hip g) = .send peering ∧
      peering.getPip = T.addr k' ∧ peering.Sendable := by
  obtain ⟨next, hnext, hpip⟩ := hknows.link k hlink
  rw [nextPeer]
  cases hget : node.peer[T.hip g]? with
  | some peering =>
    obtain ⟨m, hm, heq, haddr⟩ := htrue _ peering hget
    obtain rfl := hhip heq
    exact ⟨g, peering, hm, .inl rfl, rfl, haddr, (hknows.peer _ peering hget).1⟩
  | none =>
    obtain rfl | ⟨route, hroute, hhop⟩ := hway
    · rw [hget] at hnext
      cases hnext
    · rw [hroute]
      dsimp only
      rw [hhop, nextPeer, hnext]
      exact ⟨k, next, hlink, .inr rfl, rfl, hpip, (hknows.peer _ next hnext).1⟩

/-- Data that are routed to a peer are sent to it. -/
private theorem sent_of_nextPeer {packet : TunneledData} (hwrite : Peering.Writable packet)
    (httl : 0 < packet.ttl)
    {peering : Peering} (hnext : node.nextPeer 2 packet.dstHip = .send peering) (hsend : peering.Sendable)
    (hon : node.udpDisabled = false) (reason : RouteReason) :
    (finalState (routeTunDataToItsDestinationTop packet reason) node).sent =
      (peering.getPip, tunneledOctets packet) :: node.sent := by
  have hpeers : node.peer.size ≠ 0 := by
    obtain ⟨hip, hget⟩ := exists_of_nextPeer_eq_send 2 _ hnext
    exact peer_size_ne_zero hget
  have hrouted : routed node packet = .send peering :=
    (if_neg (not_or.mpr ⟨not_le.mpr httl, hpeers⟩)).trans hnext
  have hpush : peering.sendDataRAWUdp (tunneledOctets packet) node = _ :=
    Peering.sendDataRAWUdp_of_sendable hsend hon
  rw [finalState_routeTop, hrouted]
  dsimp only
  rw [finalState_congr (Peering.sendDataUdp_of_writable hwrite), finalState_of_ok hpush]
  rfl

/-- Data are read with the TTL that was written. -/
private theorem acceptedPacket_tunneledOctets {packet : TunneledData} (hwrite : Peering.Writable packet)
    (hblob : packet.blob.length ≤ saneMaxSizeForString) {ttl : ℤ} (h0 : 0 ≤ ttl) (hlt : ttl < 256)
    {senderPip : Ip46Addr} {sender : Peering} (hsender : node.senderOf senderPip = some sender) :
    node.acceptedPacket senderPip (tunneledOctets { packet with ttl }) =
      some (sender, { packet with ttl }) := by
  have hcarries : Carries packet (tunneledOctets { packet with ttl }) := ⟨ttl, h0, hlt, rfl⟩
  obtain ⟨ttl', haccept⟩ := hcarries.acceptedPacket hwrite hblob hsender
  have hread := (fields_of_popTunneledData (of_acceptedPacket haccept).2.2).2.2
  obtain rfl : ttl' = ttl := hread.trans (toNat_ofInt_of_lt h0 hlt)
  exact haccept

/-- A node on the way sends the data to the destination, or to the next hop. -/
theorem sent_of_way (hhip : Function.Injective T.hip) (hmember : T.Member lib i node)
    (hknows : T.KnowsPeers lib i node) (htrue : T.PeersTrue i node) (hne : i ≠ g) (hlink : T.link i k)
    (hway : k = g ∨ ∃ route, node.routeTo (T.hip g) = some route ∧ route.nexthop = T.hip k)
    {packet : TunneledData} (hdst : packet.dstHip = T.hip g) (hwrite : Peering.Writable packet)
    (hblob : packet.blob.length ≤ saneMaxSizeForString) (hsender : T.link i j) {ttl : ℤ} (h2 : 2 ≤ ttl)
    (hlt : ttl < 256) :
    ∃ k', T.link i k' ∧ (k' = g ∨ k' = k) ∧
      (finalState ((Event.datagram (T.addr j) (tunneledOctets { packet with ttl })).run lib) node).sent =
        (T.addr k', tunneledOctets { packet with ttl := forwardTtl ttl }) :: node.sent := by
  obtain ⟨sender, hfrom, -⟩ := hknows.exists_senderOf hsender
  have haccept := acceptedPacket_tunneledOctets hwrite hblob (by omega) hlt hfrom
  obtain ⟨hip, hget, -⟩ := exists_of_senderOf hfrom
  have hlimit : ¬ sender.limitPoints < 0 := not_lt.mpr (hmember.limits hip sender hget)
  have hother : packet.dstHip ≠ node.myHip := by
    rw [hdst, hmember.self]
    exact fun heq => hne (hhip heq).symm
  have hpos : 0 < forwardTtl ttl := by
    have hmax : ttlMaxAccepted = 5 := rfl
    unfold forwardTtl
    dsimp only
    split <;> omega
  obtain ⟨k', peering, hlink', hwhere, hnext, hpip, hsend⟩ := exists_nextPeer hhip hknows htrue hlink hway
  rw [← hdst] at hnext
  refine ⟨k', hlink', hwhere, ?_⟩
  rw [finalState_run, Event.handle, finalState_congr (handleDatagram_of_packet haccept), if_neg hother,
    forwardTunneledData, if_neg hlimit, finalState_bind_pure, ← hpip]
  have hwritable : Peering.Writable { packet with ttl := forwardTtl ttl } := hwrite
  exact sent_of_nextPeer hwritable hpos hnext hsend hmember.udp _

/-! ### Data in transit -/

/-- A node does something on its own, that knows its peers. Its table has all nodes that it is linked with,
and says of each peer what is true. -/
def OwnKnown (T : Topology ι) (lib : CryptoLib) (i : ι) (node node' : Tunserver)
    (new : List (Datagram ι)) : Prop :=
  T.PeersTrue i node ∧ T.Own lib i node node' new

/-- A node that knows its peers gets a datagram, under a condition. What it knows is asked for at the time
when the datagram arrives. -/
def GetsKnown (T : Topology ι) (lib : CryptoLib) (C : ι → Datagram ι → Tunserver → Prop) (i : ι)
    (d : Datagram ι) (node node' : Tunserver) (new : List (Datagram ι)) : Prop :=
  T.PeersTrue i node ∧ T.Gets lib C i d node node' new

/-- A datagram with data is on the way to a node, which leads to the destination in fewer hops than the TTL. -/
def OnTheWay (T : Topology ι) (net : NodeNetwork ι) (g : ι) (packet : TunneledData) (d : Datagram ι) : Prop :=
  ∃ j n ttl, d.addr = T.addr j ∧ T.link d.sender j ∧ Leads (T.Hop net g) g j n ∧ n ≤ 5 ∧ (n : ℤ) < ttl ∧
    ttl < 256 ∧ d.octets = tunneledOctets { packet with ttl }

/-- The data are in flight, on the way to their destination. There may be several copies, and some of them
elsewhere. -/
def InTransit (T : Topology ι) (g : ι) (packet : TunneledData) (net : NodeNetwork ι) : Prop :=
  ∃ d ∈ net.flight, T.OnTheWay net g packet d

/-- The destination does not get the data. It is the condition on deliveries under which data stay in transit. -/
def NotYet (g : ι) (packet : TunneledData) (i : ι) (d : Datagram ι) (_ : Tunserver) : Prop :=
  ¬ (i = g ∧ Carries packet d.octets)

variable {net net' : NodeNetwork ι} {packet : TunneledData} {d : Datagram ι} {node' : Tunserver}
  {new : List (Datagram ι)}

private theorem OnTheWay.carries (h : T.OnTheWay net g packet d) : Carries packet d.octets := by
  obtain ⟨j, n, ttl, -, -, -, -, hless, hlt, heq⟩ := h
  exact ⟨ttl, by omega, hlt, heq⟩

private theorem OnTheWay.grows (hgrows : Grows net net') (h : T.OnTheWay net g packet d) :
    T.OnTheWay net' g packet d := by
  obtain ⟨j, n, ttl, haddr, hlink, hleads, hrest⟩ := h
  exact ⟨j, n, ttl, haddr, hlink, hgrows.leads hleads, hrest⟩

/-- The nodes stay members of the network. -/
theorem invariant_member (C : ι → Datagram ι → Tunserver → Prop) :
    Network.Invariant (T.OwnKnown lib) (T.GetsKnown lib C) (T.Member lib) (T.Sound lib) := by
  have hacts : ∀ {event : Event} {i : ι} {node node' : Tunserver} {new : List (Datagram ι)},
      T.Member lib i node → Acts lib event i node node' new → T.Running lib i node' → T.Member lib i node' := by
    rintro event i node _ _ h ⟨rfl, -⟩ hrunning
    exact ⟨hrunning, (myHip_run lib event node).trans h.self, h.limits.run event⟩
  refine ⟨fun i node node' new h hown => ?_, fun i d node node' new h hd hgets => ?_⟩
  · obtain ⟨hrunning, hsound⟩ := (invariant_running C).own i node node' new h.toRunning hown.2
    obtain ⟨-, -, event, -, -, hact⟩ := hown
    exact ⟨hacts h hact hrunning, hsound⟩
  · obtain ⟨hrunning, hsound⟩ := (invariant_running C).receive i d node node' new h.toRunning hd hgets.2
    obtain ⟨-, -, -, -, hact⟩ := hgets
    exact ⟨hacts h hact hrunning, hsound⟩

variable [DecidableEq ι]

/-- What is in flight stays in flight. -/
private theorem InTransit.act (h : T.InTransit g packet net)
    (hacts : Acts lib event i (net.node i) node' new) :
    T.InTransit g packet (net.act i node' new) := by
  obtain ⟨d, hd, hway⟩ := h
  exact ⟨d, List.mem_append_right _ hd, hway.grows (grows_act hacts)⟩

/-- Data that are delivered to another node than the destination are sent on. -/
private theorem InTransit.deliver (hhip : Function.Injective T.hip) (hdst : packet.dstHip = T.hip g)
    (hwrite : Peering.Writable packet) (hblob : packet.blob.length ≤ saneMaxSizeForString)
    (hmember : T.Member lib i (net.node i)) (h : T.InTransit g packet net) {pre suf : List (Datagram ι)}
    (hflight : net.flight = pre ++ d :: suf)
    (hgets : T.GetsKnown lib (NotYet g packet) i d (net.node i) node' new) :
    T.InTransit g packet ((net.withFlight (pre ++ suf)).act i node' new) := by
  obtain ⟨htrue, hknows, hnotYet, haddr, hacts⟩ := hgets
  have hgrown : Grows (net.withFlight (pre ++ suf)) ((net.withFlight (pre ++ suf)).act i node' new) :=
    grows_act hacts
  have hgrows : Grows net ((net.withFlight (pre ++ suf)).act i node' new) := fun j goal route hroute =>
    hgrown j goal route hroute
  obtain ⟨d', hd', hway⟩ := h
  by_cases hsame : d' = d
  swap
  · refine ⟨d', List.mem_append_right _ ?_, hway.grows hgrows⟩
    rw [hflight] at hd'
    change d' ∈ pre ++ suf
    simp only [List.mem_append, List.mem_cons] at hd' ⊢
    exact hd'.imp_right fun h => h.resolve_left hsame
  subst hsame
  have hcarries := hway.carries
  obtain ⟨j, n, ttl, hto, hlink, hleads, hle, hless, hlt, hoctets⟩ := hway
  obtain rfl := T.addr_injective (hto.symm.trans haddr)
  cases hleads with
  | arrived => exact absurd ⟨rfl, hcarries⟩ hnotYet
  | @hop _ k m hne hhop hrest =>
    obtain ⟨hnext, hroute⟩ := hhop
    obtain ⟨k', hlink', hwhere, hsent⟩ := sent_of_way hhip hmember hknows htrue hne hnext (.inr hroute) hdst
      hwrite hblob (T.link_symm hlink) (by omega) hlt
    rw [hoctets] at hacts
    have hnew : (finalState ((Event.datagram (T.addr d'.sender) (tunneledOctets { packet with ttl })).run lib)
        (net.node j)).sentSince (net.node j) =
          [(T.addr k', tunneledOctets { packet with ttl := forwardTtl ttl })] :=
      sentSince_of_append hsent
    refine ⟨⟨j, T.addr k', tunneledOctets { packet with ttl := forwardTtl ttl }⟩,
      List.mem_append_left _ ?_, ?_⟩
    · rw [hacts.2, hacts.1, hnew]
      exact List.mem_singleton_self _
    · -- The next node is the destination, or has one hop less to it.
      have hleads' : ∃ n' ≤ m, Leads (T.Hop net g) g k' n' := by
        obtain rfl | rfl := hwhere
        · exact ⟨0, Nat.zero_le _, .arrived⟩
        · exact ⟨m, le_rfl, hrest⟩
      obtain ⟨n', hn', hrest'⟩ := hleads'
      have hmax : ttlMaxAccepted = 5 := rfl
      have hforward : (n' : ℤ) < forwardTtl ttl ∧ forwardTtl ttl < 256 := by
        unfold forwardTtl
        dsimp only
        push_cast at hless
        constructor <;> split <;> omega
      exact ⟨k', n', forwardTtl ttl, rfl, hlink', hgrows.leads hrest', by omega, hforward.1, hforward.2, rfl⟩

/-- Data in transit stay in transit in every step in which the destination does not get them. -/
theorem InTransit.run (hhip : Function.Injective T.hip) (hdst : packet.dstHip = T.hip g)
    (hwrite : Peering.Writable packet) (hblob : packet.blob.length ≤ saneMaxSizeForString)
    (hmembers : net.Holds (T.Member lib) (T.Sound lib)) (h : T.InTransit g packet net)
    (hrun : Relation.ReflTransGen (Network.Step (T.OwnKnown lib) (T.GetsKnown lib (NotYet g packet))) net net') :
    net'.Holds (T.Member lib) (T.Sound lib) ∧ T.InTransit g packet net' := by
  induction hrun with
  | refl => exact ⟨hmembers, h⟩
  | tail _ hstep ih =>
    refine ⟨(invariant_member _).step ih.1 hstep, ?_⟩
    cases hstep with
    | own hown =>
      obtain ⟨-, -, event, -, -, hacts⟩ := hown
      exact ih.2.act hacts
    | deliver hflight hgets => exact ih.2.deliver hhip hdst hwrite hblob (ih.1.1 _) hflight hgets

/-- A packet of the card is sent on its way, when a way leads to its destination in five hops at most. -/
private theorem exists_inTransit (laws : SecretboxLaws lib) (hhip : Function.Injective T.hip) {a : ι}
    (hne : a ≠ g)
    (hmember : T.Member lib a (net.node a)) (hknows : T.KnowsPeers lib a (net.node a))
    (htrue : T.PeersTrue a (net.node a)) (hway : T.link a g ∨ ∃ n ≤ 5, Leads (T.Hop net g) g a n)
    {header packet : Bytes} {ct : TunnelUse} (hheader : header.length = headerPositionOfIpv6)
    (hpacket : IsPacket (T.hip a) (T.hip g) packet) (hgalaxy : addrIsGalaxy (T.hip g) = true)
    (hlen : (header ++ packet).length ≤ bufSize) (hct : (net.node a).tunnel[T.hip g]? = some ct)
    (hbox : (returned (ct.boxAb lib (withoutDst packet)) (net.node a)).isSome)
    (hacts : Acts lib (.tunPacket (header ++ packet)) a (net.node a) node' new) :
    ∃ cipher nonce ct₁,
      ct.boxAb lib (withoutDst packet) (net.node a) = .ok ((cipher, nonce), ct₁) (net.node a) ∧
      Peering.Writable (boxedData (T.hip a) (T.hip g) cipher nonce) ∧
      cipher.length ≤ saneMaxSizeForString ∧
      T.InTransit g (boxedData (T.hip a) (T.hip g) cipher nonce) (net.act a node' new) := by
  have hgrows : Grows net (net.act a node' new) := grows_act hacts
  -- The first hop of the way, and how many there are behind it.
  obtain ⟨k, m, hlink, hfirst, hm, hrest⟩ : ∃ k m, T.link a k ∧
      (k = g ∨ ∃ route, (net.node a).routeTo (T.hip g) = some route ∧ route.nexthop = T.hip k) ∧ m < 5 ∧
        Leads (T.Hop net g) g k m := by
    obtain hlink | ⟨n, hn, hleads⟩ := hway
    · exact ⟨g, 0, hlink, .inl rfl, by decide, .arrived⟩
    · cases hleads with
      | arrived => exact absurd rfl hne
      | @hop _ k m _ hhop hrest => exact ⟨k, m, hhop.1, .inr hhop.2, hn, hrest⟩
  obtain ⟨k', peering, hlink', hwhere, hnext, hpip, hsend⟩ := exists_nextPeer hhip hknows htrue hlink hfirst
  obtain ⟨octets, hone⟩ := tunneledIn_of_tunPacket laws hpacket hheader hct hgalaxy hlen hbox hnext hsend
    hmember.udp
  have hmem : (peering.getPip, octets) ∈ tunneledIn
      ((finalState ((Event.tunPacket (header ++ packet)).run lib) (net.node a)).sentSince (net.node a)) := by
    rw [hone]
    exact List.mem_singleton_self _
  obtain ⟨cipher, nonce, ct₁, hrun, -, hwrite, heq⟩ := boxed_of_tunneledIn hpacket hheader hct hmem
  refine ⟨cipher, nonce, ct₁, hrun, hwrite, length_cipher_le laws hpacket hlen hrun,
    ⟨a, T.addr k', octets⟩, List.mem_append_left _ ?_, ?_⟩
  · rw [hacts.2, hacts.1, ← hpip]
    exact List.mem_map.mpr ⟨_, (List.mem_filter.mp hmem).1, rfl⟩
  · obtain ⟨n', hn', hleads'⟩ : ∃ n' ≤ m, Leads (T.Hop net g) g k' n' := by
      obtain rfl | rfl := hwhere
      · exact ⟨0, Nat.zero_le _, .arrived⟩
      · exact ⟨m, le_rfl, hrest⟩
    exact ⟨k', n', 5, rfl, hlink', hgrows.leads hleads', by omega, by omega, by decide, heq⟩

end Topology

/-- Data arrive. A node reads a packet from its card for another one, which it has a tunnel for, and which is
its peer or which the routes lead to in five hops at most. Then in every run after that in which no datagram is
lost and all nodes know their peers, some datagram that carries the packet is in flight, until the destination
gets one. And when that gets one from the address of a peer, and its tunnel agrees, it writes the packet as it
was. Nodes that forget a peer are left out: one that has lost its next hop drops the data, and looks for it. -/
theorem data_arrive {ι : Type} [DecidableEq ι] {T : Topology ι} {lib : CryptoLib} (laws : SecretboxLaws lib)
    (hhip : Function.Injective T.hip) {net₀ net₁ : NodeNetwork ι}
    (hstart : ∀ i, T.Member lib i (net₀.node i)) (hquiet : net₀.flight = [])
    (hbefore : Relation.ReflTransGen
      (Network.StepOrFault (T.OwnKnown lib) (T.GetsKnown lib fun _ _ _ => True)) net₀ net₁)
    {a g : ι} (hne : a ≠ g) (hknows : T.KnowsPeers lib a (net₁.node a)) (htrue : T.PeersTrue a (net₁.node a))
    (hway : T.link a g ∨ ∃ n ≤ 5, Leads (T.Hop net₁ g) g a n) {header packet : Bytes} {ct : TunnelUse}
    (hheader : header.length = headerPositionOfIpv6) (hpacket : IsPacket (T.hip a) (T.hip g) packet)
    (hgalaxy : addrIsGalaxy (T.hip g) = true) (hlen : (header ++ packet).length ≤ bufSize)
    (hct : (net₁.node a).tunnel[T.hip g]? = some ct)
    (hbox : (returned (ct.boxAb lib (withoutDst packet)) (net₁.node a)).isSome) {node' : Tunserver}
    {new : List (Datagram ι)} (hacts : Acts lib (.tunPacket (header ++ packet)) a (net₁.node a) node' new) :
    ∃ data : TunneledData,
      (∀ net, Relation.ReflTransGen (Network.Step (T.OwnKnown lib)
          (T.GetsKnown lib (Topology.NotYet g data))) (net₁.act a node' new) net →
        ∃ d ∈ net.flight, Carries data d.octets) ∧
      ∀ (receiver : Tunserver) (octets : Bytes) senderPip sender ct', Carries data octets →
        receiver.senderOf senderPip = some sender → receiver.myHip = T.hip g →
        receiver.supportedIpProtocols = [6, 17, 58] → receiver.tunnel[T.hip a]? = some ct' → ct.Agrees ct' →
          (finalState ((Event.datagram senderPip octets).run lib) receiver).writtenToTun =
            (tunHeader ++ packet) :: receiver.writtenToTun := by
  have hmembers₀ : net₀.Holds (T.Member lib) (T.Sound lib) := ⟨hstart, fun d hd => by simp [hquiet] at hd⟩
  have hmembers₁ := (Topology.invariant_member _).run hmembers₀ hbefore
  obtain ⟨cipher, nonce, ct₁, hrun, hwrite, hblob, htransit⟩ := Topology.exists_inTransit laws hhip hne
    (hmembers₁.1 a) hknows htrue hway hheader hpacket hgalaxy hlen hct hbox hacts
  have hmembers₂ : (net₁.act a node' new).Holds (T.Member lib) (T.Sound lib) :=
    (Topology.invariant_member fun _ _ _ => True).step hmembers₁
      (.own ⟨htrue, hknows, .tunPacket (header ++ packet), rfl, trivial, hacts⟩)
  refine ⟨boxedData (T.hip a) (T.hip g) cipher nonce, fun net hafter => ?_,
    fun receiver octets senderPip sender ct' hcarries hsender hmine hsupported hct' hagree => ?_⟩
  · obtain ⟨-, d, hd, hway⟩ := htransit.run hhip rfl hwrite hblob hmembers₂ hafter
    exact ⟨d, hd, hway.carries⟩
  · obtain ⟨ttl, haccept⟩ := hcarries.acceptedPacket hwrite hblob hsender
    have hunboxes : Unboxes lib receiver { boxedData (T.hip a) (T.hip g) cipher nonce with ttl }
        (withoutDst packet) :=
      ⟨hmine.symm, ct', hct', unboxAbNonce_of_boxAb laws hagree hrun receiver⟩
    rw [finalState_run]
    exact writtenToTun_of_withoutDst haccept hunboxes hpacket hsupported

/-! ### A line of nodes -/

private theorem getIpv6StringBin_nonces : ∀ i j : Fin 4,
    (((sampleKey (lineKey j)).received (lineTopology.ipv6Prefix i)).getIpv6StringBin CryptoLib.sampleNonces :
      Program Exn Unit Bytes) () = .ok (sampleHip (lineKey j)).octets () := by
  decide +kernel

private theorem HasLinePeers.knowsPeers_nonces {i : Fin 4} {node : Tunserver} (h : HasLinePeers i node) :
    lineTopology.KnowsPeers CryptoLib.sampleNonces i node where
  link := h.knowsPeers.link
  peer hip peering hget := by
    obtain ⟨j, -, -, -, hpub⟩ := h.of_get hget
    obtain ⟨huse, hletters, hshort, hlength, -⟩ := usable_sampleKey j
    refine ⟨(h.knowsPeers.peer hip peering hget).1, _, hpub, huse, hletters, hshort, hlength, ?_⟩
    intro i node hmyIDC
    refine returned_addTunnelToPubkey (getIpv6StringBin_nonces i j) ?_
    rw [hmyIDC]
    exact ⟨_, _, rfl⟩

private theorem member_lineNode (i : Fin 4) : lineTopology.Member CryptoLib.sampleNonces i (lineNode i) := by
  have hempty : ∀ k, LimitsFull (sampleNode k) := fun k hip peering hget => by
    simp [sampleNode, Tunserver.new] at hget
  have hrunning : lineStart.Holds (lineTopology.Running CryptoLib.sampleNonces)
      (lineTopology.Sound CryptoLib.sampleNonces) :=
    (@Topology.Idle.holds _ _ (sampleHip 1) 0 0 _ idle_lineStart _).1
  refine ⟨hrunning.1 i, by fin_cases i <;> rfl, ?_⟩
  fin_cases i
  · exact (hempty 1).run _
  · exact ((hempty 2).run _).run _
  · exact ((hempty 3).run _).run _
  · exact (hempty 4).run _

/-- The network after something has happened at a node, with nonces that are as long as nonces are. -/
def noncesAct (net : NodeNetwork (Fin 4)) (i : Fin 4) (event : Event) : NodeNetwork (Fin 4) :=
  let node := finalState (event.run CryptoLib.sampleNonces) (net.node i)
  net.act i node ((node.sentSince (net.node i)).map fun d => { sender := i, addr := d.1, octets := d.2 })

/-- The network after the first datagram in flight was delivered to a node. -/
def noncesDeliver (net : NodeNetwork (Fin 4)) (i : Fin 4) : NodeNetwork (Fin 4) :=
  match net.flight with
  | [] => net
  | d :: flight => noncesAct (net.withFlight flight) i (.datagram (samplePip (lineKey d.sender)) d.octets)

/-- A node that gets no greeting, nor an operation on its table, keeps its peers. -/
private theorem peer_run_of_not_puts (hputs : ∀ hip peering, ¬ node.Puts lib event hip peering)
    (hremoves : ∀ hip, event.removes hip = false) : (finalState (event.run lib) node).peer = node.peer := by
  have hclosed : Closed fun node' => node'.peer = node.peer :=
    .of_tables fun _ _ hpeer _ h => hpeer.trans h
  refine hclosed.run rfl ⟨fun _ _ _ => rfl, fun hip peering hput => absurd hput (hputs hip peering), ?_⟩
  rintro ⟨hip, -, hremoved⟩
  rw [hremoves hip] at hremoved
  cases hremoved

private theorem hasLinePeers_noncesAct {net : NodeNetwork (Fin 4)} {i : Fin 4} {event : Event}
    (hputs : ∀ node hip peering, ¬ Tunserver.Puts CryptoLib.sampleNonces node event hip peering)
    (hremoves : ∀ hip, event.removes hip = false) (h : ∀ j, HasLinePeers j (net.node j)) (j : Fin 4) :
    HasLinePeers j ((noncesAct net i event).node j) := by
  by_cases hji : j = i
  · subst hji
    rw [noncesAct, Network.node_act_self, HasLinePeers, peer_run_of_not_puts (hputs _) hremoves]
    exact h j
  · rw [noncesAct, Network.node_act_of_ne hji]
    exact h j

/-- A greeting is the only datagram that changes peers. -/
theorem hasLinePeers_noncesDeliver {net : NodeNetwork (Fin 4)} {i : Fin 4}
    (hcmd : ∀ d ∈ net.flight, datagramCmd d.octets ≠ some .publicHi) (h : ∀ j, HasLinePeers j (net.node j)) :
    ∀ j, HasLinePeers j ((noncesDeliver net i).node j) := by
  cases hflight : net.flight with
  | nil =>
    rw [noncesDeliver, hflight]
    exact h
  | cons d flight =>
    rw [noncesDeliver, hflight]
    refine hasLinePeers_noncesAct (fun node hip peering hput => ?_) (fun _ => rfl) h
    cases hput with
    | greeting hgreeting _ _ =>
      have hother := hcmd d (by rw [hflight]; exact List.mem_cons_self)
      simp [Tunserver.greeting, hother] at hgreeting

private theorem step_noncesDeliver {C : Fin 4 → Datagram (Fin 4) → Tunserver → Prop}
    {net : NodeNetwork (Fin 4)}
    {i : Fin 4} (sender : Fin 4) (addr : Ip46Addr)
    (hflight : net.flight.map (fun d => (d.sender, d.addr)) = [(sender, addr)])
    (haddr : addr = samplePip (lineKey i))
    (h : HasLinePeers i (net.node i)) (hC : ∀ d, C i d (net.node i)) :
    Network.Step (lineTopology.OwnKnown CryptoLib.sampleNonces)
      (lineTopology.GetsKnown CryptoLib.sampleNonces C) net (noncesDeliver net i) := by
  obtain ⟨d, hone, heq⟩ := List.map_eq_singleton_iff.mp hflight
  obtain ⟨rfl, rfl⟩ := Prod.mk.inj heq
  have hdeliver : noncesDeliver net i =
      noncesAct (net.withFlight []) i (.datagram (samplePip (lineKey d.sender)) d.octets) := by
    rw [noncesDeliver, hone]
  have hfirst : net.flight = [] ++ d :: [] := hone
  rw [hdeliver]
  exact .deliver hfirst ⟨h.peersTrue, h.knowsPeers_nonces, hC d, haddr, rfl, rfl⟩

private theorem step_noncesAct {C : Fin 4 → Datagram (Fin 4) → Tunserver → Prop} {net : NodeNetwork (Fin 4)}
    {i : Fin 4} {event : Event} (hown : event.isOwn = true) (hfits : event.TtlFits)
    (h : HasLinePeers i (net.node i)) :
    Network.Step (lineTopology.OwnKnown CryptoLib.sampleNonces)
      (lineTopology.GetsKnown CryptoLib.sampleNonces C) net (noncesAct net i event) :=
  .own ⟨h.peersTrue, h.knowsPeers_nonces, event, hown, hfits, rfl, rfl⟩

/-- The first node has asked the second one for the third one. -/
def lineAnswered : NodeNetwork (Fin 4) :=
  noncesDeliver (noncesAct lineStart 0 (.request (sampleHip 3) ownReason 5)) 1

/-- The first node has got the reply. -/
def lineRouted : NodeNetwork (Fin 4) := noncesDeliver lineAnswered 0

/-- The first node has sent a packet to the third one. -/
def lineSent : NodeNetwork (Fin 4) := noncesAct lineRouted 0 (.tunPacket (tunHeader ++ udpPacket 1 3))

private theorem hasLinePeers_lineAnswered : ∀ i, HasLinePeers i (lineAnswered.node i) :=
  hasLinePeers_noncesDeliver (by decide +kernel) (hasLinePeers_noncesAct
    (fun _ _ _ hput => by cases hput) (fun _ => rfl) hasLinePeers_lineNode)

private theorem hasLinePeers_lineRouted : ∀ i, HasLinePeers i (lineRouted.node i) :=
  hasLinePeers_noncesDeliver (by decide +kernel) hasLinePeers_lineAnswered

private theorem hasLinePeers_lineSent : ∀ i, HasLinePeers i (lineSent.node i) :=
  hasLinePeers_noncesAct (fun _ _ _ hput => by cases hput) (fun _ => rfl) hasLinePeers_lineRouted

private theorem run_lineRouted : Relation.ReflTransGen
    (Network.StepOrFault (lineTopology.OwnKnown CryptoLib.sampleNonces)
      (lineTopology.GetsKnown CryptoLib.sampleNonces fun _ _ _ => True)) lineStart lineRouted := by
  have hask : Network.Step (lineTopology.OwnKnown CryptoLib.sampleNonces)
      (lineTopology.GetsKnown CryptoLib.sampleNonces fun _ _ _ => True) lineStart
      (noncesAct lineStart 0 (.request (sampleHip 3) ownReason 5)) :=
    step_noncesAct rfl (show (5 : ℤ) < 128 by decide) (hasLinePeers_lineNode 0)
  refine Relation.ReflTransGen.head (.inl hask) (.head (b := lineAnswered) (.inl ?_) (.single (.inl ?_)))
  · exact step_noncesDeliver 0 (samplePip 2) (by decide +kernel) rfl
      (hasLinePeers_lineNode 1) fun _ => trivial
  · exact step_noncesDeliver 1 (samplePip 1) (by decide +kernel) rfl
      (hasLinePeers_lineAnswered 0) fun _ => trivial

/-- The way over the second node. -/
private theorem leads_lineRouted : Leads (lineTopology.Hop lineRouted 2) 2 0 2 := by
  have hhop : ∀ i k : Fin 4, lineTopology.link i k →
      ((lineRouted.node i).routeTo (sampleHip 3)).map RouteInfo.nexthop = some (sampleHip (lineKey k)) →
        lineTopology.Hop lineRouted 2 i k :=
    fun i k hlink hroute => ⟨hlink, Option.map_eq_some_iff.mp hroute⟩
  exact .hop (by decide) (hhop 0 1 (.inl rfl) (by decide +kernel))
    (.hop (by decide) (hhop 1 2 (.inl rfl) (by decide +kernel)) .arrived)

/-- The first node has a route to the third one, and sends it a packet. The second node sends it on. -/
theorem data_arrive_example :
    let net := noncesDeliver lineSent 1
    net.flight.map Datagram.addr = [samplePip 3] ∧ ∃ data, ∃ d ∈ net.flight, Carries data d.octets := by
  intro net
  have hpeers : HasLinePeers 0 (lineRouted.node 0) := hasLinePeers_lineRouted 0
  have htunnel : ((lineRouted.node 0).tunnel[sampleHip 3]?.map fun ct =>
      (returned (ct.boxAb CryptoLib.sampleNonces (withoutDst (udpPacket 1 3))) (lineRouted.node 0)).isSome) =
        some true := by decide +kernel
  obtain ⟨ct, hct, hbox⟩ := Option.map_eq_some_iff.mp htunnel
  have hpacket : IsPacket (sampleHip 1) (sampleHip 3) (udpPacket 1 3) :=
    ⟨by decide, by decide, by decide, .inr (.inl (by decide))⟩
  have hheader : tunHeader.length = headerPositionOfIpv6 := rfl
  have hacts : Acts CryptoLib.sampleNonces (.tunPacket (tunHeader ++ udpPacket 1 3)) (0 : Fin 4)
      (lineRouted.node 0)
      (finalState ((Event.tunPacket (tunHeader ++ udpPacket 1 3)).run CryptoLib.sampleNonces) (lineRouted.node 0))
      _ := ⟨rfl, rfl⟩
  obtain ⟨data, htransit, -⟩ := data_arrive (T := lineTopology) secretboxLaws_sampleNonces (by decide)
    member_lineNode rfl run_lineRouted (a := 0) (g := 2) (by decide) hpeers.knowsPeers_nonces hpeers.peersTrue
    (.inr ⟨2, by decide, leads_lineRouted⟩) hheader hpacket rfl (by decide) hct hbox hacts
  have hforward : Network.Step (lineTopology.OwnKnown CryptoLib.sampleNonces)
      (lineTopology.GetsKnown CryptoLib.sampleNonces (Topology.NotYet 2 data)) lineSent net :=
    step_noncesDeliver 0 (samplePip 2) (by decide +kernel) rfl
      (hasLinePeers_lineSent 1) fun d h => absurd h.1 (by decide)
  exact ⟨by decide +kernel, data, htransit net (.single hforward)⟩

end Galaxy42
