import Galaxy42.Tunserver.Runs

/-!
# What is stored as a route

Three invariants of the stored routes over whole runs, each with the condition on the events of the run
under which it holds:

* a route carries the key of its destination (`routesBound_of_reached`), when the replies do that new
  routes are taken from: a reply is not checked for it;
* a route that is used leads over a peer (`noStaleRoute_of_reached`), when no peer is removed that such a
  route needs: removing a peer does not look at the routes;
* a route is the cheapest one that was learned, and a peer is reached directly
  (`bestRoute_of_reachedWith`), when what is learned first is not worse: a route that is stored is never
  replaced.

In each case the condition is what an event must meet for the invariant to hold after it.

For the first two, the invariant is about the tables of a state, and the rule for runs (`Closed.reached`)
leaves to be shown what happens when a route is learned, a peer is put into the table, or peers are removed.
Where a route comes from is said once (`replied_or_direct`): from a reply that was accepted, or it is the one
of a peer to itself.

The third one needs the history: which routes were learned for a destination on the way (`ReachedWith`). A state
comes with this list, which grows by what each event teaches, whether it is stored or not. The condition compares
what is learned with what is stored (`FirstIsBest`), and its three parts belong to the three ways in which
something better may come too late.

Each of the three has a run in which an event does not meet the condition, and a state in which the invariant
is broken.
-/

namespace Galaxy42

open Toolkit Program TrivialSerialize Tunserver

variable {lib : CryptoLib} {node : Tunserver} {event : Event}

/-! ### Learning -/

/-- A reply teaches a route in an event: it is accepted, and the tunnel for its key is set up. -/
inductive Tunserver.Replied (lib : CryptoLib) (node : Tunserver) :
    Event → HashipAddr → RouteInfo → Prop
  | mk {senderPip : Ip46Addr} {buf : Bytes} {sender : Peering} {reply : FindhipReply} {u : Unit}
      {node' : Tunserver} (hreply : node.acceptedReply senderPip buf = some (sender, reply))
      (htunnel : addTunnelToPubkey lib (node.repliedRoute sender reply).pubkey node = .ok u node') :
      Replied lib node (.datagram senderPip buf) reply.goalHip (node.repliedRoute sender reply)

namespace Tunserver

/-- What a reply teaches is learned. -/
theorem Replied.learned {goal : HashipAddr} {route : RouteInfo}
    (h : node.Replied lib event goal route) : node.learned lib event = some (goal, route) := by
  obtain ⟨hreply, htunnel⟩ := h
  simp [Tunserver.learned, hreply, returned, htunnel]

/-- A route is learned from a reply, or it is the route of a peer to itself. There is no third way in which a
node learns a route. -/
theorem replied_or_direct {goal : HashipAddr} {route : RouteInfo}
    (h : node.learned lib event = some (goal, route)) :
    node.Replied lib event goal route ∨ node.directRouteTo goal = some route := by
  cases event with
  | datagram senderPip buf =>
    cases hreply : node.acceptedReply senderPip buf with
    | some r =>
      obtain ⟨sender, reply⟩ := r
      simp only [Tunserver.learned, hreply] at h
      split at h
      next hsome =>
        obtain ⟨u, hu⟩ := Option.isSome_iff_exists.mp hsome
        obtain ⟨node', hrun⟩ := returned_eq_some_iff.mp hu
        obtain ⟨rfl, rfl⟩ : reply.goalHip = goal ∧ node.repliedRoute sender reply = route := by
          simpa using h
        exact .inl (.mk hreply hrun)
      · cases h
    | none =>
      cases hquery : node.acceptedQuery senderPip buf with
      | some r =>
        simp only [Tunserver.learned, hreply, hquery, Option.map_eq_some_iff, Prod.mk.injEq] at h
        obtain ⟨route, hroute, rfl, rfl⟩ := h
        exact .inr hroute
      | none => simp [Tunserver.learned, hreply, hquery] at h
  | request dst reason searchTtl =>
    simp only [Tunserver.learned, Option.map_eq_some_iff, Prod.mk.injEq] at h
    obtain ⟨route, hroute, rfl, rfl⟩ := h
    exact .inr hroute
  | _ => simp [Tunserver.learned] at h

/-- Who asks for the route to a peer whose key is known teaches it. -/
theorem learned_request {dst : HashipAddr} {route : RouteInfo} (h : node.directRouteTo dst = some route)
    (reason : RouteReason) (searchTtl : ℤ) :
    node.learned lib (.request dst reason searchTtl) = some (dst, route) := by
  rw [Tunserver.learned, h]
  rfl

/-- The routes after a route to somewhere was learned. -/
theorem routeTo_finalState_of_learned {goal dst : HashipAddr} {route : RouteInfo}
    (h : node.learned lib event = some (goal, route)) :
    (finalState (event.run lib) node).routeTo dst =
      if dst = goal then some ((node.routeTo goal).getD route) else node.routeTo dst := by
  have hroutes : (finalState (event.run lib) node).routeTo dst =
      (node.learnRoute goal route).routeTo dst := congrArg (·[dst]?) (routes_of_learned h)
  rw [hroutes, routeTo_learnRoute]

/-- A route that is learned and was not known is stored. -/
theorem routeTo_finalState_of_new {goal : HashipAddr} {route : RouteInfo}
    (h : node.learned lib event = some (goal, route)) (hnew : node.routeTo goal = none) :
    (finalState (event.run lib) node).routeTo goal = some route := by
  rw [routeTo_finalState_of_learned h, if_pos rfl, hnew]
  rfl

/-- A route that is stored stays. -/
theorem routeTo_finalState_of_known {goal : HashipAddr} {route : RouteInfo}
    (h : node.routeTo goal = some route) :
    (finalState (event.run lib) node).routeTo goal = some route := by
  cases hlearned : node.learned lib event with
  | none =>
    have hroutes : (finalState (event.run lib) node).routeTo goal = node.routeTo goal :=
      congrArg (·[goal]?) (routes_of_not_learned hlearned)
    rw [hroutes, h]
  | some r =>
    rw [routeTo_finalState_of_learned hlearned]
    split
    next heq => rw [← heq, h]; rfl
    · exact h

end Tunserver

/-! ### Peers -/

/-- Every peer is kept under the hip it belongs to. -/
def PeersBound (lib : CryptoLib) (node : Tunserver) : Prop :=
  ∀ hip peering, node.peer[hip]? = some peering → PeerBound lib hip peering

theorem getElem?_putPeer {hip dst : HashipAddr} {peering : Peering} :
    (node.putPeer hip peering).peer[dst]? = if dst = hip then some peering else node.peer[dst]? := by
  rw [putPeer, Std.ExtTreeMap.getElem?_insert]
  simp only [Std.LawfulEqCmp.compare_eq_iff_eq, @eq_comm _ hip dst]

/-- A peer that is found in a list is in it. -/
private theorem exists_of_findPeerIn_eq_ok {ip : Ip46Addr} {sender : Peering} :
    ∀ (peers : List (HashipAddr × Peering)) (node node' : Tunserver),
      findPeerIn ip peers node = .ok sender node' → ∃ v ∈ peers, v.2 = sender := by
  intro peers
  induction peers with
  | nil => exact fun node node' hnil => by cases hnil
  | cons v peers ih =>
    intro node node' hcons
    obtain ⟨same, node₁, -, hrest⟩ := bind_eq_ok_iff.mp hcons
    split at hrest
    · cases hrest
      exact ⟨v, List.mem_cons_self, rfl⟩
    · obtain ⟨w, hw, heq⟩ := ih node₁ node' hrest
      exact ⟨w, List.mem_cons_of_mem _ hw, heq⟩

namespace PeersBound

theorem new (myIDC : MultikeysPAIR) (myIDIPub : MultikeysPub) (myHip : HashipAddr)
    (ipv6Prefix : Bytes) (draws : ℕ) :
    PeersBound lib (Tunserver.new myIDC myIDIPub myHip ipv6Prefix draws) := by
  intro hip peering h
  simp [Tunserver.new] at h

/-- A peer that is put into the table is kept under the hip it belongs to. -/
theorem put (h : PeersBound lib node) {hip : HashipAddr} {peering : Peering}
    (hput : node.Puts lib event hip peering) : PeersBound lib (node.putPeer hip peering) := by
  have hbound : PeerBound lib hip peering := by
    cases hput with
    | add _ => exact peerBound_new _
    | append hhip hmet => exact hmet.peerBound hhip fun old hold => (h _ old hold).1
    | greeting _ hhip hmet => exact hmet.peerBound hhip fun old hold => (h _ old hold).1
  intro dst peering' hget
  rw [getElem?_putPeer] at hget
  split at hget
  next heq =>
    obtain rfl := Option.some.inj hget
    rwa [heq]
  · exact h dst peering' hget

theorem removed (h : PeersBound lib node) (timedOut : HashipAddr → Bool) :
    PeersBound lib (node.removePeers timedOut) := by
  intro hip peering hget
  rw [getElem?_removePeers] at hget
  split at hget
  · cases hget
  · exact h hip peering hget

/-- The peer that a datagram is from is in the table under its hip. -/
theorem sender_mem (h : PeersBound lib node) {senderPip : Ip46Addr} {sender : Peering}
    (hsender : node.senderOf senderPip = some sender) : sender.getHip ∈ node.peer := by
  have hfind : findPeerIn senderPip node.peer.toList node = .ok sender node :=
    findPeer_of_senderOf hsender
  obtain ⟨v, hv, rfl⟩ := exists_of_findPeerIn_eq_ok _ _ _ hfind
  have hget := Std.ExtTreeMap.mem_toList_iff_getElem?_eq_some.mp hv
  rw [(h v.1 v.2 hget).1, mem_peer_iff, hget]
  rfl

/-- The route of a peer to itself. -/
theorem direct (h : PeersBound lib node) {dst : HashipAddr} {route : RouteInfo}
    (hroute : node.directRouteTo dst = some route) :
    dst ∈ node.peer ∧ route.nexthop = dst ∧ HasHip lib route.pubkey dst ∧ route.cost = 1 := by
  obtain ⟨peering, hpeer, hmap⟩ := Option.bind_eq_some_iff.mp hroute
  obtain ⟨pubkey, hpub, rfl⟩ := Option.map_eq_some_iff.mp hmap
  obtain ⟨hhip, hkey⟩ := h dst peering hpeer
  exact ⟨mem_peer_iff.mpr (by rw [hpeer]; rfl), hhip, hkey pubkey hpub, rfl⟩

end PeersBound

/-- A reply that is accepted is a reply of a peer, which was read, and its TTL is not too low. -/
theorem of_acceptedReply {senderPip : Ip46Addr} {buf : Bytes} {sender : Peering}
    {reply : FindhipReply} (h : node.acceptedReply senderPip buf = some (sender, reply)) :
    datagramCmd buf = some .findhipReply ∧ node.senderOf senderPip = some sender ∧
      returned (within (parserOfBuffer (buf.drop 2)) popFindhipReply : Node _) node = some reply ∧
      ¬ reply.ttl < 1 := by
  unfold acceptedReply at h
  split at h
  next hcmd =>
    simp only [Option.bind_eq_bind, Option.bind_eq_some_iff] at h
    obtain ⟨sender', hsender, reply', hparse, hreply⟩ := h
    split at hreply
    · cases hreply
    next httl =>
      cases hreply
      exact ⟨hcmd, hsender, hparse, httl⟩
  · cases h

/-! ### Keys of routes -/

/-- A reply that a new route is taken from carries the key of the address it is about. A reply about a
destination with a route is not looked at, since the stored one is kept. -/
def KeyBelongs (lib : CryptoLib) (node : Tunserver) (event : Event) : Prop :=
  ∀ goal route, node.Replied lib event goal route → node.routeTo goal = none →
    HasHip lib route.pubkey goal

/-- Every route carries the key of its destination. The key of a route is what a tunnel to the destination is
made with. -/
def RoutesBound (lib : CryptoLib) (node : Tunserver) : Prop :=
  ∀ goal route, node.routeTo goal = some route → HasHip lib route.pubkey goal

/-- The peers and the routes after a route to somewhere is learned. -/
private theorem RoutesBound.learn (h : RoutesBound lib node) {goal : HashipAddr} {route : RouteInfo}
    (hnew : node.routeTo goal = none → HasHip lib route.pubkey goal) :
    RoutesBound lib (node.learnRoute goal route) := by
  intro dst route' hget
  rw [routeTo_learnRoute] at hget
  split at hget
  next heq =>
    subst heq
    cases hknown : node.routeTo dst with
    | none =>
      rw [hknown] at hget
      obtain rfl := Option.some.inj hget
      exact hnew hknown
    | some known =>
      rw [hknown] at hget
      obtain rfl := Option.some.inj hget
      exact h dst _ hknown
  · exact h dst route' hget

private theorem keeps_routesBound (hpeers : PeersBound lib node) (h : RoutesBound lib node)
    (hkey : KeyBelongs lib node event) :
    Keeps lib (fun node => PeersBound lib node ∧ RoutesBound lib node) node event where
  learned goal route hlearned := by
    refine ⟨hpeers, h.learn fun hnew => ?_⟩
    obtain hreplied | hdirect := replied_or_direct hlearned
    · exact hkey goal route hreplied hnew
    · exact (hpeers.direct hdirect).2.2.1
  put hip peering hput := ⟨hpeers.put hput, h⟩
  removed _ := ⟨hpeers.removed _, h⟩

/-- An invariant of the peers and the routes. -/
private theorem closed_routesBound : Closed fun node => PeersBound lib node ∧ RoutesBound lib node :=
  .of_tables fun node node' hpeer hroutes h =>
    ⟨fun hip peering hget => h.1 hip peering (by rwa [← hpeer]),
      fun goal route hget => h.2 goal route (by rw [← hget]; exact (congrArg (·[goal]?) hroutes).symm)⟩

/-- When every reply that a new route is taken from carries the key of the address it is about, every
route that is stored carries the key of its destination, in every state that is reached. The condition is
needed: an event that does not meet it stores a route with another key. -/
theorem routesBound_of_reached (h : Reached lib (KeyBelongs lib) node) :
    RoutesBound lib node ∧ ∀ event,
      RoutesBound lib (finalState (event.run lib) node) ↔ KeyBelongs lib node event := by
  have hinv : PeersBound lib node ∧ RoutesBound lib node := by
    refine closed_routesBound.reached (fun _ _ _ _ _ => ⟨.new _ _ _ _ _, ?_⟩)
      (fun node event h hallowed => keeps_routesBound h.1 h.2 hallowed) h
    intro goal route hget
    simp [Tunserver.new, routeTo] at hget
  refine ⟨hinv.2, fun event => ⟨fun hafter goal route hreplied hnew => ?_, fun hkey => ?_⟩⟩
  · exact hafter goal route (routeTo_finalState_of_new hreplied.learned hnew)
  · exact (closed_routesBound.run hinv (keeps_routesBound hinv.1 hinv.2 hkey)).2

/-- A node that has a peer, and was sent the key of a destination with a route to it. -/
theorem routesBound_of_reached_example :
    let node := ((sampleNode 1).after (sampleMeet 2)).after (sampleReply 2 5 3 9 9)
    (node.routeTo (sampleHip 9)).isSome ∧ RoutesBound CryptoLib.sample node := by
  intro node
  have hmeet : KeyBelongs CryptoLib.sample (sampleNode 1) (sampleMeet 2) := by
    intro goal route hreplied
    cases hreplied
  have hreply : KeyBelongs CryptoLib.sample ((sampleNode 1).after (sampleMeet 2))
      (sampleReply 2 5 3 9 9) := by
    intro goal route hreplied hnew
    have hkey : (((sampleNode 1).after (sampleMeet 2)).learned CryptoLib.sample
        (sampleReply 2 5 3 9 9)).map (fun r => decide (HasHip CryptoLib.sample r.2.pubkey r.1)) =
          some true := by decide +kernel
    rw [hreplied.learned] at hkey
    exact of_decide_eq_true (Option.some.inj hkey)
  exact ⟨by decide +kernel, (routesBound_of_reached
    (((reached_sampleNode 1).after hmeet (by decide +kernel)).after hreply (by decide +kernel))).1⟩

/-- A peer makes a node store a route with the key of someone else. -/
theorem not_routesBound :
    ¬ ∀ lib node, Reached lib (fun _ _ => True) node → RoutesBound lib node := by
  intro h
  have hreached : Reached CryptoLib.sample (fun _ _ => True)
      (((sampleNode 1).after (sampleMeet 2)).after (sampleReply 2 5 3 9 8)) :=
    ((reached_sampleNode 1).after trivial (by decide +kernel)).after trivial (by decide +kernel)
  have hkey : ((((sampleNode 1).after (sampleMeet 2)).after (sampleReply 2 5 3 9 8)).routeTo
      (sampleHip 9)).map (fun r => decide (HasHip CryptoLib.sample r.pubkey (sampleHip 9))) =
        some false := by decide +kernel
  obtain ⟨route, hroute, hhip⟩ := Option.map_eq_some_iff.mp hkey
  exact of_decide_eq_false hhip (h _ _ hreached _ route hroute)

/-! ### Next hops -/

/-- A peer that is still one after the removals of an event. -/
def Tunserver.Remains (node : Tunserver) (event : Event) (hip : HashipAddr) : Prop :=
  hip ∈ node.peer ∧ event.removes hip = false

/-- When peers are removed, each route that is stored keeps its next hop as a peer, or its destination. An
event that removes nobody meets it in every state. -/
def NextHopsRemain (node : Tunserver) (event : Event) : Prop :=
  (∃ hip ∈ node.peer, event.removes hip = true) → ∀ goal route, node.routeTo goal = some route →
    node.Remains event goal ∨ node.Remains event route.nexthop

/-- A route that is stored leads over a peer, unless its destination is a peer. Where the destination is a
peer itself, the route is not used. -/
def NoStaleRoute (node : Tunserver) : Prop :=
  ∀ goal route, node.routeTo goal = some route → goal ∈ node.peer ∨ route.nexthop ∈ node.peer

theorem remains_iff {hip : HashipAddr} :
    node.Remains event hip ↔ hip ∈ (node.removePeers event.removes).peer := by
  rw [mem_peer_iff, getElem?_removePeers, Tunserver.Remains, mem_peer_iff]
  cases event.removes hip <;> simp

/-- A reply comes from a peer, and the route of a peer to itself is one of a peer. -/
private theorem nexthop_mem_of_learned (hpeers : PeersBound lib node) {goal : HashipAddr} {route : RouteInfo}
    (h : node.learned lib event = some (goal, route)) :
    goal ∈ node.peer ∨ route.nexthop ∈ node.peer := by
  obtain hreplied | hdirect := replied_or_direct h
  · obtain ⟨hreply, -⟩ := hreplied
    exact .inr (hpeers.sender_mem (of_acceptedReply hreply).2.1)
  · exact .inl (hpeers.direct hdirect).1

theorem mem_peer_putPeer {hip dst : HashipAddr} {peering : Peering} (h : dst ∈ node.peer) :
    dst ∈ (node.putPeer hip peering).peer := by
  rw [mem_peer_iff, getElem?_putPeer]
  split
  · rfl
  · exact mem_peer_iff.mp h

private theorem keeps_noStaleRoute (hpeers : PeersBound lib node) (h : NoStaleRoute node)
    (hremain : NextHopsRemain node event) :
    Keeps lib (fun node => PeersBound lib node ∧ NoStaleRoute node) node event where
  learned goal route hlearned := by
    refine ⟨hpeers, fun dst route' hget => ?_⟩
    rw [routeTo_learnRoute] at hget
    split at hget
    next heq =>
      subst heq
      cases hknown : node.routeTo dst with
      | none =>
        rw [hknown] at hget
        obtain rfl := Option.some.inj hget
        exact nexthop_mem_of_learned hpeers hlearned
      | some known =>
        rw [hknown] at hget
        obtain rfl := Option.some.inj hget
        exact h dst _ hknown
    · exact h dst route' hget
  put hip peering hput := by
    refine ⟨hpeers.put hput, fun goal route hget => ?_⟩
    exact (h goal route hget).imp mem_peer_putPeer mem_peer_putPeer
  removed hremoves := by
    refine ⟨hpeers.removed _, fun goal route hget => ?_⟩
    exact (hremain hremoves goal route hget).imp remains_iff.mp remains_iff.mp

private theorem closed_noStaleRoute : Closed fun node => PeersBound lib node ∧ NoStaleRoute node :=
  .of_tables fun node node' hpeer hroutes h => by
    refine ⟨fun hip peering hget => h.1 hip peering (by rwa [← hpeer]), fun goal route hget => ?_⟩
    rw [hpeer]
    exact h.2 goal route (by rw [← hget]; exact (congrArg (·[goal]?) hroutes).symm)

/-- Routing data for a destination sends them to a peer, or looks for a route to the destination. -/
private theorem NoStaleRoute.routed_eq (h : NoStaleRoute node) {packet : TunneledData} (httl : 0 < packet.ttl)
    (hpeer : node.peer.size ≠ 0) :
    (∃ (hip : HashipAddr) (peering : Peering), node.peer[hip]? = some peering ∧
        routed node packet = .send peering) ∨
      node.routeTo packet.dstHip = none ∧ routed node packet = .search packet.dstHip := by
  have hrouted : routed node packet = node.nextPeer 2 packet.dstHip :=
    if_neg (not_or.mpr ⟨not_le.mpr httl, hpeer⟩)
  rw [hrouted, nextPeer]
  cases hget : node.peer[packet.dstHip]? with
  | some peering => exact .inl ⟨_, peering, hget, rfl⟩
  | none =>
    cases hroute : node.routeTo packet.dstHip with
    | none => exact .inr ⟨rfl, rfl⟩
    | some route =>
      have hmem : route.nexthop ∈ node.peer := by
        refine (h _ route hroute).resolve_left fun hmem => ?_
        rw [mem_peer_iff, hget] at hmem
        cases hmem
      obtain ⟨peering, hnext⟩ := Option.isSome_iff_exists.mp (mem_peer_iff.mp hmem)
      refine .inl ⟨route.nexthop, peering, hnext, ?_⟩
      dsimp only
      rw [nextPeer, hnext]

/-- When no peer is removed that is the next hop of a route to who is not a peer, no such route is ever used
in a state that is reached: data are sent to a peer, or a route to the destination is looked for. The
condition is needed: an event that does not meet it leaves a route that leads nowhere. Removing a peer does
not look at the routes. -/
theorem noStaleRoute_of_reached (h : Reached lib (fun node event => NextHopsRemain node event) node) :
    (∀ goal route, goal ∉ node.peer → node.routeTo goal = some route → route.nexthop ∈ node.peer) ∧
    (∀ (packet : TunneledData) reason, 0 < packet.ttl → node.peer.size ≠ 0 →
      (∃ (hip : HashipAddr) (peering : Peering), node.peer[hip]? = some peering ∧
        finalState (routeTunDataToItsDestinationTop packet reason) node =
          finalState (peering.sendDataUdp packet) node) ∨
      node.routeTo packet.dstHip = none ∧
        finalState (routeTunDataToItsDestinationTop packet reason) node =
          finalState (searchRoute packet.dstHip reason ttlMaxAccepted) node) ∧
    ∀ event, NoStaleRoute (finalState (event.run lib) node) ↔ NextHopsRemain node event := by
  have hinv : PeersBound lib node ∧ NoStaleRoute node := by
    refine closed_noStaleRoute.reached (fun _ _ _ _ _ => ⟨.new _ _ _ _ _, ?_⟩)
      (fun node event h hallowed => keeps_noStaleRoute h.1 h.2 hallowed) h
    intro goal route hget
    simp [Tunserver.new, routeTo] at hget
  refine ⟨fun goal route hgoal hroute => (hinv.2 goal route hroute).resolve_left hgoal,
    fun packet reason httl hpeer => ?_, fun event => ⟨fun hafter => ?_, fun hremain => ?_⟩⟩
  · rw [finalState_routeTop]
    obtain ⟨hip, peering, hget, hsend⟩ | ⟨hroute, hsearch⟩ := hinv.2.routed_eq httl hpeer
    · exact .inl ⟨hip, peering, hget, by rw [hsend]⟩
    · exact .inr ⟨hroute, by rw [hsearch]⟩
  · rintro ⟨hip, -, hremoves⟩ goal route hroute
    obtain ⟨hpeer, hroutes⟩ := tables_of_removes hremoves
    have hget : (finalState (event.run lib) node).routeTo goal = some route :=
      (congrArg (·[goal]?) hroutes).trans hroute
    have hstale := hafter goal route hget
    rw [hpeer] at hstale
    exact hstale.imp remains_iff.mpr remains_iff.mpr
  · exact (closed_noStaleRoute.run hinv (keeps_noStaleRoute hinv.1 hinv.2 hremain)).2

/-- A node with two peers, and a route to a third one over the first. -/
def routeOverPeer : Tunserver :=
  (((sampleNode 1).after (sampleMeet 2)).after (sampleMeet 3)).after (sampleReply 2 5 3 9 9)

/-- The node may lose the peer that the route does not lead over. -/
theorem noStaleRoute_of_reached_example :
    let node := routeOverPeer.after (.op (.deletePeer (sampleHip 3)))
    ∀ route, node.routeTo (sampleHip 9) = some route → route.nexthop ∈ node.peer := by
  intro node
  have hkeep : ∀ node event, (∀ hip, event.removes hip = false) → NextHopsRemain node event :=
    fun node event hnone ⟨hip, _, hremoves⟩ => by simp [hnone hip] at hremoves
  have hdelete : NextHopsRemain routeOverPeer (.op (.deletePeer (sampleHip 3))) := by
    intro _ goal route hroute
    have hall : routeOverPeer.routes.toList.all (fun r => r.2.nexthop = sampleHip 2) = true := by decide +kernel
    have hmem : (goal, route) ∈ routeOverPeer.routes.toList :=
      Std.ExtTreeMap.mem_toList_iff_getElem?_eq_some.mpr hroute
    have hnext : route.nexthop = sampleHip 2 := of_decide_eq_true (List.all_eq_true.mp hall _ hmem)
    rw [hnext]
    exact .inr ⟨by decide +kernel, by decide +kernel⟩
  have hreached : Reached CryptoLib.sample (fun node event => NextHopsRemain node event) node :=
    ((((reached_sampleNode 1).after (hkeep _ _ fun _ => rfl) (by decide +kernel)).after
      (hkeep _ _ fun _ => rfl) (by decide +kernel)).after (hkeep _ _ fun _ => rfl) (by decide +kernel)).after
        hdelete (by decide +kernel)
  exact fun route => (noStaleRoute_of_reached hreached).1 _ route (by decide +kernel)

/-- When the node loses the peer that the route leads over, the route stays, and routing data to the
destination does not look for another one. -/
theorem not_noStaleRoute :
    ¬ ∀ lib node (packet : TunneledData) reason route, Reached lib (fun _ _ => True) node →
      packet.dstHip ∉ node.peer → node.routeTo packet.dstHip = some route →
        route.nexthop ∈ node.peer ∨
          ((finalState (routeTunDataToItsDestinationTop packet reason) node).searchFor
            packet.dstHip).isSome := by
  intro h
  let node := routeOverPeer.after (.op (.deletePeer (sampleHip 2)))
  have hreached : Reached CryptoLib.sample (fun _ _ => True) node :=
    ((((reached_sampleNode 1).after trivial (by decide +kernel)).after trivial (by decide +kernel)).after trivial
      (by decide +kernel)).after trivial (by decide +kernel)
  let packet : TunneledData :=
    { srcHip := sampleHip 1, dstHip := sampleHip 9, ttl := 5, nonceUsed := [], blob := [] }
  have hroute : (node.routeTo packet.dstHip).map (fun route => decide (route.nexthop ∈ node.peer)) =
      some false := by decide +kernel
  obtain ⟨route, hget, hnext⟩ := Option.map_eq_some_iff.mp hroute
  obtain hmem | hsearch := h _ node packet ownReason route hreached (by decide +kernel) hget
  · exact of_decide_eq_false hnext hmem
  · exact absurd hsearch (by decide +kernel)

/-! ### The best route -/

/-- The states that a node can reach by events that are allowed, each with the routes that were learned on the
way to it. What is learned is in the list also when it was not stored. -/
inductive ReachedWith (lib : CryptoLib) (Allowed : Tunserver → Event → Prop) :
    Tunserver → List (HashipAddr × RouteInfo) → Prop
  | start (myIDC : MultikeysPAIR) (myIDIPub : MultikeysPub) (myHip : HashipAddr)
      (ipv6Prefix : Bytes) (draws : ℕ) :
      ReachedWith lib Allowed (Tunserver.new myIDC myIDIPub myHip ipv6Prefix draws) []
  | step {node node' : Tunserver} {log : List (HashipAddr × RouteInfo)} {event : Event}
      (h : ReachedWith lib Allowed node log) (hallowed : Allowed node event)
      (hrun : event.run lib node = .ok () node') :
      ReachedWith lib Allowed node' (log ++ (node.learned lib event).toList)

/-- The route leads over its destination itself. -/
def RouteInfo.Direct (route : RouteInfo) (goal : HashipAddr) : Prop :=
  route.nexthop = goal ∧ route.cost = 1

/-- What is learned first is not worse: a reply is not cheaper than the route that is stored, it does not
come before the route of a peer to itself is stored, and who gets the key of a peer has no other route. -/
structure FirstIsBest (lib : CryptoLib) (node : Tunserver) (event : Event) : Prop where
  cheapest : ∀ goal route known, node.Replied lib event goal route →
    node.routeTo goal = some known → known.cost ≤ route.cost
  direct : ∀ goal route, node.Replied lib event goal route → node.routeTo goal = none →
    (node.directRouteTo goal).isSome → route.Direct goal
  put : ∀ hip peering known, node.Puts lib event hip peering → peering.getPub.isSome →
    node.routeTo hip = some known → known.Direct hip

/-- A route to a peer whose key is known is the route of that peer to itself. -/
def PeersAreDirect (node : Tunserver) : Prop :=
  ∀ goal route, (node.directRouteTo goal).isSome → node.routeTo goal = some route → route.Direct goal

/-- Each route that is stored was learned, and no route that was learned is cheaper. -/
structure Cheapest (node : Tunserver) (log : List (HashipAddr × RouteInfo)) : Prop where
  learned : ∀ goal route, node.routeTo goal = some route → (goal, route) ∈ log
  cheapest : ∀ goal other, (goal, other) ∈ log →
    ∃ route, node.routeTo goal = some route ∧ route.cost ≤ other.cost

private theorem directRouteTo_isSome_iff {goal : HashipAddr} :
    (node.directRouteTo goal).isSome ↔
      ∃ peering, node.peer[goal]? = some peering ∧ peering.getPub.isSome := by
  unfold directRouteTo
  cases node.peer[goal]? with
  | none => simp
  | some peering => simp

private theorem PeersAreDirect.learn (h : PeersAreDirect node) {goal : HashipAddr} {route : RouteInfo}
    (hnew : node.routeTo goal = none → (node.directRouteTo goal).isSome → route.Direct goal) :
    PeersAreDirect (node.learnRoute goal route) := by
  intro dst route' hdirect hget
  rw [routeTo_learnRoute] at hget
  split at hget
  next heq =>
    subst heq
    cases hknown : node.routeTo dst with
    | none =>
      rw [hknown] at hget
      obtain rfl := Option.some.inj hget
      exact hnew hknown hdirect
    | some known =>
      rw [hknown] at hget
      obtain rfl := Option.some.inj hget
      exact h dst _ hdirect hknown
  · exact h dst route' hdirect hget

private theorem keeps_peersAreDirect (hpeers : PeersBound lib node) (h : PeersAreDirect node)
    (hfirst : FirstIsBest lib node event) :
    Keeps lib (fun node => PeersBound lib node ∧ PeersAreDirect node) node event where
  learned goal route hlearned := by
    refine ⟨hpeers, h.learn fun hnew hdirect => ?_⟩
    obtain hreplied | hself := replied_or_direct hlearned
    · exact hfirst.direct goal route hreplied hnew hdirect
    · exact ⟨(hpeers.direct hself).2.1, (hpeers.direct hself).2.2.2⟩
  put hip peering hput := by
    refine ⟨hpeers.put hput, fun goal route hdirect hget => ?_⟩
    obtain ⟨peering', hpeer, hpub⟩ := directRouteTo_isSome_iff.mp hdirect
    rw [getElem?_putPeer] at hpeer
    split at hpeer
    next heq =>
      obtain rfl := Option.some.inj hpeer
      subst heq
      exact hfirst.put goal peering route hput hpub hget
    · exact h goal route (directRouteTo_isSome_iff.mpr ⟨peering', hpeer, hpub⟩) hget
  removed _ := by
    refine ⟨hpeers.removed _, fun goal route hdirect hget => ?_⟩
    obtain ⟨peering, hpeer, hpub⟩ := directRouteTo_isSome_iff.mp hdirect
    rw [getElem?_removePeers] at hpeer
    split at hpeer
    · cases hpeer
    · exact h goal route (directRouteTo_isSome_iff.mpr ⟨peering, hpeer, hpub⟩) hget

private theorem closed_peersAreDirect : Closed fun node => PeersBound lib node ∧ PeersAreDirect node :=
  .of_tables fun node node' hpeer hroutes h => by
    refine ⟨fun hip peering hget => h.1 hip peering (by rwa [← hpeer]), fun goal route hdirect hget => ?_⟩
    refine h.2 goal route ?_ (by rw [← hget]; exact (congrArg (·[goal]?) hroutes).symm)
    rw [directRouteTo_isSome_iff, ← hpeer]
    exact directRouteTo_isSome_iff.mp hdirect

/-- The routes are the cheapest ones after an event, when they were before. -/
theorem Cheapest.run {log : List (HashipAddr × RouteInfo)} (h : Cheapest node log)
    (hcheap : ∀ goal route known, node.learned lib event = some (goal, route) →
      node.routeTo goal = some known → known.cost ≤ route.cost) :
    Cheapest (finalState (event.run lib) node) (log ++ (node.learned lib event).toList) := by
  cases hlearned : node.learned lib event with
  | none =>
    have hroutes : ∀ goal, (finalState (event.run lib) node).routeTo goal = node.routeTo goal :=
      fun goal => congrArg (·[goal]?) (routes_of_not_learned hlearned)
    simp only [Option.toList_none, List.append_nil]
    exact ⟨fun goal route hget => h.learned goal route (by rwa [← hroutes]),
      fun goal other hmem => by rw [hroutes]; exact h.cheapest goal other hmem⟩
  | some r =>
    obtain ⟨goal, route⟩ := r
    simp only [Option.toList_some]
    constructor
    -- What is stored was learned: now, or it was there and is kept.
    · intro dst route' hget
      rw [routeTo_finalState_of_learned hlearned] at hget
      split at hget
      next heq =>
        subst heq
        cases hknown : node.routeTo dst with
        | none =>
          rw [hknown] at hget
          obtain rfl := Option.some.inj hget
          exact List.mem_append_right _ List.mem_cons_self
        | some known =>
          rw [hknown] at hget
          obtain rfl := Option.some.inj hget
          exact List.mem_append_left _ (h.learned dst _ hknown)
      · exact List.mem_append_left _ (h.learned dst route' hget)
    · intro dst other hmem
      obtain hold | hnew := List.mem_append.mp hmem
      · obtain ⟨known, hknown, hle⟩ := h.cheapest dst other hold
        exact ⟨known, routeTo_finalState_of_known hknown, hle⟩
      -- A route that is kept is not dearer than the one that is learned now.
      · obtain ⟨rfl, rfl⟩ : dst = goal ∧ other = route := by simpa using hnew
        cases hknown : node.routeTo dst with
        | none => exact ⟨_, routeTo_finalState_of_new hlearned hknown, le_rfl⟩
        | some known =>
          exact ⟨known, routeTo_finalState_of_known hknown, hcheap dst other known hlearned hknown⟩

/-- When what is learned first is not worse, the route that is stored for each destination is one that was
learned, no route that was learned for it is cheaper, and looking up a peer whose key is known gives the route
of that peer to itself, at a cost of 1. The program keeps the first route that it learns, so what comes later
must not be better. -/
theorem bestRoute_of_reachedWith {log : List (HashipAddr × RouteInfo)}
    (h : ReachedWith lib (FirstIsBest lib) node log) :
    (∀ goal route, node.routeTo goal = some route → (goal, route) ∈ log ∧
      ∀ other, (goal, other) ∈ log → route.cost ≤ other.cost) ∧
    ∀ (goal : HashipAddr) (peering : Peering) reason startSearch searchTtl,
      node.peer[goal]? = some peering → peering.getPub.isSome → ∃ route node',
        getRouteOrMaybeSearch goal reason startSearch searchTtl node = .ok route node' ∧
          route.nexthop = goal ∧ route.cost = 1 := by
  -- The invariant that all three parts come from.
  have hinv : (PeersBound lib node ∧ PeersAreDirect node) ∧ Cheapest node log := by
    induction h with
    | start myIDC myIDIPub myHip ipv6Prefix draws =>
      refine ⟨⟨.new _ _ _ _ _, fun goal route _ hget => ?_⟩, fun goal route hget => ?_,
        fun goal other hmem => by cases hmem⟩
      · simp [Tunserver.new, routeTo] at hget
      · simp [Tunserver.new, routeTo] at hget
    | @step node node' log event _ hfirst hrun ih =>
      have hstep := closed_peersAreDirect.run ih.1 (keeps_peersAreDirect ih.1.1 ih.1.2 hfirst)
      have hcheap : ∀ goal route known, node.learned lib event = some (goal, route) →
          node.routeTo goal = some known → known.cost ≤ route.cost := by
        intro goal route known hlearned hknown
        obtain hreplied | hself := replied_or_direct hlearned
        · exact hfirst.cheapest goal route known hreplied hknown
        · rw [(ih.1.1.direct hself).2.2.2, (ih.1.2 goal known (by rw [hself]; rfl) hknown).2]
      have hlog := ih.2.run hcheap
      rw [finalState_of_ok hrun] at hstep hlog
      exact ⟨hstep, hlog⟩
  refine ⟨fun goal route hget => ⟨hinv.2.learned goal route hget, fun other hmem => ?_⟩, ?_⟩
  · obtain ⟨route', hget', hle⟩ := hinv.2.cheapest goal other hmem
    obtain rfl := Option.some.inj (hget.symm.trans hget')
    exact hle
  · intro goal peering reason startSearch searchTtl hpeer hpub
    have hdirect : (node.directRouteTo goal).isSome := directRouteTo_isSome_iff.mpr ⟨peering, hpeer, hpub⟩
    obtain ⟨direct, hself⟩ := Option.isSome_iff_exists.mp hdirect
    refine ⟨_, _, getRoute_of_directRouteTo hself, ?_⟩
    cases hknown : node.routeTo goal with
    | none => exact ⟨(hinv.1.1.direct hself).2.1, (hinv.1.1.direct hself).2.2.2⟩
    | some known => exact hinv.1.2 goal known hdirect hknown

/-- A state goes on by an event that returns. -/
theorem ReachedWith.after {Allowed : Tunserver → Event → Prop} {node : Tunserver}
    {log : List (HashipAddr × RouteInfo)} {event : Event}
    (h : ReachedWith CryptoLib.sample Allowed node log) (hallowed : Allowed node event)
    (hreturns : returned (event.run CryptoLib.sample) node = some ()) :
    ReachedWith CryptoLib.sample Allowed (node.after event)
      (log ++ (node.learned CryptoLib.sample event).toList) :=
  h.step hallowed (eq_ok_finalState hreturns)

/-- A node without routes may learn one to who is not a peer whose key is known. -/
private theorem firstIsBest_of_no_routes (hroutes : ∀ goal, node.routeTo goal = none)
    (hdirect : ∀ goal route, node.Replied lib event goal route → node.directRouteTo goal = none) :
    FirstIsBest lib node event where
  cheapest goal route known _ hknown := by simp [hroutes goal] at hknown
  direct goal route hreplied _ hself := by simp [hdirect goal route hreplied] at hself
  put hip peering known _ _ hknown := by simp [hroutes hip] at hknown

/-- A node has a peer, and is sent a route to another node. -/
theorem bestRoute_of_reachedWith_example :
    let node := ((sampleNode 1).after (sampleMeet 2)).after (sampleReply 2 5 3 9 9)
    ∃ route node', getRouteOrMaybeSearch (sampleHip 2) ownReason true 5 node = .ok route node' ∧
      route.nexthop = sampleHip 2 ∧ route.cost = 1 := by
  intro node
  have hmeet : FirstIsBest CryptoLib.sample (sampleNode 1) (sampleMeet 2) :=
    firstIsBest_of_no_routes (fun goal => by simp [sampleNode, Tunserver.new, routeTo])
      fun goal route hreplied => by cases hreplied
  have hreply : FirstIsBest CryptoLib.sample ((sampleNode 1).after (sampleMeet 2))
      (sampleReply 2 5 3 9 9) := by
    refine firstIsBest_of_no_routes (fun goal => ?_) fun goal route hreplied => ?_
    · have hroutes : ((sampleNode 1).after (sampleMeet 2)).routes = ∅ := rfl
      exact (congrArg (·[goal]?) hroutes).trans (by simp)
    · have hlearned : (((sampleNode 1).after (sampleMeet 2)).learned CryptoLib.sample
          (sampleReply 2 5 3 9 9)).map Prod.fst = some (sampleHip 9) := by decide +kernel
      rw [hreplied.learned] at hlearned
      obtain rfl := Option.some.inj hlearned
      exact Option.isNone_iff_eq_none.mp (by decide +kernel)
  have hreached : ReachedWith CryptoLib.sample (FirstIsBest CryptoLib.sample) node _ :=
    ((ReachedWith.start _ _ _ _ _).after hmeet (by decide +kernel)).after hreply (by decide +kernel)
  obtain ⟨peering, hpeer⟩ := Option.isSome_iff_exists.mp
    (show (node.peer[sampleHip 2]?).isSome = true by decide +kernel)
  have hpub : peering.getPub.isSome = true := by
    have hall : (node.peer[sampleHip 2]?).all (fun peering => peering.getPub.isSome) = true := by decide +kernel
    rwa [hpeer] at hall
  exact (bestRoute_of_reachedWith hreached).2 _ peering _ _ _ hpeer hpub

/-- A cheaper route that comes second is not kept. -/
theorem not_bestRoute :
    ¬ ∀ lib node log, ReachedWith lib (fun _ _ => True) node log →
      ∀ goal route other, node.routeTo goal = some route → (goal, other) ∈ log →
        route.cost ≤ other.cost := by
  intro h
  have hreached : ReachedWith CryptoLib.sample (fun _ _ => True)
      (routeOverPeer.after (sampleReply 3 5 2 9 9)) _ :=
    ((((ReachedWith.start _ _ _ _ _).after trivial (by decide +kernel)).after trivial (by decide +kernel)).after trivial
      (by decide +kernel)).after trivial (by decide +kernel)
  have hkept : ((routeOverPeer.after (sampleReply 3 5 2 9 9)).routeTo (sampleHip 9)).map
      (fun route => route.cost) = some 3 := by decide +kernel
  have hother : (routeOverPeer.learned CryptoLib.sample (sampleReply 3 5 2 9 9)).map
      (fun r => (r.1, r.2.cost)) = some (sampleHip 9, 2) := by decide +kernel
  obtain ⟨route, hroute, hcost⟩ := Option.map_eq_some_iff.mp hkept
  obtain ⟨⟨goal, other⟩, hlearned, heq⟩ := Option.map_eq_some_iff.mp hother
  obtain ⟨rfl, hcheaper⟩ := Prod.mk.inj heq
  have hmem : (sampleHip 9, other) ∈ (routeOverPeer.learned CryptoLib.sample
      (sampleReply 3 5 2 9 9)).toList := by
    rw [hlearned]
    exact List.mem_cons_self
  have hle := h _ _ _ hreached _ route other hroute (List.mem_append_right _ hmem)
  rw [hcost, hcheaper] at hle
  exact absurd hle (by decide +kernel)

end Galaxy42
