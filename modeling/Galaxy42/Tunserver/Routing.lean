import Galaxy42.Tunserver.Datagrams

/-!
# Routes and searches

The routing manager keeps a route to each destination it has learned one for, and a search for each
destination it was asked for without knowing a route. A lookup looks at the peers first, then at the
routes, and then starts a search or adds a request to one; only a new search sends queries
(`finalState_execute`). Nothing is ever removed. What a search keeps of its requests is looked at in
`Galaxy42.Tunserver.RouteReasons`.

Routing data is a recursion: data go to the next hop when that is a peer, else a route to the next hop
is looked up and the hop of that route is tried, at most two times. Three calls are written out here;
`routeDetail_eq` says that there is never a fourth, and where the recursion ends: at a peer
(`NextPeer.send`), at a hop without a route (`NextPeer.search`), or after two routes (`NextPeer.drop`).

Where data go is a function of the tables (`nextPeer`), and delivering them there is all that routing does
(`finalState_routeTop`). Modules that ask what is sent, whether the tables stay in order or whether the
process is aborted use this equation and not the recursion. That a call is made with what comes at the bottom
as a parameter is how the equation can be proved without a bound on calls: with three calls it makes no
difference what the parameter is.

A command to all peers ends at the first one that it cannot be sent to (`reachedPeers`), so that who is asked
depends on the order of the addresses in the table.

Addresses are left out of the texts of exceptions.
-/

namespace Galaxy42

open Toolkit Program TrivialSerialize

/-! ### The routing manager -/

namespace RouteSearch

/-- The constructor of `c_route_search`, which does not use `basic_ttl`. -/
def new (addr : HashipAddr) : RouteSearch :=
  { addr, ttlUsed := 0, ttlShouldUse := 5, request := fun _ => .leaf }

/-- The part of `add_request` that keeps the reason, in the map. A reason that is found keeps the larger one
of its TTLs. As the comparison of reasons is no order, one that is there need not be found. -/
def addReason (rebalancing : SearchTree.Rebalancing RouteReason ℤ) (request : SearchTree RouteReason ℤ)
    (reason : RouteReason) (ttl : ℤ) : SearchTree RouteReason ℤ :=
  match request.find RouteReason.lt reason with
  | none => request.emplace RouteReason.lt rebalancing reason ttl
  | some _ => request.modify RouteReason.lt reason fun known => max known ttl

/-- `add_request`. The TTL that should be used never gets lower. -/
def addRequest (search : RouteSearch) (reason : RouteReason) (ttl : ℤ) : RouteSearch :=
  { search with
    request := fun rebalancing => addReason rebalancing (search.request rebalancing) reason ttl
    ttlShouldUse := max search.ttlShouldUse ttl }

end RouteSearch

namespace Tunserver

/-- The route to a destination that is stored. -/
def routeTo (node : Tunserver) (dst : HashipAddr) : Option RouteInfo :=
  node.routingManager.routeNexthop[dst]?

/-- The search for a destination that was started. -/
def searchFor (node : Tunserver) (dst : HashipAddr) : Option RouteSearch :=
  node.routingManager.search[dst]?

/-- The node with a route to a target, if it has none yet. -/
def learnRoute (node : Tunserver) (target : HashipAddr) (routeInfo : RouteInfo) : Tunserver :=
  { node with routingManager := { node.routingManager with
      routeNexthop := node.routingManager.routeNexthop.insertIfNew target routeInfo } }

/-- The node with a search for a destination. -/
def putSearch (node : Tunserver) (dst : HashipAddr) (search : RouteSearch) : Tunserver :=
  { node with routingManager := { node.routingManager with
      search := node.routingManager.search.insert dst search } }

/-- `get_peer_with_hip`. The two exceptions are those that its caller catches. -/
def getPeerWithHip (addr : HashipAddr) (requirePubkey : Bool) : Node Peering := do
  let node ← get
  match node.peer[addr]? with
  | none => raise .expectedNotFound
  | some peer =>
    if requirePubkey then
      checkThat (peer.getPub.isSome = true) .expectedNotFoundMissingPubkey
    return peer

/-- `add_route_info_and_return`. A route that is there already is kept. -/
def addRouteInfoAndReturn (target : HashipAddr) (routeInfo : RouteInfo) : Node RouteInfo := do
  let node ← get
  match node.routeTo target with
  | none =>
    set (node.learnRoute target routeInfo)
    return routeInfo
  | some known => return known

/-- `nodep2p_foreach_cmd`. An exception at one peer leaves out the peers behind it. -/
def nodep2pForeachCmd (cmd : ProtoCmd) (data : Bytes) : Node Unit := do
  let node ← get
  node.peer.toList.forM fun v => v.2.sendDataUdpCmd cmd data

end Tunserver

open Tunserver

/-- `c_route_search::execute`. A TTL that does not fit into an octet aborts the process. -/
def RouteSearch.execute (search : RouteSearch) : Node Unit := do
  let byteHighestTtl := UInt8.ofInt search.ttlShouldUse
  assertThat (search.ttlShouldUse = byteHighestTtl.toNat)
  nodep2pForeachCmd .findhipQuery (queryBin search.addr byteHighestTtl)
  modify fun node => node.putSearch search.addr { search with ttlUsed := byteHighestTtl.toNat }

/-- The beginning of `get_route_or_maybe_search`: a peer is its own next hop. The route to it is stored,
unless there is one. A peer without a key throws. -/
def directRoute (dst : HashipAddr) : Node (Option RouteInfo) :=
  catching (do
    let peer ← getPeerWithHip dst false
    match peer.getPub with
    | none => raise (.runtimeError "This peer has no pubkey yet.")
    | some pubkey =>
      let cost := 1
      some <$> addRouteInfoAndReturn dst { nexthop := peer.getHip, pubkey, cost })
  fun
    | .expectedNotFoundMissingPubkey => some (pure none)
    | .expectedNotFound => some (pure none)
    | _ => none

/-- The part of `get_route_or_maybe_search` that starts a search or adds a request to it. A search that is
there gets the request, but nothing is sent for it. -/
def searchRoute (dst : HashipAddr) (reason : RouteReason) (searchTtl : ℤ) : Node Unit := do
  let node ← get
  match node.searchFor dst with
  | none =>
    let newSearch := (RouteSearch.new dst).addRequest reason searchTtl
    set (node.putSearch dst newSearch)
    newSearch.execute
  | some search => set (node.putSearch dst (search.addRequest reason searchTtl))

/-- `get_route_or_maybe_search`. A route is looked for among the peers, then among those that are stored; when
there is none, a search is started or gets one more request. -/
def getRouteOrMaybeSearch (dst : HashipAddr) (reason : RouteReason) (startSearch : Bool)
    (searchTtl : ℤ) : Node RouteInfo := do
  match ← directRoute dst with
  | some route => return route
  | none =>
    let node ← get
    match node.routeTo dst with
    | some route => return route
    | none =>
      if ¬ startSearch then
        raise (.runtimeError "no route known (and we do NOT WANT TO search) to dst=")
      else
        searchRoute dst reason searchTtl
        raise (.runtimeError "NO ROUTE known (at current time) to dst=")

/-! ### Routing data -/

/-- The body of `route_tun_data_to_its_destination_detail`, with `recurse` in place of the call to
itself. -/
def routeDetailStep (recurse : HashipAddr → ℕ → Node Bool) (packet : TunneledData)
    (reason : RouteReason) (nextHip : HashipAddr) (recurseLevel : ℕ) : Node Bool := do
  if packet.ttl ≤ 0 then
    return false
  let node ← get
  if node.peer.size = 0 then
    return false
  match node.peer[nextHip]? with
  | none =>
    if recurseLevel > 1 then
      return false
    let defaultTtl := ttlMaxAccepted
    let route ← catching (some <$> getRouteOrMaybeSearch nextHip reason true defaultTtl)
      fun _ => some (pure none)
    match route with
    | none => return false
    | some route => recurse route.nexthop (recurseLevel + 1)
  | some targetPeer =>
    targetPeer.sendDataUdp packet
    return true

/-- `route_tun_data_to_its_destination_detail`, with so many calls written out, and `bottom` in place of
the call of the last one to itself. -/
def routeDetail (bottom : HashipAddr → ℕ → Node Bool) (packet : TunneledData)
    (reason : RouteReason) : ℕ → HashipAddr → ℕ → Node Bool
  | 0 => bottom
  | depth + 1 => routeDetailStep (routeDetail bottom packet reason depth) packet reason

/-- `route_tun_data_to_its_destination_detail`, which never makes a fourth call (`routeDetail_eq`). -/
def routeTunDataToItsDestinationDetail (packet : TunneledData) (nextHip : HashipAddr)
    (reason : RouteReason) (recurseLevel : ℕ) : Node Bool :=
  routeDetail (fun _ _ => abort) packet reason 3 nextHip recurseLevel

/-- `route_tun_data_to_its_destination_top`. Data that have no TTL left are dropped. Every exception is
caught, and `true` is returned then. -/
def routeTunDataToItsDestinationTop (packet : TunneledData) (reason : RouteReason) :
    Node Bool := do
  if packet.ttl ≤ 0 then
    return false
  catching (routeTunDataToItsDestinationDetail packet packet.dstHip reason 0)
    fun _ => some (pure true)

/-! ### What lookups do -/

section Lookup

variable {node : Tunserver} {dst : HashipAddr} {reason : RouteReason}

namespace Tunserver

/-- A route that is known is kept. -/
theorem learnRoute_of_known {target : HashipAddr} {routeInfo known : RouteInfo}
    (h : node.routeTo target = some known) : node.learnRoute target routeInfo = node := by
  have hmem : target ∈ node.routingManager.routeNexthop :=
    Std.ExtTreeMap.mem_iff_isSome_getElem?.mpr (Option.isSome_iff_exists.mpr ⟨known, h⟩)
  unfold learnRoute
  rw [insertIfNew_of_mem _ _ hmem]

theorem routeTo_learnRoute {target : HashipAddr} {routeInfo : RouteInfo} :
    (node.learnRoute target routeInfo).routeTo dst =
      if dst = target then some ((node.routeTo target).getD routeInfo) else node.routeTo dst := by
  unfold learnRoute routeTo
  dsimp only
  rw [Std.ExtTreeMap.getElem?_insertIfNew]
  by_cases heq : dst = target
  · subst heq
    rw [if_pos rfl]
    by_cases hmem : dst ∈ node.routingManager.routeNexthop
    · obtain ⟨known, hknown⟩ := Option.isSome_iff_exists.mp
        (Std.ExtTreeMap.mem_iff_isSome_getElem?.mp hmem)
      rw [if_neg fun h => h.2 hmem, hknown]
      rfl
    · rw [if_pos ⟨Std.ReflCmp.compare_self, hmem⟩, Std.ExtTreeMap.getElem?_eq_none hmem]
      rfl
  · rw [if_neg heq, if_neg fun h => heq (Std.LawfulEqCmp.eq_of_compare h.1).symm]

/-- Storing a route returns the route that was known before, if there was one. -/
theorem addRouteInfoAndReturn_eq {target : HashipAddr} {routeInfo : RouteInfo} :
    addRouteInfoAndReturn target routeInfo node =
      .ok ((node.routeTo target).getD routeInfo) (node.learnRoute target routeInfo) := by
  simp only [addRouteInfoAndReturn, bind_apply, get_apply]
  cases h : node.routeTo target with
  | none => rfl
  | some known =>
    rw [learnRoute_of_known h]
    rfl

/-- The peers that a command to each of them is sent to: it ends at the first one without an address
that can be sent to. -/
def reachedPeers (node : Tunserver) : List Peering :=
  if node.udpDisabled then [] else (node.peer.toList.map Prod.snd).takeWhile fun p => p.Sendable

/-- The node after a datagram was sent to peers, one after the other. -/
def sentToAll (node : Tunserver) (peers : List Peering) (data : Bytes) : Tunserver :=
  { node with sent := (peers.map fun p => (p.getPip, data)).reverse ++ node.sent }

private theorem finalState_forM_sendDataRAWUdp (data : Bytes) (peers : List (HashipAddr × Peering)) :
    ∀ node : Tunserver, finalState (peers.forM fun v => v.2.sendDataRAWUdp data) node =
      node.sentToAll (if node.udpDisabled then []
        else (peers.map Prod.snd).takeWhile fun p => p.Sendable) data := by
  induction peers with
  | nil =>
    intro node
    cases hon : node.udpDisabled <;> simp [sentToAll, finalState]
  | cons v peers ih =>
    intro node
    have hcons : ((v :: peers).forM fun v => v.2.sendDataRAWUdp data : Node Unit) =
        (v.2.sendDataRAWUdp data >>= fun _ => peers.forM fun v => v.2.sendDataRAWUdp data) := rfl
    have hfinal := Peering.finalState_sendDataRAWUdp v.2 node data
    rw [hcons]
    cases hon : node.udpDisabled with
    | true =>
      rw [if_neg fun h => by simp [hon] at h] at hfinal
      cases hrun : v.2.sendDataRAWUdp data node with
      | ok u node' =>
        obtain rfl : node' = node := by rwa [finalState_of_ok hrun] at hfinal
        rw [finalState_bind_of_ok hrun, ih, hon]
        rfl
      | error e node' =>
        obtain rfl : node' = node := by rwa [finalState_of_error hrun] at hfinal
        rw [finalState_bind_of_error hrun]
        rfl
    | false =>
      by_cases hsend : v.2.Sendable
      · rw [finalState_bind_of_ok (Peering.sendDataRAWUdp_of_sendable hsend hon), ih]
        simp [hon, hsend, pushSent, sentToAll]
      · obtain ⟨e, he⟩ := Peering.sendDataRAWUdp_of_not_sendable data hsend hon
        rw [finalState_bind_of_error he]
        simp [hsend, sentToAll]

/-- However it ends, a command to each peer is sent to the peers that are reached. -/
private theorem finalState_nodep2pForeachCmd (cmd : ProtoCmd) (data : Bytes) (node : Tunserver) :
    finalState (nodep2pForeachCmd cmd data) node =
      node.sentToAll node.reachedPeers (cmdOctets cmd data) :=
  finalState_forM_sendDataRAWUdp _ _ node

/-- The node with other searches. -/
def withSearches (node : Tunserver) (search : Std.ExtTreeMap HashipAddr RouteSearch) : Tunserver :=
  { node with routingManager := { node.routingManager with search } }

/-- The peers that a search for a destination asks: none, when it was searched for before, or when the
TTL does not fit into an octet. -/
def askedPeers (node : Tunserver) (dst : HashipAddr) (searchTtl : ℤ) : List Peering :=
  if (node.searchFor dst).isSome ∨ 256 ≤ searchTtl then [] else node.reachedPeers

theorem mem_search_iff : dst ∈ node.routingManager.search ↔ (node.searchFor dst).isSome :=
  Std.ExtTreeMap.mem_iff_isSome_getElem?

/-- A search sends its query to the peers that are reached, if its TTL fits into an octet. A search whose TTL
does not fit sends nothing, and its exception ends the lookup. -/
theorem finalState_execute (search : RouteSearch) (node : Tunserver)
    (h0 : 0 ≤ search.ttlShouldUse) (hmem : search.addr ∈ node.routingManager.search) :
    ∃ m, finalState search.execute node =
        (node.sentToAll (if 256 ≤ search.ttlShouldUse then [] else node.reachedPeers)
          (queryOctets search.addr (UInt8.ofInt search.ttlShouldUse))).withSearches m ∧
      ∀ hip, hip ∈ m ↔ hip ∈ node.routingManager.search := by
  by_cases hlt : 256 ≤ search.ttlShouldUse
  · -- The TTL is asserted to fit.
    have hassert : ¬ search.ttlShouldUse = (UInt8.ofInt search.ttlShouldUse).toNat := by
      have := (UInt8.ofInt search.ttlShouldUse).toNat_lt
      omega
    refine ⟨node.routingManager.search, ?_, fun hip => Iff.rfl⟩
    rw [RouteSearch.execute, if_pos hlt]
    simp [finalState, bind_apply, assertThat_apply, hassert, sentToAll, withSearches]
  have hassert : search.ttlShouldUse = (UInt8.ofInt search.ttlShouldUse).toNat :=
    (toNat_ofInt_of_lt h0 (not_le.mp hlt)).symm
  have hforeach := finalState_nodep2pForeachCmd .findhipQuery
    (queryBin search.addr (UInt8.ofInt search.ttlShouldUse)) node
  rw [RouteSearch.execute, if_neg hlt,
    finalState_bind_of_ok (a := ()) (assertThat_eq_ok_iff.mpr ⟨hassert, rfl⟩)]
  cases hrun : nodep2pForeachCmd .findhipQuery
      (queryBin search.addr (UInt8.ofInt search.ttlShouldUse)) node with
  | ok u node' =>
    rw [finalState_of_ok hrun] at hforeach
    subst hforeach
    rw [finalState_bind_of_ok hrun]
    refine ⟨_, rfl, fun hip => ?_⟩
    change hip ∈ node.routingManager.search.insert _ _ ↔ _
    rw [Std.ExtTreeMap.mem_insert]
    refine or_iff_right_of_imp fun heq => ?_
    rwa [← Std.LawfulEqCmp.eq_of_compare heq]
  | error e node' =>
    rw [finalState_of_error hrun] at hforeach
    subst hforeach
    rw [finalState_bind_of_error hrun]
    exact ⟨node.routingManager.search, rfl, fun hip => Iff.rfl⟩

/-- However it ends, looking for a destination asks the peers that are reached when it is looked for
the first time, with a TTL of 5 or more. -/
theorem finalState_searchRoute (dst : HashipAddr) (reason : RouteReason) (searchTtl : ℤ)
    (node : Tunserver) :
    ∃ m, finalState (searchRoute dst reason searchTtl) node =
        (node.sentToAll (node.askedPeers dst searchTtl)
          (queryOctets dst (UInt8.ofInt (max 5 searchTtl)))).withSearches m ∧
      ∀ hip, hip ∈ m ↔ hip = dst ∨ hip ∈ node.routingManager.search := by
  have hinsert : ∀ (search : RouteSearch) hip,
      hip ∈ node.routingManager.search.insert dst search ↔
        hip = dst ∨ hip ∈ node.routingManager.search := by
    intro search hip
    rw [Std.ExtTreeMap.mem_insert, Std.LawfulEqCmp.compare_eq_iff_eq, eq_comm]
  unfold askedPeers
  cases hsearch : node.searchFor dst with
  | none =>
    let newSearch := (RouteSearch.new dst).addRequest reason searchTtl
    have hrun : finalState (searchRoute dst reason searchTtl) node =
        finalState newSearch.execute (node.putSearch dst newSearch) := by
      rw [searchRoute, finalState_bind_of_ok (get_apply node), hsearch]
      rfl
    -- A new search has a TTL of 5 or more.
    have hfit : 256 ≤ newSearch.ttlShouldUse ↔ 256 ≤ searchTtl := by
      rw [show newSearch.ttlShouldUse = max 5 searchTtl from rfl]
      omega
    obtain ⟨m, hm, hmem⟩ := finalState_execute newSearch (node.putSearch dst newSearch)
      (le_max_of_le_left (by decide : (0 : ℤ) ≤ 5)) ((hinsert newSearch dst).mpr (.inl rfl))
    rw [hrun, hm]
    simp only [hfit, Option.isSome_none, Bool.false_eq_true, false_or]
    exact ⟨m, rfl, fun hip => (hmem hip).trans (hinsert newSearch hip)⟩
  | some search =>
    have hrun : finalState (searchRoute dst reason searchTtl) node =
        node.putSearch dst (search.addRequest reason searchTtl) := by
      rw [searchRoute, finalState_bind_of_ok (get_apply node), hsearch]
      rfl
    rw [hrun]
    exact ⟨_, rfl, hinsert (search.addRequest reason searchTtl)⟩

/-- The route of a peer to itself. -/
def peerRoute (peering : Peering) (pubkey : HashipPubkey) : RouteInfo :=
  { nexthop := peering.getHip, pubkey, cost := 1 }

section Direct

variable {peering : Peering}

/-- Looking for the route to a peer whose public key is known stores a route, unless one is stored. -/
private theorem directRoute_of_peer {pubkey : HashipPubkey} (hpeer : node.peer[dst]? = some peering)
    (hpub : peering.getPub = some pubkey) :
    directRoute dst node = .ok (some ((node.routeTo dst).getD (peerRoute peering pubkey)))
      (node.learnRoute dst (peerRoute peering pubkey)) := by
  refine catching_eq_ok_iff.mpr (.inl ?_)
  have hget : getPeerWithHip dst false node = .ok peering node := by
    simp [getPeerWithHip, bind_apply, hpeer]
  rw [bind_of_ok hget, hpub]
  exact map_eq_ok_iff.mpr ⟨_, addRouteInfoAndReturn_eq, rfl⟩

/-- For a peer whose public key is not known there is an exception. -/
private theorem directRoute_of_peer_without_pubkey (hpeer : node.peer[dst]? = some peering)
    (hpub : peering.getPub = none) :
    directRoute dst node =
      .error (.throw (.runtimeError "This peer has no pubkey yet.")) node := by
  have hget : getPeerWithHip dst false node = .ok peering node := by
    simp [getPeerWithHip, bind_apply, hpeer]
  simp [directRoute, catching, bind_of_ok hget, hpub]

/-- Who is not a peer has no direct route. -/
theorem directRoute_of_not_peer (hpeer : node.peer[dst]? = none) :
    directRoute dst node = .ok none node := by
  have hget : getPeerWithHip dst false node = .error (.throw .expectedNotFound) node := by
    simp [getPeerWithHip, bind_apply, hpeer]
  simp [directRoute, catching, bind_of_error hget]

end Direct

variable {startSearch : Bool} {searchTtl : ℤ}

/-- The lookup of a peer whose public key is known. -/
theorem getRoute_of_peer {peering : Peering} {pubkey : HashipPubkey}
    (hpeer : node.peer[dst]? = some peering) (hpub : peering.getPub = some pubkey) :
    getRouteOrMaybeSearch dst reason startSearch searchTtl node =
      .ok ((node.routeTo dst).getD (peerRoute peering pubkey))
        (node.learnRoute dst (peerRoute peering pubkey)) :=
  bind_of_ok (directRoute_of_peer hpeer hpub)

/-- The lookup of a peer whose public key is not known. -/
theorem getRoute_of_peer_without_pubkey {peering : Peering}
    (hpeer : node.peer[dst]? = some peering) (hpub : peering.getPub = none) :
    getRouteOrMaybeSearch dst reason startSearch searchTtl node =
      .error (.throw (.runtimeError "This peer has no pubkey yet.")) node :=
  bind_of_error (directRoute_of_peer_without_pubkey hpeer hpub)

/-- The lookup of a destination that is not a peer, with a route that is known. -/
theorem getRoute_of_route {route : RouteInfo} (hpeer : node.peer[dst]? = none)
    (hroute : node.routeTo dst = some route) :
    getRouteOrMaybeSearch dst reason startSearch searchTtl node = .ok route node := by
  rw [getRouteOrMaybeSearch, bind_of_ok (directRoute_of_not_peer hpeer)]
  exact (bind_of_ok (get_apply node)).trans (by rw [hroute]; rfl)

/-- The lookup of a destination that is not a peer, without a route, when one is to be searched. -/
theorem getRoute_of_no_route (hpeer : node.peer[dst]? = none) (hroute : node.routeTo dst = none) :
    getRouteOrMaybeSearch dst reason true searchTtl node =
      (searchRoute dst reason searchTtl >>= fun _ =>
        raise (.runtimeError "NO ROUTE known (at current time) to dst=")) node := by
  rw [getRouteOrMaybeSearch, bind_of_ok (directRoute_of_not_peer hpeer)]
  exact (bind_of_ok (get_apply node)).trans (by rw [hroute]; rfl)

end Tunserver

end Lookup

/-! ### Where data go -/

/-- Where data for a hop go. -/
inductive NextPeer where
  /-- To this peer. -/
  | send (peering : Peering)
  /-- Nowhere: there is no route to this hop, which is searched for. -/
  | search (hip : HashipAddr)
  /-- Nowhere: too many routes lead to each other. -/
  | drop

namespace Tunserver

/-- Where data for a hop go, over so many routes at most. -/
def nextPeer (node : Tunserver) : ℕ → HashipAddr → NextPeer
  | 0, hip =>
    match node.peer[hip]? with
    | some peering => .send peering
    | none => .drop
  | n + 1, hip =>
    match node.peer[hip]? with
    | some peering => .send peering
    | none =>
      match node.routeTo hip with
      | some route => node.nextPeer n route.nexthop
      | none => .search hip

end Tunserver

/-- What is done with data that go there. -/
def NextPeer.deliver (packet : TunneledData) (reason : RouteReason) : NextPeer → Node Bool
  | .send peering => do
    peering.sendDataUdp packet
    return true
  | .search hip =>
    catching (do
      searchRoute hip reason ttlMaxAccepted
      return false) fun _ => some (pure false)
  | .drop => return false

section RouteData

variable {node : Tunserver} {packet : TunneledData} {reason : RouteReason}

/-- The lookup of a hop that ends without a route, as routing uses it. -/
private theorem catching_getRoute_of_no_route {hip : HashipAddr} (hpeer : node.peer[hip]? = none)
    (hroute : node.routeTo hip = none) (f : Option RouteInfo → Node Bool)
    (hf : f none = pure false) :
    (catching (some <$> getRouteOrMaybeSearch hip reason true ttlMaxAccepted)
        (fun _ => some (pure none)) >>= f) node =
      (NextPeer.search hip).deliver packet reason node := by
  have hlookup : getRouteOrMaybeSearch hip reason true ttlMaxAccepted node = _ :=
    getRoute_of_no_route hpeer hroute
  rw [NextPeer.deliver]
  rcases hrun : searchRoute hip reason ttlMaxAccepted node with ⟨u, node'⟩ | ⟨e | _, node'⟩
  · rw [bind_of_ok hrun, raise_apply] at hlookup
    simp [catching, bind_apply, map_apply, hlookup, hrun, hf]
  · rw [bind_of_error hrun] at hlookup
    simp [catching, bind_apply, map_apply, hlookup, hrun, hf]
  · rw [bind_of_error hrun] at hlookup
    simp [catching, bind_apply, map_apply, hlookup, hrun]

/-- Whatever the tables of the node contain, routing looks up two routes at most, and so it calls itself
two times at most: what a further call would do makes no difference. -/
theorem routeDetail_eq (bottom : HashipAddr → ℕ → Node Bool) (httl : 0 < packet.ttl)
    (hpeer : node.peer.size ≠ 0) :
    ∀ n level depth hip, level + n = 2 → n < depth →
      routeDetail bottom packet reason depth hip level node =
        (node.nextPeer n hip).deliver packet reason node := by
  intro n
  induction n with
  | zero =>
    intro level depth hip hlevel hdepth
    obtain ⟨depth, rfl⟩ := Nat.exists_eq_succ_of_ne_zero hdepth.ne'
    rw [routeDetail, routeDetailStep, if_neg (not_le.mpr httl), bind_of_ok (get_apply node),
      if_neg hpeer, Tunserver.nextPeer]
    cases hget : node.peer[hip]? with
    | some peering => rfl
    | none =>
      dsimp only
      rw [if_pos (by omega)]
      rfl
  | succ n ih =>
    intro level depth hip hlevel hdepth
    obtain ⟨depth, rfl⟩ := Nat.exists_eq_succ_of_ne_zero (Nat.ne_of_gt (Nat.zero_lt_of_lt hdepth))
    rw [routeDetail, routeDetailStep, if_neg (not_le.mpr httl), bind_of_ok (get_apply node),
      if_neg hpeer, Tunserver.nextPeer]
    cases hget : node.peer[hip]? with
    | some peering => rfl
    | none =>
      dsimp only
      rw [if_neg (by omega)]
      cases hroute : node.routeTo hip with
      | none => exact catching_getRoute_of_no_route hget hroute _ rfl
      | some route =>
        -- The route is known, so the lookup returns it, and the call to itself is for its next hop.
        have hlookup : catching (some <$> getRouteOrMaybeSearch hip reason true ttlMaxAccepted)
            (fun _ => some (pure none)) node = .ok (some route) node :=
          catching_eq_ok_iff.mpr (.inl (map_eq_ok_iff.mpr ⟨_, getRoute_of_route hget hroute, rfl⟩))
        rw [bind_of_ok hlookup]
        exact ih (level + 1) depth route.nexthop (by omega) (by omega)

/-- Where the data of a packet go in the end. -/
def routed (node : Tunserver) (packet : TunneledData) : NextPeer :=
  if packet.ttl ≤ 0 ∨ node.peer.size = 0 then .drop else node.nextPeer 2 packet.dstHip

/-- A node with a peer is not without peers, which is what routing asks first. -/
theorem peer_size_ne_zero {hip : HashipAddr} {peering : Peering}
    (h : node.peer[hip]? = some peering) : node.peer.size ≠ 0 := by
  intro hzero
  rw [Std.ExtTreeMap.eq_empty_iff_size_eq_zero.mpr hzero] at h
  simp at h

/-- Data for a peer go to it. -/
theorem routed_of_peer {peering : Peering} (httl : 0 < packet.ttl)
    (h : node.peer[packet.dstHip]? = some peering) : routed node packet = .send peering := by
  rw [routed, if_neg (not_or.mpr ⟨not_le.mpr httl, peer_size_ne_zero h⟩), Tunserver.nextPeer, h]

/-- Routing the data of a packet. -/
theorem routeTop_eq :
    routeTunDataToItsDestinationTop packet reason node =
      catching ((routed node packet).deliver packet reason) (fun _ => some (pure true)) node := by
  unfold routeTunDataToItsDestinationTop routed
  by_cases httl : packet.ttl ≤ 0
  · rw [if_pos httl, if_pos (.inl httl)]
    rfl
  · rw [if_neg httl]
    unfold catching
    by_cases hpeer : node.peer.size = 0
    · rw [if_pos (.inr hpeer), routeTunDataToItsDestinationDetail, routeDetail, routeDetailStep,
        if_neg httl, bind_of_ok (get_apply node), if_pos hpeer]
      rfl
    · rw [if_neg (not_or.mpr ⟨httl, hpeer⟩), routeTunDataToItsDestinationDetail,
        routeDetail_eq _ (not_le.mp httl) hpeer 2 0 3 packet.dstHip rfl (by decide)]

/-- However it ends, routing the data of a packet leaves the state that delivering them leaves. This is how
routing is used in all modules behind this one. -/
theorem finalState_routeTop :
    finalState (routeTunDataToItsDestinationTop packet reason) node =
      match routed node packet with
      | .send peering => finalState (peering.sendDataUdp packet) node
      | .search hip => finalState (searchRoute hip reason ttlMaxAccepted) node
      | .drop => node := by
  have htop : finalState (routeTunDataToItsDestinationTop packet reason) node =
      finalState ((routed node packet).deliver packet reason) node := by
    rw [finalState, routeTop_eq]
    exact finalState_catching_pure fun e q h => ⟨true, (Option.some.inj h).symm⟩
  rw [htop]
  cases routed node packet with
  | send peering => exact finalState_bind_pure _
  | search hip =>
    refine (finalState_catching_pure fun e q h => ⟨false, (Option.some.inj h).symm⟩).trans ?_
    exact finalState_bind_pure _
  | drop => rfl

end RouteData

end Galaxy42
