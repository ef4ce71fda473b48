import Mathlib.Data.List.TakeWhile
import Galaxy42.Tunserver.Network

/-!
# Searches in a network

A node that looks for a route asks all its peers, once. A peer that has a route answers, with a reply that the
node learns a route from. A peer that has none starts a search of its own, and keeps the request with it; but
nothing ever looks at the requests, so who asked is not answered when the route is learned later.

So a search is complete as far as the neighbours' neighbours: when a query comes to a peer that can answer it,
then the node has a route, or the query is in flight, or the reply to it (`Topology.Pending`), and when nothing
is in flight it has a route (`search_complete_of_answered`).

Who the nodes are, and which of them are peers, is a structure (`Topology`), with an address, a hip and keys
for each node. What a node has to be like is said in two parts: one that it keeps whatever happens
(`Running`), and one about its table of peers, which users may change (`KnowsPeers`). The second one is a part
of each step, so that runs are those in which nodes know their peers while they act.

A request is pending from the event on in which a node begins to look for the goal, since all its peers are
asked then (`changes_run`). A step that delivers the query makes the peer answer, and one that delivers the reply
teaches the route; all other steps leave it pending (`Pending.step`). Nothing is said of how long that takes: the
result is about states in which nothing is in flight.

The line of four nodes is the smallest network in which a search fails: the second node is asked before it
knows the route, and learns it when nobody is there to be told.
-/

namespace Galaxy42

open Toolkit Program TrivialSerialize Tunserver

/-! ### Networks of peers -/

/-- Who the nodes are, and which of them are peers of each other. Different nodes have different addresses of
their sockets, so that a datagram is for one of them. -/
structure Topology (ι : Type) where
  addr : ι → Ip46Addr
  hip : ι → HashipAddr
  myIDC : ι → MultikeysPAIR
  ipv6Prefix : ι → Bytes
  link : ι → ι → Prop
  addr_injective : Function.Injective addr
  link_symm : ∀ {i j}, link i j → link j i

/-- The TTL that is requested fits into a `char`. -/
def Event.TtlFits : Event → Prop
  | .request _ _ searchTtl => searchTtl < 128
  | _ => True

/-- A node can answer a query: it has the address as a peer, or has a route to it. -/
def Tunserver.CanAnswer (node : Tunserver) (dst : HashipAddr) : Prop :=
  dst ∈ node.peer ∨ (node.routeTo dst).isSome

namespace Topology

variable {ι : Type} (T : Topology ι) (lib : CryptoLib)

/-- A key that can be sent, and that every node can set up a tunnel with after that. -/
structure Usable (pubkey : HashipPubkey) : Prop where
  cryptoUse : pubkey.cryptoUse = .open
  letters : pubkey.HasLetters
  short : pubkey.KeysShort
  length : pubkey.serializedOctets.length ≤ saneMaxSizeForString
  tunnel : ∀ (i : ι) (node : Tunserver), node.myIDC = T.myIDC i →
    returned (addTunnelToPubkey lib (pubkey.received (T.ipv6Prefix i))) node = some ()

/-- A node knows its peers: those it is linked with are in its table, and of all of them it has the addresses
and the keys. The keys are such that they can be sent and a tunnel can be set up with them. -/
structure KnowsPeers (i : ι) (node : Tunserver) : Prop where
  link : ∀ j, T.link i j → ∃ peering, node.peer[T.hip j]? = some peering ∧ peering.getPip = T.addr j
  peer : ∀ (hip : HashipAddr) (peering : Peering), node.peer[hip]? = some peering →
    peering.Sendable ∧ ∃ pubkey, peering.getPub = some pubkey ∧ T.Usable lib pubkey

/-- The octets are a reply with a key that can be used. The TTL is read as it was written. -/
def IsReply (goal : HashipAddr) (octets : Bytes) : Prop :=
  ∃ (ttl : ℤ) (route : RouteInfo), 1 ≤ ttl ∧ ttl ≤ 127 ∧ T.Usable lib route.pubkey ∧
    octets = toldOctets ttl goal route

/-- The octets are a query with a TTL that is read as it was written. -/
def IsQuery (goal : HashipAddr) (octets : Bytes) : Prop :=
  ∃ ttl : ℤ, 1 ≤ ttl ∧ ttl ≤ 127 ∧ octets = queryOctets goal (UInt8.ofInt ttl)

/-- A node as it is at every time: it is who it is, its socket is in use, and its routes have keys that can be
used. -/
structure Running (i : ι) (node : Tunserver) : Prop where
  myIDC : node.myIDC = T.myIDC i
  ipv6Prefix : node.ipv6Prefix = T.ipv6Prefix i
  udp : node.udpDisabled = false
  route : ∀ dst route, node.routeTo dst = some route → T.Usable lib route.pubkey

/-- What an event does to a node: its new replies can be used, and when it begins to look for a destination it
asks all peers. -/
structure Changes (i : ι) (event : Event) (node node' : Tunserver) : Prop
    extends T.Running lib i node' where
  peer : (∃ dst ttl, event.Searches node dst ttl) → node'.peer = node.peer
  sent : ∃ new, node'.sent = new ++ node.sent ∧
    (∀ d ∈ new, datagramCmd d.2 = some .findhipReply → ∃ goal, T.IsReply lib goal d.2) ∧
    ∀ dst ∈ node'.routingManager.search, dst ∈ node.routingManager.search ∨
      ∀ (hip : HashipAddr) (peering : Peering), node.peer[hip]? = some peering →
        ∃ octets, IsQuery dst octets ∧ (peering.getPip, octets) ∈ new

/-! ### Steps -/

/-- A node does something on its own, that knows its peers. The TTLs of its requests fit. -/
def Own (i : ι) (node node' : Tunserver) (new : List (Datagram ι)) : Prop :=
  T.KnowsPeers lib i node ∧ OwnStep lib (fun _ event => event.TtlFits) i node node' new

/-- A node that knows its peers gets a datagram, under a condition. -/
def Gets (C : ι → Datagram ι → Tunserver → Prop) (i : ι) (d : Datagram ι) (node node' : Tunserver)
    (new : List (Datagram ι)) : Prop :=
  T.KnowsPeers lib i node ∧ C i d node ∧ Receives lib T.addr i d node node' new

/-- Nodes that have not looked for anything yet, and nothing is in flight. Each of them is as the topology
says, and has its socket in use. -/
def Idle (net : NodeNetwork ι) : Prop :=
  (∀ i, (net.node i).myIDC = T.myIDC i ∧ (net.node i).ipv6Prefix = T.ipv6Prefix i ∧
    (net.node i).udpDisabled = false ∧ (net.node i).routingManager = { search := ∅, routeNexthop := ∅ }) ∧
  net.flight = []

/-- Whenever a query of a node for a goal comes to a peer, the peer can answer it. It is a condition on the
state of the peer at the time of the delivery, not at the time of the request. -/
def Answered (a b : ι) (goal : HashipAddr) (i : ι) (d : Datagram ι) (node : Tunserver) : Prop :=
  i = b → d.sender = a → IsQuery goal d.octets → node.CanAnswer goal

variable [DecidableEq ι]

/-- A step of the network in which no datagram is lost. Each step is one of a node that knows its peers at
that time. Datagrams are delivered in any order, each of them once. -/
abbrev Step (C : ι → Datagram ι → Tunserver → Prop) : NodeNetwork ι → NodeNetwork ι → Prop :=
  Network.Step (T.Own lib) (T.Gets lib C)

/-- A node that knows its peers is asked for a route. The TTL that is asked for is one that fits into a
`char`. -/
def Asks (a : ι) (goal : HashipAddr) (searchTtl : ℤ) (net net' : NodeNetwork ι) : Prop :=
  T.KnowsPeers lib a (net.node a) ∧ searchTtl < 128 ∧ ∃ reason node' new,
    Acts lib (.request goal reason searchTtl) a (net.node a) node' new ∧ net' = net.act a node' new

/-- A node has a route to a goal, or its query to a peer is in flight, or the reply to it. It is an invariant
as soon as it holds, since routes are never removed. -/
def Pending (a b : ι) (goal : HashipAddr) (net : NodeNetwork ι) : Prop :=
  ((net.node a).routeTo goal).isSome ∨
    (∃ octets, IsQuery goal octets ∧ { sender := a, addr := T.addr b, octets } ∈ net.flight) ∨
    ∃ octets, T.IsReply lib goal octets ∧ { sender := b, addr := T.addr a, octets } ∈ net.flight

end Topology

/-! ### Keys -/

namespace Topology

variable {ι : Type} {T : Topology ι} {lib : CryptoLib} {i : ι} {node : Tunserver}

/-- A key can be used after it was sent. -/
private theorem Usable.received {pubkey : HashipPubkey} (h : T.Usable lib pubkey) (ipv6Prefix : Bytes) :
    T.Usable lib (pubkey.received ipv6Prefix) := by
  obtain ⟨huse, hletters, hshort, hlength, htunnel⟩ := h
  refine ⟨rfl, hletters, hshort, ?_, htunnel⟩
  rwa [MultiCryptoStrings.serializedOctets, huse] at hlength

private theorem Usable.tellable {route : RouteInfo} (h : T.Usable lib route.pubkey) : route.Tellable := by
  refine ⟨⟨h.letters, fun sys => ⟨(h.short sys).1, fun key hkey => ?_⟩⟩, ?_⟩
  · exact lt_uvarintLimit_of_le_sane ((h.short sys).2 key hkey)
  · exact lt_uvarintLimit_of_le_sane h.length

/-- What is read from a reply with a key that can be used. -/
theorem Usable.parse_told {route : RouteInfo} (h : T.Usable lib route.pubkey) {ttl : ℤ} (h0 : 1 ≤ ttl)
    (hle : ttl ≤ 127) (goal : HashipAddr) (node : Tunserver) :
    ∃ reply : FindhipReply,
      returned (within (parserOfBuffer ((toldOctets ttl goal route).drop 2)) popFindhipReply : Node _) node =
        some reply ∧
      reply.ttl = ttl ∧ reply.goalHip = goal ∧
        ∀ ipv6Prefix, reply.pubkey.setIpv6Prefix ipv6Prefix = route.pubkey.received ipv6Prefix := by
  have hread : Reads popFindhipReply (replyBin (UInt8.ofInt ttl) (UInt8.ofNat route.cost) goal
      route.pubkey.serializedOctets) _ := reads_popFindhipReply h.length
    (fun c => MultikeysPub.ofBin_serializedOctets h.cryptoUse h.letters h.short c)
  have hstart := hread.apply_start []
  rw [List.append_nil, toNat_ofInt_of_lt (by omega) (by omega)] at hstart
  exact ⟨_, returned_eq_some_iff.mpr ⟨node, within_eq_ok_iff.mpr ⟨⟨_, hstart⟩, rfl⟩⟩, rfl, rfl,
    fun _ => rfl⟩

/-! ### Who a datagram is from -/

private theorem exists_findPeerIn {ip : Ip46Addr} {peers : List (HashipAddr × Peering)}
    (hsend : ∀ v ∈ peers, v.2.Sendable) (hmem : ∃ v ∈ peers, v.2.getPip = ip) (node : Tunserver) :
    ∃ v ∈ peers, v.2.getPip = ip ∧ findPeerIn ip peers node = .ok v.2 node := by
  have hset : ∀ v ∈ peers, v.2.getPip ≠ .none := by
    intro v hv hnone
    have hipv4 := hsend v hv
    rw [Peering.Sendable, hnone] at hipv4
    cases hipv4
  induction peers with
  | nil =>
    obtain ⟨v, hv, -⟩ := hmem
    cases hv
  | cons v peers ih =>
    have hip : ip ≠ .none := by
      obtain ⟨w, hw, rfl⟩ := hmem
      exact hset w hw
    have hequal : v.2.getPip.equal ip node = .ok (decide (v.2.getPip = ip)) node := by
      rw [Ip46Addr.equal, bind_of_ok (a := ()) (checkThat_eq_ok_iff.mpr ⟨hset v List.mem_cons_self, rfl⟩),
        bind_of_ok (a := ()) (checkThat_eq_ok_iff.mpr ⟨hip, rfl⟩)]
      rfl
    rw [findPeerIn, bind_of_ok hequal]
    by_cases heq : v.2.getPip = ip
    · refine ⟨v, List.mem_cons_self, heq, ?_⟩
      simp [heq]
    · obtain ⟨w, hw, hpip, hfind⟩ := ih (fun w hw => hsend w (List.mem_cons_of_mem _ hw))
        (by
          obtain ⟨w, hw, hpip⟩ := hmem
          obtain rfl | hw := List.mem_cons.mp hw
          · exact absurd hpip heq
          · exact ⟨w, hw, hpip⟩)
        (fun w hw => hset w (List.mem_cons_of_mem _ hw))
      refine ⟨w, List.mem_cons_of_mem _ hw, hpip, ?_⟩
      simpa [heq] using hfind

/-- A datagram from a node that it is linked with is one of a peer. That peer can be sent datagrams. -/
theorem KnowsPeers.exists_senderOf (h : T.KnowsPeers lib i node) {j : ι} (hlink : T.link i j) :
    ∃ sender, node.senderOf (T.addr j) = some sender ∧ sender.getPip = T.addr j ∧ sender.Sendable := by
  have hsend : ∀ v ∈ node.peer.toList, v.2.Sendable := fun v hv =>
    (h.peer v.1 v.2 (Std.ExtTreeMap.mem_toList_iff_getElem?_eq_some.mp hv)).1
  obtain ⟨peering, hget, hpip⟩ := h.link j hlink
  have hmem : ∃ v ∈ node.peer.toList, v.2.getPip = T.addr j :=
    ⟨(T.hip j, peering), Std.ExtTreeMap.mem_toList_iff_getElem?_eq_some.mpr hget, hpip⟩
  obtain ⟨v, hv, hpip, hfind⟩ := exists_findPeerIn hsend hmem node
  exact ⟨v.2, returned_eq_some_iff.mpr ⟨node, hfind⟩, hpip, hsend v hv⟩

/-- A reply of a node that it is linked with is accepted, with a key that can be used. -/
private theorem KnowsPeers.acceptedReply (h : T.KnowsPeers lib i node) {j : ι} (hlink : T.link i j)
    {goal : HashipAddr} {octets : Bytes} (hreply : T.IsReply lib goal octets) :
    ∃ (sender : Peering) (reply : FindhipReply) (pubkey : HashipPubkey),
      node.acceptedReply (T.addr j) octets = some (sender, reply) ∧ reply.goalHip = goal ∧
      T.Usable lib pubkey ∧
        ∀ ipv6Prefix, reply.pubkey.setIpv6Prefix ipv6Prefix = pubkey.received ipv6Prefix := by
  obtain ⟨ttl, route, h0, hle, husable, rfl⟩ := hreply
  obtain ⟨sender, hsender, -⟩ := h.exists_senderOf hlink
  obtain ⟨reply, hparse, httl, hgoal, hpubkey⟩ := husable.parse_told h0 hle goal node
  have hcmd : datagramCmd (toldOctets ttl goal route) = some .findhipReply := datagramCmd_cmdOctets _ _
  refine ⟨sender, reply, route.pubkey, ?_, hgoal, husable, hpubkey⟩
  have httl' : ¬ reply.ttl < 1 := by omega
  simp [Tunserver.acceptedReply, hcmd, hsender, hparse, httl']

/-- A query of a node that it is linked with is accepted, unless the end of its address is not found. -/
private theorem KnowsPeers.acceptedQuery (h : T.KnowsPeers lib i node) {j : ι} (hlink : T.link i j)
    {goal : HashipAddr} (hgoal : semicolon ∉ goal.octets.drop 2) {octets : Bytes}
    (hquery : IsQuery goal octets) :
    ∃ (sender : Peering) (ttl : ℤ), 1 ≤ ttl ∧ ttl ≤ 127 ∧ sender.getPip = T.addr j ∧ sender.Sendable ∧
      node.acceptedQuery (T.addr j) octets = some (sender, goal, ttl) := by
  obtain ⟨ttl, h0, hle, rfl⟩ := hquery
  obtain ⟨sender, hsender, hpip, hsend⟩ := h.exists_senderOf hlink
  have hchar : (UInt8.ofInt ttl).toInt8.toInt = ttl := by
    obtain ⟨n, rfl⟩ := Int.eq_ofNat_of_zero_le (show 0 ≤ ttl by omega)
    have hmod : ((n : ℤ) % 2 ^ 8).toNat = n := by omega
    rw [UInt8.ofInt, hmod, UInt8.toInt8_ofNat', Int8.toInt_ofNat_of_lt (by omega)]
  have hparse : returned (parseFindhipQuery ((queryOctets goal (UInt8.ofInt ttl)).drop 2) : Node _) node =
      some (goal, (UInt8.ofInt ttl).toInt8.toInt) :=
    returned_eq_some_iff.mpr ⟨node, parseFindhipQuery_queryBin hgoal _ node⟩
  refine ⟨sender, ttl, h0, hle, hpip, hsend, ?_⟩
  rw [acceptedQuery_of_parse (datagramCmd_queryOctets _ _) hparse, hsender, hchar, Option.bind_some,
    if_neg (by omega)]

/-! ### What an event changes -/

section Event

variable {event : Event} {node' : Tunserver} {dst : HashipAddr} {ttl : ℤ}

/-- What is looked for is looked for with a TTL that fits into a `char`. -/
private theorem lt_of_searches (hfits : event.TtlFits) (h : event.Searches node dst ttl) : ttl < 128 := by
  obtain ⟨data, -, -, rfl⟩ | h := h
  · decide
  · cases event with
    | datagram senderPip buf =>
      obtain ⟨sender, requestedTtl, hquery, rfl⟩ := h
      have hle := ttl_le_of_parseFindhipQuery (of_acceptedQuery hquery).2.2.1
      omega
    | request dst' reason searchTtl =>
      obtain ⟨-, rfl⟩ := h
      exact hfits
    | tunPacket _ => cases h
    | ping _ _ _ => cases h
    | op _ => cases h

/-- Nothing has changed yet. -/
theorem Running.changes (h : T.Running lib i node) (event : Event) :
    T.Changes lib i event node node where
  toRunning := h
  peer _ := rfl
  sent := ⟨[], rfl, fun _ hd => absurd hd List.not_mem_nil, fun _ hmem => .inl hmem⟩

/-- A datagram is sent, which can be used if it is a reply. -/
theorem Changes.pushSent (h : T.Changes lib i event node node') (addr : Ip46Addr) {octets : Bytes}
    (hreply : datagramCmd octets = some .findhipReply → ∃ goal, T.IsReply lib goal octets) :
    T.Changes lib i event node (node'.pushSent addr octets) where
  myIDC := h.myIDC
  ipv6Prefix := h.ipv6Prefix
  udp := h.udp
  route := h.route
  peer := h.peer
  sent := by
    obtain ⟨new, hsent, hreplies, hsearch⟩ := h.sent
    refine ⟨(addr, octets) :: new, congrArg ((addr, octets) :: ·) hsent, fun d hd hcmd => ?_,
      fun dst hmem => ?_⟩
    · obtain rfl | hd := List.mem_cons.mp hd
      · exact hreply hcmd
      · exact hreplies d hd hcmd
    · refine (hsearch dst hmem).imp_right fun hasked hip peering hget => ?_
      obtain ⟨query, hquery, hin⟩ := hasked hip peering hget
      exact ⟨query, hquery, List.mem_cons_of_mem _ hin⟩

private theorem Changes.pushCmd (h : T.Changes lib i event node node') (addr : Ip46Addr) {cmd : ProtoCmd}
    (hcmd : cmd ≠ .findhipReply) (bin : Bytes) :
    T.Changes lib i event node (node'.pushSent addr (cmdOctets cmd bin)) := by
  refine h.pushSent addr fun hreply => ?_
  rw [datagramCmd_cmdOctets] at hreply
  exact absurd (Option.some.inj hreply) hcmd

/-- All peers are reached. -/
private theorem KnowsPeers.mem_reachedPeers (h : T.KnowsPeers lib i node) (hpeer : node'.peer = node.peer)
    (hon : node'.udpDisabled = false) {hip : HashipAddr} {peering : Peering}
    (hget : node.peer[hip]? = some peering) : peering ∈ node'.reachedPeers := by
  have hall : ∀ p ∈ node.peer.toList.map Prod.snd, decide p.Sendable = true := by
    intro p hp
    obtain ⟨v, hv, rfl⟩ := List.mem_map.mp hp
    exact decide_eq_true (h.peer v.1 v.2 (Std.ExtTreeMap.mem_toList_iff_getElem?_eq_some.mp hv)).1
  have hreached : node'.reachedPeers = node.peer.toList.map Prod.snd := by
    rw [reachedPeers, hon, hpeer]
    exact List.takeWhile_eq_self_iff.mpr hall
  rw [hreached]
  exact List.mem_map.mpr ⟨(hip, peering), Std.ExtTreeMap.mem_toList_iff_getElem?_eq_some.mpr hget, rfl⟩

/-- A destination is looked for: all peers are asked, when it was not looked for before. -/
private theorem KnowsPeers.preserves_changes (hknows : T.KnowsPeers lib i node) (hfits : event.TtlFits)
    (hsearches : event.Searches node dst ttl) (reason : RouteReason) :
    Preserves (T.Changes lib i event node) (searchRoute dst reason ttl) := by
  intro node' h
  have hlt := lt_of_searches hfits hsearches
  have hpeer : node'.peer = node.peer := h.peer ⟨dst, ttl, hsearches⟩
  obtain ⟨new, hsent, hreplies, hsearch⟩ := h.sent
  obtain ⟨m, hstate, hmem⟩ := finalState_searchRoute dst reason ttl node'
  let query := queryOctets dst (UInt8.ofInt (max 5 ttl))
  rw [hstate]
  refine ⟨⟨h.myIDC, h.ipv6Prefix, h.udp, h.route⟩, h.peer,
    ((node'.askedPeers dst ttl).map fun p => (p.getPip, query)).reverse ++ new, ?_, ?_, ?_⟩
  · rw [List.append_assoc, ← hsent]
    rfl
  -- The new datagrams are queries, so the replies are the ones from before.
  · intro d hd hcmd
    rcases List.mem_append.mp hd with hd | hd
    · obtain ⟨p, -, rfl⟩ := List.mem_map.mp (List.mem_reverse.mp hd)
      rw [datagramCmd_queryOctets] at hcmd
      cases hcmd
    · exact hreplies d hd hcmd
  · intro dst' hin
    have hold : dst' ∈ node'.routingManager.search → dst' ∈ node.routingManager.search ∨
        ∀ (hip : HashipAddr) (peering : Peering), node.peer[hip]? = some peering →
          ∃ octets, IsQuery dst' octets ∧ (peering.getPip, octets) ∈
            ((node'.askedPeers dst ttl).map fun p => (p.getPip, query)).reverse ++ new := by
      intro hin
      refine (hsearch dst' hin).imp_right fun hasked hip peering hget => ?_
      obtain ⟨octets, hquery, hnew⟩ := hasked hip peering hget
      exact ⟨octets, hquery, List.mem_append_right _ hnew⟩
    -- A destination that is searched for now was asked for now, of all peers.
    by_cases hsearched : dst' ∈ node'.routingManager.search
    · exact hold hsearched
    obtain rfl := ((hmem dst').mp hin).resolve_right hsearched
    refine .inr fun hip peering hget => ⟨query, ⟨max 5 ttl, by omega, by omega, rfl⟩, ?_⟩
    have hasked : node'.askedPeers dst' ttl = node'.reachedPeers := by
      rw [mem_search_iff] at hsearched
      exact if_neg (not_or.mpr ⟨hsearched, by omega⟩)
    refine List.mem_append_left _ (List.mem_reverse.mpr (List.mem_map.mpr ⟨peering, ?_, rfl⟩))
    rw [hasked]
    exact hknows.mem_reachedPeers hpeer h.udp hget

/-- The key of a route that is learned can be used. -/
private theorem usable_of_learned (hknows : T.KnowsPeers lib i node)
    (hreplies : ∀ senderPip buf, event = .datagram senderPip buf →
      datagramCmd buf = some .findhipReply → ∃ goal, T.IsReply lib goal buf)
    {goal : HashipAddr} {route : RouteInfo} (h : node.learned lib event = some (goal, route)) :
    T.Usable lib route.pubkey := by
  obtain hreplied | hdirect := replied_or_direct h
  · cases hreplied with
    | @mk senderPip buf sender reply u node' hreply htunnel =>
      obtain ⟨hcmd, -, hparse, -⟩ := of_acceptedReply hreply
      obtain ⟨goal', ttl, told, h0, hle, husable, rfl⟩ := hreplies senderPip buf rfl hcmd
      obtain ⟨reply', hparse', -, -, hpubkey⟩ := husable.parse_told h0 hle goal' node
      obtain rfl := Option.some.inj (hparse.symm.trans hparse')
      rw [Tunserver.repliedRoute, hpubkey]
      exact husable.received _
  · obtain ⟨peering, hget, hmap⟩ := Option.bind_eq_some_iff.mp hdirect
    obtain ⟨pubkey, hpub, rfl⟩ := Option.map_eq_some_iff.mp hmap
    obtain ⟨-, pubkey', hpub', husable⟩ := hknows.peer goal peering hget
    obtain rfl := Option.some.inj (hpub.symm.trans hpub')
    exact husable

/-- A route is learned that has a key that can be used. -/
private theorem Running.learnRoute (h : T.Running lib i node) {goal : HashipAddr} {route : RouteInfo}
    (husable : T.Usable lib route.pubkey) : T.Running lib i (node.learnRoute goal route) where
  myIDC := h.myIDC
  ipv6Prefix := h.ipv6Prefix
  udp := h.udp
  route dst route' hget := by
    rw [routeTo_learnRoute] at hget
    split at hget
    · cases hknown : node.routeTo goal with
      | none =>
        rw [hknown] at hget
        obtain rfl := Option.some.inj hget
        exact husable
      | some known =>
        rw [hknown] at hget
        obtain rfl := Option.some.inj hget
        exact h.route goal _ hknown
    · exact h.route dst route' hget

/-- What an event may do to a node that knows its peers. -/
private theorem effects_changes (hknows : T.KnowsPeers lib i node) (h : T.Running lib i node)
    (hfits : event.TtlFits)
    (hreplies : ∀ senderPip buf, event = .datagram senderPip buf →
      datagramCmd buf = some .findhipReply → ∃ goal, T.IsReply lib goal buf) :
    Effects lib (T.Changes lib i event node) node event where
  learned goal route hlearned :=
    ⟨h.learnRoute (usable_of_learned hknows hreplies hlearned), fun _ => rfl, (h.changes event).sent⟩
  put hip peering hput :=
    ⟨⟨h.myIDC, h.ipv6Prefix, h.udp, h.route⟩,
      fun ⟨_, _, hsearches⟩ => absurd hsearches (not_searches_of_puts hput), (h.changes event).sent⟩
  removed := fun ⟨_, _, hremoves⟩ =>
    ⟨⟨h.myIDC, h.ipv6Prefix, h.udp, h.route⟩,
      fun ⟨_, _, hsearches⟩ => absurd hsearches (not_searches_of_removes hremoves), (h.changes event).sent⟩
  greet node' addr bin h' := h'.pushCmd addr (by decide) bin
  reply node' senderPip buf sender hip ttl route hevent hquery hroute h' := by
    obtain ⟨-, -, hparse, httl⟩ := of_acceptedQuery hquery
    have hle := ttl_le_of_parseFindhipQuery hparse
    exact h'.pushSent _ fun _ => ⟨hip, ttl, route, by omega, hle, h'.route hip route hroute, rfl⟩
  data node' addr packet _ h' := h'.pushCmd addr (by decide) (tunneledBin packet)
  search dst ttl reason hsearches := hknows.preserves_changes hfits hsearches reason
  unrelated node' _ _ _ _ h' := ⟨⟨h'.myIDC, h'.ipv6Prefix, h'.udp, h'.route⟩, h'.peer, h'.sent⟩

/-- What an event does to a node that knows its peers. What it begins to look for it asks all its peers for,
and each reply that it sends can be used. -/
theorem changes_run (hknows : T.KnowsPeers lib i node) (h : T.Running lib i node) (hfits : event.TtlFits)
    (hreplies : ∀ senderPip buf, event = .datagram senderPip buf →
      datagramCmd buf = some .findhipReply → ∃ goal, T.IsReply lib goal buf) :
    T.Changes lib i event node (finalState (event.run lib) node) :=
  (effects_changes hknows h hfits hreplies).run (h.changes event)

end Event

/-! ### What a node does about a goal -/

section Goal

variable {j : ι} {goal : HashipAddr} {octets : Bytes}

/-- A node that can answer a query finds a route with a key that can be used. -/
private theorem KnowsPeers.exists_routeFor (hknows : T.KnowsPeers lib i node) (h : T.Running lib i node)
    (hanswer : node.CanAnswer goal) :
    ∃ route, node.routeFor goal = some route ∧ T.Usable lib route.pubkey := by
  by_cases hpeer : goal ∈ node.peer
  · obtain ⟨peering, hget⟩ := Option.isSome_iff_exists.mp (mem_peer_iff.mp hpeer)
    obtain ⟨-, pubkey, hpub, husable⟩ := hknows.peer goal peering hget
    have hdirect : node.directRouteTo goal = some (peerRoute peering pubkey) := by
      simp [directRouteTo, hget, hpub]
    cases hknown : node.routeTo goal with
    | none => exact ⟨peerRoute peering pubkey, by simp [routeFor, hdirect, hknown], husable⟩
    | some known => exact ⟨known, by simp [routeFor, hdirect, hknown], h.route goal known hknown⟩
  · obtain ⟨route, hroute⟩ := Option.isSome_iff_exists.mp (hanswer.resolve_left hpeer)
    exact ⟨route, (routeFor_of_not_peer hpeer).trans hroute, h.route goal route hroute⟩

/-- A node that can answer a query sends a reply. -/
private theorem sent_of_query (hknows : T.KnowsPeers lib i node) (h : T.Running lib i node)
    (hlink : T.link i j)
    (hgoal : semicolon ∉ goal.octets.drop 2) (hquery : IsQuery goal octets)
    (hanswer : node.CanAnswer goal) :
    ∃ reply, T.IsReply lib goal reply ∧
      (finalState ((Event.datagram (T.addr j) octets).run lib) node).sent =
        (T.addr j, reply) :: node.sent := by
  obtain ⟨sender, ttl, h0, hle, hpip, hsend, haccept⟩ := hknows.acceptedQuery hlink hgoal hquery
  obtain ⟨route, hfor, husable⟩ := hknows.exists_routeFor h hanswer
  refine ⟨toldOctets ttl goal route, ⟨ttl, route, h0, hle, husable, rfl⟩, ?_⟩
  rw [finalState_run, Event.handle, finalState_handleDatagram_of_query haccept,
    finalState_answerQuery_of_tellable husable.tellable (getRoute_of_routeFor hfor),
    if_pos ⟨hsend, h.udp⟩, ← hpip]
  rfl

/-- A node has a route after a reply. -/
private theorem routeTo_of_reply (hknows : T.KnowsPeers lib i node) (h : T.Running lib i node)
    (hlink : T.link i j) (hreply : T.IsReply lib goal octets) :
    ((finalState ((Event.datagram (T.addr j) octets).run lib) node).routeTo goal).isSome := by
  obtain ⟨sender, reply, pubkey, haccept, rfl, husable, hpubkey⟩ := hknows.acceptedReply hlink hreply
  have htunnel : returned (addTunnelToPubkey lib (node.repliedRoute sender reply).pubkey) node =
      some () := by
    rw [Tunserver.repliedRoute, hpubkey, h.ipv6Prefix]
    exact husable.tunnel i node h.myIDC
  obtain ⟨node', hrun⟩ := returned_eq_some_iff.mp htunnel
  have hlearned : node.learned lib (.datagram (T.addr j) octets) = _ :=
    (Replied.mk haccept hrun).learned
  rw [routeTo_finalState_of_learned hlearned, if_pos rfl]
  rfl

/-- Nothing is sent because of a reply, whoever has asked for the route that is learned. -/
theorem sent_of_reply {senderPip : Ip46Addr} {sender : Peering} {reply : FindhipReply}
    (h : node.acceptedReply senderPip octets = some (sender, reply)) :
    (finalState ((Event.datagram senderPip octets).run lib) node).sent = node.sent := by
  have hlearn : Preserves (fun node' : Tunserver => node'.sent = node.sent)
      (discard (addRouteInfoAndReturn reply.goalHip (node.repliedRoute sender reply))) := by
    intro node' h'
    rwa [finalState_discard, finalState_of_ok addRouteInfoAndReturn_eq]
  rw [finalState_run, Event.handle, finalState_congr (handleDatagram_of_reply h)]
  refine Preserves.finalState_bind ?_ fun _ => hlearn
  obtain ⟨tunnel, draws, htunnel⟩ :=
    finalState_addTunnelToPubkey lib (node.repliedRoute sender reply).pubkey node
  rw [htunnel]
  rfl

/-- A node that is asked for a route has one, or looks for it. -/
private theorem routeTo_or_search_of_request (hknows : T.KnowsPeers lib i node) (reason : RouteReason)
    (ttl : ℤ) :
    ((finalState ((Event.request goal reason ttl).run lib) node).routeTo goal).isSome ∨
      goal ∈ (finalState ((Event.request goal reason ttl).run lib) node).routingManager.search := by
  by_cases hpeer : goal ∈ node.peer
  · obtain ⟨peering, hget⟩ := Option.isSome_iff_exists.mp (mem_peer_iff.mp hpeer)
    obtain ⟨-, pubkey, hpub, -⟩ := hknows.peer goal peering hget
    have hdirect : node.directRouteTo goal = some (peerRoute peering pubkey) := by
      simp [directRouteTo, hget, hpub]
    left
    rw [routeTo_finalState_of_learned (learned_request hdirect reason ttl), if_pos rfl]
    rfl
  cases hroute : node.routeTo goal with
  | some route =>
    left
    rw [routeTo_finalState_of_known hroute]
    rfl
  | none =>
    right
    obtain ⟨m, hstate, hmem⟩ := finalState_searchRoute goal reason ttl node
    have hget : getRouteOrMaybeSearch goal reason true ttl node = _ :=
      getRoute_of_no_route (Std.ExtTreeMap.getElem?_eq_none hpeer) hroute
    have hfinal : finalState ((Event.request goal reason ttl).run lib) node =
        finalState (searchRoute goal reason ttl) node := by
      rw [finalState_run, Event.handle, finalState_discard, finalState_congr hget]
      exact Preserves.finalState_bind (I := fun node' => node' = _) rfl fun _ => .raise _
    rw [hfinal, hstate]
    exact (hmem goal).mpr (.inl rfl)

end Goal

/-! ### Runs -/

section Run

variable {event : Event} {node' : Tunserver} {new : List (Datagram ι)} {C : ι → Datagram ι → Tunserver → Prop}
  {goal : HashipAddr} {a b : ι} {net net' : NodeNetwork ι}

/-- The replies that are in flight have keys that can be used. Nothing is asked of other datagrams. -/
def Sound (T : Topology ι) (lib : CryptoLib) (d : Datagram ι) : Prop :=
  datagramCmd d.octets = some .findhipReply → ∃ goal, T.IsReply lib goal d.octets

/-- What a node does in the network when it knows its peers. -/
theorem acts_changes (hknows : T.KnowsPeers lib i node) (h : T.Running lib i node) (hfits : event.TtlFits)
    (hreplies : ∀ senderPip buf, event = .datagram senderPip buf →
      datagramCmd buf = some .findhipReply → ∃ goal, T.IsReply lib goal buf)
    (hacts : Acts lib event i node node' new) :
    T.Running lib i node' ∧ (∀ d ∈ new, T.Sound lib d) ∧
      ∀ dst ∈ node'.routingManager.search, dst ∈ node.routingManager.search ∨
        ∀ j, T.link i j → ∃ octets, IsQuery dst octets ∧
          { sender := i, addr := T.addr j, octets } ∈ new := by
  obtain ⟨rfl, rfl⟩ := hacts
  obtain ⟨hrunning, -, sent, hsent, hsound, hsearch⟩ := changes_run hknows h hfits hreplies
  rw [sentSince_of_append hsent]
  refine ⟨hrunning, fun d hd hcmd => ?_, fun dst hmem => (hsearch dst hmem).imp_right fun hasked j hlink => ?_⟩
  · obtain ⟨d', hd', rfl⟩ := List.mem_map.mp hd
    exact hsound d' hd' hcmd
  · obtain ⟨peering, hget, hpip⟩ := hknows.link j hlink
    obtain ⟨octets, hquery, hin⟩ := hasked _ peering hget
    exact ⟨octets, hquery, List.mem_map.mpr ⟨_, hin, by rw [hpip]⟩⟩

/-- The nodes keep running, and the replies in flight have keys that can be used. -/
theorem invariant_running (C : ι → Datagram ι → Tunserver → Prop) :
    Network.Invariant (T.Own lib) (T.Gets lib C) (T.Running lib) (T.Sound lib) where
  own i node node' new h := by
    rintro ⟨hknows, event, hown, hfits, hacts⟩
    have hreplies : ∀ senderPip buf, event = .datagram senderPip buf →
        datagramCmd buf = some .findhipReply → ∃ goal, T.IsReply lib goal buf := by
      rintro senderPip buf rfl
      cases hown
    obtain ⟨hrunning, hsound, -⟩ := acts_changes hknows h hfits hreplies hacts
    exact ⟨hrunning, hsound⟩
  receive i d node node' new h hd := by
    rintro ⟨hknows, -, -, hacts⟩
    have hfits : (Event.datagram (T.addr d.sender) d.octets).TtlFits := trivial
    obtain ⟨hrunning, hsound, -⟩ := acts_changes hknows h hfits
      (fun _ _ heq hcmd => by cases heq; exact hd hcmd) hacts
    exact ⟨hrunning, hsound⟩

variable [DecidableEq ι]

/-- What is in flight stays in flight, and what is stored stays stored. -/
theorem Pending.act (h : T.Pending lib a b goal net) (hacts : Acts lib event i (net.node i) node' new) :
    T.Pending lib a b goal (net.act i node' new) := by
  obtain hroute | ⟨octets, hquery, hmem⟩ | ⟨octets, hreply, hmem⟩ := h
  · left
    by_cases hai : a = i
    · subst hai
      obtain ⟨route, hroute⟩ := Option.isSome_iff_exists.mp hroute
      rw [Network.node_act_self, hacts.1, routeTo_finalState_of_known hroute]
      rfl
    · rwa [Network.node_act_of_ne hai]
  · exact .inr (.inl ⟨octets, hquery, List.mem_append_right _ hmem⟩)
  · exact .inr (.inr ⟨octets, hreply, List.mem_append_right _ hmem⟩)

/-- A node that begins to look for a goal asks its peer. -/
theorem pending_of_new_search (hlink : T.link a b)
    (hasked : ∀ dst ∈ node'.routingManager.search, dst ∈ (net.node i).routingManager.search ∨
      ∀ j, T.link i j → ∃ octets, IsQuery dst octets ∧ { sender := i, addr := T.addr j, octets } ∈ new)
    (hold : goal ∉ (net.node a).routingManager.search)
    (hnew : goal ∈ ((net.act i node' new).node a).routingManager.search) :
    T.Pending lib a b goal (net.act i node' new) := by
  by_cases hai : a = i
  · subst hai
    rw [Network.node_act_self] at hnew
    obtain ⟨octets, hquery, hmem⟩ := (hasked goal hnew).resolve_left hold b hlink
    exact .inr (.inl ⟨octets, hquery, List.mem_append_left _ hmem⟩)
  · rw [Network.node_act_of_ne hai] at hnew
    exact absurd hnew hold

/-- A query that is delivered is answered, and a reply that is delivered teaches the route. -/
private theorem Pending.deliver (hlink : T.link a b) (hgoal : semicolon ∉ goal.octets.drop 2)
    (hinv : net.Holds (T.Running lib) (T.Sound lib)) (h : T.Pending lib a b goal net) {d : Datagram ι}
    {pre suf : List (Datagram ι)} (hflight : net.flight = pre ++ d :: suf)
    (hgets : T.Gets lib (Answered a b goal) i d (net.node i) node' new) :
    T.Pending lib a b goal ((net.withFlight (pre ++ suf)).act i node' new) := by
  obtain ⟨hknows, hanswered, haddr, hacts⟩ := hgets
  have hrest : ∀ {d'}, d' ∈ net.flight → d' = d ∨ d' ∈ pre ++ suf := by
    intro d' hmem
    rw [hflight] at hmem
    simp only [List.mem_append, List.mem_cons] at hmem ⊢
    tauto
  obtain hroute | ⟨octets, hquery, hmem⟩ | ⟨octets, hreply, hmem⟩ := h
  · exact Pending.act (.inl hroute) hacts
  · obtain rfl | hmem := hrest hmem
    · obtain rfl : i = b := T.addr_injective haddr.symm
      have hanswer := hanswered rfl rfl hquery
      obtain ⟨reply, hreply, hsent⟩ := sent_of_query hknows (hinv.1 i) (T.link_symm hlink) hgoal hquery
        hanswer
      refine .inr (.inr ⟨reply, hreply, List.mem_append_left _ ?_⟩)
      have hnew : (finalState ((Event.datagram (T.addr a) octets).run lib) (net.node i)).sentSince
          (net.node i) = [(T.addr a, reply)] := sentSince_of_append hsent
      rw [hacts.2, hacts.1, hnew]
      exact List.mem_singleton_self _
    · exact Pending.act (.inr (.inl ⟨octets, hquery, hmem⟩)) hacts
  · obtain rfl | hmem := hrest hmem
    · obtain rfl : i = a := T.addr_injective haddr.symm
      left
      rw [Network.node_act_self, hacts.1]
      exact routeTo_of_reply hknows (hinv.1 i) hlink hreply
    · exact Pending.act (.inr (.inr ⟨octets, hreply, hmem⟩)) hacts

/-- A request stays pending until there is a route. -/
theorem Pending.step (hlink : T.link a b) (hgoal : semicolon ∉ goal.octets.drop 2)
    (hinv : net.Holds (T.Running lib) (T.Sound lib)) (h : T.Pending lib a b goal net)
    (hstep : T.Step lib (Answered a b goal) net net') : T.Pending lib a b goal net' := by
  cases hstep with
  | own hown =>
    obtain ⟨-, event, -, -, hacts⟩ := hown
    exact h.act hacts
  | deliver hflight hgets => exact h.deliver hlink hgoal hinv hflight hgets

/-- When a node looks for a goal, it has a route, or its request is pending. -/
def SearchPending (T : Topology ι) (lib : CryptoLib) (a b : ι) (goal : HashipAddr) (net : NodeNetwork ι) :
    Prop :=
  goal ∈ (net.node a).routingManager.search → T.Pending lib a b goal net

private theorem SearchPending.step (hlink : T.link a b) (hgoal : semicolon ∉ goal.octets.drop 2)
    (hinv : net.Holds (T.Running lib) (T.Sound lib)) (h : T.SearchPending lib a b goal net)
    (hstep : T.Step lib (Answered a b goal) net net') : T.SearchPending lib a b goal net' := by
  intro hnew
  by_cases hold : goal ∈ (net.node a).routingManager.search
  · exact (h hold).step hlink hgoal hinv hstep
  cases hstep with
  | @own i node' new hown =>
    obtain ⟨hknows, event, hisOwn, hfits, hacts⟩ := hown
    have hreplies : ∀ senderPip buf, event = .datagram senderPip buf →
        datagramCmd buf = some .findhipReply → ∃ goal, T.IsReply lib goal buf := by
      rintro senderPip buf rfl
      cases hisOwn
    obtain ⟨-, -, hasked⟩ := acts_changes hknows (hinv.1 i) hfits hreplies hacts
    exact pending_of_new_search hlink hasked hold hnew
  | @deliver i d node' new pre suf hflight hgets =>
    obtain ⟨hknows, -, -, hacts⟩ := hgets
    have hd : T.Sound lib d := hinv.2 d (by rw [hflight]; simp)
    have hfits : (Event.datagram (T.addr d.sender) d.octets).TtlFits := trivial
    obtain ⟨-, -, hasked⟩ := acts_changes hknows (hinv.1 i) hfits
      (fun _ _ heq hcmd => by cases heq; exact hd hcmd) hacts
    exact pending_of_new_search hlink hasked hold hnew

/-- A request for a route is pending, unless there is one. -/
private theorem pending_of_asks (hlink : T.link a b) (hinv : net.Holds (T.Running lib) (T.Sound lib))
    (h : T.SearchPending lib a b goal net) {searchTtl : ℤ}
    (hasks : T.Asks lib a goal searchTtl net net') : T.Pending lib a b goal net' := by
  obtain ⟨hknows, hlt, reason, node', new, hacts, rfl⟩ := hasks
  have hfits : (Event.request goal reason searchTtl).TtlFits := hlt
  have hrequest : _ ∨ goal ∈ (finalState ((Event.request goal reason searchTtl).run lib)
      (net.node a)).routingManager.search := routeTo_or_search_of_request hknows reason searchTtl
  obtain hroute | hsearch := hrequest
  · left
    rwa [Network.node_act_self, hacts.1]
  · by_cases hold : goal ∈ (net.node a).routingManager.search
    · exact (h hold).act hacts
    · obtain ⟨-, -, hasked⟩ := acts_changes hknows (hinv.1 a) hfits (fun _ _ heq => by cases heq) hacts
      refine pending_of_new_search hlink hasked hold ?_
      rwa [Network.node_act_self, hacts.1]

/-- A run keeps what every step keeps, while the nodes are running. The two invariants of the network need not
be proved again for each property. -/
theorem run_induction {P : NodeNetwork ι → Prop} (hinv : net.Holds (T.Running lib) (T.Sound lib))
    (h : P net) (hstep : ∀ {net net' : NodeNetwork ι}, net.Holds (T.Running lib) (T.Sound lib) → P net →
      T.Step lib C net net' → P net') (hrun : Relation.ReflTransGen (T.Step lib C) net net') :
    net'.Holds (T.Running lib) (T.Sound lib) ∧ P net' := by
  induction hrun with
  | refl => exact ⟨hinv, h⟩
  | tail _ hlast ih => exact ⟨(invariant_running C).step ih.1 hlast, hstep ih.1 ih.2 hlast⟩

omit [DecidableEq ι] in
/-- In the beginning the nodes are running, and no node looks for anything. -/
theorem Idle.holds (h : T.Idle net) (lib : CryptoLib) :
    net.Holds (T.Running lib) (T.Sound lib) ∧ T.SearchPending lib a b goal net := by
  obtain ⟨hnodes, hflight⟩ := h
  refine ⟨⟨fun i => ?_, fun d hd => ?_⟩, fun hsearch => ?_⟩
  · obtain ⟨hmyIDC, hipv6Prefix, hudp, hrouting⟩ := hnodes i
    refine ⟨hmyIDC, hipv6Prefix, hudp, fun dst route hget => ?_⟩
    simp [Tunserver.routeTo, hrouting] at hget
  · rw [hflight] at hd
    cases hd
  · obtain ⟨-, -, -, hrouting⟩ := hnodes a
    simp [hrouting] at hsearch

end Run

end Topology

/-- A search is complete when its query is answered. In every run of a network of nodes that know their peers,
in which no datagram is lost: if a node asks for a route, and has a peer that can answer its query whenever
that is delivered, then the node has a route in every state in which nothing is in flight. How long that takes
is not said: as long as something is in flight, the query or the reply may be under way. -/
theorem search_complete_of_answered {ι : Type} [DecidableEq ι] {T : Topology ι} {lib : CryptoLib} {a b : ι}
    {goal : HashipAddr} {searchTtl : ℤ} {net₀ net₁ net₂ net : NodeNetwork ι} (hlink : T.link a b)
    (hgoal : semicolon ∉ goal.octets.drop 2) (hidle : T.Idle net₀)
    (hbefore : Relation.ReflTransGen (T.Step lib (Topology.Answered a b goal)) net₀ net₁)
    (hasks : T.Asks lib a goal searchTtl net₁ net₂)
    (hafter : Relation.ReflTransGen (T.Step lib (Topology.Answered a b goal)) net₂ net)
    (hquiet : net.flight = []) : ((net.node a).routeTo goal).isSome := by
  obtain ⟨hinv₀, hsearch₀⟩ := hidle.holds lib
  obtain ⟨hinv₁, hsearch₁⟩ := Topology.run_induction hinv₀ hsearch₀
    (fun hinv h hstep => h.step hlink hgoal hinv hstep) hbefore
  have hpending₂ : T.Pending lib a b goal net₂ := Topology.pending_of_asks hlink hinv₁ hsearch₁ hasks
  have hinv₂ : net₂.Holds (T.Running lib) (T.Sound lib) := by
    obtain ⟨hknows, hlt, reason, node', new, hacts, rfl⟩ := hasks
    exact (Topology.invariant_running (Topology.Answered a b goal)).step hinv₁
      (.own ⟨hknows, .request goal reason searchTtl, rfl, hlt, hacts⟩)
  obtain ⟨-, hpending⟩ := Topology.run_induction hinv₂ hpending₂
    (fun hinv h hstep => h.step hlink hgoal hinv hstep) hafter
  obtain hroute | ⟨octets, -, hmem⟩ | ⟨octets, -, hmem⟩ := hpending
  · exact hroute
  · rw [hquiet] at hmem
    cases hmem
  · rw [hquiet] at hmem
    cases hmem

/-! ### A line of four nodes -/

/-- A tunnel is set up for a key that has an address, with which one can be made. -/
theorem returned_addTunnelToPubkey {lib : CryptoLib} {pubkey : HashipPubkey} {hip : HashipAddr}
    {node : Tunserver}
    (haddr : (pubkey.getIpv6StringBin lib : Program Exn Unit Bytes) () = .ok hip.octets ())
    (hnew : ∃ ct draws, TunnelUse.new lib node.myIDC pubkey node.draws = .ok ct draws) :
    returned (addTunnelToPubkey lib pubkey) node = some () := by
  obtain ⟨ct, draws, hct⟩ := hnew
  have hcrypto : crypto (TunnelUse.new lib node.myIDC pubkey) node = .ok ct { node with draws } :=
    zoom_eq_ok_iff.mpr ⟨draws, hct, rfl⟩
  refine returned_eq_some_iff.mpr ?_
  rw [addTunnelToPubkey, bind_of_ok (getIpv6StringBin_eq_ok_iff.mpr ⟨haddr, rfl⟩),
    bind_of_ok (fromExcept_eq_ok_iff.mpr ⟨hip.ofAddrBin_octets, rfl⟩), bind_of_ok (get_apply node)]
  split
  · exact ⟨node, rfl⟩
  · exact ⟨_, bind_of_ok hcrypto⟩

/-- The number that the keys and the addresses of a node of the line are made of. -/
def lineKey (i : Fin 4) : UInt8 := UInt8.ofNat (i.val + 1)

/-- Four nodes in a line. Those with neighbouring numbers are linked. -/
def lineTopology : Topology (Fin 4) where
  addr i := samplePip (lineKey i)
  hip i := sampleHip (lineKey i)
  myIDC i := x25519Pair [lineKey i]
  ipv6Prefix i := (sampleKey (lineKey i)).ipv6Prefix
  link i j := i.val + 1 = j.val ∨ j.val + 1 = i.val
  addr_injective := by decide
  link_symm h := h.symm

/-- The address of a node of the line, as another one calculates it. -/
private theorem getIpv6StringBin_line : ∀ i j : Fin 4,
    (((sampleKey (lineKey j)).received (lineTopology.ipv6Prefix i)).getIpv6StringBin CryptoLib.sample :
      Program Exn Unit Bytes) () = .ok (sampleHip (lineKey j)).octets () := by
  decide +kernel

theorem usable_sampleKey (j : Fin 4) :
    lineTopology.Usable CryptoLib.sample (sampleKey (lineKey j)) := by
  have hholds := holds_x25519Pair (show ([lineKey j] : Bytes).length < 2 ^ 16 by simp)
  have hone : ∀ sys, Function.update (fun _ => 0) CryptoSystemType.x25519.nr 1 sys ≤ 1 := by decide
  refine ⟨rfl, hholds.hasLetters, hholds.keysShort fun sys => (hone sys).trans_lt (by decide), ?_, ?_⟩
  · exact (Nat.le_add_right _ 16).trans (hholds.length_serializedOctets hone)
  · intro i node hmyIDC
    refine returned_addTunnelToPubkey (getIpv6StringBin_line i j) ?_
    rw [hmyIDC]
    exact ⟨_, _, rfl⟩

/-- A node of the line has the nodes next to it as peers, with their keys. -/
def HasLinePeers (i : Fin 4) (node : Tunserver) : Prop :=
  node.peer.toList.map (fun v => (v.1, v.2.getPip, v.2.getPub)) =
    ((List.finRange 4).filter fun j => i.val + 1 = j.val ∨ j.val + 1 = i.val).map fun j =>
      (sampleHip (lineKey j), samplePip (lineKey j), some (sampleKey (lineKey j)))

theorem HasLinePeers.knowsPeers {i : Fin 4} {node : Tunserver} (h : HasLinePeers i node) :
    lineTopology.KnowsPeers CryptoLib.sample i node where
  link j hlink := by
    have hmem : (sampleHip (lineKey j), samplePip (lineKey j), some (sampleKey (lineKey j))) ∈
        node.peer.toList.map fun v => (v.1, v.2.getPip, v.2.getPub) := by
      rw [h]
      exact List.mem_map.mpr ⟨j, List.mem_filter.mpr ⟨List.mem_finRange j, decide_eq_true hlink⟩, rfl⟩
    obtain ⟨v, hv, heq⟩ := List.mem_map.mp hmem
    obtain ⟨hhip, hpip, -⟩ : v.1 = sampleHip (lineKey j) ∧ v.2.getPip = samplePip (lineKey j) ∧ _ := by
      simpa using heq
    refine ⟨v.2, ?_, hpip⟩
    change node.peer[sampleHip (lineKey j)]? = _
    rw [← hhip]
    exact Std.ExtTreeMap.mem_toList_iff_getElem?_eq_some.mp hv
  peer hip peering hget := by
    have hmem : (hip, peering.getPip, peering.getPub) ∈
        node.peer.toList.map fun v => (v.1, v.2.getPip, v.2.getPub) :=
      List.mem_map.mpr ⟨(hip, peering), Std.ExtTreeMap.mem_toList_iff_getElem?_eq_some.mpr hget, rfl⟩
    rw [h] at hmem
    obtain ⟨j, -, heq⟩ := List.mem_map.mp hmem
    obtain ⟨-, hpip, hpub⟩ : _ ∧ samplePip (lineKey j) = peering.getPip ∧
        some (sampleKey (lineKey j)) = peering.getPub := by simpa using heq
    refine ⟨?_, sampleKey (lineKey j), hpub.symm, usable_sampleKey j⟩
    rw [Peering.Sendable, ← hpip]
    rfl

/-- The nodes of the line, which have met. -/
def lineNode : Fin 4 → Tunserver
  | 0 => (sampleNode 1).after (sampleMeet 2)
  | 1 => ((sampleNode 2).after (sampleMeet 1)).after (sampleMeet 3)
  | 2 => ((sampleNode 3).after (sampleMeet 2)).after (sampleMeet 4)
  | 3 => (sampleNode 4).after (sampleMeet 3)

theorem hasLinePeers_lineNode : ∀ i, HasLinePeers i (lineNode i)
  | 0 | 1 | 2 | 3 => by with_unfolding_all rfl

/-- The line, before anything is looked for. -/
def lineStart : NodeNetwork (Fin 4) := { node := lineNode, flight := [] }

/-- The network after something has happened at a node. What it has sent is in flight. -/
def actAt (net : NodeNetwork (Fin 4)) (i : Fin 4) (event : Event) : NodeNetwork (Fin 4) :=
  let node := (net.node i).after event
  net.act i node ((node.sentSince (net.node i)).map fun d => { sender := i, addr := d.1, octets := d.2 })

/-- The network after a node was asked for a route. -/
def askAt (net : NodeNetwork (Fin 4)) (i : Fin 4) (goal : HashipAddr) : NodeNetwork (Fin 4) :=
  actAt net i (.request goal ownReason 5)

/-- The network after the first datagram in flight was delivered to a node. When nothing is in flight nothing
happens. -/
def deliverAt (net : NodeNetwork (Fin 4)) (i : Fin 4) : NodeNetwork (Fin 4) :=
  match net.flight with
  | [] => net
  | d :: flight => actAt (net.withFlight flight) i (.datagram (samplePip (lineKey d.sender)) d.octets)

theorem idle_lineStart : lineTopology.Idle lineStart := by
  refine ⟨fun i => ?_, rfl⟩
  match i with
  | 0 | 1 | 2 | 3 => exact ⟨rfl, rfl, rfl, rfl⟩

private theorem asks_askAt {net : NodeNetwork (Fin 4)} {i : Fin 4} (h : HasLinePeers i (net.node i))
    (goal : HashipAddr) : lineTopology.Asks CryptoLib.sample i goal 5 net (askAt net i goal) :=
  ⟨h.knowsPeers, by decide, ownReason, _, _, ⟨rfl, rfl⟩, rfl⟩

/-- A datagram that was sent to a node is delivered to it. -/
theorem step_deliverAt {C : Fin 4 → Datagram (Fin 4) → Tunserver → Prop} {net : NodeNetwork (Fin 4)}
    {i : Fin 4} {d : Datagram (Fin 4)} {flight : List (Datagram (Fin 4))} (hflight : net.flight = d :: flight)
    (haddr : d.addr = samplePip (lineKey i)) (h : HasLinePeers i (net.node i)) (hC : C i d (net.node i)) :
    lineTopology.Step CryptoLib.sample C net (deliverAt net i) := by
  have hdeliver : deliverAt net i =
      actAt (net.withFlight flight) i (.datagram (samplePip (lineKey d.sender)) d.octets) := by
    rw [deliverAt, hflight]
  have hfirst : net.flight = [] ++ d :: flight := hflight
  rw [hdeliver]
  exact .deliver hfirst ⟨h.knowsPeers, hC, haddr, rfl, rfl⟩

/-- The first node asks for the third one: the second one answers, as it is a peer of both. -/
theorem search_complete_of_answered_example :
    let net := deliverAt (deliverAt (askAt lineStart 0 (sampleHip 3)) 1) 0
    net.flight = [] ∧ ((net.node 0).routeTo (sampleHip 3)).isSome := by
  intro net
  let net₁ := askAt lineStart 0 (sampleHip 3)
  let net₂ := deliverAt net₁ 1
  have hstart : HasLinePeers 0 (lineStart.node 0) := hasLinePeers_lineNode 0
  have hflight₁ : net₁.flight = [⟨0, samplePip 2, queryOctets (sampleHip 3) 5⟩] := by decide +kernel
  have hflight₂ : net₂.flight = [⟨1, samplePip 1, replyOctets 5 1 (sampleHip 3) (sampleKeyBin 3)⟩] := by
    decide +kernel
  have hquiet : net.flight = [] := by decide +kernel
  have hanswer : (lineNode 1).CanAnswer (sampleHip 3) := .inl (by decide +kernel)
  have hfirst : lineTopology.Step CryptoLib.sample (Topology.Answered 0 1 (sampleHip 3)) net₁ net₂ :=
    step_deliverAt hflight₁ rfl (hasLinePeers_lineNode 1) fun _ _ _ => hanswer
  have hsecond : lineTopology.Step CryptoLib.sample (Topology.Answered 0 1 (sampleHip 3)) net₂ net :=
    step_deliverAt hflight₂ rfl (by with_unfolding_all rfl) fun h => absurd h (by decide)
  exact ⟨hquiet, search_complete_of_answered (show lineTopology.link 0 1 from .inl rfl) (by decide)
    idle_lineStart .refl (asks_askAt hstart _) ((Relation.ReflTransGen.single hfirst).tail hsecond) hquiet⟩

/-- Another node can be reached over a chain of peers of this length. The chain is without the node that it
starts from. -/
def Topology.Within {ι : Type} (T : Topology ι) (a g : ι) (ttl : ℤ) : Prop :=
  ∃ chain : List ι, List.IsChain T.link (a :: chain) ∧ (a :: chain).getLast? = some g ∧ chain.length ≤ ttl

/-- The first node asks for the last one, which the third one has a route to. The second node gets to know it,
but it does not tell the first one, whose query came before. -/
theorem not_search_complete :
    ¬ ∀ (ι : Type) [DecidableEq ι] (T : Topology ι) (lib : CryptoLib) (a g : ι) (searchTtl : ℤ)
        (net₀ net₁ net₂ net : NodeNetwork ι), T.Idle net₀ →
      Relation.ReflTransGen (T.Step lib fun _ _ _ => True) net₀ net₁ →
      T.Asks lib a (T.hip g) searchTtl net₁ net₂ → T.Within a g searchTtl →
      Relation.ReflTransGen (T.Step lib fun _ _ _ => True) net₂ net → net.flight = [] →
      ((net.node a).routeTo (T.hip g)).isSome := by
  intro h
  let net₁ := askAt lineStart 0 (sampleHip 4)
  let net₂ := deliverAt net₁ 1
  let net₃ := deliverAt net₂ 2
  let net₄ := deliverAt net₃ 1
  let net₅ := deliverAt net₄ 0
  have hstart : HasLinePeers 0 (lineStart.node 0) := hasLinePeers_lineNode 0
  have hwithin : lineTopology.Within 0 3 5 := by
    refine ⟨[1, 2, 3], ?_, rfl, by decide⟩
    exact .cons_cons (.inl rfl) (.cons_cons (.inl rfl) (.cons_cons (.inl rfl) (.singleton _)))
  -- The second node asks both its peers, and the third one answers it.
  let query := queryOctets (sampleHip 4) 5
  let reply := replyOctets 5 1 (sampleHip 4) (sampleKeyBin 4)
  have hflight₁ : net₁.flight = [⟨0, samplePip 2, query⟩] := by decide +kernel
  have hflight₂ : net₂.flight = [⟨1, samplePip 3, query⟩, ⟨1, samplePip 1, query⟩] := by decide +kernel
  have hflight₃ : net₃.flight = [⟨2, samplePip 2, reply⟩, ⟨1, samplePip 1, query⟩] := by decide +kernel
  have hflight₄ : net₄.flight = [⟨1, samplePip 1, query⟩] := by decide +kernel
  let Step := lineTopology.Step CryptoLib.sample fun _ _ _ => True
  have hstep₁ : Step net₁ net₂ := step_deliverAt hflight₁ rfl (hasLinePeers_lineNode 1) trivial
  have hstep₂ : Step net₂ net₃ := step_deliverAt hflight₂ rfl (hasLinePeers_lineNode 2) trivial
  have hstep₃ : Step net₃ net₄ := step_deliverAt hflight₃ rfl (by with_unfolding_all rfl) trivial
  have hstep₄ : Step net₄ net₅ := step_deliverAt hflight₄ rfl (by with_unfolding_all rfl) trivial
  have hrun : Relation.ReflTransGen Step net₁ net₅ :=
    (((Relation.ReflTransGen.single hstep₁).tail hstep₂).tail hstep₃).tail hstep₄
  have hroute := h (Fin 4) lineTopology CryptoLib.sample 0 3 5 lineStart lineStart net₁ net₅ idle_lineStart
    .refl (asks_askAt hstart _) hwithin hrun (by decide +kernel)
  revert hroute
  decide +kernel

end Galaxy42
