import Galaxy42.Crypto.Handshake
import Galaxy42.Tunserver.Handlers

/-!
# Whole runs of a node

A run of a node is an order of rounds of the event loop and of operations on the tables, by which other
threads change the peers. An operation of another thread is taken to come before or after a round.

`Effects` lists all that an event may do to a node. When each of these stays within an invariant, so does
handling the event (`Effects.run`). `Closed` is the part that does not depend on the event: sending what is
not a query, searches, and what is neither peers, routes nor datagrams; three changes are left to who uses
the rule (`Keeps`): a route is learned, a peer is put into the table, or peers are removed.
`Closed.reached` carries an invariant along every run.

A node learns at most one route in an event, from a reply or by looking up a peer (`Tunserver.learned`),
and `routes_of_learned` and `routes_of_not_learned` say that this is all that happens to its routes.

An invariant here may be about two states, the one before the event and the one that it has come to, since the
effects are stated for a fixed first state. So the same rule gives what an event does: what was sent in it,
what it has asked for, and that what is stored stays. Modules that need more than peers, routes and datagrams
have a list of effects of their own, as `TunnelRuns` has for tunnels.

An event is handled with all exceptions caught, and what is left of it is the state at its end, so the effects
are those of programs that may fail at any place. A node whose process is aborted does not go on (`Reached`).
The conditions of the results that use this are on events in the states they come in, never on what they lead
to.

The last section has nodes with the sample library, from which the samples of later modules are made.
-/

namespace Galaxy42

open Toolkit Program TrivialSerialize Tunserver

/-! ### Events -/

/-- What happens to a node. An operation of another thread comes between two rounds of the loop. The arguments
are what the code gets from outside, and may be anything. -/
inductive Event where
  /-- A datagram is received. -/
  | datagram (senderPip : Ip46Addr) (buf : Bytes)
  /-- A packet is read from the virtual card. -/
  | tunPacket (tunReadBuff : Bytes)
  /-- All peers are pinged. -/
  | ping (enableRemove : Bool) (timedOut : HashipAddr → Bool) (IDIIDCSig : Multisign)
  /-- Someone asks for a route. -/
  | request (dst : HashipAddr) (reason : RouteReason) (searchTtl : ℤ)
  /-- An operation on the tables. -/
  | op (tableOp : TableOp)

/-- What is done about an event. A ping removes peers first, if it is told to. -/
def Event.handle (lib : CryptoLib) : Event → Node Unit
  | .datagram senderPip buf => handleDatagram lib senderPip buf
  | .tunPacket tunReadBuff => handleTunPacket lib tunReadBuff
  | .ping enableRemove timedOut IDIIDCSig => peeringPingAllPeers enableRemove timedOut IDIIDCSig
  | .request dst reason searchTtl => discard (getRouteOrMaybeSearch dst reason true searchTtl)
  | .op tableOp => tableOp.run lib

/-- A round of the loop: every exception is caught. An abort is not caught, and ends the process. -/
def Event.run (lib : CryptoLib) (event : Event) : Node Unit :=
  catching (event.handle lib) fun _ => some (pure ())

/-- Catching the exceptions leaves the same state. -/
theorem finalState_run (lib : CryptoLib) (event : Event) (node : Tunserver) :
    finalState (event.run lib) node = finalState (event.handle lib) node :=
  finalState_catching_pure fun _ _ hq => ⟨(), (Option.some.inj hq).symm⟩

/-- The states that a node can reach by events that are allowed in the state they come in. A node that aborts
does not go on. The condition on an event (`Allowed`) may depend on the state that it comes in, and is what
the results on runs are about. -/
inductive Reached (lib : CryptoLib) (Allowed : Tunserver → Event → Prop) : Tunserver → Prop
  | start (myIDC : MultikeysPAIR) (myIDIPub : MultikeysPub) (myHip : HashipAddr)
      (ipv6Prefix : Bytes) (draws : ℕ) :
      Reached lib Allowed (Tunserver.new myIDC myIDIPub myHip ipv6Prefix draws)
  | step {node node' : Tunserver} {event : Event} (h : Reached lib Allowed node)
      (hallowed : Allowed node event) (hrun : event.run lib node = .ok () node') :
      Reached lib Allowed node'

namespace Tunserver

/-- The route that a node learns in an event, with its destination. It is told from the event and the state
before it. -/
def learned (lib : CryptoLib) (node : Tunserver) : Event → Option (HashipAddr × RouteInfo)
  | .datagram senderPip buf =>
    match node.acceptedReply senderPip buf with
    | some (sender, reply) =>
      let route := node.repliedRoute sender reply
      if (returned (addTunnelToPubkey lib route.pubkey) node).isSome then some (reply.goalHip, route)
      else none
    | none =>
      match node.acceptedQuery senderPip buf with
      | some (_, hip, _) => (node.directRouteTo hip).map fun route => (hip, route)
      | none => none
  | .request dst _ _ => (node.directRouteTo dst).map fun route => (dst, route)
  | _ => none

/-- The node without the peers that have timed out. -/
def removePeers (node : Tunserver) (timedOut : HashipAddr → Bool) : Tunserver :=
  { node with peer := node.peer.filter fun hip _ => !timedOut hip }

/-- A peer is put into the table in an event: by an operation, or since his greeting is accepted. A peer who
is there already may get another entry in the last two cases. -/
inductive Puts (lib : CryptoLib) (node : Tunserver) : Event → HashipAddr → Peering → Prop
  | add {peerRef : PeeringReference} (hnew : peerRef.hashipAddr ∉ node.peer) :
      Puts lib node (.op (.addPeer peerRef)) peerRef.hashipAddr (Peering.new peerRef)
  | append {peerRef : PeeringReference} {pubkey : HashipPubkey} {peering : Peering}
      (hhip : HasHip lib pubkey peerRef.hashipAddr) (hmet : Met node peerRef pubkey peering) :
      Puts lib node (.op (.addPeerAppendPubkey peerRef pubkey)) peerRef.hashipAddr peering
  | greeting {senderPip : Ip46Addr} {buf : Bytes} {peerRef : PeeringReference}
      {pubkey : HashipPubkey} {peering : Peering}
      (hgreeting : greeting lib node senderPip buf = some (peerRef, pubkey))
      (hhip : HasHip lib pubkey peerRef.hashipAddr) (hmet : Met node peerRef pubkey peering) :
      Puts lib node (.datagram senderPip buf) peerRef.hashipAddr peering

end Tunserver

/-- The peers that are removed in an event. A ping that is not told to remove peers removes none. -/
def Event.removes : Event → HashipAddr → Bool
  | .ping true timedOut _ => timedOut
  | .op (.deletePeer hip) => fun hip' => hip' = hip
  | .op (.deleteAllPeers _) => fun _ => true
  | _ => fun _ => false

section Removed

variable {node : Tunserver}

namespace Tunserver

theorem getElem?_removePeers {timedOut : HashipAddr → Bool} {hip : HashipAddr} :
    (node.removePeers timedOut).peer[hip]? =
      if timedOut hip = true then none else node.peer[hip]? := by
  rw [removePeers, Std.ExtTreeMap.getElem?_filter']
  cases node.peer[hip]? with
  | none => simp
  | some peering => cases timedOut hip <;> simp [Option.filter]

/-- Removing who is no peer changes nothing. -/
theorem removePeers_of_none {timedOut : HashipAddr → Bool}
    (h : ∀ hip ∈ node.peer, timedOut hip = false) : node.removePeers timedOut = node := by
  have hpeer : (node.removePeers timedOut).peer = node.peer := by
    refine Std.ExtTreeMap.ext_getElem? fun {hip} => ?_
    rw [getElem?_removePeers]
    by_cases hmem : hip ∈ node.peer
    · simp [h hip hmem]
    · simp [hmem]
  exact congrArg (fun peer => { node with peer }) hpeer

theorem finalState_deletePeer (hip : HashipAddr) (node : Tunserver) :
    finalState (deletePeer hip) node = node.removePeers (Event.op (.deletePeer hip)).removes := by
  have hpeer : node.peer.erase hip = (node.removePeers (Event.op (.deletePeer hip)).removes).peer := by
    refine Std.ExtTreeMap.ext_getElem? fun {x} => ?_
    rw [getElem?_removePeers, Std.ExtTreeMap.getElem?_erase]
    simp only [Event.removes, decide_eq_true_eq, Std.LawfulEqCmp.compare_eq_iff_eq, @eq_comm _ hip x]
  rw [deletePeer, finalState_bind_of_ok (get_apply node)]
  split
  next hmem => exact congrArg (fun peer => { node with peer }) hpeer
  next hmem =>
    have hnone : ∀ x ∈ node.peer, (Event.op (.deletePeer hip)).removes x = false := by
      intro x hx
      refine decide_eq_false fun heq => hmem ?_
      rwa [← heq]
    exact (removePeers_of_none hnone).symm

theorem finalState_deleteAllPeers (isBanned : Bool) (node : Tunserver) :
    finalState (deleteAllPeers isBanned) node =
      { node.removePeers (Event.op (.deleteAllPeers isBanned)).removes with
        peerBlackList :=
          if isBanned then node.peerBlackList.insertMany node.peer.keys else node.peerBlackList } := by
  have hpeer : (∅ : Std.ExtTreeMap HashipAddr Peering) =
      (node.removePeers (Event.op (.deleteAllPeers isBanned)).removes).peer := by
    refine Std.ExtTreeMap.ext_getElem? fun {x} => ?_
    rw [getElem?_removePeers]
    simp [Event.removes]
  exact congrArg (fun peer => { node with
    peerBlackList :=
      if isBanned then node.peerBlackList.insertMany node.peer.keys else node.peerBlackList
    peer }) hpeer

end Tunserver

end Removed

/-! ### What is sent -/

/-- The datagrams that a node has given to its socket since it was in another state. -/
def Tunserver.sentSince (node' node : Tunserver) : List (Ip46Addr × Bytes) :=
  node'.sent.take (node'.sent.length - node.sent.length)

theorem sentSince_of_append {node node' : Tunserver} {new : List (Ip46Addr × Bytes)}
    (h : node'.sent = new ++ node.sent) : node'.sentSince node = new := by
  rw [Tunserver.sentSince, h, List.length_append, Nat.add_sub_cancel, List.take_left]

theorem datagramCmd_cmdOctets (cmd : ProtoCmd) (bin : Bytes) :
    datagramCmd (cmdOctets cmd bin) = some cmd := by
  cases cmd <;> rfl

/-! ### What an event does -/

/-- Data that may be sent because of an event: a packet is sent, data for someone else are forwarded, and
empty data are sent back for data from who there is no tunnel for. -/
def Event.Routes (node : Tunserver) : Event → TunneledData → Prop
  | .datagram senderPip buf, data => ∃ sender packet,
      node.acceptedPacket senderPip buf = some (sender, packet) ∧
        if packet.dstHip = node.myHip then
          packet.srcHip ∉ node.tunnel ∧ ∃ nonce, data = sendBack packet nonce
        else data = { packet with ttl := forwardTtl packet.ttl }
  | .tunPacket tunReadBuff, data =>
      returned (parseTunIpSrcDst tunReadBuff : Node _) node = some (data.srcHip, data.dstHip) ∧
        data.ttl = 5
  | _, _ => False

/-- A destination that may be looked for because of an event, with a TTL: where data should go, what a query
asks for, or what is requested. -/
def Event.Searches (node : Tunserver) (event : Event) (dst : HashipAddr) (ttl : ℤ) : Prop :=
  (∃ data, event.Routes node data ∧ routed node data = .search dst ∧ ttl = ttlMaxAccepted) ∨
    match event with
    | .datagram senderPip buf => ∃ sender requestedTtl,
        node.acceptedQuery senderPip buf = some (sender, dst, requestedTtl) ∧ ttl = requestedTtl - 1
    | .request dst' _ searchTtl => dst' = dst ∧ searchTtl = ttl
    | _ => False

/-- What is left to show for an event in an invariant that does not depend on what is sent: that a route that
is learned may be stored, that a peer may be put into the table, and that peers may be removed. -/
structure Keeps (lib : CryptoLib) (I : Tunserver → Prop) (node : Tunserver) (event : Event) :
    Prop where
  learned : ∀ goal route, node.learned lib event = some (goal, route) → I (node.learnRoute goal route)
  put : ∀ hip peering, node.Puts lib event hip peering → I (node.putPeer hip peering)
  removed : (∃ hip ∈ node.peer, event.removes hip = true) → I (node.removePeers event.removes)

/-- Peers are removed within the invariant, if any are. -/
theorem Keeps.removePeers {lib : CryptoLib} {I : Tunserver → Prop} {node : Tunserver} {event : Event}
    (hkeeps : Keeps lib I node event) (h : I node) : I (node.removePeers event.removes) := by
  by_cases hremoves : ∃ hip ∈ node.peer, event.removes hip = true
  · exact hkeeps.removed hremoves
  · rwa [removePeers_of_none fun hip hmem => by simpa using fun hhip => hremoves ⟨hip, hmem, hhip⟩]

/-- All that an event may do to a node, each within the invariant. An invariant for which they can be shown is
kept by every event, with whatever data. -/
structure Effects (lib : CryptoLib) (I : Tunserver → Prop) (node : Tunserver) (event : Event) : Prop
    extends Keeps lib I node event where
  /-- A greeting is sent. -/
  greet : ∀ node' addr bin, I node' → I (node'.pushSent addr (cmdOctets .publicHi bin))
  /-- A query is answered with a route that is stored. -/
  reply : ∀ node' senderPip buf sender hip ttl route, event = .datagram senderPip buf →
    node.acceptedQuery senderPip buf = some (sender, hip, ttl) → node'.routeTo hip = some route →
      I node' → I (node'.pushSent sender.getPip (toldOctets ttl hip route))
  /-- Data are sent. -/
  data : ∀ node' addr packet, event.Routes node packet → I node' →
    I (node'.pushSent addr (tunneledOctets packet))
  /-- A destination is looked for. -/
  search : ∀ dst ttl reason, event.Searches node dst ttl → Preserves I (searchRoute dst reason ttl)
  /-- Tunnels, draws, packets for the card and banned peers are no part of the invariant. -/
  unrelated : ∀ node' tunnel draws writtenToTun peerBlackList, I node' →
    I { node' with tunnel, draws, writtenToTun, peerBlackList }

/-- Where data go depends on the peers and the routes only. -/
private theorem routed_congr {node node' : Tunserver} (hpeer : node'.peer = node.peer)
    (hrouting : node'.routingManager = node.routingManager) (packet : TunneledData) :
    routed node' packet = routed node packet := by
  simp only [routed, nextPeer, routeTo, hpeer, hrouting]

namespace Effects

variable {lib : CryptoLib} {I : Tunserver → Prop} {node : Tunserver} {event : Event}
  (hI : Effects lib I node event)

include hI

private theorem preserves_crypto {α : Type} (p : Crypto α) : Preserves I (crypto p) :=
  .zoom fun draws node' h =>
    hI.unrelated node' node'.tunnel draws node'.writtenToTun node'.peerBlackList h

private theorem preserves_addTunnelToPubkey (pubkey : HashipPubkey) :
    Preserves I (addTunnelToPubkey lib pubkey) := by
  refine .bind (preserves_getIpv6StringBin pubkey) fun addr => .bind (.fromExcept _) fun hip =>
    .get_bind fun node' h => ?_
  split
  · exact h
  · refine Preserves.bind (hI.preserves_crypto _) (fun ct => .modify fun node₁ h => ?_) node' h
    exact hI.unrelated node₁ _ node₁.draws node₁.writtenToTun node₁.peerBlackList h

/-- Data that the event may send are routed within the invariant. -/
theorem finalState_routeTop {node' : Tunserver} (h : I node') {packet : TunneledData}
    (hroutes : event.Routes node packet) (hrouted : routed node' packet = routed node packet)
    (reason : RouteReason) : I (finalState (routeTunDataToItsDestinationTop packet reason) node') := by
  rw [Galaxy42.finalState_routeTop, hrouted]
  cases hnext : routed node packet with
  | send peering =>
    dsimp only
    obtain hsame | ⟨-, hpush⟩ := finalState_sendDataUdp peering packet node'
    · rwa [hsame]
    · rw [hpush]
      exact hI.data node' _ packet hroutes h
  | search hip => exact hI.search hip ttlMaxAccepted reason (.inl ⟨packet, hroutes, hnext, rfl⟩) node' h
  | drop => exact h

/-- A route is looked up within the invariant. -/
theorem finalState_getRoute (h : I node) {dst : HashipAddr} {searchTtl : ℤ}
    (hlearn : ∀ route, node.directRouteTo dst = some route → I (node.learnRoute dst route))
    (reason : RouteReason) (hsearch : event.Searches node dst searchTtl) :
    I (finalState (getRouteOrMaybeSearch dst reason true searchTtl) node) := by
  cases hpeer : node.peer[dst]? with
  | some peering =>
    cases hpub : peering.getPub with
    | some pubkey =>
      rw [finalState_of_ok (getRoute_of_peer hpeer hpub)]
      exact hlearn _ (by simp [directRouteTo, hpeer, hpub])
    | none => rwa [finalState_of_error (getRoute_of_peer_without_pubkey hpeer hpub)]
  | none =>
    cases hroute : node.routeTo dst with
    | some route => rwa [finalState_of_ok (getRoute_of_route hpeer hroute)]
    | none =>
      rw [finalState, getRoute_of_no_route hpeer hroute]
      exact Preserves.bind (hI.search dst searchTtl reason hsearch) (fun _ => .raise _) node h

section Datagram

variable {senderPip : Ip46Addr} {buf : Bytes} {sender : Peering}

/-- Data for the node itself are written to the card, or empty data are sent back. -/
private theorem finalState_of_packet (h : I node) (hevent : event = .datagram senderPip buf)
    {packet : TunneledData} (hpacket : node.acceptedPacket senderPip buf = some (sender, packet)) :
    I (finalState (handleDatagram lib senderPip buf) node) := by
  subst hevent
  by_cases hmine : packet.dstHip = node.myHip
  · by_cases htunnel : packet.srcHip ∈ node.tunnel
    · obtain ⟨writtenToTun, hstate⟩ :
          ∃ writtenToTun, finalState (handleDatagram lib senderPip buf) node = { node with writtenToTun } :=
        finalState_of_receive_with_tunnel hpacket hmine htunnel
      rw [hstate]
      exact hI.unrelated node node.tunnel node.draws writtenToTun node.peerBlackList h
    · obtain ⟨nonce, -, hstate⟩ :
          ∃ nonce : Bytes, nonce.length = cryptoBoxNonceBytes ∧
            finalState (handleDatagram lib senderPip buf) node = _ :=
        finalState_of_receive_without_tunnel hpacket hmine htunnel
      have hroutes : Event.Routes node (.datagram senderPip buf) (sendBack packet nonce) :=
        ⟨sender, packet, hpacket, by rw [if_pos hmine]; exact ⟨htunnel, nonce, rfl⟩⟩
      rw [hstate]
      exact hI.finalState_routeTop (hI.unrelated node node.tunnel (node.draws + 1) node.writtenToTun
        node.peerBlackList h) hroutes rfl ownReason
  · have hroutes : Event.Routes node (.datagram senderPip buf)
        { packet with ttl := forwardTtl packet.ttl } := ⟨sender, packet, hpacket, by rw [if_neg hmine]⟩
    rw [finalState_congr (handleDatagram_of_packet hpacket), if_neg hmine, forwardTunneledData]
    split
    · exact h
    · rw [finalState_bind_pure]
      exact hI.finalState_routeTop h hroutes rfl _

/-- A query is answered, or a route is looked for. -/
private theorem finalState_of_query (h : I node) (hevent : event = .datagram senderPip buf) {hip : HashipAddr}
    {ttl : ℤ} (hquery : node.acceptedQuery senderPip buf = some (sender, hip, ttl))
    (hreply : node.acceptedReply senderPip buf = none) :
    I (finalState (handleDatagram lib senderPip buf) node) := by
  have hlearn : ∀ route, node.directRouteTo hip = some route → I (node.learnRoute hip route) :=
    fun route hroute => hI.learned hip route (by simp [hevent, Tunserver.learned, hreply, hquery, hroute])
  have hsearch : event.Searches node hip (ttl - 1) := by
    subst hevent
    exact .inr ⟨sender, ttl, hquery, rfl⟩
  have hget := hI.finalState_getRoute h hlearn
    { hisAddr := sender.getHip, searchMode := .helpFind } hsearch
  rw [finalState_handleDatagram_of_query hquery]
  cases hfor : node.routeFor hip with
  | none =>
    have herror : ∃ e node', getRouteOrMaybeSearch hip
        { hisAddr := sender.getHip, searchMode := .helpFind } true (ttl - 1) node = .error e node' :=
      getRoute_of_not_routeFor hfor
    obtain ⟨e, node', he⟩ := herror
    rw [finalState_of_error he] at hget
    rwa [answerQuery, finalState_bind_of_error he]
  | some route =>
    rw [finalState_of_ok (getRoute_of_routeFor hfor)] at hget
    by_cases htell : route.Tellable
    · rw [finalState_answerQuery_of_tellable htell (getRoute_of_routeFor hfor)]
      split
      · exact hI.reply _ senderPip buf sender hip ttl route hevent hquery
          (routeTo_learnRoute_of_routeFor hfor) hget
      · exact hget
    · rwa [finalState_answerQuery_of_not_tellable htell (getRoute_of_routeFor hfor)]

/-- A reply teaches a route, once the tunnel for its key is set up. -/
private theorem finalState_of_reply (h : I node) (hevent : event = .datagram senderPip buf)
    {reply : FindhipReply}
    (hreply : node.acceptedReply senderPip buf = some (sender, reply)) :
    I (finalState (handleDatagram lib senderPip buf) node) := by
  have hrest : ∀ (node' : Tunserver) tunnel draws, I node' → I (node'.withTunnels tunnel draws) :=
    fun node' tunnel draws h' =>
      hI.unrelated node' tunnel draws node'.writtenToTun node'.peerBlackList h'
  cases hrun : addTunnelToPubkey lib (node.repliedRoute sender reply).pubkey node with
  | ok u node' =>
    have hlearned : node.learned lib event = some (reply.goalHip, node.repliedRoute sender reply) := by
      simp [hevent, Tunserver.learned, hreply, returned, hrun]
    obtain ⟨⟨tunnel, draws, rfl⟩, hhandle⟩ := handleDatagram_of_learned hreply hrun
    rw [finalState_of_ok hhandle]
    exact hrest _ tunnel draws (hI.learned _ _ hlearned)
  | error e node' =>
    obtain ⟨tunnel, draws, htunnel⟩ :=
      finalState_addTunnelToPubkey lib (node.repliedRoute sender reply).pubkey node
    rw [finalState_of_error hrun] at htunnel
    subst htunnel
    rw [finalState_congr (handleDatagram_of_reply hreply), finalState_bind_of_error hrun]
    exact hrest node tunnel draws h

/-- A datagram is handled within the invariant. -/
private theorem finalState_handleDatagram (h : I node) (hevent : event = .datagram senderPip buf) :
    I (finalState (handleDatagram lib senderPip buf) node) := by
  cases hpacket : node.acceptedPacket senderPip buf with
  | some r => exact hI.finalState_of_packet h hevent hpacket
  | none =>
  cases hreply : node.acceptedReply senderPip buf with
  | some r => exact hI.finalState_of_reply h hevent hreply
  | none =>
  cases hquery : node.acceptedQuery senderPip buf with
  | some r => exact hI.finalState_of_query h hevent hquery hreply
  | none =>
  cases hgreeting : greeting lib node senderPip buf with
  | some r =>
    obtain ⟨binHisIDIPub, heq⟩ := finalState_handleDatagram_of_greeting hgreeting
    rw [heq]
    refine Preserves.finalState_bind ?_ fun _ => .get_bind fun node' h' =>
      Preserves.bind (preserves_multikeysOfBin _) (fun _ => hI.preserves_addTunnelToPubkey _) node' h'
    obtain hsame | ⟨hhip, peering, hmet, hput⟩ := finalState_addPeerAppendPubkey r.1 r.2 node
    · rwa [hsame]
    · rw [hput]
      exact hI.put _ _ (hevent ▸ .greeting hgreeting hhip hmet)
  | none => rwa [finalState_handleDatagram_of_none hpacket hquery hreply hgreeting]

end Datagram

/-- A packet from the card is routed within the invariant. -/
private theorem finalState_handleTunPacket (h : I node) {tunReadBuff : Bytes}
    (hevent : event = .tunPacket tunReadBuff) :
    I (finalState (handleTunPacket lib tunReadBuff) node) := by
  subst hevent
  -- Until the packet is routed, neither peers nor routes change.
  let J : Tunserver → Prop := fun node' =>
    I node' ∧ node'.peer = node.peer ∧ node'.routingManager = node.routingManager
  have hstart : J node := ⟨h, rfl, rfl⟩
  have hunrelated : ∀ (node' : Tunserver) tunnel draws, J node' → J { node' with tunnel, draws } :=
    fun node' tunnel draws h' =>
      ⟨hI.unrelated node' tunnel draws node'.writtenToTun node'.peerBlackList h'.1, h'.2⟩
  have hcrypto : ∀ {α : Type} (q : Crypto α), Preserves J (crypto q) := fun q =>
    .zoom fun draws node' h' => hunrelated node' node'.tunnel draws h'
  cases hparse : returned (parseTunIpSrcDst tunReadBuff : Node _) node with
  | none =>
    obtain ⟨e, he⟩ := exists_error_of_not_returned (fun _ => preserves_parseTunIpSrcDst tunReadBuff) hparse
    rwa [handleTunPacket, finalState_bind_of_error he]
  | some addresses =>
    obtain ⟨srcHip, dstHip⟩ := addresses
    have hroute : ∀ nonceUsed blob (node' : Tunserver), J node' →
        I (finalState (do
          let _ ← routeTunDataToItsDestinationTop { srcHip, dstHip, ttl := 5, nonceUsed, blob } ownReason
          return) node') := by
      intro nonceUsed blob node' h'
      rw [finalState_bind_pure]
      exact hI.finalState_routeTop h'.1 ⟨hparse, rfl⟩ (routed_congr h'.2.1 h'.2.2 _) _
    rw [handleTunPacket, finalState_bind_of_ok
      (eq_ok_of_returned (fun _ => preserves_parseTunIpSrcDst tunReadBuff) hparse)]
    dsimp only
    split
    · exact h
    rw [finalState_bind_of_ok (get_apply node)]
    cases node.tunnel[dstHip]? with
    | none =>
      exact Preserves.finalState_bind_of_preserves (J := J) (hcrypto _) (fun _ h' => h'.1)
        (fun nonce node' h' => hroute nonce [] node' h') hstart
    | some ct =>
      refine Preserves.finalState_bind_of_preserves (J := J) (.assertThat _) (fun _ h' => h'.1)
        (fun _ node₁ h₁ => ?_) hstart
      refine Preserves.finalState_bind_of_preserves (J := J)
        (.bind (.checkThat _ _) fun _ => .pure _) (fun _ h' => h'.1) (fun dataCleartext node₂ h₂ => ?_) h₁
      refine Preserves.finalState_bind_of_preserves (J := J) (preserves_boxAb _ _) (fun _ h' => h'.1)
        (fun boxed node₃ h₃ => ?_) h₂
      refine Preserves.finalState_bind_of_preserves (J := J)
        (.modify fun node' h' => hunrelated node' _ node'.draws h') (fun _ h' => h'.1)
        (fun _ node₄ h₄ => hroute _ _ node₄ h₄) h₃

private theorem preserves_pingPeer (node' : Tunserver) (IDIIDCSig : Multisign) (peering : Peering) :
    Preserves I (pingPeer node' IDIIDCSig peering) := by
  refine .bind (preserves_generate _) fun bin node₁ h => ?_
  rw [Peering.sendDataUdpCmd_eq, Peering.finalState_sendDataRAWUdp]
  split
  · exact hI.greet node₁ _ bin h
  · exact h

/-- The peers are pinged within the invariant. -/
theorem finalState_peeringPingAllPeers {enableRemove : Bool} {timedOut : HashipAddr → Bool}
    {IDIIDCSig : Multisign}
    (h : I (node.removePeers (Event.ping enableRemove timedOut IDIIDCSig).removes)) :
    I (finalState (peeringPingAllPeers enableRemove timedOut IDIIDCSig) node) := by
  have hping : Preserves I (do
      let node ← get
      node.peer.toList.forM fun v => pingPeer node IDIIDCSig v.2 : Node Unit) :=
    .get_bind fun node' h' => Preserves.forM (fun v _ => hI.preserves_pingPeer node' _ _) node' h'
  cases enableRemove with
  | true => exact hping _ h
  | false =>
    have hsame : node.removePeers (Event.ping false timedOut IDIIDCSig).removes = node :=
      removePeers_of_none fun _ _ => rfl
    exact hping node (hsame ▸ h)

/-- An operation on the tables is done within the invariant. -/
private theorem finalState_tableOp (h : I node) {tableOp : TableOp} (hevent : event = .op tableOp) :
    I (finalState (tableOp.run lib) node) := by
  subst hevent
  have hbanned : ∀ (node' : Tunserver) peerBlackList, I node' → I { node' with peerBlackList } :=
    fun node' => hI.unrelated node' node'.tunnel node'.draws node'.writtenToTun
  cases tableOp with
  | addPeer peerRef =>
    rw [TableOp.run, finalState_discard, finalState_addPeer]
    split
    · exact h
    next hnew => exact hI.put _ _ (.add hnew)
  | addPeerAppendPubkey peerRef pubkey =>
    obtain hsame | ⟨hhip, peering, hmet, hput⟩ := finalState_addPeerAppendPubkey peerRef pubkey node
    · rwa [TableOp.run, hsame]
    · rw [TableOp.run, hput]
      exact hI.put _ _ (.append hhip hmet)
  | deletePeer hip =>
    rw [TableOp.run, finalState_discard, finalState_deletePeer]
    exact hI.removePeers h
  | deleteAllPeers isBanned =>
    rw [TableOp.run, finalState_deleteAllPeers]
    exact hbanned _ _ (hI.removePeers h)
  | addPeerToBlackList hip => exact hbanned _ _ h
  | deletePeerFromBlackList hip => exact hbanned _ _ h
  | addTunnelToPubkey pubkey => exact hI.preserves_addTunnelToPubkey pubkey node h

/-- An event is handled within the invariant. -/
theorem run (h : I node) : I (finalState (event.run lib) node) := by
  rw [finalState_run]
  cases hevent : event with
  | datagram senderPip buf => exact hI.finalState_handleDatagram h hevent
  | tunPacket tunReadBuff => exact hI.finalState_handleTunPacket h hevent
  | ping enableRemove timedOut IDIIDCSig =>
    exact hI.finalState_peeringPingAllPeers (hevent ▸ hI.removePeers h)
  | request dst reason searchTtl =>
    rw [Event.handle, finalState_discard]
    refine hI.finalState_getRoute h (fun route hroute => ?_) reason ?_
    · exact hI.learned dst route (by simp [hevent, Tunserver.learned, hroute])
    · subst hevent
      exact .inr ⟨rfl, rfl⟩
  | op tableOp => exact hI.finalState_tableOp h hevent

end Effects

/-! ### Invariants of a node -/

/-- What an invariant must be closed under for the event loop to preserve it. It is used for invariants that
hold of all events alike. -/
structure Closed (I : Tunserver → Prop) : Prop where
  /-- A datagram is sent that is not a query. -/
  send : ∀ node addr cmd bin, cmd ≠ .findhipQuery → I node → I (node.pushSent addr (cmdOctets cmd bin))
  /-- Tunnels, draws, packets for the card and banned peers are no part of the invariant. -/
  unrelated : ∀ node tunnel draws writtenToTun peerBlackList, I node →
    I { node with tunnel, draws, writtenToTun, peerBlackList }
  /-- A route is searched for. -/
  search : ∀ dst reason searchTtl, Preserves I (searchRoute dst reason searchTtl)

namespace Closed

variable {lib : CryptoLib} {I : Tunserver → Prop} (hI : Closed I)

include hI

private theorem effects {node : Tunserver} {event : Event} (hkeeps : Keeps lib I node event) :
    Effects lib I node event where
  toKeeps := hkeeps
  greet node' addr bin := hI.send node' addr .publicHi bin (by decide)
  reply node' _ _ sender hip ttl route _ _ _ :=
    hI.send node' sender.getPip .findhipReply _ (by decide)
  data node' addr packet _ := hI.send node' addr .tunneledData (tunneledBin packet) (by decide)
  search dst ttl reason _ := hI.search dst reason ttl
  unrelated := hI.unrelated

/-- An event is handled within the invariant. -/
theorem run {node : Tunserver} (h : I node) {event : Event} (hkeeps : Keeps lib I node event) :
    I (finalState (event.run lib) node) :=
  (hI.effects hkeeps).run h

/-- What holds of a node without peers, tunnels and routes, and is kept by every event that is allowed,
holds in every state that is reached. -/
theorem reached {Allowed : Tunserver → Event → Prop}
    (hstart : ∀ myIDC myIDIPub myHip ipv6Prefix draws,
      I (Tunserver.new myIDC myIDIPub myHip ipv6Prefix draws))
    (hkeeps : ∀ node event, I node → Allowed node event → Keeps lib I node event)
    {node : Tunserver} (h : Reached lib Allowed node) : I node := by
  induction h with
  | start myIDC myIDIPub myHip ipv6Prefix draws => exact hstart _ _ _ _ _
  | step _ hallowed hrun ih =>
    have hstep := hI.run ih (hkeeps _ _ ih hallowed)
    rwa [finalState_of_ok hrun] at hstep

end Closed

/-! ### Peers and routes -/

/-- The routes of a node. -/
def Tunserver.routes (node : Tunserver) : Std.ExtTreeMap HashipAddr RouteInfo :=
  node.routingManager.routeNexthop

/-- An invariant that is about the peers and the routes only is closed. -/
theorem Closed.of_tables {I : Tunserver → Prop}
    (h : ∀ node node' : Tunserver, node'.peer = node.peer → node'.routes = node.routes →
      I node → I node') : Closed I where
  send node addr cmd bin _ := h node _ rfl rfl
  unrelated node _ _ _ _ := h node _ rfl rfl
  search dst reason searchTtl node hnode := by
    obtain ⟨m, hm, -⟩ := finalState_searchRoute dst reason searchTtl node
    rw [hm]
    exact h node _ rfl rfl hnode

section Routes

variable {lib : CryptoLib} {node : Tunserver}

/-- Routes that are not learned now are the routes that were stored. -/
theorem routes_of_not_learned {event : Event} (h : node.learned lib event = none) :
    (finalState (event.run lib) node).routes = node.routes := by
  have hclosed : Closed fun node' => node'.routes = node.routes :=
    .of_tables fun _ _ _ hroutes h' => hroutes.trans h'
  exact hclosed.run rfl ⟨fun goal route hlearned => by simp [h] at hlearned, fun _ _ _ => rfl, fun _ => rfl⟩

/-- A route that is learned is stored, unless one is. -/
theorem routes_of_learned {event : Event} {goal : HashipAddr} {route : RouteInfo}
    (h : node.learned lib event = some (goal, route)) :
    (finalState (event.run lib) node).routes = (node.learnRoute goal route).routes := by
  have hclosed : Closed fun node' => node'.routes = (node.learnRoute goal route).routes :=
    .of_tables fun _ _ _ hroutes h' => hroutes.trans h'
  rw [finalState_run]
  cases event with
  | datagram senderPip buf =>
    cases hreply : node.acceptedReply senderPip buf with
    | some r =>
      obtain ⟨sender, reply⟩ := r
      simp only [learned, hreply] at h
      split at h
      -- The route is stored when the tunnel is there; a tunnel that cannot be set up ends the handler.
      next hsome =>
        obtain ⟨rfl, rfl⟩ : reply.goalHip = goal ∧ node.repliedRoute sender reply = route := by
          simpa using h
        obtain ⟨u, hu⟩ := Option.isSome_iff_exists.mp hsome
        obtain ⟨node', hrun⟩ := returned_eq_some_iff.mp hu
        obtain ⟨⟨tunnel, draws, rfl⟩, hhandle⟩ := handleDatagram_of_learned hreply hrun
        rw [Event.handle, finalState_of_ok hhandle]
        rfl
      · cases h
    | none =>
      cases hquery : node.acceptedQuery senderPip buf with
      | some r =>
        obtain ⟨sender, hip, ttl⟩ := r
        simp only [learned, hreply, hquery, Option.map_eq_some_iff, Prod.mk.injEq] at h
        obtain ⟨route, hroute, rfl, rfl⟩ := h
        have hget : getRouteOrMaybeSearch hip { hisAddr := sender.getHip, searchMode := .helpFind } true
            (ttl - 1) node = _ := getRoute_of_directRouteTo hroute
        rw [Event.handle, finalState_handleDatagram_of_query hquery]
        -- Whether the route is told or not, it was stored by the lookup.
        by_cases htell : ((node.routeTo hip).getD route).Tellable
        · rw [finalState_answerQuery_of_tellable htell hget]
          split <;> rfl
        · rw [finalState_answerQuery_of_not_tellable htell hget]
      | none => simp [learned, hreply, hquery] at h
  | request dst reason searchTtl =>
    simp only [learned, Option.map_eq_some_iff, Prod.mk.injEq] at h
    obtain ⟨route, hroute, rfl, rfl⟩ := h
    rw [Event.handle, finalState_discard, finalState_of_ok (getRoute_of_directRouteTo hroute)]
  | _ => simp [learned] at h

/-- An event in which peers are removed does nothing else to the peers and the routes. -/
theorem tables_of_removes {event : Event} {hip : HashipAddr} (h : event.removes hip = true) :
    (finalState (event.run lib) node).peer = (node.removePeers event.removes).peer ∧
      (finalState (event.run lib) node).routes = node.routes := by
  let I : Tunserver → Prop := fun node' =>
    node'.peer = (node.removePeers event.removes).peer ∧ node'.routes = node.routes
  have hclosed : Closed I := .of_tables fun _ _ hpeer hroutes h' =>
    ⟨hpeer.trans h'.1, hroutes.trans h'.2⟩
  have hremoved : I (node.removePeers event.removes) := ⟨rfl, rfl⟩
  change I _
  rw [finalState_run]
  cases event with
  | ping enableRemove timedOut IDIIDCSig =>
    have hkeeps : Keeps lib I node (.ping enableRemove timedOut IDIIDCSig) :=
      ⟨fun _ _ hlearned => (by cases hlearned), fun _ _ hput => (by cases hput), fun _ => hremoved⟩
    exact (hclosed.effects hkeeps).finalState_peeringPingAllPeers hremoved
  | op tableOp =>
    cases tableOp with
    | deletePeer hip =>
      rw [Event.handle, TableOp.run, finalState_discard, finalState_deletePeer]
      exact hremoved
    | deleteAllPeers isBanned =>
      rw [Event.handle, TableOp.run, finalState_deleteAllPeers]
      exact hremoved
    | _ => cases h
  | _ => cases h

end Routes

/-! ### Nodes with the sample library -/

/-- The key of a node. -/
def sampleKey (k : UInt8) : HashipPubkey := (x25519Pair [k]).pub

/-- The key of a node, as it is sent. -/
def sampleKeyBin (k : UInt8) : Bytes := [71, 77, 75, 97, 111, 1, 120, 1, 1, k]

/-- The address of a node in the virtual network, which is calculated from its key. -/
def sampleHip (k : UInt8) : HashipAddr :=
  ⟨[253, 66, 71, 77, 75, 97, 102, 1, 1, 120, 64, k, 0, 0, 0, 0], rfl⟩

/-- The address of the socket of a node. -/
def samplePip (k : UInt8) : Ip46Addr := .ipv4 ⟨[k, 0, 0, 0], rfl⟩ 1

/-- A node that has just been started. -/
def sampleNode (k : UInt8) : Tunserver :=
  Tunserver.new (x25519Pair [k]) (sampleKey k) (sampleHip k) (sampleKey k).ipv6Prefix 0

/-- A node gets another one as a peer. -/
def sampleMeet (k : UInt8) : Event :=
  .op (.addPeerAppendPubkey { peeringAddr := samplePip k, hashipAddr := sampleHip k } (sampleKey k))

/-- A reply of a peer, about a destination and its key. -/
def sampleReply (peer ttl cost goal key : UInt8) : Event :=
  .datagram (samplePip peer) (replyOctets ttl cost (sampleHip goal) (sampleKeyBin key))

/-- A query of a peer for a destination. -/
def sampleQuery (peer goal ttl : UInt8) : Event :=
  .datagram (samplePip peer) (queryOctets (sampleHip goal) ttl)

/-- The node after an event. -/
def Tunserver.after (node : Tunserver) (event : Event) : Tunserver :=
  finalState (event.run CryptoLib.sample) node

/-- A state goes on by an event that returns. -/
theorem Reached.after {Allowed : Tunserver → Event → Prop} {node : Tunserver} {event : Event}
    (h : Reached CryptoLib.sample Allowed node) (hallowed : Allowed node event)
    (hreturns : returned (event.run CryptoLib.sample) node = some ()) :
    Reached CryptoLib.sample Allowed (node.after event) :=
  h.step hallowed (eq_ok_finalState hreturns)

/-- A node that has just been started is reached. -/
theorem reached_sampleNode {Allowed : Tunserver → Event → Prop} (k : UInt8) :
    Reached CryptoLib.sample Allowed (sampleNode k) :=
  .start _ _ _ _ _

end Galaxy42
