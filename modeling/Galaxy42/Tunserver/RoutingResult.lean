import Galaxy42.Tunserver.Forwarding
import Galaxy42.Tunserver.MalformedDatagrams

/-!
# What routing data returns

`route_tun_data_to_its_destination_top` is declared to return true if the data were pushed to where they
belong, and false, or an exception, on failure. An exception in looking for a route becomes a false in the
recursion below it. One from sending to a peer comes up to the two `catch` blocks at the top, which only
write a warning: true is returned behind them. So the result is right unless sending throws, and when it
does not come to an assertion (`routesTruthfully_iff`).

What was handed to a peer is read off the state at the end of the call: the datagram with the data, and
nothing else, was given to the socket, to the address of a peer (`HandedOver`). A call that finds no peer
may have sent datagrams as well, the queries of a new search, which are no data.

So the declaration has three parts (`RoutesTruthfully`): true is returned exactly when the data were handed
over, and false is returned when the tables lead to no peer, and when sending throws. The condition is about
the state before the call (`RouteSound`): the tables do not lead to a peer for which sending throws, and no
assertion is reached where peers are asked for a route. When sending throws can be told from the data and the
peer (`SendingThrows`): they are too long to be written, or the peer has no address.

The three ends of routing, at a peer, at a hop without a route and after two routes, have a lemma each on
what is returned and one on what was sent.
-/

namespace Galaxy42

open Toolkit Program TrivialSerialize Tunserver

namespace Peering

section Sending

variable {peering : Peering} {node : Tunserver} {packet : TunneledData}

/-- Sending something to a peer throws exactly when no address is set for it. -/
theorem safe_sendDataRAWUdp_false_iff {data : Bytes} :
    Safe (peering.sendDataRAWUdp data) node (fun _ _ => False) ↔ peering.getPip = .none := by
  rw [safe_false_iff]
  obtain ⟨addr, hip, pubkey, limitPoints⟩ := peering
  cases hon : node.udpDisabled <;> cases addr <;>
    simp [sendDataRAWUdp, getPip, Tunserver.sendData, bind_apply, hon, assertThat_apply,
      Ip46Addr.isIpv4]

/-- Tunneled data are written into a datagram without an abort when the nonce has its size. -/
theorem safe_tunneled_iff :
    Safe (do
      pushByteU currentVersion
      pushByteU ProtoCmd.tunneledData.toInt
      pushBytesN hashipAddrSize packet.srcHip.octets
      pushBytesN hashipAddrSize packet.dstHip.octets
      pushByteU (UInt8.ofInt packet.ttl)
      pushBytesN cryptoBoxNonceBytes packet.nonceUsed
      pushVarstring packet.blob) [] (fun _ _ => True) ↔
    packet.nonceUsed.length = cryptoBoxNonceBytes := by
  have hvarstring := fun str => (noAbort_pushVarstring packet.blob).safe str
  have hhip : ∀ hip : HashipAddr, hashipAddrSize = hip.octets.length := fun hip =>
    hip.length_octets.symm
  simp only [pushByteU, pushBytesN, safe_bind, safe_modify, safe_assertThat, hvarstring, ← hhip,
    true_and, and_true]
  exact eq_comm

/-- Sending tunneled data to a peer throws exactly when they are too long to be written, or when no
address is set for the peer; a nonce of another size comes to an assertion before. -/
theorem safe_sendDataUdp_false_iff :
    Safe (peering.sendDataUdp packet) node (fun _ _ => False) ↔
      packet.nonceUsed.length = cryptoBoxNonceBytes ∧
        (packet.blob.length < uvarintLimit → peering.getPip = .none) := by
  by_cases hwrite : Writable packet
  · rw [safe_congr_run (sendDataUdp_of_writable hwrite), safe_sendDataRAWUdp_false_iff]
    rw [and_iff_right hwrite.1, imp_iff_right hwrite.2]
  · -- nothing is sent, and the writing throws unless it aborts
    have hfails : Safe (peering.sendDataUdp packet) node (fun _ _ => False) ↔
        Safe (peering.sendDataUdp packet) node (fun _ _ => True) := by
      obtain ⟨e, he⟩ := @sendDataUdp_of_not_writable peering node packet hwrite
      simp only [safe_iff, he, reduceCtorEq, false_imp_iff]
    rw [hfails, sendDataUdp, safe_bind_iff, and_iff_left fun data node' hrun =>
        absurd ((generate_eq_ok_iff_of_emits (emits_tunneled packet)).mp hrun).1 hwrite,
      generate, NoAbort.safe_bind_iff fun _ => .pure _, safe_withinState, safe_tunneled_iff]
    exact (and_iff_left_of_imp fun hnonce hblob => absurd ⟨hnonce, hblob⟩ hwrite).symm

end Sending

end Peering

namespace Tunserver

/-! ### The declared result -/

/-- Tunneled data were handed to a peer in a call that ended in the state `after`: the one datagram that was
sent in it is theirs, to the address of a peer. A socket that is not in use puts nothing on the wire; there
sending them to the peer that the tables lead to returns. -/
def HandedOver (node : Tunserver) (packet : TunneledData) (after : Tunserver) : Prop :=
  if node.udpDisabled then
    ∃ peering, routed node packet = .send peering ∧ peering.sendDataUdp packet node = .ok () after
  else
    ∃ (hip : HashipAddr) (peering : Peering), node.peer[hip]? = some peering ∧
      after.sentSince node = [(peering.getPip, tunneledOctets packet)]

/-- An exception happens when tunneled data are sent to the peer that the tables lead to. -/
def SendingThrows (node : Tunserver) (packet : TunneledData) : Prop :=
  ∃ peering e node', routed node packet = .send peering ∧
    peering.sendDataUdp packet node = .error (.throw e) node'

/-- What routing tunneled data is declared to return: true if and only if they were handed to a peer in the
call, and false when the tables lead to none, or on an exception. The three parts speak of one call: of what
it returns and of the state at its end. -/
structure RoutesTruthfully (node : Tunserver) (packet : TunneledData) (reason : RouteReason) :
    Prop where
  /-- True says that the data were handed to a peer. -/
  true_iff : (∃ node', routeTunDataToItsDestinationTop packet reason node = .ok true node') ↔
    node.HandedOver packet (finalState (routeTunDataToItsDestinationTop packet reason) node)
  /-- Without a route, or without a TTL, false is returned. -/
  false_of_no_peer : (∀ peering, routed node packet ≠ .send peering) →
    ∃ node', routeTunDataToItsDestinationTop packet reason node = .ok false node'
  /-- On an exception, false is returned. -/
  false_of_throw : node.SendingThrows packet →
    ∃ node', routeTunDataToItsDestinationTop packet reason node = .ok false node'

/-- Tunneled data can be routed without an exception from sending them, and without an assertion about the
peers that are asked when there is no route. Where the tables lead is a matter of the tables before the call
(`routed`). -/
def RouteSound (node : Tunserver) (packet : TunneledData) : Prop :=
  match routed node packet with
  | .send peering => packet.nonceUsed.length = cryptoBoxNonceBytes →
      packet.blob.length < uvarintLimit ∧ peering.getPip ≠ .none
  | .search hip => node.SearchSane hip
  | .drop => True

variable {node : Tunserver} {packet : TunneledData} {reason : RouteReason}

/-- Data for a peer: true is returned unless sending aborts. -/
private theorem routeTop_of_send {peering : Peering} (h : routed node packet = .send peering) (b : Bool) :
    (∃ node', routeTunDataToItsDestinationTop packet reason node = .ok b node') ↔
      Safe (peering.sendDataUdp packet) node (fun _ _ => True) ∧ b = true := by
  rw [routeTop_eq, h]
  exact exists_catching_eq_ok_iff

/-- Data without a route: false is returned unless asking the peers for one aborts. -/
private theorem routeTop_of_search {hip : HashipAddr} (h : routed node packet = .search hip) (b : Bool) :
    (∃ node', routeTunDataToItsDestinationTop packet reason node = .ok b node') ↔
      node.SearchSane hip ∧ b = false := by
  rw [← @safe_searchRoute_iff node hip reason ttlMaxAccepted (by decide), routeTop_eq, h,
    ← exists_catching_eq_ok_iff]
  -- no exception is left for the outer handlers
  refine exists_congr fun node' => catching_eq_ok_iff.trans (or_iff_left ?_)
  rintro ⟨e, node₁, q, hthrow, -⟩
  rw [NextPeer.deliver, catching] at hthrow
  split at hthrow
  · simp at hthrow
  · next hthrow' => exact hthrow' e node₁ hthrow

/-- Data that are dropped: false is returned. -/
private theorem routeTop_of_drop (h : routed node packet = .drop) (b : Bool) :
    (∃ node', routeTunDataToItsDestinationTop packet reason node = .ok b node') ↔ b = false := by
  rw [routeTop_eq, h]
  exact ⟨fun ⟨node', hrun⟩ => (EStateM.Result.ok.inj hrun).1.symm, fun hb => ⟨node, hb ▸ rfl⟩⟩

private theorem sentSince_self : node.sentSince node = [] :=
  sentSince_of_append (List.nil_append node.sent).symm

/-- The tables lead to peers only. -/
private theorem exists_of_routed_eq_send {peering : Peering} (h : routed node packet = .send peering) :
    ∃ hip : HashipAddr, node.peer[hip]? = some peering := by
  rw [routed] at h
  split at h
  · cases h
  · exact exists_of_nextPeer_eq_send 2 _ h

/-- Sending tunneled data to a peer that returns puts them on the wire, when the socket is in use. -/
private theorem pushSent_of_sendDataUdp_eq_ok {peering : Peering} {node' : Tunserver}
    (hon : node.udpDisabled = false) (hrun : peering.sendDataUdp packet node = .ok () node') :
    node' = node.pushSent peering.getPip (tunneledOctets packet) := by
  by_cases hwrite : Peering.Writable packet
  · rw [Peering.sendDataUdp_of_writable hwrite] at hrun
    by_cases hsend : peering.Sendable
    · rw [Peering.sendDataRAWUdp_of_sendable hsend hon] at hrun
      exact (EStateM.Result.ok.inj hrun).2.symm
    · obtain ⟨e, he⟩ := Peering.sendDataRAWUdp_of_not_sendable (tunneledOctets packet) hsend hon
      exact nomatch hrun.symm.trans he
  · obtain ⟨e, he⟩ : ∃ e, peering.sendDataUdp packet node = .error e node :=
      Peering.sendDataUdp_of_not_writable hwrite
    exact nomatch hrun.symm.trans he

/-- Sending tunneled data to a peer that fails leaves the node as it was. -/
private theorem eq_of_sendDataUdp_eq_error {peering : Peering} {e : Fault Exn} {node' : Tunserver}
    (hrun : peering.sendDataUdp packet node = .error e node') : node' = node := by
  by_cases hwrite : Peering.Writable packet
  · rw [Peering.sendDataUdp_of_writable hwrite] at hrun
    have hstate := peering.finalState_sendDataRAWUdp node (tunneledOctets packet)
    rw [finalState_of_error hrun] at hstate
    split_ifs at hstate with hsend
    · rw [Peering.sendDataRAWUdp_of_sendable hsend.1 hsend.2] at hrun
      cases hrun
    · exact hstate
  · obtain ⟨e', he⟩ : ∃ e', peering.sendDataUdp packet node = .error e' node :=
      Peering.sendDataUdp_of_not_writable hwrite
    exact (EStateM.Result.error.inj (hrun.symm.trans he)).2

/-- Tunneled data that the tables lead to a peer are handed over exactly when sending them returns. -/
private theorem handedOver_iff_of_send {peering : Peering} (h : routed node packet = .send peering) :
    node.HandedOver packet (finalState (routeTunDataToItsDestinationTop packet reason) node) ↔
      ∃ node', peering.sendDataUdp packet node = .ok () node' := by
  have hfinal : finalState (routeTunDataToItsDestinationTop packet reason) node =
      finalState (peering.sendDataUdp packet) node := by
    rw [finalState_routeTop, h]
  rw [hfinal, HandedOver]
  cases hrun : peering.sendDataUdp packet node with
  | ok u node' =>
    refine iff_of_true ?_ ⟨node', rfl⟩
    rw [finalState_of_ok hrun]
    split_ifs with hdisabled
    · exact ⟨peering, h, hrun⟩
    · obtain ⟨hip, hget⟩ := exists_of_routed_eq_send h
      have hpushed := pushSent_of_sendDataUdp_eq_ok (Bool.not_eq_true _ ▸ hdisabled) hrun
      exact ⟨hip, peering, hget, sentSince_of_append (hpushed ▸ rfl)⟩
  | error e node' =>
    refine iff_of_false ?_ fun ⟨_, hok⟩ => nomatch hok
    obtain rfl := eq_of_sendDataUdp_eq_error hrun
    rw [finalState_of_error hrun]
    split_ifs
    · rintro ⟨peering', h', hok⟩
      obtain rfl := NextPeer.send.inj (h'.symm.trans h)
      exact nomatch hok.symm.trans hrun
    · rintro ⟨_, _, -, hsent⟩
      exact nomatch sentSince_self.symm.trans hsent

/-- Tunneled data that the tables lead to no peer are not handed over: at most queries are sent. -/
private theorem not_handedOver_of_no_peer (h : ∀ peering, routed node packet ≠ .send peering) :
    ¬ node.HandedOver packet (finalState (routeTunDataToItsDestinationTop packet reason) node) := by
  rw [HandedOver]
  split_ifs
  · exact fun ⟨peering, hsend, _⟩ => h peering hsend
  · rintro ⟨hip, peering, -, hsent⟩
    have hfinal := @finalState_routeTop node packet reason
    cases hrouted : routed node packet with
    | send peering' => exact h peering' hrouted
    | drop =>
      simp only [hrouted] at hfinal
      rw [hfinal] at hsent
      exact nomatch sentSince_self.symm.trans hsent
    | search target =>
      simp only [hrouted] at hfinal
      obtain ⟨m, hstate, -⟩ := finalState_searchRoute target reason ttlMaxAccepted node
      rw [hfinal, sentSince_of_append (congrArg Tunserver.sent hstate)] at hsent
      have hmem := hsent.symm ▸ List.mem_singleton_self (peering.getPip, tunneledOctets packet)
      obtain ⟨p, -, heq⟩ := List.mem_map.mp (List.mem_reverse.mp hmem)
      -- a query is another command
      have hcmd := congrArg (fun d : Ip46Addr × Bytes => datagramCmd d.2) heq
      simp only [datagramCmd_queryOctets, tunneledOctets, datagramCmd_cmdOctets] at hcmd
      cases hcmd

/-- When the tables lead to a peer, the result is as declared exactly when sending does not throw. -/
theorem routesTruthfully_of_send {peering : Peering} (h : routed node packet = .send peering) :
    RoutesTruthfully node packet reason ↔
      ¬ Safe (peering.sendDataUdp packet) node fun _ _ => False := by
  have htop := @routeTop_of_send node packet reason peering h
  rw [safe_false_iff]
  constructor
  · rintro hdeclared ⟨e, node', hthrow⟩
    exact nomatch ((htop false).mp (hdeclared.false_of_throw ⟨peering, e, node', h, hthrow⟩)).2
  · intro hno
    refine ⟨((htop true).trans ?_).trans (handedOver_iff_of_send h).symm,
      fun hnone => absurd h (hnone peering), ?_⟩
    · -- of the three ways to end, a throw is ruled out, and an abort hands nothing over
      rw [and_iff_left rfl, safe_true_iff]
      constructor
      · intro hsafe
        rcases hrun : peering.sendDataUdp packet node with ⟨u, node'⟩ | ⟨e | _, node'⟩
        · exact ⟨node', rfl⟩
        · exact absurd ⟨e, node', hrun⟩ hno
        · exact absurd hrun (hsafe node')
      · rintro ⟨node', hrun⟩ node'' habort
        exact nomatch hrun.symm.trans habort
    · rintro ⟨peering', e, node', h', hthrow⟩
      obtain rfl := NextPeer.send.inj (h'.symm.trans h)
      exact absurd ⟨e, node', hthrow⟩ hno

/-- When the tables lead to no peer, the result is as declared exactly when false is returned. -/
private theorem routesTruthfully_of_no_peer (h : ∀ peering, routed node packet ≠ .send peering) :
    RoutesTruthfully node packet reason ↔
      ∃ node', routeTunDataToItsDestinationTop packet reason node = .ok false node' := by
  constructor
  · exact fun hdeclared => hdeclared.false_of_no_peer h
  · rintro ⟨node', hfalse⟩
    refine ⟨iff_of_false ?_ (not_handedOver_of_no_peer h), fun _ => ⟨node', hfalse⟩,
      fun _ => ⟨node', hfalse⟩⟩
    exact fun ⟨node'', htrue⟩ => nomatch hfalse.symm.trans htrue

/-- Routing returns what it is declared to return exactly when sending does not throw, and when asking for a
route does not abort. Both conditions are about the tables and the data before the call. Where sending to the
peer throws, nothing was handed over, and true is returned. -/
theorem routesTruthfully_iff :
    RoutesTruthfully node packet reason ↔ node.RouteSound packet := by
  unfold RouteSound
  cases hrouted : routed node packet with
  | send peering =>
    rw [routesTruthfully_of_send hrouted, Peering.safe_sendDataUdp_false_iff]
    tauto
  | search hip =>
    have hnone : ∀ peering, routed node packet ≠ .send peering := by simp [hrouted]
    exact (routesTruthfully_of_no_peer hnone).trans
      ((routeTop_of_search hrouted false).trans (and_iff_left rfl))
  | drop =>
    have hnone : ∀ peering, routed node packet ≠ .send peering := by simp [hrouted]
    exact (routesTruthfully_of_no_peer hnone).trans
      ((routeTop_of_drop hrouted false).trans (iff_of_true rfl trivial))

/-- Data for a peer without an address. -/
theorem not_routesTruthfully_none :
    ¬ RoutesTruthfully
      { Tunserver.new MultikeysPAIR.new MultikeysPub.new 0 [] 0 with
        peer := (∅ : Std.ExtTreeMap HashipAddr Peering).insert 0
          (Peering.new { peeringAddr := .none, hashipAddr := 0 }) }
      { srcHip := 0, dstHip := 0, ttl := 5, nonceUsed := List.replicate 24 0, blob := [] }
      ⟨0, .routeOwnPacket⟩ := by
  rw [routesTruthfully_of_send (routed_of_peer (by decide) Std.ExtTreeMap.getElem?_insert_self),
    not_not]
  exact Peering.safe_sendDataUdp_false_iff.mpr ⟨by decide, fun _ => rfl⟩

end Tunserver

end Galaxy42
