import Galaxy42.Tunserver.Queries

/-!
# Tunneled data on their way

What a node sends because of tunneled data. Data for someone else go to one peer at most, with a TTL that
is lowered and limited (`sent_of_forward`), so they are forwarded a few times at most, whatever the routes
are (`length_le_of_forwards`). Data for the node itself lead to nothing when it has a tunnel for the sender
(`sent_of_receive_with_tunnel`); without one, empty data are sent back with the TTL that was received,
which can start the same at the other side (`receive_lowers_iff`).

A chain of datagrams is a list in which each one leads to the next: some node, in whatever state it is in,
gets the one and sends the other because of it (`Forwards`). Nothing connects the states of the nodes, so the
chain may go through a network in any run, and come back to a node when it has changed. That data are
forwarded six times at most is then an induction on the TTL, which each step lowers, and which the first one
limits to 5.

The routing below that ends as well: looking up a route calls itself two times at most (`routeDetail_three`),
whatever the tables contain. The two facts together are what is claimed of forwarding
(`forwarding_terminates`).

For data for the node itself, whether the TTL goes down is decided by where they would be routed back to
(`NextPeer.SendsLower`). It goes down only when nothing is sent there, or when a search begins with queries,
which have a TTL of 5 whatever the data had.
-/

namespace Galaxy42

open Toolkit Program TrivialSerialize Tunserver

variable {lib : CryptoLib} {node : Tunserver}

/-! ### What routing sends -/

section Routed

variable {packet : TunneledData} {reason : RouteReason}

/-- Data are only sent to who is in the table of peers. -/
theorem exists_of_nextPeer_eq_send {peering : Peering} :
    ∀ n hip, node.nextPeer n hip = .send peering →
      ∃ hip' : HashipAddr, node.peer[hip']? = some peering := by
  intro n
  induction n with
  | zero =>
    intro hip h
    rw [nextPeer] at h
    cases hget : node.peer[hip]? with
    | none => simp [hget] at h
    | some peering' =>
      rw [hget] at h
      obtain rfl := NextPeer.send.inj h
      exact ⟨hip, hget⟩
  | succ n ih =>
    intro hip h
    rw [nextPeer] at h
    cases hget : node.peer[hip]? with
    | some peering' =>
      rw [hget] at h
      obtain rfl := NextPeer.send.inj h
      exact ⟨hip, hget⟩
    | none =>
      rw [hget] at h
      cases hroute : node.routeTo hip with
      | some route =>
        rw [hroute] at h
        exact ih route.nexthop h
      | none => simp [hroute] at h

/-- However it ends, routing data sends nothing, or the data to one peer, or queries. -/
theorem sent_routeTop (packet : TunneledData) (reason : RouteReason) (node : Tunserver) :
    ∃ new, (finalState (routeTunDataToItsDestinationTop packet reason) node).sent = new ++ node.sent ∧
      (new = [] ∨
        (∃ (hip : HashipAddr) (peering : Peering), 0 < packet.ttl ∧ Peering.Writable packet ∧
          node.peer[hip]? = some peering ∧ new = [(peering.getPip, tunneledOctets packet)]) ∨
        0 < packet.ttl ∧ ∀ d ∈ new, datagramCmd d.2 = some .findhipQuery) := by
  rw [finalState_routeTop]
  by_cases httl : packet.ttl ≤ 0
  · rw [routed, if_pos (.inl httl)]
    exact ⟨[], rfl, .inl rfl⟩
  cases hrouted : routed node packet with
  | drop => exact ⟨[], rfl, .inl rfl⟩
  | send peering =>
    obtain hsame | ⟨hwrite, hpush⟩ := finalState_sendDataUdp peering packet node
    · exact ⟨[], congrArg Tunserver.sent hsame, .inl rfl⟩
    · rw [routed] at hrouted
      split at hrouted
      · cases hrouted
      · obtain ⟨hip, hget⟩ := exists_of_nextPeer_eq_send 2 _ hrouted
        exact ⟨[(peering.getPip, tunneledOctets packet)], congrArg Tunserver.sent hpush,
          .inr (.inl ⟨hip, peering, not_le.mp httl, hwrite, hget, rfl⟩)⟩
  | search hip =>
    obtain ⟨m, hstate, -⟩ := finalState_searchRoute hip reason ttlMaxAccepted node
    refine ⟨_, congrArg Tunserver.sent hstate, .inr (.inr ⟨not_le.mp httl, fun d hd => ?_⟩)⟩
    obtain ⟨p, -, rfl⟩ := List.mem_map.mp (List.mem_reverse.mp hd)
    exact datagramCmd_queryOctets _ _

end Routed

/-! ### Data for someone else -/

/-- The datagrams with tunneled data among others. -/
def tunneledIn (sent : List (Ip46Addr × Bytes)) : List (Ip46Addr × Bytes) :=
  sent.filter fun d => datagramCmd d.2 = some .tunneledData

theorem forwardTtl_le (ttl : ℤ) : forwardTtl ttl ≤ min (ttl - 1) 5 := by
  have hmax : ttlMaxAccepted = 5 := rfl
  unfold forwardTtl
  dsimp only
  split <;> omega

section Forward

variable {senderPip : Ip46Addr} {buf : Bytes} {sender : Peering} {packet : TunneledData}

/-- Forwarding sends the data to one peer at most, and only with a TTL that is positive. -/
theorem sent_of_forward (lib : CryptoLib)
    (h : node.acceptedPacket senderPip buf = some (sender, packet)) (hother : packet.dstHip ≠ node.myHip) :
    ∃ new, (finalState (handleDatagram lib senderPip buf) node).sent = new ++ node.sent ∧
      (tunneledIn new = [] ∨ ∃ (hip : HashipAddr) (peering : Peering), 0 < forwardTtl packet.ttl ∧
        node.peer[hip]? = some peering ∧ tunneledIn new =
          [(peering.getPip, tunneledOctets { packet with ttl := forwardTtl packet.ttl })]) ∧
      (packet.ttl - 1 ≤ 0 → new = []) := by
  rw [finalState_congr (handleDatagram_of_packet h), if_neg hother, forwardTunneledData]
  by_cases hpoints : sender.limitPoints < 0
  · rw [if_pos hpoints]
    exact ⟨[], rfl, .inl rfl, fun _ => rfl⟩
  rw [if_neg hpoints, finalState_bind_pure]
  obtain ⟨new, hsent, hnew⟩ := sent_routeTop { packet with ttl := forwardTtl packet.ttl }
    { hisAddr := packet.srcHip, searchMode := .routeOtherPacket } node
  have hle := forwardTtl_le packet.ttl
  refine ⟨new, hsent, ?_, fun hlow => ?_⟩
  · obtain rfl | ⟨hip, peering, hpos, -, hget, rfl⟩ | ⟨-, hquery⟩ := hnew
    · exact .inl rfl
    · exact .inr ⟨hip, peering, hpos, hget, rfl⟩
    · refine .inl (List.filter_eq_nil_iff.mpr fun d hd htunneled => ?_)
      have hcmd := of_decide_eq_true htunneled
      rw [hquery d hd] at hcmd
      cases hcmd
  · obtain rfl | ⟨hip, peering, hpos, -⟩ | ⟨hpos, -⟩ := hnew
    · rfl
    · dsimp only at hpos
      omega
    · dsimp only at hpos
      omega

end Forward

/-- The addresses and the TTL of tunneled data are read as they were written, whatever data follow. -/
theorem fields_of_popTunneledData {packet read : TunneledData}
    (h : returned (within (parserOfBuffer (tunneledOctets packet)) popTunneledData : Node _) node =
      some read) :
    read.srcHip = packet.srcHip ∧ read.dstHip = packet.dstHip ∧
      read.ttl = (UInt8.ofInt packet.ttl).toNat := by
  obtain ⟨node', hrun⟩ := returned_eq_some_iff.mp h
  obtain ⟨⟨c, hpop⟩, -⟩ := within_eq_ok_iff.mp hrun
  let rest : Bytes := packet.nonceUsed ++ varstringOctets packet.blob
  have hskip : Reads (skipBytesN 2) [currentVersion, ProtoCmd.tunneledData.toInt] () :=
    reads_skipBytesN [currentVersion, ProtoCmd.tunneledData.toInt]
  have hstart : parserOfBuffer (tunneledOctets packet) =
      Cursor.between [] ([currentVersion, ProtoCmd.tunneledData.toInt] ++ (packet.srcHip.octets ++
        (packet.dstHip.octets ++ ([UInt8.ofInt packet.ttl] ++ rest)))) :=
    rfl
  rw [hstart, popTunneledData, bind_of_ok (hskip _ _), bind_of_ok (reads_popHip packet.srcHip _ _),
    bind_of_ok (reads_popHip packet.dstHip _ _), bind_of_ok (reads_popByteU _ _ _)] at hpop
  obtain ⟨_, _, -, hpop⟩ := bind_eq_ok_iff.mp hpop
  obtain ⟨_, _, -, hpop⟩ := bind_eq_ok_iff.mp hpop
  cases hpop
  exact ⟨rfl, rfl, rfl⟩

/-- Data that are accepted are from a peer, and were read. -/
theorem of_acceptedPacket {senderPip : Ip46Addr} {buf : Bytes} {sender : Peering}
    {packet : TunneledData} (h : node.acceptedPacket senderPip buf = some (sender, packet)) :
    datagramCmd buf = some .tunneledData ∧ node.senderOf senderPip = some sender ∧
      returned (within (parserOfBuffer buf) popTunneledData : Node _) node = some packet := by
  unfold acceptedPacket at h
  split at h
  next hcmd =>
    simp only [Option.bind_eq_bind, Option.bind_eq_some_iff, Option.pure_def, Option.some.injEq,
      Prod.mk.injEq] at h
    obtain ⟨_, hsender, _, hparse, rfl, rfl⟩ := h
    exact ⟨hcmd, hsender, hparse⟩
  · cases h

/-- A node in some state gets data for someone else in one datagram, and sends them in another one. It is a
relation between the octets of two datagrams, so that chains of it are chains through any nodes. -/
def Forwards (lib : CryptoLib) (data data' : Bytes) : Prop :=
  ∃ (node : Tunserver) (senderPip addr : Ip46Addr) (sender : Peering) (packet : TunneledData),
    node.acceptedPacket senderPip data = some (sender, packet) ∧ packet.dstHip ≠ node.myHip ∧
      (addr, data') ∈
        tunneledIn ((finalState ((Event.datagram senderPip data).run lib) node).sentSince node)

/-- What is forwarded are the data that were accepted, with a TTL of 5 at most, which is lower. -/
theorem exists_of_forwards {data data' : Bytes} (h : Forwards lib data data') :
    ∃ (node : Tunserver) (senderPip : Ip46Addr) (sender : Peering) (packet : TunneledData) (ttl : ℤ),
      node.acceptedPacket senderPip data = some (sender, packet) ∧ 0 < ttl ∧
        ttl ≤ min (packet.ttl - 1) 5 ∧ data' = tunneledOctets { packet with ttl } := by
  obtain ⟨node, senderPip, addr, sender, packet, haccept, hother, hmem⟩ := h
  obtain ⟨new, hsent, hnew, -⟩ := sent_of_forward lib haccept hother
  rw [finalState_run, Event.handle, sentSince_of_append hsent] at hmem
  obtain hnil | ⟨hip, peering, hpos, -, hone⟩ := hnew
  · rw [hnil] at hmem
    cases hmem
  · rw [hone] at hmem
    exact ⟨node, senderPip, sender, packet, forwardTtl packet.ttl, haccept, hpos,
      forwardTtl_le packet.ttl, (Prod.mk.inj (List.mem_singleton.mp hmem)).2⟩

/-- What is forwarded has a TTL of 5 at most, which is lower than before. -/
theorem forwarded {data data' : Bytes} (h : Forwards lib data data') :
    ∃ packet : TunneledData, data' = tunneledOctets packet ∧ 0 < packet.ttl ∧ packet.ttl ≤ 5 ∧
      ∀ packet' : TunneledData, data = tunneledOctets packet' → 0 ≤ packet'.ttl → packet'.ttl < 256 →
        packet.ttl < packet'.ttl := by
  obtain ⟨node, senderPip, sender, packet, ttl, haccept, hpos, hle, rfl⟩ := exists_of_forwards h
  refine ⟨{ packet with ttl }, rfl, hpos, by dsimp only; omega, ?_⟩
  rintro packet' rfl h0 hlt
  have hread := (fields_of_popTunneledData (of_acceptedPacket haccept).2.2).2.2
  rw [toNat_ofInt_of_lt h0 hlt] at hread
  dsimp only
  omega

/-- Data with a small TTL are forwarded fewer times than that. -/
private theorem length_lt_of_forwards (rest : List Bytes) :
    ∀ packet : TunneledData, 0 < packet.ttl → packet.ttl ≤ 5 →
      List.IsChain (Forwards lib) (tunneledOctets packet :: rest) → (rest.length : ℤ) < packet.ttl := by
  induction rest with
  | nil => exact fun packet hpos _ _ => hpos
  | cons data rest ih =>
    intro packet hpos hle hchain
    obtain ⟨hforward, hrest⟩ := List.isChain_cons_cons.mp hchain
    obtain ⟨packet', rfl, hpos', hle', hlower⟩ := forwarded hforward
    have hlt := hlower packet rfl (by omega) (by omega)
    have hlen := ih packet' hpos' hle' hrest
    rw [List.length_cons]
    push_cast
    omega

/-- Data are in six datagrams at most, whoever forwards them in whatever state. -/
theorem length_le_of_forwards {chain : List Bytes} (h : List.IsChain (Forwards lib) chain) :
    chain.length ≤ 6 := by
  match chain with
  | [] => simp
  | [_] => simp
  | data :: data' :: rest =>
    obtain ⟨hforward, hrest⟩ := List.isChain_cons_cons.mp h
    obtain ⟨packet, rfl, hpos, hle, -⟩ := forwarded hforward
    have hlen := length_lt_of_forwards rest packet hpos hle hrest
    simp only [List.length_cons]
    omega

/-- The call to itself that would come after the third one is never made. -/
private theorem routeDetail_three (bottom : HashipAddr → ℕ → Node Bool) (packet : TunneledData)
    (reason : RouteReason) (hip : HashipAddr) (node : Tunserver) :
    routeDetail bottom packet reason 3 hip 0 node =
      routeTunDataToItsDestinationDetail packet hip reason 0 node := by
  rw [routeTunDataToItsDestinationDetail]
  by_cases httl : packet.ttl ≤ 0
  · simp only [routeDetail, routeDetailStep, if_pos httl]
  by_cases hpeer : node.peer.size = 0
  · simp only [routeDetail, routeDetailStep, if_neg httl, bind_of_ok (get_apply node), if_pos hpeer]
  rw [routeDetail_eq _ (not_le.mp httl) hpeer 2 0 3 hip rfl (by decide),
    routeDetail_eq _ (not_le.mp httl) hpeer 2 0 3 hip rfl (by decide)]

/-- Forwarding terminates: data for someone else go to one peer at most, with a TTL that is positive, lower
than before and at most 5, and nothing is sent when it would not be; there is no fourth call in choosing the
peer; and data are in six datagrams at most. The nodes on the way may be in any states, and their routes may
lead around in a circle. -/
theorem forwarding_terminates (lib : CryptoLib) :
    (∀ (node : Tunserver) senderPip buf sender (packet : TunneledData),
      node.acceptedPacket senderPip buf = some (sender, packet) → packet.dstHip ≠ node.myHip →
        let new := (finalState ((Event.datagram senderPip buf).run lib) node).sentSince node
        (tunneledIn new = [] ∨ ∃ (hip : HashipAddr) (peering : Peering) (ttl : ℤ),
          0 < ttl ∧ ttl ≤ min (packet.ttl - 1) 5 ∧ node.peer[hip]? = some peering ∧
            tunneledIn new = [(peering.getPip, tunneledOctets { packet with ttl := ttl })]) ∧
        (packet.ttl - 1 ≤ 0 → new = [])) ∧
    (∀ bottom packet reason hip node, routeDetail bottom packet reason 3 hip 0 node =
      routeTunDataToItsDestinationDetail packet hip reason 0 node) ∧
    ∀ chain, List.IsChain (Forwards lib) chain → chain.length ≤ 6 := by
  refine ⟨fun node senderPip buf sender packet haccept hother => ?_,
    fun bottom packet reason hip node => routeDetail_three bottom packet reason hip node,
    fun chain hchain => length_le_of_forwards hchain⟩
  obtain ⟨new, hsent, hnew, hlow⟩ := sent_of_forward lib haccept hother
  rw [finalState_run, Event.handle, sentSince_of_append hsent]
  refine ⟨hnew.imp_right ?_, hlow⟩
  rintro ⟨hip, peering, hpos, hget, hone⟩
  exact ⟨hip, peering, _, hpos, forwardTtl_le packet.ttl, hget, hone⟩

/-- Data between two nodes, with a dummy nonce. -/
def samplePacket (src dst : UInt8) (ttl : ℤ) (blob : Bytes) : TunneledData where
  srcHip := sampleHip src
  dstHip := sampleHip dst
  ttl
  nonceUsed := List.replicate 24 0
  blob

/-- A node with two peers forwards data of one of them to the other one, until their TTL is used up. -/
theorem forwarding_terminates_example :
    let new (ttl : ℤ) := (betweenPeers.after
      (.datagram (samplePip 2) (tunneledOctets (samplePacket 2 3 ttl [7])))).sentSince betweenPeers
    new 5 = [(samplePip 3, tunneledOctets (samplePacket 2 3 4 [7]))] ∧ new 1 = [] := by
  intro new
  have hread : (betweenPeers.acceptedPacket (samplePip 2) (tunneledOctets (samplePacket 2 3 1 [7]))).map
      (fun r => (r.2.dstHip, r.2.ttl)) = some (sampleHip 3, 1) := by decide +kernel
  obtain ⟨⟨sender, read⟩, haccept, heq⟩ := Option.map_eq_some_iff.mp hread
  obtain ⟨hdst, httl⟩ := Prod.mk.inj heq
  have hother : read.dstHip ≠ betweenPeers.myHip := by
    rw [hdst]
    decide +kernel
  obtain ⟨-, hlow⟩ := (forwarding_terminates CryptoLib.sample).1 betweenPeers (samplePip 2)
    (tunneledOctets (samplePacket 2 3 1 [7])) sender read haccept hother
  exact ⟨by decide +kernel, hlow (by rw [httl]; decide)⟩

/-! ### Data for the node itself -/

/-- The TTL in a datagram with tunneled data or with a query. -/
def emittedTtl (data : Bytes) : Option UInt8 :=
  match datagramCmd data with
  | some .tunneledData => data[2 + hashipAddrSize + hashipAddrSize]?
  | some .findhipQuery => queryTtl data
  | _ => none

private theorem emittedTtl_tunneledOctets (packet : TunneledData) :
    emittedTtl (tunneledOctets packet) = some (UInt8.ofInt packet.ttl) := by
  have hsrc := packet.srcHip.length_octets
  have hdst := packet.dstHip.length_octets
  have hcmd : datagramCmd (tunneledOctets packet) = some .tunneledData := datagramCmd_cmdOctets _ _
  rw [emittedTtl, hcmd]
  change (tunneledBin packet)[hashipAddrSize + hashipAddrSize]? = _
  rw [tunneledBin, List.getElem?_append_right (by rw [hsrc]; decide), hsrc,
    List.getElem?_append_right (by rw [hdst]; decide), hdst]
  rfl

private theorem emittedTtl_queryOctets (hip : HashipAddr) (ttl : UInt8) :
    emittedTtl (queryOctets hip ttl) = some ttl := by
  rw [emittedTtl, datagramCmd_queryOctets]
  exact queryTtl_queryOctets hip ttl

section Receive

variable {senderPip : Ip46Addr} {buf : Bytes} {sender : Peering} {packet : TunneledData}

/-- The TTL of tunneled data is an octet. -/
theorem ttl_of_acceptedPacket (h : node.acceptedPacket senderPip buf = some (sender, packet)) :
    0 ≤ packet.ttl ∧ packet.ttl < 256 := by
  obtain ⟨node', hrun⟩ := returned_eq_some_iff.mp (of_acceptedPacket h).2.2
  obtain ⟨⟨c, hpop⟩, -⟩ := within_eq_ok_iff.mp hrun
  obtain ⟨_, _, -, hpop⟩ := bind_eq_ok_iff.mp hpop
  obtain ⟨_, _, -, hpop⟩ := bind_eq_ok_iff.mp hpop
  obtain ⟨_, _, -, hpop⟩ := bind_eq_ok_iff.mp hpop
  obtain ⟨ttl, _, -, hpop⟩ := bind_eq_ok_iff.mp hpop
  obtain ⟨_, _, -, hpop⟩ := bind_eq_ok_iff.mp hpop
  obtain ⟨_, _, -, hpop⟩ := bind_eq_ok_iff.mp hpop
  cases hpop
  have hlt := ttl.toNat_lt
  exact ⟨Int.natCast_nonneg _, by dsimp only; omega⟩

/-- With a tunnel for the sender, data for the node itself lead to no datagram. -/
theorem sent_of_receive_with_tunnel (h : node.acceptedPacket senderPip buf = some (sender, packet))
    (hmine : packet.dstHip = node.myHip) (htunnel : packet.srcHip ∈ node.tunnel) :
    (finalState (handleDatagram lib senderPip buf) node).sent = node.sent := by
  obtain ⟨writtenToTun, hstate⟩ :
      ∃ writtenToTun, finalState (handleDatagram lib senderPip buf) node = { node with writtenToTun } :=
    finalState_of_receive_with_tunnel h hmine htunnel
  rw [hstate]

/-- Nothing is sent with the TTL of the data when they go there: nothing can be sent to the peer, nobody
can be asked for a route, or a query is sent, with a TTL of 5 that is lower. -/
def NextPeer.SendsLower (node : Tunserver) (ttl : ℤ) : NextPeer → Prop
  | .send peering => ¬ (peering.Sendable ∧ node.udpDisabled = false)
  | .search hip => node.askedPeers hip ttlMaxAccepted = [] ∨ 5 < ttl
  | .drop => True

instance {ttl : ℤ} : DecidablePred (NextPeer.SendsLower node ttl)
  | .send peering => inferInstanceAs (Decidable (¬ (peering.Sendable ∧ node.udpDisabled = false)))
  | .search hip => inferInstanceAs (Decidable (node.askedPeers hip ttlMaxAccepted = [] ∨ 5 < ttl))
  | .drop => inferInstanceAs (Decidable True)

/-- A node answers data for itself with a lower TTL, or not at all: it has a tunnel for the sender, or what
it sends back is not sent, or leads to queries with a lower TTL. -/
def Tunserver.AnswersLower (node : Tunserver) (packet : TunneledData) : Prop :=
  packet.srcHip ∈ node.tunnel ∨ (routed node (sendBack packet [])).SendsLower node packet.ttl

instance {packet : TunneledData} : Decidable (node.AnswersLower packet) :=
  inferInstanceAs (Decidable (_ ∨ _))

theorem toNat_ofInt_five : (UInt8.ofInt (max 5 ttlMaxAccepted)).toNat = 5 := rfl

/-- Data that are delivered are sent back with the TTL of the data, or queries are sent with a TTL of 5. -/
theorem lowers_deliver_iff {packet : TunneledData} (h0 : 0 ≤ packet.ttl) (hlt : packet.ttl < 256)
    {nonce : Bytes} (hnonce : nonce.length = cryptoBoxNonceBytes) (node : Tunserver) (next : NextPeer) :
    (∀ d ∈ (match next with
        | .send peering => finalState (peering.sendDataUdp (sendBack packet nonce)) node
        | .search hip => finalState (searchRoute hip ownReason ttlMaxAccepted) node
        | .drop => node : Tunserver).sentSince node,
      ∃ ttl, emittedTtl d.2 = some ttl ∧ (ttl.toNat : ℤ) < packet.ttl) ↔
      next.SendsLower node packet.ttl := by
  have hnone : node.sentSince node = [] := sentSince_of_append (List.nil_append _).symm
  cases next with
  | drop =>
    dsimp only
    rw [hnone]
    exact iff_of_true (fun _ hd => by cases hd) trivial
  | send peering =>
    have hwrite : Peering.Writable (sendBack packet nonce) := ⟨hnonce, show 0 < uvarintLimit by decide⟩
    dsimp only
    rw [finalState_congr (Peering.sendDataUdp_of_writable hwrite), Peering.finalState_sendDataRAWUdp]
    split
    next hsend =>
      have hpush : (node.pushSent peering.getPip (tunneledOctets (sendBack packet nonce))).sent =
          [(peering.getPip, tunneledOctets (sendBack packet nonce))] ++ node.sent := rfl
      rw [sentSince_of_append hpush]
      -- What is sent back has the TTL that was received.
      refine iff_of_false (fun hlower => ?_) (not_not.mpr hsend)
      obtain ⟨ttl, hemitted, hless⟩ := hlower _ List.mem_cons_self
      rw [emittedTtl_tunneledOctets] at hemitted
      obtain rfl := Option.some.inj hemitted
      exact absurd (toNat_ofInt_of_lt h0 hlt) hless.ne
    next hsend =>
      rw [hnone]
      exact iff_of_true (fun _ hd => by cases hd) hsend
  | search hip =>
    obtain ⟨m, hstate, -⟩ := finalState_searchRoute hip ownReason ttlMaxAccepted node
    have hsent : ((node.sentToAll (node.askedPeers hip ttlMaxAccepted)
        (queryOctets hip (UInt8.ofInt (max 5 ttlMaxAccepted)))).withSearches m).sent =
      ((node.askedPeers hip ttlMaxAccepted).map fun p => (p.getPip,
        queryOctets hip (UInt8.ofInt (max 5 ttlMaxAccepted)))).reverse ++ node.sent := rfl
    dsimp only
    rw [hstate, sentSince_of_append hsent]
    simp only [List.mem_reverse, List.forall_mem_map, emittedTtl_queryOctets, Option.some.injEq,
      exists_eq_left', toNat_ofInt_five, NextPeer.SendsLower]
    -- All queries have the TTL 5, so one of them decides.
    constructor
    · intro hlower
      cases hasked : node.askedPeers hip ttlMaxAccepted with
      | nil => exact .inl rfl
      | cons p peers => exact .inr (hlower p (by rw [hasked]; exact List.mem_cons_self))
    · rintro (hnobody | hlower) p hp
      · rw [hnobody] at hp
        cases hp
      · exact hlower

/-- What is sent because of data for the node itself has a lower TTL exactly when nothing is sent, or only
queries are. -/
theorem lowers_iff (haccept : node.acceptedPacket senderPip buf = some (sender, packet))
    (hmine : packet.dstHip = node.myHip) :
    (∀ d ∈ (finalState ((Event.datagram senderPip buf).run lib) node).sentSince node,
      ∃ ttl, emittedTtl d.2 = some ttl ∧ (ttl.toNat : ℤ) < packet.ttl) ↔ node.AnswersLower packet := by
  obtain ⟨h0, hlt⟩ := ttl_of_acceptedPacket haccept
  rw [finalState_run, Event.handle, Tunserver.AnswersLower]
  by_cases htunnel : packet.srcHip ∈ node.tunnel
  · have hsame : (finalState (handleDatagram lib senderPip buf) node).sent = [] ++ node.sent :=
      sent_of_receive_with_tunnel haccept hmine htunnel
    rw [sentSince_of_append hsame]
    exact iff_of_true (fun _ hd => by cases hd) (.inl htunnel)
  obtain ⟨nonce, hnonce, hstate⟩ :
      ∃ nonce : Bytes, nonce.length = cryptoBoxNonceBytes ∧
        finalState (handleDatagram lib senderPip buf) node = _ :=
    finalState_of_receive_without_tunnel haccept hmine htunnel
  rw [finalState_routeTop] at hstate
  rw [hstate, or_iff_right htunnel]
  exact lowers_deliver_iff h0 hlt hnonce { node with draws := node.draws + 1 }
    (routed node (sendBack packet []))

/-- A node that answers with a lower TTL sends no data because of data for itself. -/
private theorem tunneledIn_of_answersLower
    (haccept : node.acceptedPacket senderPip buf = some (sender, packet))
    (hmine : packet.dstHip = node.myHip) (hlower : node.AnswersLower packet) :
    tunneledIn ((finalState ((Event.datagram senderPip buf).run lib) node).sentSince node) = [] := by
  have hall : ∀ d ∈ (finalState ((Event.datagram senderPip buf).run lib) node).sentSince node,
      ∃ ttl, emittedTtl d.2 = some ttl ∧ (ttl.toNat : ℤ) < packet.ttl :=
    (lowers_iff haccept hmine).mpr hlower
  obtain ⟨h0, hlt⟩ := ttl_of_acceptedPacket haccept
  rw [finalState_run, Event.handle] at hall ⊢
  by_cases htunnel : packet.srcHip ∈ node.tunnel
  · have hsame : (finalState (handleDatagram lib senderPip buf) node).sent = [] ++ node.sent :=
      sent_of_receive_with_tunnel haccept hmine htunnel
    rw [sentSince_of_append hsame]
    rfl
  obtain ⟨nonce, -, hstate⟩ :
      ∃ nonce : Bytes, nonce.length = cryptoBoxNonceBytes ∧
        finalState (handleDatagram lib senderPip buf) node = _ :=
    finalState_of_receive_without_tunnel haccept hmine htunnel
  obtain ⟨new, hrouted, hnew⟩ := sent_routeTop (sendBack packet nonce) ownReason
    { node with draws := node.draws + 1 }
  have hsent : (finalState (handleDatagram lib senderPip buf) node).sent = new ++ node.sent :=
    (congrArg Tunserver.sent hstate).trans hrouted
  rw [sentSince_of_append hsent] at hall ⊢
  obtain rfl | ⟨hip, peering, -, -, -, rfl⟩ | ⟨-, hquery⟩ := hnew
  · rfl
  · -- Data that are sent back have the TTL that was received.
    obtain ⟨ttl, hemitted, hless⟩ := hall _ List.mem_cons_self
    rw [emittedTtl_tunneledOctets] at hemitted
    obtain rfl := Option.some.inj hemitted
    exact absurd (toNat_ofInt_of_lt h0 hlt) hless.ne
  · refine List.filter_eq_nil_iff.mpr fun d hd htunneled => ?_
    have hcmd := of_decide_eq_true htunneled
    rw [hquery d hd] at hcmd
    cases hcmd

end Receive

/-- A node in some state gets data in one datagram, and sends data in another one; if the data are for the
node itself, it is one that answers with a lower TTL. Nothing is said of how the states of the nodes in such a
chain are related. -/
def LeadsTo (lib : CryptoLib) (data data' : Bytes) : Prop :=
  ∃ (node : Tunserver) (senderPip addr : Ip46Addr) (sender : Peering) (packet : TunneledData),
    node.acceptedPacket senderPip data = some (sender, packet) ∧
      (packet.dstHip = node.myHip → node.AnswersLower packet) ∧
      (addr, data') ∈
        tunneledIn ((finalState ((Event.datagram senderPip data).run lib) node).sentSince node)

/-- Then the data were forwarded. -/
private theorem LeadsTo.forwards {data data' : Bytes} (h : LeadsTo lib data data') :
    Forwards lib data data' := by
  obtain ⟨node, senderPip, addr, sender, packet, haccept, hlower, hmem⟩ := h
  refine ⟨node, senderPip, addr, sender, packet, haccept, fun hmine => ?_, hmem⟩
  rw [tunneledIn_of_answersLower haccept hmine (hlower hmine)] at hmem
  cases hmem

/-- What a node sends because of data for itself has a lower TTL than the data exactly when it has a tunnel
for the sender, sends nothing back, or only sends queries with a TTL that is lower. Among such nodes data lead
to data a few times at most. The condition is on the node before the datagram is handled, and on where its
tables would route an answer to. -/
theorem receive_lowers_iff (lib : CryptoLib) :
    (∀ (node : Tunserver) senderPip buf sender (packet : TunneledData),
      node.acceptedPacket senderPip buf = some (sender, packet) → packet.dstHip = node.myHip →
        ((∀ d ∈ (finalState ((Event.datagram senderPip buf).run lib) node).sentSince node,
          ∃ ttl, emittedTtl d.2 = some ttl ∧ (ttl.toNat : ℤ) < packet.ttl) ↔
            node.AnswersLower packet)) ∧
    ∀ chain, List.IsChain (LeadsTo lib) chain → chain.length ≤ 6 :=
  ⟨fun _ _ _ _ _ haccept hmine => lowers_iff haccept hmine,
    fun _ hchain => length_le_of_forwards (hchain.imp fun _ _ => LeadsTo.forwards)⟩

/-- A node without a tunnel for the sender, who is no peer, looks for a route to it, with a query that has
a lower TTL than the data. -/
theorem receive_lowers_iff_example :
    let packet := samplePacket 9 1 6 [7]
    let new := (betweenPeers.after (.datagram (samplePip 2) (tunneledOctets packet))).sentSince
      betweenPeers
    new = [(samplePip 3, queryOctets (sampleHip 9) 5), (samplePip 2, queryOctets (sampleHip 9) 5)] ∧
      ∀ d ∈ new, ∃ ttl, emittedTtl d.2 = some ttl ∧ (ttl.toNat : ℤ) < packet.ttl := by
  intro packet new
  have hread : (betweenPeers.acceptedPacket (samplePip 2) (tunneledOctets packet)).map
      (fun r => (r.2.dstHip, r.2.ttl, decide (betweenPeers.AnswersLower r.2))) =
        some (sampleHip 1, 6, true) := by decide +kernel
  obtain ⟨⟨sender, read⟩, haccept, heq⟩ := Option.map_eq_some_iff.mp hread
  obtain ⟨hdst, httl, hlower⟩ : read.dstHip = sampleHip 1 ∧ read.ttl = 6 ∧
      decide (betweenPeers.AnswersLower read) = true := by simpa using heq
  have hless := ((receive_lowers_iff CryptoLib.sample).1 betweenPeers (samplePip 2)
    (tunneledOctets packet) sender read haccept hdst).mpr (of_decide_eq_true hlower)
  rw [httl] at hless
  exact ⟨by decide +kernel, hless⟩

/-- Two nodes without tunnels for each other send empty data back and forth: what a peer sends is sent back
to it with the same TTL. -/
theorem not_receive_lowers :
    ¬ ∀ lib node senderPip buf sender (packet : TunneledData), Reached lib (fun _ _ => True) node →
      node.acceptedPacket senderPip buf = some (sender, packet) → packet.dstHip = node.myHip →
        ∀ d ∈ (finalState ((Event.datagram senderPip buf).run lib) node).sentSince node,
          ∃ ttl, emittedTtl d.2 = some ttl ∧ (ttl.toNat : ℤ) < packet.ttl := by
  intro h
  have hreached : Reached CryptoLib.sample (fun _ _ => True) betweenPeers :=
    ((reached_sampleNode 1).after trivial (by decide +kernel)).after trivial (by decide +kernel)
  have hread : (betweenPeers.acceptedPacket (samplePip 2) (tunneledOctets (samplePacket 2 1 5 []))).map
      (fun r => (r.2.dstHip, r.2.ttl)) = some (sampleHip 1, 5) := by decide +kernel
  have hsent : ((betweenPeers.after (.datagram (samplePip 2)
      (tunneledOctets (samplePacket 2 1 5 [])))).sentSince betweenPeers).map
        (fun d => (d.1, emittedTtl d.2)) = [(samplePip 2, some 5)] := by decide +kernel
  obtain ⟨⟨sender, packet⟩, haccept, heq⟩ := Option.map_eq_some_iff.mp hread
  obtain ⟨hdst, httl⟩ := Prod.mk.inj heq
  have hmem : (samplePip 2, some 5) ∈ ((betweenPeers.after (.datagram (samplePip 2)
      (tunneledOctets (samplePacket 2 1 5 [])))).sentSince betweenPeers).map
        (fun d => (d.1, emittedTtl d.2)) := hsent ▸ List.mem_cons_self
  obtain ⟨d, hd, hpair⟩ := List.mem_map.mp hmem
  obtain ⟨ttl, hemitted, hless⟩ := h CryptoLib.sample betweenPeers (samplePip 2)
    (tunneledOctets (samplePacket 2 1 5 [])) sender packet hreached haccept hdst d hd
  rw [(Prod.mk.inj hpair).2] at hemitted
  obtain rfl := Option.some.inj hemitted
  rw [httl] at hless
  exact absurd hless (by decide)

end Galaxy42
