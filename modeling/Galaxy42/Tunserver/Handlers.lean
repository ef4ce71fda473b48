import Galaxy42.Crypto.SerializedKeys
import Galaxy42.Tunserver.EventLoop

/-!
# What the handlers do

A datagram is understood when its version and its command are; then it brings tunneled data, a query, a
reply or a greeting, or it changes nothing (`finalState_handleDatagram_of_none`). What is read from it is
read without changing the node, so each handler is its reading, followed by what it does with the fields.
A query is answered with the route that is found for it (`Tunserver.routeFor`), or starts a search.

For each command there is a function from the node and the datagram to what is accepted of it (`acceptedPacket`,
`acceptedQuery`, `acceptedReply`, `greeting`), which is `none` when the sender is not known, when the datagram
cannot be read, or when it is dropped by a check. They are the conditions in which all later modules speak
of what a node gets, so that no proof there goes through a handler again.

What does not change a node is collected first, one lemma for each function that reads. Then reading can be
cut off a program (`eq_ok_of_returned`): when it returns, the program goes on with the fields in the state it
was in, and when it does not, the program ends there with an exception. So the state at the end of a handler,
which is all that is left when its exceptions are caught, is that of its last part
(`finalState_handleDatagram_of_query` and the others).

A lookup of a route stores what it finds, and has three ends: a route, a search, and the exception for a peer
whose key is not known (`getRoute_of_keyless`).
-/

namespace Galaxy42

open Toolkit Program TrivialSerialize Tunserver

/-! ### What does not change a node -/

section Stateless

variable {I : Tunserver → Prop} {lib : CryptoLib}

theorem preserves_generate (gen : Generator Unit) : Preserves I (generate gen : Node Bytes) :=
  .bind .withinState fun _ => .pure _

theorem preserves_vectorAt {τ : Type} (xs : List τ) (i : ℕ) :
    Preserves I (vectorAt xs i : Node τ) := by
  unfold vectorAt
  split
  · exact .pure _
  · exact .raise _

private theorem preserves_parseString {α : Type} (dataStr : Bytes) (pops : Parser α) :
    Preserves I (parseString dataStr pops : Node α) :=
  .bind (.bind (.checkThat _ _) fun _ => .pure _) fun _ => .within

private theorem preserves_stringSubstr (str : Bytes) (pos : ℕ) :
    Preserves I (stringSubstr str pos : Node Bytes) :=
  .bind (.checkThat _ _) fun _ => .pure _

theorem preserves_multikeysOfBin (data : Bytes) :
    Preserves I (MultikeysPub.ofBin data : Node MultikeysPub) :=
  .bind .withinState fun _ => .pure _

theorem preserves_getIpv6StringBin (pubkey : HashipPubkey) :
    Preserves I (pubkey.getIpv6StringBin lib : Node Bytes) :=
  .bind .within fun _ => .bind (.fromExcept _) fun _ => .pure _

private theorem preserves_multiSignVerifyType (signs : List Bytes) (msg : Bytes) (pubkeys : MultikeysPub)
    (signType : CryptoSystemType) :
    Preserves I (Multisign.multiSignVerifyType lib signs msg pubkeys signType : Node Unit) := by
  refine .bind (.assertThat _) fun _ => .ite (.pure _) ?_
  cases signType with
  | ed25519 =>
    refine .forM fun i _ => .bind (preserves_vectorAt _ _) fun _ => .catching ?_ fun e h hh => ?_
    · exact .bind (preserves_vectorAt _ _) fun _ => .fromExcept _
    · split at hh
      · obtain rfl := Option.some.inj hh
        exact .raise _
      · cases hh
  | ntruSign =>
    refine .ite (.forM fun i _ => ?_) (.raise _)
    refine .bind (preserves_vectorAt _ _) fun _ => .bind (preserves_vectorAt _ _) fun _ =>
      .bind ?_ fun _ => .checkThat _ _
    exact .bind (.checkThat _ _) fun _ => .bind (preserves_parseString _ _) fun _ =>
      .bind (preserves_vectorAt _ _) fun _ => .bind (preserves_stringSubstr _ _) fun _ => .pure _
  | _ => exact .raise _

theorem preserves_multiSignVerify (allSignatures : Multisign) (msg : Bytes)
    (pubkeys : MultikeysPub) :
    Preserves I (Multisign.multiSignVerify lib allSignatures msg pubkeys : Node Unit) := by
  refine .bind (.checkThat _ _) fun _ => .forM fun sys _ => ?_
  unfold Multisign.verifySystem
  split
  · exact .pure _
  · refine .bind (.checkThat _ _) fun _ => .ite ?_ (.pure _)
    rw [Multisign.getSignatureVec_eq, pure_bind]
    exact preserves_multiSignVerifyType _ _ _ _

theorem preserves_boxAb (ct : TunnelUse) (msg : Bytes) :
    Preserves I (ct.boxAb lib msg : Node _) := by
  refine .bind ?_ fun _ => .pure _
  unfold CStream.box
  split
  · exact .abort
  · exact .bind (.fromExcept _) fun _ => .bind (.fromExcept _) fun _ => .pure _

private theorem preserves_unboxAbNonce (ct : TunnelUse) (msg nonce : Bytes) :
    Preserves I (ct.unboxAbNonce lib msg nonce : Node Bytes) := by
  unfold CryptoTunnel.unboxAbNonce CStream.unboxNonce
  split
  · exact .abort
  · exact .fromExcept _

private theorem preserves_findPeerIn (ip : Ip46Addr) (peers : List (HashipAddr × Peering)) :
    Preserves I (findPeerIn ip peers) := by
  induction peers with
  | nil => exact .raise _
  | cons v peers ih =>
    refine .bind (.bind (.checkThat _ _) fun _ => .bind (.checkThat _ _) fun _ => .pure _)
      fun same => .ite (.pure _) ih

theorem preserves_findPeer (ip : Ip46Addr) : Preserves I (findPeerBySenderPeeringAddr ip) :=
  .get_bind fun node h => preserves_findPeerIn ip _ node h

theorem preserves_parseFindhipQuery (cmdData : Bytes) :
    Preserves I (parseFindhipQuery cmdData : Node (HashipAddr × ℤ)) :=
  .bind (.checkThat _ _) fun _ => .bind (.fromExcept _) fun _ =>
    .bind (preserves_stringSubstr _ _) fun _ => .bind (preserves_vectorAt _ _) fun _ => .pure _

theorem preserves_parseTunIpSrcDst (buff : Bytes) :
    Preserves I (parseTunIpSrcDst buff : Node (HashipAddr × HashipAddr)) :=
  .bind (.checkThat _ _) fun _ => .bind (.checkThat _ _) fun _ => .bind (.fromExcept _) fun _ =>
    .bind (.fromExcept _) fun _ => .pure _

theorem preserves_checkIpProtocol (data : Bytes) : Preserves I (checkIpProtocol data) :=
  .bind (.bind (preserves_vectorAt _ _) fun _ => .pure _) fun _ => .get_bind fun _ h => h

theorem preserves_checkPacketSourceAddress (addressExpected : HashipAddr) (packet : Bytes) :
    Preserves I (checkPacketSourceAddress addressExpected packet : Node Bool) :=
  .bind (.checkThat _ _) fun _ => .bind (.checkThat _ _) fun _ => .bind (.assertThat _) fun _ =>
    .bind (.assertThat _) fun _ => .pure _

theorem preserves_readHis (senderPip : Ip46Addr) (binHisIDCPub binHisIDIPub binHisIDIIDCSig : Bytes) :
    Preserves I (readHis lib senderPip binHisIDCPub binHisIDIPub binHisIDIIDCSig) := by
  refine .get_bind fun node h => ?_
  refine Preserves.bind (preserves_multikeysOfBin _) (fun hisIDI => ?_) node h
  refine .bind (.bind .withinState fun _ => .pure _) fun sig =>
    .bind (preserves_multiSignVerify _ _ _) fun _ => .bind (preserves_multikeysOfBin _) fun _ =>
      .bind (preserves_getIpv6StringBin _) fun _ => .bind (.fromExcept _) fun _ => .pure _

end Stateless

/-! ### What a datagram brings -/

/-- The command of a datagram, when it is understood. A version that is newer than that of the node is not
understood, and neither is an octet that is no command. -/
def datagramCmd : Bytes → Option ProtoCmd
  | protoVersion :: cmdByte :: _ =>
    if currentVersion < protoVersion then none else (ProtoCmd.ofInt cmdByte.toInt8).toOption
  | _ => none

namespace Tunserver

/-- The peer that a datagram is from. The peers are compared in the order of the table. -/
def senderOf (node : Tunserver) (senderPip : Ip46Addr) : Option Peering :=
  returned (findPeerBySenderPeeringAddr senderPip) node

/-- The tunneled data that a datagram brings, with the peer they are from. It is `none` when the datagram is
no such command, its sender is no peer, or it cannot be read. -/
def acceptedPacket (node : Tunserver) (senderPip : Ip46Addr) (buf : Bytes) :
    Option (Peering × TunneledData) :=
  if datagramCmd buf = some .tunneledData then do
    let sender ← node.senderOf senderPip
    let packet ← returned (within (parserOfBuffer buf) popTunneledData : Node _) node
    return (sender, packet)
  else
    none

/-- The reply that a datagram brings, with the peer it is from, unless it is dropped. One whose TTL is too low
is dropped. -/
def acceptedReply (node : Tunserver) (senderPip : Ip46Addr) (buf : Bytes) :
    Option (Peering × FindhipReply) :=
  if datagramCmd buf = some .findhipReply then do
    let sender ← node.senderOf senderPip
    let reply ← returned (within (parserOfBuffer (buf.drop 2)) popFindhipReply : Node _) node
    if reply.ttl < 1 then none else some (sender, reply)
  else
    none

/-- The route that a reply teaches. It leads over the peer that sent the reply, and its cost is taken as it
comes. -/
def repliedRoute (node : Tunserver) (sender : Peering) (reply : FindhipReply) : RouteInfo :=
  { nexthop := sender.getHip, pubkey := reply.pubkey.setIpv6Prefix node.ipv6Prefix, cost := reply.cost }

/-- The query that a datagram brings, with the peer it is from, unless it is dropped. One whose TTL is too low
is dropped. -/
def acceptedQuery (node : Tunserver) (senderPip : Ip46Addr) (buf : Bytes) :
    Option (Peering × HashipAddr × ℤ) :=
  if datagramCmd buf = some .findhipQuery then do
    let sender ← node.senderOf senderPip
    let query ← returned (parseFindhipQuery (buf.drop 2) : Node _) node
    if query.2 < 1 then none else some (sender, query)
  else
    none

/-- The route to a peer whose key is known. It is made anew at each lookup, and is not used when another route
is stored. -/
def directRouteTo (node : Tunserver) (dst : HashipAddr) : Option RouteInfo :=
  node.peer[dst]?.bind fun peering => peering.getPub.map (peerRoute peering)

/-- The lookup of a peer whose key is known. -/
theorem getRoute_of_directRouteTo {node : Tunserver} {dst : HashipAddr} {route : RouteInfo}
    (h : node.directRouteTo dst = some route) {reason : RouteReason} {startSearch : Bool}
    {searchTtl : ℤ} : getRouteOrMaybeSearch dst reason startSearch searchTtl node =
      .ok ((node.routeTo dst).getD route) (node.learnRoute dst route) := by
  obtain ⟨peering, hpeer, hmap⟩ := Option.bind_eq_some_iff.mp h
  obtain ⟨pubkey, hpub, rfl⟩ := Option.map_eq_some_iff.mp hmap
  exact getRoute_of_peer hpeer hpub

/-- Whom a greeting is from, and his key, when its signature is good. A greeting is accepted from everybody,
so there need be no peer with the address it comes from. -/
def greeting (lib : CryptoLib) (node : Tunserver) (senderPip : Ip46Addr) (buf : Bytes) :
    Option (PeeringReference × HashipPubkey) :=
  if datagramCmd buf = some .publicHi then do
    let bins ← returned (within (parserOfBuffer (buf.drop 2)) popPublicHi : Node _) node
    returned (readHis lib senderPip bins.1 bins.2.1 bins.2.2) node
  else
    none

/-- The node with other tunnels, and more draws. All else is as before. -/
def withTunnels (node : Tunserver) (tunnel : Std.ExtTreeMap HashipAddr TunnelUse) (draws : ℕ) :
    Tunserver :=
  { node with tunnel, draws }

end Tunserver

section Datagram

variable {lib : CryptoLib} {node : Tunserver} {senderPip : Ip46Addr} {buf : Bytes}

/-- A datagram is handled as its command. -/
theorem handleDatagram_of_cmd {cmd : ProtoCmd} (h : datagramCmd buf = some cmd) :
    handleDatagram lib senderPip buf node = handleCmd lib senderPip cmd buf node := by
  match buf with
  | [] => cases h
  | [_] => cases h
  | protoVersion :: cmdByte :: bin =>
    by_cases hver : currentVersion < protoVersion
    · rw [datagramCmd, if_pos hver] at h
      cases h
    · rw [datagramCmd, if_neg hver] at h
      rw [handleDatagram, bind_of_ok (a := ()) (checkThat_eq_ok_iff.mpr ⟨hver, rfl⟩)]
      cases hcmd : ProtoCmd.ofInt cmdByte.toInt8 with
      | ok cmd' =>
        rw [hcmd] at h
        obtain rfl : cmd' = cmd := Option.some.inj h
        rfl
      | error e =>
        rw [hcmd] at h
        cases h

/-- A datagram that is not understood changes nothing. -/
private theorem finalState_handleDatagram_of_no_cmd (h : datagramCmd buf = none) :
    finalState (handleDatagram lib senderPip buf) node = node := by
  match buf with
  | [] => rfl
  | [_] => rfl
  | protoVersion :: cmdByte :: bin =>
    by_cases hver : currentVersion < protoVersion
    · simp [finalState, handleDatagram, bind_apply, checkThat_apply, hver]
    · rw [datagramCmd, if_neg hver] at h
      rw [handleDatagram, finalState_bind_of_ok (a := ()) (checkThat_eq_ok_iff.mpr ⟨hver, rfl⟩)]
      cases hcmd : ProtoCmd.ofInt cmdByte.toInt8 with
      | ok cmd' =>
        rw [hcmd] at h
        cases h
      | error e => rfl

/-- Reading the fields of a datagram changes nothing. -/
theorem within_of_returned {σ α : Type} {s₀ : σ} {p : Program Exn σ α} {a : α}
    (h : returned (within s₀ p : Node α) node = some a) :
    (within s₀ p : Node α) node = .ok a node := by
  obtain ⟨node', hrun⟩ := returned_eq_some_iff.mp h
  rwa [← (within_eq_ok_iff.mp hrun).2] at hrun

/-- What cannot be read changes nothing either. -/
theorem exists_error_of_not_returned {α : Type} {p : Node α}
    (hp : ∀ I : Tunserver → Prop, Preserves I p) (h : returned p node = none) :
    ∃ e, p node = .error e node := by
  have hstate : finalState p node = node := hp (fun node' => node' = node) node rfl
  cases hrun : p node with
  | ok a node' => simp [returned, hrun] at h
  | error e node' =>
    rw [finalState_of_error hrun] at hstate
    exact ⟨e, by rw [hstate]⟩

/-- What is read without changing the node is read in the state it was. -/
theorem eq_ok_of_returned {α : Type} {p : Node α} {a : α}
    (hp : ∀ I : Tunserver → Prop, Preserves I p) (h : returned p node = some a) :
    p node = .ok a node := by
  obtain ⟨node', hrun⟩ := returned_eq_some_iff.mp h
  have hstate : finalState p node = node := hp (fun node' => node' = node) node rfl
  rw [finalState_of_ok hrun] at hstate
  rwa [hstate] at hrun

/-- Setting up a tunnel changes nothing but the tunnels, and draws. -/
theorem finalState_addTunnelToPubkey (lib : CryptoLib) (pubkey : HashipPubkey) (node : Tunserver) :
    ∃ tunnel draws, finalState (addTunnelToPubkey lib pubkey) node = node.withTunnels tunnel draws := by
  let J : Tunserver → Prop := fun node' => ∃ tunnel draws, node' = node.withTunnels tunnel draws
  have hpres : Preserves J (addTunnelToPubkey lib pubkey) := by
    refine .bind (.bind .within fun _ => .bind (.fromExcept _) fun _ => .pure _) fun addr =>
      .bind (.fromExcept _) fun hip => .get_bind fun node' h => ?_
    split
    · exact h
    · have hcrypto : Preserves J (crypto (TunnelUse.new lib node'.myIDC pubkey)) := by
        refine .zoom fun draws node'' h'' => ?_
        obtain ⟨tunnel, draws', rfl⟩ := h''
        exact ⟨tunnel, draws, rfl⟩
      refine hcrypto.bind (fun ct => .modify fun node'' h'' => ?_) node' h
      obtain ⟨tunnel, draws', rfl⟩ := h''
      exact ⟨tunnel.insert hip ct, draws', rfl⟩
  exact hpres node ⟨node.tunnel, node.draws, rfl⟩

section Peer

variable {sender : Peering}

theorem findPeer_of_senderOf (h : node.senderOf senderPip = some sender) :
    findPeerBySenderPeeringAddr senderPip node = .ok sender node :=
  eq_ok_of_returned (fun _ => preserves_findPeer senderPip) h

/-- Tunneled data that are accepted are for this node, or to be forwarded. -/
theorem handleDatagram_of_packet {packet : TunneledData}
    (h : node.acceptedPacket senderPip buf = some (sender, packet)) :
    handleDatagram lib senderPip buf node =
      (if packet.dstHip = node.myHip then receiveTunneledData lib packet
        else forwardTunneledData sender packet) node := by
  unfold acceptedPacket at h
  split at h
  next hcmd =>
    simp only [Option.bind_eq_bind, Option.bind_eq_some_iff, Option.pure_def, Option.some.injEq,
      Prod.mk.injEq] at h
    obtain ⟨_, hsender, _, hparse, rfl, rfl⟩ := h
    rw [handleDatagram_of_cmd hcmd]
    refine (bind_of_ok (findPeer_of_senderOf hsender)).trans ?_
    exact (bind_of_ok (within_of_returned hparse)).trans (bind_of_ok (get_apply node))
  · cases h

/-- A query that is accepted is answered. -/
private theorem handleDatagram_of_query {hip : HashipAddr} {ttl : ℤ}
    (h : node.acceptedQuery senderPip buf = some (sender, hip, ttl)) :
    handleDatagram lib senderPip buf node =
      catching (answerQuery senderPip sender hip ttl) (fun _ => some (pure ())) node := by
  unfold acceptedQuery at h
  split at h
  next hcmd =>
    simp only [Option.bind_eq_bind, Option.bind_eq_some_iff] at h
    obtain ⟨sender', hsender, query, hparse, hquery⟩ := h
    split at hquery
    · cases hquery
    next httl =>
      obtain ⟨rfl, rfl⟩ : sender' = sender ∧ query = (hip, ttl) := by simpa using hquery
      have hread := eq_ok_of_returned (fun _ => preserves_parseFindhipQuery (buf.drop 2)) hparse
      rw [handleDatagram_of_cmd hcmd]
      refine (bind_of_ok (findPeer_of_senderOf hsender)).trans ?_
      refine (bind_of_ok hread).trans ?_
      have hnot : ¬ ttl < 1 := httl
      simp only [hnot, if_false]
  · cases h

/-- A reply that is accepted sets up a tunnel, and then teaches a route. -/
theorem handleDatagram_of_reply {reply : FindhipReply}
    (h : node.acceptedReply senderPip buf = some (sender, reply)) :
    handleDatagram lib senderPip buf node =
      (addTunnelToPubkey lib (node.repliedRoute sender reply).pubkey >>= fun _ =>
        discard (addRouteInfoAndReturn reply.goalHip (node.repliedRoute sender reply))) node := by
  unfold acceptedReply at h
  split at h
  next hcmd =>
    simp only [Option.bind_eq_bind, Option.bind_eq_some_iff] at h
    obtain ⟨sender', hsender, reply', hparse, hreply⟩ := h
    split at hreply
    · cases hreply
    next httl =>
      obtain ⟨rfl, rfl⟩ : sender' = sender ∧ reply' = reply := by simpa using hreply
      rw [handleDatagram_of_cmd hcmd]
      refine (bind_of_ok (findPeer_of_senderOf hsender)).trans ?_
      refine (bind_of_ok (within_of_returned hparse)).trans ?_
      rw [if_neg httl]
      rfl
  · cases h

/-- A reply that is accepted teaches its route once the tunnel is set up, which changes nothing but the
tunnels, and draws. -/
theorem handleDatagram_of_learned {reply : FindhipReply} {node' : Tunserver} {u : Unit}
    (h : node.acceptedReply senderPip buf = some (sender, reply))
    (hrun : addTunnelToPubkey lib (node.repliedRoute sender reply).pubkey node = .ok u node') :
    (∃ tunnel draws, node' = node.withTunnels tunnel draws) ∧
      handleDatagram lib senderPip buf node =
        .ok () (node'.learnRoute reply.goalHip (node.repliedRoute sender reply)) := by
  obtain ⟨tunnel, draws, htunnel⟩ :=
    finalState_addTunnelToPubkey lib (node.repliedRoute sender reply).pubkey node
  rw [finalState_of_ok hrun] at htunnel
  refine ⟨⟨tunnel, draws, htunnel⟩, ?_⟩
  rw [handleDatagram_of_reply h, bind_of_ok hrun]
  exact map_eq_ok_iff.mpr ⟨_, addRouteInfoAndReturn_eq, rfl⟩

/-- A greeting that is accepted adds the peer, and then sets up a tunnel for a key. -/
theorem finalState_handleDatagram_of_greeting {peerRef : PeeringReference} {pubkey : HashipPubkey}
    (h : greeting lib node senderPip buf = some (peerRef, pubkey)) :
    ∃ binHisIDIPub, finalState (handleDatagram lib senderPip buf) node =
      finalState (addPeerAppendPubkey lib peerRef pubkey >>= fun _ => get >>= fun node =>
        MultikeysPub.ofBin binHisIDIPub >>= fun hisPubkey =>
          addTunnelToPubkey lib (hisPubkey.setIpv6Prefix node.ipv6Prefix)) node := by
  unfold greeting at h
  split at h
  next hcmd =>
    simp only [Option.bind_eq_bind, Option.bind_eq_some_iff] at h
    obtain ⟨⟨binHisIDCPub, binHisIDIPub, binHisIDIIDCSig⟩, hparse, hread⟩ := h
    have hreadHis := eq_ok_of_returned (fun _ => preserves_readHis _ _ _ _) hread
    refine ⟨binHisIDIPub, ?_⟩
    have hhandle : handleDatagram lib senderPip buf node =
        catching (meet lib senderPip binHisIDCPub binHisIDIPub binHisIDIIDCSig) (fun e =>
          if e.isInvalidArgument then some (pure ()) else none) node := by
      rw [handleDatagram_of_cmd hcmd]
      change handlePublicHi lib senderPip (buf.drop 2) node = _
      rw [handlePublicHi, bind_of_ok (within_of_returned hparse)]
    rw [finalState, hhandle]
    refine (finalState_catching_pure fun e q hq => ⟨(), ?_⟩).trans ?_
    · split at hq
      · exact (Option.some.inj hq).symm
      · cases hq
    · rw [meet, finalState_bind_of_ok hreadHis]
  · cases h

end Peer

/-- The command of a peer changes nothing when the peer is not known, or it is not accepted. -/
private theorem finalState_handlePeerCmd_of_none {cmd : ProtoCmd} (hcmd : datagramCmd buf = some cmd)
    (hpacket : node.acceptedPacket senderPip buf = none)
    (hquery : node.acceptedQuery senderPip buf = none)
    (hreply : node.acceptedReply senderPip buf = none) :
    finalState (handlePeerCmd lib senderPip cmd buf) node = node := by
  cases hsender : node.senderOf senderPip with
  | none =>
    obtain ⟨e, he⟩ := exists_error_of_not_returned (fun _ => preserves_findPeer senderPip) hsender
    exact finalState_bind_of_error he
  | some sender =>
    rw [handlePeerCmd, finalState_bind_of_ok (findPeer_of_senderOf hsender)]
    -- Either the fields cannot be read, or the TTL is too low.
    cases cmd with
    | tunneledData =>
      have hparse : returned (within (parserOfBuffer buf) popTunneledData : Node _) node = none := by
        refine Option.eq_none_iff_forall_ne_some.mpr ?_
        simpa [acceptedPacket, hcmd, hsender] using hpacket
      obtain ⟨e, he⟩ := exists_error_of_not_returned (fun _ => Preserves.within) hparse
      exact finalState_bind_of_error he
    | findhipQuery =>
      cases hparse : returned (parseFindhipQuery (buf.drop 2) : Node _) node with
      | none =>
        obtain ⟨e, he⟩ := exists_error_of_not_returned
          (fun _ => preserves_parseFindhipQuery (buf.drop 2)) hparse
        exact finalState_bind_of_error he
      | some query =>
        have httl : query.2 < 1 := by simpa [acceptedQuery, hcmd, hsender, hparse] using hquery
        refine (finalState_bind_of_ok (eq_ok_of_returned
          (fun _ => preserves_parseFindhipQuery (buf.drop 2)) hparse)).trans ?_
        simp only [httl, if_true]
        rfl
    | findhipReply =>
      cases hparse : returned (within (parserOfBuffer (buf.drop 2)) popFindhipReply : Node _) node with
      | none =>
        obtain ⟨e, he⟩ := exists_error_of_not_returned (fun _ => Preserves.within) hparse
        exact finalState_bind_of_error he
      | some reply =>
        have httl : reply.ttl < 1 := by simpa [acceptedReply, hcmd, hsender, hparse] using hreply
        refine (finalState_bind_of_ok (within_of_returned hparse)).trans ?_
        simp only [httl, if_true]
        rfl
    | _ => rfl

/-- A command that is not taken from unknown peers is looked at with the peer it is from. -/
theorem handleCmd_of_peer {cmd : ProtoCmd} (h : cmd.isValidFromUnknownPeer = false) :
    handleCmd lib senderPip cmd buf = handlePeerCmd lib senderPip cmd buf :=
  if_neg (by simp [h])

/-- A datagram that brings none of these changes nothing. The exceptions of the handlers are caught in the
loop, and what they were is not looked at. -/
theorem finalState_handleDatagram_of_none (hpacket : node.acceptedPacket senderPip buf = none)
    (hquery : node.acceptedQuery senderPip buf = none)
    (hreply : node.acceptedReply senderPip buf = none)
    (hgreeting : greeting lib node senderPip buf = none) :
    finalState (handleDatagram lib senderPip buf) node = node := by
  cases hcmd : datagramCmd buf with
  | none => exact finalState_handleDatagram_of_no_cmd hcmd
  | some cmd =>
    rw [finalState, handleDatagram_of_cmd hcmd]
    cases cmd with
    | publicPingRequest => rfl
    | publicPingReply => rfl
    | publicHi =>
      cases hparse : returned (within (parserOfBuffer (buf.drop 2)) popPublicHi : Node _) node with
      | none =>
        obtain ⟨e, he⟩ := exists_error_of_not_returned (fun _ => Preserves.within) hparse
        exact finalState_bind_of_error he
      | some bins =>
        simp only [greeting, hcmd, if_true, hparse, Option.bind_eq_bind, Option.bind_some] at hgreeting
        obtain ⟨e, he⟩ := exists_error_of_not_returned (fun _ => preserves_readHis _ _ _ _) hgreeting
        refine (finalState_bind_of_ok (within_of_returned hparse)).trans ?_
        refine (finalState_catching_pure fun e q hq => ⟨(), ?_⟩).trans (finalState_bind_of_error he)
        split at hq
        · exact (Option.some.inj hq).symm
        · cases hq
    | _ =>
      rw [handleCmd_of_peer rfl]
      exact finalState_handlePeerCmd_of_none hcmd hpacket hquery hreply

end Datagram

variable {lib : CryptoLib} {node : Tunserver}

/-! ### Lookups -/

namespace Tunserver

theorem mem_peer_iff {hip : HashipAddr} : hip ∈ node.peer ↔ (node.peer[hip]?).isSome :=
  Std.ExtTreeMap.mem_iff_isSome_getElem?

/-- The route that a lookup of a destination finds. It is a function of the tables, and asks nobody. To a peer
without a key there is none, even if one is stored. -/
def routeFor (node : Tunserver) (dst : HashipAddr) : Option RouteInfo :=
  match node.directRouteTo dst with
  | some route => some ((node.routeTo dst).getD route)
  | none => if dst ∈ node.peer then none else node.routeTo dst

/-- A route that is found is stored, if it was not. -/
theorem getRoute_of_routeFor {dst : HashipAddr} {route : RouteInfo}
    (h : node.routeFor dst = some route) {reason : RouteReason} {startSearch : Bool} {searchTtl : ℤ} :
    getRouteOrMaybeSearch dst reason startSearch searchTtl node =
      .ok route (node.learnRoute dst route) := by
  unfold routeFor at h
  cases hdirect : node.directRouteTo dst with
  | some direct =>
    rw [hdirect] at h
    obtain rfl := Option.some.inj h
    rw [getRoute_of_directRouteTo hdirect]
    cases hknown : node.routeTo dst with
    | none => rfl
    | some known =>
      rw [learnRoute_of_known hknown]
      exact congrArg (EStateM.Result.ok known) (learnRoute_of_known hknown).symm
  | none =>
    rw [hdirect] at h
    dsimp only at h
    split at h
    · cases h
    next hpeer =>
      rw [getRoute_of_route (Std.ExtTreeMap.getElem?_eq_none hpeer) h, learnRoute_of_known h]

/-- For who is not a peer the route is looked up. -/
theorem routeFor_of_not_peer {dst : HashipAddr} (h : dst ∉ node.peer) :
    node.routeFor dst = node.routeTo dst := by
  simp [routeFor, directRouteTo, h]

/-- A route that is stored is the only one that is found. -/
theorem eq_of_routeFor_of_known {dst : HashipAddr} {route known : RouteInfo}
    (h : node.routeFor dst = some route) (hknown : node.routeTo dst = some known) : route = known := by
  unfold routeFor at h
  split at h
  · rw [hknown] at h
    exact (Option.some.inj h).symm
  · split at h
    · cases h
    · rw [hknown] at h
      exact (Option.some.inj h).symm

theorem cost_of_directRouteTo {dst : HashipAddr} {route : RouteInfo}
    (h : node.directRouteTo dst = some route) : route.cost = 1 := by
  obtain ⟨peering, -, hmap⟩ := Option.bind_eq_some_iff.mp h
  obtain ⟨pubkey, -, rfl⟩ := Option.map_eq_some_iff.mp hmap
  rfl

/-- A route that is found is the one that is stored then. -/
theorem routeTo_learnRoute_of_routeFor {dst : HashipAddr} {route : RouteInfo}
    (h : node.routeFor dst = some route) : (node.learnRoute dst route).routeTo dst = some route := by
  rw [routeTo_learnRoute, if_pos rfl]
  cases hknown : node.routeTo dst with
  | none => rfl
  | some known =>
    obtain rfl := eq_of_routeFor_of_known h hknown
    rfl

/-- Of a peer without a key no route is found, and nothing is done about that. -/
theorem getRoute_of_keyless {dst : HashipAddr} (hpeer : dst ∈ node.peer)
    (h : node.routeFor dst = none) {reason : RouteReason} {startSearch : Bool} {searchTtl : ℤ} :
    ∃ e, getRouteOrMaybeSearch dst reason startSearch searchTtl node = .error (.throw e) node := by
  obtain ⟨peering, hget⟩ := Option.isSome_iff_exists.mp (mem_peer_iff.mp hpeer)
  cases hpub : peering.getPub with
  | none => exact ⟨_, getRoute_of_peer_without_pubkey hget hpub⟩
  | some pubkey => simp [routeFor, directRouteTo, hget, hpub] at h

/-- A lookup that finds no route ends with an exception. -/
theorem getRoute_of_not_routeFor {dst : HashipAddr} (h : node.routeFor dst = none) {reason : RouteReason}
    {searchTtl : ℤ} :
    ∃ e node', getRouteOrMaybeSearch dst reason true searchTtl node = .error e node' := by
  by_cases hpeer : dst ∈ node.peer
  · obtain ⟨e, he⟩ := getRoute_of_keyless hpeer h
    exact ⟨.throw e, node, he⟩
  · rw [routeFor_of_not_peer hpeer] at h
    rw [getRoute_of_no_route (Std.ExtTreeMap.getElem?_eq_none hpeer) h]
    cases hrun : searchRoute dst reason searchTtl node with
    | ok u node' => exact ⟨_, node', bind_of_ok hrun⟩
    | error e node' => exact ⟨e, node', bind_of_error hrun⟩

end Tunserver

/-! ### Replies -/

theorem emits_reply (ttl cost : UInt8) (hip : HashipAddr) (pubkey : Bytes) :
    Emits (do
        pushByteU ttl
        pushByteU semicolon
        pushByteU cost
        pushByteU semicolon
        pushBytesN hashipAddrSize hip.octets
        pushByteU semicolon
        pushVarstring pubkey
        pushByteU semicolon) (pubkey.length < uvarintLimit) (replyBin ttl cost hip pubkey) := by
  refine ((emits_pushByteU _).seq ((emits_pushByteU _).seq ((emits_pushByteU _).seq
    ((emits_pushByteU _).seq ((emits_pushBytesN _ _).seq ((emits_pushByteU _).seq
    ((emits_pushVarstring _).seq (emits_pushByteU _)))))))).congr ?_ fun _ => ?_
  · simp
  · simp [replyBin]

/-- A route that can be told to others: its key can be written. -/
def RouteInfo.Tellable (route : RouteInfo) : Prop :=
  (route.pubkey.HasLetters ∧ ∀ sys, MultiCryptoStrings.KeysFit (route.pubkey.cryptolistsGeneral sys)) ∧
    route.pubkey.serializedOctets.length < uvarintLimit

/-- The reply that tells a route. -/
def toldOctets (ttl : ℤ) (hip : HashipAddr) (route : RouteInfo) : Bytes :=
  replyOctets (UInt8.ofInt ttl) (UInt8.ofNat route.cost) hip route.pubkey.serializedOctets

section Answer

variable {senderPip : Ip46Addr} {sender : Peering} {hip : HashipAddr} {ttl : ℤ} {route : RouteInfo}
  {node' : Tunserver}

/-- A route that was found and can be told is sent to the peer who asked. -/
theorem finalState_answerQuery_of_tellable (htell : route.Tellable)
    (hget : getRouteOrMaybeSearch hip { hisAddr := sender.getHip, searchMode := .helpFind } true
      (ttl - 1) node = .ok route node') :
    finalState (answerQuery senderPip sender hip ttl) node =
      if sender.Sendable ∧ node'.udpDisabled = false then
        node'.pushSent sender.getPip (toldOctets ttl hip route)
      else node' := by
  let J : Tunserver → Prop := fun node₁ =>
    node₁ = finalState (sender.sendDataRAWUdp (toldOctets ttl hip route)) node'
  have hkey : (route.pubkey.serializeBin : Node Bytes) node' =
      .ok route.pubkey.serializedOctets node' :=
    MultiCryptoStrings.serializeBin_eq_ok_iff.mpr ⟨htell.1, rfl, rfl⟩
  have hreply : _ = EStateM.Result.ok _ node' := (generate_eq_ok_iff_of_emits (emits_reply
    (UInt8.ofInt ttl) (UInt8.ofNat route.cost) hip route.pubkey.serializedOctets)).mpr
      ⟨htell.2, rfl, rfl⟩
  -- The sender is only looked up once more after the reply was sent.
  have hrest : Preserves J (findPeerBySenderPeeringAddr senderPip >>= fun _ => pure ()) :=
    .bind (preserves_findPeer _) fun _ => .pure _
  rw [answerQuery, finalState_bind_of_ok hget, finalState_bind_of_ok hkey,
    finalState_bind_of_ok hreply, ← Peering.finalState_sendDataRAWUdp]
  exact Preserves.finalState_bind (I := J) rfl fun _ => hrest

/-- A route whose key cannot be written is told to nobody. -/
theorem finalState_answerQuery_of_not_tellable (htell : ¬ route.Tellable)
    (hget : getRouteOrMaybeSearch hip { hisAddr := sender.getHip, searchMode := .helpFind } true
      (ttl - 1) node = .ok route node') :
    finalState (answerQuery senderPip sender hip ttl) node = node' := by
  let J : Tunserver → Prop := fun node₁ => node₁ = node'
  have hserialize : Preserves J (route.pubkey.serializeBin) := preserves_generate _
  have hstate := hserialize node' rfl
  rw [answerQuery, finalState_bind_of_ok hget]
  cases hkey : (route.pubkey.serializeBin : Node Bytes) node' with
  | error e node₁ =>
    rw [finalState_of_error hkey] at hstate
    exact (finalState_bind_of_error hkey).trans hstate
  | ok pubkey node₁ =>
    obtain ⟨hfit, rfl, rfl⟩ := MultiCryptoStrings.serializeBin_eq_ok_iff.mp hkey
    have hlen : ¬ route.pubkey.serializedOctets.length < uvarintLimit := fun hlt => htell ⟨hfit, hlt⟩
    obtain ⟨e, he⟩ := exists_generate_eq_error (emits_reply (UInt8.ofInt ttl)
      (UInt8.ofNat route.cost) hip route.pubkey.serializedOctets) hlen node'
    rw [finalState_bind_of_ok hkey]
    exact finalState_bind_of_error he

end Answer

/-! ### What a query leads to -/

section Query

variable {senderPip : Ip46Addr} {buf : Bytes} {sender : Peering} {hip : HashipAddr} {ttl : ℤ}

/-- The exceptions of an answer change nothing. -/
theorem finalState_handleDatagram_of_query
    (h : node.acceptedQuery senderPip buf = some (sender, hip, ttl)) :
    finalState (handleDatagram lib senderPip buf) node =
      finalState (answerQuery senderPip sender hip ttl) node := by
  rw [finalState_congr (handleDatagram_of_query h)]
  exact finalState_catching_pure fun _ _ hq => ⟨(), (Option.some.inj hq).symm⟩

/-- A query for who is not a peer, and has no route, starts a search, or adds a request to one. -/
theorem finalState_of_query_without_route
    (h : node.acceptedQuery senderPip buf = some (sender, hip, ttl)) (hpeer : hip ∉ node.peer)
    (hroute : node.routeTo hip = none) :
    finalState (handleDatagram lib senderPip buf) node =
      finalState (searchRoute hip { hisAddr := sender.getHip, searchMode := .helpFind } (ttl - 1))
        node := by
  have hget : getRouteOrMaybeSearch hip { hisAddr := sender.getHip, searchMode := .helpFind } true
      (ttl - 1) node = _ := getRoute_of_no_route (Std.ExtTreeMap.getElem?_eq_none hpeer) hroute
  rw [finalState_handleDatagram_of_query h, answerQuery]
  cases hrun : searchRoute hip { hisAddr := sender.getHip, searchMode := .helpFind } (ttl - 1) node with
  | ok u node' =>
    rw [bind_of_ok hrun] at hget
    rw [finalState_of_ok hrun]
    exact finalState_bind_of_error hget
  | error e node' =>
    rw [bind_of_error hrun] at hget
    rw [finalState_of_error hrun]
    exact finalState_bind_of_error hget

/-- Otherwise a reply is sent at most. -/
theorem sent_of_query_with_route (lib : CryptoLib)
    (h : node.acceptedQuery senderPip buf = some (sender, hip, ttl))
    (hknown : hip ∈ node.peer ∨ (node.routeTo hip).isSome) :
    (finalState (handleDatagram lib senderPip buf) node).sent = node.sent ∨
      ∃ route, node.routeFor hip = some route ∧ route.Tellable ∧
        (finalState (handleDatagram lib senderPip buf) node).sent =
          (sender.getPip, toldOctets ttl hip route) :: node.sent := by
  rw [finalState_handleDatagram_of_query h]
  cases hfor : node.routeFor hip with
  | some route =>
    by_cases htell : route.Tellable
    · rw [finalState_answerQuery_of_tellable htell (getRoute_of_routeFor hfor)]
      split
      · exact .inr ⟨route, rfl, htell, rfl⟩
      · exact .inl rfl
    · rw [finalState_answerQuery_of_not_tellable htell (getRoute_of_routeFor hfor)]
      exact .inl rfl
  | none =>
    have hpeer : hip ∈ node.peer := by
      by_contra hnot
      rw [routeFor_of_not_peer hnot] at hfor
      simp [hnot, hfor] at hknown
    obtain ⟨e, he⟩ := getRoute_of_keyless hpeer hfor
    rw [answerQuery, finalState_bind_of_error he]
    exact .inl rfl

end Query

/-! ### Data for the node itself -/

theorem finalState_sendDataUdp (peering : Peering) (packet : TunneledData) (node : Tunserver) :
    finalState (peering.sendDataUdp packet) node = node ∨
      Peering.Writable packet ∧ finalState (peering.sendDataUdp packet) node =
        node.pushSent peering.getPip (tunneledOctets packet) := by
  by_cases hwrite : Peering.Writable packet
  · rw [finalState_congr (Peering.sendDataUdp_of_writable hwrite), Peering.finalState_sendDataRAWUdp]
    split
    · exact .inr ⟨hwrite, rfl⟩
    · exact .inl rfl
  · obtain ⟨e, he⟩ := Peering.sendDataUdp_of_not_writable hwrite
    exact .inl (finalState_of_error he)

/-- What is sent back without a tunnel for the sender. The TTL is the one that the packet came with. -/
def sendBack (packet : TunneledData) (nonce : Bytes) : TunneledData :=
  { srcHip := packet.dstHip, dstHip := packet.srcHip, ttl := packet.ttl, nonceUsed := nonce, blob := [] }

section Receive

variable {senderPip : Ip46Addr} {buf : Bytes} {sender : Peering} {packet : TunneledData}

/-- With a tunnel for the sender, data are written to the card at most. -/
theorem finalState_of_receive_with_tunnel
    (h : node.acceptedPacket senderPip buf = some (sender, packet)) (hmine : packet.dstHip = node.myHip)
    (htunnel : packet.srcHip ∈ node.tunnel) :
    ∃ writtenToTun, finalState (handleDatagram lib senderPip buf) node = { node with writtenToTun } := by
  obtain ⟨ct, hct⟩ := Option.isSome_iff_exists.mp (Std.ExtTreeMap.mem_iff_isSome_getElem?.mp htunnel)
  let J : Tunserver → Prop := fun node' => ∃ writtenToTun, node' = { node with writtenToTun }
  have hwrite : ∀ tundata, Preserves J (do
      if ← checkIpProtocol tundata then
        let tundata ← stringInsert tundata headerPositionOfDst packet.dstHip.octets
        let same ← checkPacketSourceAddress packet.srcHip tundata
        checkThat (same = true) (.runtimeError "crypto authentification of source IP failed")
        writeToTun (tunHeader ++ tundata)) := fun tundata =>
    .bind (preserves_checkIpProtocol tundata) fun supported => .ite
      (.bind (.bind (.checkThat _ _) fun _ => .pure _) fun tundata =>
        .bind (preserves_checkPacketSourceAddress _ _) fun same => .bind (.checkThat _ _) fun _ =>
          .modify fun node' h' => by
            obtain ⟨writtenToTun, rfl⟩ := h'
            exact ⟨_, rfl⟩) (.pure _)
  rw [finalState_congr (handleDatagram_of_packet h), if_pos hmine, receiveTunneledData,
    finalState_bind_of_ok (get_apply node), hct]
  exact Preserves.bind (I := J) (preserves_unboxAbNonce ct _ _) hwrite node ⟨node.writtenToTun, rfl⟩

/-- Without a tunnel for the sender, empty data are routed back. -/
theorem finalState_of_receive_without_tunnel
    (h : node.acceptedPacket senderPip buf = some (sender, packet))
    (hmine : packet.dstHip = node.myHip) (htunnel : packet.srcHip ∉ node.tunnel) :
    ∃ nonce : Bytes, nonce.length = cryptoBoxNonceBytes ∧
      finalState (handleDatagram lib senderPip buf) node =
        finalState (routeTunDataToItsDestinationTop (sendBack packet nonce) ownReason)
          { node with draws := node.draws + 1 } := by
  have hct : node.tunnel[packet.srcHip]? = none := Std.ExtTreeMap.getElem?_eq_none htunnel
  refine ⟨(lib.randomBytes node.draws cryptoBoxNonceBytes).octets, Block.length_octets _, ?_⟩
  have hnonce : crypto (defaultNonce lib) node =
      .ok (lib.randomBytes node.draws cryptoBoxNonceBytes).octets
        { node with draws := node.draws + 1 } := rfl
  rw [finalState_congr (handleDatagram_of_packet h), if_pos hmine, receiveTunneledData,
    finalState_bind_of_ok (get_apply node), hct]
  dsimp only
  rw [finalState_bind_of_ok hnonce]
  exact finalState_bind_pure _

end Receive

end Galaxy42
