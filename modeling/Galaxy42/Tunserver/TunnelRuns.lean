import Galaxy42.Tunserver.PacketIntegrity
import Galaxy42.Tunserver.Strangers

/-!
# Tunnels in whole runs

What happens to the tunnels of a node: one is set up for a key that there is none for, or a packet from the
card is boxed, which takes a nonce. Nothing else changes them, and none is ever removed. `TunnelEffects` lists
the two, beside the datagrams that are sent, and `TunnelEffects.run` carries an invariant through an event.

So a tunnel keeps its key, and only goes on in its nonces (`TunnelsGoOn.run`). Hence no nonce is taken twice for
the same destination, in whatever order packets are boxed and other things happen in between
(`nonces_nodup`). It is always a tunnel that was set up for a public key with that address as its hash
(`TunnelsKeyed.run`).

A packet is read, boxed with the tunnel of its destination, and routed (`handleTunPacket_cases`); the tunnel
has gone on when routing begins, so a nonce is used up even when the data are never sent. What was boxed in an
event is read off the event and the state before it (`boxed`), and what was boxed in a run is the list of
these (`boxedIn`).

The nonces of a boxer are a sequence, and that it does not repeat itself is a law of the library
(`NoncesFresh`). What is shown here is that a tunnel only moves forward in this sequence: it is neither reset nor
replaced when a peer goes and comes back, when its key is learned again, or when a tunnel is asked for that is
there.
-/

namespace Galaxy42

open Toolkit Program TrivialSerialize Tunserver

variable {lib : CryptoLib} {node node' : Tunserver} {event : Event}

/-! ### What is boxed -/

namespace Tunserver

/-- The node with a tunnel for a destination. One that was there is replaced. -/
def putTunnel (node : Tunserver) (hip : HashipAddr) (ct : TunnelUse) : Tunserver :=
  { node with tunnel := node.tunnel.insert hip ct }

/-- The data that a packet from the card is boxed as in an event. There are none when the packet is not boxed. -/
def boxed (lib : CryptoLib) (node : Tunserver) : Event → Option TunneledData
  | .tunPacket tunReadBuff => do
    let (srcHip, dstHip) ← returned (parseTunIpSrcDst tunReadBuff : Node _) node
    let ct ← node.tunnel[dstHip]?
    if addrIsGalaxy dstHip ∧ tunReadBuff.length ≤ bufSize then
      let ((cipher, nonce), _) ← returned (ct.boxAb lib (withoutDst (tunReadBuff.drop headerPositionOfIpv6))) node
      return boxedData srcHip dstHip cipher nonce
    else
      none
  | _ => none

/-- What a packet from the card was boxed with: the tunnel for its destination, which has gone on then. -/
theorem of_boxed {data : TunneledData} (h : node.boxed lib event = some data) :
    ∃ tunReadBuff ct ct₁, event = .tunPacket tunReadBuff ∧
      (parseTunIpSrcDst tunReadBuff : Node _) node = .ok (data.srcHip, data.dstHip) node ∧
      node.tunnel[data.dstHip]? = some ct ∧ data.ttl = 5 ∧
      ct.boxAb lib (withoutDst (tunReadBuff.drop headerPositionOfIpv6)) node =
        .ok ((data.blob, data.nonceUsed), ct₁) node := by
  match event with
  | .tunPacket tunReadBuff =>
    simp only [boxed, Option.bind_eq_bind, Option.bind_eq_some_iff] at h
    obtain ⟨⟨srcHip, dstHip⟩, hparse, ct, hct, hbox⟩ := h
    split at hbox
    swap
    · cases hbox
    obtain ⟨⟨⟨cipher, nonce⟩, ct₁⟩, hreturned, hdata⟩ := Option.bind_eq_some_iff.mp hbox
    obtain rfl := Option.some.inj hdata
    exact ⟨tunReadBuff, ct, ct₁, rfl,
      eq_ok_of_returned (fun _ => preserves_parseTunIpSrcDst tunReadBuff) hparse, hct, rfl,
      eq_ok_of_returned (fun _ => preserves_boxAb _ _) hreturned⟩

/-- The addresses are only read from what is long enough to have them. -/
private theorem length_of_parseTunIpSrcDst {buff : Bytes} {addresses : HashipAddr × HashipAddr}
    (h : (parseTunIpSrcDst buff : Node _) node = .ok addresses node') :
    headerPositionOfIpv6 + headerPositionOfDst + hashipAddrSize ≤ buff.length := by
  obtain ⟨_, _, -, h⟩ := bind_eq_ok_iff.mp h
  obtain ⟨_, _, hlong, -⟩ := bind_eq_ok_iff.mp h
  exact not_lt.mp (checkThat_eq_ok_iff.mp hlong).1

/-- What is done about a packet from the card: nothing, or empty data are routed, since there is no tunnel for the
destination, or the packet is boxed, and routed. -/
theorem handleTunPacket_cases (lib : CryptoLib) (tunReadBuff : Bytes) (node : Tunserver) :
    (finalState (handleTunPacket lib tunReadBuff) node = node ∧
      node.boxed lib (.tunPacket tunReadBuff) = none) ∨
    (∃ data, data.blob = [] ∧ data.nonceUsed.length = cryptoBoxNonceBytes ∧ data.ttl = 5 ∧
      finalState (handleTunPacket lib tunReadBuff) node =
        finalState (routeTunDataToItsDestinationTop data ownReason) { node with draws := node.draws + 1 } ∧
      node.boxed lib (.tunPacket tunReadBuff) = none) ∨
    ∃ data ct ct₁, node.boxed lib (.tunPacket tunReadBuff) = some data ∧ node.tunnel[data.dstHip]? = some ct ∧
      ct.boxAb lib (withoutDst (tunReadBuff.drop headerPositionOfIpv6)) node =
        .ok ((data.blob, data.nonceUsed), ct₁) node ∧
      finalState (handleTunPacket lib tunReadBuff) node =
        finalState (routeTunDataToItsDestinationTop data ownReason) (node.putTunnel data.dstHip ct₁) := by
  cases hparse : returned (parseTunIpSrcDst tunReadBuff : Node _) node with
  | none =>
    obtain ⟨e, he⟩ := exists_error_of_not_returned (fun _ => preserves_parseTunIpSrcDst tunReadBuff) hparse
    refine .inl ⟨?_, by rw [boxed, hparse]; rfl⟩
    rw [handleTunPacket, finalState_bind_of_error he]
  | some addresses =>
  obtain ⟨srcHip, dstHip⟩ := addresses
  have hread := eq_ok_of_returned (fun _ => preserves_parseTunIpSrcDst tunReadBuff) hparse
  have hlong := length_of_parseTunIpSrcDst hread
  rw [handleTunPacket, finalState_bind_of_ok hread, boxed, hparse]
  dsimp only [Option.bind_eq_bind, Option.bind_some]
  by_cases hgalaxy : addrIsGalaxy dstHip = true
  swap
  · refine .inl ⟨by rw [if_pos hgalaxy]; rfl, ?_⟩
    cases node.tunnel[dstHip]? with
    | none => rfl
    | some ct => exact if_neg fun h => hgalaxy h.1
  rw [if_neg (not_not.mpr hgalaxy), finalState_bind_of_ok (get_apply node)]
  cases hct : node.tunnel[dstHip]? with
  | none =>
    refine .inr (.inl ⟨⟨srcHip, dstHip, 5, _, []⟩, rfl,
      (lib.randomBytes node.draws cryptoBoxNonceBytes).length_octets, rfl, ?_, rfl⟩)
    exact finalState_bind_pure _
  | some ct =>
    dsimp only [Option.bind_some]
    by_cases hfits : tunReadBuff.length ≤ bufSize
    swap
    · refine .inl ⟨?_, if_neg fun h => hfits h.2⟩
      have habort : (assertThat (tunReadBuff.length ≤ bufSize ∧ tunReadBuff.length ≥ headerPositionOfIpv6) :
          Node Unit) node = .error .abort node :=
        (assertThat_apply _ node).trans (if_neg fun h => hfits h.1)
      rw [finalState_bind_of_error habort]
    have hheader : headerPositionOfIpv6 ≤ tunReadBuff.length :=
      le_trans (Nat.le_add_right _ _) (le_trans (Nat.le_add_right _ _) hlong)
    have herase : (stringErase (tunReadBuff.drop headerPositionOfIpv6) headerPositionOfDst hashipAddrSize :
        Node Bytes) node = .ok (withoutDst (tunReadBuff.drop headerPositionOfIpv6)) node := by
      refine bind_of_ok (a := ()) (checkThat_eq_ok_iff.mpr ⟨?_, rfl⟩)
      rw [List.length_drop]
      omega
    rw [if_pos ⟨hgalaxy, hfits⟩,
      finalState_bind_of_ok (a := ()) (assertThat_eq_ok_iff.mpr ⟨⟨hfits, hheader⟩, rfl⟩),
      finalState_bind_of_ok herase]
    cases hreturned : returned (ct.boxAb lib (withoutDst (tunReadBuff.drop headerPositionOfIpv6))) node with
    | none =>
      obtain ⟨e, he⟩ := exists_error_of_not_returned (fun _ => preserves_boxAb ct _) hreturned
      exact .inl ⟨finalState_bind_of_error he, rfl⟩
    | some r =>
      obtain ⟨⟨cipher, nonce⟩, ct₁⟩ := r
      have hbox := eq_ok_of_returned (fun _ => preserves_boxAb ct _) hreturned
      refine .inr (.inr ⟨boxedData srcHip dstHip cipher nonce, ct, ct₁, rfl, hct, hbox, ?_⟩)
      rw [finalState_bind_of_ok hbox]
      exact finalState_bind_pure _

end Tunserver

/-! ### What happens to tunnels -/

/-- All that may happen to the tunnels of a node and to what it has sent, each within the invariant. Greetings are
left out, which are only sent when all peers are pinged. -/
structure TunnelEffects (lib : CryptoLib) (I : Tunserver → Prop) : Prop where
  /-- The invariant is about the tunnels, our keys and what was sent. -/
  frame : ∀ node node', node'.tunnel = node.tunnel → node'.myIDC = node.myIDC → node'.sent = node.sent →
    I node → I node'
  /-- Datagrams are sent. -/
  send : ∀ node new, (∀ d ∈ new, datagramCmd d.2 ≠ some .publicHi) → I node →
    I { node with sent := new ++ node.sent }
  /-- A tunnel is set up. -/
  add : ∀ node hip pubkey ct draw draw', I node → hip ∉ node.tunnel → HasHip lib pubkey hip →
    TunnelUse.new lib node.myIDC pubkey draw = .ok ct draw' → I (node.putTunnel hip ct)
  /-- A packet is boxed. -/
  box : ∀ node hip ct ct₁ msg cipher nonce, I node → node.tunnel[hip]? = some ct →
    ct.boxAb lib msg node = .ok ((cipher, nonce), ct₁) node → I (node.putTunnel hip ct₁)

namespace TunnelEffects

variable {I : Tunserver → Prop} (hI : TunnelEffects lib I)

include hI

private theorem preserves_addTunnelToPubkey (pubkey : HashipPubkey) :
    Preserves I (addTunnelToPubkey lib pubkey) := by
  refine Preserves.bind_of (preserves_getIpv6StringBin pubkey) fun node addr node₁ _ haddr h₁ => ?_
  refine Preserves.bind_of (.fromExcept _) (fun node₂ hip node₃ _ hhip h₃ => ?_) node₁ h₁
  obtain ⟨hhip, -⟩ := fromExcept_eq_ok_iff.mp hhip
  refine Preserves.get_bind (fun node h => ?_) node₃ h₃
  split
  · exact h
  next hnew =>
    have hcrypto : Preserves I (crypto (TunnelUse.new lib node.myIDC pubkey)) :=
      .zoom fun draws node' h' => hI.frame node' _ rfl rfl rfl h'
    have hset := hcrypto node h
    cases hrun : crypto (TunnelUse.new lib node.myIDC pubkey) node with
    | ok ct node' =>
      rw [finalState_of_ok hrun] at hset
      obtain ⟨draws, hct, rfl⟩ := zoom_eq_ok_iff.mp hrun
      rw [finalState_bind_of_ok hrun]
      exact hI.add _ hip pubkey ct node.draws draws hset hnew (hasHip_of_getIpv6StringBin haddr hhip) hct
    | error e node' =>
      rw [finalState_of_error hrun] at hset
      rwa [finalState_bind_of_error hrun]

private theorem pushSent {node : Tunserver} (h : I node) (addr : Ip46Addr) {cmd : ProtoCmd} (bin : Bytes)
    (hcmd : cmd ≠ .publicHi) : I (node.pushSent addr (cmdOctets cmd bin)) := by
  refine hI.send node [(addr, cmdOctets cmd bin)] (fun d hd => ?_) h
  obtain rfl := List.mem_singleton.mp hd
  rw [datagramCmd_cmdOctets]
  exact fun heq => hcmd (Option.some.inj heq)

private theorem preserves_searchRoute (dst : HashipAddr) (reason : RouteReason) (searchTtl : ℤ) :
    Preserves I (searchRoute dst reason searchTtl) := by
  intro node h
  obtain ⟨m, hstate, -⟩ := finalState_searchRoute dst reason searchTtl node
  have hsent : I (node.sentToAll (node.askedPeers dst searchTtl)
      (queryOctets dst (UInt8.ofInt (max 5 searchTtl)))) := by
    refine hI.send node _ (fun d hd => ?_) h
    obtain ⟨p, -, rfl⟩ := List.mem_map.mp (List.mem_reverse.mp hd)
    rw [datagramCmd_queryOctets]
    exact fun heq => by cases heq
  rw [hstate]
  exact hI.frame (node.sentToAll _ _) _ rfl rfl rfl hsent

private theorem preserves_routeTop (packet : TunneledData) (reason : RouteReason) :
    Preserves I (routeTunDataToItsDestinationTop packet reason) := by
  intro node h
  rw [finalState_routeTop]
  cases routed node packet with
  | send peering =>
    dsimp only
    obtain hsame | ⟨-, hpush⟩ := finalState_sendDataUdp peering packet node
    · rwa [hsame]
    · rw [hpush]
      exact hI.pushSent h _ (tunneledBin packet) (by decide)
  | search hip => exact hI.preserves_searchRoute hip reason ttlMaxAccepted node h
  | drop => exact h

private theorem preserves_getRoute (dst : HashipAddr) (reason : RouteReason) (searchTtl : ℤ) :
    Preserves I (getRouteOrMaybeSearch dst reason true searchTtl) := by
  intro node h
  cases hfor : node.routeFor dst with
  | some route =>
    rw [finalState_of_ok (getRoute_of_routeFor hfor)]
    exact hI.frame node _ rfl rfl rfl h
  | none =>
    by_cases hpeer : dst ∈ node.peer
    · obtain ⟨e, he⟩ := getRoute_of_keyless hpeer hfor
      rwa [finalState_of_error he]
    · rw [routeFor_of_not_peer hpeer] at hfor
      rw [finalState, getRoute_of_no_route (Std.ExtTreeMap.getElem?_eq_none hpeer) hfor]
      exact Preserves.bind (hI.preserves_searchRoute dst reason searchTtl) (fun _ => .raise _) node h

private theorem preserves_sendDataUdpCmd (peering : Peering) {cmd : ProtoCmd} (bin : Bytes)
    (hcmd : cmd ≠ .publicHi) :
    Preserves I (peering.sendDataUdpCmd cmd bin) := by
  intro node h
  rw [Peering.sendDataUdpCmd_eq, Peering.finalState_sendDataRAWUdp]
  split
  · exact hI.pushSent h _ bin hcmd
  · exact h

private theorem preserves_answerQuery (senderPip : Ip46Addr) (sender : Peering) (hip : HashipAddr) (ttl : ℤ) :
    Preserves I (answerQuery senderPip sender hip ttl) :=
  .bind (hI.preserves_getRoute _ _ _) fun _ => .bind (preserves_generate _) fun _ =>
    .bind (preserves_generate _) fun _ => .bind (hI.preserves_sendDataUdpCmd _ _ (by decide)) fun _ =>
      .bind (preserves_findPeer _) fun _ => .pure _

/-- A datagram is handled within the invariant. -/
private theorem preserves_handleDatagram (senderPip : Ip46Addr) (buf : Bytes) :
    Preserves I (handleDatagram lib senderPip buf) := by
  intro node h
  cases hpacket : node.acceptedPacket senderPip buf with
  | some r =>
    obtain ⟨sender, packet⟩ := r
    by_cases hmine : packet.dstHip = node.myHip
    · by_cases htunnel : packet.srcHip ∈ node.tunnel
      · obtain ⟨writtenToTun, hstate⟩ :
            ∃ writtenToTun, finalState (handleDatagram lib senderPip buf) node = { node with writtenToTun } :=
          finalState_of_receive_with_tunnel hpacket hmine htunnel
        rw [hstate]
        exact hI.frame node _ rfl rfl rfl h
      · obtain ⟨nonce, -, hstate⟩ :
            ∃ nonce : Bytes, nonce.length = cryptoBoxNonceBytes ∧
              finalState (handleDatagram lib senderPip buf) node = _ :=
          finalState_of_receive_without_tunnel hpacket hmine htunnel
        rw [hstate]
        exact hI.preserves_routeTop _ _ _ (hI.frame node _ rfl rfl rfl h)
    · rw [finalState_congr (handleDatagram_of_packet hpacket), if_neg hmine]
      unfold forwardTunneledData
      split
      · exact h
      · exact Preserves.bind (hI.preserves_routeTop _ _) (fun _ => .pure _) node h
  | none =>
  cases hreply : node.acceptedReply senderPip buf with
  | some r =>
    rw [finalState_congr (handleDatagram_of_reply hreply)]
    refine Preserves.bind (hI.preserves_addTunnelToPubkey _) (fun _ node' h' => ?_) node h
    rw [finalState_discard, finalState_of_ok addRouteInfoAndReturn_eq]
    exact hI.frame node' _ rfl rfl rfl h'
  | none =>
  cases hquery : node.acceptedQuery senderPip buf with
  | some r =>
    rw [finalState_handleDatagram_of_query hquery]
    exact hI.preserves_answerQuery senderPip r.1 r.2.1 r.2.2 node h
  | none =>
  cases hgreeting : greeting lib node senderPip buf with
  | some r =>
    obtain ⟨binHisIDIPub, heq⟩ := finalState_handleDatagram_of_greeting hgreeting
    rw [heq]
    refine Preserves.finalState_bind ?_ fun _ => .get_bind fun node' h' =>
      Preserves.bind (preserves_multikeysOfBin _) (fun _ => hI.preserves_addTunnelToPubkey _) node' h'
    obtain hsame | ⟨-, peering, -, hput⟩ := @finalState_addPeerAppendPubkey lib r.1 r.2 node
    · rwa [hsame]
    · rw [hput]
      exact hI.frame node _ rfl rfl rfl h
  | none => rwa [finalState_handleDatagram_of_none hpacket hquery hreply hgreeting]

/-- The peers are pinged within the invariant, if it allows greetings. -/
private theorem preserves_ping
    (hgreet : ∀ node addr bin, I node → I (node.pushSent addr (cmdOctets .publicHi bin)))
    (enableRemove : Bool) (timedOut : HashipAddr → Bool) (IDIIDCSig : Multisign) :
    Preserves I (peeringPingAllPeers enableRemove timedOut IDIIDCSig) := by
  have hping : ∀ (node : Tunserver) (peering : Peering), Preserves I (pingPeer node IDIIDCSig peering) := by
    refine fun node peering => .bind (preserves_generate _) fun bin node₁ h => ?_
    rw [Peering.sendDataUdpCmd_eq, Peering.finalState_sendDataRAWUdp]
    split
    · exact hgreet node₁ _ bin h
    · exact h
  have hpings : Preserves I (do
      let node ← get
      node.peer.toList.forM fun v => pingPeer node IDIIDCSig v.2 : Node Unit) :=
    .get_bind fun node h => Preserves.forM (fun v _ => hping node v.2) node h
  cases enableRemove with
  | true => exact .bind (.modify fun node h => hI.frame node _ rfl rfl rfl h) fun _ => hpings
  | false => exact hpings

/-- An event is handled within the invariant, which allows greetings unless no peers are pinged. -/
theorem run {node : Tunserver} (h : I node) {event : Event}
    (hgreet : (∃ enableRemove timedOut sig, event = .ping enableRemove timedOut sig) →
      ∀ node addr bin, I node → I (node.pushSent addr (cmdOctets .publicHi bin))) :
    I (finalState (event.run lib) node) := by
  rw [finalState_run]
  cases event with
  | datagram senderPip buf => exact hI.preserves_handleDatagram senderPip buf node h
  | tunPacket tunReadBuff =>
    rw [Event.handle]
    obtain ⟨hsame, -⟩ | ⟨data, -, -, -, hempty, -⟩ | ⟨data, ct, ct₁, -, hct, hbox, hboxed⟩ :=
      handleTunPacket_cases lib tunReadBuff node
    · rwa [hsame]
    · rw [hempty]
      exact hI.preserves_routeTop _ _ _ (hI.frame node _ rfl rfl rfl h)
    · rw [hboxed]
      exact hI.preserves_routeTop _ _ _ (hI.box node _ ct ct₁ _ _ _ h hct hbox)
  | ping enableRemove timedOut IDIIDCSig =>
    exact hI.preserves_ping (hgreet ⟨enableRemove, timedOut, IDIIDCSig, rfl⟩) enableRemove timedOut IDIIDCSig
      node h
  | request dst reason searchTtl =>
    rw [Event.handle, finalState_discard]
    exact hI.preserves_getRoute dst reason searchTtl node h
  | op tableOp =>
    rw [Event.handle]
    cases tableOp with
    | addPeer peerRef =>
      rw [TableOp.run, finalState_discard, finalState_addPeer]
      split
      · exact h
      · exact hI.frame node _ rfl rfl rfl h
    | addPeerAppendPubkey peerRef pubkey =>
      obtain hsame | ⟨-, peering, -, hput⟩ := @finalState_addPeerAppendPubkey lib peerRef pubkey node
      · rwa [TableOp.run, hsame]
      · rw [TableOp.run, hput]
        exact hI.frame node _ rfl rfl rfl h
    | deletePeer hip =>
      rw [TableOp.run, finalState_discard, finalState_deletePeer]
      exact hI.frame node _ rfl rfl rfl h
    | deleteAllPeers isBanned =>
      rw [TableOp.run, finalState_deleteAllPeers]
      exact hI.frame node _ rfl rfl rfl h
    | addPeerToBlackList hip => exact hI.frame node _ rfl rfl rfl h
    | deletePeerFromBlackList hip => exact hI.frame node _ rfl rfl rfl h
    | addTunnelToPubkey pubkey => exact hI.preserves_addTunnelToPubkey pubkey node h

end TunnelEffects

/-! ### Keys of tunnels -/

/-- The tunnel has the key that our keys and this public key agree on. How far it has gone on in its nonces
does not matter. -/
def KeyedFor (lib : CryptoLib) (myIDC : MultikeysPAIR) (pubkey : HashipPubkey) (ct : TunnelUse) : Prop :=
  ∃ ct₀, BuiltFor lib myIDC pubkey ct₀ ∧
    ct.streamCryptoAb.boxer.map Boxer.key = ct₀.streamCryptoAb.boxer.map Boxer.key

/-- Each tunnel is one for a public key with that address. Two public keys may have one address, so the key is
only said to exist. -/
def TunnelsKeyed (lib : CryptoLib) (node : Tunserver) : Prop :=
  ∀ (hip : HashipAddr) (ct : TunnelUse), node.tunnel[hip]? = some ct →
    ∃ pubkey, HasHip lib pubkey hip ∧ KeyedFor lib node.myIDC pubkey ct

namespace Tunserver

theorem getElem?_putTunnel {hip dst : HashipAddr} {ct : TunnelUse} :
    (node.putTunnel hip ct).tunnel[dst]? = if dst = hip then some ct else node.tunnel[dst]? := by
  rw [putTunnel, Std.ExtTreeMap.getElem?_insert]
  simp only [Std.LawfulEqCmp.compare_eq_iff_eq, @eq_comm _ hip dst]

end Tunserver

private theorem tunnelEffects_keyed (lib : CryptoLib) : TunnelEffects lib (TunnelsKeyed lib) where
  frame node node' htunnel hIDC _ h hip ct hct := by
    rw [htunnel] at hct
    rw [hIDC]
    exact h hip ct hct
  send _ _ _ h := h
  add node hip pubkey ct draw draw' h _ hhip hnew hip' ct' hct' := by
    rw [getElem?_putTunnel] at hct'
    split at hct'
    next heq =>
      subst heq
      obtain rfl := Option.some.inj hct'
      exact ⟨pubkey, hhip, ct, ⟨draw, draw', hnew⟩, rfl⟩
    · exact h hip' ct' hct'
  box node hip ct ct₁ msg cipher nonce h hct hbox hip' ct' hct' := by
    rw [getElem?_putTunnel] at hct'
    split at hct'
    next heq =>
      subst heq
      obtain rfl := Option.some.inj hct'
      obtain ⟨pubkey, hhip, ct₀, hbuilt, hkey⟩ := h hip' ct hct
      obtain ⟨cb, hboxer, -, -, -, rfl⟩ := CryptoTunnel.boxAb_eq_ok_iff.mp hbox
      refine ⟨pubkey, hhip, ct₀, hbuilt, ?_⟩
      rw [← hkey, hboxer]
      rfl
    · exact h hip' ct' hct'

/-- In every run the tunnels are for keys with their addresses. -/
theorem TunnelsKeyed.run (h : TunnelsKeyed lib node) (event : Event) :
    TunnelsKeyed lib (finalState (event.run lib) node) :=
  (tunnelEffects_keyed lib).run h fun _ _ _ _ h => h

/-! ### Nonces of tunnels -/

/-- The boxer of the tunnel for a destination. -/
def Tunserver.boxerFor (node : Tunserver) (dst : HashipAddr) : Option Boxer :=
  node.tunnel[dst]?.bind fun ct => ct.streamCryptoAb.boxer

/-- Tunnels have kept their keys and parities, and have gone on in their nonces, if they have boxed anything. -/
def TunnelsGoOn (node node' : Tunserver) : Prop :=
  ∀ dst cb, node.boxerFor dst = some cb → ∃ count ≥ cb.count, node'.boxerFor dst = some { cb with count }

private theorem TunnelsGoOn.refl (node : Tunserver) :
    TunnelsGoOn node node := fun _ cb h => ⟨cb.count, le_rfl, h⟩

private theorem TunnelsGoOn.trans {node₁ node₂ node₃ : Tunserver} (h : TunnelsGoOn node₁ node₂)
    (h' : TunnelsGoOn node₂ node₃) : TunnelsGoOn node₁ node₃ := by
  intro dst cb hcb
  obtain ⟨count, hle, hcb₂⟩ := h dst cb hcb
  obtain ⟨count', hle', hcb₃⟩ := h' dst _ hcb₂
  exact ⟨count', le_trans hle hle', hcb₃⟩

private theorem TunnelsGoOn.put {hip : HashipAddr} {ct : TunnelUse} (h : ∀ cb, node.boxerFor hip = some cb →
    ∃ count ≥ cb.count, ct.streamCryptoAb.boxer = some { cb with count }) :
    TunnelsGoOn node (node.putTunnel hip ct) := by
  intro dst cb hcb
  rw [boxerFor, getElem?_putTunnel]
  by_cases heq : dst = hip
  · subst heq
    rw [if_pos rfl]
    exact h cb hcb
  · rw [if_neg heq]
    exact ⟨cb.count, le_rfl, hcb⟩

private theorem tunnelEffects_goOn (lib : CryptoLib) (node : Tunserver) :
    TunnelEffects lib (TunnelsGoOn node) where
  frame node₁ node₂ htunnel _ _ h dst cb hcb := by
    rw [boxerFor, htunnel]
    exact h dst cb hcb
  send _ _ _ h := h
  add node₁ hip _ ct _ _ h hnew _ _ := by
    refine h.trans (.put fun cb hcb => ?_)
    rw [boxerFor, Std.ExtTreeMap.getElem?_eq_none hnew] at hcb
    cases hcb
  box node₁ hip ct ct₁ _ _ _ h hct hbox := by
    refine h.trans (.put fun cb hcb => ?_)
    obtain ⟨cb₁, hboxer, -, -, -, rfl⟩ := CryptoTunnel.boxAb_eq_ok_iff.mp hbox
    rw [boxerFor, hct, Option.bind_some, hboxer] at hcb
    obtain rfl := Option.some.inj hcb
    exact ⟨cb₁.count + 1, Nat.le_succ _, rfl⟩

/-- No event makes a tunnel go back. A tunnel that was not there before may come, and one that is there stays. -/
theorem TunnelsGoOn.run (lib : CryptoLib) (node : Tunserver) (event : Event) :
    TunnelsGoOn node (finalState (event.run lib) node) :=
  (tunnelEffects_goOn lib node).run (.refl node) fun _ _ _ _ h => h

/-- A boxer has another nonce after each use. It is a property of the sequence of nonces of each parity. -/
def NoncesFresh (lib : CryptoLib) : Prop :=
  ∀ {odd count count' N}, lib.nonceAt odd count = .ok N → lib.nonceAt odd count' = .ok N → count = count'

/-- What is boxed takes the nonce that the tunnel for its destination has come to, and the tunnel goes on. -/
theorem boxerFor_of_boxed {data : TunneledData} (h : node.boxed lib event = some data) :
    ∃ cb, node.boxerFor data.dstHip = some cb ∧ lib.nonceAt cb.odd cb.count = .ok data.nonceUsed ∧
      ∃ count > cb.count, (finalState (event.run lib) node).boxerFor data.dstHip = some { cb with count } := by
  obtain ⟨tunReadBuff, -, -, rfl, -⟩ := of_boxed h
  obtain ⟨-, hnone⟩ | ⟨_, -, -, -, -, hnone⟩ | ⟨data', ct, ct₁, hsome, hct, hbox, hstate⟩ :=
    handleTunPacket_cases lib tunReadBuff node
  · rw [h] at hnone
    cases hnone
  · rw [h] at hnone
    cases hnone
  obtain rfl := Option.some.inj (h.symm.trans hsome)
  obtain ⟨cb, hboxer, hnonce, -, -, hct₁⟩ := CryptoTunnel.boxAb_eq_ok_iff.mp hbox
  refine ⟨cb, ?_, hnonce, ?_⟩
  · rw [boxerFor, hct, Option.bind_some, hboxer]
  -- Routing the data leaves the tunnel where it was put.
  · rw [finalState_run, Event.handle, hstate]
    have hput :
        (node.putTunnel data.dstHip ct₁).boxerFor data.dstHip = some { cb with count := cb.count + 1 } := by
      rw [boxerFor, getElem?_putTunnel, if_pos rfl, hct₁]
      rfl
    have hroute := (tunnelEffects_goOn lib _).preserves_routeTop data ownReason _
      (.refl (node.putTunnel data.dstHip ct₁))
    obtain ⟨count, hle, hcount⟩ := hroute data.dstHip _ hput
    exact ⟨count, hle, hcount⟩

/-- The data that packets from the card are boxed as in a run, one after the other. Each event is handled by
the node that the one before has left. -/
def boxedIn (lib : CryptoLib) : Tunserver → List Event → List TunneledData
  | _, [] => []
  | node, event :: events =>
    (node.boxed lib event).toList ++ boxedIn lib (finalState (event.run lib) node) events

/-- Whatever is boxed in a run takes a nonce that the tunnel has not used before. -/
private theorem nonce_of_mem_boxedIn {data : TunneledData} {cb : Boxer} (events : List Event) :
    ∀ node : Tunserver, data ∈ boxedIn lib node events → node.boxerFor data.dstHip = some cb →
      ∃ count ≥ cb.count, lib.nonceAt cb.odd count = .ok data.nonceUsed := by
  induction events generalizing cb with
  | nil => exact fun node hmem => by cases hmem
  | cons event events ih =>
    intro node hmem hcb
    obtain hfirst | hrest := List.mem_append.mp hmem
    · obtain ⟨cb₁, hcb₁, hnonce, -⟩ := boxerFor_of_boxed (Option.mem_toList.mp hfirst)
      obtain rfl := Option.some.inj (hcb.symm.trans hcb₁)
      exact ⟨cb.count, le_rfl, hnonce⟩
    · obtain ⟨count, hle, hcb'⟩ := TunnelsGoOn.run lib node event data.dstHip cb hcb
      obtain ⟨count', hle', hnonce⟩ := ih _ hrest hcb'
      exact ⟨count', le_trans hle hle', hnonce⟩

/-- No nonce is taken twice for the same destination, in no run of a node, whatever happens to it in between:
its peers are removed or come back, tunnels are asked for again, or data cannot be sent. Data for different
destinations may have the same one. -/
theorem nonces_nodup (hfresh : NoncesFresh lib) (events : List Event) (node : Tunserver) :
    ((boxedIn lib node events).map fun data => (data.dstHip, data.nonceUsed)).Nodup := by
  induction events generalizing node with
  | nil => exact List.nodup_nil
  | cons event events ih =>
    rw [boxedIn]
    cases hboxed : node.boxed lib event with
    | none => exact ih _
    | some data =>
      refine List.nodup_cons.mpr ⟨fun hmem => ?_, ih _⟩
      obtain ⟨data', hlater, heq⟩ := List.mem_map.mp hmem
      obtain ⟨hdst, hsame⟩ := Prod.mk.inj heq
      obtain ⟨cb, -, hnonce, count, hlt, hcb⟩ := boxerFor_of_boxed hboxed
      rw [← hdst] at hcb
      obtain ⟨count', hle, hnonce'⟩ := nonce_of_mem_boxedIn events _ hlater hcb
      rw [hsame] at hnonce'
      have hcount := hfresh hnonce hnonce'
      dsimp only at hle
      omega

/-- Two packets that are read one after the other are boxed with different nonces. -/
theorem nonces_nodup_example :
    let node := ((sampleNode 1).after (sampleMeet 2)).after (.op (.addTunnelToPubkey (sampleKey 2)))
    let packet : Event := .tunPacket (tunHeader ++ udpPacket 1 2)
    let nonces := (boxedIn CryptoLib.sample node [packet, packet]).map fun data => (data.dstHip, data.nonceUsed)
    nonces.length = 2 ∧ nonces.Nodup := by
  intro node packet nonces
  have hfresh : NoncesFresh CryptoLib.sample := by
    intro odd count count' N h h'
    have hlen := congrArg List.length (Except.ok.inj (h.trans h'.symm))
    simpa using hlen
  exact ⟨by decide +kernel, nonces_nodup hfresh [packet, packet] node⟩

end Galaxy42
