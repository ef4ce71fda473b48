import Galaxy42.Tunserver.Forwarding

/-!
# Packets from end to end

A packet that is read from the virtual card of one node and written to the one of another node. On the way
its destination is cut out of it, the rest is boxed, and the box is carried by a datagram that nodes between
them may forward (`Carries.forwards`); in the end it is unboxed, and the destination is put back. The packet
is written as it was read (`writtenToTun_of_forwards`), unless its source is not the node that the tunnel is
for (`writtenToTun_of_forged`).

Of the box it is relied on that what was boxed with a key and a nonce is unboxed with them, that a box is not
much longer than its content, and that nonces have the length of nonces (`SecretboxLaws`). That the two
tunnels have the same key is an assumption on the two nodes here (`TunnelUse.Agrees`); `Sessions` shows it of
nodes that have greeted each other.

A datagram carries data (`Carries`) when it has their source, destination, nonce and box, and any TTL. That is
what forwarding preserves, in whatever state the forwarding node is, so a chain of any length keeps it. The
packet itself is an IPv6 packet of one of the protocols that a node writes to its card (`IsPacket`), and it
must be short enough to be boxed and read again, which the size of the buffer of the loop makes sure of.

The result has two sides (`packet_integrity`): what is written when all is as it should be, and that nothing is
written when the source in the box is not the owner of the tunnel.
-/

namespace Galaxy42

open Toolkit Program TrivialSerialize Tunserver

variable {lib : CryptoLib} {node : Tunserver}

/-! ### What the two nodes rely on -/

/-- Unboxing with the key and the nonce of a box gives what was boxed; a box is not much longer than that, and
the nonces have the length of nonces. The functions of the library that box and unbox have these properties,
whatever key they are given. -/
structure SecretboxLaws (lib : CryptoLib) : Prop where
  open_box : ∀ {key nonce msg cipher : Bytes}, lib.secretbox key nonce msg = .ok cipher →
    lib.secretboxOpen key nonce cipher = .ok msg
  length_box : ∀ {key nonce msg cipher : Bytes}, lib.secretbox key nonce msg = .ok cipher →
    cipher.length ≤ msg.length + 16
  length_nonce : ∀ {odd count nonce}, lib.nonceAt odd count = .ok nonce →
    nonce.length = cryptoBoxNonceBytes

/-- What one tunnel boxes the other one unboxes: their keys agree. The nonce is sent with the data, so it need
not agree. -/
def TunnelUse.Agrees (ct ct' : TunnelUse) : Prop :=
  ∃ cb cb', ct.streamCryptoAb.boxer = some cb ∧ ct'.streamCryptoAb.unboxer = some cb' ∧ cb.key = cb'.key

/-- An IPv6 packet of a protocol that is supported, from one address to another. The protocols are TCP, UDP
and ICMPv6; a node writes no others to its card. -/
structure IsPacket (src dst : HashipAddr) (packet : Bytes) : Prop where
  length_ge : 40 ≤ packet.length
  src_eq : (packet.drop headerPositionOfSrc).take hashipAddrSize = src.octets
  dst_eq : (packet.drop headerPositionOfDst).take hashipAddrSize = dst.octets
  protocol : packet[headerPositionOfIpProtocolType]? = some 6 ∨
    packet[headerPositionOfIpProtocolType]? = some 17 ∨ packet[headerPositionOfIpProtocolType]? = some 58

/-- What is boxed of a packet: all but its destination. -/
def withoutDst (packet : Bytes) : Bytes :=
  packet.take headerPositionOfDst ++ packet.drop (headerPositionOfDst + hashipAddrSize)

section Packet

variable {σ : Type} {src dst : HashipAddr} {packet : Bytes}

private theorem stringErase_dst (h : 40 ≤ packet.length) (s : σ) :
    stringErase packet headerPositionOfDst hashipAddrSize s = .ok (withoutDst packet) s := by
  have hle : headerPositionOfDst ≤ packet.length := le_trans (by decide) h
  rw [stringErase, bind_of_ok (a := ()) (checkThat_eq_ok_iff.mpr ⟨hle, rfl⟩)]
  rfl

private theorem length_withoutDst (h : 40 ≤ packet.length) :
    (withoutDst packet).length = packet.length - 16 := by
  unfold withoutDst headerPositionOfDst hashipAddrSize
  rw [List.length_append, List.length_take, List.length_drop]
  omega

private theorem take_withoutDst (h : 40 ≤ packet.length) :
    (withoutDst packet).take headerPositionOfDst = packet.take headerPositionOfDst := by
  unfold withoutDst
  rw [List.take_append_of_le_length, List.take_take, min_self]
  rw [List.length_take]
  exact le_min le_rfl (le_trans (by decide) h)

/-- The destination is put back where it was cut out. -/
private theorem stringInsert_withoutDst (h : IsPacket src dst packet) (s : σ) :
    stringInsert (withoutDst packet) headerPositionOfDst dst.octets s = .ok packet s := by
  have hle : headerPositionOfDst ≤ (withoutDst packet).length := by
    have hge := h.length_ge
    rw [length_withoutDst hge]
    unfold headerPositionOfDst
    omega
  have hdrop : (withoutDst packet).drop headerPositionOfDst =
      packet.drop (headerPositionOfDst + hashipAddrSize) := by
    have hlen : (packet.take headerPositionOfDst).length = headerPositionOfDst :=
      List.length_take_of_le (le_trans (by decide) h.length_ge)
    rw [withoutDst, List.drop_append_of_le_length hlen.ge, List.drop_eq_nil_of_le hlen.le,
      List.nil_append]
  rw [stringInsert, bind_of_ok (a := ()) (checkThat_eq_ok_iff.mpr ⟨hle, rfl⟩), hdrop,
    take_withoutDst h.length_ge, ← h.dst_eq, ← List.drop_drop, List.take_append_drop,
    List.take_append_drop]
  rfl

/-- The addresses of a packet are read behind the header of the card. -/
private theorem parseTunIpSrcDst_of_isPacket (h : IsPacket src dst packet) {header : Bytes}
    (hheader : header.length = headerPositionOfIpv6) (s : σ) :
    parseTunIpSrcDst (header ++ packet) s = .ok (src, dst) s := by
  have hge := h.length_ge
  have hdrop : ∀ n, (header ++ packet).drop (headerPositionOfIpv6 + n) = packet.drop n := by
    intro n
    rw [← hheader, List.drop_append]
    simp
  have haddr : ∀ (hip : HashipAddr) n, (packet.drop n).take hashipAddrSize = hip.octets →
      tunAddress (header ++ packet) (headerPositionOfIpv6 + n) s = .ok hip s := by
    intro hip n heq
    unfold tunAddress HashipAddr.ofAddrDot HashipAddr.ofOctets
    rw [hdrop, heq, dif_pos hip.length_octets]
    rfl
  have hlen : (header ++ packet).length = headerPositionOfIpv6 + packet.length := by
    rw [List.length_append, hheader]
  have hsrc : ¬ (header ++ packet).length < headerPositionOfIpv6 + headerPositionOfSrc + hashipAddrSize := by
    rw [hlen]
    unfold headerPositionOfSrc hashipAddrSize
    omega
  have hdst : ¬ (header ++ packet).length < headerPositionOfIpv6 + headerPositionOfDst + hashipAddrSize := by
    rw [hlen]
    unfold headerPositionOfDst hashipAddrSize
    omega
  rw [parseTunIpSrcDst, bind_of_ok (a := ()) (checkThat_eq_ok_iff.mpr ⟨hsrc, rfl⟩),
    bind_of_ok (a := ()) (checkThat_eq_ok_iff.mpr ⟨hdst, rfl⟩), bind_of_ok (haddr src _ h.src_eq),
    bind_of_ok (haddr dst _ h.dst_eq)]
  rfl

end Packet

/-! ### The node that sends -/

/-- A boxed packet on its way. -/
def boxedData (src dst : HashipAddr) (cipher nonce : Bytes) : TunneledData :=
  { srcHip := src, dstHip := dst, ttl := 5, nonceUsed := nonce, blob := cipher }

/-- What one tunnel boxes the other one unboxes. -/
theorem unboxAbNonce_of_boxAb (laws : SecretboxLaws lib) {ct ct₁ ct' : TunnelUse} (h : ct.Agrees ct')
    {msg cipher nonce : Bytes} {node' : Tunserver}
    (hbox : ct.boxAb lib msg node = .ok ((cipher, nonce), ct₁) node') (receiver : Tunserver) :
    ct'.unboxAbNonce lib cipher nonce receiver = .ok msg receiver := by
  obtain ⟨cb, hboxer, -, hcipher, -⟩ := CryptoTunnel.boxAb_eq_ok_iff.mp hbox
  obtain ⟨cb₁, cb', hboxer', hunboxer, hkey⟩ := h
  obtain rfl : cb = cb₁ := Option.some.inj (hboxer.symm.trans hboxer')
  rw [CryptoTunnel.unboxAbNonce, CStream.unboxNonce, hunboxer]
  exact fromExcept_eq_ok_iff.mpr ⟨hkey ▸ laws.open_box hcipher, rfl⟩

section Send

variable {src dst : HashipAddr} {packet header : Bytes} {ct : TunnelUse}

/-- A packet for an address that there is a tunnel for is boxed and routed, unless the address is no one of
the virtual network, or more was read than there is room for. -/
theorem finalState_handleTunPacket (hpacket : IsPacket src dst packet)
    (hheader : header.length = headerPositionOfIpv6) (hct : node.tunnel[dst]? = some ct) :
    finalState (handleTunPacket lib (header ++ packet)) node =
      if addrIsGalaxy dst = true ∧ (header ++ packet).length ≤ bufSize then
        match ct.boxAb lib (withoutDst packet) node with
        | .ok ((cipher, nonce), ct₁) _ =>
          finalState (routeTunDataToItsDestinationTop (boxedData src dst cipher nonce) ownReason)
            { node with tunnel := node.tunnel.insert dst ct₁ }
        | .error _ _ => node
      else node := by
  have hge : (header ++ packet).length ≥ headerPositionOfIpv6 := by
    rw [List.length_append, hheader]
    exact Nat.le_add_right _ _
  have hdrop : (header ++ packet).drop headerPositionOfIpv6 = packet := by
    rw [← hheader, List.drop_left]
  rw [handleTunPacket, finalState_bind_of_ok (parseTunIpSrcDst_of_isPacket hpacket hheader node)]
  dsimp only
  by_cases hgalaxy : addrIsGalaxy dst = true
  swap
  · rw [if_pos hgalaxy, if_neg fun h => hgalaxy h.1]
    rfl
  rw [if_neg (not_not.mpr hgalaxy), finalState_bind_of_ok (get_apply node), hct]
  dsimp only
  by_cases hlen : (header ++ packet).length ≤ bufSize
  swap
  -- More was read than there is room for, which is asserted not to happen.
  · have habort : (assertThat ((header ++ packet).length ≤ bufSize ∧
        (header ++ packet).length ≥ headerPositionOfIpv6) : Node Unit) node = .error .abort node :=
      (assertThat_apply _ node).trans (if_neg fun h => hlen h.1)
    rw [if_neg fun h => hlen h.2, finalState_bind_of_error habort]
  rw [if_pos ⟨hgalaxy, hlen⟩,
    finalState_bind_of_ok (a := ()) (assertThat_eq_ok_iff.mpr ⟨⟨hlen, hge⟩, rfl⟩), hdrop,
    finalState_bind_of_ok (stringErase_dst hpacket.length_ge node)]
  cases hbox : ct.boxAb lib (withoutDst packet) node with
  | ok r node' =>
    obtain ⟨⟨cipher, nonce⟩, ct₁⟩ := r
    obtain ⟨cb, -, -, -, rfl, -⟩ := CryptoTunnel.boxAb_eq_ok_iff.mp hbox
    rw [finalState_bind_of_ok hbox]
    exact finalState_bind_pure _
  | error e node' =>
    have hstate : finalState (ct.boxAb lib (withoutDst packet)) node = node :=
      preserves_boxAb (I := fun node₁ => node₁ = node) ct _ node rfl
    rw [finalState_of_error hbox] at hstate
    rw [finalState_bind_of_error hbox, hstate]

/-- The data that are sent because of a packet are the boxed packet. -/
theorem boxed_of_tunneledIn (hpacket : IsPacket src dst packet)
    (hheader : header.length = headerPositionOfIpv6) (hct : node.tunnel[dst]? = some ct)
    {d : Ip46Addr × Bytes} (hd : d ∈ tunneledIn
      ((finalState ((Event.tunPacket (header ++ packet)).run lib) node).sentSince node)) :
    ∃ cipher nonce ct₁, ct.boxAb lib (withoutDst packet) node = .ok ((cipher, nonce), ct₁) node ∧
      (header ++ packet).length ≤ bufSize ∧ Peering.Writable (boxedData src dst cipher nonce) ∧
        d.2 = tunneledOctets (boxedData src dst cipher nonce) := by
  have hnone : tunneledIn (node.sentSince node) = [] :=
    congrArg tunneledIn (sentSince_of_append (List.nil_append _).symm)
  rw [finalState_run, Event.handle, finalState_handleTunPacket hpacket hheader hct] at hd
  split at hd
  next hwhere =>
    cases hbox : ct.boxAb lib (withoutDst packet) node with
    | error e node' =>
      rw [hbox] at hd
      simp [hnone] at hd
    | ok r node' =>
      obtain ⟨⟨cipher, nonce⟩, ct₁⟩ := r
      obtain ⟨cb, -, -, -, rfl, -⟩ := CryptoTunnel.boxAb_eq_ok_iff.mp hbox
      rw [hbox] at hd
      dsimp only at hd
      obtain ⟨new, hsent, hnew⟩ := sent_routeTop (boxedData src dst cipher nonce) ownReason
        { node' with tunnel := node'.tunnel.insert dst ct₁ }
      have happend : (finalState (routeTunDataToItsDestinationTop (boxedData src dst cipher nonce)
          ownReason) { node' with tunnel := node'.tunnel.insert dst ct₁ }).sent =
            new ++ node'.sent := hsent
      rw [sentSince_of_append happend] at hd
      obtain ⟨hmem, hcmd⟩ := List.mem_filter.mp hd
      obtain rfl | ⟨hip, peering, -, hwrite, -, rfl⟩ | ⟨-, hquery⟩ := hnew
      · cases hmem
      · obtain rfl := List.mem_singleton.mp hmem
        exact ⟨cipher, nonce, ct₁, rfl, hwhere.2, hwrite, rfl⟩
      -- Queries are no tunneled data.
      · have hcmd := of_decide_eq_true hcmd
        rw [hquery d hmem] at hcmd
        cases hcmd
  · simp [hnone] at hd

end Send

/-! ### On the way -/

/-- A datagram that carries data, with some TTL. It is all that forwarding keeps, and all that the receiver
needs. -/
def Carries (packet : TunneledData) (data : Bytes) : Prop :=
  ∃ ttl : ℤ, 0 ≤ ttl ∧ ttl < 256 ∧ data = tunneledOctets { packet with ttl }

section Carried

variable {packet : TunneledData} {data : Bytes}

/-- The data that a datagram carries are read by whoever gets it from a peer. -/
theorem Carries.acceptedPacket (h : Carries packet data) (hwrite : Peering.Writable packet)
    (hblob : packet.blob.length ≤ saneMaxSizeForString) {senderPip : Ip46Addr} {sender : Peering}
    (hsender : node.senderOf senderPip = some sender) :
    ∃ ttl : ℤ, node.acceptedPacket senderPip data = some (sender, { packet with ttl }) := by
  obtain ⟨ttl, h0, hlt, rfl⟩ := h
  refine ⟨ttl, ?_⟩
  have hcmd : datagramCmd (tunneledOctets { packet with ttl }) = some .tunneledData :=
    datagramCmd_cmdOctets _ _
  have hread : returned (within (parserOfBuffer (tunneledOctets { packet with ttl })) popTunneledData :
      Node _) node = some { packet with ttl } := by
    have hreads : Reads popTunneledData (tunneledOctets { packet with ttl }) { packet with ttl } :=
      reads_popTunneledData hwrite h0 hlt hblob
    have hstart := hreads.apply_start []
    rw [List.append_nil] at hstart
    exact returned_eq_some_iff.mpr ⟨node, within_eq_ok_iff.mpr ⟨⟨_, hstart⟩, rfl⟩⟩
  simp [Tunserver.acceptedPacket, hcmd, hsender, hread]

/-- A datagram is forwarded as one that carries the same data. By induction this holds for any number of nodes
on the way. -/
theorem Carries.forwards (h : Carries packet data) (hwrite : Peering.Writable packet)
    (hblob : packet.blob.length ≤ saneMaxSizeForString) {data' : Bytes}
    (hforwards : Forwards lib data data') : Carries packet data' := by
  obtain ⟨node, senderPip, sender, read, ttl, haccept, h0, hle, rfl⟩ := exists_of_forwards hforwards
  obtain ⟨ttl', haccept'⟩ := h.acceptedPacket hwrite hblob (of_acceptedPacket haccept).2.1
  obtain rfl := (Prod.mk.inj (Option.some.inj (haccept.symm.trans haccept'))).2
  exact ⟨ttl, h0.le, by omega, rfl⟩

end Carried

/-! ### The node that receives -/

section Receive

variable {packet : TunneledData} {content : Bytes}

private theorem checkIpProtocol_eq_ok {data : Bytes} {b : UInt8}
    (h : data[headerPositionOfIpProtocolType]? = some b) :
    checkIpProtocol data node = .ok (decide (b.toInt8 ∈ node.supportedIpProtocols)) node := by
  have hnumber : (getIpProtocolNumber data : Node Int8) node = .ok b.toInt8 node := by
    rw [getIpProtocolNumber, bind_of_ok (vectorAt_eq_ok_iff.mpr ⟨h, rfl⟩)]
    rfl
  rw [checkIpProtocol, bind_of_ok hnumber, bind_of_ok (get_apply node)]
  rfl

private theorem checkPacketSourceAddress_eq_ok {expected : HashipAddr} {tundata : Bytes}
    (h : 40 ≤ tundata.length) :
    (checkPacketSourceAddress expected tundata : Node Bool) node =
      .ok (decide (expected.octets = (tundata.drop headerPositionOfSrc).take hashipAddrSize)) node := by
  have hexpected := expected.length_octets
  have hlen : ((tundata.drop headerPositionOfSrc).take 16).length = 16 := by
    unfold headerPositionOfSrc
    rw [List.length_take, List.length_drop]
    omega
  have hoffset : ¬ headerPositionOfSrc > tundata.length - 16 := by
    unfold headerPositionOfSrc
    omega
  rw [checkPacketSourceAddress, checkPacketAddress,
    bind_of_ok (a := ()) (checkThat_eq_ok_iff.mpr ⟨not_lt.mpr h, rfl⟩),
    bind_of_ok (a := ()) (checkThat_eq_ok_iff.mpr ⟨hoffset, rfl⟩),
    bind_of_ok (a := ()) (assertThat_eq_ok_iff.mpr ⟨hexpected.trans hlen.symm, rfl⟩),
    bind_of_ok (a := ()) (assertThat_eq_ok_iff.mpr ⟨hlen, rfl⟩)]
  rfl

/-- Data for the node itself that its tunnel for the sender unboxes. -/
structure Unboxes (lib : CryptoLib) (node : Tunserver) (packet : TunneledData) (content : Bytes) :
    Prop where
  mine : packet.dstHip = node.myHip
  opened : ∃ ct, node.tunnel[packet.srcHip]? = some ct ∧
    ct.unboxAbNonce lib packet.blob packet.nonceUsed node = .ok content node

/-- What is done with the content. -/
theorem finalState_of_unboxes {senderPip : Ip46Addr} {buf : Bytes} {sender : Peering}
    (haccept : node.acceptedPacket senderPip buf = some (sender, packet))
    (h : Unboxes lib node packet content) :
    finalState (handleDatagram lib senderPip buf) node = finalState (do
      if ← checkIpProtocol content then
        let tundata ← stringInsert content headerPositionOfDst packet.dstHip.octets
        let same ← checkPacketSourceAddress packet.srcHip tundata
        checkThat (same = true) (.runtimeError "crypto authentification of source IP failed")
        writeToTun (tunHeader ++ tundata)) node := by
  obtain ⟨ct, hct, hunbox⟩ := h.opened
  rw [finalState_congr (handleDatagram_of_packet haccept), if_pos h.mine, receiveTunneledData,
    finalState_bind_of_ok (get_apply node), hct]
  exact finalState_bind_of_ok hunbox

/-- The rest of a packet is written as the packet. -/
theorem writtenToTun_of_withoutDst {senderPip : Ip46Addr} {buf original : Bytes} {sender : Peering}
    (haccept : node.acceptedPacket senderPip buf = some (sender, packet))
    (h : Unboxes lib node packet (withoutDst original))
    (hpacket : IsPacket packet.srcHip packet.dstHip original)
    (hsupported : node.supportedIpProtocols = [6, 17, 58]) :
    (finalState (handleDatagram lib senderPip buf) node).writtenToTun =
      (tunHeader ++ original) :: node.writtenToTun := by
  have hprotocol : ∃ b, (withoutDst original)[headerPositionOfIpProtocolType]? = some b ∧
      decide (b.toInt8 ∈ node.supportedIpProtocols) = true := by
    have hsame : (withoutDst original)[headerPositionOfIpProtocolType]? =
        original[headerPositionOfIpProtocolType]? := by
      rw [← List.getElem?_take_of_lt (by decide : headerPositionOfIpProtocolType < headerPositionOfDst),
        take_withoutDst hpacket.length_ge, List.getElem?_take_of_lt (by decide)]
    rw [hsame, hsupported]
    obtain h6 | h17 | h58 := hpacket.protocol
    · exact ⟨6, h6, by decide⟩
    · exact ⟨17, h17, by decide⟩
    · exact ⟨58, h58, by decide⟩
  obtain ⟨b, hb, hin⟩ := hprotocol
  have hcheck : checkIpProtocol (withoutDst original) node = _ := checkIpProtocol_eq_ok hb
  rw [hin] at hcheck
  have hsource : (checkPacketSourceAddress packet.srcHip original : Node Bool) node = .ok true node := by
    rw [checkPacketSourceAddress_eq_ok hpacket.length_ge, hpacket.src_eq]
    simp
  rw [finalState_of_unboxes haccept h, finalState_bind_of_ok hcheck, if_pos rfl,
    finalState_bind_of_ok (stringInsert_withoutDst hpacket node), finalState_bind_of_ok hsource,
    finalState_bind_of_ok (a := ()) (checkThat_eq_ok_iff.mpr ⟨rfl, rfl⟩)]
  rfl

/-- Content with another source than the owner of the tunnel is not written. It is boxed with the right key,
so it is the check of the address that refuses it. -/
theorem writtenToTun_of_forged {senderPip : Ip46Addr} {buf : Bytes} {sender : Peering}
    (haccept : node.acceptedPacket senderPip buf = some (sender, packet))
    (h : Unboxes lib node packet content)
    (hforged : (content.drop headerPositionOfSrc).take hashipAddrSize ≠ packet.srcHip.octets) :
    (finalState (handleDatagram lib senderPip buf) node).writtenToTun = node.writtenToTun := by
  let J : Tunserver → Prop := fun node' => node' = node
  rw [finalState_of_unboxes haccept h]
  suffices hsame : J (finalState _ node) from congrArg Tunserver.writtenToTun hsame
  refine Preserves.bind_of (I := J) (preserves_checkIpProtocol content)
    (fun node₁ supported node₂ _ _ h₂ => ?_) node rfl
  split
  swap
  · exact h₂
  refine Preserves.bind_of (I := J) (.bind (.checkThat _ _) fun _ => .pure _)
    (fun node₃ tundata node₄ _ hinsert h₄ => ?_) node₂ h₂
  refine Preserves.bind_of (I := J) (preserves_checkPacketSourceAddress _ _)
    (fun node₅ same node₆ _ hsame h₆ => ?_) node₄ h₄
  -- Inserting the destination moves nothing before it, so the source is where it was.
  obtain ⟨_, _, hlong, hinsert⟩ := bind_eq_ok_iff.mp hinsert
  obtain ⟨hle, rfl⟩ := checkThat_eq_ok_iff.mp hlong
  cases hinsert
  have htake : (content.take headerPositionOfDst).length = headerPositionOfDst :=
    List.length_take_of_le hle
  have hlen : 40 ≤ (content.take headerPositionOfDst ++
      (packet.dstHip.octets ++ content.drop headerPositionOfDst)).length := by
    rw [List.length_append, List.length_append, htake, packet.dstHip.length_octets]
    unfold headerPositionOfDst hashipAddrSize
    omega
  have hsource : ((content.take headerPositionOfDst ++ (packet.dstHip.octets ++
      content.drop headerPositionOfDst)).drop headerPositionOfSrc).take hashipAddrSize =
        (content.drop headerPositionOfSrc).take hashipAddrSize := by
    have hbefore : ∀ xs : Bytes, (xs.drop headerPositionOfSrc).take hashipAddrSize =
        (xs.take headerPositionOfDst).drop headerPositionOfSrc := fun xs =>
          (List.drop_take (i := headerPositionOfSrc) (j := headerPositionOfDst) (l := xs)).symm
    rw [hbefore, hbefore, List.take_append_of_le_length htake.ge, List.take_take, min_self]
  rw [checkPacketSourceAddress_eq_ok hlen, hsource, decide_eq_false fun heq => hforged heq.symm] at hsame
  obtain rfl : same = false := by
    cases hsame
    rfl
  exact h₆

end Receive

/-! ### From end to end -/

theorem closed_supportedIpProtocols :
    Closed fun node => node.supportedIpProtocols = ([6, 17, 58] : List Int8) where
  send _ _ _ _ _ h := h
  unrelated _ _ _ _ _ h := h
  search dst reason searchTtl node h := by
    obtain ⟨m, hm, -⟩ := finalState_searchRoute dst reason searchTtl node
    rw [hm]
    exact h

/-- No node ever changes the protocols that it writes packets of. -/
private theorem supportedIpProtocols_of_reached {Allowed : Tunserver → Event → Prop}
    (h : Reached lib Allowed node) : node.supportedIpProtocols = [6, 17, 58] :=
  closed_supportedIpProtocols.reached (fun _ _ _ _ _ => rfl)
    (fun _ _ h _ => ⟨fun _ _ _ => h, fun _ _ _ => h, fun _ => h⟩) h

section EndToEnd

variable {src dst : HashipAddr} {packet header : Bytes} {ct ct' : TunnelUse}

/-- A boxed packet is short enough to be read again. -/
theorem length_cipher_le (laws : SecretboxLaws lib) (hpacket : IsPacket src dst packet)
    (hlen : (header ++ packet).length ≤ bufSize) {cipher nonce : Bytes} {ct₁ : TunnelUse}
    (hbox : ct.boxAb lib (withoutDst packet) node = .ok ((cipher, nonce), ct₁) node) :
    cipher.length ≤ saneMaxSizeForString := by
  obtain ⟨cb, -, -, hcipher, -⟩ := CryptoTunnel.boxAb_eq_ok_iff.mp hbox
  have hlong : cipher.length ≤ (withoutDst packet).length + 16 := laws.length_box hcipher
  have hge := hpacket.length_ge
  rw [length_withoutDst hge] at hlong
  rw [List.length_append] at hlen
  have hsane : bufSize ≤ saneMaxSizeForString := by decide
  omega

/-- A packet is sent to the next peer on the way, when its tunnel can box it. -/
theorem tunneledIn_of_tunPacket (laws : SecretboxLaws lib) (hpacket : IsPacket src dst packet)
    (hheader : header.length = headerPositionOfIpv6) (hct : node.tunnel[dst]? = some ct)
    (hgalaxy : addrIsGalaxy dst = true) (hlen : (header ++ packet).length ≤ bufSize)
    (hbox : (returned (ct.boxAb lib (withoutDst packet)) node).isSome) {peering : Peering}
    (hnext : node.nextPeer 2 dst = .send peering) (hsend : peering.Sendable)
    (hon : node.udpDisabled = false) :
    ∃ data, tunneledIn ((finalState ((Event.tunPacket (header ++ packet)).run lib) node).sentSince node) =
      [(peering.getPip, data)] := by
  obtain ⟨⟨⟨cipher, nonce⟩, ct₁⟩, hreturned⟩ := Option.isSome_iff_exists.mp hbox
  obtain ⟨node', hrun⟩ := returned_eq_some_iff.mp hreturned
  obtain ⟨cb, -, hnonce, hcipher, rfl, -⟩ := CryptoTunnel.boxAb_eq_ok_iff.mp hrun
  have hwrite : Peering.Writable (boxedData src dst cipher nonce) :=
    ⟨laws.length_nonce hnonce, lt_uvarintLimit_of_le_sane (length_cipher_le laws hpacket hlen hrun)⟩
  have hpeers : node'.peer.size ≠ 0 := by
    obtain ⟨hip, hget⟩ := exists_of_nextPeer_eq_send 2 _ hnext
    exact peer_size_ne_zero hget
  let boxed : Tunserver := { node' with tunnel := node'.tunnel.insert dst ct₁ }
  have hrouted : routed boxed (boxedData src dst cipher nonce) = .send peering :=
    (if_neg (not_or.mpr ⟨show ¬ (5 : ℤ) ≤ 0 by decide, hpeers⟩)).trans hnext
  have hpush : peering.sendDataRAWUdp (tunneledOctets (boxedData src dst cipher nonce)) boxed = _ :=
    Peering.sendDataRAWUdp_of_sendable hsend hon
  have hsent : (finalState ((Event.tunPacket (header ++ packet)).run lib) node').sent =
      [(peering.getPip, tunneledOctets (boxedData src dst cipher nonce))] ++ node'.sent := by
    rw [finalState_run, Event.handle, finalState_handleTunPacket hpacket hheader hct,
      if_pos ⟨hgalaxy, hlen⟩, hrun]
    change (finalState (routeTunDataToItsDestinationTop _ ownReason) boxed).sent = _
    rw [finalState_routeTop, hrouted]
    dsimp only
    rw [finalState_congr (Peering.sendDataUdp_of_writable hwrite), finalState_of_ok hpush]
    rfl
  refine ⟨tunneledOctets (boxedData src dst cipher nonce), ?_⟩
  rw [sentSince_of_append hsent]
  exact List.filter_cons_of_pos (decide_eq_true (datagramCmd_cmdOctets _ _))

/-- The packet that a datagram carries is written to the card of the node that it is for, whoever has
forwarded it. -/
theorem writtenToTun_of_forwards (laws : SecretboxLaws lib) {receiver : Tunserver}
    (hreceiver : receiver.supportedIpProtocols = [6, 17, 58])
    (hpacket : IsPacket src receiver.myHip packet) (hheader : header.length = headerPositionOfIpv6)
    (hct : node.tunnel[receiver.myHip]? = some ct) (hct' : receiver.tunnel[src]? = some ct')
    (hagree : ct.Agrees ct') {d : Ip46Addr × Bytes} (hd : d ∈ tunneledIn
      ((finalState ((Event.tunPacket (header ++ packet)).run lib) node).sentSince node))
    {data : Bytes} (hforwards : Relation.ReflTransGen (Forwards lib) d.2 data) {senderPip : Ip46Addr}
    {sender : Peering} (hsender : receiver.senderOf senderPip = some sender) :
    (finalState ((Event.datagram senderPip data).run lib) receiver).writtenToTun =
      (tunHeader ++ packet) :: receiver.writtenToTun := by
  obtain ⟨cipher, nonce, ct₁, hbox, hlen, hwrite, heq⟩ := boxed_of_tunneledIn hpacket hheader hct hd
  have hblob : cipher.length ≤ saneMaxSizeForString := length_cipher_le laws hpacket hlen hbox
  have hcarries : Carries (boxedData src receiver.myHip cipher nonce) data := by
    induction hforwards with
    | refl => exact ⟨5, by decide, by decide, heq⟩
    | tail _ hforward ih => exact ih.forwards hwrite hblob hforward
  obtain ⟨ttl, haccept⟩ := hcarries.acceptedPacket hwrite hblob hsender
  have hunboxes : Unboxes lib receiver { boxedData src receiver.myHip cipher nonce with ttl }
      (withoutDst packet) :=
    ⟨rfl, ct', hct', unboxAbNonce_of_boxAb laws hagree hbox receiver⟩
  rw [finalState_run]
  exact writtenToTun_of_withoutDst haccept hunboxes hpacket hreceiver

end EndToEnd

/-- Packets arrive as they were sent: whatever datagram with data the sender makes of a packet, and whoever
forwards it, the receiver writes the header of its card and then exactly that packet. There is such a
datagram when the packet can be boxed and its next peer can be sent to. And content with another source
than the owner of the tunnel is not written. -/
theorem packet_integrity (laws : SecretboxLaws lib) :
    (∀ (sender receiver : Tunserver) (ct ct' : TunnelUse) (header packet : Bytes),
      Reached lib (fun _ _ => True) receiver →
      sender.tunnel[receiver.myHip]? = some ct → receiver.tunnel[sender.myHip]? = some ct' →
      ct.Agrees ct' → header.length = headerPositionOfIpv6 →
      IsPacket sender.myHip receiver.myHip packet →
      let new := tunneledIn
        ((finalState ((Event.tunPacket (header ++ packet)).run lib) sender).sentSince sender)
      (∀ d ∈ new, ∀ data, Relation.ReflTransGen (Forwards lib) d.2 data →
        ∀ senderPip peering, receiver.senderOf senderPip = some peering →
          (finalState ((Event.datagram senderPip data).run lib) receiver).writtenToTun =
            (tunHeader ++ packet) :: receiver.writtenToTun) ∧
      ∀ peering, addrIsGalaxy receiver.myHip = true → (header ++ packet).length ≤ bufSize →
        (returned (ct.boxAb lib (withoutDst packet)) sender).isSome →
        sender.nextPeer 2 receiver.myHip = .send peering → peering.Sendable →
        sender.udpDisabled = false → ∃ data, new = [(peering.getPip, data)]) ∧
    ∀ (receiver : Tunserver) senderPip buf sender (packet : TunneledData) ct content,
      receiver.acceptedPacket senderPip buf = some (sender, packet) → packet.dstHip = receiver.myHip →
      receiver.tunnel[packet.srcHip]? = some ct →
      ct.unboxAbNonce lib packet.blob packet.nonceUsed receiver = .ok content receiver →
      (content.drop headerPositionOfSrc).take hashipAddrSize ≠ packet.srcHip.octets →
        (finalState ((Event.datagram senderPip buf).run lib) receiver).writtenToTun =
          receiver.writtenToTun := by
  refine ⟨fun sender receiver ct ct' header packet hreached hct hct' hagree hheader hpacket => ⟨?_, ?_⟩,
    fun receiver senderPip buf sender packet ct content haccept hmine hct hunbox hforged => ?_⟩
  · intro d hd data hforwards senderPip peering hsender
    exact writtenToTun_of_forwards laws (supportedIpProtocols_of_reached hreached) hpacket hheader hct
      hct' hagree hd hforwards hsender
  · intro peering hgalaxy hlen hbox hnext hsend hon
    exact tunneledIn_of_tunPacket laws hpacket hheader hct hgalaxy hlen hbox hnext hsend hon
  · rw [finalState_run]
    exact writtenToTun_of_forged haccept ⟨hmine, ct, hct, hunbox⟩ hforged

/-- The sample library, with nonces that are as long as nonces are. -/
def CryptoLib.sampleNonces : CryptoLib :=
  { CryptoLib.sample with
    nonceAt := fun odd count => .ok ((if odd then 1 else 0) :: List.replicate 23 (UInt8.ofNat count)) }

theorem secretboxLaws_sampleNonces : SecretboxLaws CryptoLib.sampleNonces where
  open_box h := by
    cases h
    rfl
  length_box h := by
    cases h
    exact Nat.le_add_right _ _
  length_nonce h := by
    cases h
    rfl

/-- A node that has another one as a peer, and a tunnel for it. -/
def tunnelEnd (k peer : UInt8) : Tunserver :=
  let met := finalState ((sampleMeet peer).run CryptoLib.sampleNonces) (sampleNode k)
  finalState ((Event.op (.addTunnelToPubkey (sampleKey peer))).run CryptoLib.sampleNonces) met

/-- A UDP packet with one octet behind its header, from one node to another. -/
def udpPacket (src dst : UInt8) : Bytes :=
  [0x60, 0, 0, 0, 0, 1, 17, 64] ++ (sampleHip src).octets ++ (sampleHip dst).octets ++ [7]

/-- A node gets the packet that another one has sent it. -/
theorem packet_integrity_example :
    let packet := udpPacket 1 2
    let new := tunneledIn ((finalState ((Event.tunPacket (tunHeader ++ packet)).run
      CryptoLib.sampleNonces) (tunnelEnd 1 2)).sentSince (tunnelEnd 1 2))
    (∃ data, new = [(samplePip 2, data)]) ∧ ∀ d ∈ new,
      (finalState ((Event.datagram (samplePip 1) d.2).run CryptoLib.sampleNonces)
        (tunnelEnd 2 1)).writtenToTun = [tunHeader ++ packet] := by
  intro packet new
  have hstart : Reached CryptoLib.sampleNonces (fun _ _ => True) (sampleNode 2) := .start _ _ _ _ _
  have hmet : (sampleMeet 1).run CryptoLib.sampleNonces (sampleNode 2) = _ :=
    eq_ok_finalState (a := ()) (by decide +kernel)
  have htunnel : (Event.op (.addTunnelToPubkey (sampleKey 1))).run CryptoLib.sampleNonces
      (finalState ((sampleMeet 1).run CryptoLib.sampleNonces) (sampleNode 2)) = _ :=
    eq_ok_finalState (a := ()) (by decide +kernel)
  have hreached : Reached CryptoLib.sampleNonces (fun _ _ => True) (tunnelEnd 2 1) :=
    (hstart.step trivial hmet).step trivial htunnel
  have hboxer : ((tunnelEnd 1 2).tunnel[sampleHip 2]?.map fun ct =>
      (ct.streamCryptoAb.boxer.map Boxer.key,
        (returned (ct.boxAb CryptoLib.sampleNonces (withoutDst packet)) (tunnelEnd 1 2)).isSome)) =
          some (some (List.replicate 32 0), true) := by decide +kernel
  have hunboxer : ((tunnelEnd 2 1).tunnel[sampleHip 1]?.map fun ct =>
      ct.streamCryptoAb.unboxer.map Boxer.key) = some (some (List.replicate 32 0)) := by decide +kernel
  obtain ⟨ct, hct, hkey⟩ := Option.map_eq_some_iff.mp hboxer
  obtain ⟨ct', hct', hkey'⟩ := Option.map_eq_some_iff.mp hunboxer
  obtain ⟨hkey, hbox⟩ := Prod.mk.inj hkey
  obtain ⟨cb, hcb, hkey⟩ := Option.map_eq_some_iff.mp hkey
  obtain ⟨cb', hcb', hkey'⟩ := Option.map_eq_some_iff.mp hkey'
  have hagree : ct.Agrees ct' := ⟨cb, cb', hcb, hcb', hkey.trans hkey'.symm⟩
  have hpacket : IsPacket (tunnelEnd 1 2).myHip (tunnelEnd 2 1).myHip packet :=
    ⟨by decide, by decide +kernel, by decide +kernel, .inr (.inl (by decide))⟩
  obtain ⟨harrives, hsends⟩ := (packet_integrity secretboxLaws_sampleNonces).1 (tunnelEnd 1 2)
    (tunnelEnd 2 1) ct ct' tunHeader packet hreached hct hct' hagree rfl hpacket
  have hpeer : ((tunnelEnd 1 2).peer[sampleHip 2]?.map Peering.getPip) = some (samplePip 2) := by
    decide +kernel
  have hsender : ((tunnelEnd 2 1).senderOf (samplePip 1)).isSome := by decide +kernel
  obtain ⟨peering, hget, hpip⟩ := Option.map_eq_some_iff.mp hpeer
  obtain ⟨sender, hsender⟩ := Option.isSome_iff_exists.mp hsender
  have hnext : (tunnelEnd 1 2).nextPeer 2 (sampleHip 2) = .send peering := by rw [nextPeer, hget]
  have hsendable : peering.Sendable := by
    rw [Peering.Sendable, hpip]
    rfl
  obtain ⟨data, hnew⟩ := hsends peering rfl (by decide) hbox hnext hsendable (by decide +kernel)
  have hnothing : (tunnelEnd 2 1).writtenToTun = [] := by decide +kernel
  refine ⟨⟨data, hpip ▸ hnew⟩, fun d hd => ?_⟩
  rw [← hnothing]
  exact harrives d hd d.2 .refl (samplePip 1) sender hsender

end Galaxy42
