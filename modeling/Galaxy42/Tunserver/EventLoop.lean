import Galaxy42.Tunserver.Routing

/-!
# The event loop

What a node does with a datagram, with a packet from its virtual card, and when it pings its peers. A
round of the loop catches every exception, so it ends unless the process is aborted. The virtual card
takes all packets it is given. Statistics are left out, and so is the choice of the time at which peers
are pinged or taken to have timed out.

Each command has a handler of its own, which begins with what it reads and goes on with what it does. The
branches follow the sources: a command that is not taken from unknown peers is looked at only when the sender
is found, by the address that the datagram has come from, in the loop over the table of peers; a greeting is
the one command that everybody may send.

Three places do what their comments do not say, and are kept as they are. Without a tunnel for the sender,
data for the node itself are answered with empty data that have the TTL that was received. The TTL of a query
is lowered and limited into a variable that is not used. And an address in a packet from the card is turned
into a text and back.

What is read from the card has four octets in front of the IPv6 header (`headerPositionOfIpv6`), and what is
written to it begins with such octets too (`tunHeader`).
-/

namespace Galaxy42

open Toolkit Program TrivialSerialize Tunserver

variable {σ : Type}

/-! ### Addresses and packets -/

/-- `header_position_of_src` of an IPv6 header -/
def headerPositionOfSrc : ℕ := 8

/-- `header_position_of_dst` of an IPv6 header -/
def headerPositionOfDst : ℕ := 24

/-- `header_position_of_ip_protocol_type` of an IPv6 header -/
def headerPositionOfIpProtocolType : ℕ := 6

/-- `g_tuntap::header_position_of_ipv6` -/
def headerPositionOfIpv6 : ℕ := 4

/-- `tun_header` -/
def tunHeader : Bytes := [0x00, 0x00, 0x86, 0xDD]

/-- `buf_size` of the event loop -/
def bufSize : ℕ := 65536

/-- The constructor of an address from a text, for the text that `get_ipv6_string_hexdot` makes of these
octets. -/
def HashipAddr.ofAddrDot (octets : Bytes) : Except Exn HashipAddr :=
  ofOctets octets (.invalidArgument "The IP address looks invalid")

/-- `addr_is_galaxy`. The addresses of the virtual network are those that begin with this octet. -/
def addrIsGalaxy (addr : HashipAddr) : Bool := addr.octets[0]? = some 0xFD

/-- A default constructed `t_crypto_nonce`. Nothing reads its octets. -/
def defaultNonce (lib : CryptoLib) : Crypto Bytes := do
  let draw ← nextDraw
  return (lib.randomBytes draw cryptoBoxNonceBytes).octets

/-- `std::string::insert(pos, str)` -/
def stringInsert (str : Bytes) (pos : ℕ) (piece : Bytes) : Program Exn σ Bytes := do
  checkThat (pos ≤ str.length) .outOfRange
  return str.take pos ++ (piece ++ str.drop pos)

/-- `std::string::erase(pos, len)` -/
def stringErase (str : Bytes) (pos len : ℕ) : Program Exn σ Bytes := do
  checkThat (pos ≤ str.length) .outOfRange
  return str.take pos ++ str.drop (pos + len)

/-- `check_packet_address`. A packet that is shorter than the header of IPv6 throws. -/
def checkPacketAddress (addressExpected : HashipAddr) (packet : Bytes) (offset : ℕ) :
    Program Exn σ Bool := do
  checkThat (¬ packet.length < 40)
    (.invalidArgument "Packet is too small (smaller than ipv6 header)")
  checkThat (¬ offset > packet.length - 16) (.invalidArgument "too big offset")
  let packetAddress := (packet.drop offset).take 16
  assertThat (addressExpected.octets.length = packetAddress.length)
  assertThat (packetAddress.length = 16)
  return addressExpected.octets = packetAddress

/-- `check_packet_source_address` -/
def checkPacketSourceAddress (addressExpected : HashipAddr) (packet : Bytes) :
    Program Exn σ Bool :=
  checkPacketAddress addressExpected packet headerPositionOfSrc

/-- `get_ip_protocol_number`, of which the event loop uses the `char`. -/
def getIpProtocolNumber (data : Bytes) : Program Exn σ Int8 := do
  let protocol ← vectorAt data headerPositionOfIpProtocolType
  return protocol.toInt8

/-- An address in a packet that was read from the virtual card. It is turned into a text and back. Going
through the text gives the same octets back. -/
def tunAddress (buff : Bytes) (pos : ℕ) : Program Exn σ HashipAddr := do
  fromExcept (HashipAddr.ofAddrDot ((buff.drop pos).take hashipAddrSize))

/-- `parse_tun_ip_src_dst`. The buffer must hold both addresses, or an exception is thrown. Nothing else of
the packet is looked at. -/
def parseTunIpSrcDst (buff : Bytes) : Program Exn σ (HashipAddr × HashipAddr) := do
  let posSrc := headerPositionOfIpv6 + headerPositionOfSrc
  let posDst := headerPositionOfIpv6 + headerPositionOfDst
  checkThat (¬ buff.length < posSrc + hashipAddrSize) (.runtimeError "undersized buffer")
  checkThat (¬ buff.length < posDst + hashipAddrSize) (.runtimeError "undersized buffer")
  let retSrc ← tunAddress buff posSrc
  let retDst ← tunAddress buff posDst
  return (retSrc, retDst)

namespace Tunserver

/-- `check_ip_protocol`. The list of the protocols is one of the node, and the number is compared as a `char`. -/
def checkIpProtocol (data : Bytes) : Node Bool := do
  let protocol ← getIpProtocolNumber data
  let node ← get
  return decide (protocol ∈ node.supportedIpProtocols)

/-- `write_to_tun` -/
def writeToTun (tundata : Bytes) : Node Unit :=
  modify fun node => { node with writtenToTun := tundata :: node.writtenToTun }

/-- The loop of `find_peer_by_sender_peering_addr`. A peer without an address of a socket throws, so that
peers behind it are not found. -/
def findPeerIn (ip : Ip46Addr) : List (HashipAddr × Peering) → Node Peering
  | [] => raise (.runtimeError "We do not know a peer with such IP=")
  | v :: peers => do
    let same ← v.2.getPip.equal ip
    if same ∧ v.2.getPip.getAssignedPort = ip.getAssignedPort then
      return v.2
    else
      findPeerIn ip peers

/-- `find_peer_by_sender_peering_addr` -/
def findPeerBySenderPeeringAddr (ip : Ip46Addr) : Node Peering := do
  let node ← get
  findPeerIn ip node.peer.toList

/-! ### Tunneled data -/

/-- The reason of a search for data of our own. -/
def ownReason : RouteReason := { hisAddr := 0, searchMode := .routeOwnPacket }

/-- Tunneled data for us. Without a tunnel for the sender, empty data are routed to it, with the TTL
that was received. -/
def receiveTunneledData (lib : CryptoLib) (packet : TunneledData) : Node Unit := do
  let node ← get
  match node.tunnel[packet.srcHip]? with
  | none =>
    let nonce ← crypto (defaultNonce lib)
    let _ ← routeTunDataToItsDestinationTop
      { srcHip := packet.dstHip, dstHip := packet.srcHip, ttl := packet.ttl, nonceUsed := nonce, blob := [] }
      ownReason
  | some ct =>
    let tundata ← ct.unboxAbNonce lib packet.blob packet.nonceUsed
    if ← checkIpProtocol tundata then
      let tundata ← stringInsert tundata headerPositionOfDst packet.dstHip.octets
      let same ← checkPacketSourceAddress packet.srcHip tundata
      checkThat (same = true) (.runtimeError "crypto authentification of source IP failed")
      writeToTun (tunHeader ++ tundata)

/-- The TTL that data are forwarded with. It is one less than that of the datagram, and at most the one that
is accepted from others. -/
def forwardTtl (requestedTtl : ℤ) : ℤ :=
  let dataRouteTtl := requestedTtl - 1
  let limitIncomingTtl := ttlMaxAccepted
  if dataRouteTtl > limitIncomingTtl then limitIncomingTtl else dataRouteTtl

/-- Tunneled data for someone else. A sender without points left is not served. -/
def forwardTunneledData (sender : Peering) (packet : TunneledData) : Node Unit := do
  if sender.limitPoints < 0 then
    return
  let _ ← routeTunDataToItsDestinationTop { packet with ttl := forwardTtl packet.ttl }
    { hisAddr := packet.srcHip, searchMode := .routeOtherPacket }

/-- The command `e_proto_cmd_tunneled_data`. Whether the data are for this node is told by the destination
alone. -/
def handleTunneledData (lib : CryptoLib) (sender : Peering) (buf : Bytes) : Node Unit := do
  let packet ← within (parserOfBuffer buf) popTunneledData
  let node ← get
  if packet.dstHip = node.myHip then
    receiveTunneledData lib packet
  else
    forwardTunneledData sender packet

/-! ### Greetings -/

/-- What is checked of a greeting, apart from taking it apart: the sender, and the key that the signature
was made with. -/
def readHis (lib : CryptoLib) (senderPip : Ip46Addr) (binHisIDCPub binHisIDIPub binHisIDIIDCSig : Bytes) :
    Node (PeeringReference × HashipPubkey) := do
  let node ← get
  let hisIDI ← MultikeysPub.ofBin binHisIDIPub
  let hisIDI := hisIDI.setIpv6Prefix node.ipv6Prefix
  let hisIDIIDCSig ← Multisign.ofBin binHisIDIIDCSig
  Multisign.multiSignVerify lib hisIDIIDCSig binHisIDCPub hisIDI
  let hisPubkey ← MultikeysPub.ofBin binHisIDIPub
  let hisPubkey := hisPubkey.setIpv6Prefix node.ipv6Prefix
  let addr ← hisPubkey.getIpv6StringBin lib
  let hashipAddr ← fromExcept (HashipAddr.ofAddrDot addr)
  return ({ peeringAddr := senderPip, hashipAddr }, hisPubkey)

/-- What is done with a greeting: the sender becomes a peer, and gets a tunnel. When the tunnel cannot be made
the peer stays in the table. -/
def meet (lib : CryptoLib) (senderPip : Ip46Addr) (binHisIDCPub binHisIDIPub binHisIDIIDCSig : Bytes) :
    Node Unit := do
  let (hisRef, hisPubkey) ← readHis lib senderPip binHisIDCPub binHisIDIPub binHisIDIIDCSig
  addPeerAppendPubkey lib hisRef hisPubkey
  let node ← get
  let hisPubkey ← MultikeysPub.ofBin binHisIDIPub
  let hisPubkey := hisPubkey.setIpv6Prefix node.ipv6Prefix
  addTunnelToPubkey lib hisPubkey

/-- The command `e_proto_cmd_public_hi`. An invalid argument is only warned about. -/
def handlePublicHi (lib : CryptoLib) (senderPip : Ip46Addr) (bin : Bytes) : Node Unit := do
  let (binHisIDCPub, binHisIDIPub, binHisIDIIDCSig) ← within (parserOfBuffer bin) popPublicHi
  catching (meet lib senderPip binHisIDCPub binHisIDIPub binHisIDIIDCSig) fun e =>
    if e.isInvalidArgument then some (pure ()) else none

/-! ### Queries and replies -/

/-- The reply to a query, which is sent when a route is found. The search, if one is made for it, has a TTL
that is lower by one. The reply has the TTL of the query. -/
def answerQuery (senderPip : Ip46Addr) (sender : Peering) (requestedHip : HashipAddr)
    (requestedTtl : ℤ) : Node Unit := do
  let reason : RouteReason := { hisAddr := sender.getHip, searchMode := .helpFind }
  let route ← getRouteOrMaybeSearch requestedHip reason true (requestedTtl - 1)
  let replyTtl := requestedTtl
  let pubkey ← route.pubkey.serializeBin
  let data ← generate do
    pushByteU (UInt8.ofInt replyTtl)
    pushByteU semicolon
    pushByteU (UInt8.ofNat route.cost)
    pushByteU semicolon
    pushBytesN hashipAddrSize requestedHip.octets
    pushByteU semicolon
    pushVarstring pubkey
    pushByteU semicolon
  sender.sendDataUdpCmd .findhipReply data
  let _ ← findPeerBySenderPeeringAddr senderPip

/-- The command `e_proto_cmd_findhip_query`. The TTL is lowered and limited into a variable that is not
used. -/
def handleFindhipQuery (senderPip : Ip46Addr) (sender : Peering) (cmdData : Bytes) : Node Unit := do
  let (requestedHip, requestedTtl) ← parseFindhipQuery cmdData
  if requestedTtl < 1 then
    return
  catching (answerQuery senderPip sender requestedHip requestedTtl) fun _ => some (pure ())

/-- The command `e_proto_cmd_findhip_reply`. A tunnel to the goal is made before its route is stored. The next
hop is who has sent the reply. -/
def handleFindhipReply (lib : CryptoLib) (sender : Peering) (bin : Bytes) : Node Unit := do
  let reply ← within (parserOfBuffer bin) popFindhipReply
  if reply.ttl < 1 then
    return
  let node ← get
  let pubkey := reply.pubkey.setIpv6Prefix node.ipv6Prefix
  addTunnelToPubkey lib pubkey
  let _ ← addRouteInfoAndReturn reply.goalHip
    { nexthop := sender.getHip, pubkey, cost := reply.cost }

/-! ### Datagrams -/

/-- A command from a peer, who is looked up by the address of the sender. A sender who is no peer throws, and
nothing is done. -/
def handlePeerCmd (lib : CryptoLib) (senderPip : Ip46Addr) (cmd : ProtoCmd) (buf : Bytes) :
    Node Unit := do
  let sender ← findPeerBySenderPeeringAddr senderPip
  match cmd with
  | .tunneledData => handleTunneledData lib sender buf
  | .findhipQuery => handleFindhipQuery senderPip sender (buf.drop 2)
  | .findhipReply => handleFindhipReply lib sender (buf.drop 2)
  | _ => return

/-- A command that is understood. -/
def handleCmd (lib : CryptoLib) (senderPip : Ip46Addr) (cmd : ProtoCmd) (buf : Bytes) : Node Unit :=
  if cmd.isValidFromUnknownPeer then
    match cmd with
    | .publicHi => handlePublicHi lib senderPip (buf.drop 2)
    | _ => return
  else
    handlePeerCmd lib senderPip cmd buf

/-- A datagram, of the octets that were received from an address. A datagram of less than two octets is
dropped. -/
def handleDatagram (lib : CryptoLib) (senderPip : Ip46Addr) (buf : Bytes) : Node Unit :=
  match buf with
  | protoVersion :: cmdByte :: _ => do
    checkThat (¬ currentVersion < protoVersion) (.runtimeError "proto_version too new!")
    let cmd ← fromExcept (ProtoCmd.ofInt cmdByte.toInt8)
    handleCmd lib senderPip cmd buf
  | _ => return

/-! ### Packets and pings -/

/-- A packet that was read from the virtual card. Without a tunnel empty data are sent in its place, for which
the node looks for a route if it has none. -/
def handleTunPacket (lib : CryptoLib) (tunReadBuff : Bytes) : Node Unit := do
  let dataRouteTtl := 5
  let (srcHip, dstHip) ← parseTunIpSrcDst tunReadBuff
  if ¬ addrIsGalaxy dstHip then
    return
  let node ← get
  match node.tunnel[dstHip]? with
  | none =>
    let nonce ← crypto (defaultNonce lib)
    let _ ← routeTunDataToItsDestinationTop
      { srcHip, dstHip, ttl := dataRouteTtl, nonceUsed := nonce, blob := [] } ownReason
  | some ct =>
    assertThat (tunReadBuff.length ≤ bufSize ∧ tunReadBuff.length ≥ headerPositionOfIpv6)
    let dataCleartext := tunReadBuff.drop headerPositionOfIpv6
    let dataCleartext ← stringErase dataCleartext headerPositionOfDst hashipAddrSize
    let ((dataEncrypted, nonceUsed), ct) ← ct.boxAb lib dataCleartext
    modify fun node => { node with tunnel := node.tunnel.insert dstHip ct }
    let _ ← routeTunDataToItsDestinationTop
      { srcHip, dstHip, ttl := dataRouteTtl, nonceUsed, blob := dataEncrypted } ownReason

/-- The greeting of one peer. The greeting holds the two keys of the node, and the signature that ties them
together. -/
def pingPeer (node : Tunserver) (IDIIDCSig : Multisign) (peering : Peering) : Node Unit := do
  let cmdData ← generate do
    pushVarstring (← node.myIDC.pub.serializeBin)
    pushVarstring (← node.myIDIPub.serializeBin)
    pushVarstring (← IDIIDCSig.serializeBin)
  peering.sendDataUdpCmd .publicHi cmdData

/-- `peering_ping_all_peers`, with the peers that have timed out, and the signature `m_IDI_IDC_sig`. An
exception at one peer leaves out the peers behind it. -/
def peeringPingAllPeers (enableRemove : Bool) (timedOut : HashipAddr → Bool)
    (IDIIDCSig : Multisign) : Node Unit := do
  if enableRemove then
    modify fun node => { node with peer := node.peer.filter fun hip _ => !timedOut hip }
  let node ← get
  node.peer.toList.forM fun v => pingPeer node IDIIDCSig v.2

end Tunserver

end Galaxy42
