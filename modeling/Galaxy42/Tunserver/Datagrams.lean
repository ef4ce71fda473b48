import Galaxy42.TrivialSerialize.Malformed
import Galaxy42.Tunserver.PeerTable

/-!
# Datagrams

What nodes send to each other: the formats of the datagrams, how a peer is sent one, and how the fields
are read again. A datagram begins with the version and the number of a command. Tunneled data and the
replies to route queries are read with `parser`; a query is cut into its fields by hand, with the end of
the address looked for from its third octet on, so an address that has a semicolon behind its second
octet cannot be asked for.

A sending either leaves the node as it was or adds one datagram (`finalState_sendDataRAWUdp`).

Each format is a function from its fields to octets (`tunneledBin`, `queryBin`, `replyBin`), apart from the
program that writes it. It is shown that the program emits these octets, and when; and that they are read as the
fields. The lemmas on networks of nodes then speak of the octets of a datagram and never of how they were
generated. A TTL is an `int` in the program, an octet on the wire, and a `char` or an `unsigned char` where it
is read.

What is given to the socket is kept in the node, so that what a call has sent is a difference of two states. A
peer to which nothing can be sent (`Sendable`) has no address, or one of the family that the socket is not for;
the first is answered with an exception and the second with an assertion, which matters where it is asked which
datagrams take a node down.
-/

namespace Galaxy42

open Toolkit Program TrivialSerialize

variable {σ : Type}

/-! ### The protocol -/

/-- `c_protocol::current_version` -/
def currentVersion : UInt8 := 1

/-- `c_protocol::ttl_max_accepted` -/
def ttlMaxAccepted : ℤ := 5

/-- `crypto_box_NONCEBYTES` -/
def cryptoBoxNonceBytes : ℕ := 24

/-- `c_protocol::t_proto_cmd`. The numbers of the commands are those of `toInt`. -/
inductive ProtoCmd where
  | test0
  | test1
  | tunneledData
  | publicHi
  | publicPingRequest
  | publicPingReply
  | findhipQuery
  | findhipReply
  deriving DecidableEq

namespace ProtoCmd

/-- `enum_to_int`. The numbers between the two groups belong to no command. -/
def toInt : ProtoCmd → UInt8
  | test0 => 0
  | test1 => 1
  | tunneledData => 2
  | publicHi => 3
  | publicPingRequest => 4
  | publicPingReply => 5
  | findhipQuery => 10
  | findhipReply => 11

/-- `int_to_enum`. A negative `char` does not fit into the type of the enumeration. The names of types
in the texts of the exceptions are left out. -/
def ofInt (val : Int8) : Except Exn ProtoCmd :=
  if val < 0 then .error (.runtimeError
    s!"Can not convert integer value {val} to enum: Given integer value can not be expressed in enum underlying type")
  else
    match val.toUInt8.toNat with
    | 0 => .ok test0
    | 1 => .ok test1
    | 2 => .ok tunneledData
    | 3 => .ok publicHi
    | 4 => .ok publicPingRequest
    | 5 => .ok publicPingReply
    | 10 => .ok findhipQuery
    | 11 => .ok findhipReply
    | _ => .error (.invalidArgument
      s!"Can not convert integer value {val} to enum: No such value defined in enum")

/-- `command_is_valid_from_unknown_peer`. All other commands are only taken from who is in the table of peers. -/
def isValidFromUnknownPeer : ProtoCmd → Bool
  | publicHi => true
  | publicPingRequest => true
  | publicPingReply => true
  | _ => false

end ProtoCmd

/-- Tunneled data, with what is needed to route them. A node on the way changes the TTL and nothing else. -/
structure TunneledData where
  /-- `src_hip` -/
  srcHip : HashipAddr
  /-- `dst_hip` -/
  dstHip : HashipAddr
  /-- `data_route_ttl` -/
  ttl : ℤ
  /-- `nonce_used` -/
  nonceUsed : Bytes
  /-- The data, which are encrypted for the destination. -/
  blob : Bytes

/-! ### Formats -/

/-- The character `';'`. -/
def semicolon : UInt8 := 59

/-- The datagram of a command. Every datagram begins with the version of the protocol. -/
def cmdOctets (cmd : ProtoCmd) (bin : Bytes) : Bytes :=
  currentVersion :: cmd.toInt :: bin

/-- What follows version and command in a datagram with tunneled data. -/
def tunneledBin (packet : TunneledData) : Bytes :=
  packet.srcHip.octets ++ (packet.dstHip.octets ++ (UInt8.ofInt packet.ttl ::
    (packet.nonceUsed ++ varstringOctets packet.blob)))

/-- A datagram with tunneled data. -/
def tunneledOctets (packet : TunneledData) : Bytes :=
  cmdOctets .tunneledData (tunneledBin packet)

/-- The fields of a query for the route to an address. Both fields end with a semicolon. -/
def queryBin (hip : HashipAddr) (ttl : UInt8) : Bytes :=
  hip.octets ++ [semicolon, ttl, semicolon]

/-- The datagram of a query. -/
def queryOctets (hip : HashipAddr) (ttl : UInt8) : Bytes :=
  cmdOctets .findhipQuery (queryBin hip ttl)

/-- The fields of the reply to a query. The key has its length in front, so it may contain semicolons. -/
def replyBin (ttl cost : UInt8) (hip : HashipAddr) (pubkey : Bytes) : Bytes :=
  ttl :: semicolon :: cost :: semicolon :: (hip.octets ++ (semicolon ::
    (varstringOctets pubkey ++ [semicolon])))

/-- The datagram of a reply. -/
def replyOctets (ttl cost : UInt8) (hip : HashipAddr) (pubkey : Bytes) : Bytes :=
  cmdOctets .findhipReply (replyBin ttl cost hip pubkey)

/-! ### Sending -/

namespace Tunserver

/-- The node after a datagram was given to its socket. The last one is the first in the list. -/
def pushSent (node : Tunserver) (addr : Ip46Addr) (data : Bytes) : Tunserver :=
  { node with sent := (addr, data) :: node.sent }

/-- `c_udp_wrapper_linux::send_data`. What `sendto` returns is not looked at. A datagram for an address of the
other family aborts the process, when the socket is in use. -/
def sendData (dstAddress : Ip46Addr) (data : Bytes) : Node Unit := do
  let node ← get
  if node.udpDisabled then
    return
  assertThat (dstAddress.isIpv4 = true)
  set (node.pushSent dstAddress data)

end Tunserver

namespace Peering

/-- `send_data_RAW_udp`. A peer without an address throws. -/
def sendDataRAWUdp (peering : Peering) (data : Bytes) : Node Unit :=
  match peering.peeringAddr with
  | .none => raise (.runtimeError "Invalid IP type (when trying to send RAW udp): none")
  | addr => Tunserver.sendData addr data

/-- `send_data_udp_cmd` -/
def sendDataUdpCmd (peering : Peering) (cmd : ProtoCmd) (bin : Bytes) : Node Unit :=
  peering.sendDataRAWUdp (currentVersion :: cmd.toInt :: bin)

/-- `send_data_udp`. The sizes of the fields are checked where they are written, and what cannot be written
throws before anything is sent. -/
def sendDataUdp (peering : Peering) (packet : TunneledData) : Node Unit := do
  let protomsg ← generate do
    pushByteU currentVersion
    pushByteU ProtoCmd.tunneledData.toInt
    pushBytesN hashipAddrSize packet.srcHip.octets
    pushBytesN hashipAddrSize packet.dstHip.octets
    pushByteU (UInt8.ofInt packet.ttl)
    pushBytesN cryptoBoxNonceBytes packet.nonceUsed
    pushVarstring packet.blob
  peering.sendDataRAWUdp protomsg

/-- The peer has an address that datagrams can be sent to. It is an IPv4 address, as the socket is of that
family. -/
def Sendable (peering : Peering) : Prop := peering.getPip.isIpv4 = true

instance (peering : Peering) : Decidable peering.Sendable :=
  inferInstanceAs (Decidable (peering.getPip.isIpv4 = true))

section Sending

variable {peering : Peering} {node : Tunserver} {data : Bytes} {packet : TunneledData}

/-- A datagram is given to the socket when it is in use and the peer has an address of its family. -/
theorem sendDataRAWUdp_of_sendable (h : peering.Sendable) (hon : node.udpDisabled = false) :
    peering.sendDataRAWUdp data node = .ok () (node.pushSent peering.getPip data) := by
  unfold Sendable getPip at h
  unfold sendDataRAWUdp getPip
  cases haddr : peering.peeringAddr with
  | none => simp [haddr, Ip46Addr.isIpv4] at h
  | ipv4 addr port => simp [Tunserver.sendData, bind_apply, hon, assertThat_apply, Ip46Addr.isIpv4]
  | ipv6 addr port => simp [haddr, Ip46Addr.isIpv4] at h

/-- A socket that is in use is not given a datagram for a peer without such an address. -/
theorem sendDataRAWUdp_of_not_sendable (data : Bytes) (h : ¬ peering.Sendable)
    (hon : node.udpDisabled = false) :
    ∃ e, peering.sendDataRAWUdp data node = .error e node := by
  obtain ⟨addr, hip, pubkey, limitPoints⟩ := peering
  cases addr with
  | none => exact ⟨_, rfl⟩
  | ipv4 addr port => exact absurd rfl h
  | ipv6 addr port =>
    refine ⟨.abort, ?_⟩
    simp [sendDataRAWUdp, Tunserver.sendData, bind_apply, hon, assertThat_apply, Ip46Addr.isIpv4]

/-- However it ends, sending adds at most that one datagram. -/
theorem finalState_sendDataRAWUdp (peering : Peering) (node : Tunserver) (data : Bytes) :
    finalState (peering.sendDataRAWUdp data) node =
      if peering.Sendable ∧ node.udpDisabled = false then node.pushSent peering.getPip data
      else node := by
  obtain ⟨addr, hip, pubkey, limitPoints⟩ := peering
  cases hon : node.udpDisabled <;> cases addr <;>
    simp [finalState, sendDataRAWUdp, Sendable, getPip, Tunserver.sendData, bind_apply, hon,
      assertThat_apply, Ip46Addr.isIpv4]

/-- Sending aborts exactly when a socket that is in use is given an address of the other family. -/
theorem sendDataRAWUdp_eq_abort_iff {node' : Tunserver} :
    peering.sendDataRAWUdp data node = .error .abort node' ↔
      peering.getPip.isIpv6 = true ∧ node.udpDisabled = false ∧ node' = node := by
  obtain ⟨addr, hip, pubkey, limitPoints⟩ := peering
  cases hon : node.udpDisabled <;> cases addr <;>
    simp [sendDataRAWUdp, getPip, Tunserver.sendData, bind_apply, hon, assertThat_apply,
      Ip46Addr.isIpv4, Ip46Addr.isIpv6, @eq_comm _ node node']

/-- A command is sent as the datagram of the command. -/
theorem sendDataUdpCmd_eq (peering : Peering) (cmd : ProtoCmd) (bin : Bytes) :
    peering.sendDataUdpCmd cmd bin = peering.sendDataRAWUdp (cmdOctets cmd bin) := rfl

/-- The tunneled data can be written into a datagram. The addresses have the right size by their type, and a
TTL is written modulo 256. -/
def Writable (packet : TunneledData) : Prop :=
  packet.nonceUsed.length = cryptoBoxNonceBytes ∧ packet.blob.length < uvarintLimit

theorem emits_tunneled (packet : TunneledData) :
    Emits (do
        pushByteU currentVersion
        pushByteU ProtoCmd.tunneledData.toInt
        pushBytesN hashipAddrSize packet.srcHip.octets
        pushBytesN hashipAddrSize packet.dstHip.octets
        pushByteU (UInt8.ofInt packet.ttl)
        pushBytesN cryptoBoxNonceBytes packet.nonceUsed
        pushVarstring packet.blob) (Writable packet) (tunneledOctets packet) := by
  refine ((emits_pushByteU _).seq ((emits_pushByteU _).seq ((emits_pushBytesN _ _).seq
    ((emits_pushBytesN _ _).seq ((emits_pushByteU _).seq ((emits_pushBytesN _ _).seq
    (emits_pushVarstring _))))))).congr ?_ fun _ => ?_
  · simp [Writable, eq_comm]
  · simp [tunneledOctets, cmdOctets, tunneledBin]

/-- Tunneled data that can be written are sent. -/
theorem sendDataUdp_of_writable (h : Writable packet) :
    peering.sendDataUdp packet node = peering.sendDataRAWUdp (tunneledOctets packet) node :=
  bind_of_ok ((generate_eq_ok_iff_of_emits (emits_tunneled packet)).mpr ⟨h, rfl, rfl⟩)

/-- Of tunneled data that cannot be written nothing is sent. -/
theorem sendDataUdp_of_not_writable (h : ¬ Writable packet) :
    ∃ e, peering.sendDataUdp packet node = .error e node := by
  obtain ⟨e, he⟩ := exists_generate_eq_error (emits_tunneled packet) h node
  exact ⟨e, bind_of_error he⟩

end Sending

end Peering

/-! ### Reading -/

/-- Reading an address. It has no length in front, as all addresses have the same length. -/
def popHip : Parser HashipAddr := do
  let bin ← popBytesN hashipAddrSize
  fromExcept (HashipAddr.ofAddrBin bin)

/-- The fields of a datagram with tunneled data, behind version and command. The TTL is read as an octet
without a sign. -/
def popTunneledData : Parser TunneledData := do
  skipBytesN 2
  let srcHip ← popHip
  let dstHip ← popHip
  let requestedTtl ← popByteU
  let nonceUsed ← popBytesN cryptoBoxNonceBytes
  let blob ← popVarstring
  return { srcHip, dstHip, ttl := requestedTtl.toNat, nonceUsed, blob }

/-- The three strings of a greeting: the public keys IDC and IDI, and the signature of the first with
the second. -/
def popPublicHi : Parser (Bytes × Bytes × Bytes) := do
  let binHisIDCPub ← popVarstring
  let binHisIDIPub ← popVarstring
  let binHisIDIIDCSig ← popVarstring
  return (binHisIDCPub, binHisIDIPub, binHisIDIIDCSig)

/-- The fields of a query: the address asked for and the TTL, a `char` that is read as it is. The first
semicolon is looked for behind the second octet, and must be where the address ends. -/
def parseFindhipQuery (cmdData : Bytes) : Program Exn σ (HashipAddr × ℤ) := do
  let offset1 := 2
  let pos1 := ((cmdData.drop offset1).findIdx? (· = semicolon)).map (· + offset1)
  checkThat (pos1 = some hashipAddrSize)
    (.runtimeError "Invalid protocol format, wrong size of HIP field")
  let requestedHip ← fromExcept (HashipAddr.ofAddrBin (cmdData.take hashipAddrSize))
  let binTtl ← stringSubstr cmdData (hashipAddrSize + 1)
  let requestedTtl ← vectorAt (binTtl.take 1) 0
  return (requestedHip, requestedTtl.toInt8.toInt)

/-- What the reply to a query says. -/
structure FindhipReply where
  /-- `given_ttl` -/
  ttl : ℤ
  /-- `given_cost` -/
  cost : ℕ
  /-- `given_goal_hip` -/
  goalHip : HashipAddr
  /-- `pubkey` -/
  pubkey : HashipPubkey

/-- The fields of a reply. They are read in the order in which `replyBin` writes them. -/
def popFindhipReply : Parser FindhipReply := do
  let givenTtl ← popByteU
  popByteSkip semicolon.toInt8
  let givenCost ← popByteU
  popByteSkip semicolon.toInt8
  let goalHip ← popHip
  popByteSkip semicolon.toInt8
  let pubkey ← MultikeysPub.ofBin (← popVarstring)
  popByteSkip semicolon.toInt8
  return { ttl := givenTtl.toNat, cost := givenCost.toNat, goalHip, pubkey }

/-- An address that is as long as it must be is one. -/
theorem HashipAddr.ofAddrBin_octets (hip : HashipAddr) : ofAddrBin hip.octets = .ok hip :=
  ofAddrBin_eq_ok_iff.mpr rfl

theorem reads_popHip (hip : HashipAddr) : Reads popHip hip.octets hip := by
  have hbin : Reads (popBytesN hashipAddrSize) hip.octets hip.octets := by
    have hread := reads_popBytesN hip.octets
    rwa [hip.length_octets] at hread
  have hhip : Reads (fromExcept (HashipAddr.ofAddrBin hip.octets) : Parser HashipAddr) [] hip := by
    rw [HashipAddr.ofAddrBin_octets]
    exact Reads.pure hip
  rw [← List.append_nil hip.octets]
  exact hbin.bind (f := fun bin => fromExcept (HashipAddr.ofAddrBin bin)) hhip

theorem reads_popByteSkip (b : UInt8) : Reads (popByteSkip b.toInt8) [b] () := by
  intro pre suf
  rw [popByteSkip, bind_of_ok (reads_popByteU b pre suf)]
  simp

/-- A TTL that is in the range of an octet is read as it was written. -/
theorem toNat_ofInt_of_lt {ttl : ℤ} (h0 : 0 ≤ ttl) (h : ttl < 256) :
    ((UInt8.ofInt ttl).toNat : ℤ) = ttl := by
  rw [UInt8.ofInt, UInt8.toNat_ofNat']
  omega

/-- Tunneled data are read as they were written. -/
theorem reads_popTunneledData {packet : TunneledData} (h : Peering.Writable packet)
    (h0 : 0 ≤ packet.ttl) (hlt : packet.ttl < 256)
    (hblob : packet.blob.length ≤ saneMaxSizeForString) :
    Reads popTunneledData (tunneledOctets packet) packet := by
  have hskip : Reads (skipBytesN 2) [currentVersion, ProtoCmd.tunneledData.toInt] () :=
    reads_skipBytesN [currentVersion, ProtoCmd.tunneledData.toInt]
  have hnonce : Reads (popBytesN cryptoBoxNonceBytes) packet.nonceUsed packet.nonceUsed :=
    h.1 ▸ reads_popBytesN packet.nonceUsed
  have hread : Reads popTunneledData ([currentVersion, ProtoCmd.tunneledData.toInt] ++
      (packet.srcHip.octets ++ (packet.dstHip.octets ++ ([UInt8.ofInt packet.ttl] ++
        (packet.nonceUsed ++ (varstringOctets packet.blob ++ []))))))
      { packet with ttl := ((UInt8.ofInt packet.ttl).toNat : ℤ) } :=
    hskip.bind ((reads_popHip packet.srcHip).bind ((reads_popHip packet.dstHip).bind
      ((reads_popByteU (UInt8.ofInt packet.ttl)).bind (hnonce.bind
      ((reads_popVarstring hblob).bind (Reads.pure _))))))
  rw [toNat_ofInt_of_lt h0 hlt] at hread
  simpa [tunneledOctets, cmdOctets, tunneledBin] using hread

/-- A query is read as it was written, unless its address has a semicolon where the end of the address
is looked for. The TTL is read as a `char`. -/
theorem parseFindhipQuery_queryBin {hip : HashipAddr} (h : semicolon ∉ hip.octets.drop 2)
    (ttl : UInt8) (s : σ) :
    parseFindhipQuery (queryBin hip ttl) s = .ok (hip, ttl.toInt8.toInt) s := by
  have hlen := hip.length_octets
  have hdrop : (queryBin hip ttl).drop 2 = hip.octets.drop 2 ++ [semicolon, ttl, semicolon] := by
    rw [queryBin, List.drop_append_of_le_length (by rw [hlen]; decide)]
  have hpos : (((queryBin hip ttl).drop 2).findIdx? (· = semicolon)).map (· + 2) =
      some hashipAddrSize := by
    have hhead : [semicolon, ttl, semicolon].findIdx? (· = semicolon) = some 0 := by
      simp [List.findIdx?_cons]
    have hnone : (hip.octets.drop 2).findIdx? (· = semicolon) = none := by
      rw [List.findIdx?_eq_none_iff]
      intro b hb
      simpa using fun heq : b = semicolon => h (heq ▸ hb)
    rw [hdrop, List.findIdx?_append, hnone, hhead, List.length_drop, hlen]
    rfl
  have htake : (queryBin hip ttl).take hashipAddrSize = hip.octets := by
    rw [queryBin, List.take_append_of_le_length hlen.ge, List.take_of_length_le hlen.le]
  have hrest : (queryBin hip ttl).drop (hashipAddrSize + 1) = [ttl, semicolon] := by
    rw [queryBin, List.drop_append, List.drop_eq_nil_of_le (by rw [hlen]; decide), hlen]
    rfl
  have hsubstr : stringSubstr (queryBin hip ttl) (hashipAddrSize + 1) s =
      .ok [ttl, semicolon] s := by
    rw [stringSubstr, bind_of_ok (a := ()) (checkThat_eq_ok_iff.mpr ⟨?_, rfl⟩), hrest]
    · rfl
    · simp [queryBin, hlen]
  rw [parseFindhipQuery, bind_of_ok (a := ()) (checkThat_eq_ok_iff.mpr ⟨hpos, rfl⟩), htake,
    bind_of_ok (fromExcept_eq_ok_iff.mpr ⟨hip.ofAddrBin_octets, rfl⟩), bind_of_ok hsubstr]
  rfl

/-- A reply is read as it was written, when its key can be loaded. -/
theorem reads_popFindhipReply {ttl cost : UInt8} {hip : HashipAddr} {bin : Bytes}
    {pubkey : HashipPubkey} (hbin : bin.length ≤ saneMaxSizeForString)
    (hpubkey : ∀ c : Cursor UInt8, MultikeysPub.ofBin bin c = .ok pubkey c) :
    Reads popFindhipReply (replyBin ttl cost hip bin)
      { ttl := ttl.toNat, cost := cost.toNat, goalHip := hip, pubkey } := by
  have hload : Reads (MultikeysPub.ofBin bin : Parser HashipPubkey) [] pubkey := by
    intro pre suf
    rw [hpubkey]
    simp
  have hread : Reads popFindhipReply ([ttl] ++ ([semicolon] ++ ([cost] ++ ([semicolon] ++
      (hip.octets ++ ([semicolon] ++ (varstringOctets bin ++ ([] ++ ([semicolon] ++ [])))))))))
      { ttl := ttl.toNat, cost := cost.toNat, goalHip := hip, pubkey } :=
    (reads_popByteU ttl).bind ((reads_popByteSkip semicolon).bind ((reads_popByteU cost).bind
      ((reads_popByteSkip semicolon).bind ((reads_popHip hip).bind
      ((reads_popByteSkip semicolon).bind ((reads_popVarstring hbin).bind (hload.bind
      ((reads_popByteSkip semicolon).bind (Reads.pure _)))))))))
  simpa [replyBin] using hread

end Galaxy42
