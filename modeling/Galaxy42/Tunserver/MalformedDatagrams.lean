import Galaxy42.Crypto.MalformedExchange
import Galaxy42.TrivialSerialize.Syntax
import Galaxy42.Tunserver.Queries

/-!
# Malformed datagrams

Which datagrams take a node down. The event loop catches every exception, so it goes on unless an
assertion fails. Those that a datagram can come to are about the lengths of strings, the number of systems
in a set of keys, the octets in front of signatures, the rounds of a key exchange, and the family of the
address that something is sent to. `Tunserver.DatagramSane` says, command by command, that none of them
fails, and `loops_iff` that the loop goes on exactly then.

The condition is built like the handlers: for each of them there is a predicate on the node and on what the
datagram has at that place (`PacketSane`, `AnswerSane`, `ReplySane`, `GreetingSane`), and an equivalence with
`Safe`, the absence of an abort in one run. What is read behind something that cannot be read is not looked
at, and what is sent behind a peer without an address is not sent; so the predicates go on only as far as the
program does, and each of them is exact.

Sending is one of the places: to give an address of the other family to a socket is an assertion, and the
peers are asked for a route in the order of the table, up to the first one that has no address (`AllSane`).
Another one are the keys that a stranger sends: a greeting is read before it is known whether it is accepted
(`not_loops`).

The predicates name nothing that the handlers compute on the way, except for what the keys and the tunnels of a
node are, which is a matter of its state.
-/

namespace Galaxy42

open Toolkit Program TrivialSerialize Tunserver

/-! ### Sending -/

namespace Peering

/-- The socket is not in use, or it can send to the address of the peer, or none is set. -/
def SendSane (peering : Peering) (node : Tunserver) : Prop :=
  node.udpDisabled = false → peering.getPip.isIpv6 = false

section Sending

variable {peering : Peering} {node : Tunserver} {data : Bytes}

private theorem safe_sendDataRAWUdp_iff :
    Safe (peering.sendDataRAWUdp data) node (fun _ _ => True) ↔ peering.SendSane node := by
  rw [safe_true_iff]
  simp only [ne_eq, sendDataRAWUdp_eq_abort_iff, SendSane]
  constructor
  · intro h hon
    by_contra hIpv6
    exact h node ⟨by simpa using hIpv6, hon, rfl⟩
  · rintro h _ ⟨hIpv6, hon, -⟩
    rw [h hon] at hIpv6
    cases hIpv6

/-- A sending that returns was to an address that is set, and leaves the socket in use as it was. -/
private theorem of_sendDataRAWUdp_eq_ok {u : Unit} {node' : Tunserver}
    (h : peering.sendDataRAWUdp data node = .ok u node') :
    peering.getPip ≠ .none ∧ ∀ p : Peering, p.SendSane node' ↔ p.SendSane node := by
  have hstate := finalState_sendDataRAWUdp peering node data
  rw [finalState_of_ok h] at hstate
  constructor
  · intro hnone
    obtain ⟨addr, hip, pubkey, limitPoints⟩ := peering
    obtain rfl : addr = .none := hnone
    cases h
  · intro p
    rw [hstate]
    split <;> exact Iff.rfl

/-- A safe sending to an address that is set returns. -/
private theorem exists_sendDataRAWUdp_eq_ok (data : Bytes) (hsane : peering.SendSane node)
    (hset : peering.getPip ≠ .none) :
    ∃ node', peering.sendDataRAWUdp data node = .ok () node' := by
  obtain ⟨addr, hip, pubkey, limitPoints⟩ := peering
  cases addr with
  | none => exact absurd rfl hset
  | ipv4 addr port =>
    cases hon : node.udpDisabled <;>
      simp [sendDataRAWUdp, Tunserver.sendData, bind_apply, hon, assertThat_apply, Ip46Addr.isIpv4]
  | ipv6 addr port =>
    cases hon : node.udpDisabled with
    | false => cases hsane hon
    | true => simp [sendDataRAWUdp, Tunserver.sendData, bind_apply, hon]

private theorem safe_sendDataUdp_iff {packet : TunneledData} (h : Writable packet) :
    Safe (peering.sendDataUdp packet) node (fun _ _ => True) ↔ peering.SendSane node := by
  rw [safe_congr_run (sendDataUdp_of_writable h), safe_sendDataRAWUdp_iff]

end Sending

end Peering

/-- Peers are sent something one after the other, up to the first without an address. -/
theorem safe_forM_sendDataRAWUdp_iff (data : Bytes) (peers : List (HashipAddr × Peering)) :
    ∀ node : Tunserver, Safe (peers.forM fun v => v.2.sendDataRAWUdp data) node (fun _ _ => True) ↔
      UntilFailure (fun v => v.2.getPip ≠ .none) (fun v => v.2.SendSane node) peers := by
  induction peers with
  | nil => exact fun _ => Iff.rfl
  | cons v peers ih =>
    intro node
    change Safe (v.2.sendDataRAWUdp data >>= fun _ => peers.forM fun v => v.2.sendDataRAWUdp data)
      node _ ↔ _
    rw [safe_bind_iff, Peering.safe_sendDataRAWUdp_iff, UntilFailure]
    refine and_congr_right fun hsane => ?_
    constructor
    · intro h hset
      obtain ⟨node', hrun⟩ := Peering.exists_sendDataRAWUdp_eq_ok data hsane hset
      simpa only [ih, (Peering.of_sendDataRAWUdp_eq_ok hrun).2] using h () node' hrun
    · intro h u node' hrun
      obtain ⟨hset, hsame⟩ := Peering.of_sendDataRAWUdp_eq_ok hrun
      simpa only [ih, hsame] using h hset

namespace Tunserver

/-- All peers can be sent something safely, up to the first without an address. -/
def AllSane (node : Tunserver) : Prop :=
  UntilFailure (fun v => v.2.getPip ≠ .none) (fun v => v.2.SendSane node) node.peer.toList

/-- A destination can be searched for safely: it was searched for before, or all peers can be asked. -/
def SearchSane (node : Tunserver) (dst : HashipAddr) : Prop :=
  (node.searchFor dst).isSome ∨ node.AllSane

section Search

variable {node : Tunserver} {dst : HashipAddr} {reason : RouteReason} {searchTtl : ℤ}

/-- A search whose TTL fits into an octet passes the assertion about that. -/
theorem safe_execute_iff {search : RouteSearch} (h0 : 0 ≤ search.ttlShouldUse)
    (hlt : search.ttlShouldUse < 256) :
    Safe search.execute node (fun _ _ => True) ↔ node.AllSane := by
  have hassert : search.ttlShouldUse = (UInt8.ofInt search.ttlShouldUse).toNat :=
    (toNat_ofInt_of_lt h0 hlt).symm
  rw [RouteSearch.execute, safe_bind_of_ok (assertThat_eq_ok_iff (a := ()).mpr ⟨hassert, rfl⟩),
    NoAbort.safe_bind_iff fun _ => .modify _, nodep2pForeachCmd, safe_bind_of_ok (get_apply node)]
  exact safe_forM_sendDataRAWUdp_iff _ _ node

theorem safe_searchRoute_iff (hlt : searchTtl < 256) :
    Safe (searchRoute dst reason searchTtl) node (fun _ _ => True) ↔ node.SearchSane dst := by
  rw [searchRoute, safe_bind_of_ok (get_apply node), SearchSane]
  cases hsearch : node.searchFor dst with
  | some search => exact iff_of_true trivial (.inl rfl)
  | none =>
    have hmax : ((RouteSearch.new dst).addRequest reason searchTtl).ttlShouldUse = max 5 searchTtl := rfl
    simp only [Option.isSome_none, Bool.false_eq_true, false_or]
    rw [safe_bind, safe_set, safe_execute_iff (by omega) (by omega)]
    exact Iff.rfl

/-! ### Routing -/

/-- The data of a packet can be routed safely. -/
def RouteSane (node : Tunserver) (packet : TunneledData) : Prop :=
  match routed node packet with
  | .send peering => peering.SendSane node
  | .search hip => node.SearchSane hip
  | .drop => True

private theorem safe_routeTop_iff (packet : TunneledData) (hwrite : Peering.Writable packet) :
    Safe (routeTunDataToItsDestinationTop packet reason) node (fun _ _ => True) ↔
      node.RouteSane packet := by
  rw [safe_congr_run routeTop_eq, safe_catching_pure fun _ _ h => ⟨true, (Option.some.inj h).symm⟩,
    RouteSane]
  cases routed node packet with
  | send peering =>
    rw [NextPeer.deliver, NoAbort.safe_bind_iff fun _ => .pure _, Peering.safe_sendDataUdp_iff hwrite]
  | search hip =>
    rw [NextPeer.deliver, safe_catching_pure fun _ _ h => ⟨false, (Option.some.inj h).symm⟩,
      NoAbort.safe_bind_iff fun _ => .pure _, safe_searchRoute_iff (by decide)]
  | drop => exact iff_of_true trivial trivial

end Search

end Tunserver

/-! ### Reading -/

private theorem parses_popByteSkip (b : UInt8) :
    Parses (popByteSkip b.toInt8) (fun _ : Unit => [b]) id := by
  refine .of_reads (fun _ => reads_popByteSkip b) fun pre rest u c h => ?_
  obtain ⟨was, _, hpop, hskip⟩ := bind_eq_ok_iff.mp h
  obtain ⟨suf, rfl, rfl⟩ := popByteU_between_eq_ok_iff.mp hpop
  by_cases hwas : was = b
  · exact ⟨(), suf, by rw [hwas]; rfl⟩
  · simp [hwas, bind_apply] at hskip

private theorem parses_popHip : Parses popHip (fun hip : HashipAddr => hip.octets) id := by
  refine .of_reads reads_popHip fun pre rest hip c h => ?_
  obtain ⟨bin, _, hpop, -⟩ := bind_eq_ok_iff.mp h
  obtain ⟨data, suf, rfl, -⟩ := (parses_popBytesN hashipAddrSize _ _ _ _).mp hpop
  exact ⟨data, suf, rfl⟩

private theorem noAbort_popHip : NoAbort popHip :=
  .bind (noAbort_popBytesN _) fun _ => .fromExcept _

/-- What is read last is a string. -/
theorem safe_popVarstring_bind_iff {α : Type} {f : Bytes → α} {c : Cursor UInt8} :
    Safe (do
      let data ← popVarstring
      return f data) c (fun _ _ => True) ↔ LengthSane c := by
  rw [NoAbort.safe_bind_iff fun _ => .pure _, safe_popVarstring_iff]
  exact and_iff_left fun _ _ _ => trivial

/-- The fields in front of the string in tunneled data. -/
def tunneledHead (start : Block 2) (srcHip dstHip : HashipAddr) (ttl : UInt8)
    (nonceUsed : Block cryptoBoxNonceBytes) : Bytes :=
  start.octets ++ (srcHip.octets ++ (dstHip.octets ++ ([ttl] ++ nonceUsed.octets)))

/-- The string in tunneled data, if they are long enough to have one, has a sane length. -/
def BlobSane (buf : Bytes) : Prop :=
  ∀ start srcHip dstHip ttl nonceUsed rest, buf = tunneledHead start srcHip dstHip ttl nonceUsed ++ rest →
    LengthSane (.between (tunneledHead start srcHip dstHip ttl nonceUsed) rest)

private theorem safe_popTunneledData_iff {buf : Bytes} :
    Safe popTunneledData (parserOfBuffer buf) (fun _ _ => True) ↔ BlobSane buf := by
  rw [popTunneledData, parserOfBuffer, ← Cursor.between_nil]
  simp only [(parses_skipBytesN 2).safe_bind_iff (noAbort_skipBytesN 2),
    parses_popHip.safe_bind_iff noAbort_popHip, parses_popByteU.safe_bind_iff noAbort_popByteU,
    (parses_popBytesN cryptoBoxNonceBytes).safe_bind_iff (noAbort_popBytesN _),
    safe_popVarstring_bind_iff, List.nil_append, List.append_assoc, BlobSane, tunneledHead]
  -- Each field may be any octets, so the string may stand behind any of them.
  constructor
  · rintro h start src dst ttl nonce rest rfl
    exact h start _ rfl src _ rfl dst _ rfl ttl _ rfl nonce rest rfl
  · rintro h start _ rfl src _ rfl dst _ rfl ttl _ rfl nonce rest rfl
    exact h start src dst ttl nonce rest rfl

/-- Tunneled data that were read can be written again. -/
private theorem writable_of_popTunneledData {buf : Bytes} {packet : TunneledData} {c : Cursor UInt8}
    (h : popTunneledData (parserOfBuffer buf) = .ok packet c) : Peering.Writable packet := by
  rw [popTunneledData, parserOfBuffer, ← Cursor.between_nil] at h
  obtain ⟨_, _, hstart, h⟩ := bind_eq_ok_iff.mp h
  obtain ⟨start, _, rfl, -, rfl⟩ := (parses_skipBytesN 2 _ _ _ _).mp hstart
  obtain ⟨_, _, hsrc, h⟩ := bind_eq_ok_iff.mp h
  obtain ⟨src, _, rfl, -, rfl⟩ := (parses_popHip _ _ _ _).mp hsrc
  obtain ⟨_, _, hdst, h⟩ := bind_eq_ok_iff.mp h
  obtain ⟨dst, _, rfl, -, rfl⟩ := (parses_popHip _ _ _ _).mp hdst
  obtain ⟨_, _, httl, h⟩ := bind_eq_ok_iff.mp h
  obtain ⟨ttl, _, rfl, -, rfl⟩ := (parses_popByteU _ _ _ _).mp httl
  obtain ⟨_, _, hnonce, h⟩ := bind_eq_ok_iff.mp h
  obtain ⟨nonce, _, rfl, rfl, rfl⟩ := (parses_popBytesN _ _ _ _ _).mp hnonce
  obtain ⟨blob, hblob, rfl⟩ := bind_pure_eq_ok_iff.mp h
  obtain ⟨str, _, rfl, rfl, -⟩ := (parses_popVarstring _ _ _ _).mp hblob
  exact ⟨nonce.length_octets, lt_uvarintLimit_of_le_sane (str.length_data ▸ str.size_le)⟩

/-- The fields in front of the string in a reply. -/
def replyHead (ttl cost : UInt8) (hip : HashipAddr) : Bytes :=
  [ttl] ++ ([semicolon] ++ ([cost] ++ ([semicolon] ++ (hip.octets ++ [semicolon]))))

/-- The string in a reply has a sane length, and is a sane set of keys. -/
def ReplyKeySane (bin : Bytes) : Prop :=
  ∀ ttl cost hip rest, bin = replyHead ttl cost hip ++ rest →
    LengthSane (.between (replyHead ttl cost hip) rest) ∧
      ∀ data c, popVarstring (.between (replyHead ttl cost hip) rest) = .ok data c →
        MultiCryptoStrings.KeysSane .open data

private theorem safe_popFindhipReply_iff {bin : Bytes} :
    Safe popFindhipReply (parserOfBuffer bin) (fun _ _ => True) ↔ ReplyKeySane bin := by
  have hkey : ∀ (f : HashipPubkey → FindhipReply) (c : Cursor UInt8),
      Safe (do
        let pubkey ← MultikeysPub.ofBin (← popVarstring)
        popByteSkip semicolon.toInt8
        return f pubkey) c (fun _ _ => True) ↔
      LengthSane c ∧ ∀ data c', popVarstring c = .ok data c' →
        MultiCryptoStrings.KeysSane .open data := by
    intro f c
    have hrest : ∀ pubkey : HashipPubkey, NoAbort (do
        popByteSkip semicolon.toInt8
        return f pubkey : Parser FindhipReply) := fun _ =>
      .bind (noAbort_popByteSkip _) fun _ => .pure _
    simp only [safe_bind_iff (p := popVarstring), NoAbort.safe_bind_iff hrest, safe_popVarstring_iff,
      MultikeysPub.safe_ofBin_iff, implies_true, and_true]
  rw [popFindhipReply, parserOfBuffer, ← Cursor.between_nil]
  simp only [parses_popByteU.safe_bind_iff noAbort_popByteU,
    (parses_popByteSkip semicolon).safe_bind_iff (noAbort_popByteSkip _),
    parses_popHip.safe_bind_iff noAbort_popHip, hkey, List.nil_append, List.append_assoc, id_eq,
    ReplyKeySane, replyHead]
  constructor
  · rintro h ttl cost hip rest rfl
    exact h ttl _ rfl () _ rfl cost _ rfl () _ rfl hip _ rfl () rest rfl
  · rintro h ttl _ rfl - _ rfl cost _ rfl - _ rfl hip _ rfl - rest rfl
    exact h ttl cost hip rest rfl

/-- The three strings of a greeting have sane lengths, as far as they can be read. -/
def GreetingStringsSane (bin : Bytes) : Prop :=
  Rounds LengthSane popVarstring 3 (parserOfBuffer bin)

private theorem safe_popPublicHi_iff {bin : Bytes} :
    Safe popPublicHi (parserOfBuffer bin) (fun _ _ => True) ↔ GreetingStringsSane bin := by
  simp only [popPublicHi, safe_bind_iff (p := popVarstring), safe_popVarstring_iff, safe_pure,
    GreetingStringsSane, Rounds, implies_true, and_true]

/-! ### Tunneled data and queries -/

section Peer

variable {lib : CryptoLib} {node : Tunserver} {sender : Peering}

/-- What is read without changing the node is read safely, and then used in the state it was read in. -/
theorem safe_bind_of_preserves_iff {α β : Type} {p : Node α} {f : α → Node β}
    (hp : ∀ I : Tunserver → Prop, Preserves I p) :
    Safe (p >>= f) node (fun _ _ => True) ↔ Safe p node (fun _ _ => True) ∧
      ∀ a, returned p node = some a → Safe (f a) node fun _ _ => True := by
  rw [safe_bind_iff]
  refine and_congr_right fun _ => ⟨fun h a ha => h a node (eq_ok_of_returned hp ha), ?_⟩
  intro h a node' hrun
  have hreturned : returned p node = some a := returned_eq_some_iff.mpr ⟨node', hrun⟩
  have hsame := (eq_ok_of_returned hp hreturned).symm.trans hrun
  obtain ⟨-, rfl⟩ := EStateM.Result.ok.inj hsame
  exact h a hreturned

private theorem noAbort_checkPacketSourceAddress (addressExpected : HashipAddr) (packet : Bytes) :
    NoAbort (checkPacketSourceAddress addressExpected packet : Node Bool) := by
  rw [noAbort_iff_safe]
  intro node
  have hexpected := addressExpected.length_octets
  have hsize : hashipAddrSize = 16 := rfl
  simp only [checkPacketSourceAddress, checkPacketAddress, safe_bind, safe_checkThat, safe_assertThat,
    safe_pure, and_true, List.length_take, List.length_drop]
  omega

namespace Tunserver

/-- Tunneled data for the node are received safely: they are answered, or the tunnel can unbox. -/
def ReceiveSane (node : Tunserver) (packet : TunneledData) : Prop :=
  match node.tunnel[packet.srcHip]? with
  | none => node.RouteSane (sendBack packet [])
  | some ct => ct.streamCryptoAb.unboxer.isSome = true

private theorem safe_receiveTunneledData_iff {packet : TunneledData} :
    Safe (receiveTunneledData lib packet) node (fun _ _ => True) ↔ node.ReceiveSane packet := by
  rw [receiveTunneledData, safe_bind_of_ok (get_apply node), ReceiveSane]
  cases node.tunnel[packet.srcHip]? with
  | none =>
    have hnonce : crypto (defaultNonce lib) node =
        .ok (lib.randomBytes node.draws cryptoBoxNonceBytes).octets
          { node with draws := node.draws + 1 } := rfl
    dsimp only
    rw [safe_bind_of_ok hnonce, NoAbort.safe_bind_iff fun _ => .pure _]
    exact safe_routeTop_iff (sendBack packet _)
      ⟨Block.length_octets _, show 0 < uvarintLimit by decide⟩
  | some ct =>
    have hrest : ∀ tundata, NoAbort (do
        if ← checkIpProtocol tundata then
          let tundata ← stringInsert tundata headerPositionOfDst packet.dstHip.octets
          let same ← checkPacketSourceAddress packet.srcHip tundata
          checkThat (same = true) (.runtimeError "crypto authentification of source IP failed")
          writeToTun (tunHeader ++ tundata)) := fun tundata =>
      .bind (.bind (.bind (noAbort_vectorAt _ _) fun _ => .pure _) fun _ => .bind .get fun _ => .pure _)
        fun supported => .ite (.bind (.bind (.checkThat _ _) fun _ => .pure _) fun tundata =>
          .bind (noAbort_checkPacketSourceAddress _ _) fun same => .bind (.checkThat _ _) fun _ =>
            .modify _) (.pure _)
    dsimp only
    refine (NoAbort.safe_bind_iff hrest).trans ?_
    rw [CryptoTunnel.unboxAbNonce, CStream.unboxNonce]
    cases ct.streamCryptoAb.unboxer with
    | none => exact iff_of_false id (by decide)
    | some cb => exact iff_of_true ((NoAbort.fromExcept _).safe node) rfl

/-- Tunneled data that were accepted are handled safely. It depends on whether they are for this node or for
someone else. -/
def PacketSane (node : Tunserver) (sender : Peering) (packet : TunneledData) : Prop :=
  if packet.dstHip = node.myHip then node.ReceiveSane packet
  else 0 ≤ sender.limitPoints → node.RouteSane { packet with ttl := forwardTtl packet.ttl }

private theorem safe_handleTunneledData_iff {buf : Bytes} :
    Safe (handleTunneledData lib sender buf) node (fun _ _ => True) ↔ BlobSane buf ∧
      ∀ packet, returned (within (parserOfBuffer buf) popTunneledData : Node _) node = some packet →
        node.PacketSane sender packet := by
  rw [handleTunneledData, safe_bind_of_preserves_iff fun _ => .within, safe_within,
    safe_popTunneledData_iff]
  refine and_congr_right fun _ => forall₂_congr fun packet hread => ?_
  obtain ⟨node', hrun⟩ := returned_eq_some_iff.mp hread
  obtain ⟨⟨c, hpop⟩, -⟩ := within_eq_ok_iff.mp hrun
  have hwrite := writable_of_popTunneledData hpop
  rw [safe_bind_of_ok (get_apply node), PacketSane]
  split
  · exact safe_receiveTunneledData_iff
  · rw [forwardTunneledData]
    split
    next hpoints => exact iff_of_true trivial fun h => absurd hpoints (not_lt.mpr h)
    next hpoints =>
      rw [NoAbort.safe_bind_iff fun _ => .pure _, forall_prop_of_true (not_lt.mp hpoints)]
      exact safe_routeTop_iff { packet with ttl := forwardTtl packet.ttl } hwrite

/-- A query is answered safely: the reply can be sent, if there is one, or the search is safe. -/
def AnswerSane (node : Tunserver) (sender : Peering) (hip : HashipAddr) : Prop :=
  match node.routeFor hip with
  | some route => route.Tellable → sender.SendSane node
  | none => hip ∈ node.peer ∨ node.SearchSane hip

private theorem noAbort_findPeer (ip : Ip46Addr) : NoAbort (findPeerBySenderPeeringAddr ip) := by
  have hpeers : ∀ peers, NoAbort (findPeerIn ip peers) := by
    intro peers
    induction peers with
    | nil => exact .raise _
    | cons v peers ih =>
      exact .bind (.bind (.checkThat _ _) fun _ => .bind (.checkThat _ _) fun _ => .pure _)
        fun same => .ite (.pure _) ih
  exact .bind .get fun node => hpeers _

private theorem noAbort_parseFindhipQuery (cmdData : Bytes) :
    NoAbort (parseFindhipQuery cmdData : Node (HashipAddr × ℤ)) :=
  .bind (.checkThat _ _) fun _ => .bind (.fromExcept _) fun _ =>
    .bind (noAbort_stringSubstr _ _) fun _ => .bind (noAbort_vectorAt _ _) fun _ => .pure _

private theorem noAbort_reply (ttl cost : UInt8) (hip : HashipAddr) (pubkey : Bytes) :
    NoAbort (do
      pushByteU ttl
      pushByteU semicolon
      pushByteU cost
      pushByteU semicolon
      pushBytesN hashipAddrSize hip.octets
      pushByteU semicolon
      pushVarstring pubkey
      pushByteU semicolon) :=
  .bind (noAbort_pushByteU _) fun _ => .bind (noAbort_pushByteU _) fun _ =>
    .bind (noAbort_pushByteU _) fun _ => .bind (noAbort_pushByteU _) fun _ =>
    .bind (noAbort_pushBytesN hip.length_octets.symm) fun _ => .bind (noAbort_pushByteU _) fun _ =>
    .bind (noAbort_pushVarstring _) fun _ => noAbort_pushByteU _

section Answer

variable {senderPip : Ip46Addr} {hip : HashipAddr} {ttl : ℤ}

private theorem safe_answerQuery_iff (httl : ttl ≤ 256) :
    Safe (answerQuery senderPip sender hip ttl) node (fun _ _ => True) ↔ node.AnswerSane sender hip := by
  rw [answerQuery, AnswerSane]
  cases hfor : node.routeFor hip with
  | some route =>
    dsimp only
    -- Looking the sender up once more cannot abort.
    have hsend : ∀ data, Safe (do
        sender.sendDataUdpCmd .findhipReply data
        let _ ← findPeerBySenderPeeringAddr senderPip) (node.learnRoute hip route) (fun _ _ => True) ↔
        sender.SendSane node := by
      intro data
      rw [NoAbort.safe_bind_iff fun _ => .bind (noAbort_findPeer _) fun _ => .pure _,
        Peering.sendDataUdpCmd_eq, Peering.safe_sendDataRAWUdp_iff]
      exact Iff.rfl
    rw [safe_bind_of_ok (getRoute_of_routeFor hfor), safe_bind_iff,
      and_iff_right ((MultiCryptoStrings.noAbort_serializeBin _).safe _)]
    simp only [MultiCryptoStrings.serializeBin_eq_ok_iff]
    constructor
    · rintro h ⟨hfit, hlen⟩
      have hreply := h _ _ ⟨hfit, rfl, rfl⟩
      rw [safe_bind_of_ok ((generate_eq_ok_iff_of_emits (emits_reply _ _ _ _)).mpr
        ⟨hlen, rfl, rfl⟩)] at hreply
      exact (hsend _).mp hreply
    · rintro h _ _ ⟨hfit, rfl, rfl⟩
      refine safe_bind_iff.mpr ⟨(noAbort_generate (noAbort_reply _ _ _ _)).safe _, ?_⟩
      intro data node' hrun
      obtain ⟨hlen, rfl, rfl⟩ := (generate_eq_ok_iff_of_emits (emits_reply _ _ _ _)).mp hrun
      exact (hsend _).mpr (h ⟨hfit, hlen⟩)
  | none =>
    dsimp only
    by_cases hpeer : hip ∈ node.peer
    · obtain ⟨e, he⟩ := getRoute_of_keyless hpeer hfor
      exact iff_of_true (safe_bind_of_throw he) (.inl hpeer)
    · have hroute := hfor
      rw [routeFor_of_not_peer hpeer] at hroute
      have hget : getRouteOrMaybeSearch hip { hisAddr := sender.getHip, searchMode := .helpFind } true
          (ttl - 1) node = _ := getRoute_of_no_route (Std.ExtTreeMap.getElem?_eq_none hpeer) hroute
      rw [safe_bind, safe_congr_run hget, safe_bind, or_iff_right hpeer]
      exact safe_searchRoute_iff (by omega)

private theorem safe_handleFindhipQuery_iff {cmdData : Bytes} :
    Safe (handleFindhipQuery senderPip sender cmdData) node (fun _ _ => True) ↔
      ∀ query : HashipAddr × ℤ, returned (parseFindhipQuery cmdData : Node _) node = some query →
        1 ≤ query.2 → node.AnswerSane sender query.1 := by
  rw [handleFindhipQuery, safe_bind_of_preserves_iff fun _ => preserves_parseFindhipQuery _,
    and_iff_right ((noAbort_parseFindhipQuery _).safe node)]
  refine forall₂_congr fun query hread => ?_
  have httl : query.2 ≤ 127 := ttl_le_of_parseFindhipQuery hread
  dsimp only
  split
  next hlow => exact iff_of_true trivial fun h => absurd hlow (not_lt.mpr h)
  next hlow =>
    rw [safe_catching_pure fun _ _ h => ⟨(), (Option.some.inj h).symm⟩,
      safe_answerQuery_iff (httl.trans (by norm_num)), forall_prop_of_true (not_lt.mp hlow)]

end Answer

end Tunserver

end Peer

/-! ### Replies and greetings -/

section Keys

variable {lib : CryptoLib} {node : Tunserver}

namespace Tunserver

/-- A tunnel to a key can be set up safely, if there is none for the address of the key. -/
def TunnelSane (lib : CryptoLib) (node : Tunserver) (pubkey : HashipPubkey) : Prop :=
  ∀ hip : HashipAddr, (pubkey.getIpv6StringBin lib : Program Exn Unit Bytes) () = .ok hip.octets () →
    hip ∉ node.tunnel →
      (CStream.initiatorParams lib node.myIDC pubkey).SystemsSane (List.finRange systemCount) node.draws

private theorem safe_addTunnelToPubkey_iff {pubkey : HashipPubkey} :
    Safe (addTunnelToPubkey lib pubkey) node (fun _ _ => True) ↔ TunnelSane lib node pubkey := by
  have hnew : ∀ hip : HashipAddr, Safe (do
      let ct ← crypto (TunnelUse.new lib node.myIDC pubkey)
      modify fun node => { node with tunnel := node.tunnel.insert hip ct } : Node Unit) node
      (fun _ _ => True) ↔ (CStream.initiatorParams lib node.myIDC pubkey).SystemsSane
        (List.finRange systemCount) node.draws := by
    intro hip
    rw [NoAbort.safe_bind_iff fun _ => .modify _, crypto, safe_zoom]
    exact CryptoTunnel.safe_new_iff
  -- What is done with the address of the key.
  have hset : ∀ hip : HashipAddr, Safe (do
      let node ← get
      if hip ∈ node.tunnel then
        return
      else
        let ct ← crypto (TunnelUse.new lib node.myIDC pubkey)
        modify fun node => { node with tunnel := node.tunnel.insert hip ct } : Node Unit) node
      (fun _ _ => True) ↔ (hip ∉ node.tunnel →
        (CStream.initiatorParams lib node.myIDC pubkey).SystemsSane (List.finRange systemCount)
          node.draws) := by
    intro hip
    rw [safe_bind_of_ok (get_apply node)]
    split
    next hmem => exact iff_of_true trivial fun h => absurd hmem h
    next hmem => rw [hnew, forall_prop_of_true hmem]
  rw [addTunnelToPubkey, safe_bind_iff, and_iff_right ((noAbort_getIpv6StringBin lib pubkey).safe node)]
  constructor
  · intro h hip haddr
    have hrun := h hip.octets node (getIpv6StringBin_eq_ok_iff.mpr ⟨haddr, rfl⟩)
    rw [HashipAddr.ofAddrBin_octets] at hrun
    exact (hset hip).mp hrun
  · intro h addr node' hrun
    obtain ⟨haddr, rfl⟩ := getIpv6StringBin_eq_ok_iff.mp hrun
    rw [safe_bind, safe_fromExcept]
    intro hip hhip
    obtain rfl := HashipAddr.ofAddrBin_eq_ok_iff.mp hhip
    exact (hset hip).mpr (h hip haddr)

/-- A reply is handled safely: its key can be read, and a tunnel set up, unless its TTL is too low. -/
def ReplySane (lib : CryptoLib) (node : Tunserver) (bin : Bytes) : Prop :=
  ReplyKeySane bin ∧ ∀ reply : FindhipReply,
    returned (within (parserOfBuffer bin) popFindhipReply : Node _) node = some reply → 1 ≤ reply.ttl →
      TunnelSane lib node (reply.pubkey.setIpv6Prefix node.ipv6Prefix)

private theorem safe_handleFindhipReply_iff {sender : Peering} {bin : Bytes} :
    Safe (handleFindhipReply lib sender bin) node (fun _ _ => True) ↔ ReplySane lib node bin := by
  rw [handleFindhipReply, safe_bind_of_preserves_iff fun _ => .within, safe_within,
    safe_popFindhipReply_iff, ReplySane]
  refine and_congr_right fun _ => forall₂_congr fun reply _ => ?_
  split
  next hlow => exact iff_of_true trivial fun h => absurd hlow (not_lt.mpr h)
  next hlow =>
    have hroute : ∀ route, NoAbort (do
        let _ ← addRouteInfoAndReturn reply.goalHip route : Node Unit) := fun route s s' h => by
      rw [bind_of_ok addRouteInfoAndReturn_eq] at h
      cases h
    rw [forall_prop_of_true (not_lt.mp hlow), safe_bind_of_ok (get_apply node),
      NoAbort.safe_bind_iff fun _ => hroute _, safe_addTunnelToPubkey_iff]

/-! ### Greetings -/

/-- The keys that a greeting is signed with, up to the first with which that fails, are sane. -/
def SignedSane (lib : CryptoLib) (sig : Multisign) (msg : Bytes) (pubkeys : MultikeysPub) : Prop :=
  UntilFailure (Multisign.SystemVerified lib sig msg pubkeys) (Multisign.VerifySane lib sig msg pubkeys)
    (List.finRange systemCount)

/-- The keys and the signatures of a greeting are sane. -/
def HisSane (lib : CryptoLib) (node : Tunserver) (binHisIDCPub binHisIDIPub binHisIDIIDCSig : Bytes) :
    Prop :=
  MultiCryptoStrings.KeysSane .open binHisIDIPub ∧
    ∀ hisIDI, returned (MultikeysPub.ofBin binHisIDIPub : Node _) node = some hisIDI →
      Multisign.SignSane binHisIDIIDCSig ∧
        ∀ sig, returned (Multisign.ofBin binHisIDIIDCSig : Node _) node = some sig →
          SignedSane lib sig binHisIDCPub (hisIDI.setIpv6Prefix node.ipv6Prefix)

private theorem preserves_multisignOfBin {I : Tunserver → Prop} (data : Bytes) :
    Preserves I (Multisign.ofBin data : Node Multisign) :=
  .bind .withinState fun _ => .pure _

private theorem safe_multikeysOfBin_iff {data : Bytes} :
    Safe (MultikeysPub.ofBin data : Node _) node (fun _ _ => True) ↔
      MultiCryptoStrings.KeysSane .open data := by
  rw [MultikeysPub.safe_ofBin_iff]
  exact and_iff_left fun _ _ => trivial

private theorem safe_readHis_iff {senderPip : Ip46Addr} {binHisIDCPub binHisIDIPub binHisIDIIDCSig : Bytes} :
    Safe (readHis lib senderPip binHisIDCPub binHisIDIPub binHisIDIIDCSig) node (fun _ _ => True) ↔
      HisSane lib node binHisIDCPub binHisIDIPub binHisIDIIDCSig := by
  have hsign : Safe (Multisign.ofBin binHisIDIIDCSig : Node _) node (fun _ _ => True) ↔
      Multisign.SignSane binHisIDIIDCSig := by
    rw [Multisign.safe_ofBin_iff]
    exact and_iff_left fun _ _ => trivial
  rw [readHis, safe_bind_of_ok (get_apply node), HisSane,
    safe_bind_of_preserves_iff fun _ => preserves_multikeysOfBin _, safe_multikeysOfBin_iff]
  refine and_congr_right fun hkeys => forall₂_congr fun hisIDI _ => ?_
  rw [safe_bind_of_preserves_iff fun _ => preserves_multisignOfBin _, hsign]
  refine and_congr_right fun _ => forall₂_congr fun sig _ => ?_
  rw [safe_bind_of_preserves_iff fun _ => preserves_multiSignVerify _ _ _,
    Multisign.safe_multiSignVerify_iff]
  -- What follows reads the same keys once more.
  refine and_iff_left fun _ _ => ?_
  refine (safe_bind_of_preserves_iff fun _ => preserves_multikeysOfBin _).mpr
    ⟨safe_multikeysOfBin_iff.mpr hkeys, fun hisPubkey _ => ?_⟩
  exact (NoAbort.bind (noAbort_getIpv6StringBin _ _) fun _ => .bind (.fromExcept _) fun _ =>
    .pure _).safe node

/-- The peer whom a greeting is from can be put into the table without an exception: an address that has
changed can be compared, and a banned peer that is not in the table is not looked up to be shown. -/
def CanMeet (node : Tunserver) (peerRef : PeeringReference) : Prop :=
  match node.peer[peerRef.hashipAddr]? with
  | some peering => peering.getPip ≠ .none ∧ peerRef.peeringAddr ≠ .none
  | none => peerRef.hashipAddr ∈ node.peerBlackList → ¬ 20 ≥ node.dbgLevel

private theorem noAbort_addPeerAppendPubkey (peerRef : PeeringReference) (pubkey : HashipPubkey) :
    NoAbort (addPeerAppendPubkey lib peerRef pubkey) := by
  have happend : NoAbort (appendPubkey peerRef pubkey) := by
    refine .bind .get fun node => ?_
    split
    · exact .ite (.set _) (.pure _)
    · exact .bind (.modify _) fun _ => .bind (.bind (.checkThat _ _) fun _ =>
        .bind (.checkThat _ _) fun _ => .pure _) fun _ => .ite (.modify _) (.pure _)
  exact .bind (HashipAddr.noAbort_ofHashOfPubkey _ _) fun _ => .bind (.checkThat _ _) fun _ =>
    .bind happend fun _ => .bind .get fun _ => .ite (.checkThat _ _) (.pure _)

/-- A peer that is in the table is updated without an exception when both addresses are set. -/
theorem updatePeer_returns_iff (node : Tunserver) (peerRef : PeeringReference) (pubkey : HashipPubkey)
    (peering : Peering) :
    (∃ node', updatePeer peerRef pubkey peering node = .ok () node') ↔
      peering.getPip ≠ .none ∧ peerRef.peeringAddr ≠ .none := by
  constructor
  · rintro ⟨node', hrun⟩
    obtain ⟨_, _, -, hrun⟩ := bind_eq_ok_iff.mp hrun
    obtain ⟨_, _, hequal, -⟩ := bind_eq_ok_iff.mp hrun
    obtain ⟨_, _, hold, hequal⟩ := bind_eq_ok_iff.mp hequal
    obtain ⟨_, _, hnew, -⟩ := bind_eq_ok_iff.mp hequal
    exact ⟨(checkThat_eq_ok_iff.mp hold).1, (checkThat_eq_ok_iff.mp hnew).1⟩
  · rintro ⟨hold, hnew⟩
    have hequal : ∀ node' : Tunserver, peering.getPip.equal peerRef.peeringAddr node' =
        .ok (decide (peering.getPip = peerRef.peeringAddr)) node' := fun node' => by
      simp [Ip46Addr.equal, bind_apply, checkThat_apply, hold, hnew]
    rw [updatePeer, bind_of_ok (modify_apply _ node), bind_of_ok (hequal _)]
    by_cases hsame : peering.getPip = peerRef.peeringAddr
    · simp [hsame]
    · simp [hsame]

theorem addPeerAppendPubkey_returns_iff {peerRef : PeeringReference} {pubkey : HashipPubkey}
    (hhip : HasHip lib pubkey peerRef.hashipAddr) :
    (∃ node', addPeerAppendPubkey lib peerRef pubkey node = .ok () node') ↔ node.CanMeet peerRef := by
  have hshow : ∀ node' : Tunserver, (∃ node'', showPeer peerRef.hashipAddr node' = .ok () node'') ↔
      (20 ≥ node'.dbgLevel → peerRef.hashipAddr ∈ node'.peer) := by
    intro node'
    rw [showPeer, bind_of_ok (get_apply node')]
    by_cases hlevel : 20 ≥ node'.dbgLevel
    · simp [hlevel]
    · simp [hlevel]
  have hrun : (∃ node', addPeerAppendPubkey lib peerRef pubkey node = .ok () node') ↔
      ∃ node₁ : Tunserver, appendPubkey peerRef pubkey node = .ok () node₁ ∧
        (20 ≥ node₁.dbgLevel → peerRef.hashipAddr ∈ node₁.peer) := by
    simp only [addPeerAppendPubkey_of_hasHip hhip, bind_eq_ok_iff, ← hshow]
    constructor
    · rintro ⟨node', _, node₁, happend, hshow'⟩
      exact ⟨node₁, happend, node', hshow'⟩
    · rintro ⟨node₁, happend, node', hshow'⟩
      exact ⟨node', (), node₁, happend, hshow'⟩
  -- A peer that was put into the table can be shown; only a banned one may not be there.
  have happend : appendPubkey peerRef pubkey node = _ := bind_of_ok (get_apply node)
  rw [hrun, happend, CanMeet]
  cases hget : node.peer[peerRef.hashipAddr]? with
  | some peering =>
    dsimp only
    rw [← updatePeer_returns_iff node peerRef pubkey peering]
    refine exists_congr fun node₁ => and_iff_left_of_imp fun hupdate _ => ?_
    obtain ⟨peering', -, hfinal⟩ := finalState_updatePeer hget
    rw [finalState_of_ok hupdate] at hfinal
    rw [hfinal]
    exact Std.ExtTreeMap.mem_insert_self
  | none =>
    have hmem : peerRef.hashipAddr ∉ node.peer := by
      rw [Std.ExtTreeMap.mem_iff_isSome_getElem?, hget]
      decide
    by_cases hbanned : peerRef.hashipAddr ∈ node.peerBlackList
    · simp [hbanned, hmem]
    · simp [hbanned]

/-- The key of a greeting that was read is the second string, and the address is the one of the key. -/
theorem of_readHis_eq_ok {senderPip : Ip46Addr} {binHisIDCPub binHisIDIPub binHisIDIIDCSig : Bytes}
    {peerRef : PeeringReference} {pubkey : HashipPubkey}
    (h : readHis lib senderPip binHisIDCPub binHisIDIPub binHisIDIIDCSig node =
      .ok (peerRef, pubkey) node) :
    HasHip lib pubkey peerRef.hashipAddr ∧ ∀ node' : Tunserver, ∃ hisPubkey,
      MultikeysPub.ofBin binHisIDIPub node' = .ok hisPubkey node' ∧
        pubkey = hisPubkey.setIpv6Prefix node.ipv6Prefix := by
  rw [readHis, bind_of_ok (get_apply node)] at h
  obtain ⟨_, _, -, h⟩ := bind_eq_ok_iff.mp h
  obtain ⟨_, _, -, h⟩ := bind_eq_ok_iff.mp h
  obtain ⟨_, _, -, h⟩ := bind_eq_ok_iff.mp h
  obtain ⟨hisPubkey, _, hload, h⟩ := bind_eq_ok_iff.mp h
  obtain ⟨addr, _, haddr, h⟩ := bind_eq_ok_iff.mp h
  obtain ⟨hip, _, hhip, h⟩ := bind_eq_ok_iff.mp h
  cases h
  -- Both constructors accept an address of 16 octets, and throw otherwise.
  have hbin : HashipAddr.ofAddrBin addr = .ok hip := by
    have hdot := (fromExcept_eq_ok_iff.mp hhip).1
    unfold HashipAddr.ofAddrDot HashipAddr.ofOctets at hdot
    unfold HashipAddr.ofAddrBin HashipAddr.ofOctets
    split at hdot
    next hlen => rwa [dif_pos hlen]
    · cases hdot
  refine ⟨hasHip_of_getIpv6StringBin haddr hbin, fun node' => ⟨hisPubkey, ?_, rfl⟩⟩
  simp only [MultikeysPub.ofBin, bind_pure_eq_ok_iff, withinState_eq_ok_iff] at hload ⊢
  obtain ⟨loaded, ⟨hloaded, -⟩, hpub⟩ := hload
  exact ⟨loaded, ⟨hloaded, trivial⟩, hpub⟩

/-- A greeting is met safely. -/
def MeetSane (lib : CryptoLib) (node : Tunserver) (senderPip : Ip46Addr)
    (bins : Bytes × Bytes × Bytes) : Prop :=
  HisSane lib node bins.1 bins.2.1 bins.2.2 ∧ ∀ his : PeeringReference × HashipPubkey,
    returned (readHis lib senderPip bins.1 bins.2.1 bins.2.2) node = some his →
      node.CanMeet his.1 → TunnelSane lib node his.2

private theorem safe_meet_iff {senderPip : Ip46Addr} {bins : Bytes × Bytes × Bytes} :
    Safe (meet lib senderPip bins.1 bins.2.1 bins.2.2) node (fun _ _ => True) ↔
      MeetSane lib node senderPip bins := by
  rw [meet, safe_bind_of_preserves_iff fun _ => preserves_readHis _ _ _ _, safe_readHis_iff, MeetSane]
  refine and_congr_right fun hsane => forall₂_congr fun his hread => ?_
  obtain ⟨hhip, hkey⟩ := of_readHis_eq_ok (eq_ok_of_returned (fun _ => preserves_readHis _ _ _ _) hread)
  dsimp only
  rw [safe_bind_iff, and_iff_right ((noAbort_addPeerAppendPubkey _ _).safe node),
    ← addPeerAppendPubkey_returns_iff hhip]
  -- Only the table of peers has changed.
  have hrest : ∀ node', addPeerAppendPubkey lib his.1 his.2 node = .ok () node' →
      (Safe (do
        let node ← get
        let hisPubkey ← MultikeysPub.ofBin bins.2.1
        addTunnelToPubkey lib (hisPubkey.setIpv6Prefix node.ipv6Prefix) : Node Unit) node'
        (fun _ _ => True) ↔ TunnelSane lib node his.2) := by
    intro node' hrun
    obtain ⟨hisPubkey, hload, hpubkey⟩ := hkey node'
    have hfinal := @finalState_addPeerAppendPubkey lib his.1 his.2 node
    rw [finalState_of_ok hrun] at hfinal
    rw [safe_bind_of_ok (get_apply node'), safe_bind_of_ok hload, safe_addTunnelToPubkey_iff]
    obtain rfl | ⟨-, peering, -, rfl⟩ := hfinal
    · rw [← hpubkey]
    · change TunnelSane lib node (hisPubkey.setIpv6Prefix node.ipv6Prefix) ↔ _
      rw [← hpubkey]
  constructor
  · rintro h ⟨node', hrun⟩
    exact (hrest node' hrun).mp (h () node' hrun)
  · exact fun h _ node' hrun => (hrest node' hrun).mpr (h ⟨node', hrun⟩)

/-- A greeting is handled safely: its strings can be read, and its sender can be met. It is asked of every
greeting, whoever has sent it. -/
def GreetingSane (lib : CryptoLib) (node : Tunserver) (senderPip : Ip46Addr) (bin : Bytes) : Prop :=
  GreetingStringsSane bin ∧ ∀ bins, returned (within (parserOfBuffer bin) popPublicHi : Node _) node =
    some bins → MeetSane lib node senderPip bins

private theorem safe_handlePublicHi_iff {senderPip : Ip46Addr} {bin : Bytes} :
    Safe (handlePublicHi lib senderPip bin) node (fun _ _ => True) ↔
      GreetingSane lib node senderPip bin := by
  rw [handlePublicHi, safe_bind_of_preserves_iff fun _ => .within, safe_within, safe_popPublicHi_iff,
    GreetingSane]
  refine and_congr_right fun _ => forall₂_congr fun bins _ => ?_
  have hhandler : ∀ (e : Exn) (q : Node Unit),
      (if e.isInvalidArgument then some (pure ()) else none) = some q → ∃ u, q = pure u := by
    intro e q hq
    split at hq
    · exact ⟨(), (Option.some.inj hq).symm⟩
    · cases hq
  exact (safe_catching_pure hhandler).trans safe_meet_iff

/-! ### Datagrams -/

/-- No assertion fails because of a datagram: it is not understood, or not from a peer that is known, or what
it brings is handled safely. A greeting is looked at whoever it is from, and the other commands only when they
are from a peer. -/
def DatagramSane (lib : CryptoLib) (node : Tunserver) (senderPip : Ip46Addr) (buf : Bytes) : Prop :=
  match datagramCmd buf with
  | some .publicHi => GreetingSane lib node senderPip (buf.drop 2)
  | some .tunneledData => ∀ sender, node.senderOf senderPip = some sender → BlobSane buf ∧
      ∀ packet, returned (within (parserOfBuffer buf) popTunneledData : Node _) node = some packet →
        node.PacketSane sender packet
  | some .findhipQuery => ∀ sender, node.senderOf senderPip = some sender →
      ∀ query : HashipAddr × ℤ, returned (parseFindhipQuery (buf.drop 2) : Node _) node = some query →
        1 ≤ query.2 → node.AnswerSane sender query.1
  | some .findhipReply => ∀ sender, node.senderOf senderPip = some sender →
      ReplySane lib node (buf.drop 2)
  | _ => True

/-- What is not understood ends with an exception at most. -/
private theorem safe_handleDatagram_of_no_cmd {senderPip : Ip46Addr} {buf : Bytes}
    (h : datagramCmd buf = none) : Safe (handleDatagram lib senderPip buf) node fun _ _ => True := by
  match buf with
  | [] => trivial
  | [_] => trivial
  | protoVersion :: cmdByte :: bin =>
    rw [handleDatagram, safe_bind, safe_checkThat]
    intro hversion
    rw [datagramCmd, if_neg hversion] at h
    rw [safe_bind, safe_fromExcept]
    intro cmd hcmd
    rw [hcmd] at h
    cases h

private theorem safe_handlePeerCmd_iff {senderPip : Ip46Addr} {cmd : ProtoCmd} {buf : Bytes} :
    Safe (handlePeerCmd lib senderPip cmd buf) node (fun _ _ => True) ↔
      ∀ sender, node.senderOf senderPip = some sender →
        Safe (match cmd with
          | .tunneledData => handleTunneledData lib sender buf
          | .findhipQuery => handleFindhipQuery senderPip sender (buf.drop 2)
          | .findhipReply => handleFindhipReply lib sender (buf.drop 2)
          | _ => pure ()) node fun _ _ => True := by
  rw [handlePeerCmd, safe_bind_of_preserves_iff fun _ => preserves_findPeer _,
    and_iff_right ((noAbort_findPeer senderPip).safe node)]
  exact Iff.rfl

private theorem safe_handleDatagram_iff {senderPip : Ip46Addr} {buf : Bytes} :
    Safe (handleDatagram lib senderPip buf) node (fun _ _ => True) ↔
      DatagramSane lib node senderPip buf := by
  cases hcmd : datagramCmd buf with
  | none =>
    rw [DatagramSane, hcmd]
    exact iff_of_true (safe_handleDatagram_of_no_cmd hcmd) trivial
  | some cmd =>
    rw [safe_congr_run (handleDatagram_of_cmd hcmd), DatagramSane, hcmd]
    cases cmd with
    | publicHi => exact safe_handlePublicHi_iff
    | publicPingRequest => exact iff_of_true trivial trivial
    | publicPingReply => exact iff_of_true trivial trivial
    | tunneledData =>
      rw [handleCmd_of_peer rfl, safe_handlePeerCmd_iff]
      exact forall₂_congr fun sender _ => safe_handleTunneledData_iff
    | findhipQuery =>
      rw [handleCmd_of_peer rfl, safe_handlePeerCmd_iff]
      exact forall₂_congr fun sender _ => safe_handleFindhipQuery_iff
    | findhipReply =>
      rw [handleCmd_of_peer rfl, safe_handlePeerCmd_iff]
      exact forall₂_congr fun sender _ => safe_handleFindhipReply_iff
    | _ =>
      rw [handleCmd_of_peer rfl, safe_handlePeerCmd_iff]
      exact iff_of_true (fun _ _ => trivial) trivial

end Tunserver

/-- A round of the loop goes on with the next one unless the process is aborted. -/
theorem returns_run_iff {event : Event} :
    (∃ node', event.run lib node = .ok () node') ↔ Safe (event.handle lib) node fun _ _ => True := by
  rcases hhandle : event.handle lib node with ⟨u, node'⟩ | ⟨e | _, node'⟩
  · simp [Event.run, catching, hhandle, Safe]
  · simp [Event.run, catching, hhandle, Safe]
  · simp [Event.run, catching, hhandle, Safe]

end Keys

/-- The loop goes on after a datagram, whatever the node is like, exactly when the datagram is sane. Every
exception is caught in the loop, so to go on is not to be aborted by an assertion; which assertions a datagram
can come to, and when they hold, is what it means to be sane. -/
theorem loops_iff (lib : CryptoLib) (node : Tunserver) (senderPip : Ip46Addr) (buf : Bytes) :
    (∃ node', (Event.datagram senderPip buf).run lib node = .ok () node') ↔
      DatagramSane lib node senderPip buf := by
  rw [returns_run_iff]
  exact safe_handleDatagram_iff

/-- A greeting that announces a string of 50,000,001 octets takes down a node, whoever it is from. -/
theorem not_loops :
    ¬ ∀ lib node senderPip buf, ∃ node', (Event.datagram senderPip buf).run lib node = .ok () node' := by
  intro h
  obtain ⟨node', hrun⟩ := h CryptoLib.sample (sampleNode 1) (samplePip 2)
    [1, 3, 0xFE, 0x02, 0xFA, 0xF0, 0x81]
  have hreturned := returned_eq_some_iff.mpr ⟨node', hrun⟩
  have hnone : (returned ((Event.datagram (samplePip 2) [1, 3, 0xFE, 0x02, 0xFA, 0xF0, 0x81]).run
      CryptoLib.sample) (sampleNode 1)).isNone = true := by decide +kernel
  rw [hreturned] at hnone
  cases hnone

end Galaxy42
