import Galaxy42.Lib.Network
import Galaxy42.Tunserver.Network
import Galaxy42.Tunserver.TunnelRuns

/-!
# What is in the datagrams with data

Tunneled data that a node sends are what it has just boxed, or empty, or the data of a datagram that it has got
from a peer, with the box as it was (`origin_of_tunneled`). So whatever happens in a network of nodes, even when
datagrams are lost, delivered again, delivered to the wrong node or seem to come from another address: the data
in flight are empty, or they were boxed earlier in the run by a node that has read them from its card, with the
key of a tunnel that was set up for a public key of the destination (`sealed_of_run`).

The steps of the network are the weakest that there are (`AnyStep`): a datagram in flight may get to any node
at any time, with any address as the one that it comes from, and stay in flight. It cannot change on the way,
and none come from outside of the network; who invents datagrams is a node of it.

What was boxed is told by the run itself: there is a step in it in which a node has read a packet from its card
and has boxed it as these data (`SealedBefore`). Such a step does not go away when the run goes on, so that the
data in flight are empty or boxed is an invariant of whole runs (`shut_of_run`), and it takes one lemma on what a
node sends in an event. With which key it was boxed follows from what is known of all tunnels of a node
in any run (`TunnelsKeyed`).
-/

namespace Galaxy42

open Toolkit Program TrivialSerialize Tunserver

variable {lib : CryptoLib} {node : Tunserver} {event : Event}

/-! ### One node -/

/-- What is read of data is what was written, whatever the TTL. -/
private theorem Carries.of_acceptedPacket {packet read : TunneledData} {octets : Bytes}
    (h : Carries packet octets)
    (hwrite : Peering.Writable packet) {senderPip : Ip46Addr} {sender : Peering}
    (haccept : node.acceptedPacket senderPip octets = some (sender, read)) :
    ∃ ttl : ℤ, 0 ≤ ttl ∧ ttl < 256 ∧ read = { packet with ttl } := by
  obtain ⟨-, hsender, hparse⟩ := Galaxy42.of_acceptedPacket haccept
  have httl := ttl_of_acceptedPacket haccept
  by_cases hblob : packet.blob.length ≤ saneMaxSizeForString
  · obtain ⟨ttl, haccept'⟩ := h.acceptedPacket hwrite hblob hsender
    obtain rfl := (Prod.mk.inj (Option.some.inj (haccept.symm.trans haccept'))).2
    exact ⟨ttl, httl.1, httl.2, rfl⟩
  -- A blob that is longer than what the parser takes ends in an assertion.
  · obtain ⟨ttl, -, -, rfl⟩ := h
    obtain ⟨node', hrun⟩ := returned_eq_some_iff.mp hparse
    obtain ⟨⟨c, hpop⟩, -⟩ := within_eq_ok_iff.mp hrun
    have hskip : Reads (skipBytesN 2) [currentVersion, ProtoCmd.tunneledData.toInt] () :=
      reads_skipBytesN [currentVersion, ProtoCmd.tunneledData.toInt]
    have hnonce : Reads (popBytesN cryptoBoxNonceBytes) packet.nonceUsed packet.nonceUsed :=
      hwrite.1 ▸ reads_popBytesN packet.nonceUsed
    have hstart : parserOfBuffer (tunneledOctets { packet with ttl }) =
        Cursor.between [] ([currentVersion, ProtoCmd.tunneledData.toInt] ++ (packet.srcHip.octets ++
          (packet.dstHip.octets ++ ([UInt8.ofInt ttl] ++ (packet.nonceUsed ++
            (uvarintOctets packet.blob.length ++ packet.blob)))))) :=
      rfl
    rw [hstart, popTunneledData, bind_of_ok (hskip _ _), bind_of_ok (reads_popHip packet.srcHip _ _),
      bind_of_ok (reads_popHip packet.dstHip _ _), bind_of_ok (reads_popByteU _ _ _),
      bind_of_ok (hnonce _ _), bind_of_error
        (popVarstring_between_oversize (not_le.mp hblob) hwrite.2 _ _)] at hpop
    cases hpop

/-- The data that a node has got in an event, with another TTL. -/
def Tunserver.GotData (node : Tunserver) (event : Event) (packet : TunneledData) : Prop :=
  ∃ senderPip octets sender ttl, event = .datagram senderPip octets ∧
    node.acceptedPacket senderPip octets = some (sender, { packet with ttl })

private theorem sentSince_eq_nil {node' : Tunserver} (h : node'.sent = node.sent) :
    node'.sentSince node = [] :=
  sentSince_of_append (show node'.sent = [] ++ node.sent from h)

/-- Data that are routed are what a datagram that is sent carries, if it is one with data. -/
private theorem carries_of_routeTop {node' : Tunserver} (hbefore : node'.sent = node.sent)
    {data : TunneledData}
    {reason : RouteReason} {d : Ip46Addr × Bytes} (hlt : data.ttl < 256)
    (hcmd : datagramCmd d.2 = some .tunneledData)
    (hd : d ∈ (finalState (routeTunDataToItsDestinationTop data reason) node').sentSince node) :
    Carries data d.2 ∧ Peering.Writable data := by
  obtain ⟨new, hsent, hnew⟩ := sent_routeTop data reason node'
  rw [hbefore] at hsent
  rw [sentSince_of_append hsent] at hd
  obtain rfl | ⟨hip, peering, hpos, hwrite, -, rfl⟩ | ⟨-, hquery⟩ := hnew
  · cases hd
  · obtain rfl := List.mem_singleton.mp hd
    exact ⟨⟨data.ttl, hpos.le, hlt, rfl⟩, hwrite⟩
  -- Queries are no tunneled data.
  · rw [hquery d hd] at hcmd
    cases hcmd

/-- An event that has no data sends none. -/
private theorem not_tunneled_of_no_routes (hnone : ∀ data, ¬ event.Routes node data) {d : Ip46Addr × Bytes}
    (hd : d ∈ (finalState (event.run lib) node).sentSince node) : datagramCmd d.2 ≠ some .tunneledData := by
  let J : Tunserver → Prop := fun node' =>
    ∃ new, node'.sent = new ++ node.sent ∧ ∀ d ∈ new, datagramCmd d.2 ≠ some .tunneledData
  have hpush : ∀ {node' : Tunserver} addr {cmd : ProtoCmd} bin, cmd ≠ .tunneledData → J node' →
      J (node'.pushSent addr (cmdOctets cmd bin)) := by
    rintro node' addr cmd bin hcmd ⟨new, hsent, hnew⟩
    refine ⟨(addr, cmdOctets cmd bin) :: new, congrArg ((addr, cmdOctets cmd bin) :: ·) hsent, fun d hd => ?_⟩
    obtain rfl | hd := List.mem_cons.mp hd
    · rw [datagramCmd_cmdOctets]
      exact fun heq => hcmd (Option.some.inj heq)
    · exact hnew d hd
  have hstart : ∀ node', node'.sent = node.sent → J node' := fun node' hsent =>
    ⟨[], hsent, fun _ hd => absurd hd List.not_mem_nil⟩
  have heffects : Effects lib J node event := {
    learned := fun _ _ _ => hstart _ rfl
    put := fun _ _ _ => hstart _ rfl
    removed := fun _ => hstart _ rfl
    greet := fun _ addr bin h => hpush addr bin (by decide) h
    reply := fun _ _ _ _ _ _ _ _ _ _ h => hpush _ _ (by decide) h
    data := fun _ _ packet hroutes _ => absurd hroutes (hnone packet)
    search := by
      rintro dst ttl reason - node' ⟨new, hsent, hnew⟩
      obtain ⟨m, hstate, -⟩ := finalState_searchRoute dst reason ttl node'
      rw [hstate]
      refine ⟨((node'.askedPeers dst ttl).map fun p =>
        (p.getPip, queryOctets dst (UInt8.ofInt (max 5 ttl)))).reverse ++ new, ?_, fun d hd => ?_⟩
      · rw [List.append_assoc, ← hsent]
        rfl
      · obtain hd | hd := List.mem_append.mp hd
        · obtain ⟨p, -, rfl⟩ := List.mem_map.mp (List.mem_reverse.mp hd)
          rw [datagramCmd_queryOctets]
          exact fun heq => by cases heq
        · exact hnew d hd
    unrelated := fun _ _ _ _ _ h => h }
  obtain ⟨new, hsent, hnew⟩ := heffects.run (hstart node rfl)
  rw [sentSince_of_append hsent] at hd
  exact hnew d hd

/-- Where the data come from that a node sends: they are empty, or were boxed, or were got from a peer. -/
theorem origin_of_tunneled {d : Ip46Addr × Bytes}
    (hd : d ∈ (finalState (event.run lib) node).sentSince node) (hcmd : datagramCmd d.2 = some .tunneledData) :
    ∃ data, Carries data d.2 ∧ Peering.Writable data ∧
      (data.blob = [] ∨ node.boxed lib event = some data ∨ node.GotData event data) := by
  by_cases hnone : ∀ data, ¬ event.Routes node data
  · exact absurd hcmd (not_tunneled_of_no_routes hnone hd)
  obtain ⟨data, hroutes⟩ := not_forall_not.mp hnone
  rw [finalState_run] at hd
  match event with
  | .datagram senderPip buf =>
    obtain ⟨sender, packet, haccept, -⟩ := hroutes
    have httl := ttl_of_acceptedPacket haccept
    rw [Event.handle] at hd
    by_cases hmine : packet.dstHip = node.myHip
    · by_cases htunnel : packet.srcHip ∈ node.tunnel
      · obtain ⟨writtenToTun, hstate⟩ :
            ∃ writtenToTun, finalState (handleDatagram lib senderPip buf) node = { node with writtenToTun } :=
          finalState_of_receive_with_tunnel haccept hmine htunnel
        rw [sentSince_eq_nil (by rw [hstate])] at hd
        cases hd
      · obtain ⟨nonce, -, hstate⟩ :
            ∃ nonce : Bytes, nonce.length = cryptoBoxNonceBytes ∧
              finalState (handleDatagram lib senderPip buf) node = _ :=
          finalState_of_receive_without_tunnel haccept hmine htunnel
        rw [hstate] at hd
        have hlt : (sendBack packet nonce).ttl < 256 := httl.2
        obtain ⟨hcarries, hwrite⟩ := carries_of_routeTop rfl hlt hcmd hd
        exact ⟨_, hcarries, hwrite, .inl rfl⟩
    · rw [finalState_congr (handleDatagram_of_packet haccept), if_neg hmine, forwardTunneledData] at hd
      split at hd
      · have hnil : (finalState (pure () : Node Unit) node).sentSince node = [] := sentSince_eq_nil rfl
        rw [hnil] at hd
        cases hd
      · rw [finalState_bind_pure] at hd
        have hlow := forwardTtl_le packet.ttl
        have hlt : ({ packet with ttl := forwardTtl packet.ttl } : TunneledData).ttl < 256 := by
          dsimp only
          omega
        obtain ⟨hcarries, hwrite⟩ := carries_of_routeTop rfl hlt hcmd hd
        exact ⟨_, hcarries, hwrite, .inr (.inr ⟨senderPip, buf, sender, packet.ttl, rfl, haccept⟩)⟩
  | .tunPacket tunReadBuff =>
    rw [Event.handle] at hd
    obtain ⟨hsame, -⟩ | ⟨data, hblob, -, httl, hstate, -⟩ | ⟨data, ct, ct₁, hboxed, -, -, hstate⟩ :=
      handleTunPacket_cases lib tunReadBuff node
    · rw [hsame, sentSince_eq_nil rfl] at hd
      cases hd
    · rw [hstate] at hd
      obtain ⟨hcarries, hwrite⟩ := carries_of_routeTop rfl (by omega) hcmd hd
      exact ⟨data, hcarries, hwrite, .inl hblob⟩
    · rw [hstate] at hd
      obtain ⟨-, -, -, -, -, -, httl, -⟩ := of_boxed hboxed
      obtain ⟨hcarries, hwrite⟩ := carries_of_routeTop rfl (by omega) hcmd hd
      exact ⟨data, hcarries, hwrite, .inr (.inl hboxed)⟩

/-- The data are a packet from the card, boxed with the key of a tunnel for its destination, which was set up for a
public key with that address. -/
def Seals (lib : CryptoLib) (node : Tunserver) (tunReadBuff : Bytes) (data : TunneledData) : Prop :=
  (parseTunIpSrcDst tunReadBuff : Node _) node = .ok (data.srcHip, data.dstHip) node ∧
    ∃ ct cb pubkey, node.tunnel[data.dstHip]? = some ct ∧ ct.streamCryptoAb.boxer = some cb ∧
      HasHip lib pubkey data.dstHip ∧ KeyedFor lib node.myIDC pubkey ct ∧
        lib.secretbox cb.key data.nonceUsed (withoutDst (tunReadBuff.drop headerPositionOfIpv6)) = .ok data.blob

private theorem TunnelsKeyed.seals (h : TunnelsKeyed lib node) {data : TunneledData}
    (hboxed : node.boxed lib event = some data) :
    ∃ tunReadBuff, event = .tunPacket tunReadBuff ∧ Seals lib node tunReadBuff data := by
  obtain ⟨tunReadBuff, ct, ct₁, rfl, hparse, hct, -, hbox⟩ := of_boxed hboxed
  obtain ⟨cb, hboxer, -, hcipher, -⟩ := CryptoTunnel.boxAb_eq_ok_iff.mp hbox
  obtain ⟨pubkey, hhip, hkeyed⟩ := h _ ct hct
  exact ⟨tunReadBuff, rfl, hparse, ct, cb, pubkey, hct, hboxer, hhip, hkeyed, hcipher⟩

/-! ### A network -/

section Network

variable {ι : Type} [DecidableEq ι] {net₀ net net' : NodeNetwork ι} {data : TunneledData}

/-- A node gets a datagram, whoever it was sent to, and from whatever address it seems to come. -/
def GetsAnyhow (lib : CryptoLib) (i : ι) (d : Datagram ι) (node node' : Tunserver)
    (new : List (Datagram ι)) : Prop :=
  ∃ senderPip, Acts lib (.datagram senderPip d.octets) i node node' new

/-- Something happens at a node, or a datagram gets lost, is delivered again, or gets anywhere. There is no
condition on what a node does, nor on whom it knows. -/
def AnyStep (lib : CryptoLib) : NodeNetwork ι → NodeNetwork ι → Prop :=
  Network.StepOrFault (OwnStep lib fun _ _ => True) (GetsAnyhow lib)

/-- In a run, a node has read a packet from its card and has boxed it as these data. The run goes on from
there to the network as it is now. -/
def SealedBefore (lib : CryptoLib) (net₀ net : NodeNetwork ι) (data : TunneledData) : Prop :=
  ∃ net₁ i tunReadBuff node' new, Relation.ReflTransGen (AnyStep lib) net₀ net₁ ∧
    Seals lib (net₁.node i) tunReadBuff data ∧
    Acts lib (.tunPacket tunReadBuff) i (net₁.node i) node' new ∧
    Relation.ReflTransGen (AnyStep lib) (net₁.act i node' new) net

/-- The data of a datagram are empty, or were boxed. -/
def Shut (lib : CryptoLib) (net₀ net : NodeNetwork ι) (octets : Bytes) : Prop :=
  datagramCmd octets = some .tunneledData →
    ∃ data, Carries data octets ∧ Peering.Writable data ∧ (data.blob = [] ∨ SealedBefore lib net₀ net data)

private theorem Shut.tail {octets : Bytes} (h : Shut lib net₀ net octets) (hstep : AnyStep lib net net') :
    Shut lib net₀ net' octets := by
  intro hcmd
  obtain ⟨data, hcarries, hwrite, horigin⟩ := h hcmd
  refine ⟨data, hcarries, hwrite, horigin.imp_right ?_⟩
  rintro ⟨net₁, i, tunReadBuff, node', new, hbefore, hseals, hacts, hafter⟩
  exact ⟨net₁, i, tunReadBuff, node', new, hbefore, hseals, hacts, hafter.tail hstep⟩

omit [DecidableEq ι] in
/-- What a node sends is what it has boxed, or as shut as what it has got. -/
private theorem origin_of_acts {event : Event} {i : ι} {node' : Tunserver} {new : List (Datagram ι)}
    (hacts : Acts lib event i node node' new) {d : Datagram ι} (hd : d ∈ new)
    (hcmd : datagramCmd d.octets = some .tunneledData) :
    ∃ data, Carries data d.octets ∧ Peering.Writable data ∧
      (data.blob = [] ∨ node.boxed lib event = some data ∨ node.GotData event data) := by
  rw [hacts.2, hacts.1] at hd
  obtain ⟨d', hd', rfl⟩ := List.mem_map.mp hd
  exact origin_of_tunneled hd' hcmd

/-- The data in flight are empty or boxed in every run of a network. -/
theorem shut_of_run (hstart : ∀ i, TunnelsKeyed lib (net₀.node i)) (hquiet : net₀.flight = [])
    (hrun : Relation.ReflTransGen (AnyStep lib) net₀ net) :
    (∀ i, TunnelsKeyed lib (net.node i)) ∧ ∀ d ∈ net.flight, Shut lib net₀ net d.octets := by
  induction hrun with
  | refl => exact ⟨hstart, fun d hd => by simp [hquiet] at hd⟩
  | @tail net₁ net₂ hbefore hstep ih =>
    obtain ⟨hkeyed, hshut⟩ := ih
    have hkeyed' : ∀ {i : ι} {event : Event} {node' : Tunserver} {new : List (Datagram ι)} (flight j),
        Acts lib event i (net₁.node i) node' new →
          TunnelsKeyed lib (((net₁.withFlight flight).act i node' new).node j) := by
      intro i event node' new flight j hacts
      by_cases hji : j = i
      · subst hji
        rw [Network.node_act_self, hacts.1]
        exact (hkeyed j).run event
      · rw [Network.node_act_of_ne hji]
        exact hkeyed j
    have hold : ∀ d ∈ net₁.flight, Shut lib net₀ net₂ d.octets := fun d hd => (hshut d hd).tail hstep
    rcases hstep with hstep | hfault
    swap
    · cases hfault with
      | lose hflight =>
        refine ⟨hkeyed, fun d hd => hold d ?_⟩
        rw [hflight]
        exact ((List.sublist_cons_self _ _).append_left _).subset hd
      | double hmem =>
        exact ⟨hkeyed, fun d hd => hold d ((List.mem_cons.mp hd).elim (fun heq => heq ▸ hmem) id)⟩
    cases hstep with
    | @own i node' new hown =>
      obtain ⟨event, hisOwn, -, hacts⟩ := hown
      refine ⟨fun j => hkeyed' net₁.flight j hacts, fun d hd => ?_⟩
      rcases List.mem_append.mp hd with hd | hd
      swap
      · exact hold d hd
      intro hcmd
      obtain ⟨data, hcarries, hwrite, hempty | hboxed | hgot⟩ := origin_of_acts hacts hd hcmd
      · exact ⟨data, hcarries, hwrite, .inl hempty⟩
      · obtain ⟨tunReadBuff, rfl, hseals⟩ := (hkeyed i).seals hboxed
        exact ⟨data, hcarries, hwrite, .inr ⟨net₁, i, tunReadBuff, node', new, hbefore, hseals, hacts, .refl⟩⟩
      · obtain ⟨_, _, _, _, rfl, -⟩ := hgot
        cases hisOwn
    | @deliver i m node' new pre suf hflight hgets =>
      obtain ⟨senderPip, hacts⟩ := hgets
      refine ⟨fun j => hkeyed' (pre ++ suf) j hacts, fun d hd => ?_⟩
      have hm : m ∈ net₁.flight := by
        rw [hflight]
        simp
      rcases List.mem_append.mp hd with hd | hd
      swap
      · refine hold d ?_
        rw [hflight]
        exact ((List.sublist_cons_self _ _).append_left _).subset hd
      intro hcmd
      obtain ⟨data, hcarries, hwrite, hempty | hboxed | hgot⟩ := origin_of_acts hacts hd hcmd
      · exact ⟨data, hcarries, hwrite, .inl hempty⟩
      · cases hboxed
      -- The datagram that was got carries the same data, and was shut already.
      · obtain ⟨_, octets, sender, ttl, heq, haccept⟩ := hgot
        cases heq
        obtain ⟨data', hcarries', hwrite', horigin⟩ := hold m hm (of_acceptedPacket haccept).1
        obtain ⟨ttl', -, -, hsame⟩ := hcarries'.of_acceptedPacket hwrite' haccept
        obtain ⟨ttl'', h0, hlt, hoctets⟩ := hcarries
        refine ⟨data', ⟨ttl'', h0, hlt, ?_⟩, hwrite', horigin⟩
        have hwritten := congrArg (fun packet : TunneledData => tunneledOctets { packet with ttl := ttl'' }) hsame
        exact hoctets.trans hwritten

/-- Nothing is sent in the open. In every run of a network of nodes, whatever happens to datagrams on their way:
the data in a datagram in flight are empty, or some node has read a packet from its card before, and has boxed all
of it but its destination, with the key of a tunnel that was set up for a public key of the destination. The
addresses in the datagram are those of the packet. -/
theorem sealed_of_run (hstart : ∀ i, TunnelsKeyed lib (net₀.node i)) (hquiet : net₀.flight = [])
    (hrun : Relation.ReflTransGen (AnyStep lib) net₀ net) :
    ∀ d ∈ net.flight, datagramCmd d.octets = some .tunneledData →
      ∃ data, Carries data d.octets ∧ (data.blob = [] ∨ SealedBefore lib net₀ net data) := by
  intro d hd hcmd
  obtain ⟨data, hcarries, -, horigin⟩ := (shut_of_run hstart hquiet hrun).2 d hd hcmd
  exact ⟨data, hcarries, horigin⟩

end Network

/-- Two nodes that have a tunnel for each other. -/
def twoEnds : NodeNetwork (Fin 2) where
  node i := if i = 0 then tunnelEnd 1 2 else tunnelEnd 2 1
  flight := []

private theorem tunnelsKeyed_tunnelEnd (k peer : UInt8) :
    TunnelsKeyed CryptoLib.sampleNonces (tunnelEnd k peer) := by
  have hnew : TunnelsKeyed CryptoLib.sampleNonces (sampleNode k) := fun hip ct hct => by
    simp [sampleNode, Tunserver.new] at hct
  exact (hnew.run _).run _

/-- The first node has read a packet from its card, and a datagram with it is in flight. -/
theorem sealed_of_run_example :
    let lib := CryptoLib.sampleNonces
    let node' := finalState ((Event.tunPacket (tunHeader ++ udpPacket 1 2)).run lib) (twoEnds.node 0)
    let new := (node'.sentSince (twoEnds.node 0)).map fun d =>
      ({ sender := 0, addr := d.1, octets := d.2 } : Datagram (Fin 2))
    let net := twoEnds.act 0 node' new
    net.flight.map (fun d => datagramCmd d.octets) = [some .tunneledData] ∧ ∀ d ∈ net.flight,
      ∃ data, Carries data d.octets ∧ (data.blob = [] ∨ SealedBefore lib twoEnds net data) := by
  intro lib node' new net
  have hflight : net.flight.map (fun d => datagramCmd d.octets) = [some .tunneledData] := by decide +kernel
  have hstep : AnyStep lib twoEnds net :=
    .inl (.own ⟨.tunPacket (tunHeader ++ udpPacket 1 2), rfl, trivial, rfl, rfl⟩)
  have hstart : ∀ i, TunnelsKeyed lib (twoEnds.node i) := fun i => by
    match i with
    | 0 => exact tunnelsKeyed_tunnelEnd 1 2
    | 1 => exact tunnelsKeyed_tunnelEnd 2 1
  refine ⟨hflight, fun d hd => sealed_of_run hstart rfl (.single hstep) d hd ?_⟩
  have hcmd : datagramCmd d.octets ∈ net.flight.map fun d => datagramCmd d.octets := List.mem_map_of_mem hd
  rw [hflight] at hcmd
  exact List.mem_singleton.mp hcmd

end Galaxy42
