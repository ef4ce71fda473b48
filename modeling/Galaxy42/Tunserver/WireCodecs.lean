import Galaxy42.Crypto.SignatureCodec
import Galaxy42.Tunserver.Queries

/-!
# Both ends of a datagram

The formats of tunneled data, of replies and of greetings are written in one place of the program and
read in another. What is read is what was written (`handlers_read_as_written`), as long as it is
not longer than the parser takes: `pop_varstring` refuses more than 50,000,000 octets, and `push_varstring`
does not. A set of signatures is sent with the two systems that can sign, and without the others.

Each end is the code that really runs there. The writing ends are the function that sends tunneled data, the
one that answers a query, and the pinging of peers; the reading ends are the three handlers, and what is
claimed is that a handler goes on as if it had been given the fields. So the result covers what is checked and
computed behind the reading as well, and does not depend on how a handler is cut into parts.

Public keys and signatures are read back as something else than they were: the cached hash and the prefix
of an address are not sent, and signatures of systems that cannot sign neither. What comes back is a
function of what was sent (`MultikeysPub.received`), and strings that keys and signatures are serialized to are
structures that say so (`WrittenAs`). That a greeting can be read in one way only is a fact about these
strings (`ReadsGreeting.unique`).
-/

namespace Galaxy42

open Toolkit Program TrivialSerialize Tunserver

variable {σ : Type}

/-! ### Public keys -/

/-- What is written for one element is not longer than all. -/
private theorem length_le_flatMap {α : Type} {xs : List α} {x : α} (h : x ∈ xs) (f : α → Bytes) :
    (f x).length ≤ (xs.flatMap f).length :=
  (List.sublist_flatten_of_mem (List.mem_map_of_mem h)).length_le

/-- No string is longer than what a vector with it is written as. -/
private theorem length_le_vectorOctets {strs : List Bytes} {str : Bytes} (h : str ∈ strs) :
    str.length ≤ (vectorOctets varstringOctets strs).length := by
  have hstr := length_le_flatMap h varstringOctets
  rw [varstringOctets, List.length_append] at hstr
  rw [vectorOctets, List.length_append]
  omega

/-- No key is longer than the serialized set. -/
private theorem MultiCryptoStrings.length_le_of_mem {m : MultiCryptoStrings} {sys : SystemNr} {key : Bytes}
    (h : key ∈ m.cryptolistsGeneral sys) : key.length ≤ m.serializedOctets.length := by
  have hsys : sys ∈ m.usedSystems := mem_usedSystems.mpr (List.ne_nil_of_mem h)
  calc key.length
      ≤ (vectorOctets varstringOctets (m.cryptolistsGeneral sys)).length := length_le_vectorOctets h
    _ ≤ (m.systemOctets sys).length := (List.suffix_append _ _).length_le
    _ ≤ (m.usedSystems.flatMap m.systemOctets).length := length_le_flatMap hsys _
    _ ≤ m.serializedOctets.length :=
        ((List.suffix_append _ _).trans (List.suffix_append _ _)).length_le

/-- A string that these public keys are serialized to, and that the parser takes. They are ordinary public
keys, and may have a prefix and a cached hash, which are not written. -/
structure MultikeysPub.WrittenAs (pub : MultikeysPub) (bin : Bytes) : Prop where
  cryptoUse : pub.cryptoUse = .open
  serialized : pub.serializeBin () = .ok bin ()
  sane : bin.length ≤ saneMaxSizeForString

namespace MultikeysPub.WrittenAs

variable {pub : MultikeysPub} {bin : Bytes}

private theorem serializeBin (h : pub.WrittenAs bin) (s : σ) : pub.serializeBin s = .ok bin s := by
  obtain ⟨hfit, rfl, -⟩ := MultiCryptoStrings.serializeBin_eq_ok_iff.mp h.serialized
  exact MultiCryptoStrings.serializeBin_eq_ok_iff.mpr ⟨hfit, rfl, rfl⟩

/-- The keys are read back. -/
theorem ofBin (h : pub.WrittenAs bin) (s : σ) : MultikeysPub.ofBin bin s =
    .ok { MultikeysPub.new with cryptolistsGeneral := pub.cryptolistsGeneral } s := by
  obtain ⟨⟨hletters, hfit⟩, rfl, -⟩ := MultiCryptoStrings.serializeBin_eq_ok_iff.mp h.serialized
  exact ofBin_serializedOctets h.cryptoUse hletters (fun sys => ⟨(hfit sys).1, fun key hkey =>
    (MultiCryptoStrings.length_le_of_mem hkey).trans h.sane⟩) s

end MultikeysPub.WrittenAs

/-! ### Signatures -/

namespace Multisign

/-- A string that these signatures are serialized to, and that the parser takes. Those of systems that cannot
sign are not in it. -/
structure WrittenAs (m : Multisign) (bin : Bytes) : Prop where
  serialized : m.serializeBin () = .ok bin ()
  sane : bin.length ≤ saneMaxSizeForString

namespace WrittenAs

variable {m : Multisign} {bin : Bytes}

private theorem serializeBin (h : m.WrittenAs bin) (s : σ) : m.serializeBin s = .ok bin s := by
  obtain ⟨hfit, rfl, -⟩ := serializeBin_eq_ok_iff.mp h.serialized
  exact serializeBin_eq_ok_iff.mpr ⟨hfit, rfl, rfl⟩

/-- The signatures of the systems that can sign are read back, and no others. -/
theorem ofBin (h : m.WrittenAs bin) (s : σ) : ∃ m' : Multisign,
    Multisign.ofBin bin s = .ok m' s ∧ ∀ sys,
      (Signing sys → m'.cryptolistsGeneral sys = m.cryptolistsGeneral sys) ∧
      (¬ Signing sys → m'.cryptolistsGeneral sys = []) := by
  obtain ⟨⟨hed, hntru⟩, rfl, -⟩ := serializeBin_eq_ok_iff.mp h.serialized
  have hsane : ∀ type, (m.systemOctets type).length ≤ saneMaxSizeForString →
      ∀ sign ∈ m.cryptolistsGeneral type.nr, sign.length ≤ saneMaxSizeForString :=
    fun type htype sign hsign => (length_le_vectorOctets hsign).trans
      ((List.suffix_cons _ _).length_le.trans htype)
  have hedSane := hsane .ed25519 ((List.prefix_append _ _).length_le.trans h.sane)
  have hntruSane := hsane .ntruSign ((List.suffix_append _ _).length_le.trans h.sane)
  have hload := loadFromBin_serializedOctets hed.1 hntru.1 fun sys hsys => by
    rcases signing_iff.mp hsys with rfl | rfl
    · exact hedSane
    · exact hntruSane
  exact ⟨_, ofBin_of_loadFromBin hload s, cryptolistsGeneral_load_new m⟩

end WrittenAs

end Multisign

/-- What follows version and command. -/
private theorem drop_cmdOctets (cmd : ProtoCmd) (bin : Bytes) : (cmdOctets cmd bin).drop 2 = bin := rfl

/-! ### Tunneled data -/

namespace Tunserver

variable {lib : CryptoLib} {node : Tunserver}

/-- Tunneled data are handled as what they were before they were sent. -/
private theorem handleTunneledData_tunneledOctets {packet : TunneledData} (h : Peering.Writable packet)
    (h0 : 0 ≤ packet.ttl) (hlt : packet.ttl < 256)
    (hblob : packet.blob.length ≤ saneMaxSizeForString) (sender : Peering) :
    handleTunneledData lib sender (tunneledOctets packet) node =
      (if packet.dstHip = node.myHip then receiveTunneledData lib packet
        else forwardTunneledData sender packet) node := by
  have hread := (reads_popTunneledData h h0 hlt hblob).apply_start []
  rw [List.append_nil] at hread
  have hpop : (within (parserOfBuffer (tunneledOctets packet)) popTunneledData : Node _) node =
      .ok packet node := within_eq_ok_iff.mpr ⟨⟨_, hread⟩, rfl⟩
  rw [handleTunneledData, bind_of_ok hpop]
  rfl

/-! ### Replies -/

/-- What is done with a reply whose TTL is not too low. -/
private theorem handleFindhipReply_of_pop {sender : Peering} {bin : Bytes} {reply : FindhipReply}
    (hpop : (within (parserOfBuffer bin) popFindhipReply : Node _) node = .ok reply node)
    (httl : 1 ≤ reply.ttl) :
    handleFindhipReply lib sender bin node = (do
      addTunnelToPubkey lib (reply.pubkey.setIpv6Prefix node.ipv6Prefix)
      let _ ← addRouteInfoAndReturn reply.goalHip
        { nexthop := sender.getHip, pubkey := reply.pubkey.setIpv6Prefix node.ipv6Prefix,
          cost := reply.cost } : Node Unit) node := by
  rw [handleFindhipReply, bind_of_ok hpop, if_neg (by omega)]
  rfl

/-! ### Greetings -/

/-- The three strings of a greeting. -/
def greetingBin (binIDCPub binIDIPub binIDIIDCSig : Bytes) : Bytes :=
  varstringOctets binIDCPub ++ (varstringOctets binIDIPub ++ varstringOctets binIDIIDCSig)

theorem reads_popPublicHi {binIDCPub binIDIPub binIDIIDCSig : Bytes}
    (h : binIDCPub.length ≤ saneMaxSizeForString) (h' : binIDIPub.length ≤ saneMaxSizeForString)
    (h'' : binIDIIDCSig.length ≤ saneMaxSizeForString) :
    Reads popPublicHi (greetingBin binIDCPub binIDIPub binIDIIDCSig)
      (binIDCPub, binIDIPub, binIDIIDCSig) := by
  have hread : Reads popPublicHi (varstringOctets binIDCPub ++ (varstringOctets binIDIPub ++
      (varstringOctets binIDIIDCSig ++ []))) (binIDCPub, binIDIPub, binIDIIDCSig) :=
    (reads_popVarstring h).bind ((reads_popVarstring h').bind
      ((reads_popVarstring h'').bind (Reads.pure _)))
  rwa [List.append_nil] at hread

/-- The greeting that a node sends to a peer. -/
theorem pingPeer_eq {node node' : Tunserver} {IDIIDCSig : Multisign} {peering : Peering}
    {binIDCPub binIDIPub binIDIIDCSig : Bytes} (hIDC : node.myIDC.pub.WrittenAs binIDCPub)
    (hIDI : node.myIDIPub.WrittenAs binIDIPub) (hsig : IDIIDCSig.WrittenAs binIDIIDCSig) :
    pingPeer node IDIIDCSig peering node' = peering.sendDataRAWUdp
      (cmdOctets .publicHi (greetingBin binIDCPub binIDIPub binIDIIDCSig)) node' := by
  have hgen : (generate (do
      pushVarstring (← node.myIDC.pub.serializeBin)
      pushVarstring (← node.myIDIPub.serializeBin)
      pushVarstring (← IDIIDCSig.serializeBin)) : Node Bytes) node' =
      .ok (greetingBin binIDCPub binIDIPub binIDIIDCSig) node' := by
    have hpush : ∀ {bin out : Bytes}, bin.length ≤ saneMaxSizeForString →
        pushVarstring bin out = .ok () (out ++ varstringOctets bin) := fun hbin =>
      (emits_pushVarstring _ _ _).mpr ⟨lt_uvarintLimit_of_le_sane hbin, rfl⟩
    refine generate_eq_ok_iff.mpr ⟨?_, rfl⟩
    rw [bind_of_ok (hIDC.serializeBin _), bind_of_ok (hpush hIDC.sane),
      bind_of_ok (hIDI.serializeBin _), bind_of_ok (hpush hIDI.sane),
      bind_of_ok (hsig.serializeBin _), hpush hsig.sane, List.nil_append, List.append_assoc]
    rfl
  rw [pingPeer, bind_of_ok hgen]
  rfl

/-- What a node reads from a greeting, and meets the sender with: the two sets of public keys, and the
signatures. -/
def ReadsGreeting (lib : CryptoLib) (node : Tunserver) (octets : Bytes)
    (IDC IDI signs : SystemNr → List Bytes) : Prop :=
  ∃ (binIDCPub binIDIPub binIDIIDCSig : Bytes) (IDCPub IDIPub : MultikeysPub) (IDIIDCSig : Multisign),
    (within (parserOfBuffer (octets.drop 2)) popPublicHi : Node _) node =
      .ok (binIDCPub, binIDIPub, binIDIIDCSig) node ∧
    (∀ senderPip, handlePublicHi lib senderPip (octets.drop 2) node =
      catching (meet lib senderPip binIDCPub binIDIPub binIDIIDCSig)
        (fun e => if e.isInvalidArgument then some (pure ()) else none) node) ∧
    MultikeysPub.ofBin binIDCPub node = .ok IDCPub node ∧ IDCPub.cryptolistsGeneral = IDC ∧
    MultikeysPub.ofBin binIDIPub node = .ok IDIPub node ∧ IDIPub.cryptolistsGeneral = IDI ∧
    Multisign.ofBin binIDIIDCSig node = .ok IDIIDCSig node ∧ IDIIDCSig.cryptolistsGeneral = signs

/-- The greeting of a node says what its keys are. -/
theorem readsGreeting_of_pingPeer (lib : CryptoLib) (node : Tunserver) {sending sending' : Tunserver}
    {IDIIDCSig : Multisign} {peering : Peering} {binIDCPub binIDIPub binIDIIDCSig : Bytes}
    (hIDC : sending.myIDC.pub.WrittenAs binIDCPub) (hIDI : sending.myIDIPub.WrittenAs binIDIPub)
    (hsig : IDIIDCSig.WrittenAs binIDIIDCSig) (hsend : peering.Sendable)
    (hon : sending'.udpDisabled = false) :
    ∃ data, pingPeer sending IDIIDCSig peering sending' =
        .ok () (sending'.pushSent peering.getPip data) ∧
      ReadsGreeting lib node data sending.myIDC.pub.cryptolistsGeneral
        sending.myIDIPub.cryptolistsGeneral fun sys =>
          if sys = CryptoSystemType.ed25519.nr ∨ sys = CryptoSystemType.ntruSign.nr then
            IDIIDCSig.cryptolistsGeneral sys else [] := by
  obtain ⟨sig, hsigRead, hsigns⟩ := hsig.ofBin node
  have hread := (reads_popPublicHi hIDC.sane hIDI.sane hsig.sane).apply_start []
  rw [List.append_nil] at hread
  have hpop : (within (parserOfBuffer (greetingBin binIDCPub binIDIPub binIDIIDCSig)) popPublicHi :
      Node _) node = .ok (binIDCPub, binIDIPub, binIDIIDCSig) node :=
    within_eq_ok_iff.mpr ⟨⟨_, hread⟩, rfl⟩
  have hmeet : ∀ senderPip, handlePublicHi lib senderPip (greetingBin binIDCPub binIDIPub binIDIIDCSig)
      node = catching (meet lib senderPip binIDCPub binIDIPub binIDIIDCSig)
        (fun e => if e.isInvalidArgument then some (pure ()) else none) node := by
    intro senderPip
    rw [handlePublicHi, bind_of_ok hpop]
  refine ⟨_, (pingPeer_eq hIDC hIDI hsig).trans (Peering.sendDataRAWUdp_of_sendable hsend hon), ?_⟩
  rw [ReadsGreeting, drop_cmdOctets]
  refine ⟨_, _, _, _, _, sig, hpop, hmeet, hIDC.ofBin node, rfl, hIDI.ofBin node, rfl, hsigRead,
    funext fun sys => ?_⟩
  split_ifs with hsys
  · exact (hsigns sys).1 (Multisign.signing_iff.mpr hsys)
  · exact (hsigns sys).2 fun h => hsys (Multisign.signing_iff.mp h)

/-! ### All three -/

/-- Tunneled data, the reply to a query and a greeting are read as they were written, when no string in them
is longer than the parser takes, and the signatures are of systems that can sign. Each of the three is stated
for the code that sends it and for the handler that receives it, in any state of both nodes. -/
theorem handlers_read_as_written (lib : CryptoLib) (node : Tunserver) (sender : Peering) :
    (∀ (packet : TunneledData) (peering : Peering) (sending : Tunserver),
      packet.nonceUsed.length = cryptoBoxNonceBytes → 0 ≤ packet.ttl → packet.ttl < 256 →
      packet.blob.length ≤ saneMaxSizeForString → peering.Sendable → sending.udpDisabled = false →
      ∃ data, peering.sendDataUdp packet sending = .ok () (sending.pushSent peering.getPip data) ∧
        handleTunneledData lib sender data node =
          (if packet.dstHip = node.myHip then receiveTunneledData lib packet
            else forwardTunneledData sender packet) node) ∧
    (∀ (senderPip : Ip46Addr) (asking : Peering) (cmdData : Bytes) (goal : HashipAddr) (ttl : ℤ)
      (route : RouteInfo) (sending sending' : Tunserver) (bin : Bytes),
      parseFindhipQuery cmdData sending = .ok (goal, ttl) sending → 1 ≤ ttl →
      getRouteOrMaybeSearch goal { hisAddr := asking.getHip, searchMode := .helpFind } true (ttl - 1)
        sending = .ok route sending' →
      route.cost < 256 → route.pubkey.WrittenAs bin → asking.Sendable → sending'.udpDisabled = false →
      ∃ data pubkey, finalState (handleFindhipQuery senderPip asking cmdData) sending =
          sending'.pushSent asking.getPip data ∧
        (within (parserOfBuffer (data.drop 2)) popFindhipReply : Node _) node =
          .ok { ttl, cost := route.cost, goalHip := goal, pubkey } node ∧
        pubkey = { MultikeysPub.new with cryptolistsGeneral := route.pubkey.cryptolistsGeneral } ∧
        handleFindhipReply lib sender (data.drop 2) node = (do
          addTunnelToPubkey lib (pubkey.setIpv6Prefix node.ipv6Prefix)
          let _ ← addRouteInfoAndReturn goal
            { nexthop := sender.getHip, pubkey := pubkey.setIpv6Prefix node.ipv6Prefix,
              cost := route.cost } : Node Unit) node) ∧
    ∀ (peering : Peering) (IDIIDCSig : Multisign) (sending sending' : Tunserver)
      (binIDCPub binIDIPub binIDIIDCSig : Bytes),
      sending.myIDC.pub.WrittenAs binIDCPub → sending.myIDIPub.WrittenAs binIDIPub →
      IDIIDCSig.WrittenAs binIDIIDCSig →
      (∀ sys, IDIIDCSig.cryptolistsGeneral sys ≠ [] → Multisign.Signing sys) →
      peering.Sendable → sending'.udpDisabled = false →
      ∃ data, pingPeer sending IDIIDCSig peering sending' =
          .ok () (sending'.pushSent peering.getPip data) ∧
        ReadsGreeting lib node data sending.myIDC.pub.cryptolistsGeneral
          sending.myIDIPub.cryptolistsGeneral IDIIDCSig.cryptolistsGeneral := by
  refine ⟨?tunneled, ?reply, ?greeting⟩
  case tunneled =>
    intro packet peering sending hnonce h0 hlt hblob hsend hon
    have hwritable : Peering.Writable packet := ⟨hnonce, lt_uvarintLimit_of_le_sane hblob⟩
    exact ⟨_, (Peering.sendDataUdp_of_writable hwritable).trans
      (Peering.sendDataRAWUdp_of_sendable hsend hon),
      handleTunneledData_tunneledOctets hwritable h0 hlt hblob sender⟩
  case reply =>
    intro senderPip asking cmdData goal ttl route sending sending' bin hparse httl hroute hcost hpub
      hsend hon
    obtain ⟨⟨hletters, hfit⟩, rfl, -⟩ :=
      MultiCryptoStrings.serializeBin_eq_ok_iff.mp hpub.serialized
    have htell : route.Tellable := ⟨⟨hletters, hfit⟩, lt_uvarintLimit_of_le_sane hpub.sane⟩
    have hle := ttl_le_of_parseFindhipQuery (returned_eq_some_iff.mpr ⟨sending, hparse⟩)
    have hsent : finalState (handleFindhipQuery senderPip asking cmdData) sending =
        sending'.pushSent asking.getPip (toldOctets ttl goal route) := by
      rw [handleFindhipQuery, finalState_bind_of_ok hparse]
      simp only [if_neg (show ¬ ttl < 1 by omega)]
      rw [finalState_catching_pure fun e q hq => ⟨(), (Option.some.inj hq).symm⟩,
        finalState_answerQuery_of_tellable htell hroute, if_pos ⟨hsend, hon⟩]
    -- The TTL and the cost fit into the octets they are written in.
    have hread : Reads popFindhipReply (replyBin (UInt8.ofInt ttl) (UInt8.ofNat route.cost) goal
        route.pubkey.serializedOctets) _ := reads_popFindhipReply hpub.sane fun c => hpub.ofBin c
    have hstart := hread.apply_start []
    rw [List.append_nil, toNat_ofInt_of_lt (by omega) (by omega),
      UInt8.toNat_ofNat_of_lt' hcost] at hstart
    have hpop := within_eq_ok_iff.mpr ⟨⟨_, hstart⟩, @rfl _ node⟩
    exact ⟨_, _, hsent, hpop, rfl, handleFindhipReply_of_pop hpop httl⟩
  case greeting =>
    intro peering IDIIDCSig sending sending' binIDCPub binIDIPub binIDIIDCSig hIDC hIDI hsig hsigning
      hsend hon
    obtain ⟨data, hsent, hread⟩ := readsGreeting_of_pingPeer lib node hIDC hIDI hsig hsend hon
    -- Only the systems that can sign are written, and there are no signatures of others.
    have hsigns : (fun sys => if sys = CryptoSystemType.ed25519.nr ∨
        sys = CryptoSystemType.ntruSign.nr then IDIIDCSig.cryptolistsGeneral sys else []) =
        IDIIDCSig.cryptolistsGeneral := by
      funext sys
      split_ifs with hsys
      · rfl
      · exact (not_not.mp fun hne => hsys (Multisign.signing_iff.mp (hsigning sys hne))).symm
    rw [hsigns] at hread
    exact ⟨data, hsent, hread⟩

/-- A node knows the way to its own peer, and the key of it. -/
private theorem exists_route_betweenPeers : ∃ (route : RouteInfo) (sending' : Tunserver),
    getRouteOrMaybeSearch (sampleHip 3) { hisAddr := sampleHip 2, searchMode := .helpFind } true (3 - 1)
      betweenPeers = .ok route sending' ∧
    route.cost = 1 ∧ route.pubkey.WrittenAs (sampleKeyBin 3) ∧ sending'.udpDisabled = false := by
  let search : Node RouteInfo :=
    getRouteOrMaybeSearch (sampleHip 3) { hisAddr := sampleHip 2, searchMode := .helpFind } true (3 - 1)
  have hread : (returned search betweenPeers).map
      (fun r => (r.cost, r.pubkey.cryptoUse, returned r.pubkey.serializeBin ())) =
      some (1, .open, some (sampleKeyBin 3)) := by decide +kernel
  obtain ⟨route, hroute, heq⟩ := Option.map_eq_some_iff.mp hread
  obtain ⟨hcost, huse, hbin⟩ : route.cost = 1 ∧ route.pubkey.cryptoUse = .open ∧
      returned route.pubkey.serializeBin () = some (sampleKeyBin 3) := by simpa using heq
  obtain ⟨sending', hrun⟩ := returned_eq_some_iff.mp hroute
  obtain ⟨_, hserialized⟩ := returned_eq_some_iff.mp hbin
  have hon : (finalState search betweenPeers).udpDisabled = false := by decide +kernel
  rw [finalState_of_ok hrun] at hon
  exact ⟨route, sending', hrun, hcost, ⟨huse, hserialized, by decide⟩, hon⟩

/-- Tunneled data with the highest TTL that there is, the reply of a node between two peers to one of
them about the other one, and a greeting that is signed. -/
theorem handlers_read_as_written_example :
    (∃ data, (Peering.new { peeringAddr := samplePip 2, hashipAddr := sampleHip 2 }).sendDataUdp
        { srcHip := sampleHip 1, dstHip := sampleHip 2, ttl := 255,
          nonceUsed := List.replicate 24 7, blob := [1, 2, 3] } (sampleNode 1) =
          .ok () ((sampleNode 1).pushSent (samplePip 2) data)) ∧
      (∃ data sending' pubkey,
        finalState (handleFindhipQuery (samplePip 2)
            (Peering.new { peeringAddr := samplePip 2, hashipAddr := sampleHip 2 })
            (queryBin (sampleHip 3) 3)) betweenPeers =
          Tunserver.pushSent sending' (samplePip 2) data ∧
        (within (parserOfBuffer (data.drop 2)) popFindhipReply : Node _) (sampleNode 2) =
          .ok { ttl := 3, cost := 1, goalHip := sampleHip 3, pubkey } (sampleNode 2)) ∧
      ∃ data, ReadsGreeting CryptoLib.sample (sampleNode 2) data (sampleKey 1).cryptolistsGeneral
        (sampleKey 1).cryptolistsGeneral
        (Multisign.new.addSignature CryptoSystemType.ed25519.nr [1, 2]).cryptolistsGeneral := by
  let peering := Peering.new { peeringAddr := samplePip 2, hashipAddr := sampleHip 2 }
  obtain ⟨htunneled, hreply, hgreeting⟩ := handlers_read_as_written CryptoLib.sample (sampleNode 2)
    (Peering.new { peeringAddr := samplePip 1, hashipAddr := sampleHip 1 })
  refine ⟨?_, ?_, ?_⟩
  · obtain ⟨data, hsent, -⟩ := htunneled
      { srcHip := sampleHip 1, dstHip := sampleHip 2, ttl := 255,
        nonceUsed := List.replicate 24 7, blob := [1, 2, 3] } peering (sampleNode 1)
      rfl (by decide) (by decide) (by decide) rfl rfl
    exact ⟨data, hsent⟩
  · obtain ⟨route, sending', hroute, hcost, hpub, hon⟩ := exists_route_betweenPeers
    obtain ⟨data, pubkey, hsent, hpop, -⟩ := hreply (samplePip 2) peering (queryBin (sampleHip 3) 3)
      (sampleHip 3) 3 route betweenPeers sending' (sampleKeyBin 3)
      (parseFindhipQuery_queryBin (by decide) 3 betweenPeers) (by decide) hroute
      (by rw [hcost]; decide) hpub rfl hon
    rw [hcost] at hpop
    exact ⟨data, sending', pubkey, hsent, hpop⟩
  · let sign := Multisign.new.addSignature CryptoSystemType.ed25519.nr [1, 2]
    have hsigning : ∀ sys, sign.cryptolistsGeneral sys ≠ [] → Multisign.Signing sys := by
      intro sys hsys
      rw [Multisign.signing_iff]
      by_contra hother
      exact hsys (Function.update_of_ne (fun heq => hother (.inl heq)) _ _)
    obtain ⟨data, -, hread⟩ := hgreeting peering sign (sampleNode 1) (sampleNode 1) (sampleKeyBin 1)
      (sampleKeyBin 1) [6, 1, 2, 1, 2, 11, 0]
      ⟨rfl, by with_unfolding_all rfl, by decide⟩ ⟨rfl, by with_unfolding_all rfl, by decide⟩
      ⟨by with_unfolding_all rfl, by decide⟩ hsigning rfl rfl
    exact ⟨data, hread⟩

/-- There is one way to read a greeting. -/
private theorem ReadsGreeting.unique {node : Tunserver} {octets : Bytes}
    {IDC IDI signs IDC' IDI' signs' : SystemNr → List Bytes}
    (h : ReadsGreeting lib node octets IDC IDI signs)
    (h' : ReadsGreeting lib node octets IDC' IDI' signs') : signs = signs' := by
  obtain ⟨_, _, _, _, _, _, hpop, -, -, -, -, -, hsig, rfl⟩ := h
  obtain ⟨_, _, _, _, _, _, hpop', -, -, -, -, -, hsig', rfl⟩ := h'
  obtain ⟨-, -, rfl⟩ := (EStateM.Result.ok.inj (hpop.symm.trans hpop')).1
  rw [(EStateM.Result.ok.inj (hsig.symm.trans hsig')).1]

/-- A signature of a system that cannot sign is not sent. -/
theorem not_handlers_read_as_written :
    ¬ ∀ (lib : CryptoLib) (node sending : Tunserver) (peering : Peering) (IDIIDCSig : Multisign),
      sending.myIDC.pub.cryptoUse = .open → sending.myIDIPub.cryptoUse = .open → peering.Sendable →
      sending.udpDisabled = false →
      ∃ data, pingPeer sending IDIIDCSig peering sending =
          .ok () (sending.pushSent peering.getPip data) ∧
        ReadsGreeting lib node data sending.myIDC.pub.cryptolistsGeneral
          sending.myIDIPub.cryptolistsGeneral IDIIDCSig.cryptolistsGeneral := by
  intro h
  let peering := Peering.new { peeringAddr := samplePip 2, hashipAddr := sampleHip 2 }
  let sign := Multisign.new.addSignature CryptoSystemType.x25519.nr [1]
  have hkey : (sampleNode 1).myIDC.pub.WrittenAs (sampleKeyBin 1) :=
    ⟨rfl, by with_unfolding_all rfl, by decide⟩
  have hsign : sign.WrittenAs [6, 0, 11, 0] := ⟨by with_unfolding_all rfl, by decide⟩
  obtain ⟨data, hsent, hread⟩ := h CryptoLib.sample (sampleNode 2) (sampleNode 1) peering sign
    rfl rfl rfl rfl
  obtain ⟨data', hsent', hread'⟩ : ∃ data,
      pingPeer (sampleNode 1) sign peering (sampleNode 1) =
        .ok () ((sampleNode 1).pushSent peering.getPip data) ∧ _ :=
    readsGreeting_of_pingPeer CryptoLib.sample (sampleNode 2) hkey hkey hsign rfl rfl
  have hsame := (EStateM.Result.ok.inj (hsent.symm.trans hsent')).2
  obtain ⟨-, rfl⟩ := Prod.mk.inj (List.cons.inj (congrArg Tunserver.sent hsame)).1
  have hsigns := congrFun (hread.unique hread') CryptoSystemType.x25519.nr
  exact absurd hsigns (by decide)

end Tunserver

end Galaxy42
