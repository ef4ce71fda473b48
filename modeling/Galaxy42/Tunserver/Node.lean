import Galaxy42.Crypto.CryptoTunnel
import Galaxy42.Lib.SearchTree

/-!
# The state of a node

Addresses, peers, tunnels and routes, as a node keeps them. An address of the virtual network (a
*hip*) is 16 octets: a prefix, and the beginning of the hash of the public keys of its owner.

The program is the Linux one. Times are left out, since no decision that is modelled here depends on
them. Of the debug output only the one place is modelled where the program lets an exception of it
through. What a node gives to its socket and to its virtual card is kept in its state, last first.

An address of a socket is of one of two families, or is not set, which is a constructor of its own, as the
program has a tag for it. An address of the virtual network is a vector of octets of the right length, so that
no address of another length can be built, and the constructors say what they refuse.

Most tables are maps with an order on their keys, and are gone through in that order. One is not: the requests
of a search are a `std::map` whose keys are compared by an operator that is no order (`RouteReason.lt`). It is
the search tree that such a map is, whose shape depends on what was inserted and when, together with the way
in which it is balanced.

What is fixed when a node is started are its own keys, its address and its prefix; the times that peers were
heard of are added to it in `PeerTimeouts`, and the locks and the pointers of its threads in `PeerThreads`.
-/

namespace Galaxy42

open Toolkit Program

variable {σ : Type}

/-! ### Addresses -/

/-- `g_haship_addr_size` -/
def hashipAddrSize : ℕ := 16

/-- `c_haship_addr`. It is compared octet by octet, as `std::array` is. -/
abbrev HashipAddr := Block hashipAddrSize

/-- `c_haship_pubkey` -/
abbrev HashipPubkey := MultikeysPub

namespace HashipAddr

/-- The address of these octets, when there are as many as it takes. Any other number of them gives the
exception of the caller. -/
def ofOctets (octets : Bytes) (e : Exn) : Except Exn HashipAddr :=
  if h : octets.length = hashipAddrSize then .ok ⟨octets, h⟩ else .error e

/-- The constructor from an address in binary. -/
def ofAddrBin (data : Bytes) : Except Exn HashipAddr :=
  ofOctets data (.runtimeError "Trying to set hip address from binary data")

/-- The constructor from a public key, which copies the first octets of its address. Computing the address
takes the hash of the keys, which may throw. -/
def ofHashOfPubkey (lib : CryptoLib) (pubkey : HashipPubkey) : Program Exn σ HashipAddr := do
  let addr ← pubkey.getIpv6StringBin lib
  fromExcept (ofOctets (addr.take hashipAddrSize) .outOfRange)

/-- What the constructor from an address in binary accepts. -/
theorem ofAddrBin_eq_ok_iff {data : Bytes} {hip : HashipAddr} :
    ofAddrBin data = .ok hip ↔ data = hip.octets := by
  unfold ofAddrBin ofOctets
  split
  next h => exact ⟨fun heq => by cases heq; rfl, fun heq => by cases hip; cases heq; rfl⟩
  next h =>
    simp only [reduceCtorEq, false_iff]
    rintro rfl
    exact h hip.length_octets

end HashipAddr

/-- `c_ip46_addr`: the address of a socket. The ports of both families are numbers of 16 bits. -/
inductive Ip46Addr where
  /-- `tag_none`: no address is set. -/
  | none
  /-- `tag_ipv4` -/
  | ipv4 (addr : Block 4) (port : UInt16)
  /-- `tag_ipv6` -/
  | ipv6 (addr : Block 16) (port : UInt16)
  deriving DecidableEq

namespace Ip46Addr

/-- `operator==`, which refuses an address that is not set. -/
def equal (lhs rhs : Ip46Addr) : Program Exn σ Bool := do
  checkThat (lhs ≠ none) (.invalidArgument "lhs: m_tag == tag_none")
  checkThat (rhs ≠ none) (.invalidArgument "rhs: m_tag == tag_none")
  return decide (lhs = rhs)

/-- `get_assigned_port`. An address that is not set has port zero. -/
def getAssignedPort : Ip46Addr → UInt16
  | none => 0
  | ipv4 _ port => port
  | ipv6 _ port => port

/-- The address is of the family that `get_ip4` asserts. -/
def isIpv4 : Ip46Addr → Bool
  | ipv4 _ _ => true
  | _ => false

/-- The address is of the other family. -/
def isIpv6 : Ip46Addr → Bool
  | ipv6 _ _ => true
  | _ => false

end Ip46Addr

/-- `t_peering_reference`. It is what a node is told about a peer: where to send datagrams, and who is there. -/
structure PeeringReference where
  /-- `peering_addr` -/
  peeringAddr : Ip46Addr
  /-- `haship_addr` -/
  hashipAddr : HashipAddr

/-! ### Peers -/

/-- `c_peering_udp`. The key is known only after the peer has greeted. The points limit what is done for the
peer. -/
structure Peering where
  /-- `m_peering_addr` -/
  peeringAddr : Ip46Addr
  /-- `m_haship_addr` -/
  hashipAddr : HashipAddr
  /-- `m_pubkey` -/
  pubkey : Option HashipPubkey
  /-- `m_limit_points` -/
  limitPoints : ℤ

namespace Peering

/-- The constructor of `c_peering_udp`. -/
def new (ref : PeeringReference) : Peering :=
  { peeringAddr := ref.peeringAddr, hashipAddr := ref.hashipAddr, pubkey := none, limitPoints := 100 }

/-- `get_hip` -/
def getHip (peering : Peering) : HashipAddr := peering.hashipAddr

/-- `get_pub` -/
def getPub (peering : Peering) : Option HashipPubkey := peering.pubkey

/-- `get_pip` -/
def getPip (peering : Peering) : Ip46Addr := peering.peeringAddr

/-- `set_pip`. Everything else about the peer stays. -/
def setPip (peering : Peering) (addr : Ip46Addr) : Peering := { peering with peeringAddr := addr }

/-- `set_pubkey` -/
def setPubkey (peering : Peering) (pubkey : HashipPubkey) : Peering :=
  { peering with pubkey := some pubkey }

@[simp] theorem getHip_new (ref : PeeringReference) : (new ref).getHip = ref.hashipAddr := rfl

@[simp] theorem getPub_new (ref : PeeringReference) : (new ref).getPub = none := rfl

@[simp] theorem getHip_setPip (peering : Peering) (addr : Ip46Addr) :
    (peering.setPip addr).getHip = peering.getHip := rfl

@[simp] theorem getPub_setPip (peering : Peering) (addr : Ip46Addr) :
    (peering.setPip addr).getPub = peering.getPub := rfl

@[simp] theorem getHip_setPubkey (peering : Peering) (pubkey : HashipPubkey) :
    (peering.setPubkey pubkey).getHip = peering.getHip := rfl

@[simp] theorem getPub_setPubkey (peering : Peering) (pubkey : HashipPubkey) :
    (peering.setPubkey pubkey).getPub = some pubkey := rfl

end Peering

/-! ### Tunnels -/

/-- `c_tunnel_use` -/
abbrev TunnelUse := CryptoTunnel

/-- The constructor of `c_tunnel_use` with a public key. -/
def TunnelUse.new (lib : CryptoLib) (IDself : MultikeysPAIR) (IDthem : MultikeysPub) :
    Crypto TunnelUse :=
  CryptoTunnel.new lib IDself IDthem

/-! ### Routes -/

/-- `c_route_info`. The key is that of the goal of the route, not that of the next hop. -/
structure RouteInfo where
  /-- `m_nexthop` -/
  nexthop : HashipAddr
  /-- `m_pubkey` -/
  pubkey : HashipPubkey
  /-- `m_cost` -/
  cost : ℕ

/-- `t_search_mode`: why we look for a route. A reason with another mode is another reason, even for the same
address. -/
inductive SearchMode where
  /-- `e_search_mode_route_own_packet` -/
  | routeOwnPacket
  /-- `e_search_mode_route_other_packet` -/
  | routeOtherPacket
  /-- `e_search_mode_help_find` -/
  | helpFind
  deriving DecidableEq

/-- The value of a `t_search_mode`. It is the order of the declaration. -/
def SearchMode.value : SearchMode → ℕ
  | routeOwnPacket => 0
  | routeOtherPacket => 1
  | helpFind => 2

/-- `c_route_reason`. It tells for whom a route is searched. -/
structure RouteReason where
  /-- `m_his_addr` -/
  hisAddr : HashipAddr
  /-- `m_search_mode` -/
  searchMode : SearchMode
  deriving DecidableEq

namespace RouteReason

/-- `operator<`, which is no order: two reasons can each be less than the other. -/
def lt (this other : RouteReason) : Bool :=
  if compare this.hisAddr other.hisAddr = .lt then true
  else if this.searchMode.value < other.searchMode.value then true
  else false

/-- `operator==` -/
def equal (this other : RouteReason) : Bool :=
  decide (this.hisAddr = other.hisAddr) && decide (this.searchMode = other.searchMode)

end RouteReason

/-- `c_route_search`. What it keeps of its requests is a tree, and which one depends on how trees are
balanced. -/
structure RouteSearch where
  /-- `m_addr` -/
  addr : HashipAddr
  /-- `m_ttl_used` -/
  ttlUsed : ℤ
  /-- `m_ttl_should_use` -/
  ttlShouldUse : ℤ
  /-- `m_request`, a `std::map` with the TTL of each reason. As its comparison is no order, what it holds may
  depend on how the map keeps its tree balanced, so it is here for every way of doing that. -/
  request : SearchTree.Rebalancing RouteReason ℤ → SearchTree RouteReason ℤ

/-- `c_routing_manager`. A search stays in its map when it has been answered, and no route is ever taken out. -/
structure RoutingManager where
  /-- `m_search` -/
  search : Std.ExtTreeMap HashipAddr RouteSearch
  /-- `m_route_nexthop` -/
  routeNexthop : Std.ExtTreeMap HashipAddr RouteInfo

/-! ### Nodes -/

/-- `c_tunserver` -/
structure Tunserver where
  /-- `m_my_IDC` -/
  myIDC : MultikeysPAIR
  /-- `m_my_IDI_pub` -/
  myIDIPub : MultikeysPub
  /-- `m_my_hip` -/
  myHip : HashipAddr
  /-- `m_ipv6_prefix` -/
  ipv6Prefix : Bytes
  /-- `m_peer` -/
  peer : Std.ExtTreeMap HashipAddr Peering
  /-- `m_peer_black_list` -/
  peerBlackList : Std.ExtTreeSet HashipAddr
  /-- `m_tunnel` -/
  tunnel : Std.ExtTreeMap HashipAddr TunnelUse
  /-- `m_routing_manager` -/
  routingManager : RoutingManager
  /-- `m_supported_ip_protocols` -/
  supportedIpProtocols : List Int8
  /-- `m_disabled` of `m_udp_device` -/
  udpDisabled : Bool
  /-- `g_dbg_level` -/
  dbgLevel : UInt8
  /-- The datagrams given to the socket. -/
  sent : List (Ip46Addr × Bytes)
  /-- The packets written to the virtual card. -/
  writtenToTun : List Bytes
  /-- How many random draws were made. -/
  draws : ℕ

/-- A method of `c_tunserver`. It may throw, and what it did to the node before stays done. -/
abbrev Node (α : Type) := Program Exn Tunserver α

namespace Tunserver

/-- A node without peers, tunnels and routes, which has its keys. -/
def new (myIDC : MultikeysPAIR) (myIDIPub : MultikeysPub) (myHip : HashipAddr)
    (ipv6Prefix : Bytes) (draws : ℕ) : Tunserver where
  myIDC
  myIDIPub
  myHip
  ipv6Prefix
  peer := ∅
  peerBlackList := ∅
  tunnel := ∅
  routingManager := { search := ∅, routeNexthop := ∅ }
  supportedIpProtocols := [6, 17, 58]
  udpDisabled := false
  dbgLevel := 100
  sent := []
  writtenToTun := []
  draws

/-- Run what draws random octets. The node counts the draws, so that no number comes twice. -/
def crypto {α : Type} (p : Crypto α) : Node α :=
  zoom Tunserver.draws (fun draws node => { node with draws }) p

end Tunserver

end Galaxy42
