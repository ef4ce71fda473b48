import Galaxy42.Lib.Steps
import Galaxy42.Tunserver.Runs

/-!
# The main loop and the RPC thread

The table of peers and the list of banned addresses are used by the main loop and by the thread of the RPC
server. A request of an RPC client is carried out in one or more critical sections, one after the other, and
sections of the main loop may come in between. The main loop also keeps pointers to peers when it has left
the section where it found them. A step is one critical section, or one use of such a pointer.

Banning an address takes two sections: it is deleted from the table, and then put on the list. Between
them the peer comes back when a greeting of his is handled. Otherwise no banned address is in the table
(`banned_apart_of_run`). A peer that is held is still there when it is used, unless a request deletes it
meanwhile (`uses_live_of_run`).

A request is the list of its sections (`PeerRequest.sections`), read off the tables when it is taken, and a
state has the sections that are left. What holds at each point of a request is said by its phase (`BanPhase`):
nothing banned is in the table, or an address was deleted and is about to be put on the list, or one is in the
table again and is about to be taken off the list. Each step leads from a phase to one that fits, and the
condition on a step (`SparesBanned`) is needed in the phase between the two sections only.

Which object a pointer is to is told by a number that each object gets when it is put into the table, so a peer
that comes back is another object (`Threads.after`). The invariant is that the pointers that are kept are to
objects in the table (`HeldLive`), and the three places that keep one have a slot each.
-/

namespace Galaxy42

open Toolkit Program Tunserver

/-! ### Requests -/

/-- A request about peers, when its texts have been parsed. Reading the texts comes before the tables are
looked at, and is left out. -/
inductive PeerRequest where
  /-- `rpc_add_peer` -/
  | addPeer (peerRef : PeeringReference)
  /-- `rpc_delete_peer` -/
  | deletePeer (hip : HashipAddr)
  /-- `rpc_delete_all_peers` -/
  | deleteAllPeers
  /-- `rpc_ban_peer` -/
  | banPeer (hip : HashipAddr)
  /-- `rpc_ban_all_peers` -/
  | banAllPeers

/-- The sections that change the tables, after a first one that only looks at them. Without
`m_unban_if_banned` a peer is never added, be it banned or not. -/
def PeerRequest.sections (unbanIfBanned : Bool) (node : Tunserver) : PeerRequest → List TableOp
  | .addPeer peerRef =>
    if unbanIfBanned then [.addPeer peerRef, .deletePeerFromBlackList peerRef.hashipAddr] else []
  | .deletePeer hip => [.deletePeer hip]
  | .deleteAllPeers => [.deleteAllPeers false]
  | .banPeer hip =>
    if hip ∈ node.peerBlackList then [] else [.deletePeer hip, .addPeerToBlackList hip]
  | .banAllPeers => [.deleteAllPeers true]

/-! ### Two threads -/

/-- A pointer to a peer: where it was found, and which object it is. The object is that of the table, which
owns it. Its number tells a peer from another one that came later under the same address. -/
structure PeerPointer where
  hip : HashipAddr
  object : ℕ
  deriving DecidableEq

/-- The places where the main loop keeps a pointer to a peer. -/
inductive Slot where
  /-- The result of `find_peer_by_sender_peering_addr`, which is `sender_as_peering_ptr`. -/
  | sender
  /-- The result of `get_peer_with_hip`. -/
  | direct
  /-- `peer_udp` of `route_tun_data_to_its_destination_detail`. -/
  | nextHop
  deriving DecidableEq

/-- A node and its two threads. The sections of the two threads may follow each other in any order, as each of
them holds the lock for itself. -/
structure Threads where
  node : Tunserver
  /-- The sections that are left of the request that is carried out. -/
  rpc : List TableOp
  /-- Which object the peer of an address is. -/
  object : HashipAddr → ℕ
  /-- The number of the next object that is made. -/
  nextObject : ℕ
  /-- The pointers of the main loop. -/
  held : Slot → Option PeerPointer

/-- A step of one of the threads: taking a request, a section under a lock, or a use of a pointer outside of
any lock. What a step needs, and what it does, is said by `Stepped`. -/
inductive ThreadStep where
  /-- The RPC thread takes a request, and looks at the tables. -/
  | request (request : PeerRequest)
  /-- The next section of the request. -/
  | rpcSection
  /-- The section of the main loop for a greeting: `add_peer_append_pubkey`. -/
  | greeting (peerRef : PeeringReference) (pubkey : HashipPubkey)
  /-- The section of `peering_ping_all_peers`, which removes the peers that have timed out. -/
  | ping (timedOut : HashipAddr → Bool)
  /-- The section of `find_peer_by_sender_peering_addr`. -/
  | findSender (senderPip : Ip46Addr)
  /-- The section of `get_peer_with_hip`. -/
  | getPeer (addr : HashipAddr) (requirePubkey : Bool)
  /-- The section of `route_tun_data_to_its_destination_detail`. -/
  | findNextHop (nextHip : HashipAddr)
  /-- A peer that is held is used. -/
  | use (slot : Slot)
  /-- A pointer is not used any more. -/
  | drop (slot : Slot)

namespace Threads

/-- Before the first step. No request is carried out, and no pointer is held. -/
def start (node : Tunserver) : Threads where
  node := node
  rpc := []
  object := fun _ => 0
  nextObject := 1
  held := fun _ => none

/-- After a section that has changed the node. A peer that is new in the table is a new object. -/
def after (s : Threads) (node : Tunserver) : Threads :=
  { s with
    node
    object := fun hip => if hip ∈ node.peer ∧ hip ∉ s.node.peer then s.nextObject else s.object hip
    nextObject := s.nextObject + 1 }

/-- A slot gets another pointer, or none. -/
def withHeld (s : Threads) (slot : Slot) (pointer : Option PeerPointer) : Threads :=
  { s with held := Function.update s.held slot pointer }

/-- A pointer to the peer of this address is kept. -/
def hold (s : Threads) (slot : Slot) (hip : HashipAddr) : Threads :=
  s.withHeld slot (some ⟨hip, s.object hip⟩)

/-- The steps that the threads can take. The peers that have timed out are removed between two rounds of
the main loop, when no pointer is kept. -/
inductive Stepped (lib : CryptoLib) (unbanIfBanned : Bool) (s : Threads) : ThreadStep → Threads → Prop
  | request (request : PeerRequest) (hidle : s.rpc = []) :
      Stepped lib unbanIfBanned s (.request request)
        { s with rpc := request.sections unbanIfBanned s.node }
  | rpcSection {op : TableOp} {rest : List TableOp} (hrpc : s.rpc = op :: rest) :
      Stepped lib unbanIfBanned s .rpcSection
        { s.after (finalState (op.run lib) s.node) with rpc := rest }
  | greeting (peerRef : PeeringReference) (pubkey : HashipPubkey) :
      Stepped lib unbanIfBanned s (.greeting peerRef pubkey)
        (s.after (finalState (addPeerAppendPubkey lib peerRef pubkey) s.node))
  | ping (timedOut : HashipAddr → Bool) (hheld : ∀ slot, s.held slot = none) :
      Stepped lib unbanIfBanned s (.ping timedOut) (s.after (s.node.removePeers timedOut))
  | findSender {senderPip : Ip46Addr} {hip : HashipAddr} {peering : Peering}
      (hfind : findPeerBySenderPeeringAddr senderPip s.node = .ok peering s.node)
      (hget : s.node.peer[hip]? = some peering) :
      Stepped lib unbanIfBanned s (.findSender senderPip) (s.hold .sender hip)
  | getPeer {addr : HashipAddr} {requirePubkey : Bool} {peering : Peering}
      (hget : getPeerWithHip addr requirePubkey s.node = .ok peering s.node) :
      Stepped lib unbanIfBanned s (.getPeer addr requirePubkey) (s.hold .direct addr)
  | findNextHop {nextHip : HashipAddr} (hmem : nextHip ∈ s.node.peer) :
      Stepped lib unbanIfBanned s (.findNextHop nextHip) (s.hold .nextHop nextHip)
  | use (slot : Slot) {pointer : PeerPointer} (hheld : s.held slot = some pointer) :
      Stepped lib unbanIfBanned s (.use slot) s
  | drop (slot : Slot) :
      Stepped lib unbanIfBanned s (.drop slot) (s.withHeld slot none)

/-! ### What sections do to the tables -/

section Tables

variable {lib : CryptoLib} {node : Tunserver} {hip : HashipAddr}

private theorem mem_putPeer_iff {hip' : HashipAddr} {peering : Peering} :
    hip ∈ (node.putPeer hip' peering).peer ↔ hip' = hip ∨ hip ∈ node.peer := by
  rw [putPeer, Std.ExtTreeMap.mem_insert, Std.LawfulEqCmp.compare_eq_iff_eq]

private theorem mem_removePeers_iff {timedOut : HashipAddr → Bool} :
    hip ∈ (node.removePeers timedOut).peer ↔ timedOut hip = false ∧ hip ∈ node.peer := by
  rw [mem_peer_iff, mem_peer_iff, getElem?_removePeers]
  cases timedOut hip <;> simp

/-- A banned address that is not in the table is not put there by a greeting. -/
private theorem not_mem_append_of_banned {peerRef : PeeringReference} {pubkey : HashipPubkey}
    (hbanned : hip ∈ node.peerBlackList) (hunknown : hip ∉ node.peer) :
    hip ∉ (finalState (addPeerAppendPubkey lib peerRef pubkey) node).peer := by
  obtain heq | ⟨-, peering, hmet, heq⟩ := finalState_addPeerAppendPubkey peerRef pubkey node
  · rwa [heq]
  · rw [heq, mem_putPeer_iff]
    rintro (rfl | hmem)
    · exact hmet.allowed.elim hunknown fun hallowed => hallowed hbanned
    · exact hunknown hmem

private theorem peerBlackList_append (peerRef : PeeringReference) (pubkey : HashipPubkey) :
    (finalState (addPeerAppendPubkey lib peerRef pubkey) node).peerBlackList = node.peerBlackList := by
  obtain heq | ⟨-, peering, -, heq⟩ := finalState_addPeerAppendPubkey peerRef pubkey node <;> rw [heq]
  rfl

/-- `get_peer_with_hip` finds what is in the table. -/
private theorem mem_of_getPeerWithHip {requirePubkey : Bool} {peering : Peering}
    (h : getPeerWithHip hip requirePubkey node = .ok peering node) : hip ∈ node.peer := by
  rw [mem_peer_iff]
  cases hget : node.peer[hip]? with
  | some peering => rfl
  | none =>
    rw [getPeerWithHip, bind_of_ok (get_apply node), hget] at h
    cases h

/-- Only the peers that a section removes leave the table. -/
private theorem mem_peer_of_op {op : TableOp} (hkeep : (Event.op op).removes hip = false)
    (hmem : hip ∈ node.peer) : hip ∈ (finalState (op.run lib) node).peer := by
  cases op with
  | addPeer peerRef =>
    rw [TableOp.run, finalState_discard, finalState_addPeer]
    split
    · exact hmem
    · exact mem_putPeer_iff.mpr (.inr hmem)
  | addPeerAppendPubkey peerRef pubkey =>
    rw [TableOp.run]
    obtain heq | ⟨-, peering, -, heq⟩ := finalState_addPeerAppendPubkey peerRef pubkey node
    · rwa [heq]
    · rw [heq]
      exact mem_putPeer_iff.mpr (.inr hmem)
  | deletePeer hip' =>
    rw [TableOp.run, finalState_discard, finalState_deletePeer]
    exact mem_removePeers_iff.mpr ⟨hkeep, hmem⟩
  | deleteAllPeers isBanned => cases hkeep
  | addPeerToBlackList hip' => exact hmem
  | deletePeerFromBlackList hip' => exact hmem
  | addTunnelToPubkey pubkey =>
    obtain ⟨tunnel, draws, heq⟩ := finalState_addTunnelToPubkey lib pubkey node
    rw [TableOp.run, heq]
    exact hmem

end Tables

section Runs

variable {lib : CryptoLib} {unbanIfBanned : Bool} {s s' : Threads} {step : ThreadStep}

/-! ### Banned addresses -/

/-- No banned address is in the table. The results are about when this holds, since it is what banning is for. -/
def Apart (node : Tunserver) : Prop := ∀ hip ∈ node.peerBlackList, hip ∉ node.peer

/-- Nothing is left to be put on the list of banned addresses, or to be taken from it. While one is in
progress, a banned address may be in the table for the time between two sections. -/
def NoBanInProgress (s : Threads) : Prop :=
  ∀ hip, .addPeerToBlackList hip ∉ s.rpc ∧ .deletePeerFromBlackList hip ∉ s.rpc

/-- The state of the tables at each point of a request. It tells how far the tables may be from being apart,
with those sections of the request that are left. -/
inductive BanPhase (node : Tunserver) : List TableOp → Prop
  | idle (h : Apart node) : BanPhase node []
  | delete (hip : HashipAddr) (h : Apart node) : BanPhase node [.deletePeer hip]
  | deleteAll (isBanned : Bool) (h : Apart node) : BanPhase node [.deleteAllPeers isBanned]
  | ban (hip : HashipAddr) (h : Apart node) :
      BanPhase node [.deletePeer hip, .addPeerToBlackList hip]
  | banning (hip : HashipAddr) (h : Apart node) (hdeleted : hip ∉ node.peer) :
      BanPhase node [.addPeerToBlackList hip]
  | add (peerRef : PeeringReference) (h : Apart node) :
      BanPhase node [.addPeer peerRef, .deletePeerFromBlackList peerRef.hashipAddr]
  | unbanning (hip : HashipAddr) (h : ∀ x ∈ node.peerBlackList, x ≠ hip → x ∉ node.peer) :
      BanPhase node [.deletePeerFromBlackList hip]

/-- The step is not a greeting that is accepted from an address that has been deleted in order to be banned,
and is not on the list yet. An accepted greeting puts its sender into the table, which is what must not happen
there. -/
def SparesBanned (lib : CryptoLib) (s : Threads) : ThreadStep → Prop
  | .greeting peerRef pubkey =>
    s.rpc = [.addPeerToBlackList peerRef.hashipAddr] → ¬ HasHip lib pubkey peerRef.hashipAddr
  | _ => True

variable (unbanIfBanned) in
/-- Banning who is not banned takes two sections. -/
theorem sections_banPeer {node : Tunserver} {hip : HashipAddr} (h : hip ∉ node.peerBlackList) :
    (PeerRequest.banPeer hip).sections unbanIfBanned node =
      [.deletePeer hip, .addPeerToBlackList hip] :=
  if_neg h

/-- A request begins where the tables are apart. -/
private theorem banPhase_sections {node : Tunserver} (h : Apart node) (request : PeerRequest) :
    BanPhase node (request.sections unbanIfBanned node) := by
  cases request with
  | addPeer peerRef =>
    rw [PeerRequest.sections]
    split
    · exact .add peerRef h
    · exact .idle h
  | deletePeer hip => exact .delete hip h
  | deleteAllPeers => exact .deleteAll false h
  | banPeer hip =>
    rw [PeerRequest.sections]
    split
    · exact .idle h
    · exact .ban hip h
  | banAllPeers => exact .deleteAll true h

/-- What is left of a request, after its next section. -/
private theorem banPhase_section {node : Tunserver} {op : TableOp} {rest : List TableOp}
    (h : BanPhase node (op :: rest)) : BanPhase (finalState (op.run lib) node) rest := by
  have hdelete : ∀ hip, Apart node → Apart (finalState ((TableOp.deletePeer hip).run lib) node) := by
    intro hip hapart x hx hmem
    rw [TableOp.run, finalState_discard, finalState_deletePeer] at hx hmem
    exact hapart x hx (mem_removePeers_iff.mp hmem).2
  cases h with
  | delete hip h => exact .idle (hdelete hip h)
  | deleteAll isBanned h =>
    refine .idle fun x _ hmem => ?_
    rw [TableOp.run, finalState_deleteAllPeers] at hmem
    exact Bool.noConfusion (mem_removePeers_iff.mp hmem).1
  | ban hip h =>
    refine .banning hip (hdelete hip h) fun hmem => ?_
    rw [TableOp.run, finalState_discard, finalState_deletePeer] at hmem
    exact absurd (mem_removePeers_iff.mp hmem).1 (by simp [Event.removes])
  | banning hip h hdeleted =>
    refine .idle fun x hx hmem => ?_
    -- The address that is banned now was taken from the table before.
    have hx' : x ∈ node.peerBlackList.insert hip := hx
    rw [Std.ExtTreeSet.mem_insert, Std.LawfulEqCmp.compare_eq_iff_eq] at hx'
    rcases hx' with rfl | hx'
    · exact hdeleted hmem
    · exact h x hx' hmem
  | add peerRef h =>
    -- Only the address that is added may be in the table and banned, until it is unbanned.
    refine .unbanning _ fun x hx hne hmem => ?_
    rw [TableOp.run, finalState_discard, finalState_addPeer] at hx hmem
    split at hmem
    next hknown =>
      rw [if_pos hknown] at hx
      exact h x hx hmem
    next hnew =>
      rw [if_neg hnew] at hx
      rcases mem_putPeer_iff.mp hmem with rfl | hmem
      · exact hne rfl
      · exact h x hx hmem
  | unbanning hip h =>
    refine .idle fun x hx hmem => ?_
    have hx' : x ∈ node.peerBlackList.erase hip := hx
    rw [Std.ExtTreeSet.mem_erase] at hx'
    exact h x hx'.2 (fun heq => hx'.1 (heq ▸ Std.ReflCmp.compare_self)) hmem

/-- A section of the main loop that leaves the list alone, and puts no banned address into the table. -/
private theorem BanPhase.of_main {node node' : Tunserver} {rpc : List TableOp} (h : BanPhase node rpc)
    (hlist : node'.peerBlackList = node.peerBlackList)
    (hbanned : ∀ hip ∈ node.peerBlackList, hip ∉ node.peer → hip ∉ node'.peer)
    (hbanning : ∀ hip, rpc = [.addPeerToBlackList hip] → hip ∉ node.peer → hip ∉ node'.peer) :
    BanPhase node' rpc := by
  have hapart : Apart node → Apart node' := by
    intro hapart hip hip_mem
    rw [hlist] at hip_mem
    exact hbanned hip hip_mem (hapart hip hip_mem)
  cases h with
  | idle h => exact .idle (hapart h)
  | delete hip h => exact .delete hip (hapart h)
  | deleteAll isBanned h => exact .deleteAll isBanned (hapart h)
  | ban hip h => exact .ban hip (hapart h)
  | banning hip h hdeleted => exact .banning hip (hapart h) (hbanning hip rfl hdeleted)
  | add peerRef h => exact .add peerRef (hapart h)
  | unbanning hip h =>
    refine .unbanning hip fun x hx hne => ?_
    rw [hlist] at hx
    exact hbanned x hx (h x hx hne)

/-- Each step keeps the tables in the state of their phase. -/
private theorem banPhase_step (h : BanPhase s.node s.rpc) (hspares : SparesBanned lib s step)
    (hstep : Stepped lib unbanIfBanned s step s') : BanPhase s'.node s'.rpc := by
  cases hstep with
  | request request hidle =>
    rw [hidle] at h
    cases h with
    | idle h => exact banPhase_sections h request
  | rpcSection hrpc =>
    rw [hrpc] at h
    exact banPhase_section h
  | greeting peerRef pubkey =>
    refine h.of_main (peerBlackList_append peerRef pubkey) (fun hip => not_mem_append_of_banned)
      fun hip hrpc hdeleted hmem => ?_
    obtain heq | ⟨hhip, peering, -, heq⟩ := finalState_addPeerAppendPubkey peerRef pubkey s.node
    · exact hdeleted (heq ▸ hmem)
    · rw [Threads.after, heq, mem_putPeer_iff] at hmem
      rcases hmem with rfl | hmem
      · exact hspares hrpc hhip
      · exact hdeleted hmem
  | ping timedOut hheld =>
    exact h.of_main rfl (fun hip _ hunknown hmem => hunknown (mem_removePeers_iff.mp hmem).2)
      fun hip _ hunknown hmem => hunknown (mem_removePeers_iff.mp hmem).2
  | findSender => exact h
  | getPeer => exact h
  | findNextHop => exact h
  | use => exact h
  | drop => exact h

private theorem BanPhase.apart (h : BanPhase s.node s.rpc) (hno : s.NoBanInProgress) : Apart s.node := by
  generalize hrpc : s.rpc = rpc at h
  cases h with
  | idle h | delete _ h | deleteAll _ h | ban _ h | banning _ h _ | add _ h => exact h
  | unbanning hip h => exact absurd (hrpc ▸ List.mem_singleton_self _) (hno hip).2

/-- In every interleaving of the threads in which no greeting is accepted from an address between the two
sections that ban it, no banned address is in the table, whenever no ban or unban is in progress. The threads
take their steps in any order. Behind a section the state is as the section leaves it, whether it has returned
or has thrown. -/
theorem banned_apart_of_run {myIDC : MultikeysPAIR} {myIDIPub : MultikeysPub} {myHip : HashipAddr}
    {ipv6Prefix : Bytes} {draws : ℕ} {trace : List (Threads × ThreadStep)}
    (hrun : Steps (Stepped lib unbanIfBanned)
      (start (Tunserver.new myIDC myIDIPub myHip ipv6Prefix draws)) trace s)
    (hspares : Steps.All (SparesBanned lib) trace) :
    Steps.Throughout (fun s => s.NoBanInProgress → Apart s.node) trace s := by
  have hstart : BanPhase (Tunserver.new myIDC myIDIPub myHip ipv6Prefix draws) [] :=
    .idle fun hip hmem => absurd hmem Std.ExtTreeSet.not_mem_empty
  have hphases : Steps.Throughout (fun s : Threads => BanPhase s.node s.rpc) trace s :=
    Steps.invariant (fun _ _ _ => banPhase_step) hrun hstart hspares
  exact ⟨fun p hp => (hphases.1 p hp).apart, hphases.2.apart⟩

/-- A greeting of a node. -/
def sampleRef (k : UInt8) : PeeringReference :=
  { peeringAddr := samplePip k, hashipAddr := sampleHip k }

/-- A peer who is banned stays away when he greets again. -/
theorem banned_apart_of_run_example : ∃ (trace : List (Threads × ThreadStep)) (s : Threads),
    Steps (Stepped CryptoLib.sample true) (start (sampleNode 0)) trace s ∧
      sampleHip 1 ∈ s.node.peerBlackList ∧
      Steps.Throughout (fun s => s.NoBanInProgress → Apart s.node) trace s := by
  let request : PeerRequest := .banPeer (sampleHip 1)
  have hrun₀ : Steps (Stepped CryptoLib.sample true) (start (sampleNode 0)) [] (start (sampleNode 0)) :=
    .nil _
  have hrun₁ := hrun₀.snoc (.greeting (sampleRef 1) (sampleKey 1))
  have hrun₂ := hrun₁.snoc (.request request rfl)
  have hallowed : sampleHip 1 ∉ (finalState (addPeerAppendPubkey CryptoLib.sample (sampleRef 1)
      (sampleKey 1)) (sampleNode 0)).peerBlackList := by decide +kernel
  have hrun₃ := hrun₂.snoc (.rpcSection (sections_banPeer true hallowed))
  have hrun₄ := hrun₃.snoc (.rpcSection rfl)
  have hrun₅ := hrun₄.snoc (.greeting (sampleRef 1) (sampleKey 1))
  refine ⟨_, _, hrun₅, by decide +kernel, banned_apart_of_run hrun₅ ?_⟩
  simp only [Steps.all_snoc]
  exact ⟨⟨⟨⟨⟨fun _ hp => absurd hp List.not_mem_nil, fun hrpc => by cases hrpc⟩, trivial⟩, trivial⟩, trivial⟩,
    fun hrpc => by cases hrpc⟩

/-- A peer who greets between the two sections that ban him is banned, and in the table. -/
theorem not_banned_apart_of_run :
    ¬ ∀ (lib : CryptoLib) (unbanIfBanned : Bool) (myIDC : MultikeysPAIR) (myIDIPub : MultikeysPub)
      (myHip : HashipAddr) (ipv6Prefix : Bytes) (draws : ℕ) (trace : List (Threads × ThreadStep))
      (s : Threads), Steps (Stepped lib unbanIfBanned)
        (start (Tunserver.new myIDC myIDIPub myHip ipv6Prefix draws)) trace s →
      Steps.Throughout (fun s => s.NoBanInProgress → Apart s.node) trace s := by
  intro h
  let request : PeerRequest := .banPeer (sampleHip 1)
  have hrun₀ : Steps (Stepped CryptoLib.sample true) (start (sampleNode 0)) [] (start (sampleNode 0)) :=
    .nil _
  have hrun₁ := hrun₀.snoc (.request request rfl)
  have hallowed : sampleHip 1 ∉ (sampleNode 0).peerBlackList := by decide +kernel
  have hrun₂ := hrun₁.snoc (.rpcSection (sections_banPeer true hallowed))
  have hrun₃ := hrun₂.snoc (.greeting (sampleRef 1) (sampleKey 1))
  have hrun₄ := hrun₃.snoc (.rpcSection rfl)
  have hno := (h _ _ _ _ _ _ _ _ _ hrun₄).2 fun hip => ⟨List.not_mem_nil, List.not_mem_nil⟩
  exact hno (sampleHip 1) (by decide +kernel) (by decide +kernel)

/-! ### Peers that are held -/

/-- The object is in the table, where it was found. A peer who was deleted and added again is another object,
to which an older pointer does not lead. -/
def Live (s : Threads) (pointer : PeerPointer) : Prop :=
  pointer.hip ∈ s.node.peer ∧ s.object pointer.hip = pointer.object

/-- The pointers of the main loop are to objects in the table. It is the invariant behind the result on uses. -/
def HeldLive (s : Threads) : Prop := ∀ slot pointer, s.held slot = some pointer → s.Live pointer

/-- What is used is in the table. Only a use of a pointer is asked for something; a slot without one is not
used. -/
def UsesLive (s : Threads) : ThreadStep → Prop
  | .use slot => ∀ pointer, s.held slot = some pointer → s.Live pointer
  | _ => True

/-- The step is not a section of a request that deletes a peer while the main loop holds him. Deleting a peer
that is not held, and deleting one while nothing is held, meets it. -/
def SparesHeld (s : Threads) : ThreadStep → Prop
  | .rpcSection => ∀ op rest, s.rpc = op :: rest → ∀ slot pointer, s.held slot = some pointer →
      (Event.op op).removes pointer.hip = false
  | _ => True

/-- An object that stays in the table is the same. -/
private theorem Live.after {pointer : PeerPointer} {node : Tunserver} (h : s.Live pointer)
    (hmem : pointer.hip ∈ node.peer) : (s.after node).Live pointer := by
  refine ⟨hmem, ?_⟩
  have hold : ¬ (pointer.hip ∈ node.peer ∧ pointer.hip ∉ s.node.peer) := fun hnew => hnew.2 h.1
  exact (if_neg hold).trans h.2

/-- A slot may get a pointer to what is in the table, or none. -/
theorem HeldLive.withHeld {slot : Slot} {new : Option PeerPointer} (h : s.HeldLive)
    (hnew : ∀ pointer, new = some pointer → s.Live pointer) : (s.withHeld slot new).HeldLive := by
  intro slot' pointer hheld
  change Function.update s.held slot new slot' = some pointer at hheld
  by_cases hslot : slot' = slot
  · subst hslot
    rw [Function.update_self] at hheld
    exact hnew pointer hheld
  · rw [Function.update_of_ne hslot] at hheld
    exact h slot' pointer hheld

private theorem HeldLive.hold {slot : Slot} {hip : HashipAddr} (h : s.HeldLive) (hmem : hip ∈ s.node.peer) :
    (s.hold slot hip).HeldLive :=
  h.withHeld fun _ hpointer => Option.some.inj hpointer ▸ ⟨hmem, rfl⟩

/-- No step makes a pointer dangling, unless a request deletes the peer. -/
private theorem heldLive_step (h : s.HeldLive) (hspares : SparesHeld s step)
    (hstep : Stepped lib unbanIfBanned s step s') : s'.HeldLive := by
  cases hstep with
  | request => exact h
  | rpcSection hrpc =>
    intro slot pointer hheld
    have hlive := h slot pointer hheld
    exact hlive.after (mem_peer_of_op (hspares _ _ hrpc slot pointer hheld) hlive.1)
  | greeting peerRef pubkey =>
    intro slot pointer hheld
    have hlive := h slot pointer hheld
    -- a greeting removes nobody, as an operation
    have hmem : pointer.hip ∈ (finalState ((TableOp.addPeerAppendPubkey peerRef pubkey).run lib) s.node).peer :=
      mem_peer_of_op rfl hlive.1
    exact hlive.after hmem
  | ping timedOut hheld =>
    intro slot pointer hslot
    exact absurd ((hheld slot).symm.trans hslot) (by simp)
  | findSender _ hget => exact h.hold (mem_peer_iff.mpr (by rw [hget]; rfl))
  | getPeer hget => exact h.hold (mem_of_getPeerWithHip hget)
  | findNextHop hmem => exact h.hold hmem
  | use => exact h
  | drop slot => exact h.withHeld fun _ hpointer => by cases hpointer

/-- In every interleaving of the threads in which no request deletes a peer while the main loop holds him,
every peer that the main loop uses is in the table. A peer that comes back after it was deleted is another
object, so finding the same address in the table is not enough. -/
theorem uses_live_of_run {node : Tunserver} {trace : List (Threads × ThreadStep)}
    (hrun : Steps (Stepped lib unbanIfBanned) (start node) trace s)
    (hspares : Steps.All SparesHeld trace) : Steps.All UsesLive trace := by
  have hstart : (start node).HeldLive := fun slot pointer hheld => by cases hheld
  have hlive : Steps.Throughout HeldLive trace s :=
    Steps.invariant (fun _ _ _ => heldLive_step) hrun hstart hspares
  rintro ⟨s₁, step⟩ hp
  cases step with
  | use slot => exact hlive.1 _ hp slot
  | _ => trivial

/-- A peer may be deleted when the main loop has sent to him. -/
theorem uses_live_of_run_example : ∃ (trace : List (Threads × ThreadStep)) (s : Threads),
    Steps (Stepped CryptoLib.sample true) (start (sampleNode 0)) trace s ∧
      sampleHip 1 ∉ s.node.peer ∧ Steps.All UsesLive trace := by
  let request : PeerRequest := .deletePeer (sampleHip 1)
  have hrun₀ : Steps (Stepped CryptoLib.sample true) (start (sampleNode 0)) [] (start (sampleNode 0)) :=
    .nil _
  have hrun₁ := hrun₀.snoc (.greeting (sampleRef 1) (sampleKey 1))
  have hmem : sampleHip 1 ∈ (finalState (addPeerAppendPubkey CryptoLib.sample (sampleRef 1) (sampleKey 1))
      (sampleNode 0)).peer := by decide +kernel
  have hrun₂ := hrun₁.snoc (.findNextHop hmem)
  have hrun₃ := hrun₂.snoc (.request request rfl)
  have hrun₄ := hrun₃.snoc (.use .nextHop rfl)
  have hrun₅ := hrun₄.snoc (.drop .nextHop)
  have hrun₆ := hrun₅.snoc (.rpcSection rfl)
  refine ⟨_, _, hrun₆, by decide +kernel, uses_live_of_run hrun₆ ?_⟩
  simp only [Steps.all_snoc]
  refine ⟨⟨⟨⟨⟨⟨fun _ hp => absurd hp List.not_mem_nil, trivial⟩, trivial⟩, trivial⟩, trivial⟩, trivial⟩,
    fun op rest _ slot pointer hheld => ?_⟩
  cases slot <;> cases hheld

/-- A request may delete a peer when the main loop has found him, and has not sent to him yet. -/
theorem not_uses_live_of_run :
    ¬ ∀ (lib : CryptoLib) (unbanIfBanned : Bool) (node : Tunserver) (trace : List (Threads × ThreadStep))
      (s : Threads), Steps (Stepped lib unbanIfBanned) (start node) trace s → Steps.All UsesLive trace := by
  intro h
  let request : PeerRequest := .deletePeer (sampleHip 1)
  have hrun₀ : Steps (Stepped CryptoLib.sample true) (start (sampleNode 0)) [] (start (sampleNode 0)) :=
    .nil _
  have hrun₁ := hrun₀.snoc (.greeting (sampleRef 1) (sampleKey 1))
  have hmem : sampleHip 1 ∈ (finalState (addPeerAppendPubkey CryptoLib.sample (sampleRef 1) (sampleKey 1))
      (sampleNode 0)).peer := by decide +kernel
  have hrun₂ := hrun₁.snoc (.findNextHop hmem)
  have hrun₃ := hrun₂.snoc (.request request rfl)
  have hrun₄ := hrun₃.snoc (.rpcSection rfl)
  have hrun₅ := hrun₄.snoc (.use .nextHop rfl)
  have huse := (Steps.all_snoc.mp (h _ _ _ _ _ hrun₅)).2 _ rfl
  exact absurd huse.1 (by decide +kernel)

end Runs

end Threads

end Galaxy42
