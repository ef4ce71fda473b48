import Galaxy42.Crypto.MalformedKeys
import Galaxy42.Tunserver.Node

/-!
# The tables of peers and tunnels

Both tables of a node are indexed by hips. A peer is known under the hip of its reference, and once
its public key is known, under the hip that is calculated from that key; a tunnel is kept under the hip
of the key it was set up with. `TablesBound` says so, each operation on the tables preserves it
(`preserves_tablesBound`), and so it holds in every state that any order of operations can reach
(`tablesBound_of_reachable`). What meeting a peer can do to the table is said once
(`finalState_addPeerAppendPubkey`).

The table of peers is changed by two threads, each under the same lock for the whole of an operation,
so an interleaving of the threads is an order of operations.

An operation may fail on its way, and has changed something by then: a peer that is met gets its key before
the addresses are compared, and that comparison throws when one of them is not set. So what is preserved is
stated for the state at the end of an operation, whether it returns or not.

`add_peer_append_pubkey` is the operation with the many branches. It refuses a key whose hip is another one
before anything else; a peer that is there gets the key, and a new one is put into the table, unless it is
banned. The end of it, which shows the peer on a low level of debug output, throws for a banned one. All that
later modules need is what may have been put into the table (`Met`), which says that a peer keeps the hip that
it had there.
-/

namespace Galaxy42

open Toolkit Program

variable {σ : Type}

theorem noAbort_getIpv6StringBin (lib : CryptoLib) (pubkey : HashipPubkey) :
    NoAbort (pubkey.getIpv6StringBin lib : Program Exn σ Bytes) :=
  .bind (MultiCryptoStrings.noAbort_readHash lib _) fun _ => .bind (.fromExcept _) fun _ => .pure _

theorem HashipAddr.noAbort_ofHashOfPubkey (lib : CryptoLib) (pubkey : HashipPubkey) :
    NoAbort (HashipAddr.ofHashOfPubkey lib pubkey : Program Exn σ HashipAddr) :=
  .bind (noAbort_getIpv6StringBin lib pubkey) fun _ => .fromExcept _

/-- An address is calculated from the hash and the prefix. -/
theorem getIpv6StringBin_eq_ok_iff {lib : CryptoLib} {pubkey : HashipPubkey} {addr : Bytes}
    {s s' : σ} :
    pubkey.getIpv6StringBin lib s = .ok addr s' ↔
      (pubkey.getIpv6StringBin lib : Program Exn Unit Bytes) () = .ok addr () ∧ s = s' := by
  simp only [MultikeysPub.getIpv6StringBin, MultiCryptoStrings.readHash, bind_eq_ok_iff,
    within_eq_ok_iff, fromExcept_eq_ok_iff, pure_apply, EStateM.Result.ok.injEq]
  constructor
  · rintro ⟨hash, _, ⟨hhash, rfl⟩, prefixBin, _, ⟨hpre, rfl⟩, haddr, rfl⟩
    exact ⟨⟨hash, (), ⟨hhash, trivial⟩, prefixBin, (), ⟨hpre, trivial⟩, haddr, trivial⟩, rfl⟩
  · rintro ⟨⟨hash, _, ⟨hhash, -⟩, prefixBin, _, ⟨hpre, -⟩, haddr, -⟩, rfl⟩
    exact ⟨hash, s, ⟨hhash, rfl⟩, prefixBin, s, ⟨hpre, rfl⟩, haddr, rfl⟩

/-- The hip of a public key. -/
def HasHip (lib : CryptoLib) (pubkey : HashipPubkey) (hip : HashipAddr) : Prop :=
  (HashipAddr.ofHashOfPubkey lib pubkey : Program Exn Unit HashipAddr) () = .ok hip ()

instance (lib : CryptoLib) (pubkey : HashipPubkey) (hip : HashipAddr) :
    Decidable (HasHip lib pubkey hip) :=
  inferInstanceAs (Decidable (_ = _))

private theorem ofHashOfPubkey_eq_ok_iff {lib : CryptoLib} {pubkey : HashipPubkey} {hip : HashipAddr}
    {s s' : σ} :
    HashipAddr.ofHashOfPubkey lib pubkey s = .ok hip s' ↔ HasHip lib pubkey hip ∧ s = s' := by
  simp only [HasHip, HashipAddr.ofHashOfPubkey, bind_eq_ok_iff, fromExcept_eq_ok_iff]
  constructor
  · rintro ⟨addr, _, haddr, hhip, rfl⟩
    obtain ⟨haddr', rfl⟩ := getIpv6StringBin_eq_ok_iff.mp haddr
    exact ⟨⟨addr, (), haddr', hhip, trivial⟩, rfl⟩
  · rintro ⟨⟨addr, _, haddr, hhip, -⟩, rfl⟩
    exact ⟨addr, s, getIpv6StringBin_eq_ok_iff.mpr ⟨haddr, rfl⟩, hhip, rfl⟩

/-- An address that is accepted as binary is the hip of the key. -/
theorem hasHip_of_getIpv6StringBin {lib : CryptoLib} {pubkey : HashipPubkey} {addr : Bytes}
    {hip : HashipAddr} {s s' : σ} (haddr : pubkey.getIpv6StringBin lib s = .ok addr s')
    (hhip : HashipAddr.ofAddrBin addr = .ok hip) : HasHip lib pubkey hip := by
  obtain rfl := HashipAddr.ofAddrBin_eq_ok_iff.mp hhip
  have htake : hip.octets.take hashipAddrSize = hip.octets :=
    List.take_of_length_le hip.length_octets.le
  have hoctets : HashipAddr.ofOctets (hip.octets.take hashipAddrSize) .outOfRange = .ok hip := by
    rw [htake]
    exact dif_pos hip.length_octets
  exact bind_eq_ok_iff.mpr ⟨hip.octets, (), (getIpv6StringBin_eq_ok_iff.mp haddr).1,
    fromExcept_eq_ok_iff.mpr ⟨hoctets, rfl⟩⟩

namespace Tunserver

/-! ### The operations -/

/-- `add_peer` -/
def addPeer (peerRef : PeeringReference) : Node Bool := do
  let node ← get
  let added := decide (peerRef.hashipAddr ∉ node.peer)
  set { node with peer := node.peer.insertIfNew peerRef.hashipAddr (Peering.new peerRef) }
  return added

/-- `delete_peer` -/
def deletePeer (hip : HashipAddr) : Node Bool := do
  let node ← get
  if hip ∈ node.peer then
    set { node with peer := node.peer.erase hip }
    return true
  else
    return false

/-- `delete_all_peers` -/
def deleteAllPeers (isBanned : Bool) : Node Unit :=
  modify fun node =>
    { node with
      peerBlackList :=
        if isBanned then node.peerBlackList.insertMany node.peer.keys else node.peerBlackList
      peer := ∅ }

/-- `add_peer_to_black_list` -/
def addPeerToBlackList (hip : HashipAddr) : Node Unit :=
  modify fun node => { node with peerBlackList := node.peerBlackList.insert hip }

/-- `delete_peer_from_black_list` -/
def deletePeerFromBlackList (hip : HashipAddr) : Node Unit :=
  modify fun node => { node with peerBlackList := node.peerBlackList.erase hip }

/-- The part of `add_peer_append_pubkey` for a peer that is in the table. The key is set before the
addresses are compared. -/
def updatePeer (peerRef : PeeringReference) (pubkey : HashipPubkey) (peering : Peering) :
    Node Unit := do
  let oldPip := peering.getPip
  let newPip := peerRef.peeringAddr
  let peering := peering.setPubkey pubkey
  modify fun node => { node with peer := node.peer.insert peerRef.hashipAddr peering }
  let unchanged ← oldPip.equal newPip
  if ¬ unchanged then
    modify fun node =>
      { node with peer := node.peer.insert peerRef.hashipAddr (peering.setPip newPip) }

/-- The part of `add_peer_append_pubkey` that changes the table: a banned peer is not added. -/
def appendPubkey (peerRef : PeeringReference) (pubkey : HashipPubkey) : Node Unit := do
  let peerHip := peerRef.hashipAddr
  let node ← get
  match node.peer[peerHip]? with
  | none =>
    if peerHip ∉ node.peerBlackList then
      set { node with
        peer := node.peer.insertIfNew peerHip ((Peering.new peerRef).setPubkey pubkey) }
  | some peering => updatePeer peerRef pubkey peering

/-- The end of `add_peer_append_pubkey`: at a low enough debug level the peer is looked up to be
shown, and the exception for a peer that is not there is let through. -/
def showPeer (peerHip : HashipAddr) : Node Unit := do
  let node ← get
  if 20 ≥ node.dbgLevel then
    checkThat (peerHip ∈ node.peer) .outOfRange

/-- `add_peer_append_pubkey` -/
def addPeerAppendPubkey (lib : CryptoLib) (peerRef : PeeringReference) (pubkey : HashipPubkey) :
    Node Unit := do
  let hipFromPubkey ← HashipAddr.ofHashOfPubkey lib pubkey
  checkThat (hipFromPubkey = peerRef.hashipAddr)
    (.runtimeError "Pubkey has hip not matching reference")
  appendPubkey peerRef pubkey
  showPeer peerRef.hashipAddr

/-- `add_tunnel_to_pubkey` -/
def addTunnelToPubkey (lib : CryptoLib) (pubkey : HashipPubkey) : Node Unit := do
  let addr ← pubkey.getIpv6StringBin lib
  let hip ← fromExcept (HashipAddr.ofAddrBin addr)
  let node ← get
  if hip ∈ node.tunnel then
    return
  else
    let ct ← crypto (TunnelUse.new lib node.myIDC pubkey)
    modify fun node => { node with tunnel := node.tunnel.insert hip ct }

/-- An operation on the tables. -/
inductive TableOp where
  | addPeer (peerRef : PeeringReference)
  | addPeerAppendPubkey (peerRef : PeeringReference) (pubkey : HashipPubkey)
  | deletePeer (hip : HashipAddr)
  | deleteAllPeers (isBanned : Bool)
  | addPeerToBlackList (hip : HashipAddr)
  | deletePeerFromBlackList (hip : HashipAddr)
  | addTunnelToPubkey (pubkey : HashipPubkey)

/-- Run an operation. -/
def TableOp.run (lib : CryptoLib) : TableOp → Node Unit
  | .addPeer peerRef => discard (Tunserver.addPeer peerRef)
  | .addPeerAppendPubkey peerRef pubkey => Tunserver.addPeerAppendPubkey lib peerRef pubkey
  | .deletePeer hip => discard (Tunserver.deletePeer hip)
  | .deleteAllPeers isBanned => Tunserver.deleteAllPeers isBanned
  | .addPeerToBlackList hip => Tunserver.addPeerToBlackList hip
  | .deletePeerFromBlackList hip => Tunserver.deletePeerFromBlackList hip
  | .addTunnelToPubkey pubkey => Tunserver.addTunnelToPubkey lib pubkey

/-- The states that any order of operations can reach, whether the operations return or fail. An operation
that fails leaves what it has changed until then, and the node goes on from there. -/
inductive Reachable (lib : CryptoLib) : Tunserver → Prop
  | start (myIDC : MultikeysPAIR) (myIDIPub : MultikeysPub) (myHip : HashipAddr)
      (ipv6Prefix : Bytes) (draws : ℕ) : Reachable lib (new myIDC myIDIPub myHip ipv6Prefix draws)
  | step {node : Tunserver} (op : TableOp) :
      Reachable lib node → Reachable lib (finalState (op.run lib) node)

/-! ### The invariant -/

/-- The tunnel was set up with our keys and this public key. -/
def BuiltFor (lib : CryptoLib) (myIDC : MultikeysPAIR) (pubkey : HashipPubkey) (ct : TunnelUse) :
    Prop :=
  ∃ draw draw', TunnelUse.new lib myIDC pubkey draw = .ok ct draw'

/-- A peer is what it is kept as. -/
def PeerBound (lib : CryptoLib) (hip : HashipAddr) (peering : Peering) : Prop :=
  peering.getHip = hip ∧ ∀ pubkey, peering.getPub = some pubkey → HasHip lib pubkey hip

/-- Every peer and every tunnel is kept under the hip it belongs to. A tunnel is bound by the key that it was
set up with, which is not stored with it: there is such a key. -/
structure TablesBound (lib : CryptoLib) (node : Tunserver) : Prop where
  peer : ∀ hip peering, node.peer[hip]? = some peering → PeerBound lib hip peering
  tunnel : ∀ hip ct, node.tunnel[hip]? = some ct →
    ∃ pubkey, HasHip lib pubkey hip ∧ BuiltFor lib node.myIDC pubkey ct

section Invariant

variable {lib : CryptoLib} {node : Tunserver}

private theorem tablesBound_new (myIDC : MultikeysPAIR) (myIDIPub : MultikeysPub) (myHip : HashipAddr)
    (ipv6Prefix : Bytes) (draws : ℕ) :
    TablesBound lib (new myIDC myIDIPub myHip ipv6Prefix draws) where
  peer hip peering h := by simp [new] at h
  tunnel hip ct h := by simp [new] at h

/-- A peer may be inserted under its hip. -/
theorem TablesBound.insert_peer (h : TablesBound lib node) {hip : HashipAddr} {peering : Peering}
    (hpeering : PeerBound lib hip peering) :
    TablesBound lib { node with peer := node.peer.insert hip peering } where
  peer hip' peering' hget := by
    rw [Std.ExtTreeMap.getElem?_insert] at hget
    split at hget
    next heq =>
      obtain rfl := Std.LawfulEqCmp.eq_of_compare heq
      exact Option.some.inj hget ▸ hpeering
    · exact h.peer hip' peering' hget
  tunnel := h.tunnel

/-- Peers may be taken from the table. -/
theorem TablesBound.of_subset {node' : Tunserver} (h : TablesBound lib node)
    (hpeer : ∀ (hip : HashipAddr) (peering : Peering), node'.peer[hip]? = some peering →
      node.peer[hip]? = some peering)
    (htunnel : node'.tunnel = node.tunnel) (hIDC : node'.myIDC = node.myIDC) :
    TablesBound lib node' where
  peer hip peering hget := h.peer hip peering (hpeer hip peering hget)
  tunnel := by
    rw [htunnel, hIDC]
    exact h.tunnel

/-- A tunnel may be kept under the hip of the key it was set up with. -/
private theorem TablesBound.insert_tunnel (h : TablesBound lib node) {hip : HashipAddr} {ct : TunnelUse}
    {pubkey : HashipPubkey} (hhip : HasHip lib pubkey hip)
    (hbuilt : BuiltFor lib node.myIDC pubkey ct) :
    TablesBound lib { node with tunnel := node.tunnel.insert hip ct } where
  peer := h.peer
  tunnel hip' ct' hget := by
    rw [Std.ExtTreeMap.getElem?_insert] at hget
    split at hget
    next heq =>
      obtain rfl := Std.LawfulEqCmp.eq_of_compare heq
      exact Option.some.inj hget ▸ ⟨pubkey, hhip, hbuilt⟩
    · exact h.tunnel hip' ct' hget

/-! ### What meeting a peer does -/

/-- The node with a peer in its table. -/
def putPeer (node : Tunserver) (hip : HashipAddr) (peering : Peering) : Tunserver :=
  { node with peer := node.peer.insert hip peering }

/-- What is put into the table for a peer who is met: it keeps the hip it had there, and has the key.
A banned peer is only met when it is in the table. -/
structure Met (node : Tunserver) (peerRef : PeeringReference) (pubkey : HashipPubkey)
    (peering : Peering) : Prop where
  getPub : peering.getPub = some pubkey
  getHip : peering.getHip = (node.peer[peerRef.hashipAddr]?.map Peering.getHip).getD peerRef.hashipAddr
  allowed : peerRef.hashipAddr ∈ node.peer ∨ peerRef.hashipAddr ∉ node.peerBlackList

theorem preserves_ofHashOfPubkey {I : Tunserver → Prop} (pubkey : HashipPubkey) :
    Preserves I (HashipAddr.ofHashOfPubkey lib pubkey) :=
  .bind (.bind .within fun _ => .bind (.fromExcept _) fun _ => .pure _) fun _ => .fromExcept _

/-- A key with the right hip passes the check. -/
theorem addPeerAppendPubkey_of_hasHip {peerRef : PeeringReference} {pubkey : HashipPubkey}
    (hhip : HasHip lib pubkey peerRef.hashipAddr) :
    addPeerAppendPubkey lib peerRef pubkey node =
      (appendPubkey peerRef pubkey >>= fun _ => showPeer peerRef.hashipAddr) node := by
  rw [addPeerAppendPubkey, bind_of_ok (ofHashOfPubkey_eq_ok_iff.mpr ⟨hhip, rfl⟩)]
  exact bind_of_ok (a := ()) (checkThat_eq_ok_iff.mpr ⟨rfl, rfl⟩)

/-- A key with another hip, or with none, is refused before anything is changed. -/
theorem addPeerAppendPubkey_of_not_hasHip {peerRef : PeeringReference} {pubkey : HashipPubkey}
    (hhip : ¬ HasHip lib pubkey peerRef.hashipAddr) :
    ∃ e, addPeerAppendPubkey lib peerRef pubkey node = .error (.throw e) node := by
  have hstate : finalState (HashipAddr.ofHashOfPubkey lib pubkey) node = node :=
    preserves_ofHashOfPubkey (I := fun node' => node' = node) pubkey node rfl
  have habort := HashipAddr.noAbort_ofHashOfPubkey lib pubkey node
  unfold addPeerAppendPubkey
  rcases hrun : HashipAddr.ofHashOfPubkey lib pubkey node with ⟨hip, node'⟩ | ⟨e | _, node'⟩
  · obtain ⟨hhip', rfl⟩ := ofHashOfPubkey_eq_ok_iff.mp hrun
    have hne : ¬ hip = peerRef.hashipAddr := fun heq => hhip (heq ▸ hhip')
    rw [bind_of_ok hrun, bind_apply, checkThat_apply, if_neg hne]
    exact ⟨_, rfl⟩
  · rw [finalState_of_error hrun] at hstate
    rw [bind_of_error hrun, hstate]
    exact ⟨e, rfl⟩
  · exact absurd hrun (habort node')

theorem finalState_addPeer (peerRef : PeeringReference) (node : Tunserver) :
    finalState (addPeer peerRef) node =
      if peerRef.hashipAddr ∈ node.peer then node
      else node.putPeer peerRef.hashipAddr (Peering.new peerRef) := by
  change { node with peer := node.peer.insertIfNew peerRef.hashipAddr (Peering.new peerRef) } = _
  split
  next hmem => rw [insertIfNew_of_mem _ _ hmem]
  next hmem => rw [insertIfNew_of_not_mem _ _ hmem, putPeer]

/-- A peer that is in the table gets the key, and the address if it can be compared. -/
theorem finalState_updatePeer {peerRef : PeeringReference} {pubkey : HashipPubkey}
    {peering : Peering} (h : node.peer[peerRef.hashipAddr]? = some peering) :
    ∃ peering', Met node peerRef pubkey peering' ∧
      finalState (updatePeer peerRef pubkey peering) node =
        node.putPeer peerRef.hashipAddr peering' := by
  have hmem : peerRef.hashipAddr ∈ node.peer :=
    Std.ExtTreeMap.mem_iff_isSome_getElem?.mpr (by rw [h]; rfl)
  have hmet : ∀ addr, Met node peerRef pubkey ((peering.setPubkey pubkey).setPip addr) := fun addr =>
    ⟨rfl, by rw [h]; rfl, .inl hmem⟩
  -- The key is in the table before the addresses are compared, which may throw.
  let J : Tunserver → Prop := fun node' =>
    node' = node.putPeer peerRef.hashipAddr (peering.setPubkey pubkey)
  have hequal : Preserves J (peering.getPip.equal peerRef.peeringAddr) :=
    .bind (.checkThat _ _) fun _ => .bind (.checkThat _ _) fun _ => .pure _
  have hstate := hequal _ rfl
  rw [updatePeer, finalState_bind_of_ok (modify_apply _ node)]
  cases hrun : peering.getPip.equal peerRef.peeringAddr
      (node.putPeer peerRef.hashipAddr (peering.setPubkey pubkey)) with
  | error e node' =>
    rw [finalState_of_error hrun] at hstate
    exact ⟨_, hmet peering.getPip, (finalState_bind_of_error hrun).trans hstate⟩
  | ok unchanged node' =>
    rw [finalState_of_ok hrun] at hstate
    obtain rfl : node' = _ := hstate
    cases unchanged with
    | true => exact ⟨_, hmet peering.getPip, finalState_bind_of_ok hrun⟩
    | false =>
      refine ⟨_, hmet peerRef.peeringAddr, (finalState_bind_of_ok hrun).trans ?_⟩
      change { node with peer := (node.peer.insert _ _).insert _ _ } = _
      rw [insert_insert_self, putPeer]

/-- However it ends, meeting a peer leaves the node as it was or puts that peer into the table. What is put
there is described by `Met`, and nothing else of the node changes. -/
theorem finalState_addPeerAppendPubkey (peerRef : PeeringReference) (pubkey : HashipPubkey)
    (node : Tunserver) :
    finalState (addPeerAppendPubkey lib peerRef pubkey) node = node ∨
      HasHip lib pubkey peerRef.hashipAddr ∧ ∃ peering, Met node peerRef pubkey peering ∧
        finalState (addPeerAppendPubkey lib peerRef pubkey) node =
          node.putPeer peerRef.hashipAddr peering := by
  by_cases hhip : HasHip lib pubkey peerRef.hashipAddr
  · have hadd : finalState (addPeerAppendPubkey lib peerRef pubkey) node =
        finalState (appendPubkey peerRef pubkey) node := by
      let J : Tunserver → Prop := fun node' => node' = finalState (appendPubkey peerRef pubkey) node
      have hshow : Preserves J (showPeer peerRef.hashipAddr) := by
        refine .get_bind fun node' h => ?_
        split
        · exact Preserves.checkThat (I := J) _ _ node' h
        · exact h
      have happend : J (finalState (appendPubkey peerRef pubkey) node) := rfl
      rw [finalState_congr (addPeerAppendPubkey_of_hasHip hhip)]
      exact Preserves.finalState_bind (I := J) happend fun _ => hshow
    -- Showing the peer afterwards changes nothing.
    rw [hadd, appendPubkey, finalState_bind_of_ok (get_apply node)]
    cases hget : node.peer[peerRef.hashipAddr]? with
    | some peering =>
      obtain ⟨peering', hmet, heq⟩ := finalState_updatePeer hget
      exact .inr ⟨hhip, peering', hmet, heq⟩
    | none =>
      have hmem : peerRef.hashipAddr ∉ node.peer := by
        rw [Std.ExtTreeMap.mem_iff_isSome_getElem?, hget]
        decide
      dsimp only
      split
      next hbanned =>
        have hmet : Met node peerRef pubkey ((Peering.new peerRef).setPubkey pubkey) :=
          ⟨rfl, by rw [hget]; rfl, .inr hbanned⟩
        refine .inr ⟨hhip, _, hmet, ?_⟩
        change { node with peer := node.peer.insertIfNew _ _ } = _
        rw [insertIfNew_of_not_mem _ _ hmem, putPeer]
      · exact .inl rfl
  · obtain ⟨e, hrun⟩ : ∃ e, addPeerAppendPubkey lib peerRef pubkey node = .error (.throw e) node :=
      addPeerAppendPubkey_of_not_hasHip hhip
    exact .inl (finalState_of_error hrun)

/-! ### Every operation preserves the invariant -/

theorem peerBound_new (peerRef : PeeringReference) :
    PeerBound lib peerRef.hashipAddr (Peering.new peerRef) :=
  ⟨rfl, fun pubkey h => by cases h⟩

private theorem preserves_addPeer (peerRef : PeeringReference) :
    Preserves (TablesBound lib) (addPeer peerRef) := by
  intro node h
  rw [finalState_addPeer]
  split
  · exact h
  · exact h.insert_peer (peerBound_new peerRef)

private theorem preserves_deletePeer (hip : HashipAddr) :
    Preserves (TablesBound lib) (deletePeer hip) := by
  refine Preserves.get_bind fun node h => ?_
  split
  · refine h.of_subset (fun hip' peering hget => ?_) rfl rfl
    change (node.peer.erase hip)[hip']? = _ at hget
    rw [Std.ExtTreeMap.getElem?_erase] at hget
    split at hget
    · cases hget
    · exact hget
  · exact h

private theorem preserves_deleteAllPeers (isBanned : Bool) :
    Preserves (TablesBound lib) (deleteAllPeers isBanned) :=
  Preserves.modify fun node h => h.of_subset (fun hip peering hget => by simp at hget) rfl rfl

/-- A banned peer that is not in the table is not added, whether that is reported or not. -/
private theorem finalState_addPeerAppendPubkey_of_banned {peerRef : PeeringReference}
    {pubkey : HashipPubkey} (hhip : HasHip lib pubkey peerRef.hashipAddr)
    (hunknown : peerRef.hashipAddr ∉ node.peer)
    (hbanned : peerRef.hashipAddr ∈ node.peerBlackList) :
    finalState (addPeerAppendPubkey lib peerRef pubkey) node = node := by
  have happend : appendPubkey peerRef pubkey node = .ok () node := by
    have hget : node.peer[peerRef.hashipAddr]? = none := Std.ExtTreeMap.getElem?_eq_none hunknown
    rw [appendPubkey, bind_of_ok (get_apply node), hget]
    exact if_neg (not_not.mpr hbanned) ▸ rfl
  have hshow : finalState (showPeer peerRef.hashipAddr) node = node := by
    refine Preserves.get_bind (I := fun node' => node' = node) (fun node' h => ?_) node rfl
    subst h
    split
    · exact Preserves.checkThat (I := fun node'' => node'' = node') _ _ node' rfl
    · rfl
  rw [finalState, addPeerAppendPubkey_of_hasHip hhip, bind_of_ok happend]
  exact hshow

/-- A peer that is met is what it is kept as, when it was before. -/
theorem Met.peerBound {peerRef : PeeringReference} {pubkey : HashipPubkey} {peering : Peering}
    (hmet : Met node peerRef pubkey peering) (hhip : HasHip lib pubkey peerRef.hashipAddr)
    (hbound : ∀ old, node.peer[peerRef.hashipAddr]? = some old → old.getHip = peerRef.hashipAddr) :
    PeerBound lib peerRef.hashipAddr peering := by
  constructor
  · rw [hmet.getHip]
    cases hold : node.peer[peerRef.hashipAddr]? with
    | none => rfl
    | some old => exact hbound old hold
  · rintro pubkey' h'
    obtain rfl := Option.some.inj (hmet.getPub.symm.trans h')
    exact hhip

private theorem preserves_addPeerAppendPubkey (peerRef : PeeringReference) (pubkey : HashipPubkey) :
    Preserves (TablesBound lib) (addPeerAppendPubkey lib peerRef pubkey) := by
  intro node h
  obtain heq | ⟨hhip, peering, hmet, heq⟩ := finalState_addPeerAppendPubkey peerRef pubkey node
  · rwa [heq]
  · rw [heq]
    exact h.insert_peer (hmet.peerBound hhip fun old hold => (h.peer _ old hold).1)

private theorem preserves_addTunnelToPubkey (pubkey : HashipPubkey) :
    Preserves (TablesBound lib) (addTunnelToPubkey lib pubkey) := by
  have haddr : Preserves (TablesBound lib) (pubkey.getIpv6StringBin lib) :=
    .bind .within fun _ => .bind (.fromExcept _) fun _ => .pure _
  refine .bind_of haddr fun node addr node' h hrun h' => ?_
  refine Preserves.bind_of (.fromExcept _) (fun node₁ hip node₂ h₁ hhip h₂ => ?_) node' h'
  have hip_of_pubkey := hasHip_of_getIpv6StringBin hrun (fromExcept_eq_ok_iff.mp hhip).1
  refine Preserves.get_bind (fun node₃ h₃ => ?_) node₂ h₂
  split
  · exact h₃
  · have hdraws : Preserves (TablesBound lib) (crypto (TunnelUse.new lib node₃.myIDC pubkey)) :=
      .zoom fun draws node h => h.of_subset (fun _ _ hget => hget) rfl rfl
    cases hrun' : crypto (TunnelUse.new lib node₃.myIDC pubkey) node₃ with
    | ok ct node₄ =>
      obtain ⟨draws, hnew, rfl⟩ := zoom_eq_ok_iff.mp hrun'
      have h₄ : TablesBound lib { node₃ with draws } := h₃.of_subset (fun _ _ hget => hget) rfl rfl
      rw [finalState, bind_of_ok hrun']
      exact h₄.insert_tunnel hip_of_pubkey ⟨node₃.draws, draws, hnew⟩
    | error e node₄ =>
      have h₄ := hdraws node₃ h₃
      rw [finalState_of_error hrun'] at h₄
      rwa [finalState, bind_of_error hrun']

/-- Every operation preserves the invariant, whether it returns or fails. This is the step of the induction
over reachable states. -/
theorem preserves_tablesBound (op : TableOp) : Preserves (TablesBound lib) (op.run lib) := by
  cases op with
  | addPeer peerRef => exact (preserves_addPeer peerRef).bind fun _ => .pure _
  | addPeerAppendPubkey peerRef pubkey => exact preserves_addPeerAppendPubkey peerRef pubkey
  | deletePeer hip => exact (preserves_deletePeer hip).bind fun _ => .pure _
  | deleteAllPeers isBanned => exact preserves_deleteAllPeers isBanned
  | addPeerToBlackList hip =>
    exact .modify fun node h => h.of_subset (fun _ _ hget => hget) rfl rfl
  | deletePeerFromBlackList hip =>
    exact .modify fun node h => h.of_subset (fun _ _ hget => hget) rfl rfl
  | addTunnelToPubkey pubkey => exact preserves_addTunnelToPubkey pubkey

/-- In every reachable state the tables are bound, and a key that is refused changes nothing: one with another
hip than the reference, or the key of a banned peer that is not in the table. Operations may come in any order
and from either thread, and each of them may fail on its way; what it has changed by then is in a state that
is reached as well. -/
theorem tablesBound_of_reachable (h : Reachable lib node) :
    TablesBound lib node ∧ ∀ (peerRef : PeeringReference) (pubkey : HashipPubkey),
      (¬ HasHip lib pubkey peerRef.hashipAddr →
        ∃ e, addPeerAppendPubkey lib peerRef pubkey node = .error (.throw e) node) ∧
      (peerRef.hashipAddr ∉ node.peer → peerRef.hashipAddr ∈ node.peerBlackList →
        finalState (addPeerAppendPubkey lib peerRef pubkey) node = node) := by
  constructor
  · induction h with
    | start myIDC myIDIPub myHip ipv6Prefix draws =>
      exact tablesBound_new myIDC myIDIPub myHip ipv6Prefix draws
    | step op _ ih => exact preserves_tablesBound op _ ih
  · intro peerRef pubkey
    refine ⟨addPeerAppendPubkey_of_not_hasHip, fun hunknown hbanned => ?_⟩
    by_cases hhip : HasHip lib pubkey peerRef.hashipAddr
    · exact finalState_addPeerAppendPubkey_of_banned hhip hunknown hbanned
    · obtain ⟨e, hrun⟩ : ∃ e, addPeerAppendPubkey lib peerRef pubkey node = .error (.throw e) node :=
        addPeerAppendPubkey_of_not_hasHip hhip
      exact finalState_of_error hrun

/-- A set with one public key. -/
def oneKey (key : Bytes) : HashipPubkey :=
  { MultikeysPub.new with
    toMultiCryptoStrings :=
      (MultiCryptoStrings.new .open).addKey CryptoSystemType.x25519.nr key }

/-- A node that has added a peer refuses to take a key with another hip for it. -/
theorem tablesBound_of_reachable_example :
    let peerRef : PeeringReference := { peeringAddr := .ipv4 0 1, hashipAddr := 0 }
    let node := finalState ((TableOp.addPeer peerRef).run CryptoLib.sample)
      (new MultikeysPAIR.new MultikeysPub.new 0 [] 0)
    TablesBound CryptoLib.sample node ∧
      ∃ e, addPeerAppendPubkey CryptoLib.sample peerRef (oneKey [1]) node = .error (.throw e) node := by
  intro peerRef node
  have hreachable : Reachable CryptoLib.sample node := .step _ (.start _ _ _ _ _)
  obtain ⟨hbound, hrefused⟩ := tablesBound_of_reachable hreachable
  have hhip : ¬ HasHip CryptoLib.sample (oneKey [1]) peerRef.hashipAddr := by decide
  exact ⟨hbound, (hrefused peerRef (oneKey [1])).1 hhip⟩

end Invariant

end Tunserver

end Galaxy42
