import Galaxy42.Tunserver.WireCodecs

/-!
# The two ends of a tunnel

A node that has been greeted makes a tunnel with the keys of its own session (IDC) and the identity
(IDI) of the other node, and the other node does the same with the keys of its session and our identity.
The parity of the nonces comes from comparing the hashes of these keys. Each node compares other hashes
than the one at the other end, so both may come to the same parity, and they do unless exactly one of the
two sessions is above the identity of the other node (`noncesApart_iff`).

The key does not keep the two ends apart. A greeting is accepted only when the identity has no other keys
than keys to sign with (`GetsTunnel.builtFor`), no secret is agreed on with such keys, and what is left
is one key for all tunnels (`sessionKey_eq_noSecretKey`). So with the same parity both ends box their first
messages with the same key and the same nonce (`used_of_nonceOdd_eq`).

What is asked for is about all that is ever boxed (`NoncesApart`): whatever messages the two ends box, one
after the other, the pairs of keys and nonces that they have used have none in common. Opposite parities never
give the same nonce (`NonceLaws`); with the same parity, the first messages of the two ends have the same one.
So the condition is an equivalence, and looks at the hashes of the keys only.

That the tunnel of a node was made for the identity in the greeting, and not for something else that a handler
has at hand, is traced through the handler (`GetsTunnel.builtFor`). The sample has two nodes with keys as the
program makes them.
-/

namespace Galaxy42

open Toolkit Program TrivialSerialize CStream

/-! ### Keys and nonces -/

/-- The nonces of the two parities are different ones, however many messages were boxed before. The sample
library has this property. -/
structure NonceLaws (lib : CryptoLib) : Prop where
  apart : ∀ {count count' N}, lib.nonceAt true count = .ok N → lib.nonceAt false count' ≠ .ok N

namespace CryptoTunnel

/-- The keys and nonces that messages are boxed with by `box_ab`, one after the other. A message that is
not boxed uses none. -/
def usedAb (lib : CryptoLib) : CryptoTunnel → List Bytes → List (Bytes × Bytes)
  | _, [] => []
  | ct, msg :: msgs =>
    match ct.streamCryptoAb.boxer, ct.boxAb lib msg () with
    | some cb, .ok ((_, nonce), ct) _ => (cb.key, nonce) :: ct.usedAb lib msgs
    | _, _ => ct.usedAb lib msgs

section Used

variable {lib : CryptoLib} {ct : CryptoTunnel} {cb : Boxer}

/-- All messages are boxed with one key, and with nonces of one parity. -/
private theorem of_mem_usedAb {msgs : List Bytes} {used : Bytes × Bytes}
    (hboxer : ct.streamCryptoAb.boxer = some cb) (h : used ∈ ct.usedAb lib msgs) :
    used.1 = cb.key ∧ ∃ count, lib.nonceAt cb.odd count = .ok used.2 := by
  induction msgs generalizing ct cb with
  | nil => cases h
  | cons msg msgs ih =>
    rw [usedAb, hboxer] at h
    cases hbox : ct.boxAb lib msg () with
    | error e s => exact ih hboxer (by rwa [hbox] at h)
    | ok boxed s =>
      obtain ⟨⟨cipher, nonce⟩, ct₁⟩ := boxed
      obtain ⟨cb₁, hboxer₁, hnonce, -, -, rfl⟩ := boxAb_eq_ok_iff.mp hbox
      obtain rfl : cb = cb₁ := Option.some.inj (hboxer.symm.trans hboxer₁)
      rw [hbox] at h
      obtain rfl | h := List.mem_cons.mp h
      · exact ⟨rfl, cb.count, hnonce⟩
      · -- the boxer has moved on, with the same key and parity
        obtain ⟨hkey, hnonce⟩ := ih rfl h
        exact ⟨hkey, hnonce⟩

/-- The first message that is boxed takes the nonce of the boxer. -/
private theorem mem_usedAb_singleton {msg cipher nonce : Bytes} (hboxer : ct.streamCryptoAb.boxer = some cb)
    (hnonce : lib.nonceAt cb.odd cb.count = .ok nonce)
    (hcipher : lib.secretbox cb.key nonce msg = .ok cipher) :
    (cb.key, nonce) ∈ ct.usedAb lib [msg] := by
  have hbox : ct.boxAb lib msg () = .ok ((cipher, nonce), _) () :=
    boxAb_eq_ok_iff.mpr ⟨cb, hboxer, hnonce, hcipher, rfl, rfl⟩
  rw [usedAb, hboxer, hbox]
  exact List.mem_cons_self

end Used

/-- The two ends have taken opposite parities, and whatever they box, they never use the same nonce with the
same key. All lists of messages are asked for at once, as each end may box as many as it likes before it gets
one of the other. -/
structure NoncesApart (lib : CryptoLib) (ct ct' : CryptoTunnel) : Prop where
  nonceOdd : ct.streamCryptoAb.nonceOdd = !ct'.streamCryptoAb.nonceOdd
  used : ∀ msgs msgs', List.Disjoint (ct.usedAb lib msgs) (ct'.usedAb lib msgs')

/-! ### How a tunnel is made -/

section New

variable {lib : CryptoLib} {self : MultikeysPAIR} {them : MultikeysPub} {ct : CryptoTunnel}

/-- The tunnel of the initiator has the parity of the comparison, and has boxed nothing. -/
private theorem of_new_eq_ok {draw draw' : ℕ} (h : CryptoTunnel.new lib self them draw = .ok ct draw') :
    ∃ hash hash', self.pub.readHash lib () = .ok hash () ∧ them.readHash lib () = .ok hash' () ∧
      ct = initiatorTunnel lib self { pub := them, PRV := MultikeysPRV.new } hash hash' draw := by
  obtain ⟨stream, hstream, -⟩ := bind_pure_eq_ok_iff.mp h
  obtain ⟨⟨KCT, st⟩, d, -, hrest⟩ := bind_eq_ok_iff.mp hstream
  obtain ⟨nonceOdd, d₁, hodd, -⟩ := bind_eq_ok_iff.mp hrest
  obtain ⟨hash, d₂, hhash, hgreater⟩ := bind_eq_ok_iff.mp hodd
  obtain ⟨hash', d₃, hhash', -⟩ := bind_eq_ok_iff.mp hgreater
  have hself : self.pub.readHash lib () = .ok hash () :=
    within_eq_ok_iff.mpr ⟨(within_eq_ok_iff.mp hhash).1, rfl⟩
  have hthem : them.readHash lib () = .ok hash' () :=
    within_eq_ok_iff.mpr ⟨(within_eq_ok_iff.mp hhash').1, rfl⟩
  obtain ⟨-, hct, -⟩ := (new_eq_ok_iff (B := { pub := them, PRV := MultikeysPRV.new }) hself hthem).mp h
  exact ⟨hash, hash', hself, hthem, hct⟩

end New

/-- Opposite parities keep the nonces apart. -/
private theorem NoncesApart.of_nonceOdd {lib : CryptoLib} (laws : NonceLaws lib) {ct ct' : CryptoTunnel}
    {cb cb' : Boxer} (hboxer : ct.streamCryptoAb.boxer = some cb)
    (hboxer' : ct'.streamCryptoAb.boxer = some cb') (hodd : cb.odd = ct.streamCryptoAb.nonceOdd)
    (hodd' : cb'.odd = ct'.streamCryptoAb.nonceOdd)
    (h : ct.streamCryptoAb.nonceOdd = !ct'.streamCryptoAb.nonceOdd) : NoncesApart lib ct ct' where
  nonceOdd := h
  used msgs msgs' used hmem hmem' := by
    obtain ⟨-, count, hnonce⟩ := of_mem_usedAb hboxer hmem
    obtain ⟨-, count', hnonce'⟩ := of_mem_usedAb hboxer' hmem'
    rw [hodd, h] at hnonce
    rw [hodd'] at hnonce'
    cases hparity : ct'.streamCryptoAb.nonceOdd with
    | true =>
      rw [hparity] at hnonce hnonce'
      exact laws.apart hnonce' hnonce
    | false =>
      rw [hparity] at hnonce hnonce'
      exact laws.apart hnonce hnonce'

end CryptoTunnel

/-! ### Tunnels without a secret -/

/-- The key that two parties come to when they agree on no secret. -/
def noSecretKey (lib : CryptoLib) : Bytes :=
  (lib.genericHash (0 : Block hash1Size).octets).octets.take 32

/-- The identity has keys of systems that sign, and no others. -/
def MultikeysPub.OnlySigns (pub : MultikeysPub) : Prop :=
  ∀ (sys : SystemNr) type, CryptoSystemType.ofInt sys = some type → Multisign.cryptosystemSignAllowed type = false →
    pub.getCountKeysInSystem sys = 0

/-- There is no round of an exchange with an identity that only signs. -/
theorem rounds_eq_nil_of_onlySigns {lib : CryptoLib} {self : MultikeysPAIR} {them : MultikeysPub}
    (h : them.OnlySigns) (draw : ℕ) : (initiatorParams lib self them).rounds draw = [] := by
  refine List.eq_nil_iff_forall_not_mem.mpr fun r hr => ?_
  obtain ⟨sys, -, draw', hr⟩ := exists_mem_systemRounds_of_mem_roundsFrom hr
  obtain ⟨type, ⟨htype, hshared, henabled⟩, -⟩ := mem_systemRounds_iff.mp hr
  have hkex : Multisign.cryptosystemSignAllowed type = false := by
    cases type <;> first | rfl | cases henabled
  have hpos : 0 < them.getCountKeysInSystem sys := hshared.2
  have hzero := h sys type htype hkex
  omega

/-- No secret is agreed on with the keys of a system that signs. Nothing of the exchange with it depends on
what is secret. -/
theorem sessionKey_eq_noSecretKey {lib : CryptoLib} {self : MultikeysPAIR} {them : MultikeysPub}
    (h : them.OnlySigns) (draw : ℕ) :
    (initiatorParams lib self them).sessionKey draw = noSecretKey lib := by
  rw [KexParams.sessionKey, rounds_eq_nil_of_onlySigns h]
  rfl

/-! ### Greetings -/

namespace Tunserver

/-- The octets are those of a greeting that the node sends. It is sent when the node pings a peer, with
whatever signature it keeps, and may reach somebody else. -/
def Greets (node : Tunserver) (data : Bytes) : Prop :=
  ∃ IDIIDCSig peering node', pingPeer node IDIIDCSig peering node' =
    .ok () (node'.pushSent peering.getPip data)

/-- The node gets a tunnel by a datagram. There was none for the address before, and there is this one when
the datagram has been handled, however the handling ended. -/
def GetsTunnel (lib : CryptoLib) (node : Tunserver) (senderPip : Ip46Addr) (data : Bytes)
    (ct : TunnelUse) : Prop :=
  ∃ hip, hip ∉ node.tunnel ∧
    (finalState (handleDatagram lib senderPip data) node).tunnel[hip]? = some ct

section Greeting

variable {lib : CryptoLib} {node other : Tunserver} {data : Bytes}

/-- What is sent is what a greeting is made of. -/
theorem Greets.exists_greetingBin (h : other.Greets data) :
    ∃ binIDCPub binIDIPub binIDIIDCSig, binIDCPub.length < uvarintLimit ∧
      binIDIPub.length < uvarintLimit ∧ other.myIDIPub.serializeBin () = .ok binIDIPub () ∧
        data = cmdOctets .publicHi (greetingBin binIDCPub binIDIPub binIDIIDCSig) := by
  obtain ⟨IDIIDCSig, peering, node', hping⟩ := h
  obtain ⟨cmdData, node₁, hgen, hsend⟩ := bind_eq_ok_iff.mp hping
  obtain ⟨hwrite, rfl⟩ := generate_eq_ok_iff.mp hgen
  have hpush : ∀ {bin out out' : Bytes} {u : Unit}, pushVarstring bin out = .ok u out' →
      bin.length < uvarintLimit ∧ out' = out ++ varstringOctets bin := fun h =>
    (emits_pushVarstring _ _ _).mp h
  have hserialize : ∀ {m : MultiCryptoStrings} {bin out out' : Bytes},
      m.serializeBin out = .ok bin out' → m.serializeBin () = .ok bin () ∧ out' = out := fun h => by
    obtain ⟨hfit, rfl, rfl⟩ := MultiCryptoStrings.serializeBin_eq_ok_iff.mp h
    exact ⟨MultiCryptoStrings.serializeBin_eq_ok_iff.mpr ⟨hfit, rfl, rfl⟩, rfl⟩
  have hdata : cmdOctets .publicHi cmdData = data := by
    have hstate := finalState_of_ok hsend
    rw [Peering.sendDataUdpCmd_eq, Peering.finalState_sendDataRAWUdp] at hstate
    split at hstate
    · exact (Prod.mk.inj (List.cons.inj (congrArg Tunserver.sent hstate)).1).2
    · exact absurd (congrArg Tunserver.sent hstate) (List.cons_ne_self _ _).symm
  -- the three strings are written one behind the other
  obtain ⟨binIDCPub, out₁, hIDC, hwrite⟩ := bind_eq_ok_iff.mp hwrite
  obtain ⟨_, out₂, hpushIDC, hwrite⟩ := bind_eq_ok_iff.mp hwrite
  obtain ⟨binIDIPub, out₃, hIDI, hwrite⟩ := bind_eq_ok_iff.mp hwrite
  obtain ⟨_, out₄, hpushIDI, hwrite⟩ := bind_eq_ok_iff.mp hwrite
  obtain ⟨binIDIIDCSig, out₅, hsig, hwrite⟩ := bind_eq_ok_iff.mp hwrite
  obtain ⟨-, rfl⟩ := hserialize hIDC
  obtain ⟨hlimIDC, rfl⟩ := hpush hpushIDC
  obtain ⟨hserialized, rfl⟩ := hserialize hIDI
  obtain ⟨hlimIDI, rfl⟩ := hpush hpushIDI
  obtain ⟨-, -, rfl⟩ := Multisign.serializeBin_eq_ok_iff.mp hsig
  obtain ⟨-, rfl⟩ := hpush hwrite
  refine ⟨binIDCPub, binIDIPub, binIDIIDCSig, hlimIDC, hlimIDI, hserialized, hdata.symm.trans ?_⟩
  rw [greetingBin, List.nil_append, List.append_assoc]

/-- The second string of a greeting is read as it was written. -/
theorem eq_of_popPublicHi {binIDCPub binIDIPub binIDIIDCSig : Bytes}
    (hIDC : binIDCPub.length < uvarintLimit) (hIDI : binIDIPub.length < uvarintLimit)
    {bins : Bytes × Bytes × Bytes} {c : Cursor UInt8}
    (h : popPublicHi (.start (greetingBin binIDCPub binIDIPub binIDIIDCSig)) = .ok bins c) :
    bins.2.1 = binIDIPub ∧ binIDIPub.length ≤ saneMaxSizeForString := by
  have hpop : ∀ {bin pre suf data : Bytes} {c : Cursor UInt8}, bin.length < uvarintLimit →
      popVarstring (.between pre (varstringOctets bin ++ suf)) = .ok data c →
      data = bin ∧ bin.length ≤ saneMaxSizeForString ∧ c = .between (pre ++ varstringOctets bin) suf := by
    intro bin pre suf data c hlim hread
    have hsane : bin.length ≤ saneMaxSizeForString := by
      by_contra hover
      have habort := popVarstring_between_oversize (not_le.mp hover) hlim pre (bin ++ suf)
      rw [← List.append_assoc] at habort
      cases habort.symm.trans hread
    obtain ⟨rfl, rfl⟩ := EStateM.Result.ok.inj (hread.symm.trans (reads_popVarstring hsane pre suf))
    exact ⟨rfl, hsane, rfl⟩
  rw [← Cursor.between_nil, greetingBin] at h
  obtain ⟨bin, c₁, hbin, h⟩ := bind_eq_ok_iff.mp h
  obtain ⟨bin', c₂, hbin', h⟩ := bind_eq_ok_iff.mp h
  obtain ⟨bin'', c₃, -, h⟩ := bind_eq_ok_iff.mp h
  obtain ⟨rfl, -⟩ := EStateM.Result.ok.inj h
  obtain ⟨-, -, rfl⟩ := hpop hIDC hbin
  obtain ⟨rfl, hsane, -⟩ := hpop hIDI hbin'
  exact ⟨rfl, hsane⟩

/-- Keys that are read were written as the keys of an identity. -/
theorem writtenAs_of_ofBin {σ : Type} {pub hisPub : MultikeysPub} {bin : Bytes} {s s' : σ}
    (hbin : pub.serializeBin () = .ok bin ()) (hsane : bin.length ≤ saneMaxSizeForString)
    (h : MultikeysPub.ofBin bin s = .ok hisPub s') : pub.WrittenAs bin := by
  refine ⟨?_, hbin, hsane⟩
  obtain ⟨-, rfl, -⟩ := MultiCryptoStrings.serializeBin_eq_ok_iff.mp hbin
  obtain ⟨⟨u, m⟩, s₁, hload, -⟩ := bind_eq_ok_iff.mp h
  obtain ⟨t, ht, -⟩ := MultiCryptoStrings.loadFromBin_eq_ok_iff.mp (withinState_eq_ok_iff.mp hload).1
  have huse : pub.cryptoUse.value = CryptoUse.open.value :=
    congrArg (fun bin : Bytes => bin.getD 4 0) ht
  cases hcryptoUse : pub.cryptoUse <;> rw [hcryptoUse] at huse <;> first | rfl | cases huse

/-- Only signing keys are verified with signatures that were read. -/
private theorem onlySigns_of_multiSignVerify {bin : Bytes} {sigs : Multisign} {msg : Bytes}
    {pub : MultikeysPub}
    {s s' s'' : Tunserver} (hread : Multisign.ofBin bin s = .ok sigs s')
    (hverify : Multisign.multiSignVerify lib sigs msg pub s' = .ok () s'') : pub.OnlySigns := by
  obtain ⟨⟨u, m⟩, s₁, hload, hret⟩ := bind_eq_ok_iff.mp hread
  obtain ⟨rfl, -⟩ := EStateM.Result.ok.inj hret
  obtain ⟨t, rest, -, rfl⟩ := Multisign.loadFromBin_eq_ok_iff.mp (withinState_eq_ok_iff.mp hload).1
  intro sys type htype hallowed
  have hcount := ((Multisign.multiSignVerify_eq_ok_iff.mp hverify).1 sys type htype).1
  rw [← hcount, MultiCryptoStrings.getCountKeysInSystem, Multisign.cryptolistsGeneral_load,
    ← CryptoSystemType.nr_of_ofInt htype]
  cases type <;> first | rfl | cases hallowed

/-- A tunnel that was not there was made for the key. -/
private theorem builtFor_of_addTunnelToPubkey {pubkey : HashipPubkey} {hip : HashipAddr} {ct : TunnelUse}
    (hnew : hip ∉ node.tunnel)
    (h : (finalState (addTunnelToPubkey lib pubkey) node).tunnel[hip]? = some ct) :
    BuiltFor lib node.myIDC pubkey ct := by
  let I : Tunserver → Prop := fun node' => node'.myIDC = node.myIDC ∧
    ∀ ct, node'.tunnel[hip]? = some ct → BuiltFor lib node.myIDC pubkey ct
  have hpres : Preserves I (addTunnelToPubkey lib pubkey) := by
    refine .bind (.bind .within fun _ => .bind (.fromExcept _) fun _ => .pure _) fun addr =>
      .bind (.fromExcept _) fun hip' => .get_bind fun node' h' => ?_
    split
    · exact h'
    · have hcrypto : Preserves I (crypto (TunnelUse.new lib node'.myIDC pubkey)) :=
        .zoom fun draws node'' h'' => h''
      refine hcrypto.bind_of (fun node₁ ct node₂ h₁ hrun h₂ => ?_) node' h'
      obtain ⟨draws, hnew, rfl⟩ := zoom_eq_ok_iff.mp hrun
      refine ⟨h₂.1, fun ct' hget => ?_⟩
      change (node₁.tunnel.insert hip' ct)[hip]? = some ct' at hget
      rw [Std.ExtTreeMap.getElem?_insert] at hget
      split at hget
      · obtain rfl := Option.some.inj hget
        exact ⟨_, _, h'.1 ▸ hnew⟩
      · exact h₂.2 ct' hget
  refine (hpres node ⟨rfl, fun ct hget => ?_⟩).2 ct h
  rw [Std.ExtTreeMap.getElem?_eq_none hnew] at hget
  cases hget

/-- What has to return before a tunnel is made has returned. -/
private theorem exists_ok_of_tunnel {α : Type} {p : Node α} {f : α → Node Unit} {hip : HashipAddr}
    {ct : TunnelUse}
    (hp : ∀ I : Tunserver → Prop, Preserves I p) (hnew : hip ∉ node.tunnel)
    (hget : (finalState (p >>= f) node).tunnel[hip]? = some ct) : ∃ a, p node = .ok a node := by
  cases hreturned : returned p node with
  | some a => exact ⟨a, eq_ok_of_returned hp hreturned⟩
  | none =>
    obtain ⟨e, he⟩ := exists_error_of_not_returned hp hreturned
    rw [finalState_bind_of_error he, Std.ExtTreeMap.getElem?_eq_none hnew] at hget
    cases hget

/-- With the three strings that are read from a greeting, the peer is met. -/
theorem finalState_handlePublicHi {senderPip : Ip46Addr} {greeting binHisIDCPub binHisIDIPub : Bytes}
    {binHisIDIIDCSig : Bytes} (hpop : (within (parserOfBuffer greeting) popPublicHi : Node _) node =
      .ok (binHisIDCPub, binHisIDIPub, binHisIDIIDCSig) node) :
    finalState (handlePublicHi lib senderPip greeting) node =
      finalState (meet lib senderPip binHisIDCPub binHisIDIPub binHisIDIIDCSig) node := by
  refine (finalState_bind_of_ok hpop).trans (finalState_catching_pure fun e q hq => ⟨(), ?_⟩)
  split at hq
  · exact (Option.some.inj hq).symm
  · cases hq

/-- To add a peer leaves the tunnels alone. -/
theorem tunnel_addPeerAppendPubkey (hisRef : PeeringReference) (hisPubkey : HashipPubkey) :
    (finalState (addPeerAppendPubkey lib hisRef hisPubkey) node).tunnel = node.tunnel ∧
      (finalState (addPeerAppendPubkey lib hisRef hisPubkey) node).myIDC = node.myIDC ∧
      (finalState (addPeerAppendPubkey lib hisRef hisPubkey) node).ipv6Prefix = node.ipv6Prefix := by
  obtain heq | ⟨-, peering, -, heq⟩ : _ = node ∨ HasHip lib hisPubkey hisRef.hashipAddr ∧
      ∃ peering, Met node hisRef hisPubkey peering ∧ _ = node.putPeer hisRef.hashipAddr peering :=
    finalState_addPeerAppendPubkey hisRef hisPubkey node
  · rw [heq]
    exact ⟨rfl, rfl, rfl⟩
  · rw [heq]
    exact ⟨rfl, rfl, rfl⟩

/-- A tunnel that a greeting leads to was made for the identity of the other node, and that has only keys
to sign with. -/
theorem GetsTunnel.builtFor {senderPip : Ip46Addr} {ct : TunnelUse}
    (h : node.GetsTunnel lib senderPip data ct) (hgreets : other.Greets data) :
    other.myIDIPub.OnlySigns ∧
      BuiltFor lib node.myIDC (other.myIDIPub.received node.ipv6Prefix) ct := by
  obtain ⟨hip, hnew, hget⟩ := h
  obtain ⟨binIDCPub, binIDIPub, binIDIIDCSig, hlimIDC, hlimIDI, hserialized, rfl⟩ :=
    hgreets.exists_greetingBin
  set greeting := greetingBin binIDCPub binIDIPub binIDIIDCSig with hgreeting
  have hhandle : finalState (handleDatagram lib senderPip (cmdOctets .publicHi greeting)) node =
      finalState (handlePublicHi lib senderPip greeting) node :=
    finalState_congr (handleDatagram_of_cmd (datagramCmd_cmdOctets .publicHi greeting))
  rw [hhandle] at hget
  -- the three strings are read
  obtain ⟨⟨binHisIDCPub, binHisIDIPub, binHisIDIIDCSig⟩, hpop⟩ :=
    exists_ok_of_tunnel (fun _ => Preserves.within) hnew hget
  obtain ⟨c, hread⟩ := (within_eq_ok_iff.mp hpop).1
  obtain ⟨hbin, hsane⟩ := eq_of_popPublicHi hlimIDC hlimIDI hread
  obtain rfl : binHisIDIPub = binIDIPub := hbin
  rw [finalState_handlePublicHi hpop] at hget
  -- the signature is good, and the keys are those of the other node
  obtain ⟨⟨hisRef, hisPubkey⟩, hreadHis⟩ :=
    exists_ok_of_tunnel (fun _ => preserves_readHis _ _ _ _) hnew hget
  obtain ⟨_, _, hnode, hreadHis'⟩ := bind_eq_ok_iff.mp hreadHis
  obtain ⟨rfl, rfl⟩ := EStateM.Result.ok.inj hnode
  obtain ⟨hisIDI, node₁, hhisIDI, hreadHis'⟩ := bind_eq_ok_iff.mp hreadHis'
  have hwritten := writtenAs_of_ofBin hserialized hsane hhisIDI
  obtain ⟨rfl, rfl⟩ := EStateM.Result.ok.inj ((hwritten.ofBin _).symm.trans hhisIDI)
  obtain ⟨sigs, node₂, hsigs, hreadHis'⟩ := bind_eq_ok_iff.mp hreadHis'
  obtain ⟨_, node₃, hverify, -⟩ := bind_eq_ok_iff.mp hreadHis'
  refine ⟨onlySigns_of_multiSignVerify hsigs hverify, ?_⟩
  -- meeting the peer leaves the tunnels alone
  rw [meet, finalState_bind_of_ok hreadHis] at hget
  dsimp only at hget
  obtain ⟨htunnel, hIDC, hstart⟩ :
      (finalState (addPeerAppendPubkey lib hisRef hisPubkey) node).tunnel = node.tunnel ∧ _ ∧ _ :=
    tunnel_addPeerAppendPubkey hisRef hisPubkey
  cases hrun : addPeerAppendPubkey lib hisRef hisPubkey node with
  | error e node' =>
    rw [finalState_of_error hrun] at htunnel
    rw [finalState_bind_of_error hrun, htunnel, Std.ExtTreeMap.getElem?_eq_none hnew] at hget
    cases hget
  | ok u node' =>
    rw [finalState_of_ok hrun] at htunnel hIDC hstart
    rw [finalState_bind_of_ok hrun, finalState_bind_of_ok (get_apply node'),
      finalState_bind_of_ok (hwritten.ofBin node')] at hget
    have hbuilt := builtFor_of_addTunnelToPubkey (htunnel ▸ hnew) hget
    rwa [hIDC, hstart] at hbuilt

/-! ### Both ends -/

/-- The hash of the keys of the node's session is above the one of the identity of the other node. The keys of
the other identity are taken as they are read from a greeting, so that a hash which was cached by its owner
plays no role. -/
def IDCAbove (lib : CryptoLib) (node other : Tunserver) : Prop :=
  ∃ hash hash', node.myIDC.pub.readHash lib () = .ok hash () ∧
    (other.myIDIPub.received node.ipv6Prefix).readHash lib () = .ok hash' () ∧
      compare hash hash' = .gt

/-- The tunnel that a greeting leads to has the key without a secret, and the parity of the comparison. -/
theorem GetsTunnel.boxer_eq {senderPip : Ip46Addr} {ct : TunnelUse}
    (h : node.GetsTunnel lib senderPip data ct) (hgreets : other.Greets data) :
    ct.streamCryptoAb.boxer =
        some { odd := ct.streamCryptoAb.nonceOdd, key := noSecretKey lib, count := 0 } ∧
      (ct.streamCryptoAb.nonceOdd = true ↔ node.IDCAbove lib other) := by
  obtain ⟨honly, draw, draw', hnew⟩ := h.builtFor hgreets
  obtain ⟨hash, hash', hhash, hhash', rfl⟩ := CryptoTunnel.of_new_eq_ok hnew
  constructor
  · have honly' : (other.myIDIPub.received node.ipv6Prefix).OnlySigns := honly
    change some (_ : Boxer) = some _
    rw [sessionKey_eq_noSecretKey honly']
    rfl
  · change (compare hash hash').isGT = true ↔ _
    rw [Ordering.isGT_iff_eq_gt]
    constructor
    · exact fun hgt => ⟨hash, hash', hhash, hhash', hgt⟩
    · rintro ⟨hash₁, hash₁', hhash₁, hhash₁', hgt⟩
      obtain ⟨rfl, -⟩ := EStateM.Result.ok.inj (hhash.symm.trans hhash₁)
      obtain ⟨rfl, -⟩ := EStateM.Result.ok.inj (hhash'.symm.trans hhash₁')
      exact hgt

end Greeting

section Ends

variable {lib : CryptoLib} {A B : Tunserver} {pipA pipB : Ip46Addr} {dataA dataB : Bytes}
  {ctA ctB : TunnelUse}

/-- Two nodes that have greeted each other, and have both got a tunnel by that, take opposite parities and
never use the same nonce with the same key, if and only if exactly one of the two has a session whose hash is
above the one of the identity of the other. The condition is about the four hashes that are compared, two at
each end, and holds or fails with the keys that the two nodes have made, not with what they do later. -/
theorem noncesApart_iff (laws : NonceLaws lib) (hgreetsA : A.Greets dataA) (hgreetsB : B.Greets dataB)
    (hA : A.GetsTunnel lib pipB dataB ctA) (hB : B.GetsTunnel lib pipA dataA ctB) :
    CryptoTunnel.NoncesApart lib ctA ctB ↔ (A.IDCAbove lib B ↔ ¬ B.IDCAbove lib A) := by
  obtain ⟨hboxerA, hoddA⟩ := hA.boxer_eq hgreetsB
  obtain ⟨hboxerB, hoddB⟩ := hB.boxer_eq hgreetsA
  have hparity : ctA.streamCryptoAb.nonceOdd = (!ctB.streamCryptoAb.nonceOdd) ↔
      (A.IDCAbove lib B ↔ ¬ B.IDCAbove lib A) := by
    rw [← hoddA, ← hoddB, Bool.eq_iff_iff, Bool.not_eq_true', Bool.not_eq_true]
  rw [← hparity]
  exact ⟨CryptoTunnel.NoncesApart.nonceOdd,
    CryptoTunnel.NoncesApart.of_nonceOdd laws hboxerA hboxerB rfl rfl⟩

/-- With the same parity at both ends, their first messages are boxed with the same key and nonce. Whoever
sees both boxes has two messages under one key and nonce. -/
theorem used_of_nonceOdd_eq (hgreetsA : A.Greets dataA) (hgreetsB : B.Greets dataB)
    (hA : A.GetsTunnel lib pipB dataB ctA) (hB : B.GetsTunnel lib pipA dataA ctB)
    (hodd : ctA.streamCryptoAb.nonceOdd = ctB.streamCryptoAb.nonceOdd) {nonce : Bytes}
    (hnonce : lib.nonceAt ctA.streamCryptoAb.nonceOdd 0 = .ok nonce) {msgA msgB cipherA cipherB : Bytes}
    (hcipherA : lib.secretbox (noSecretKey lib) nonce msgA = .ok cipherA)
    (hcipherB : lib.secretbox (noSecretKey lib) nonce msgB = .ok cipherB) :
    (noSecretKey lib, nonce) ∈ ctA.usedAb lib [msgA] ∧
      (noSecretKey lib, nonce) ∈ ctB.usedAb lib [msgB] := by
  obtain ⟨hboxerA, -⟩ := hA.boxer_eq hgreetsB
  obtain ⟨hboxerB, -⟩ := hB.boxer_eq hgreetsA
  exact ⟨CryptoTunnel.mem_usedAb_singleton hboxerA hnonce hcipherA,
    CryptoTunnel.mem_usedAb_singleton hboxerB (hodd ▸ hnonce) hcipherB⟩

end Ends

/-! ### Nodes with keys of their own -/

private theorem nonceLaws_sample : NonceLaws CryptoLib.sample where
  apart h h' := by
    obtain rfl := Except.ok.inj h
    exact absurd (List.cons.inj (Except.ok.inj h')).1 (by decide)

/-- An identity with one key to sign with. -/
def identity (k : UInt8) : MultikeysPAIR :=
  MultikeysPAIR.new.addPublicAndPRIVATE CryptoSystemType.ed25519.nr [k] [k]

/-- A node with an identity, and a session. -/
def identifiedNode (IDC : MultikeysPAIR) (k : UInt8) : Tunserver :=
  Tunserver.new IDC (identity k).pub (sampleHip k) (sampleKey k).ipv6Prefix 0

/-- The public key of a set with one key, as it is sent. -/
def oneKeyBin (letter k : UInt8) : Bytes := [71, 77, 75, 97, 111, 1, letter, 1, 1, k]

/-- The greeting of a node, whose identity has signed the key of the session. -/
def signedGreeting (letter session k : UInt8) : Bytes :=
  cmdOctets .publicHi (greetingBin (oneKeyBin letter session) (oneKeyBin 101 k)
    ([6, 1, 11, k] ++ oneKeyBin letter session ++ [11, 0]))

/-- The address of an identity. -/
def identityHip (k : UInt8) : HashipAddr :=
  ⟨[253, 66, 71, 77, 75, 97, 102, 1, 1, 101, 64, k, 0, 0, 0, 0], rfl⟩

private theorem greets_identifiedNode {IDC : MultikeysPAIR} {letter session k : UInt8}
    (hIDC : IDC.pub.WrittenAs (oneKeyBin letter session))
    (hIDI : (identity k).pub.WrittenAs (oneKeyBin 101 k))
    (hsig : (Multisign.new.addSignature CryptoSystemType.ed25519.nr
      (k :: oneKeyBin letter session)).WrittenAs ([6, 1, 11, k] ++ oneKeyBin letter session ++ [11, 0])) :
    (identifiedNode IDC k).Greets (signedGreeting letter session k) := by
  have hsend : (Peering.new { peeringAddr := samplePip k, hashipAddr := sampleHip k }).Sendable := rfl
  exact ⟨_, _, identifiedNode IDC k,
    (pingPeer_eq hIDC hIDI hsig).trans (Peering.sendDataRAWUdp_of_sendable hsend rfl)⟩

private theorem getsTunnel_of_isSome {lib : CryptoLib} {node : Tunserver} {senderPip : Ip46Addr}
    {data : Bytes}
    (hip : HashipAddr) {odd : Bool} (hnew : hip ∉ node.tunnel)
    (h : ((finalState (handleDatagram lib senderPip data) node).tunnel[hip]?.map fun ct =>
      ct.streamCryptoAb.nonceOdd) = some odd) :
    ∃ ct, node.GetsTunnel lib senderPip data ct ∧ ct.streamCryptoAb.nonceOdd = odd := by
  obtain ⟨ct, hct, hodd⟩ := Option.map_eq_some_iff.mp h
  exact ⟨ct, ⟨hip, hnew, hct⟩, hodd⟩

/-- A node whose session is below all identities, and one whose session is above them. -/
theorem noncesApart_iff_example :
    ∃ ctA ctB, (identifiedNode (identity 0) 1).GetsTunnel CryptoLib.sample (samplePip 2)
        (signedGreeting 120 2 2) ctA ∧
      (identifiedNode (x25519Pair [2]) 2).GetsTunnel CryptoLib.sample (samplePip 1)
        (signedGreeting 101 0 1) ctB ∧
      CryptoTunnel.NoncesApart CryptoLib.sample ctA ctB := by
  have hgreetsA : (identifiedNode (identity 0) 1).Greets (signedGreeting 101 0 1) :=
    greets_identifiedNode ⟨rfl, by with_unfolding_all rfl, by decide⟩
      ⟨rfl, by with_unfolding_all rfl, by decide⟩ ⟨by with_unfolding_all rfl, by decide⟩
  have hgreetsB : (identifiedNode (x25519Pair [2]) 2).Greets (signedGreeting 120 2 2) :=
    greets_identifiedNode ⟨rfl, by with_unfolding_all rfl, by decide⟩
      ⟨rfl, by with_unfolding_all rfl, by decide⟩ ⟨by with_unfolding_all rfl, by decide⟩
  obtain ⟨ctA, hA, hoddA⟩ : ∃ ct, (identifiedNode (identity 0) 1).GetsTunnel CryptoLib.sample
      (samplePip 2) (signedGreeting 120 2 2) ct ∧ ct.streamCryptoAb.nonceOdd = false :=
    getsTunnel_of_isSome (identityHip 2) (by decide +kernel) (by decide +kernel)
  obtain ⟨ctB, hB, hoddB⟩ : ∃ ct, (identifiedNode (x25519Pair [2]) 2).GetsTunnel CryptoLib.sample
      (samplePip 1) (signedGreeting 101 0 1) ct ∧ ct.streamCryptoAb.nonceOdd = true :=
    getsTunnel_of_isSome (identityHip 1) (by decide +kernel) (by decide +kernel)
  refine ⟨ctA, ctB, hA, hB, (noncesApart_iff nonceLaws_sample hgreetsA hgreetsB hA hB).mpr ?_⟩
  have haboveA : ¬ (identifiedNode (identity 0) 1).IDCAbove CryptoLib.sample
      (identifiedNode (x25519Pair [2]) 2) := by
    rw [← (hA.boxer_eq hgreetsB).2, hoddA]
    exact Bool.false_ne_true
  exact iff_of_false haboveA (not_not.mpr ((hB.boxer_eq hgreetsA).2.mp hoddB))

/-- Two nodes with keys as the program makes them, a session key of X25519 and an identity with a key of
Ed25519: both sessions are above the identities, and the first messages are boxed with the same key and the
same nonce. -/
theorem not_noncesApart :
    ¬ ∀ (lib : CryptoLib) (A B : Tunserver) (pipA pipB : Ip46Addr) (dataA dataB : Bytes)
        (ctA ctB : TunnelUse), NonceLaws lib → A.Greets dataA → B.Greets dataB →
      A.GetsTunnel lib pipB dataB ctA → B.GetsTunnel lib pipA dataA ctB →
      CryptoTunnel.NoncesApart lib ctA ctB := by
  intro h
  have hgreetsA : (identifiedNode (x25519Pair [1]) 1).Greets (signedGreeting 120 1 1) :=
    greets_identifiedNode ⟨rfl, by with_unfolding_all rfl, by decide⟩
      ⟨rfl, by with_unfolding_all rfl, by decide⟩ ⟨by with_unfolding_all rfl, by decide⟩
  have hgreetsB : (identifiedNode (x25519Pair [2]) 2).Greets (signedGreeting 120 2 2) :=
    greets_identifiedNode ⟨rfl, by with_unfolding_all rfl, by decide⟩
      ⟨rfl, by with_unfolding_all rfl, by decide⟩ ⟨by with_unfolding_all rfl, by decide⟩
  obtain ⟨ctA, hA, hoddA⟩ : ∃ ct, (identifiedNode (x25519Pair [1]) 1).GetsTunnel CryptoLib.sample
      (samplePip 2) (signedGreeting 120 2 2) ct ∧ ct.streamCryptoAb.nonceOdd = true :=
    getsTunnel_of_isSome (identityHip 2) (by decide +kernel) (by decide +kernel)
  obtain ⟨ctB, hB, hoddB⟩ : ∃ ct, (identifiedNode (x25519Pair [2]) 2).GetsTunnel CryptoLib.sample
      (samplePip 1) (signedGreeting 120 1 1) ct ∧ ct.streamCryptoAb.nonceOdd = true :=
    getsTunnel_of_isSome (identityHip 1) (by decide +kernel) (by decide +kernel)
  have hnonce : CryptoLib.sample.nonceAt ctA.streamCryptoAb.nonceOdd 0 = .ok [1] := by
    rw [hoddA]
    rfl
  have hbox : ∀ msg, CryptoLib.sample.secretbox (noSecretKey CryptoLib.sample) [1] msg = .ok msg :=
    fun _ => rfl
  obtain ⟨husedA, husedB⟩ := used_of_nonceOdd_eq hgreetsA hgreetsB hA hB (hoddA.trans hoddB.symm)
    hnonce (hbox [5]) (hbox [6])
  have hapart := h _ _ _ _ _ _ _ _ _ nonceLaws_sample hgreetsA hgreetsB hA hB
  exact hapart.used _ _ husedA husedB

end Tunserver

end Galaxy42
