import Galaxy42.Datastore.Loading
import Galaxy42.Tunserver.Greetings

/-!
# Sessions

When a node is started it makes a key for the session, and its identity signs that key (`configure_mykey`).
With this signature it greets its peers from then on. The two ends of that fit together: whatever has happened
to two nodes since they were started, a greeting that one of them sends is accepted by the other one, which then
has the sender as a peer, at the address that the greeting came from, and a tunnel for him, exactly when he is
not banned there (`met_of_greeting`).

And then they can talk. An identity that could sign its session has no other keys than keys to sign with, so no
secret is agreed on with it, and all tunnels that greetings make have the same key at both ends. They keep it. So
what one of two nodes that have met boxes for the other one arrives there as it was, however much later
(`talk_of_sessions`).

To be later in its life (`Later`) is the closure of all that may happen to a node, events as well as
operations of other threads. A session is a property of the keys of the node, and every event keeps it
(`InSession`); so is an open tunnel (`OpenFor`), which may have boxed any number of messages meanwhile.

That a greeting is accepted is an argument about both ends: what was signed when the sender was started is
what the receiver verifies, the keys are read as they were written, and the address that is calculated from
them is the one that the sender has. A greeting that is too long for the buffer of a datagram cannot be
received at all, so that is a condition. Whether the receiver has met the sender is remembered by one step in
its life (`HasMet`), in which it had no tunnel for it yet and got one of the greetings.

What is received is a datagram of a peer, as data of strangers are not looked at, and the packet is of a protocol
that nodes write to their cards.
-/

namespace Galaxy42

open Toolkit Program TrivialSerialize Tunserver

/-! ### Starting a session -/

section Configure

variable {σ : Type} (lib : CryptoLib)

/-- What is thrown when an address of our own is not one of the network. -/
def badHashIp (part : String) (hexdot : Bytes) : Exn :=
  .runtimeError ("Your Hash-IP address looks not valid (not a Galaxy42 address?) - the " ++ part ++
    " part is: [" ++ asText hexdot ++ "]")

/-- The test that an address of our own begins with `fd`. The address is in hexadecimal digits here, and the
two characters are those of the text. -/
def checkHashIp (part : String) (hexdot : Bytes) : Program Exn σ Unit := do
  let first ← vectorAt hexdot 0
  checkThat (first = 102) (badHashIp part hexdot)
  let second ← vectorAt hexdot 1
  checkThat (second = 100) (badHashIp part hexdot)

/-- The part of `configure_mykey` about the address of the identity. It is the address of the node. -/
def hipOfIDI (myIDIPub : MultikeysPub) : Program Exn σ HashipAddr := do
  let IDIIpBin ← myIDIPub.getIpv6StringBin lib
  let IDIIpHexdot ← myIDIPub.getIpv6StringHexdot lib
  let first ← vectorAt IDIIpBin 0
  checkThat (first = 0xFD) (badHashIp "IDI" IDIIpHexdot)
  checkHashIp "IDI" IDIIpHexdot
  fromExcept (HashipAddr.ofAddrDot IDIIpBin)

/-- The part of `configure_mykey` that makes the key of the session and signs it. The signature is verified at
once. -/
def signedIDC (PRV : MultikeysPRV) (myIDIPub : MultikeysPub) : Crypto (MultikeysPAIR × Multisign) := do
  let myIDC ← MultikeysPAIR.generateType lib MultikeysPAIR.new .x25519 1
  let IDCPubToSign ← myIDC.pub.serializeBin
  let IDCIDISignature ← Multisign.multiSign lib PRV IDCPubToSign
  Multisign.multiSignVerify lib IDCIDISignature IDCPubToSign myIDIPub
  return (myIDC, IDCIDISignature)

/-- The part of `configure_mykey` about the address of the session, which is only looked at. -/
def checkHipOfIDC (myIDCPub : MultikeysPub) : Program Exn σ Unit := do
  let IDCIpHexdot ← myIDCPub.getIpv6StringHexdot lib
  checkHashIp "IDC" IDCIpHexdot
  let IDCIpBin ← myIDCPub.getIpv6StringBin lib
  let _ ← fromExcept (HashipAddr.ofAddrDot IDCIpBin)

/-- `configure_mykey`, with the identity that was loaded from the datastore: its private keys, and what
the file of its public keys holds. What the node keeps as `m_IDI_IDC_sig` is returned. -/
def Tunserver.configureMykey (PRV : MultikeysPRV) (storedPub : Bytes) : Node Multisign := do
  let node ← get
  let myIDIPub ← MultikeysPub.ofBin storedPub
  let myIDIPub := myIDIPub.setIpv6Prefix node.ipv6Prefix
  let IDIHip ← hipOfIDI lib myIDIPub
  let (myIDC, IDCIDISignature) ← crypto (signedIDC lib PRV myIDIPub)
  modify fun node => { node with myIDIPub }
  checkHipOfIDC lib myIDC.pub
  modify fun node => { node with
    myHip := IDIHip
    myIDC := { myIDC with pub := myIDC.pub.setIpv6Prefix node.ipv6Prefix } }
  return IDCIDISignature

end Configure

/-- A node is in a session that its identity has signed. The signature is the one that the node sends with its
greetings. -/
structure InSession (lib : CryptoLib) (sig : Multisign) (node : Tunserver) : Prop where
  loaded : node.myIDIPub.received node.ipv6Prefix = node.myIDIPub
  addr : node.myIDIPub.getIpv6StringBin lib () = .ok node.myHip.octets ()
  galaxy : addrIsGalaxy node.myHip = true
  onlySigning : sig.OnlySigning
  signed : ∃ bin, node.myIDC.pub.serializeBin () = .ok bin () ∧
    Multisign.multiSignVerify lib sig bin node.myIDIPub () = .ok () ()
  hashed : ∃ hash, node.myIDC.pub.readHash lib () = .ok hash ()

section Session

variable {lib : CryptoLib} {sig : Multisign} {node node' : Tunserver}

/-- Public keys that were loaded are what they are when they have been sent. -/
private theorem received_of_ofBin {σ : Type} {bin : Bytes} {pub : MultikeysPub} {s s' : σ}
    (h : MultikeysPub.ofBin bin s = .ok pub s') (ipv6Prefix : Bytes) :
    (pub.setIpv6Prefix ipv6Prefix).received ipv6Prefix = pub.setIpv6Prefix ipv6Prefix := by
  obtain ⟨⟨u, m⟩, s₁, hload, hret⟩ := bind_eq_ok_iff.mp h
  obtain ⟨rfl, -⟩ := EStateM.Result.ok.inj hret
  obtain ⟨t, -, rfl⟩ := MultiCryptoStrings.loadFromBin_eq_ok_iff.mp (withinState_eq_ok_iff.mp hload).1
  rfl

/-- The address of an identity that passes the tests is one of the network. -/
private theorem of_hipOfIDI {σ : Type} {myIDIPub : MultikeysPub} {hip : HashipAddr} {s s' : σ}
    (h : hipOfIDI lib myIDIPub s = .ok hip s') :
    myIDIPub.getIpv6StringBin lib () = .ok hip.octets () ∧ addrIsGalaxy hip = true := by
  obtain ⟨addr, s₁, haddr, h⟩ := bind_eq_ok_iff.mp h
  obtain ⟨hexdot, s₂, -, h⟩ := bind_eq_ok_iff.mp h
  obtain ⟨first, s₃, hfirst, h⟩ := bind_eq_ok_iff.mp h
  obtain ⟨_, s₄, hcheck, h⟩ := bind_eq_ok_iff.mp h
  obtain ⟨_, s₅, -, h⟩ := bind_eq_ok_iff.mp h
  have hdot := (fromExcept_eq_ok_iff.mp h).1
  unfold HashipAddr.ofAddrDot HashipAddr.ofOctets at hdot
  split at hdot
  next hlen =>
    obtain rfl := Except.ok.inj hdot
    obtain ⟨rfl, -⟩ := checkThat_eq_ok_iff.mp hcheck
    exact ⟨(getIpv6StringBin_eq_ok_iff.mp haddr).1, decide_eq_true (vectorAt_eq_ok_iff.mp hfirst).1⟩
  · cases hdot

/-- A session is signed by systems that can sign, and the signature was tested. -/
private theorem of_signedIDC {PRV : MultikeysPRV} {myIDIPub : MultikeysPub} {myIDC : MultikeysPAIR}
    {draw draw' : ℕ}
    (h : signedIDC lib PRV myIDIPub draw = .ok (myIDC, sig) draw') :
    sig.OnlySigning ∧ ∃ bin, myIDC.pub.serializeBin () = .ok bin () ∧
      Multisign.multiSignVerify lib sig bin myIDIPub () = .ok () () := by
  obtain ⟨IDC, draw₁, -, h⟩ := bind_eq_ok_iff.mp h
  obtain ⟨bin, draw₂, hbin, h⟩ := bind_eq_ok_iff.mp h
  obtain ⟨sig', draw₃, hsign, h⟩ := bind_eq_ok_iff.mp h
  obtain ⟨_, draw₄, hverify, h⟩ := bind_eq_ok_iff.mp h
  obtain ⟨⟨rfl, rfl⟩, -⟩ := EStateM.Result.ok.inj h
  obtain ⟨hfit, rfl, -⟩ := MultiCryptoStrings.serializeBin_eq_ok_iff.mp hbin
  exact ⟨fun sys hsys => (Multisign.signSystems_of_eq_ok hsign).1 sys hsys,
    _, MultiCryptoStrings.serializeBin_eq_ok_iff.mpr ⟨hfit, rfl, rfl⟩,
    Multisign.multiSignVerify_eq_ok_iff.mpr ⟨(Multisign.multiSignVerify_eq_ok_iff.mp hverify).1, rfl⟩⟩

/-- The hash of a session whose address was looked at can be made. -/
private theorem of_checkHipOfIDC {σ : Type} {myIDCPub : MultikeysPub} {u : Unit} {s s' : σ}
    (h : checkHipOfIDC lib myIDCPub s = .ok u s') : ∃ hash, myIDCPub.readHash lib () = .ok hash () := by
  obtain ⟨hexdot, s₁, hhexdot, -⟩ := bind_eq_ok_iff.mp h
  obtain ⟨hex, s₂, hhex, -⟩ := bind_eq_ok_iff.mp hhexdot
  obtain ⟨bin, s₃, hbin, -⟩ := bind_eq_ok_iff.mp hhex
  obtain ⟨hash, _, hhash, -⟩ := bind_eq_ok_iff.mp (getIpv6StringBin_eq_ok_iff.mp hbin).1
  exact ⟨hash, hhash⟩

private theorem preserves_hipOfIDI {I : Tunserver → Prop} (myIDIPub : MultikeysPub) :
    Preserves I (hipOfIDI lib myIDIPub) :=
  .bind (preserves_getIpv6StringBin _) fun _ => .bind (.bind (.bind (preserves_getIpv6StringBin _)
    fun _ => .fromExcept _) fun _ => .pure _) fun _ => .bind (preserves_vectorAt _ _) fun _ =>
      .bind (.checkThat _ _) fun _ => .bind (.bind (preserves_vectorAt _ _) fun _ =>
        .bind (.checkThat _ _) fun _ => .bind (preserves_vectorAt _ _) fun _ => .checkThat _ _)
        fun _ => .fromExcept _

private theorem preserves_checkHipOfIDC {I : Tunserver → Prop} (myIDCPub : MultikeysPub) :
    Preserves I (checkHipOfIDC lib myIDCPub) :=
  .bind (.bind (.bind (preserves_getIpv6StringBin _) fun _ => .fromExcept _) fun _ => .pure _) fun _ =>
    .bind (.bind (preserves_vectorAt _ _) fun _ => .bind (.checkThat _ _) fun _ =>
      .bind (preserves_vectorAt _ _) fun _ => .checkThat _ _) fun _ =>
        .bind (preserves_getIpv6StringBin _) fun _ => .bind (.fromExcept _) fun _ => .pure _

/-- What returns without changing a node leaves it as it was. -/
theorem eq_of_preserves {α : Type} {p : Node α} {a : α} (hp : ∀ I : Tunserver → Prop, Preserves I p)
    (h : p node = .ok a node') : node' = node := by
  have hstate := hp (fun node₁ => node₁ = node) node rfl
  rwa [finalState_of_ok h] at hstate

/-- A node that was configured is in a session. The rest of it is as it was. -/
theorem inSession_of_configureMykey {PRV : MultikeysPRV} {storedPub : Bytes}
    (h : configureMykey lib PRV storedPub node = .ok sig node') :
    InSession lib sig node' ∧ ∃ myIDC myIDIPub myHip draws,
      node' = { node with myIDC, myIDIPub, myHip, draws } := by
  rw [configureMykey, bind_of_ok (get_apply node)] at h
  obtain ⟨pub, node₁, hpub, h⟩ := bind_eq_ok_iff.mp h
  obtain rfl := eq_of_preserves (fun _ => preserves_multikeysOfBin _) hpub
  obtain ⟨hip, node₂, hhip, h⟩ := bind_eq_ok_iff.mp h
  obtain rfl := eq_of_preserves (fun _ => preserves_hipOfIDI _) hhip
  obtain ⟨⟨IDC, sig'⟩, node₃, hsigned, h⟩ := bind_eq_ok_iff.mp h
  obtain ⟨draws, hIDC, rfl⟩ := zoom_eq_ok_iff.mp hsigned
  dsimp only at h
  rw [bind_of_ok (modify_apply _ _)] at h
  obtain ⟨_, node₄, hcheck, h⟩ := bind_eq_ok_iff.mp h
  obtain rfl := eq_of_preserves (fun _ => preserves_checkHipOfIDC _) hcheck
  rw [bind_of_ok (modify_apply _ _)] at h
  obtain ⟨rfl, rfl⟩ := EStateM.Result.ok.inj h
  obtain ⟨haddr, hgalaxy⟩ := of_hipOfIDI hhip
  obtain ⟨honly, bin, hbin, hverify⟩ := of_signedIDC hIDC
  obtain ⟨hash, hhash⟩ := of_checkHipOfIDC hcheck
  exact ⟨⟨received_of_ofBin hpub _, haddr, hgalaxy, honly, ⟨bin, hbin, hverify⟩, hash, hhash⟩, _, _, _, _, rfl⟩

/-! ### During a session -/

/-- Whatever happens to a node, it keeps the keys of its session and its address. Only `configure_mykey` sets
them. -/
theorem session_run (lib : CryptoLib) (event : Event) (node : Tunserver) :
    (finalState (event.run lib) node).myIDC = node.myIDC ∧
      (finalState (event.run lib) node).myHip = node.myHip := by
  have hclosed : Closed fun node' => node'.myIDC = node.myIDC ∧ node'.myHip = node.myHip := by
    refine ⟨fun _ _ _ _ _ h => h, fun _ _ _ _ _ h => h, fun dst reason searchTtl node' h => ?_⟩
    obtain ⟨m, hm, -⟩ := finalState_searchRoute dst reason searchTtl node'
    rw [hm]
    exact h
  exact hclosed.run ⟨rfl, rfl⟩ ⟨fun _ _ _ => ⟨rfl, rfl⟩, fun _ _ _ => ⟨rfl, rfl⟩, fun _ => ⟨rfl, rfl⟩⟩

namespace InSession

private theorem of_eq (h : InSession lib sig node) (hIDC : node'.myIDC = node.myIDC)
    (hIDI : node'.myIDIPub = node.myIDIPub) (hhip : node'.myHip = node.myHip)
    (hpre : node'.ipv6Prefix = node.ipv6Prefix) : InSession lib sig node' where
  loaded := by rw [hIDI, hpre, h.loaded]
  addr := by rw [hIDI, hhip, h.addr]
  galaxy := by rw [hhip, h.galaxy]
  onlySigning := h.onlySigning
  signed := by
    rw [hIDC, hIDI]
    exact h.signed
  hashed := by
    rw [hIDC]
    exact h.hashed

/-- The session goes on. -/
theorem run (h : InSession lib sig node) (event : Event) :
    InSession lib sig (finalState (event.run lib) node) := by
  obtain ⟨hIDC, hhip⟩ := session_run lib event node
  obtain ⟨hIDI, hpre⟩ := identity_run lib event node
  exact h.of_eq hIDC hIDI hhip hpre

/-- The address is the one of the identity. -/
private theorem hasHip (h : InSession lib sig node) : HasHip lib node.myIDIPub node.myHip :=
  hasHip_of_getIpv6StringBin h.addr (HashipAddr.ofAddrBin_eq_ok_iff.mpr rfl)

/-- An identity that has signed a session has no other keys than keys to sign with. -/
private theorem onlySigns (h : InSession lib sig node) : node.myIDIPub.OnlySigns := by
  obtain ⟨bin, -, hverify⟩ := h.signed
  intro sys type htype hallowed
  have hcount := ((Multisign.multiSignVerify_eq_ok_iff.mp hverify).1 sys type htype).1
  have hnot : ¬ Multisign.Signing sys := by
    rintro ⟨type', htype', hallowed'⟩
    obtain rfl : type = type' := Option.some.inj (htype.symm.trans htype')
    rw [hallowed] at hallowed'
    cases hallowed'
  rw [← hcount, MultiCryptoStrings.getCountKeysInSystem, h.onlySigning sys hnot]
  rfl

end InSession

/-- A node later in its life, whatever has happened to it. Events and operations of other threads are among
it, in any order and number. -/
def Later (lib : CryptoLib) : Tunserver → Tunserver → Prop :=
  Relation.ReflTransGen fun node node' => ∃ event : Event, node' = finalState (event.run lib) node

/-- What every event preserves holds later. -/
theorem Later.induction {I : Tunserver → Prop} (hlater : Later lib node node')
    (hI : ∀ (event : Event) node, I node → I (finalState (event.run lib) node)) (h : I node) : I node' := by
  induction hlater with
  | refl => exact h
  | tail _ hevent ih =>
    obtain ⟨event, rfl⟩ := hevent
    exact hI event _ ih

private theorem InSession.later (h : InSession lib sig node) (hlater : Later lib node node') :
    InSession lib sig node' :=
  hlater.induction (fun event _ h => h.run event) h

/-- A node has the same keys and address all the time. -/
theorem Later.keys (hlater : Later lib node node') :
    node'.myIDC = node.myIDC ∧ node'.myIDIPub = node.myIDIPub ∧ node'.myHip = node.myHip ∧
      node'.ipv6Prefix = node.ipv6Prefix := by
  refine hlater.induction (I := fun node' => node'.myIDC = node.myIDC ∧ node'.myIDIPub = node.myIDIPub ∧
    node'.myHip = node.myHip ∧ node'.ipv6Prefix = node.ipv6Prefix) (fun event node₁ h => ?_) ⟨rfl, rfl, rfl, rfl⟩
  obtain ⟨hIDC, hhip⟩ := session_run lib event node₁
  obtain ⟨hIDI, hpre⟩ := identity_run lib event node₁
  rwa [hIDC, hhip, hIDI, hpre]

/-! ### Pings -/

/-- The octets of the greetings of a session. They are the same for all peers. -/
def GreetingOf (sig : Multisign) (node : Tunserver) (data : Bytes) : Prop :=
  ∃ binIDCPub binIDIPub binIDIIDCSig, node.myIDC.pub.serializeBin () = .ok binIDCPub () ∧
    node.myIDIPub.serializeBin () = .ok binIDIPub () ∧ sig.serializeBin () = .ok binIDIIDCSig () ∧
      data = cmdOctets .publicHi (greetingBin binIDCPub binIDIPub binIDIIDCSig)

/-- What a greeting is made of. -/
private theorem of_generate_greeting {self : Tunserver} {cmdData : Bytes} {s s' : Tunserver}
    (h : (generate do
      pushVarstring (← self.myIDC.pub.serializeBin)
      pushVarstring (← self.myIDIPub.serializeBin)
      pushVarstring (← sig.serializeBin) : Node Bytes) s = .ok cmdData s') :
    GreetingOf sig self (cmdOctets .publicHi cmdData) := by
  obtain ⟨hwrite, -⟩ := generate_eq_ok_iff.mp h
  have hpush : ∀ {bin out out' : Bytes} {u : Unit}, pushVarstring bin out = .ok u out' →
      out' = out ++ varstringOctets bin := fun h => ((emits_pushVarstring _ _ _).mp h).2
  have hserialize : ∀ {m : MultiCryptoStrings} {bin out out' : Bytes},
      m.serializeBin out = .ok bin out' → m.serializeBin () = .ok bin () ∧ out' = out := fun h => by
    obtain ⟨hfit, rfl, rfl⟩ := MultiCryptoStrings.serializeBin_eq_ok_iff.mp h
    exact ⟨MultiCryptoStrings.serializeBin_eq_ok_iff.mpr ⟨hfit, rfl, rfl⟩, rfl⟩
  obtain ⟨binIDCPub, out₁, hIDC, hwrite⟩ := bind_eq_ok_iff.mp hwrite
  obtain ⟨_, out₂, hpushIDC, hwrite⟩ := bind_eq_ok_iff.mp hwrite
  obtain ⟨binIDIPub, out₃, hIDI, hwrite⟩ := bind_eq_ok_iff.mp hwrite
  obtain ⟨_, out₄, hpushIDI, hwrite⟩ := bind_eq_ok_iff.mp hwrite
  obtain ⟨binIDIIDCSig, out₅, hsig, hwrite⟩ := bind_eq_ok_iff.mp hwrite
  obtain ⟨hIDCbin, rfl⟩ := hserialize hIDC
  obtain rfl := hpush hpushIDC
  obtain ⟨hIDIbin, rfl⟩ := hserialize hIDI
  obtain rfl := hpush hpushIDI
  obtain ⟨hfit, rfl, rfl⟩ := Multisign.serializeBin_eq_ok_iff.mp hsig
  obtain rfl := hpush hwrite
  refine ⟨binIDCPub, binIDIPub, _, hIDCbin, hIDIbin, Multisign.serializeBin_eq_ok_iff.mpr ⟨hfit, rfl, rfl⟩, ?_⟩
  rw [greetingBin, List.nil_append, List.append_assoc]

/-- All that a node has sent since it was in another state are greetings of a session. -/
def OnlyGreetings (sig : Multisign) (node node' : Tunserver) : Prop :=
  ∃ new, node'.sent = new ++ node.sent ∧ ∀ d ∈ new, GreetingOf sig node d.2

/-- Pinging a peer sends a greeting, or nothing. -/
private theorem OnlyGreetings.pingPeer {self : Tunserver} (h : OnlyGreetings sig node node')
    (hIDC : self.myIDC = node.myIDC) (hIDI : self.myIDIPub = node.myIDIPub) (peering : Peering) :
    OnlyGreetings sig node (finalState (Tunserver.pingPeer self sig peering) node') := by
  let bin : Node Bytes := generate do
    pushVarstring (← self.myIDC.pub.serializeBin)
    pushVarstring (← self.myIDIPub.serializeBin)
    pushVarstring (← sig.serializeBin)
  have hbin : finalState bin node' = node' := preserves_generate (I := fun node₁ => node₁ = node') _ node' rfl
  have hping : Tunserver.pingPeer self sig peering = bin >>= peering.sendDataUdpCmd .publicHi := rfl
  cases hrun : bin node' with
  | error e node₁ =>
    rw [finalState_of_error hrun] at hbin
    rwa [hping, finalState_bind_of_error hrun, hbin]
  | ok cmdData node₁ =>
    rw [finalState_of_ok hrun] at hbin
    subst hbin
    rw [hping, finalState_bind_of_ok hrun, Peering.sendDataUdpCmd_eq, Peering.finalState_sendDataRAWUdp]
    split
    · obtain ⟨new, hsent, hall⟩ := h
      obtain ⟨binIDCPub, binIDIPub, binIDIIDCSig, hIDCbin, hIDIbin, hsig, hdata⟩ := of_generate_greeting hrun
      rw [hIDC] at hIDCbin
      rw [hIDI] at hIDIbin
      have hnew : (node₁.pushSent peering.getPip (cmdOctets .publicHi cmdData)).sent =
          (peering.getPip, cmdOctets .publicHi cmdData) :: (new ++ node.sent) :=
        congrArg ((peering.getPip, cmdOctets .publicHi cmdData) :: ·) hsent
      refine ⟨(peering.getPip, cmdOctets .publicHi cmdData) :: new, hnew, fun d hd => ?_⟩
      obtain rfl | hd := List.mem_cons.mp hd
      · exact ⟨binIDCPub, binIDIPub, binIDIIDCSig, hIDCbin, hIDIbin, hsig, hdata⟩
      · exact hall d hd
    · exact h

/-- What is sent when all peers are pinged are greetings of the session. -/
private theorem onlyGreetings_ping (lib : CryptoLib) (sig : Multisign) (enableRemove : Bool)
    (timedOut : HashipAddr → Bool) (node : Tunserver) :
    OnlyGreetings sig node (finalState ((Event.ping enableRemove timedOut sig).run lib) node) := by
  let pings : Node Unit := do
    let node ← get
    node.peer.toList.forM fun v => Tunserver.pingPeer node sig v.2
  have hpings : ∀ self : Tunserver, self.sent = node.sent → self.myIDC = node.myIDC →
      self.myIDIPub = node.myIDIPub → OnlyGreetings sig node (finalState pings self) := by
    intro self hsent hIDC hIDI
    rw [finalState_bind_of_ok (get_apply self)]
    have hstart : OnlyGreetings sig node self := ⟨[], hsent, fun _ hd => absurd hd List.not_mem_nil⟩
    exact Preserves.forM (fun v _ node₁ h₁ => h₁.pingPeer hIDC hIDI v.2) self hstart
  rw [finalState_run, Event.handle]
  cases enableRemove with
  | false =>
    have hping : peeringPingAllPeers false timedOut sig = pings := rfl
    rw [hping]
    exact hpings node rfl rfl rfl
  | true =>
    have hremove : peeringPingAllPeers true timedOut sig =
        (modify fun node => node.removePeers timedOut) >>= fun _ => pings := rfl
    rw [hremove, finalState_bind_of_ok (modify_apply _ node)]
    exact hpings (node.removePeers timedOut) rfl rfl rfl

private theorem greetingOf_of_ping {enableRemove : Bool} {timedOut : HashipAddr → Bool} {d : Ip46Addr × Bytes}
    (hd : d ∈ (finalState ((Event.ping enableRemove timedOut sig).run lib) node).sentSince node) :
    GreetingOf sig node d.2 := by
  obtain ⟨new, hsent, hall⟩ := onlyGreetings_ping lib sig enableRemove timedOut node
  rw [sentSince_of_append hsent] at hd
  exact hall d hd

/-! ### Being met -/

/-- A greeting that fits into the buffer of a datagram is made of strings that are short enough to be read. -/
private theorem sane_of_greetingBin {binIDCPub binIDIPub binIDIIDCSig : Bytes}
    (h : (cmdOctets .publicHi (greetingBin binIDCPub binIDIPub binIDIIDCSig)).length ≤ bufSize) :
    binIDCPub.length ≤ saneMaxSizeForString ∧ binIDIPub.length ≤ saneMaxSizeForString ∧
      binIDIIDCSig.length ≤ saneMaxSizeForString := by
  have hbuf : bufSize ≤ saneMaxSizeForString := by decide
  have hstring : ∀ bin : Bytes, bin.length ≤ (varstringOctets bin).length := fun bin =>
    (List.suffix_append _ bin).length_le
  have hIDC := hstring binIDCPub
  have hIDI := hstring binIDIPub
  have hsig := hstring binIDIIDCSig
  have hgreeting : (greetingBin binIDCPub binIDIPub binIDIIDCSig).length ≤ bufSize :=
    le_trans (List.suffix_append [_, _] _).length_le h
  rw [greetingBin, List.length_append, List.length_append] at hgreeting
  omega

/-- Verifying only depends on what the signatures are. -/
private theorem multiSignVerify_congr {sig' : Multisign} {msg : Bytes} {pubkeys : MultikeysPub}
    (hsame : sig'.cryptolistsGeneral = sig.cryptolistsGeneral)
    (h : Multisign.multiSignVerify lib sig msg pubkeys () = .ok () ()) {σ : Type} (s : σ) :
    Multisign.multiSignVerify lib sig' msg pubkeys s = .ok () s := by
  refine Multisign.multiSignVerify_eq_ok_iff.mpr ⟨fun sys type htype => ?_, rfl⟩
  have hverified := (Multisign.multiSignVerify_eq_ok_iff.mp h).1 sys type htype
  rwa [MultiCryptoStrings.getCountKeysInSystem, hsame]

namespace InSession

/-- The identity is written as the keys that it is read as. -/
private theorem writtenAs (h : InSession lib sig node) {binIDIPub : Bytes}
    (hbin : node.myIDIPub.serializeBin () = .ok binIDIPub ()) (hsane : binIDIPub.length ≤ saneMaxSizeForString) :
    node.myIDIPub.WrittenAs binIDIPub := by
  refine ⟨?_, hbin, hsane⟩
  rw [← h.loaded]
  rfl

/-- The greeting of a session is verified, and read as the keys and the address of the node. -/
private theorem readHis_eq_ok (h : InSession lib sig node) {receiver : Tunserver}
    (hpre : receiver.ipv6Prefix = node.ipv6Prefix) {binIDCPub binIDIPub binIDIIDCSig : Bytes}
    (hIDC : node.myIDC.pub.serializeBin () = .ok binIDCPub ()) (hIDI : node.myIDIPub.WrittenAs binIDIPub)
    (hsig : sig.WrittenAs binIDIIDCSig) (senderPip : Ip46Addr) :
    readHis lib senderPip binIDCPub binIDIPub binIDIIDCSig receiver =
      .ok ({ peeringAddr := senderPip, hashipAddr := node.myHip }, node.myIDIPub) receiver := by
  obtain ⟨bin, hbin, hverify⟩ := h.signed
  obtain rfl := (EStateM.Result.ok.inj (hbin.symm.trans hIDC)).1
  obtain ⟨sig', hread, hlists⟩ := hsig.ofBin receiver
  have hsame : sig'.cryptolistsGeneral = sig.cryptolistsGeneral := by
    funext sys
    by_cases hsign : Multisign.Signing sys
    · exact (hlists sys).1 hsign
    · rw [(hlists sys).2 hsign, h.onlySigning sys hsign]
  have hloaded : { MultikeysPub.new with cryptolistsGeneral := node.myIDIPub.cryptolistsGeneral }.setIpv6Prefix
      receiver.ipv6Prefix = node.myIDIPub := by
    rw [hpre]
    exact h.loaded
  have haddr : node.myIDIPub.getIpv6StringBin lib receiver = .ok node.myHip.octets receiver :=
    getIpv6StringBin_eq_ok_iff.mpr ⟨h.addr, rfl⟩
  have hdot : HashipAddr.ofAddrDot node.myHip.octets = .ok node.myHip := dif_pos node.myHip.length_octets
  rw [readHis, bind_of_ok (get_apply receiver), bind_of_ok (hIDI.ofBin receiver)]
  dsimp only
  rw [hloaded, bind_of_ok hread, bind_of_ok (multiSignVerify_congr hsame hverify receiver),
    bind_of_ok (hIDI.ofBin receiver)]
  dsimp only
  rw [hloaded, bind_of_ok haddr, bind_of_ok (fromExcept_eq_ok_iff.mpr ⟨hdot, rfl⟩)]
  rfl

end InSession

/-! ### Tunnels without a secret -/

/-- The tunnel boxes and unboxes with the key that no secret is needed for. It is a key that everybody can
compute. -/
def CryptoTunnel.Open (lib : CryptoLib) (ct : TunnelUse) : Prop :=
  ct.streamCryptoAb.boxer.map Boxer.key = some (noSecretKey lib) ∧
    ct.streamCryptoAb.unboxer.map Boxer.key = some (noSecretKey lib)

/-- Two such tunnels fit together, whoever has made them. -/
private theorem CryptoTunnel.Open.agrees {ct ct' : TunnelUse} (h : ct.Open lib) (h' : ct'.Open lib) :
    ct.Agrees ct' := by
  obtain ⟨cb, hcb, hkey⟩ := Option.map_eq_some_iff.mp h.1
  obtain ⟨cb', hcb', hkey'⟩ := Option.map_eq_some_iff.mp h'.2
  exact ⟨cb, cb', hcb, hcb', hkey.trans hkey'.symm⟩

/-- A tunnel for an identity that only signs can always be made. -/
private theorem exists_new_of_onlySigns {self : MultikeysPAIR} {them : MultikeysPub} (honly : them.OnlySigns)
    (hletters : them.HasLetters) {hash hash' : Bytes} (hself : self.pub.readHash lib () = .ok hash ())
    (hthem : them.readHash lib () = .ok hash' ()) (draw : ℕ) :
    ∃ ct draw', TunnelUse.new lib self them draw = .ok ct draw' ∧ ct.Open lib := by
  let B : MultikeysPAIR := { pub := them, PRV := MultikeysPRV.new }
  have hrounds : (CStream.initiatorParams lib self them).rounds draw = [] := rounds_eq_nil_of_onlySigns honly draw
  have hready : (CStream.initiatorParams lib self them).Ready draw := by
    refine ⟨fun sys type htype hshared => ?_, fun r hr => ?_, ?_⟩
    · have hused : sys ∈ them.usedSystems :=
        MultiCryptoStrings.mem_usedSystems.mpr (List.ne_nil_of_length_pos hshared.2)
      refine ⟨CryptoSystemType.value_of_ofInt htype ▸ hletters sys hused, fun henabled => ?_⟩
      have hkex : Multisign.cryptosystemSignAllowed type = false := by
        cases type <;> first | rfl | cases henabled
      have hzero := honly sys type htype hkex
      have hpos : 0 < them.getCountKeysInSystem sys := hshared.2
      omega
    · rw [hrounds] at hr
      cases hr
    · rw [CStream.KexParams.tosend, hrounds]
      simp [MapFits, uvarintLimit]
  have hnew := (CryptoTunnel.new_eq_ok_iff (B := B) hself hthem).mpr ⟨hready, rfl, rfl⟩
  refine ⟨_, _, hnew, ?_, ?_⟩
  · exact congrArg some (sessionKey_eq_noSecretKey honly draw)
  · exact congrArg some (sessionKey_eq_noSecretKey honly draw)

/-- There is such a tunnel for an address. -/
def OpenFor (lib : CryptoLib) (hip : HashipAddr) (node : Tunserver) : Prop :=
  ∃ ct, node.tunnel[hip]? = some ct ∧ ct.Open lib

private theorem tunnelEffects_openFor (lib : CryptoLib) (hip : HashipAddr) :
    TunnelEffects lib (OpenFor lib hip) where
  frame node node' htunnel _ _ h := by
    rw [OpenFor, htunnel]
    exact h
  send _ _ _ h := h
  add node hip' pubkey ct _ _ h hnew _ _ := by
    obtain ⟨ct₀, hct₀, hopen⟩ := h
    refine ⟨ct₀, ?_, hopen⟩
    rw [getElem?_putTunnel, if_neg]
    · exact hct₀
    · rintro rfl
      rw [Std.ExtTreeMap.getElem?_eq_none hnew] at hct₀
      cases hct₀
  box node hip' ct ct₁ _ _ _ h hct hbox := by
    obtain ⟨ct₀, hct₀, hopen⟩ := h
    rw [OpenFor, getElem?_putTunnel]
    split
    next heq =>
      subst heq
      obtain rfl := Option.some.inj (hct₀.symm.trans hct)
      obtain ⟨cb, hboxer, -, -, -, rfl⟩ := CryptoTunnel.boxAb_eq_ok_iff.mp hbox
      obtain ⟨hkey, hunboxer⟩ := hopen
      rw [hboxer] at hkey
      exact ⟨_, rfl, hkey, hunboxer⟩
    · exact ⟨ct₀, hct₀, hopen⟩

/-- It stays one, whatever happens. -/
private theorem OpenFor.later {hip : HashipAddr} (h : OpenFor lib hip node) (hlater : Later lib node node') :
    OpenFor lib hip node' :=
  hlater.induction (fun _ _ h => (tunnelEffects_openFor lib hip).run h fun _ _ _ _ h => h) h

/-- There is a tunnel for an identity that only signs when one was asked for, and a new one is open. -/
private theorem tunnel_addTunnelToPubkey {pubkey : HashipPubkey} {hip : HashipAddr}
    (haddr : pubkey.getIpv6StringBin lib () = .ok hip.octets ()) (honly : pubkey.OnlySigns)
    (hletters : pubkey.HasLetters) (hhash : ∃ hash, node.myIDC.pub.readHash lib () = .ok hash ()) :
    hip ∈ (finalState (addTunnelToPubkey lib pubkey) node).tunnel ∧
      (hip ∉ node.tunnel → OpenFor lib hip (finalState (addTunnelToPubkey lib pubkey) node)) := by
  have haddr' : pubkey.getIpv6StringBin lib node = .ok hip.octets node :=
    getIpv6StringBin_eq_ok_iff.mpr ⟨haddr, rfl⟩
  have hbin : HashipAddr.ofAddrBin hip.octets = .ok hip := HashipAddr.ofAddrBin_eq_ok_iff.mpr rfl
  rw [addTunnelToPubkey, finalState_bind_of_ok haddr',
    finalState_bind_of_ok (fromExcept_eq_ok_iff.mpr ⟨hbin, rfl⟩), finalState_bind_of_ok (get_apply node)]
  split
  next hmem => exact ⟨hmem, fun hnew => absurd hmem hnew⟩
  next hnew =>
    obtain ⟨hash, hself⟩ := hhash
    obtain ⟨hash', _, hthem, -⟩ := bind_eq_ok_iff.mp haddr
    obtain ⟨ct, draws, hct, hopen⟩ := exists_new_of_onlySigns honly hletters hself hthem node.draws
    have hcrypto : crypto (TunnelUse.new lib node.myIDC pubkey) node = .ok ct { node with draws } :=
      zoom_eq_ok_iff.mpr ⟨draws, hct, rfl⟩
    rw [finalState_bind_of_ok hcrypto]
    refine ⟨Std.ExtTreeMap.mem_insert_self, fun _ => ⟨ct, Std.ExtTreeMap.getElem?_insert_self, hopen⟩⟩

/-- A peer who is met, and is not banned, is in the table then, with the address of the reference and the key. -/
private theorem getElem?_addPeerAppendPubkey {peerRef : PeeringReference} {pubkey : HashipPubkey}
    (hhip : HasHip lib pubkey peerRef.hashipAddr)
    (hallowed : peerRef.hashipAddr ∈ node.peer ∨ peerRef.hashipAddr ∉ node.peerBlackList)
    (hrun : addPeerAppendPubkey lib peerRef pubkey node = .ok () node') :
    ∃ peering, node'.peer[peerRef.hashipAddr]? = some peering ∧ peering.getPip = peerRef.peeringAddr ∧
      peering.getPub = some pubkey := by
  rw [addPeerAppendPubkey_of_hasHip hhip] at hrun
  obtain ⟨_, node₁, happend, hshow⟩ := bind_eq_ok_iff.mp hrun
  obtain rfl := eq_of_preserves (fun _ => .get_bind fun node h => by
    split
    · exact Preserves.checkThat _ _ node h
    · exact h) hshow
  rw [appendPubkey, bind_of_ok (get_apply node)] at happend
  cases hget : node.peer[peerRef.hashipAddr]? with
  | none =>
    have hmem : peerRef.hashipAddr ∉ node.peer := by
      rw [Std.ExtTreeMap.mem_iff_isSome_getElem?, hget]
      decide
    simp only [hget, if_pos (hallowed.resolve_left hmem)] at happend
    obtain ⟨-, rfl⟩ := EStateM.Result.ok.inj happend
    refine ⟨(Peering.new peerRef).setPubkey pubkey, ?_, rfl, rfl⟩
    change (node.peer.insertIfNew _ _)[_]? = _
    rw [insertIfNew_of_not_mem _ _ hmem, Std.ExtTreeMap.getElem?_insert_self]
  | some peering =>
    simp only [hget] at happend
    rw [updatePeer, bind_of_ok (modify_apply _ node)] at happend
    obtain ⟨unchanged, node₂, hequal, happend⟩ := bind_eq_ok_iff.mp happend
    obtain ⟨_, _, hold, hequal⟩ := bind_eq_ok_iff.mp hequal
    obtain ⟨-, rfl⟩ := checkThat_eq_ok_iff.mp hold
    obtain ⟨_, _, hnew, hequal⟩ := bind_eq_ok_iff.mp hequal
    obtain ⟨-, rfl⟩ := checkThat_eq_ok_iff.mp hnew
    obtain ⟨rfl, rfl⟩ := EStateM.Result.ok.inj hequal
    by_cases hsame : peering.getPip = peerRef.peeringAddr
    · simp only [hsame, decide_true, not_true_eq_false, if_false] at happend
      obtain ⟨-, rfl⟩ := EStateM.Result.ok.inj happend
      exact ⟨peering.setPubkey pubkey, Std.ExtTreeMap.getElem?_insert_self, hsame, rfl⟩
    · simp only [hsame, decide_false, Bool.false_eq_true, not_false_eq_true, if_true] at happend
      obtain ⟨-, rfl⟩ := EStateM.Result.ok.inj happend
      exact ⟨(peering.setPubkey pubkey).setPip peerRef.peeringAddr, Std.ExtTreeMap.getElem?_insert_self, rfl, rfl⟩

/-- A node that gets the greeting of a session has the sender as a peer then, unless he is banned, and a tunnel
for him. -/
theorem InSession.met (h : InSession lib sig node) {receiver : Tunserver}
    (hhashed : ∃ hash, receiver.myIDC.pub.readHash lib () = .ok hash ())
    (hpre : receiver.ipv6Prefix = node.ipv6Prefix) {data : Bytes} (hgreeting : GreetingOf sig node data)
    (hfits : data.length ≤ bufSize) {senderPip : Ip46Addr}
    (hmeet : receiver.CanMeet { peeringAddr := senderPip, hashipAddr := node.myHip }) :
    let met := finalState ((Event.datagram senderPip data).run lib) receiver
    node.myHip ∈ met.tunnel ∧ (node.myHip ∉ receiver.tunnel → OpenFor lib node.myHip met) ∧
      (node.myHip ∈ receiver.peer ∨ node.myHip ∉ receiver.peerBlackList →
        ∃ peering, met.peer[node.myHip]? = some peering ∧ peering.getPip = senderPip ∧
          peering.getPub = some node.myIDIPub) := by
  intro met
  obtain ⟨binIDCPub, binIDIPub, binIDIIDCSig, hIDC, hIDI, hsig, rfl⟩ := hgreeting
  obtain ⟨hsaneIDC, hsaneIDI, hsaneSig⟩ := sane_of_greetingBin hfits
  have hwritten := h.writtenAs hIDI hsaneIDI
  obtain ⟨⟨hletters, -⟩, -, -⟩ := MultiCryptoStrings.serializeBin_eq_ok_iff.mp hIDI
  -- The three strings are read.
  have hpop : (within (parserOfBuffer (greetingBin binIDCPub binIDIPub binIDIIDCSig)) popPublicHi : Node _)
      receiver = .ok (binIDCPub, binIDIPub, binIDIIDCSig) receiver := by
    have hread := (reads_popPublicHi hsaneIDC hsaneIDI hsaneSig).apply_start []
    rw [List.append_nil] at hread
    exact within_eq_ok_iff.mpr ⟨⟨_, hread⟩, rfl⟩
  have hmet : met = finalState (meet lib senderPip binIDCPub binIDIPub binIDIIDCSig) receiver :=
    (finalState_run lib _ receiver).trans ((finalState_congr
      (handleDatagram_of_cmd (datagramCmd_cmdOctets .publicHi _))).trans (finalState_handlePublicHi hpop))
  -- The sender is added as a peer, which leaves the tunnels alone.
  let hisRef : PeeringReference := { peeringAddr := senderPip, hashipAddr := node.myHip }
  obtain ⟨node₁, hadd⟩ : ∃ node₁, addPeerAppendPubkey lib hisRef node.myIDIPub receiver = .ok () node₁ :=
    (addPeerAppendPubkey_returns_iff h.hasHip).mpr hmeet
  obtain ⟨htunnel, hmyIDC, hsamePrefix⟩ :
      (finalState (addPeerAppendPubkey lib hisRef node.myIDIPub) receiver).tunnel = receiver.tunnel ∧ _ ∧ _ :=
    tunnel_addPeerAppendPubkey hisRef node.myIDIPub
  rw [finalState_of_ok hadd] at htunnel hmyIDC hsamePrefix
  have hloaded : { MultikeysPub.new with cryptolistsGeneral := node.myIDIPub.cryptolistsGeneral }.setIpv6Prefix
      node₁.ipv6Prefix = node.myIDIPub := by
    rw [hsamePrefix, hpre]
    exact h.loaded
  rw [meet, finalState_bind_of_ok (h.readHis_eq_ok hpre hIDC hwritten ⟨hsig, hsaneSig⟩ senderPip)] at hmet
  dsimp only at hmet
  rw [finalState_bind_of_ok hadd, finalState_bind_of_ok (get_apply node₁),
    finalState_bind_of_ok (hwritten.ofBin node₁)] at hmet
  dsimp only at hmet
  rw [hloaded] at hmet
  -- And then there is a tunnel for him.
  rw [← hmyIDC] at hhashed
  obtain ⟨hmem, hopen⟩ := tunnel_addTunnelToPubkey h.addr h.onlySigns hletters hhashed
  rw [hmet]
  refine ⟨hmem, fun hnew => hopen (by rwa [htunnel]), fun hallowed => ?_⟩
  obtain ⟨tunnel, draws, hstate⟩ := finalState_addTunnelToPubkey lib node.myIDIPub node₁
  rw [hstate]
  exact getElem?_addPeerAppendPubkey h.hasHip hallowed hadd

end Session

/-! ### Two sessions -/

/-- A node that has just been started, with what it keeps as `m_IDI_IDC_sig`. It had no peers, tunnels and
routes before, and any keys. -/
def Configured (lib : CryptoLib) (sig : Multisign) (node : Tunserver) : Prop :=
  ∃ PRV storedPub myIDC myIDIPub myHip ipv6Prefix draws,
    configureMykey lib PRV storedPub (Tunserver.new myIDC myIDIPub myHip ipv6Prefix draws) = .ok sig node

/-- A node has met another one, and has been up since then: it had no tunnel for it when it got one of the
greetings of the session of the other one, which is known by its start. -/
inductive HasMet (lib : CryptoLib) (sig : Multisign) (start self : Tunserver) : Tunserver → Prop
  | greeted {sender node met : Tunserver} {enableRemove : Bool} {timedOut : HashipAddr → Bool}
      {d : Ip46Addr × Bytes} {senderPip : Ip46Addr} (hsender : Later lib start sender)
      (hd : d ∈ (finalState ((Event.ping enableRemove timedOut sig).run lib) sender).sentSince sender)
      (hfits : d.2.length ≤ bufSize) (hself : Later lib self node) (hnew : sender.myHip ∉ node.tunnel)
      (hmeet : node.CanMeet { peeringAddr := senderPip, hashipAddr := sender.myHip })
      (hlater : Later lib (finalState ((Event.datagram senderPip d.2).run lib) node) met) :
      HasMet lib sig start self met

section TwoSessions

variable {lib : CryptoLib} {sig sigA sigB : Multisign} {node startA startB A B : Tunserver}

private theorem Configured.inSession (h : Configured lib sig node) : InSession lib sig node := by
  obtain ⟨PRV, storedPub, myIDC, myIDIPub, myHip, ipv6Prefix, draws, hrun⟩ := h
  exact (inSession_of_configureMykey hrun).1

private theorem Configured.supportedIpProtocols {node' : Tunserver} (h : Configured lib sig node)
    (hlater : Later lib node node') : node'.supportedIpProtocols = [6, 17, 58] := by
  obtain ⟨PRV, storedPub, myIDC, myIDIPub, myHip, ipv6Prefix, draws, hrun⟩ := h
  obtain ⟨-, _, _, _, _, rfl⟩ := inSession_of_configureMykey hrun
  refine hlater.induction (I := fun node' => node'.supportedIpProtocols = [6, 17, 58]) (fun event _ h => ?_) rfl
  exact closed_supportedIpProtocols.run h ⟨fun _ _ _ => h, fun _ _ _ => h, fun _ => h⟩

/-- A datagram never puts a banned node that is not in the table there. -/
private theorem not_mem_peer_of_banned {hip : HashipAddr} (hunknown : hip ∉ node.peer)
    (hbanned : hip ∈ node.peerBlackList) (senderPip : Ip46Addr) (data : Bytes) :
    hip ∉ (finalState ((Event.datagram senderPip data).run lib) node).peer := by
  have hclosed : Closed fun node' => hip ∉ node'.peer := .of_tables fun _ _ hpeer _ h => by rwa [hpeer]
  refine hclosed.run hunknown ⟨fun _ _ _ => hunknown, fun hip' peering hputs hmem => ?_, ?_⟩
  · rw [Tunserver.mem_peer_iff, getElem?_putPeer] at hmem
    split at hmem
    next heq =>
      subst heq
      cases hputs with
      | greeting _ _ hmet => exact hmet.allowed.elim hunknown fun hallowed => hallowed hbanned
    · exact hunknown (Tunserver.mem_peer_iff.mpr hmem)
  · rintro ⟨_, -, hremoves⟩
    cases hremoves

/-- The greetings of a session are accepted, whatever has happened to the two nodes since they were started: what
a node sends when it pings its peers makes another node, with the same prefix, have the sender in its table, with
the address that the greeting came from and the keys of the sender, and have a tunnel for him, if and only if the
sender is not banned there, or is in the table nevertheless. -/
theorem met_of_greeting (hA : Configured lib sigA startA) (hB : Configured lib sigB startB)
    (hpre : startB.ipv6Prefix = startA.ipv6Prefix) (hlaterA : Later lib startA A) (hlaterB : Later lib startB B)
    {enableRemove : Bool} {timedOut : HashipAddr → Bool} {d : Ip46Addr × Bytes}
    (hd : d ∈ (finalState ((Event.ping enableRemove timedOut sigA).run lib) A).sentSince A)
    (hfits : d.2.length ≤ bufSize) {senderPip : Ip46Addr} (hpip : senderPip ≠ .none)
    (hold : ∀ peering, B.peer[A.myHip]? = some peering → peering.getPip ≠ .none) :
    let met := finalState ((Event.datagram senderPip d.2).run lib) B
    (A.myHip ∈ met.tunnel ∧ ∃ peering, met.peer[A.myHip]? = some peering ∧ peering.getPip = senderPip ∧
      peering.getPub = some A.myIDIPub) ↔ (A.myHip ∈ B.peer ∨ A.myHip ∉ B.peerBlackList) := by
  intro met
  obtain ⟨-, -, -, hpreA⟩ := hlaterA.keys
  obtain ⟨-, -, -, hpreB⟩ := hlaterB.keys
  constructor
  · rintro ⟨-, peering, hget, -⟩
    by_contra hbanned
    rw [not_or, not_not] at hbanned
    have hmem : A.myHip ∈ met.peer := Tunserver.mem_peer_iff.mpr (by rw [hget]; rfl)
    exact not_mem_peer_of_banned hbanned.1 hbanned.2 senderPip d.2 hmem
  · intro hallowed
    have hmeet : B.CanMeet { peeringAddr := senderPip, hashipAddr := A.myHip } := by
      unfold CanMeet
      dsimp only
      split
      next peering hget => exact ⟨hold peering hget, hpip⟩
      next hget =>
        have hunknown : A.myHip ∉ B.peer := by
          rw [Tunserver.mem_peer_iff, hget]
          exact Bool.false_ne_true
        exact fun hbanned => absurd hbanned (hallowed.resolve_left hunknown)
    obtain ⟨htunnel, -, hpeer⟩ := (hA.inSession.later hlaterA).met (hB.inSession.later hlaterB).hashed
      (hpreB.trans (hpre.trans hpreA.symm)) (greetingOf_of_ping hd) hfits hmeet
    exact ⟨htunnel, hpeer hallowed⟩

end TwoSessions

/-! ### Two nodes in their sessions -/

/-- What `configure_mykey` does with an identity that has one key to sign with. -/
def sampleConfigure (k : UInt8) : Node Multisign :=
  configureMykey CryptoLib.sampleNonces (identity k).PRV (oneKeyBin 101 k)

/-- A node before it has its keys. -/
def unconfigured (k : UInt8) : Tunserver :=
  Tunserver.new MultikeysPAIR.new MultikeysPub.new (sampleHip 0) (sampleKey k).ipv6Prefix k.toNat

/-- A node that has just been started. -/
def sessionStart (k : UInt8) : Tunserver := finalState (sampleConfigure k) (unconfigured k)

/-- A node in its session, with a reference to another one. -/
def sessionNode (k peer : UInt8) : Tunserver :=
  finalState ((Event.op (.addPeer { peeringAddr := samplePip peer, hashipAddr := identityHip peer })).run
    CryptoLib.sampleNonces) (sessionStart k)

/-- The signature of the session. -/
def sessionSig (k : UInt8) : Multisign :=
  (returned (sampleConfigure k) (unconfigured k)).getD Multisign.new

/-- The greeting of the session, which has drawn its key. -/
def sessionGreeting (k : UInt8) : Bytes :=
  let IDC : Bytes := [71, 77, 75, 97, 111, 1, 120, 1, 32] ++ List.replicate 32 (k + 1)
  cmdOctets .publicHi (greetingBin IDC (oneKeyBin 101 k) ([6, 1, 42, k] ++ IDC ++ [11, 0]))

private theorem configured_sessionStart {k : UInt8}
    (h : (returned (sampleConfigure k) (unconfigured k)).isSome) :
    Configured CryptoLib.sampleNonces (sessionSig k) (sessionStart k) := by
  obtain ⟨sig, hsig⟩ := Option.isSome_iff_exists.mp h
  rw [sessionSig, hsig]
  exact ⟨_, _, _, _, _, _, _, eq_ok_finalState hsig⟩

private theorem later_sessionNode (k peer : UInt8) :
    Later CryptoLib.sampleNonces (sessionStart k) (sessionNode k peer) :=
  .single ⟨.op (.addPeer { peeringAddr := samplePip peer, hashipAddr := identityHip peer }), rfl⟩

private theorem configured_sample :
    Configured CryptoLib.sampleNonces (sessionSig 1) (sessionStart 1) ∧
      Configured CryptoLib.sampleNonces (sessionSig 2) (sessionStart 2) ∧
      (sessionStart 2).ipv6Prefix = (sessionStart 1).ipv6Prefix ∧
      (sessionNode 1 2).myHip = identityHip 1 ∧ (sessionNode 2 1).myHip = identityHip 2 :=
  ⟨configured_sessionStart (by decide +kernel), configured_sessionStart (by decide +kernel), by decide +kernel,
    by decide +kernel, by decide +kernel⟩

/-- The greeting is accepted by a node that has just been started as well. -/
theorem met_of_greeting_example :
    let met := finalState ((Event.datagram (samplePip 1) (sessionGreeting 1)).run CryptoLib.sampleNonces)
      (sessionNode 2 1)
    identityHip 1 ∈ met.tunnel ∧ ∃ peering, met.peer[identityHip 1]? = some peering ∧
      peering.getPip = samplePip 1 ∧ peering.getPub = some (sessionNode 1 2).myIDIPub := by
  intro met
  obtain ⟨hA, hB, hpre, hhip, -⟩ := configured_sample
  have hd : (samplePip 2, sessionGreeting 1) ∈ (finalState ((Event.ping false (fun _ => false)
      (sessionSig 1)).run CryptoLib.sampleNonces) (sessionNode 1 2)).sentSince (sessionNode 1 2) := by
    decide +kernel
  have hfits : (sessionGreeting 1).length ≤ bufSize := by decide
  have hpip : samplePip 1 ≠ .none := by decide
  have hpeer : ((sessionNode 2 1).peer[identityHip 1]?.map Peering.getPip) = some (samplePip 1) := by
    decide +kernel
  obtain ⟨peering, hget, hgetPip⟩ := Option.map_eq_some_iff.mp hpeer
  have hold : ∀ peering', (sessionNode 2 1).peer[(sessionNode 1 2).myHip]? = some peering' →
      peering'.getPip ≠ .none := by
    intro peering' hget'
    rw [hhip] at hget'
    obtain rfl := Option.some.inj (hget.symm.trans hget')
    rwa [hgetPip]
  have hmet := met_of_greeting hA hB hpre (later_sessionNode 1 2) (later_sessionNode 2 1) hd hfits hpip hold
  rw [hhip] at hmet
  exact hmet.mpr (.inl (Tunserver.mem_peer_iff.mpr (by rw [hget]; rfl)))

section TwoSessions

variable {lib : CryptoLib} {sig sigA sigB : Multisign} {node startA startB A B : Tunserver}

/-- The tunnel for a node that was met is open, however much later. -/
private theorem HasMet.openFor (h : HasMet lib sigA startA startB B) (hA : Configured lib sigA startA)
    (hB : Configured lib sigB startB) (hpre : startB.ipv6Prefix = startA.ipv6Prefix) :
    OpenFor lib startA.myHip B := by
  cases h with
  | @greeted sender node _ _ _ _ _ hsender hd hfits hself hnew hmeet hlater =>
    obtain ⟨-, -, hhip, hpreA⟩ := hsender.keys
    obtain ⟨-, -, -, hpreB⟩ := hself.keys
    obtain ⟨-, hopen, -⟩ := (hA.inSession.later hsender).met (hB.inSession.later hself).hashed
      (hpreB.trans (hpre.trans hpreA.symm)) (greetingOf_of_ping hd) hfits hmeet
    exact hhip ▸ (hopen hnew).later hlater

private theorem HasMet.later (h : HasMet lib sigA startA startB B) : Later lib startB B := by
  cases h with
  | greeted hsender hd hfits hself hnew hmeet hlater => exact (hself.tail ⟨_, rfl⟩).trans hlater

/-- Two nodes that have met can talk, whatever has happened to them since: a packet, of a protocol that nodes
support, that one of them reads from its card for the other one is written to the card of the other one as it
was, when any datagram that was sent with it arrives from the address of a peer, whoever has forwarded it. -/
theorem talk_of_sessions (laws : SecretboxLaws lib) (hA : Configured lib sigA startA)
    (hB : Configured lib sigB startB) (hpre : startB.ipv6Prefix = startA.ipv6Prefix)
    (hmetA : HasMet lib sigB startB startA A) (hmetB : HasMet lib sigA startA startB B) {header packet : Bytes}
    (hheader : header.length = headerPositionOfIpv6) (hpacket : IsPacket A.myHip B.myHip packet)
    {d : Ip46Addr × Bytes} (hd : d ∈ tunneledIn
      ((finalState ((Event.tunPacket (header ++ packet)).run lib) A).sentSince A)) {data : Bytes}
    (hforwards : Relation.ReflTransGen (Forwards lib) d.2 data) {senderPip : Ip46Addr} {sender : Peering}
    (hsender : B.senderOf senderPip = some sender) :
    (finalState ((Event.datagram senderPip data).run lib) B).writtenToTun =
      (tunHeader ++ packet) :: B.writtenToTun := by
  obtain ⟨-, -, hhipA, -⟩ := hmetA.later.keys
  obtain ⟨-, -, hhipB, -⟩ := hmetB.later.keys
  obtain ⟨ct, hct, hopen⟩ := hmetA.openFor hB hA hpre.symm
  obtain ⟨ct', hct', hopen'⟩ := hmetB.openFor hA hB hpre
  rw [← hhipB] at hct
  rw [← hhipA] at hct'
  exact writtenToTun_of_forwards laws (hB.supportedIpProtocols hmetB.later) hpacket hheader hct hct'
    (hopen.agrees hopen') hd hforwards hsender

end TwoSessions

/-- A node that has got the greeting of the other one. -/
def sessionMet (k peer : UInt8) : Tunserver :=
  finalState ((Event.datagram (samplePip peer) (sessionGreeting peer)).run CryptoLib.sampleNonces)
    (sessionNode k peer)

private theorem hasMet_sessionMet {k peer : UInt8}
    (hd : (samplePip k, sessionGreeting peer) ∈ (finalState ((Event.ping false (fun _ => false)
      (sessionSig peer)).run CryptoLib.sampleNonces) (sessionNode peer k)).sentSince (sessionNode peer k))
    (hfits : (sessionGreeting peer).length ≤ bufSize)
    (hnew : (sessionNode peer k).myHip ∉ (sessionNode k peer).tunnel)
    (hpeer : ((sessionNode k peer).peer[(sessionNode peer k).myHip]?.map Peering.getPip) = some (samplePip peer)) :
    HasMet CryptoLib.sampleNonces (sessionSig peer) (sessionStart peer) (sessionStart k) (sessionMet k peer) := by
  refine .greeted (later_sessionNode peer k) hd hfits (later_sessionNode k peer) hnew ?_ .refl
  obtain ⟨peering, hget, hpip⟩ := Option.map_eq_some_iff.mp hpeer
  rw [CanMeet, hget]
  exact ⟨by rw [hpip]; exact Ip46Addr.noConfusion, Ip46Addr.noConfusion⟩

/-- A UDP packet with one octet behind its header. -/
def udpPacketOf (src dst : HashipAddr) : Bytes :=
  [0x60, 0, 0, 0, 0, 1, 17, 64] ++ src.octets ++ dst.octets ++ [7]

/-- A node gets a packet that another one has sent it, after they have greeted each other. -/
theorem talk_of_sessions_example :
    let packet := udpPacketOf (identityHip 1) (identityHip 2)
    ∃ d ∈ tunneledIn ((finalState ((Event.tunPacket (tunHeader ++ packet)).run CryptoLib.sampleNonces)
        (sessionMet 1 2)).sentSince (sessionMet 1 2)),
      (finalState ((Event.datagram (samplePip 1) d.2).run CryptoLib.sampleNonces) (sessionMet 2 1)).writtenToTun =
        [tunHeader ++ packet] := by
  intro packet
  obtain ⟨hA, hB, hpre, -⟩ := configured_sample
  have hmetA : HasMet CryptoLib.sampleNonces (sessionSig 2) (sessionStart 2) (sessionStart 1) (sessionMet 1 2) :=
    hasMet_sessionMet (by decide +kernel) (by decide) (by decide +kernel) (by decide +kernel)
  have hmetB : HasMet CryptoLib.sampleNonces (sessionSig 1) (sessionStart 1) (sessionStart 2) (sessionMet 2 1) :=
    hasMet_sessionMet (by decide +kernel) (by decide) (by decide +kernel) (by decide +kernel)
  have hpacket : IsPacket (sessionMet 1 2).myHip (sessionMet 2 1).myHip packet :=
    ⟨by decide, by decide +kernel, by decide +kernel, .inr (.inl (by decide))⟩
  have hsends : 0 < (tunneledIn ((finalState ((Event.tunPacket (tunHeader ++ packet)).run
      CryptoLib.sampleNonces) (sessionMet 1 2)).sentSince (sessionMet 1 2))).length := by decide +kernel
  obtain ⟨d, hd⟩ := List.exists_mem_of_length_pos hsends
  have hsome : ((sessionMet 2 1).senderOf (samplePip 1)).isSome := by decide +kernel
  obtain ⟨sender, hsender⟩ := Option.isSome_iff_exists.mp hsome
  have hnothing : (sessionMet 2 1).writtenToTun = [] := by decide +kernel
  refine ⟨d, hd, ?_⟩
  have htalk := talk_of_sessions secretboxLaws_sampleNonces hA hB hpre hmetA hmetB rfl hpacket hd .refl hsender
  rwa [hnothing] at htalk

end Galaxy42
