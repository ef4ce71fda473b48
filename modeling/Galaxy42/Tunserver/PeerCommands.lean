import Galaxy42.Cable.IpString
import Galaxy42.Tunserver.Invitations

/-!
# Commands about peers

`rpc_add_peer`, `rpc_delete_peer` and `rpc_ban_peer` take a peer as a text, change the table of peers and the
list of banned ones, and answer what they did.

`rpc_add_peer` should refuse only peers that are banned, and only where the node does not unban them. Its
lambda `can_i_add_peer` returns false in both of its last branches, so that with this option it refuses all
peers (`reportsTruly_iff`). A text that is no reference is answered with an error that changes nothing, but
`rpc_ban_peer` reads it outside of its `try` block (`answersErrors_iff`).

There are two formats of references, and `PeerText` is a reference in one of them, apart from its text: an
address, a port and a hip, or a hip and some cables. What makes it well-formed (`IsReference`) is about its
parts. Whether the program can read it is another question (`IsRead`), since it has limits on the length of a
text that are not part of the format; the result on `rpc_add_peer` is an equivalence for all well-formed
references, in which these limits occur.

Of the lambda all that is needed is one equation: it says what the option says (`canIAddPeer_apply`). Behind
it the command is a sequence of steps that return or end in its `catch` block, and each of them is described
for the texts that it can read and for those that it cannot. The commands change the tables only by operations
of `PeerTable`, so its invariant is not touched here.
-/

namespace Galaxy42

open Toolkit Program StdString

/-- The constructor of `t_peering_reference` from two texts and a port. -/
def PeeringReference.ofTextsAndPort (ip : IpLib) (peeringAddr : Bytes) (port : ℤ) (peeringHip : Bytes) :
    Except Exn PeeringReference := do
  let peeringAddr ← Ip46Addr.ofString ip peeringAddr port
  let hashipAddr ← HashipAddr.ofText ip peeringHip
  return { peeringAddr, hashipAddr }

/-- The members of a response to a command. The server adds the identifiers to them. -/
structure RpcAnswer where
  cmd : String
  msg : String
  state : String
  deriving DecidableEq

/-! ### References -/

/-- References of peers in the two formats. A text is made from its parts here, and is read by the program. -/
inductive PeerText where
  /-- Format 0.1: an address, a port, and a hip. -/
  | simple (addr : Block 4) (port : ℕ) (hipText : Bytes)
  /-- Format 1.0: a hip and some cables, the first of them with an IPv4 address. -/
  | groups (hipText kind : Bytes) (addr : Block 4) (portText : Bytes) (cables : List Bytes)

namespace PeerText

/-- The member `"format"` that goes with the reference. -/
def format : PeerText → Bytes
  | simple .. => ascii "0.1"
  | groups .. => ascii "1.0"

/-- How the reference is written. -/
def text : PeerText → Bytes
  | simple addr port hipText => (ipv4Text addr ++ 58 :: decimal port) ++ 45 :: hipText
  | groups hipText kind addr portText cables =>
    peerReference hipText (ipv4Cable kind addr portText :: cables)

/-- The text of the hip. -/
def hipText : PeerText → Bytes
  | simple _ _ hipText => hipText
  | groups hipText .. => hipText

/-- The parts of the reference are of the right form. -/
def HasParts : PeerText → Prop
  | simple addr port _ => IsUnicast addr ∧ 1 ≤ port ∧ port ≤ 65535
  | groups hipText kind addr portText cables =>
    (IsPart hipText ∧ hipText ≠ ascii "anyone") ∧ 58 ∉ kind ∧
      ∀ cable ∈ ipv4Cable kind addr portText :: cables, IsCable cable

/-- The reference is well-formed, with a hip. What the hip is, is read off its text as the program does it. -/
structure IsReference (ip : IpLib) (peer : PeerText) (hip : HashipAddr) : Prop where
  hip : HashipAddr.ofText ip peer.hipText = .ok hip
  parts : peer.HasParts

/-- The hip of the reference can be read: `parse_ip_string` takes the address in front of it. In the other
format the hip comes first. -/
def HipIsRead : PeerText → Prop
  | simple addr _ _ => 8 ≤ (ipv4Text addr).length
  | groups .. => True

/-- The reference can be read: it is not too long, and its address not too short. These limits are in the
functions that read the two formats, and not in the formats. -/
def IsRead : PeerText → Prop
  | simple addr _ _ => 8 ≤ (ipv4Text addr).length
  | groups hipText kind addr portText cables =>
    (groups hipText kind addr portText cables).text.length ≤ reasonableSizeLimitElementsDividedMax

end PeerText

namespace Tunserver

variable (ip : IpLib) (addresses : AddressLib)

/-! ### The commands -/

/-- `parse_peer_simplestring`. The first `'-'` ends the address. -/
def parsePeerSimplestring (simple : Bytes) : Except Exn PeeringReference :=
  match find simple 45 0 with
  | none => .error .outOfRange
  | some pos1 => do
    let partPip ← StdString.substr simple 0 pos1
    let partHip ← StdString.substr simple (pos1 + 1) simple.length
    let ipPair ← parseIpString addresses partPip
    PeeringReference.ofTextsAndPort ip ipPair.1 ipPair.2 partHip

/-- `add_peer_simplestring`. Whatever it throws becomes an exception about the format. -/
def addPeerSimplestring (simple : Bytes) : Node Unit :=
  catching (do
      let peeringRef ← fromExcept (parsePeerSimplestring ip addresses simple)
      let _ ← addPeer peeringRef
      deletePeerFromBlackList peeringRef.hashipAddr)
    fun _ => some (raise (.invalidArgument "L_bad_peer_format"))

/-- `delete_peer_simplestring`. It tells whether there was such a peer. -/
def deletePeerSimplestring (simple : Bytes) (isBanned : Bool) : Node Bool :=
  catching (do
      let hip ← fromExcept (HashipAddr.ofText ip simple)
      let peerDeleted ← deletePeer hip
      if isBanned then addPeerToBlackList hip
      return peerDeleted)
    fun _ => some (raise (.invalidArgument "L_bad_peer_format"))

/-- `peer_on_black_list` -/
def peerOnBlackList (hip : HashipAddr) : Node Bool := do
  let node ← get
  return decide (hip ∈ node.peerBlackList)

/-- The lambda of `rpc_add_peer`. Without the option both branches are the same. -/
def canIAddPeer (unbanIfBanned : Bool) (hip : HashipAddr) : Node Bool := do
  if unbanIfBanned then return true
  else
    let isPeerOnBlackList ← peerOnBlackList hip
    if isPeerOnBlackList then return false
    else return false

/-- The hip that `rpc_add_peer` asks about. Only the hip is looked for in the second format, and the cables
are not parsed. -/
def readHip (peer format : Bytes) : Except Exn HashipAddr :=
  if format = ascii "0.1" then do
    let peeringRef ← parsePeerSimplestring ip addresses peer
    return peeringRef.hashipAddr
  else if format = ascii "1.0" then
    match find peer separator 0 with
    | none => .error (.invalidArgument "@ character not found")
    | some atPosition => HashipAddr.ofText ip (peer.take atPosition)
  else .error (.invalidArgument "Bad format")

/-- The part of `rpc_add_peer` that adds the peer. Another format does nothing here, but `readHip` has refused
it. -/
def addPeerOfFormat (peer format : Bytes) : Node Unit :=
  if format = ascii "0.1" then addPeerSimplestring ip addresses peer
  else if format = ascii "1.0" then addPeerSimplestringNewFormat ip peer
  else return ()

/-- `rpc_add_peer`, of the members `"peer"` and `"format"` of the request. The hip is looked up first, and
then the option decides whether the peer is added. -/
def rpcAddPeer (unbanIfBanned : Bool) (peer format : Bytes) : Node RpcAnswer :=
  catching (do
      let hip ← fromExcept (readHip ip addresses peer format)
      let canAdd ← canIAddPeer unbanIfBanned hip
      if canAdd then
        addPeerOfFormat ip addresses peer format
        return { cmd := "add_peer", msg := "ok: Peer added", state := "ok" }
      else
        return {
          cmd := "add_peer"
          msg := "failed: peer is banned and you said to not unban him"
          state := "blocked" })
    fun _ => some (return { cmd := "add_peer", msg := "fail: Bad peer format", state := "error" })

/-- `rpc_delete_peer`, of the member `"peer"` of the request. That there is no such peer is no error. -/
def rpcDeletePeer (peer : Bytes) : Node RpcAnswer :=
  catching (do
      let peerDeleted ← deletePeerSimplestring ip peer false
      if peerDeleted then
        return { cmd := "delete_peer", msg := "ok: Peer deleted", state := "ok" }
      else
        return { cmd := "delete_peer", msg := "ok: Peer not found", state := "nothing_done" })
    fun e =>
      if e.isInvalidArgument then
        some (return { cmd := "delete_peer", msg := "fail: Bad peer format", state := "error" })
      else none

/-- `rpc_ban_peer`, of the member `"peer"` of the request. The text is read outside of its `try` block. -/
def rpcBanPeer (peer : Bytes) : Node RpcAnswer := do
  let hip ← fromExcept (HashipAddr.ofText ip peer)
  catching (do
      let isBanned ← peerOnBlackList hip
      if isBanned then
        return { cmd := "ban_peer", msg := "nothing done, peer is banned", state := "nothing_done" }
      else
        let _ ← deletePeerSimplestring ip peer true
        return { cmd := "ban_peer", msg := "ok: Peer banned", state := "ok" })
    fun e =>
      if e.isInvalidArgument then
        some (return { cmd := "ban_peer", msg := "fail: Bad peer format", state := "error" })
      else none

/-! ### Answers -/

/-- The commands, with what is given to them. -/
inductive PeerCommand where
  | addPeer (unbanIfBanned : Bool) (peer format : Bytes)
  | deletePeer (peer : Bytes)
  | banPeer (peer : Bytes)

/-- One command. -/
def PeerCommand.run : PeerCommand → Node RpcAnswer
  | addPeer unbanIfBanned peer format => rpcAddPeer ip addresses unbanIfBanned peer format
  | deletePeer peer => rpcDeletePeer ip peer
  | banPeer peer => rpcBanPeer ip peer

/-- The command answers, and when it answers with an error the tables are as before. The tables are those of
peers and of banned addresses. -/
def AnswersErrors (command : PeerCommand) (node : Tunserver) : Prop :=
  ∃ answer node', command.run ip addresses node = .ok answer node' ∧
    (answer.state = "error" →
      node'.peer = node.peer ∧ node'.peerBlackList = node.peerBlackList)

variable {ip addresses}

/-! ### What the commands do -/

private theorem addPeerSimplestring_of_ok {simple : Bytes} {peeringRef : PeeringReference}
    (h : parsePeerSimplestring ip addresses simple = .ok peeringRef) (node : Tunserver) :
    addPeerSimplestring ip addresses simple node = .ok ()
      { node with
        peer := node.peer.insertIfNew peeringRef.hashipAddr (Peering.new peeringRef)
        peerBlackList := node.peerBlackList.erase peeringRef.hashipAddr } := by
  rw [addPeerSimplestring, catching_eq_ok_iff, bind_of_ok (fromExcept_eq_ok_iff.mpr ⟨h, rfl⟩)]
  exact .inl rfl

private theorem addPeerSimplestring_of_error {simple : Bytes} {e : Exn}
    (h : parsePeerSimplestring ip addresses simple = .error e) (node : Tunserver) :
    addPeerSimplestring ip addresses simple node =
      .error (.throw (.invalidArgument "L_bad_peer_format")) node := by
  simp [addPeerSimplestring, catching, fromExcept, bind_apply, h]

private theorem exists_deletePeerSimplestring_eq_ok {simple : Bytes} {hip : HashipAddr}
    (h : HashipAddr.ofText ip simple = .ok hip) (isBanned : Bool) (node : Tunserver) :
    ∃ peerDeleted node', deletePeerSimplestring ip simple isBanned node = .ok peerDeleted node' := by
  have hdelete : ∃ peerDeleted node', deletePeer hip node = .ok peerDeleted node' := by
    rw [deletePeer, bind_of_ok (get_apply node)]
    split_ifs
    · exact ⟨true, _, rfl⟩
    · exact ⟨false, _, rfl⟩
  obtain ⟨peerDeleted, node', hdelete⟩ := hdelete
  cases isBanned with
  | true =>
    refine ⟨peerDeleted, { node' with peerBlackList := node'.peerBlackList.insert hip },
      catching_eq_ok_iff.mpr (.inl ?_)⟩
    exact (bind_of_ok (fromExcept_eq_ok_iff.mpr ⟨h, rfl⟩)).trans ((bind_of_ok hdelete).trans rfl)
  | false =>
    refine ⟨peerDeleted, node', catching_eq_ok_iff.mpr (.inl ?_)⟩
    exact (bind_of_ok (fromExcept_eq_ok_iff.mpr ⟨h, rfl⟩)).trans ((bind_of_ok hdelete).trans rfl)

private theorem deletePeerSimplestring_of_error {simple : Bytes} {e : Exn}
    (h : HashipAddr.ofText ip simple = .error e) (isBanned : Bool) (node : Tunserver) :
    deletePeerSimplestring ip simple isBanned node =
      .error (.throw (.invalidArgument "L_bad_peer_format")) node := by
  simp [deletePeerSimplestring, catching, fromExcept, bind_apply, h]

/-- The lambda says what the option says, whether the peer is banned or not. That it should be true for a peer
that is not banned is what its two last branches miss. -/
theorem canIAddPeer_apply (unbanIfBanned : Bool) (hip : HashipAddr) (node : Tunserver) :
    canIAddPeer unbanIfBanned hip node = .ok unbanIfBanned node := by
  cases unbanIfBanned with
  | true => rfl
  | false =>
    have hlist : peerOnBlackList hip node = .ok (decide (hip ∈ node.peerBlackList)) node := rfl
    refine (bind_of_ok hlist).trans ?_
    cases decide (hip ∈ node.peerBlackList) <;> rfl

/-- The reference that `rpc_add_peer` adds. -/
def readPeer (ip : IpLib) (addresses : AddressLib) (peer format : Bytes) : Except Exn PeeringReference :=
  if format = ascii "0.1" then parsePeerSimplestring ip addresses peer else readNewFormat ip peer

variable {peer format : Bytes} {hip : HashipAddr}

/-- A text that has no hip is answered with an error. -/
theorem rpcAddPeer_of_error {e : Exn} (h : readHip ip addresses peer format = .error e)
    (unbanIfBanned : Bool) (node : Tunserver) :
    rpcAddPeer ip addresses unbanIfBanned peer format node =
      .ok { cmd := "add_peer", msg := "fail: Bad peer format", state := "error" } node := by
  simp [rpcAddPeer, catching, fromExcept, bind_apply, h]

/-- Behind a text with a hip the option decides how `rpc_add_peer` goes on. -/
theorem bind_canIAddPeer {α : Type} (h : readHip ip addresses peer format = .ok hip) (unbanIfBanned : Bool)
    (next : Bool → Node α) (node : Tunserver) :
    (do let hip ← fromExcept (readHip ip addresses peer format)
        let canAdd ← canIAddPeer unbanIfBanned hip
        next canAdd : Node α) node = next unbanIfBanned node :=
  (bind_of_ok (fromExcept_eq_ok_iff.mpr ⟨h, rfl⟩)).trans
    (bind_of_ok (canIAddPeer_apply unbanIfBanned hip node))

/-- Without the option no peer is added. -/
theorem rpcAddPeer_false (h : readHip ip addresses peer format = .ok hip) (node : Tunserver) :
    rpcAddPeer ip addresses false peer format node = .ok
      { cmd := "add_peer"
        msg := "failed: peer is banned and you said to not unban him"
        state := "blocked" } node := by
  refine catching_eq_ok_iff.mpr (.inl ?_)
  exact bind_canIAddPeer h false _ node

/-- A text with a hip has one of the two formats. -/
theorem format_of_readHip (h : readHip ip addresses peer format = .ok hip) :
    format = ascii "0.1" ∨ format = ascii "1.0" := by
  rw [readHip] at h
  split_ifs at h with hsimple hnew
  · exact .inl hsimple
  · exact .inr hnew

private theorem addPeerOfFormat_of_ok (h : readHip ip addresses peer format = .ok hip)
    {peeringRef : PeeringReference} (hread : readPeer ip addresses peer format = .ok peeringRef)
    (node : Tunserver) :
    addPeerOfFormat ip addresses peer format node = .ok ()
      { node with
        peer := node.peer.insertIfNew peeringRef.hashipAddr (Peering.new peeringRef)
        peerBlackList := node.peerBlackList.erase peeringRef.hashipAddr } := by
  rcases format_of_readHip h with rfl | rfl
  · exact addPeerSimplestring_of_ok hread node
  · exact addPeerSimplestringNewFormat_of_ok ip hread node

/-- With the option a peer is added when the reference can be read. -/
theorem rpcAddPeer_true_of_ok (h : readHip ip addresses peer format = .ok hip)
    {peeringRef : PeeringReference} (hread : readPeer ip addresses peer format = .ok peeringRef)
    (node : Tunserver) :
    rpcAddPeer ip addresses true peer format node = .ok
      { cmd := "add_peer", msg := "ok: Peer added", state := "ok" }
      { node with
        peer := node.peer.insertIfNew peeringRef.hashipAddr (Peering.new peeringRef)
        peerBlackList := node.peerBlackList.erase peeringRef.hashipAddr } := by
  refine catching_eq_ok_iff.mpr (.inl ?_)
  refine (bind_canIAddPeer h true _ node).trans ?_
  exact bind_of_ok (addPeerOfFormat_of_ok h hread node)

/-- With the option, a reference that cannot be read is answered with an error. -/
theorem rpcAddPeer_true_of_error (h : readHip ip addresses peer format = .ok hip) {e : Exn}
    (hread : readPeer ip addresses peer format = .error e) (node : Tunserver) :
    rpcAddPeer ip addresses true peer format node =
      .ok { cmd := "add_peer", msg := "fail: Bad peer format", state := "error" } node := by
  have hadd : ∃ e, addPeerOfFormat ip addresses peer format node = .error (.throw e) node := by
    rcases format_of_readHip h with rfl | rfl
    · exact ⟨_, addPeerSimplestring_of_error hread node⟩
    · exact ⟨_, addPeerSimplestringNewFormat_of_error ip hread node⟩
  obtain ⟨e', hadd⟩ := hadd
  refine catching_eq_ok_iff.mpr (.inr ⟨e', node, _, ?_, rfl, rfl⟩)
  refine (bind_canIAddPeer h true _ node).trans ?_
  exact bind_of_error hadd

/-! ### Errors -/

/-- `rpc_add_peer` always answers, and an error changes nothing. -/
private theorem answersErrors_addPeer (unbanIfBanned : Bool) (peer format : Bytes) (node : Tunserver) :
    AnswersErrors ip addresses (.addPeer unbanIfBanned peer format) node := by
  cases hhip : readHip ip addresses peer format with
  | error e => exact ⟨_, node, rpcAddPeer_of_error hhip unbanIfBanned node, fun _ => ⟨rfl, rfl⟩⟩
  | ok hip =>
    cases unbanIfBanned with
    | false => exact ⟨_, node, rpcAddPeer_false hhip node, fun _ => ⟨rfl, rfl⟩⟩
    | true =>
      cases hread : readPeer ip addresses peer format with
      | error e => exact ⟨_, node, rpcAddPeer_true_of_error hhip hread node, fun _ => ⟨rfl, rfl⟩⟩
      | ok peeringRef => exact ⟨_, _, rpcAddPeer_true_of_ok hhip hread node, fun herror => nomatch herror⟩

private theorem answersErrors_deletePeer (peer : Bytes) (node : Tunserver) :
    AnswersErrors ip addresses (.deletePeer peer) node := by
  cases hhip : HashipAddr.ofText ip peer with
  | error e =>
    have hdelete := deletePeerSimplestring_of_error hhip false node
    exact ⟨_, node, catching_eq_ok_iff.mpr (.inr ⟨_, node, _, bind_of_error hdelete, if_pos rfl, rfl⟩),
      fun _ => ⟨rfl, rfl⟩⟩
  | ok hip =>
    obtain ⟨peerDeleted, node', hdelete⟩ := exists_deletePeerSimplestring_eq_ok hhip false node
    cases peerDeleted with
    | true =>
      exact ⟨_, node', catching_eq_ok_iff.mpr (.inl (bind_of_ok hdelete)), fun herror => nomatch herror⟩
    | false =>
      exact ⟨_, node', catching_eq_ok_iff.mpr (.inl (bind_of_ok hdelete)), fun herror => nomatch herror⟩

/-- `rpc_ban_peer` answers when the text is the address of a peer, and then never with an error. -/
theorem answersErrors_banPeer_iff (peer : Bytes) (node : Tunserver) :
    AnswersErrors ip addresses (.banPeer peer) node ↔ ∃ hip, HashipAddr.ofText ip peer = .ok hip := by
  constructor
  · rintro ⟨answer, node', hrun, -⟩
    obtain ⟨hip, _, hhip, -⟩ := bind_eq_ok_iff.mp hrun
    exact ⟨hip, (fromExcept_eq_ok_iff.mp hhip).1⟩
  · rintro ⟨hip, hhip⟩
    have hread : (fromExcept (HashipAddr.ofText ip peer) : Node HashipAddr) node = .ok hip node :=
      fromExcept_eq_ok_iff.mpr ⟨hhip, rfl⟩
    have hlist : peerOnBlackList hip node = .ok (decide (hip ∈ node.peerBlackList)) node := rfl
    obtain ⟨peerDeleted, node', hdelete⟩ := exists_deletePeerSimplestring_eq_ok hhip true node
    cases hbanned : decide (hip ∈ node.peerBlackList) with
    | true =>
      rw [hbanned] at hlist
      exact ⟨_, node, (bind_of_ok hread).trans (catching_eq_ok_iff.mpr (.inl (bind_of_ok hlist))),
        fun herror => nomatch herror⟩
    | false =>
      rw [hbanned] at hlist
      exact ⟨_, node', (bind_of_ok hread).trans
        (catching_eq_ok_iff.mpr (.inl ((bind_of_ok hlist).trans (bind_of_ok hdelete)))),
        fun herror => nomatch herror⟩

/-- A command answers, and changes nothing when it answers with an error, exactly unless it is to ban a peer
that cannot be read. All texts are looked at, those that are no references and those in an unknown format
among them. -/
theorem answersErrors_iff (ip : IpLib) (addresses : AddressLib) (command : PeerCommand) (node : Tunserver) :
    AnswersErrors ip addresses command node ↔
      ∀ peer, command = .banPeer peer → (ip.addressV6FromString (cStr peer)).isSome := by
  cases command with
  | addPeer unbanIfBanned peer format =>
    exact iff_of_true (answersErrors_addPeer unbanIfBanned peer format node) fun _ heq => nomatch heq
  | deletePeer peer => exact iff_of_true (answersErrors_deletePeer peer node) fun _ heq => nomatch heq
  | banPeer peer =>
    have hread : (∃ hip, HashipAddr.ofText ip peer = .ok hip) ↔
        (ip.addressV6FromString (cStr peer)).isSome := by
      rw [HashipAddr.ofText]
      cases ip.addressV6FromString (cStr peer) <;> simp
    rw [answersErrors_banPeer_iff, hread]
    constructor
    · rintro h _ heq
      rwa [← PeerCommand.banPeer.inj heq]
    · exact fun h => h peer rfl

/-- A text that is no address, as the peer to be banned. -/
theorem not_answersErrors_banPeer :
    ¬ AnswersErrors sampleIpLib sampleAddressLib (.banPeer (ascii "nobody")) (sampleNode 1) := by
  rw [answersErrors_banPeer_iff]
  rintro ⟨hip, hhip⟩
  have herror : HashipAddr.ofText sampleIpLib (ascii "nobody") =
      .error (.invalidArgument "The IP address looks invalid") := by decide
  rw [herror] at hhip
  cases hhip

/-! ### Adding a peer -/

/-- `rpc_add_peer` does what it reports: a peer that is banned is left out and reported as blocked unless the
node unbans it, and all others are added. An answer with another state than these is not a true report, nor is
an exception. -/
def ReportsTruly (ip : IpLib) (addresses : AddressLib) (unbanIfBanned : Bool) (node : Tunserver)
    (peer : PeerText) (hip : HashipAddr) : Prop :=
  if hip ∈ node.peerBlackList ∧ unbanIfBanned = false then
    ∃ answer, rpcAddPeer ip addresses unbanIfBanned peer.text peer.format node = .ok answer node ∧
      answer.state = "blocked"
  else
    ∃ answer node', rpcAddPeer ip addresses unbanIfBanned peer.text peer.format node = .ok answer node' ∧
      answer.state = "ok" ∧ hip ∈ node'.peer ∧ hip ∉ node'.peerBlackList

private theorem ofTextsAndPort_eq {hipText : Bytes} (hhip : HashipAddr.ofText ip hipText = .ok hip)
    (addr : Block 4)
    (port : ℤ) :
    PeeringReference.ofTextsAndPort ip (ipv4Text addr) port hipText =
      .ok { peeringAddr := .ipv4 addr (UInt16.ofInt port), hashipAddr := hip } := by
  have haddr : Ip46Addr.ofString ip (ipv4Text addr) port = .ok (.ipv4 addr (UInt16.ofInt port)) := by
    rw [Ip46Addr.ofString, cStr_ipv4Text, ip.getaddrinfo_ipv4Text, ip.inetPton4_ipv4Text]
    rfl
  rw [PeeringReference.ofTextsAndPort, bindExcept_of_ok haddr, bindExcept_of_ok hhip]
  rfl

/-- What is read of a reference in format 0.1. -/
theorem parsePeerSimplestring_simple (addresses : AddressLib) {addr : Block 4} {port : ℕ} {hipText : Bytes}
    (h : (PeerText.simple addr port hipText).IsReference ip hip) :
    (8 ≤ (ipv4Text addr).length →
      parsePeerSimplestring ip addresses (PeerText.simple addr port hipText).text =
        .ok { peeringAddr := .ipv4 addr (UInt16.ofInt port), hashipAddr := hip }) ∧
    (¬ 8 ≤ (ipv4Text addr).length →
      ∃ e, parsePeerSimplestring ip addresses (PeerText.simple addr port hipText).text = .error e) := by
  obtain ⟨hhip, hunicast, hpos, hle⟩ := h
  have hminus : 45 ∉ ipv4Text addr ++ 58 :: decimal port := by
    rw [List.mem_append, List.mem_cons]
    rintro (h | h | h)
    · rcases of_mem_ipv4Text h with h | h <;> revert h <;> decide
    · revert h
      decide
    · have hdigit := isDigit_of_mem_decimal h
      revert hdigit
      decide
  rw [parsePeerSimplestring, PeerText.text, find_append_zero _ hminus]
  simp only [substr_zero_append, substr_append_cons, bindExcept_ok]
  constructor
  · intro hlength
    have hread : parseIpString addresses (ipv4Text addr ++ 58 :: decimal port) = .ok (ipv4Text addr, ↑port) :=
      parseIpString_eq_ok_iff.mpr ⟨addr, readsAs_ipPort hunicast hpos hle hlength⟩
    rw [bindExcept_of_ok hread]
    exact ofTextsAndPort_eq hhip addr port
  · intro hshort
    rcases parseIpString_cases addresses (ipv4Text addr ++ 58 :: decimal port) with
      ⟨⟨host, port'⟩, hok⟩ | ⟨msg, herror⟩
    · obtain ⟨addr', hreads⟩ := parseIpString_eq_ok_iff.mp hok
      exact absurd hreads (not_readsAs_of_length_lt (colon_not_mem_ipv4Text addr) (by omega))
    · exact ⟨_, bindExcept_of_error herror⟩

/-- The hip that is looked up. -/
theorem readHip_text (addresses : AddressLib) {peer : PeerText} (h : peer.IsReference ip hip) :
    (peer.HipIsRead → readHip ip addresses peer.text peer.format = .ok hip) ∧
    (¬ peer.HipIsRead → ∃ e, readHip ip addresses peer.text peer.format = .error e) := by
  cases peer with
  | simple addr port hipText =>
    obtain ⟨hok, herror⟩ := parsePeerSimplestring_simple addresses h
    rw [readHip, PeerText.format, if_pos rfl]
    refine ⟨fun hlength => bindExcept_of_ok (hok hlength), fun hshort => ?_⟩
    obtain ⟨e, herror⟩ := herror hshort
    exact ⟨e, bindExcept_of_error herror⟩
  | groups hipText kind addr portText cables =>
    have hfind : find (PeerText.groups hipText kind addr portText cables).text separator 0 =
        some hipText.length := find_append_zero _ h.parts.1.1.separator
    have htake : (PeerText.groups hipText kind addr portText cables).text.take hipText.length = hipText :=
      List.take_left
    refine ⟨fun _ => ?_, fun hnot => absurd trivial hnot⟩
    rw [readHip, PeerText.format, if_neg (by decide), if_pos rfl, hfind]
    simp only [htake]
    exact h.hip

/-- The reference that is added. -/
private theorem readPeer_text (addresses : AddressLib) {peer : PeerText} (h : peer.IsReference ip hip) :
    (peer.IsRead → ∃ peeringRef, readPeer ip addresses peer.text peer.format = .ok peeringRef ∧
      peeringRef.hashipAddr = hip) ∧
    (¬ peer.IsRead → ∃ e, readPeer ip addresses peer.text peer.format = .error e) := by
  cases peer with
  | simple addr port hipText =>
    obtain ⟨hok, herror⟩ := parsePeerSimplestring_simple addresses h
    rw [readPeer, PeerText.format, if_pos rfl]
    exact ⟨fun hlength => ⟨_, hok hlength, rfl⟩, herror⟩
  | groups hipText kind addr portText cables =>
    obtain ⟨hhip, ⟨hpart, hanyone⟩, hkind, hcables⟩ := h
    rw [readPeer, PeerText.format, if_neg (by decide)]
    refine ⟨fun hsize => ⟨{ peeringAddr := .ipv4 addr 9042, hashipAddr := hip }, ?_, rfl⟩,
      fun hsize => exists_readNewFormat_eq_error ip (Nat.not_le.mp hsize)⟩
    exact (readNewFormat_peerReference ip hpart hanyone hkind hcables hsize).trans
      (ofTextsAndPort_eq hhip addr 9042)

/-- A peer whose hip cannot be read is not read either. -/
private theorem hipIsRead_of_isRead {peer : PeerText} (h : peer.IsRead) : peer.HipIsRead := by
  cases peer with
  | simple addr port hipText => exact h
  | groups hipText kind addr portText cables => trivial

/-- An answer that is neither of the two that are asked for. -/
private theorem not_reportsTruly_of_error {peer : PeerText} {unbanIfBanned : Bool} {node : Tunserver}
    {answer : RpcAnswer}
    (hrun : rpcAddPeer ip addresses unbanIfBanned peer.text peer.format node = .ok answer node)
    (hstate : answer.state = "error") : ¬ ReportsTruly ip addresses unbanIfBanned node peer hip := by
  rw [ReportsTruly, hrun]
  split_ifs
  · rintro ⟨answer', heq, hblocked⟩
    cases heq
    rw [hstate] at hblocked
    exact absurd hblocked (by decide)
  · rintro ⟨answer', node', heq, hok, -⟩
    cases heq
    rw [hstate] at hok
    exact absurd hok (by decide)

/-- A well-formed reference is reported truly exactly when, where the node unbans peers, the reference can be
read, and where it does not, the peer is banned and its hip can be read. So where the node does not unban
peers, no peer is ever added. -/
theorem reportsTruly_iff (addresses : AddressLib) {peer : PeerText} (h : peer.IsReference ip hip)
    (unbanIfBanned : Bool) (node : Tunserver) :
    ReportsTruly ip addresses unbanIfBanned node peer hip ↔
      if unbanIfBanned then peer.IsRead else hip ∈ node.peerBlackList ∧ peer.HipIsRead := by
  obtain ⟨hhip, hnoHip⟩ := readHip_text addresses h
  obtain ⟨hpeer, hnoPeer⟩ := readPeer_text addresses h
  by_cases hread : peer.HipIsRead
  · cases unbanIfBanned with
    | true =>
      rw [if_pos rfl]
      constructor
      · intro htruly
        by_contra hnotRead
        obtain ⟨e, herror⟩ := hnoPeer hnotRead
        exact not_reportsTruly_of_error (rpcAddPeer_true_of_error (hhip hread) herror node) rfl htruly
      · intro hisRead
        obtain ⟨peeringRef, hok, rfl⟩ := hpeer hisRead
        rw [ReportsTruly, if_neg fun hbanned => nomatch hbanned.2]
        refine ⟨_, _, rpcAddPeer_true_of_ok (hhip hread) hok node, rfl, ?_, ?_⟩
        · simp
        · simp
    | false =>
      rw [if_neg (by decide), and_iff_left hread, ReportsTruly, rpcAddPeer_false (hhip hread)]
      split_ifs with hbanned
      · exact iff_of_true ⟨_, rfl, rfl⟩ hbanned.1
      · refine iff_of_false ?_ fun hmem => hbanned ⟨hmem, rfl⟩
        rintro ⟨answer, node', heq, hok, -⟩
        cases heq
        exact absurd hok (by decide)
  · obtain ⟨e, herror⟩ := hnoHip hread
    refine iff_of_false ?_ ?_
    · exact not_reportsTruly_of_error (rpcAddPeer_of_error herror unbanIfBanned node) rfl
    · split_ifs
      · exact fun hisRead => hread (hipIsRead_of_isRead hisRead)
      · exact fun hboth => hread hboth.2

/-! ### A sample -/

/-- A reference of a peer. -/
def sampleReference : PeerText := .simple sampleIpv4 9042 (ipv6Text (sampleHip 1))

private theorem isReference_sampleReference : sampleReference.IsReference sampleIpLib (sampleHip 1) where
  hip := by
    rw [sampleReference, PeerText.hipText, HashipAddr.ofText, cStr_ipv6Text,
      sampleIpLib.addressV6FromString_ipv6Text]
  parts := ⟨⟨by decide, by decide⟩, by decide, by decide⟩

/-- A node that unbans peers. -/
theorem reportsTruly_iff_example :
    ReportsTruly sampleIpLib sampleAddressLib true (sampleNode 2) sampleReference (sampleHip 1) ↔
      if true then sampleReference.IsRead
      else sampleHip 1 ∈ (sampleNode 2).peerBlackList ∧ sampleReference.HipIsRead :=
  reportsTruly_iff sampleAddressLib isReference_sampleReference true (sampleNode 2)

/-- A node that does not unban peers refuses one that is not banned. -/
theorem not_reportsTruly_not_banned :
    ¬ ReportsTruly sampleIpLib sampleAddressLib false (sampleNode 2) sampleReference (sampleHip 1) := by
  have hread := (readHip_text sampleAddressLib isReference_sampleReference).1
    (show 8 ≤ (ipv4Text sampleIpv4).length by decide)
  have hfree : ¬ (sampleHip 1 ∈ (sampleNode 2).peerBlackList ∧ false = false) :=
    fun hbanned => Std.ExtTreeSet.not_mem_empty hbanned.1
  rw [ReportsTruly, if_neg hfree, rpcAddPeer_false hread]
  rintro ⟨answer, node', heq, hok, -⟩
  cases heq
  exact absurd hok (by decide)

end Tunserver

end Galaxy42
