import Mathlib.Data.List.TakeWhile
import Galaxy42.Tunserver.PeerReferences
import Galaxy42.Tunserver.Runs

/-!
# Invitations

A node writes an invitation with its own hip, and an IPv4 address and its port in each group. Another
node that is given the invitation adds it as a peer. The port in the invitation is not read there: the
peer gets the default port. So the peer has the address that the invitation says exactly when that is the
port of the node (`addsPeer_iff`), as far as the invitation is not too long, and the peer is not known.

How texts are read as addresses is up to the C library and to Boost, which are a parameter (`IpLib`). Its fields
say what is relied on: that the text of an IPv4 address is taken for one of this family, and that it and the text
of a hip, in the form that the program writes, are read as these addresses.

The two ends meet in the format of references (`PeerReferences`). That an invitation is a reference with
well-formed parts (`rpcGetGalaxyInvitation_eq_ok`) comes down to the characters of its parts: the digits of a
number, the dots of an address, the colons of a hip are none of the characters that separate the parts.

What the second node reads is then stated without the text (`readNewFormat_eq`), and what it does with it is
an operation on its table, which knows the hip already or does not. The sample library reads what the program
writes, and nothing else.
-/

namespace Galaxy42

open Toolkit Program StdString

/-! ### Addresses as texts -/

/-- An IPv6 address as a text: groups of four characters in hexadecimal with colons between them. -/
def ipv6Text (addr : HashipAddr) : Bytes :=
  MultikeysPub.hexdotFrom 0 (hexString addr.octets)

/-- The two families of addresses. -/
inductive AddressFamily where
  /-- `AF_INET` -/
  | inet
  /-- `AF_INET6` -/
  | inet6

/-- How the C library and Boost read addresses. What is said of texts is said of those that the program
writes, and nothing of others. -/
structure IpLib where
  /-- The family that `getaddrinfo` finds, for a numeric host. -/
  getaddrinfo : Bytes → Option AddressFamily
  /-- `inet_pton` for `AF_INET` -/
  inetPton4 : Bytes → Option (Block 4)
  /-- `inet_pton` for `AF_INET6` -/
  inetPton6 : Bytes → Option (Block 16)
  /-- `boost::asio::ip::address_v6::from_string` -/
  addressV6FromString : Bytes → Option HashipAddr
  getaddrinfo_ipv4Text : ∀ addr, getaddrinfo (ipv4Text addr) = some .inet
  inetPton4_ipv4Text : ∀ addr, inetPton4 (ipv4Text addr) = some addr
  addressV6FromString_ipv6Text : ∀ addr, addressV6FromString (ipv6Text addr) = some addr

variable (ip : IpLib)

/-- The constructor of `c_ip46_addr` from a text. A text that `inet_pton` does not read leaves the zeros. -/
def Ip46Addr.ofString (ipAddr : Bytes) (port : ℤ) : Except Exn Ip46Addr :=
  match ip.getaddrinfo (cStr ipAddr) with
  | .none => .error (.invalidArgument "unknown address format")
  | some .inet => .ok (.ipv4 ((ip.inetPton4 (cStr ipAddr)).getD 0) (UInt16.ofInt port))
  | some .inet6 => .ok (.ipv6 ((ip.inetPton6 (cStr ipAddr)).getD 0) (UInt16.ofInt port))

/-- The constructor of `c_haship_addr` from a text. -/
def HashipAddr.ofText (addrString : Bytes) : Except Exn HashipAddr :=
  match ip.addressV6FromString (cStr addrString) with
  | none => .error (.invalidArgument "The IP address looks invalid")
  | some addr => .ok addr

/-- The constructor of `t_peering_reference` from two texts, with the default port of `c_ip46_addr`. -/
def PeeringReference.ofTexts (peeringAddr peeringHip : Bytes) : Except Exn PeeringReference := do
  let peeringAddr ← Ip46Addr.ofString ip peeringAddr 9042
  let hashipAddr ← HashipAddr.ofText ip peeringHip
  return { peeringAddr, hashipAddr }

namespace Tunserver

/-! ### Writing and reading an invitation -/

/-- `get_my_ipv6_nice` -/
def getMyIpv6Nice (lib : CryptoLib) : Node Bytes := do
  let node ← get
  node.myIDIPub.getIpv6StringHexdot lib

/-- `rpc_get_galaxy_invitation`, of the member `"msg"` of the request, to the member `"inv"` of the
response. -/
def rpcGetGalaxyInvitation (lib : CryptoLib) (myPort : ℤ) (ipv4List : List Bytes) : Node Bytes := do
  let nice ← getMyIpv6Nice lib
  return nice ++ ipv4List.flatMap fun ipv4 =>
    ascii "@(udp:" ++ ipv4 ++ ascii ":" ++ printInt myPort ++ ascii ")"

/-- The part of `add_peer_simplestring_new_format` that makes a reference. -/
def readNewFormat (simple : Bytes) : Except Exn PeeringReference := do
  let parse ← parsePeerReference simple
  checkInput (parse.1.length > 0) "parse.first.size() > 0"
  checkInput (parse.2.length > 0) "parse.second.size() > 0"
  let cable := parse.2.headD []
  match find cable 58 0 with
  | none => .error (.errCheckInput "begin != std::string::npos")
  | some begin =>
    let ipv4WithPort ← StdString.substr cable (begin + 1) cable.length
    match find ipv4WithPort 58 0 with
    | none => .error (.errCheckInput "end != std::string::npos")
    | some last =>
      let ipv4 ← StdString.substr ipv4WithPort 0 last
      PeeringReference.ofTexts ip ipv4 (parse.1.headD [])

/-- `add_peer_simplestring_new_format` -/
def addPeerSimplestringNewFormat (simple : Bytes) : Node Unit :=
  catching (do
      let peeringRef ← fromExcept (readNewFormat ip simple)
      let _ ← addPeer peeringRef
      deletePeerFromBlackList peeringRef.hashipAddr)
    fun _ => some (raise (.errCheckInput "Bad peer new format"))

/-- The length of an invitation. -/
def invitationLength (myPort : ℤ) (addrs : List (Block 4)) : ℕ :=
  39 + (addrs.map fun addr => 8 + (ipv4Text addr).length + (printInt myPort).length).sum

/-- After the text was given to it, the node has a peer with the hip and the address. Nothing is asked of the
other peers. -/
def AddsPeer (simple : Bytes) (node : Tunserver) (hip : HashipAddr) (addr : Ip46Addr) : Prop :=
  ∃ node', addPeerSimplestringNewFormat ip simple node = .ok () node' ∧
    ∃ peering, node'.peer[hip]? = some peering ∧ peering.getPip = addr

end Tunserver

/-! ### The characters of the texts -/

private theorem of_mem_hexdotFrom {i : ℕ} {hexStr : Bytes} {c : UInt8}
    (h : c ∈ MultikeysPub.hexdotFrom i hexStr) : c = 58 ∨ c ∈ hexStr := by
  induction hexStr generalizing i with
  | nil => exact absurd h List.not_mem_nil
  | cons d hexStr ih =>
    rw [MultikeysPub.hexdotFrom] at h
    split at h
    · rcases List.mem_cons.mp h with rfl | h
      · exact .inr List.mem_cons_self
      · exact (List.mem_cons.mp h).elim .inl fun h => (ih h).imp_right (List.mem_cons_of_mem _)
    · rcases List.mem_cons.mp h with rfl | h
      · exact .inr List.mem_cons_self
      · exact (ih h).imp_right (List.mem_cons_of_mem _)

/-- After every fourth character but the last one there is a colon. -/
private theorem length_hexdotFrom (i : ℕ) {hexStr : Bytes} (h : hexStr ≠ []) :
    (MultikeysPub.hexdotFrom i hexStr).length + i / 4 =
      hexStr.length + (i + hexStr.length - 1) / 4 := by
  induction hexStr generalizing i with
  | nil => exact absurd rfl h
  | cons c hexStr ih =>
    rw [MultikeysPub.hexdotFrom]
    by_cases hlast : hexStr = []
    · simp [hlast, MultikeysPub.hexdotFrom]
    · have hpos := List.length_pos_iff.mpr hlast
      have hrest := ih (i + 1) hlast
      split
      next hcolon =>
        simp only [List.length_cons]
        omega
      next hcolon =>
        have hmod : (i + 1) % 4 ≠ 0 := by
          intro hmod
          exact hcolon ⟨by omega, hlast, hmod⟩
        simp only [List.length_cons]
        omega

private theorem length_ipv6Text (addr : HashipAddr) : (ipv6Text addr).length = 39 := by
  have hhex : (hexString addr.octets).length = 32 := by
    rw [length_hexString, addr.length_octets]
    rfl
  have hne : hexString addr.octets ≠ [] := List.ne_nil_of_length_pos (by omega)
  have hlength := length_hexdotFrom 0 hne
  rw [hhex] at hlength
  exact hlength

/-- A text without the characters that separate the parts of a reference. -/
theorem isPart_of_forall {part : Bytes} (hne : part ≠ [])
    (h : ∀ c ∈ part, c ≠ separator ∧ c ≠ groupOpen ∧ c ≠ groupClose) : IsPart part where
  ne_nil := hne
  separator hc := (h _ hc).1 rfl
  groupOpen hc := (h _ hc).2.1 rfl
  groupClose hc := (h _ hc).2.2 rfl

private theorem ne_of_digit {c : UInt8} (h : 48 ≤ c ∧ c ≤ 57) :
    c ≠ separator ∧ c ≠ groupOpen ∧ c ≠ groupClose := by
  refine ⟨?_, ?_, ?_⟩ <;> rintro rfl <;> revert h <;> decide

private theorem isPart_ipv6Text (addr : HashipAddr) : IsPart (ipv6Text addr) := by
  refine isPart_of_forall (List.ne_nil_of_length_pos (by simp [length_ipv6Text])) fun c hc => ?_
  rcases of_mem_hexdotFrom hc with rfl | hc
  · decide
  · rcases isHexchar_of_mem_hexString hc with h | h
    · exact ne_of_digit h
    · refine ⟨?_, ?_, ?_⟩ <;> rintro rfl <;> revert h <;> decide

/-- The cable of an IPv4 address, of any kind and with any port. -/
def ipv4Cable (kind : Bytes) (addr : Block 4) (portText : Bytes) : Bytes :=
  kind ++ 58 :: (ipv4Text addr ++ 58 :: portText)

/-- The text of an address in an invitation. -/
def udpCable (myPort : ℤ) (addr : Block 4) : Bytes :=
  ascii "udp" ++ 58 :: (ipv4Text addr ++ 58 :: printInt myPort)

private theorem isPart_udpCable (myPort : ℤ) (addr : Block 4) : IsPart (udpCable myPort addr) := by
  refine isPart_of_forall (by simp [udpCable]) fun c hc => ?_
  simp only [udpCable, List.mem_append, List.mem_cons] at hc
  rcases hc with hc | rfl | hc | rfl | hc
  · have hudp : (ascii "udp").all fun c =>
        decide (c ≠ separator ∧ c ≠ groupOpen ∧ c ≠ groupClose) := by decide
    exact of_decide_eq_true (List.all_eq_true.mp hudp c hc)
  · decide
  · rcases of_mem_ipv4Text hc with rfl | hc
    · decide
    · exact ne_of_digit hc
  · decide
  · rcases of_mem_printInt hc with rfl | hc
    · decide
    · exact ne_of_digit hc

theorem cStr_ipv6Text (addr : HashipAddr) : cStr (ipv6Text addr) = ipv6Text addr := by
  refine cStr_of_forall fun c hc => ?_
  rcases of_mem_hexdotFrom hc with rfl | hc
  · decide
  · have hhex := isHexchar_of_mem_hexString hc
    rintro rfl
    revert hhex
    decide

/-- The texts of two addresses make the reference with them, and with the default port. -/
private theorem PeeringReference.ofTexts_eq (addr : Block 4) (hip : HashipAddr) :
    PeeringReference.ofTexts ip (ipv4Text addr) (ipv6Text hip) =
      .ok { peeringAddr := .ipv4 addr 9042, hashipAddr := hip } := by
  have haddr : Ip46Addr.ofString ip (ipv4Text addr) 9042 = .ok (.ipv4 addr 9042) := by
    rw [Ip46Addr.ofString, cStr_ipv4Text, ip.getaddrinfo_ipv4Text, ip.inetPton4_ipv4Text]
    rfl
  have hhip : HashipAddr.ofText ip (ipv6Text hip) = .ok hip := by
    rw [HashipAddr.ofText, cStr_ipv6Text, ip.addressV6FromString_ipv6Text]
  rw [PeeringReference.ofTexts, haddr, hhip]
  rfl

namespace Tunserver

variable {lib : CryptoLib} {self self' : Tunserver} {own : HashipAddr}

/-! ### The invitation of a node -/

/-- An invitation is a reference with the hip of the node. The addresses are given to it as texts, and each of
them comes with the port of the node. -/
theorem rpcGetGalaxyInvitation_eq_ok
    (hown : (self.myIDIPub.getIpv6StringBin lib : Node Bytes) self = .ok own.octets self) (myPort : ℤ)
    (addrs : List (Block 4)) :
    rpcGetGalaxyInvitation lib myPort (addrs.map ipv4Text) self =
      .ok (peerReference (ipv6Text own) (addrs.map (udpCable myPort))) self := by
  have hhex : (self.myIDIPub.getIpv6StringHex lib : Node Bytes) self = .ok (hexString own.octets) self := by
    rw [MultikeysPub.getIpv6StringHex, bind_of_ok hown, stringAsHex_eq]
    rfl
  have hnice : getMyIpv6Nice lib self = .ok (ipv6Text own) self := by
    rw [getMyIpv6Nice, bind_of_ok (get_apply self), MultikeysPub.getIpv6StringHexdot, bind_of_ok hhex]
    rfl
  rw [rpcGetGalaxyInvitation, bind_of_ok hnice, pure_apply, peerReference, groups, List.flatMap_map,
    List.flatMap_map]
  refine congrArg (fun text => EStateM.Result.ok (ipv6Text own ++ text) self) ?_
  refine List.flatMap_congr fun addr _ => ?_
  simp [udpCable, ascii, separator, groupOpen, groupClose]

private theorem length_peerReference_udpCable (own : HashipAddr) (myPort : ℤ) (addrs : List (Block 4)) :
    (peerReference (ipv6Text own) (addrs.map (udpCable myPort))).length =
      invitationLength myPort addrs := by
  rw [peerReference, List.length_append, length_ipv6Text, invitationLength, groups, List.flatMap_map,
    List.length_flatMap]
  refine congrArg (fun lengths => 39 + lengths.sum) (List.map_congr_left fun addr _ => ?_)
  simp only [udpCable, ascii, List.length_cons, List.length_append, List.length_map, List.length_nil,
    String.length_toList, show "udp".length = 3 from rfl]
  omega

/-- What is read of a reference whose first cable has an IPv4 address. -/
theorem readNewFormat_peerReference {hipText kind portText : Bytes} {addr : Block 4}
    {cables : List Bytes} (hhip : IsPart hipText) (hanyone : hipText ≠ ascii "anyone")
    (hkind : 58 ∉ kind) (hcables : ∀ cable ∈ ipv4Cable kind addr portText :: cables, IsCable cable)
    (hsize : (peerReference hipText (ipv4Cable kind addr portText :: cables)).length ≤
      reasonableSizeLimitElementsDividedMax) :
    readNewFormat ip (peerReference hipText (ipv4Cable kind addr portText :: cables)) =
      PeeringReference.ofTexts ip (ipv4Text addr) hipText := by
  have hparse := parsePeerReference_peerReference hhip hanyone hcables hsize
  -- the first colon is behind the kind, the second one behind the address
  have hbegin : find (ipv4Cable kind addr portText) 58 0 = some kind.length := find_append_zero _ hkind
  have hwithPort : StdString.substr (ipv4Cable kind addr portText) (kind.length + 1)
      (ipv4Cable kind addr portText).length = .ok (ipv4Text addr ++ 58 :: portText) :=
    substr_append_cons _ _ _
  have hend : find (ipv4Text addr ++ 58 :: portText) 58 0 = some (ipv4Text addr).length :=
    find_append_zero _ (colon_not_mem_ipv4Text addr)
  have hid : [hipText].length > 0 := Nat.one_pos
  have hpos : (ipv4Cable kind addr portText :: cables).length > 0 := Nat.succ_pos _
  rw [readNewFormat, bindExcept_of_ok hparse]
  dsimp only
  rw [bindExcept_of_ok (checkInput_of hid _), bindExcept_of_ok (checkInput_of hpos _)]
  simp only [List.headD_cons, hbegin]
  rw [bindExcept_of_ok hwithPort, hend]
  dsimp only
  rw [bindExcept_of_ok (substr_zero_append _ _)]

/-- What the other node reads in an invitation. The hip is the one of the node, the address is the first one,
and the port is not looked at. -/
theorem readNewFormat_eq (own : HashipAddr) (myPort : ℤ) (first : Block 4) (rest : List (Block 4))
    (hsize : invitationLength myPort (first :: rest) ≤ reasonableSizeLimitElementsDividedMax) :
    readNewFormat ip (peerReference (ipv6Text own) ((first :: rest).map (udpCable myPort))) =
      .ok { peeringAddr := .ipv4 first 9042, hashipAddr := own } := by
  rw [← length_peerReference_udpCable own] at hsize
  have hanyone : ipv6Text own ≠ ascii "anyone" := by
    intro heq
    have hlength := length_ipv6Text own
    rw [heq] at hlength
    revert hlength
    decide
  have hcables : ∀ cable ∈ (first :: rest).map (udpCable myPort), IsCable cable :=
    List.forall_mem_map.mpr fun addr _ => (isPart_udpCable myPort addr).isCable
  rw [← PeeringReference.ofTexts_eq]
  exact readNewFormat_peerReference ip (isPart_ipv6Text own) hanyone (by decide) hcables hsize

/-- A reference that can be read is added, unless its hip is known. -/
theorem addPeerSimplestringNewFormat_of_ok {simple : Bytes} {peeringRef : PeeringReference}
    (h : readNewFormat ip simple = .ok peeringRef) (node : Tunserver) :
    addPeerSimplestringNewFormat ip simple node = .ok ()
      { node with
        peer := node.peer.insertIfNew peeringRef.hashipAddr (Peering.new peeringRef)
        peerBlackList := node.peerBlackList.erase peeringRef.hashipAddr } := by
  rw [addPeerSimplestringNewFormat, catching_eq_ok_iff, bind_of_ok (fromExcept_eq_ok_iff.mpr ⟨h, rfl⟩)]
  exact .inl rfl

theorem addPeerSimplestringNewFormat_of_error {simple : Bytes} {e : Exn}
    (h : readNewFormat ip simple = .error e) (node : Tunserver) :
    addPeerSimplestringNewFormat ip simple node =
      .error (.throw (.errCheckInput "Bad peer new format")) node := by
  simp [addPeerSimplestringNewFormat, catching, fromExcept, bind_apply, h]

/-- An invitation that is too long cannot be read. -/
theorem exists_readNewFormat_eq_error {simple : Bytes}
    (h : reasonableSizeLimitElementsDividedMax < simple.length) :
    ∃ e, readNewFormat ip simple = .error e :=
  ⟨_, by rw [readNewFormat, parsePeerReference_of_lt h]; rfl⟩

/-- A node that is given an invitation has the peer that the invitation is about exactly when the invitation
is not too long, and, when the hip is not known yet, the port is the default one. A node that knows the hip
already keeps the address that it has. -/
theorem addsPeer_iff
    (hown : (self.myIDIPub.getIpv6StringBin lib : Node Bytes) self = .ok own.octets self) (myPort : ℤ)
    (first : Block 4) (rest : List (Block 4)) {invitation : Bytes}
    (hinvitation : rpcGetGalaxyInvitation lib myPort ((first :: rest).map ipv4Text) self =
      .ok invitation self') (node : Tunserver) :
    AddsPeer ip invitation node own (.ipv4 first (UInt16.ofInt myPort)) ↔
      invitationLength myPort (first :: rest) ≤ reasonableSizeLimitElementsDividedMax ∧
        match node.peer[own]? with
        | some peering => peering.getPip = .ipv4 first (UInt16.ofInt myPort)
        | none => UInt16.ofInt myPort = 9042 := by
  rw [rpcGetGalaxyInvitation_eq_ok hown] at hinvitation
  obtain ⟨rfl, rfl⟩ := EStateM.Result.ok.inj hinvitation
  by_cases hsize : invitationLength myPort (first :: rest) ≤ reasonableSizeLimitElementsDividedMax
  · have hrun := addPeerSimplestringNewFormat_of_ok ip (readNewFormat_eq ip own myPort first rest hsize) node
    rw [AddsPeer, hrun]
    simp only [EStateM.Result.ok.injEq, true_and, exists_eq_left', hsize,
      Std.ExtTreeMap.getElem?_insertIfNew, Std.compare_self]
    cases hknown : node.peer[own]? with
    -- A peer that is known is kept as it is.
    | some peering =>
      have hmem : own ∈ node.peer := by
        rw [Std.ExtTreeMap.mem_iff_isSome_getElem?, hknown]
        rfl
      simp [hmem]
    | none =>
      have hmem : own ∉ node.peer := by
        rw [Std.ExtTreeMap.mem_iff_isSome_getElem?, hknown]
        exact Bool.false_ne_true
      simp [hmem, Peering.new, Peering.getPip, eq_comm]
  · refine iff_of_false ?_ fun h => hsize h.1
    rintro ⟨node', hrun, -⟩
    rw [← length_peerReference_udpCable own, not_le] at hsize
    obtain ⟨e, he⟩ := exists_readNewFormat_eq_error ip hsize
    rw [addPeerSimplestringNewFormat_of_error ip he] at hrun
    cases hrun

end Tunserver

/-! ### A sample -/

/-- Octets in hexadecimal, with colons somewhere between them. -/
def readIpv6Text (text : Bytes) : Option HashipAddr :=
  match stringAsBin (text.filter fun c => c ≠ 58) with
  | .ok octets => if h : octets.length = hashipAddrSize then some ⟨octets, h⟩ else none
  | .error _ => none

private theorem filter_hexdotFrom (i : ℕ) {hexStr : Bytes} (h : 58 ∉ hexStr) :
    (MultikeysPub.hexdotFrom i hexStr).filter (fun c => c ≠ 58) = hexStr := by
  induction hexStr generalizing i with
  | nil => rfl
  | cons c hexStr ih =>
    rw [List.mem_cons, not_or] at h
    have hrest := ih (i + 1) h.2
    rw [MultikeysPub.hexdotFrom]
    split
    · simpa [Ne.symm h.1] using hrest
    · simpa [Ne.symm h.1] using hrest

private theorem readIpv6Text_ipv6Text (addr : HashipAddr) : readIpv6Text (ipv6Text addr) = some addr := by
  have hcolon : (58 : UInt8) ∉ hexString addr.octets := fun hmem => by
    have hhex := isHexchar_of_mem_hexString hmem
    revert hhex
    decide
  rw [readIpv6Text, ipv6Text, filter_hexdotFrom 0 hcolon, stringAsBin_hexString]
  exact dif_pos addr.length_octets

/-- The libraries, as far as the sample uses them. -/
def sampleIpLib : IpLib where
  getaddrinfo text :=
    if (readIpv4Text text).isSome then some .inet
    else if (readIpv6Text text).isSome then some .inet6
    else none
  inetPton4 := readIpv4Text
  inetPton6 := readIpv6Text
  addressV6FromString := readIpv6Text
  getaddrinfo_ipv4Text addr := by
    rw [readIpv4Text_ipv4Text]
    rfl
  inetPton4_ipv4Text := readIpv4Text_ipv4Text
  addressV6FromString_ipv6Text := readIpv6Text_ipv6Text

namespace Tunserver

/-- An address for the sample. -/
def sampleIpv4 : Block 4 := ⟨[192, 168, 1, 107], rfl⟩

private theorem getIpv6StringBin_sampleNode :
    ((sampleNode 1).myIDIPub.getIpv6StringBin CryptoLib.sample : Node Bytes) (sampleNode 1) =
      .ok (sampleHip 1).octets (sampleNode 1) :=
  getIpv6StringBin_eq_ok_iff.mpr ⟨by decide +kernel, rfl⟩

/-- An invitation with two addresses, and the default port. -/
theorem addsPeer_iff_example : ∃ invitation,
    rpcGetGalaxyInvitation CryptoLib.sample 9042 ([sampleIpv4, 0].map ipv4Text) (sampleNode 1) =
      .ok invitation (sampleNode 1) ∧
    (AddsPeer sampleIpLib invitation (sampleNode 2) (sampleHip 1) (.ipv4 sampleIpv4 (UInt16.ofInt 9042)) ↔
      invitationLength 9042 [sampleIpv4, 0] ≤ reasonableSizeLimitElementsDividedMax ∧
        match (sampleNode 2).peer[sampleHip 1]? with
        | some peering => peering.getPip = .ipv4 sampleIpv4 (UInt16.ofInt 9042)
        | none => UInt16.ofInt 9042 = 9042) :=
  have hinvitation := rpcGetGalaxyInvitation_eq_ok getIpv6StringBin_sampleNode 9042 [sampleIpv4, 0]
  ⟨_, hinvitation, addsPeer_iff sampleIpLib getIpv6StringBin_sampleNode 9042 sampleIpv4 [0] hinvitation
    (sampleNode 2)⟩

/-- A node with another port is added with the default port. -/
theorem not_addsPeer_other_port : ∃ invitation,
    rpcGetGalaxyInvitation CryptoLib.sample 9043 [ipv4Text sampleIpv4] (sampleNode 1) =
      .ok invitation (sampleNode 1) ∧
    ¬ AddsPeer sampleIpLib invitation (sampleNode 2) (sampleHip 1)
      (.ipv4 sampleIpv4 (UInt16.ofInt 9043)) := by
  refine ⟨_, rpcGetGalaxyInvitation_eq_ok getIpv6StringBin_sampleNode 9043 [sampleIpv4], ?_⟩
  rintro ⟨node', hrun, peering, hfound, hpip⟩
  rw [addPeerSimplestringNewFormat_of_ok sampleIpLib
    (readNewFormat_eq sampleIpLib (sampleHip 1) 9043 sampleIpv4 [] (by decide)) (sampleNode 2)] at hrun
  obtain ⟨-, rfl⟩ := EStateM.Result.ok.inj hrun
  rw [Std.ExtTreeMap.getElem?_insertIfNew, if_pos ⟨Std.compare_self, Std.ExtTreeMap.not_mem_empty⟩]
    at hfound
  obtain rfl := Option.some.inj hfound
  revert hpip
  decide

end Tunserver

end Galaxy42
