import Galaxy42.Cable.Address
import Galaxy42.Cable.IpString

/-!
# Making addresses of cables

`cable_make_addr` makes an address of what the user has written, by the part in front of the first colon.
The help text lists the forms of UDP addresses that it should take. Not all of them are taken: where there
is a prefix the port must be there too, `udp4` is taken for a part of the address, and addresses of seven
characters are too short for `parse_ip_string`. Of other texts some are taken, since the port may have
anything behind it. `parsesAsDocumented_iff` tells the texts with which `cable_make_addr` does as documented.

The documentation is given by the forms (`AddrForm`), how an address is written in each, and which port is
meant (`portOf`). The code is given by which part of a text it looks into (`AddrPart`), and by what that part
is read as (`EndpointOf`). Neither is defined by the other. The theorem says for every text that the code
does as documented exactly when it is written in a form that the code knows and long enough, or is in no form
and nothing is taken of it.

The proof goes by where the first colon of the text is. What is in front of it decides the branch, and of the
three branches that have a prefix each is compared with the forms that begin with it.
-/

namespace Galaxy42

open Toolkit StdString

/-! ### Endpoints -/

/-- `boost::asio::ip::address` -/
inductive IpAddress where
  | v4 (addr : Block 4)
  | v6 (addr : Block 16)
  deriving DecidableEq

/-- `boost::asio::ip::udp::endpoint` -/
structure UdpEndpoint where
  address : IpAddress
  port : UInt16
  deriving DecidableEq

/-- `boost::asio::ip::address::from_string` -/
def addressFromString (lib : AddressLib) (s : Bytes) : Except Exn IpAddress :=
  match lib.addressV6FromString (cStr s) with
  | some addr => .ok (.v6 addr)
  | none =>
    match lib.addressV4FromString (cStr s) with
    | some addr => .ok (.v4 addr)
    | none => .error (.systemError "Invalid argument")

/-- The constructor of `c_cable_udp_addr` from a text. -/
def UdpEndpoint.ofString (lib : AddressLib) (ipString : Bytes) : Except Exn UdpEndpoint :=
  match parseIpString lib ipString with
  | .ok parsed => do
    let address ← addressFromString lib parsed.1
    return { address, port := UInt16.ofInt parsed.2 }
  | .error ex =>
    if ex.isInvalidArgument then
      .error (.errCheckInput ("Can not parse IP string, (" ++ ex.what ++ ")"))
    else .error ex

/-- `get_default_galaxy_port` -/
def getDefaultGalaxyPort : ℕ := 9042

/-! ### The factory -/

/-- The `try` block of `cable_make_addr`. Its `_try_user` throws an exception derived from
`std::runtime_error`. -/
def readAddr (lib : AddressLib) (str : Bytes) : Except Exn (CableAddr UdpEndpoint) :=
  match find str 58 0 with
  | none => do
    let endpoint ← UdpEndpoint.ofString lib (str ++ (58 :: decimal getDefaultGalaxyPort))
    return .udp endpoint
  | some pos1 => do
    throwIf (¬ pos1 > 0) (.runtimeError "pos1>0")
    let part1 ← StdString.substr str 0 pos1
    let part2 ← StdString.substr str (pos1 + 1) str.length
    if part1 = ascii "auto" ∨ part1 = ascii "udp" then
      let endpoint ← UdpEndpoint.ofString lib part2
      return .udp endpoint
    else if part1 = ascii "tcp" then
      .error (.invalidArgument "TCP addresses not yet implemented")
    else if part1 = ascii "shm" then
      match part2.find? fun c => !isAlnum c with
      | none => return .shm part2
      | some _ => .error (.invalidArgument "L_bad_peer_format")
    else
      let endpoint ← UdpEndpoint.ofString lib str
      return .udp endpoint

/-- `c_cable_base_addr::cable_make_addr` -/
def cableMakeAddr (lib : AddressLib) (str : Bytes) : Except Exn (CableAddr UdpEndpoint) :=
  match readAddr lib str with
  | .ok addr => .ok addr
  | .error e => .error (.errCheckInput ("L_bad_peer_format " ++ e.what))

/-! ### What is documented -/

/-- The forms of a UDP address. They are those of the documentation, with three that the code does not know. -/
inductive AddrForm where
  | ip
  | ipPort
  | udpIp
  | udpIpPort
  | autoIp
  | autoIpPort
  | udp4IpPort

namespace AddrForm

/-- How an address and a port are written. -/
def text (addr : Block 4) (port : ℕ) : AddrForm → Bytes
  | ip => ipv4Text addr
  | ipPort => ipv4Text addr ++ 58 :: decimal port
  | udpIp => ascii "udp" ++ 58 :: ipv4Text addr
  | udpIpPort => ascii "udp" ++ 58 :: (ipv4Text addr ++ 58 :: decimal port)
  | autoIp => ascii "auto" ++ 58 :: ipv4Text addr
  | autoIpPort => ascii "auto" ++ 58 :: (ipv4Text addr ++ 58 :: decimal port)
  | udp4IpPort => ascii "udp4" ++ 58 :: (ipv4Text addr ++ 58 :: decimal port)

/-- The port that is meant. A form without a port means the default one. -/
def portOf (port : ℕ) : AddrForm → ℕ
  | ip | udpIp | autoIp => 9042
  | ipPort | udpIpPort | autoIpPort | udp4IpPort => port

/-- The forms that `cable_make_addr` knows. The others are in its documentation, and are refused. -/
def IsKnown : AddrForm → Prop
  | ip | ipPort | udpIpPort | autoIpPort => True
  | udpIp | autoIp | udp4IpPort => False

end AddrForm

/-- The text is the address of a host, in one of the forms. The address is one of a host, and the port is one
that a host may have. -/
structure WrittenAs (str : Bytes) (form : AddrForm) (addr : Block 4) (port : ℕ) : Prop where
  eq_text : str = form.text addr port
  isUnicast : IsUnicast addr
  port_pos : 1 ≤ port
  port_le : port ≤ 65535

/-- The text is the address of a shared memory: alphanumerical, and not empty. -/
def IsShm (str : Bytes) : Prop :=
  ∃ name, str = ascii "shm" ++ 58 :: name ∧ name ≠ [] ∧ ∀ c ∈ name, isAlnum c = true

/-- The text is parsed as documented: an address in one of the forms is that address, and what is neither one
nor the address of a shared memory is refused. What is refused is refused with the exception of the checks of
the input. -/
def ParsesAsDocumented (lib : AddressLib) (str : Bytes) : Prop :=
  (∀ form addr port, WrittenAs str form addr port →
    cableMakeAddr lib str = .ok (.udp { address := .v4 addr, port := UInt16.ofNat (form.portOf port) })) ∧
  ((¬ ∃ form addr port, WrittenAs str form addr port) → ¬ IsShm str →
    ∃ cond, cableMakeAddr lib str = .error (.errCheckInput cond))

/-- The part of the text in which `cable_make_addr` looks for an address. -/
def AddrPart (str rest : Bytes) : Prop :=
  58 ∉ str ∧ rest = str ++ 58 :: decimal getDefaultGalaxyPort ∨
  58 ∈ str ∧ rest = str ∨ str = ascii "udp" ++ 58 :: rest ∨ str = ascii "auto" ++ 58 :: rest

/-- The address of the endpoint that a text is read as. -/
def EndpointOf (text : Bytes) (cableAddr : CableAddr UdpEndpoint) : Prop :=
  ∃ host addr port, ReadsAs text host addr port ∧
    cableAddr = .udp { address := .v4 addr, port := UInt16.ofInt port }

/-- The text is read: as an address and a port, or as a shared memory without a name. This goes by what the
functions of the library make of the parts of the text. -/
def IsTaken (str : Bytes) : Prop :=
  str = ascii "shm:" ∨ ∃ rest host addr port, AddrPart str rest ∧ ReadsAs rest host addr port

variable {lib : AddressLib}

/-! ### What is read -/

/-- The endpoint that is read. -/
theorem UdpEndpoint.ofString_eq_ok_iff {text : Bytes} {endpoint : UdpEndpoint} :
    UdpEndpoint.ofString lib text = .ok endpoint ↔
      ∃ host addr port, ReadsAs text host addr port ∧
        endpoint = { address := .v4 addr, port := UInt16.ofInt port } := by
  have haddress : ∀ {host addr port}, ReadsAs text host addr port →
      addressFromString lib host = .ok (.v4 addr) := fun h => by
    rw [addressFromString, h.cStr_host, lib.addressV6FromString_ipv4Text,
      lib.addressV4FromString_eq_some_iff.mpr rfl]
  rw [UdpEndpoint.ofString]
  constructor
  · intro h
    rcases parseIpString_cases lib text with ⟨⟨host, port⟩, hok⟩ | ⟨msg, herror⟩
    · obtain ⟨addr, hreads⟩ := parseIpString_eq_ok_iff.mp hok
      rw [hok] at h
      simp only [bindExcept_of_ok (haddress hreads)] at h
      exact ⟨host, addr, port, hreads, (Except.ok.inj h).symm⟩
    · simp [herror, Exn.isInvalidArgument] at h
  · rintro ⟨host, addr, port, hreads, rfl⟩
    rw [parseIpString_eq_ok_iff.mpr ⟨addr, hreads⟩]
    exact bindExcept_of_ok (haddress hreads)

/-- An address of UDP is made of a text. -/
theorem readUdp_eq_ok_iff {text : Bytes} {addr : CableAddr UdpEndpoint} :
    (do let endpoint ← UdpEndpoint.ofString lib text
        return .udp endpoint : Except Exn (CableAddr UdpEndpoint)) = .ok addr ↔ EndpointOf text addr := by
  rw [bindExcept_eq_ok_iff]
  constructor
  · rintro ⟨endpoint, hmade, hret⟩
    obtain ⟨host, a, port, hreads, rfl⟩ := UdpEndpoint.ofString_eq_ok_iff.mp hmade
    exact ⟨host, a, port, hreads, (Except.ok.inj hret).symm⟩
  · rintro ⟨host, a, port, hreads, rfl⟩
    exact ⟨_, UdpEndpoint.ofString_eq_ok_iff.mpr ⟨host, a, port, hreads, rfl⟩, rfl⟩

/-- A part in front of the first colon that is too short is no address. -/
theorem not_endpointOf_append {part1 part2 : Bytes} {addr : CableAddr UdpEndpoint} (h : 58 ∉ part1)
    (hlt : part1.length < 8) : ¬ EndpointOf (part1 ++ 58 :: part2) addr := by
  rintro ⟨host, a, port, hreads, -⟩
  exact not_readsAs_of_length_lt h hlt hreads

/-- What is made of a text with a colon, by the part in front of it. -/
private theorem readAddr_append {part1 part2 : Bytes} (h : 58 ∉ part1) :
    readAddr lib (part1 ++ 58 :: part2) =
      if part1 = [] then .error (.runtimeError "pos1>0")
      else if part1 = ascii "auto" ∨ part1 = ascii "udp" then do
        let endpoint ← UdpEndpoint.ofString lib part2
        return .udp endpoint
      else if part1 = ascii "tcp" then .error (.invalidArgument "TCP addresses not yet implemented")
      else if part1 = ascii "shm" then
        if part2.all isAlnum then .ok (.shm part2)
        else .error (.invalidArgument "L_bad_peer_format")
      else do
        let endpoint ← UdpEndpoint.ofString lib (part1 ++ 58 :: part2)
        return .udp endpoint := by
  rw [readAddr, find_append_zero part2 h]
  by_cases hnil : part1 = []
  · rw [if_pos hnil, hnil]
    rfl
  · have hpos : ¬ ¬ part1.length > 0 := not_not.mpr (List.length_pos_iff.mpr hnil)
    have hfind : part2.all isAlnum = true ↔ part2.find? (fun c => !isAlnum c) = none := by
      simp [List.find?_eq_none]
    simp only [throwIf, if_neg hpos, substr_zero_append, substr_append_cons, if_neg hnil, hfind,
      bindExcept_ok]
    cases part2.find? (fun c => !isAlnum c) with
    | none => rfl
    | some c => rfl

/-- What `cable_make_addr` makes of a text without a colon. -/
theorem readAddr_eq_ok_iff_of_not_mem {str : Bytes} {addr : CableAddr UdpEndpoint} (h : 58 ∉ str) :
    readAddr lib str = .ok addr ↔ EndpointOf (str ++ 58 :: decimal getDefaultGalaxyPort) addr := by
  rw [readAddr, find_eq_none_of_not_mem h, ← @readUdp_eq_ok_iff lib]

/-- What `cable_make_addr` makes of a text with a colon. -/
theorem readAddr_append_eq_ok_iff {part1 part2 : Bytes} {addr : CableAddr UdpEndpoint} (h : 58 ∉ part1) :
    readAddr lib (part1 ++ 58 :: part2) = .ok addr ↔
      EndpointOf (part1 ++ 58 :: part2) addr ∨
      (part1 = ascii "auto" ∨ part1 = ascii "udp") ∧ EndpointOf part2 addr ∨
      part1 = ascii "shm" ∧ (∀ c ∈ part2, isAlnum c = true) ∧ addr = .shm part2 := by
  have hshort : part1.length < 8 → ¬ EndpointOf (part1 ++ 58 :: part2) addr := not_endpointOf_append h
  rw [readAddr_append h, ← List.all_eq_true]
  split_ifs with hnil hudp htcp hshm halnum
  · subst hnil
    simpa [ascii] using hshort (by decide)
  · have hne : part1 ≠ ascii "shm" := by rcases hudp with rfl | rfl <;> decide
    have hlt : part1.length < 8 := by rcases hudp with rfl | rfl <;> decide
    rw [readUdp_eq_ok_iff]
    simp [hshort hlt, hudp, hne]
  · have hne : part1 ≠ ascii "shm" := by rw [htcp]; decide
    have hlt : part1.length < 8 := by rw [htcp]; decide
    simp [hshort hlt, hudp, hne]
  · have hlt : part1.length < 8 := by rw [hshm]; decide
    simp only [hshort hlt, hudp, eq_true hshm, eq_true halnum, Except.ok.injEq, false_or,
      false_and, true_and]
    exact eq_comm
  · have hlt : part1.length < 8 := by rw [hshm]; decide
    simp [hshort hlt, hudp, halnum]
  · rw [readUdp_eq_ok_iff]
    simp [hudp, hshm]

private theorem cableMakeAddr_eq_ok_iff_readAddr {str : Bytes} {addr : CableAddr UdpEndpoint} :
    cableMakeAddr lib str = .ok addr ↔ readAddr lib str = .ok addr := by
  rw [cableMakeAddr]
  cases readAddr lib str <;> simp

/-- What is not made is refused. -/
private theorem exists_cableMakeAddr_eq_error {str : Bytes} (h : ¬ ∃ addr, readAddr lib str = .ok addr) :
    ∃ cond, cableMakeAddr lib str = .error (.errCheckInput cond) := by
  rw [cableMakeAddr]
  cases hread : readAddr lib str with
  | ok addr => exact absurd ⟨addr, hread⟩ h
  | error e => exact ⟨_, rfl⟩

/-! ### What is documented, and what is made -/

private theorem ofInt_natCast (port : ℕ) : UInt16.ofInt port = UInt16.ofNat port := by
  apply UInt16.toNat_inj.mp
  rw [UInt16.ofInt, UInt16.toNat_ofNat', UInt16.toNat_ofNat']
  omega

/-- An address and a port, as they are written, are read unless the address is too short. -/
theorem endpointOf_iff {addr : Block 4} {port : ℕ} (hunicast : IsUnicast addr) (hpos : 1 ≤ port)
    (hle : port ≤ 65535) :
    EndpointOf (ipv4Text addr ++ 58 :: decimal port)
        (.udp { address := .v4 addr, port := UInt16.ofNat port }) ↔ 8 ≤ (ipv4Text addr).length := by
  constructor
  · intro hendpoint
    by_contra hlt
    exact not_endpointOf_append (colon_not_mem_ipv4Text addr) (by omega) hendpoint
  · intro hlength
    exact ⟨ipv4Text addr, addr, port, readsAs_ipPort hunicast hpos hle hlength, by rw [ofInt_natCast]⟩

/-- An address in one of the forms is made exactly when the form is known, and the address not too short. -/
theorem WrittenAs.cableMakeAddr_eq_ok_iff {str : Bytes} {form : AddrForm} {addr : Block 4} {port : ℕ}
    (h : WrittenAs str form addr port) :
    cableMakeAddr lib str =
        .ok (.udp { address := .v4 addr, port := UInt16.ofNat (form.portOf port) }) ↔
      form.IsKnown ∧ 8 ≤ (ipv4Text addr).length := by
  obtain ⟨rfl, hunicast, hpos, hle⟩ := h
  have hcolon := colon_not_mem_ipv4Text addr
  have hdefault := endpointOf_iff hunicast (show 1 ≤ 9042 by decide) (by decide)
  have hport := endpointOf_iff hunicast hpos hle
  have hbare : ∀ {a}, ¬ EndpointOf (ipv4Text addr) a := by
    rintro a ⟨host, a, port, hreads, -⟩
    exact hcolon hreads.mem
  have hlong := (length_ipv4Text addr).1
  rw [cableMakeAddr_eq_ok_iff_readAddr]
  cases form with
  | ip =>
    rw [AddrForm.text, readAddr_eq_ok_iff_of_not_mem hcolon]
    simpa [AddrForm.IsKnown, AddrForm.portOf, getDefaultGalaxyPort] using hdefault
  | ipPort =>
    have hne : ∀ text : Bytes, text.length < 7 → ipv4Text addr ≠ text := by
      rintro text hlt rfl
      omega
    rw [AddrForm.text, readAddr_append_eq_ok_iff hcolon]
    simpa [AddrForm.IsKnown, AddrForm.portOf, hne _ (show (ascii "auto").length < 7 by decide),
      hne _ (show (ascii "udp").length < 7 by decide), hne _ (show (ascii "shm").length < 7 by decide)]
      using hport
  | udpIp =>
    rw [AddrForm.text, readAddr_append_eq_ok_iff (by decide)]
    simp [AddrForm.IsKnown, not_endpointOf_append (show 58 ∉ ascii "udp" by decide) (by decide), hbare]
  | udpIpPort =>
    rw [AddrForm.text, readAddr_append_eq_ok_iff (by decide)]
    simpa [AddrForm.IsKnown, AddrForm.portOf,
      not_endpointOf_append (show 58 ∉ ascii "udp" by decide) (by decide)] using hport
  | autoIp =>
    rw [AddrForm.text, readAddr_append_eq_ok_iff (by decide)]
    simp [AddrForm.IsKnown, not_endpointOf_append (show 58 ∉ ascii "auto" by decide) (by decide), hbare]
  | autoIpPort =>
    rw [AddrForm.text, readAddr_append_eq_ok_iff (by decide)]
    simpa [AddrForm.IsKnown, AddrForm.portOf,
      not_endpointOf_append (show 58 ∉ ascii "auto" by decide) (by decide)] using hport
  | udp4IpPort =>
    rw [AddrForm.text, readAddr_append_eq_ok_iff (by decide)]
    simp [AddrForm.IsKnown, not_endpointOf_append (show 58 ∉ ascii "udp4" by decide) (by decide),
      show ascii "udp4" ≠ ascii "auto" by decide, show ascii "udp4" ≠ ascii "udp" by decide]

/-- Where a text without a colon is looked into. -/
private theorem addrPart_of_not_mem {str rest : Bytes} (h : 58 ∉ str) :
    AddrPart str rest ↔ rest = str ++ 58 :: decimal getDefaultGalaxyPort := by
  constructor
  · rintro (⟨-, rfl⟩ | ⟨hmem, -⟩ | rfl | rfl)
    · rfl
    · exact absurd hmem h
    · simp at h
    · simp at h
  · rintro rfl
    exact .inl ⟨h, rfl⟩

/-- Where a text with a colon is looked into. -/
private theorem addrPart_append {part1 part2 rest : Bytes} (h : 58 ∉ part1) :
    AddrPart (part1 ++ 58 :: part2) rest ↔
      rest = part1 ++ 58 :: part2 ∨ (part1 = ascii "auto" ∨ part1 = ascii "udp") ∧ rest = part2 := by
  constructor
  · rintro (⟨hmem, -⟩ | ⟨-, rfl⟩ | heq | heq)
    · simp at hmem
    · exact .inl rfl
    · obtain ⟨rfl, rfl⟩ := append_cons_inj h (by decide) heq
      exact .inr ⟨.inr rfl, rfl⟩
    · obtain ⟨rfl, rfl⟩ := append_cons_inj h (by decide) heq
      exact .inr ⟨.inl rfl, rfl⟩
  · rintro (rfl | ⟨rfl | rfl, rfl⟩)
    · exact .inr (.inl ⟨by simp, rfl⟩)
    · exact .inr (.inr (.inr rfl))
    · exact .inr (.inr (.inl rfl))

/-- The part in front of the first colon of an address of a shared memory, or of one without a name. -/
private theorem isShm_append {part1 part2 : Bytes} (h : 58 ∉ part1) :
    part1 ++ 58 :: part2 = ascii "shm:" ∨ IsShm (part1 ++ 58 :: part2) ↔
      part1 = ascii "shm" ∧ ∀ c ∈ part2, isAlnum c = true := by
  constructor
  · rintro (heq | ⟨name, heq, -, halnum⟩)
    · obtain ⟨rfl, rfl⟩ := append_cons_inj h (show 58 ∉ ascii "shm" by decide)
        (show _ = ascii "shm" ++ 58 :: [] from heq)
      exact ⟨rfl, by simp⟩
    · obtain ⟨rfl, rfl⟩ := append_cons_inj h (by decide) heq
      exact ⟨rfl, halnum⟩
  · rintro ⟨rfl, halnum⟩
    by_cases hnil : part2 = []
    · exact .inl (by rw [hnil]; decide)
    · exact .inr ⟨part2, rfl, hnil, halnum⟩

/-- The texts of which an address is made. -/
theorem exists_readAddr_eq_ok_iff {str : Bytes} :
    (∃ addr, readAddr lib str = .ok addr) ↔ IsTaken str ∨ IsShm str := by
  have hendpoint : ∀ {text : Bytes}, (∃ addr, EndpointOf text addr) ↔
      ∃ host addr port, ReadsAs text host addr port := fun {text} => by
    constructor
    · rintro ⟨-, host, addr, port, hreads, -⟩
      exact ⟨host, addr, port, hreads⟩
    · rintro ⟨host, addr, port, hreads⟩
      exact ⟨_, host, addr, port, hreads, rfl⟩
  by_cases hmem : 58 ∈ str
  · obtain ⟨part1, part2, rfl, hpart⟩ := exists_eq_append_of_mem hmem
    simp only [readAddr_append_eq_ok_iff hpart, exists_or, exists_and_left, hendpoint, exists_eq, and_true]
    rw [IsTaken, or_right_comm, isShm_append hpart, ← or_assoc]
    refine Iff.trans (or_congr_left ?_) or_comm
    simp only [addrPart_append hpart, or_and_right, exists_or, and_assoc, exists_and_left, exists_eq_left]
  · have hshm : ∀ {name : Bytes}, str ≠ ascii "shm" ++ 58 :: name := by
      rintro name rfl
      simp at hmem
    have hcolon : str ≠ ascii "shm:" := @hshm []
    simp [readAddr_eq_ok_iff_of_not_mem hmem, hendpoint, IsTaken, IsShm, addrPart_of_not_mem hmem, hshm,
      hcolon]

/-- The texts that are parsed as documented. Of the documented forms three are not known, and texts of other
kinds are taken that should be refused: the condition names both, as properties of the text. -/
theorem parsesAsDocumented_iff (lib : AddressLib) (str : Bytes) :
    ParsesAsDocumented lib str ↔
      (∀ form addr port, WrittenAs str form addr port →
        form.IsKnown ∧ 8 ≤ (ipv4Text addr).length) ∧
      ((¬ ∃ form addr port, WrittenAs str form addr port) → ¬ IsShm str → ¬ IsTaken str) := by
  refine and_congr ?_ ?_
  · refine forall_congr' fun form => forall_congr' fun addr => forall_congr' fun port => ?_
    exact forall_congr' fun h => h.cableMakeAddr_eq_ok_iff
  · refine imp_congr_right fun _ => imp_congr_right fun hshm => ?_
    have hread := @exists_readAddr_eq_ok_iff lib str
    rw [or_iff_left hshm] at hread
    rw [← hread]
    constructor
    · rintro ⟨cond, herror⟩ ⟨addr, hok⟩
      rw [cableMakeAddr_eq_ok_iff_readAddr.mpr hok] at herror
      cases herror
    · exact exists_cableMakeAddr_eq_error

/-! ### A sample -/

/-- The address of the help text. -/
def helpAddr : Block 4 := ⟨[4, 5, 6, 7], rfl⟩

/-- An address of the help text that is refused. -/
theorem not_parsesAsDocumented_auto_ip : ¬ ParsesAsDocumented sampleAddressLib (ascii "auto:4.5.6.7") := by
  intro h
  have hok := h.1 .autoIp helpAddr 9042 {
    eq_text := by decide
    isUnicast := ⟨by decide, by decide⟩
    port_pos := by decide
    port_le := by decide }
  revert hok
  decide +kernel

end Galaxy42
