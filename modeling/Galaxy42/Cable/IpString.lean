import Galaxy42.Utils.Texts

/-!
# Addresses with a port, as texts

`tunserver_utils::parse_ip_string` reads an IPv4 address and a port with a colon between them. It looks at
the lengths first, and asks for eight characters in front of the colon, though the shortest addresses have
seven. Behind the colon it takes whatever `std::stoi` takes. `parseIpString_eq_ok_iff` says what is read.

The parsers of Boost are not in the repository: `AddressLib` is what the function uses of them, with what is
documented of it, that the text of an IPv4 address, and no other, is read as that address, and that it is no
IPv6 address. The classes of addresses are computed from the first octet, as Boost does, because the function
refuses what is no address of a host.

What is read is stated as a relation between a text and its address and port (`ReadsAs`), and not through
the checks in the order of the code. Two consequences are used elsewhere: a text whose part in front of the
colon is too short is refused (`not_readsAs_of_length_lt`), and an address and a port as they are printed are
read when the address has eight characters (`readsAs_ipPort`).
-/

namespace Galaxy42

open Toolkit StdString

/-! ### Addresses of Boost -/

/-- How Boost reads addresses. Of a text that the library does not read nothing is known. -/
structure AddressLib where
  /-- `boost::asio::ip::address_v4::from_string` -/
  addressV4FromString : Bytes → Option (Block 4)
  /-- `boost::asio::ip::address_v6::from_string` -/
  addressV6FromString : Bytes → Option (Block 16)
  addressV4FromString_eq_some_iff : ∀ {text addr},
    addressV4FromString text = some addr ↔ text = ipv4Text addr
  addressV6FromString_ipv4Text : ∀ addr, addressV6FromString (ipv4Text addr) = none

/-- The first octet of an address, which tells its class. -/
def firstOctet (addr : Block 4) : UInt8 := addr.octets.headD 0

/-- `is_class_a` -/
def isClassA (addr : Block 4) : Bool := firstOctet addr &&& 0x80 == 0

/-- `is_class_b` -/
def isClassB (addr : Block 4) : Bool := firstOctet addr &&& 0xC0 == 0x80

/-- `is_class_c` -/
def isClassC (addr : Block 4) : Bool := firstOctet addr &&& 0xE0 == 0xC0

/-- `is_loopback` -/
def isLoopback (addr : Block 4) : Bool := firstOctet addr == 127

/-- `is_unspecified` -/
def isUnspecified (addr : Block 4) : Bool := decide (addr = 0)

/-- `is_multicast` -/
def isMulticast (addr : Block 4) : Bool := firstOctet addr &&& 0xF0 == 0xE0

/-- The addresses of hosts: class A, B or C, and not all zeros. -/
def IsUnicast (addr : Block 4) : Prop := firstOctet addr < 224 ∧ addr ≠ 0

/-! ### Reading -/

/-- The `try` block of `parse_ip_string`. The errors leave out the strings that they quote. -/
def readIpString (lib : AddressLib) (ipString : Bytes) : Except Exn (Bytes × ℤ) := do
  throwIf (ipString.length < (1 + 1) * 4) (.runtimeError "Invalid (too small) IP size")
  throwIf (ipString.length > 4 * 4 + 1 + 4) (.runtimeError "Invalid (too big) IP size")
  match find ipString 58 0 with
  | none => .error (.runtimeError "Invalid IP format (char ':')")
  | some pos =>
    let ip ← StdString.substr ipString 0 pos
    throwIf (ip.length < (1 + 1) * 4) (.runtimeError "Invalid (too small) IP size (ip part)")
    let port ← StdString.substr ipString (pos + 1) ipString.length
    throwIf (ip.length < 1) (.runtimeError "Invalid (too small) IP size (port part)")
    let portInt ← stoi port
    throwIf (portInt ≤ 0) (.runtimeError "Invalid port")
    throwIf (portInt > 65535) (.runtimeError "Invalid port")
    match lib.addressV4FromString (cStr ip) with
    | none => .error (.runtimeError "Invalid address (boost detected)")
    | some ipBoost =>
      let isGoodClass := isClassA ipBoost || isClassB ipBoost || isClassC ipBoost || isLoopback ipBoost
      let isBadClass := isUnspecified ipBoost || isMulticast ipBoost
      throwIf (¬ (isGoodClass && !isBadClass) = true)
        (.runtimeError "Invalid address (not a normal ip-class of address)")
      return (ip, portInt)

/-- `tunserver_utils::parse_ip_string` -/
def parseIpString (lib : AddressLib) (ipString : Bytes) : Except Exn (Bytes × ℤ) :=
  match readIpString lib ipString with
  | .ok parsed => .ok parsed
  | .error ex => .error (.invalidArgument (ex.what ++ " L_bad_format_of_input_ip_address"))

/-- What a text has to be to be read as an address and a port. The text `host` is the address, up to a
zero octet. -/
structure ReadsAs (text host : Bytes) (addr : Block 4) (port : ℤ) : Prop where
  split : ∃ portText, text = host ++ 58 :: portText ∧ stoi portText = .ok port
  not_mem : 58 ∉ host
  length_host : 8 ≤ host.length
  length_text : text.length ≤ 21
  port_pos : 1 ≤ port
  port_le : port ≤ 65535
  cStr_host : cStr host = ipv4Text addr
  isUnicast : IsUnicast addr

variable {lib : AddressLib}

private theorem isUnicast_iff (addr : Block 4) : IsUnicast addr ↔
    ((isClassA addr || isClassB addr || isClassC addr || isLoopback addr) &&
      !(isUnspecified addr || isMulticast addr)) = true := by
  have hclass : ∀ n : Fin 256, UInt8.ofNat n < 224 ↔
      ((UInt8.ofNat n &&& 0x80 == 0 || UInt8.ofNat n &&& 0xC0 == 0x80 || UInt8.ofNat n &&& 0xE0 == 0xC0 ||
        UInt8.ofNat n == 127) && !(UInt8.ofNat n &&& 0xF0 == 0xE0)) = true := by
    decide +kernel
  have hfirst := hclass ⟨(firstOctet addr).toNat, (firstOctet addr).toNat_lt⟩
  simp only [UInt8.ofNat_toNat] at hfirst
  rw [IsUnicast, hfirst]
  change (_ && !isMulticast addr) = true ∧ _ ↔ _
  rw [isUnspecified, Bool.and_eq_true, Bool.and_eq_true, Bool.not_or, Bool.and_eq_true, ← decide_not,
    decide_eq_true_iff]
  exact ⟨fun h => ⟨h.1.1, h.2, h.1.2⟩, fun h => ⟨⟨h.1, h.2.2⟩, h.2.1⟩⟩

/-- What the `try` block reads. -/
theorem readIpString_eq_ok_iff {text host : Bytes} {port : ℤ} :
    readIpString lib text = .ok (host, port) ↔ ∃ addr, ReadsAs text host addr port := by
  constructor
  · intro h
    obtain ⟨_, -, h⟩ := bindExcept_eq_ok_iff.mp h
    obtain ⟨_, hlong, h⟩ := bindExcept_eq_ok_iff.mp h
    rw [throwIf_eq_ok_iff] at hlong
    by_cases hmem : 58 ∈ text
    · obtain ⟨part, portText, rfl, hpart⟩ := exists_eq_append_of_mem hmem
      simp only [find_append_zero portText hpart, substr_zero_append, substr_append_cons,
        bindExcept_eq_ok_iff, throwIf_eq_ok_iff, Except.ok.injEq, exists_eq_left'] at h
      obtain ⟨-, hshort, -, -, port', hstoi, -, hpos, -, hle, h⟩ := h
      cases haddr : lib.addressV4FromString (cStr part) with
      | none => simp [haddr] at h
      | some addr =>
        simp only [haddr, bindExcept_eq_ok_iff, throwIf_eq_ok_iff, not_not, ← isUnicast_iff, pure,
          Except.pure, Except.ok.injEq, Prod.mk.injEq] at h
        obtain ⟨-, hunicast, rfl, rfl⟩ := h
        exact ⟨addr, {
          split := ⟨portText, rfl, hstoi⟩
          not_mem := hpart
          length_host := by omega
          length_text := by omega
          port_pos := by omega
          port_le := by omega
          cStr_host := lib.addressV4FromString_eq_some_iff.mp haddr
          isUnicast := hunicast }⟩
    · simp [find_eq_none_of_not_mem hmem] at h
  · rintro ⟨addr, h⟩
    obtain ⟨portText, rfl, hstoi⟩ := h.split
    have haddr := lib.addressV4FromString_eq_some_iff.mpr h.cStr_host
    have hhost := h.length_host
    have hlength := h.length_text
    have hpos := h.port_pos
    have hle := h.port_le
    simp only [readIpString, find_append_zero portText h.not_mem, substr_zero_append, substr_append_cons,
      bindExcept_eq_ok_iff, throwIf_eq_ok_iff, Except.ok.injEq, exists_eq_left', haddr, not_not,
      ← isUnicast_iff, pure, Except.pure, hstoi]
    rw [List.length_append] at hlength ⊢
    exact ⟨(), by omega, (), by omega, (), by omega, (), by omega, (), by omega, (), by omega, (),
      h.isUnicast, trivial⟩

/-- What is read: a host with a port, in one of the forms of `ReadsAs`. -/
theorem parseIpString_eq_ok_iff {text host : Bytes} {port : ℤ} :
    parseIpString lib text = .ok (host, port) ↔ ∃ addr, ReadsAs text host addr port := by
  rw [← @readIpString_eq_ok_iff lib, parseIpString]
  cases readIpString lib text <;> simp

/-- What is not read is reported with one kind of exception. -/
theorem parseIpString_cases (lib : AddressLib) (text : Bytes) :
    (∃ parsed, parseIpString lib text = .ok parsed) ∨
      ∃ msg, parseIpString lib text = .error (.invalidArgument msg) := by
  rw [parseIpString]
  cases readIpString lib text <;> simp

theorem ReadsAs.mem {text host : Bytes} {addr : Block 4} {port : ℤ} (h : ReadsAs text host addr port) :
    58 ∈ text := by
  obtain ⟨portText, rfl, -⟩ := h.split
  simp

/-- A part in front of a colon that is too short is no address. -/
theorem not_readsAs_of_length_lt {part rest host : Bytes} {addr : Block 4} {port : ℤ} (hpart : 58 ∉ part)
    (hlt : part.length < 8) : ¬ ReadsAs (part ++ 58 :: rest) host addr port := by
  intro h
  obtain ⟨portText, heq, -⟩ := h.split
  obtain ⟨rfl, -⟩ := append_cons_inj hpart h.not_mem heq
  exact absurd h.length_host (by omega)

/-- An address and a port, as they are written. -/
theorem readsAs_ipPort {addr : Block 4} {port : ℕ} (hunicast : IsUnicast addr) (hpos : 1 ≤ port)
    (hle : port ≤ 65535) (hlength : 8 ≤ (ipv4Text addr).length) :
    ReadsAs (ipv4Text addr ++ 58 :: decimal port) (ipv4Text addr) addr port where
  split := ⟨decimal port, rfl, stoi_decimal (by omega)⟩
  not_mem := colon_not_mem_ipv4Text addr
  length_host := hlength
  length_text := by
    have haddr := (length_ipv4Text addr).2
    have hport : (decimal port).length ≤ 5 := by
      rw [decimal, List.length_map]
      exact (Nat.length_toDigits_le_iff (by decide) (by decide)).mpr (by omega)
    rw [List.length_append, List.length_cons]
    omega
  port_pos := by omega
  port_le := by omega
  cStr_host := cStr_ipv4Text addr
  isUnicast := hunicast

/-! ### A sample -/

/-- Boost, as far as the sample uses it. -/
def sampleAddressLib : AddressLib where
  addressV4FromString text := (readIpv4Text text).filter fun addr => decide (text = ipv4Text addr)
  addressV6FromString _ := none
  addressV4FromString_eq_some_iff {text addr} := by
    rw [Option.filter_eq_some_iff]
    constructor
    · rintro ⟨-, htext⟩
      exact of_decide_eq_true htext
    · rintro rfl
      exact ⟨readIpv4Text_ipv4Text addr, decide_eq_true rfl⟩
  addressV6FromString_ipv4Text _ := rfl

end Galaxy42
