import Galaxy42.Exceptions
import Mathlib.Algebra.Order.Group.Nat
import Mathlib.Data.List.TakeDrop

/-!
# Packets of the TUN device, without their addresses

`read_from_tun_separated_addresses` and `send_to_tun_separated_addresses`, as `c_tuntap_linux_obj` and as
`c_tuntap_macosx_obj` have them. A read fills the first 8 octets of the buffer, the two addresses and the
rest of the buffer, in this order, and a write takes them so. What the device delivers is an argument: a
whole packet, or the message of an error. On macOS there are 4 octets in front of it.

The number that is returned comes from unsigned subtractions. A packet of less than 32 octets makes them
wrap, and one of 33 to 39 octets, that has no room for both addresses, is returned as if it had
(`splitsPackets_iff`).

The buffers of a call are one structure (`Split`), and a read that scatters a packet over them is the inverse of
a write that gathers it (`scatter`, `gather`). What the caller may give is `Split.Valid`, which is no condition
on packets: the buffer has more than the 8 octets that are checked and less than half of the address space,
and the addresses have 16 octets each. A packet that does not fit into the buffers is cut off.

What is right for a packet (`ReadsRight`) is stated for each system by the length without the addresses, and by
nothing read when there is no room for them. The two systems differ in which short packets they get right, since
macOS subtracts its header too; `SplitsPackets` asks for both, and for the packet that is written back.
-/

namespace Galaxy42

open Toolkit Program

namespace Tuntap

/-! ### Buffers -/

/-- Subtraction on `size_t` -/
def subSize (a b : ℕ) : ℕ := (a + (2 ^ 64 - b)) % 2 ^ 64

/-- What the caller gives: the buffer, and the two addresses apart from it. The addresses are apart from the
buffer because they are read into other places. -/
structure Split where
  /-- The octets from `data` on. -/
  data : Bytes
  srcBinaryAddress : Bytes
  dstBinaryAddress : Bytes
  deriving DecidableEq

/-- A buffer that is filled with octets, and the octets that are left. -/
def fillBuffer (buffer octets : Bytes) : Bytes × Bytes :=
  (octets.take buffer.length ++ buffer.drop octets.length, octets.drop buffer.length)

/-- The buffers are filled in their order: 8 octets of the data, the addresses, the other data. -/
def Split.scatter (s : Split) (octets : Bytes) : Split × Bytes :=
  let (first, octets) := fillBuffer (s.data.take 8) octets
  let (src, octets) := fillBuffer s.srcBinaryAddress octets
  let (dst, octets) := fillBuffer s.dstBinaryAddress octets
  let (rest, octets) := fillBuffer (s.data.drop 8) octets
  (⟨first ++ rest, src, dst⟩, octets)

/-- The octets of the buffers in their order. -/
def Split.gather (s : Split) : Bytes :=
  s.data.take 8 ++ s.srcBinaryAddress ++ s.dstBinaryAddress ++ s.data.drop 8

/-- `write_some`, where `device` takes all octets or has an error. The state is what the device got. -/
def writeSome (device : Except String Unit) (octets : Bytes) : Program Exn (List Bytes) ℕ :=
  match device with
  | .ok () => do
    modify (· ++ [octets])
    return octets.length
  | .error msg => raise (.systemError msg)

/-! ### Linux -/

namespace Linux

/-- `read_some`, into the buffers -/
def readSome (device : Except String Bytes) : Program Exn Split ℕ :=
  match device with
  | .ok octets => do
    let (s, left) := (← get).scatter octets
    set s
    return octets.length - left.length
  | .error msg => raise (.systemError msg)

/-- `c_tuntap_linux_obj::read_from_tun_separated_addresses` -/
def readFromTunSeparatedAddresses (device : Except String Bytes) : Program Exn Split ℕ := do
  let s ← get
  checkThat (s.data.length ≥ 8) (.errCheckInput "size >= 8")
  catching (do
    let readed ← readSome device
    return subSize (subSize readed s.srcBinaryAddress.length) s.dstBinaryAddress.length)
    fun _ => some (pure 0)

/-- `c_tuntap_linux_obj::send_to_tun_separated_addresses`; `write_some` returns 0 with an error. -/
def sendToTunSeparatedAddresses (device : Except String Unit) (s : Split) :
    Program Exn (List Bytes) ℕ := do
  checkThat (s.data.length ≥ 8) (.errCheckInput "size >= 8")
  catching (writeSome device s.gather) fun _ => some (pure 0)

end Linux

/-! ### macOS -/

namespace Macosx

/-- `read_some`, into the header and the buffers -/
def readSome (tunHeader : Bytes) (device : Except String Bytes) : Program Exn Split ℕ :=
  match device with
  | .ok octets => do
    let (_, rest) := fillBuffer tunHeader octets
    let (s, left) := (← get).scatter rest
    set s
    return octets.length - left.length
  | .error msg => raise (.systemError msg)

/-- `catch (const std::runtime_error &)`, of which `boost::system::system_error` is one -/
def catchRuntimeError : Exn → Option (Program Exn Split ℕ)
  | .runtimeError _ => some (pure 0)
  | .systemError _ => some (pure 0)
  | _ => none

/-- `c_tuntap_macosx_obj::read_from_tun_separated_addresses`, where `tunHeader` is what is in the header's
array before. -/
def readFromTunSeparatedAddresses (tunHeader : Vector UInt8 4) (device : Except String Bytes) :
    Program Exn Split ℕ := do
  let s ← get
  checkThat (s.data.length > 8) (.errCheckInput "size > 8")
  catching (do
    let readed ← readSome tunHeader.toList device
    let readedBytes := subSize (subSize readed s.srcBinaryAddress.length) s.dstBinaryAddress.length
    if readedBytes < 4 then
      raise (.runtimeError "")
    return subSize readedBytes 4)
    catchRuntimeError

/-- `c_tuntap_macosx_obj::send_to_tun_separated_addresses` -/
def sendToTunSeparatedAddresses (device : Except String Unit) (s : Split) :
    Program Exn (List Bytes) ℕ := do
  checkThat (s.data.length ≥ 8) (.errCheckInput "size >= 8")
  let tunHeader : Bytes := [0x00, 0x00, 0x00, 0x1E]
  catching (do
    let writtenBytes ← writeSome device (tunHeader ++ s.gather)
    if writtenBytes < tunHeader.length then
      raise (.runtimeError "")
    return subSize writtenBytes tunHeader.length)
    fun _ => some (pure 0)

end Macosx

/-! ### What a read leaves -/

/-- What a caller may give: more than 8 octets, less than half of the address space, and two addresses. -/
structure Split.Valid (s : Split) : Prop where
  lt_length : 8 < s.data.length
  length_lt : s.data.length < 2 ^ 63
  length_src : s.srcBinaryAddress.length = 16
  length_dst : s.dstBinaryAddress.length = 16

section Read

variable {s : Split} {packet : Bytes}

private theorem fillBuffer_of_le {buffer octets : Bytes} (h : octets.length ≤ buffer.length) :
    fillBuffer buffer octets = (octets ++ buffer.drop octets.length, []) := by
  rw [fillBuffer, List.take_of_length_le h, List.drop_eq_nil_of_le h]

private theorem fillBuffer_of_ge {buffer octets : Bytes} (h : buffer.length ≤ octets.length) :
    fillBuffer buffer octets = (octets.take buffer.length, octets.drop buffer.length) := by
  rw [fillBuffer, List.drop_eq_nil_of_le h, List.append_nil]

/-- A packet that fits is taken whole. -/
theorem scatter_snd (h : s.Valid) (hfits : packet.length ≤ s.data.length + 32) :
    (s.scatter packet).2 = [] := by
  have hsrc := h.length_src
  have hdst := h.length_dst
  have hlt := h.lt_length
  refine List.eq_nil_of_length_eq_zero ?_
  simp only [Split.scatter, fillBuffer, List.length_drop, List.length_take]
  omega

/-- A packet with both addresses is split. -/
theorem scatter_fst (h : s.Valid) (hle : 40 ≤ packet.length)
    (hfits : packet.length ≤ s.data.length + 32) :
    (s.scatter packet).1 = ⟨packet.take 8 ++ (packet.drop 40 ++ s.data.drop (packet.length - 32)),
      (packet.drop 8).take 16, (packet.drop 24).take 16⟩ := by
  have hsrc := h.length_src
  have hdst := h.length_dst
  have hlt := h.lt_length
  have hfirst : fillBuffer (s.data.take 8) packet = (packet.take 8, packet.drop 8) := by
    have height : (s.data.take 8).length = 8 := by
      rw [List.length_take]
      omega
    rw [fillBuffer_of_ge (by omega), height]
  have hsecond : fillBuffer s.srcBinaryAddress (packet.drop 8) =
      ((packet.drop 8).take 16, packet.drop 24) := by
    rw [fillBuffer_of_ge (by rw [List.length_drop]; omega), hsrc, List.drop_drop]
  have hthird : fillBuffer s.dstBinaryAddress (packet.drop 24) =
      ((packet.drop 24).take 16, packet.drop 40) := by
    rw [fillBuffer_of_ge (by rw [List.length_drop]; omega), hdst, List.drop_drop]
  have hfourth : fillBuffer (s.data.drop 8) (packet.drop 40) =
      (packet.drop 40 ++ s.data.drop (packet.length - 32), []) := by
    have hbehind : 8 + (packet.length - 40) = packet.length - 32 := by omega
    rw [fillBuffer_of_le (by rw [List.length_drop, List.length_drop]; omega), List.drop_drop,
      List.length_drop, hbehind]
  simp only [Split.scatter, hfirst, hsecond, hthird, hfourth]

/-- The octets of the packet that are in the buffer. -/
theorem take_scatter (h : s.Valid) (hle : 40 ≤ packet.length)
    (hfits : packet.length ≤ s.data.length + 32) :
    (s.scatter packet).1.data.take (packet.length - 32) = packet.take 8 ++ packet.drop 40 := by
  have hlength : (packet.take 8 ++ packet.drop 40).length = packet.length - 32 := by
    rw [List.length_append, List.length_take, List.length_drop]
    omega
  rw [scatter_fst h hle hfits, ← List.append_assoc, List.take_left' hlength]

/-- What was split is put together again. -/
private theorem gather_take_scatter (h : s.Valid) (hle : 40 ≤ packet.length)
    (hfits : packet.length ≤ s.data.length + 32) :
    Split.gather ⟨(s.scatter packet).1.data.take (packet.length - 32),
      (s.scatter packet).1.srcBinaryAddress, (s.scatter packet).1.dstBinaryAddress⟩ = packet := by
  have height : (packet.take 8).length = 8 := by
    rw [List.length_take]
    omega
  rw [take_scatter h hle hfits, scatter_fst h hle hfits, Split.gather, List.take_left' height,
    List.drop_left' height]
  have hdrop (a b : ℕ) : (packet.drop a).take b ++ packet.drop (a + b) = packet.drop a := by
    rw [← List.drop_drop, List.take_append_drop]
  simp only [List.append_assoc]
  rw [hdrop 24 16, hdrop 8 16, List.take_append_drop]

/-! ### The number that is returned -/

/-- The length without the addresses: it wraps for packets of less than 32 octets. -/
theorem subSize_subSize {n : ℕ} (h : n < 2 ^ 64) :
    subSize (subSize n 16) 16 = if 32 ≤ n then n - 32 else 2 ^ 64 + n - 32 := by
  unfold subSize
  split_ifs <;> omega

private theorem linux_of_error (h : s.Valid) (msg : String) :
    Linux.readFromTunSeparatedAddresses (.error msg) s = .ok 0 s := by
  have hcheck : checkThat (s.data.length ≥ 8) (Exn.errCheckInput "size >= 8") s = .ok () s :=
    checkThat_eq_ok_iff.mpr ⟨Nat.le_of_lt h.lt_length, rfl⟩
  rw [Linux.readFromTunSeparatedAddresses, bind_of_ok (get_apply s), bind_of_ok hcheck]
  rfl

private theorem macosx_of_error (h : s.Valid) (tunHeader : Vector UInt8 4) (msg : String) :
    Macosx.readFromTunSeparatedAddresses tunHeader (.error msg) s = .ok 0 s := by
  have hcheck : checkThat (s.data.length > 8) (Exn.errCheckInput "size > 8") s = .ok () s :=
    checkThat_eq_ok_iff.mpr ⟨h.lt_length, rfl⟩
  rw [Macosx.readFromTunSeparatedAddresses, bind_of_ok (get_apply s), bind_of_ok hcheck]
  rfl

/-- What Linux returns for a packet. -/
theorem linux_of_ok (h : s.Valid) (hfits : packet.length ≤ s.data.length + 32) :
    Linux.readFromTunSeparatedAddresses (.ok packet) s =
      .ok (if 32 ≤ packet.length then packet.length - 32 else 2 ^ 64 + packet.length - 32)
        (s.scatter packet).1 := by
  have hlt := h.length_lt
  have hcheck : checkThat (s.data.length ≥ 8) (Exn.errCheckInput "size >= 8") s = .ok () s :=
    checkThat_eq_ok_iff.mpr ⟨Nat.le_of_lt h.lt_length, rfl⟩
  have hread : Linux.readSome (.ok packet) s = .ok packet.length (s.scatter packet).1 := by
    have hrun : Linux.readSome (.ok packet) s =
      .ok (packet.length - (s.scatter packet).2.length) (s.scatter packet).1 := rfl
    rwa [scatter_snd h hfits, List.length_nil, Nat.sub_zero] at hrun
  rw [Linux.readFromTunSeparatedAddresses, bind_of_ok (get_apply s), bind_of_ok hcheck, catching,
    bind_of_ok hread, h.length_src, h.length_dst, subSize_subSize (by omega)]
  rfl

/-- What macOS returns for a packet: 0 also when up to four octets are missing. -/
theorem macosx_of_ok (h : s.Valid) (hfits : packet.length ≤ s.data.length + 32)
    (tunHeader header : Vector UInt8 4) :
    Macosx.readFromTunSeparatedAddresses tunHeader (.ok (header.toList ++ packet)) s =
      .ok (if 28 ≤ packet.length then packet.length - 32 else 2 ^ 64 + packet.length - 32)
        (s.scatter packet).1 := by
  have hlt := h.length_lt
  have hcheck : checkThat (s.data.length > 8) (Exn.errCheckInput "size > 8") s = .ok () s :=
    checkThat_eq_ok_iff.mpr ⟨h.lt_length, rfl⟩
  have hread : Macosx.readSome tunHeader.toList (.ok (header.toList ++ packet)) s =
      .ok (packet.length + 4) (s.scatter packet).1 := by
    have hrest : (fillBuffer tunHeader.toList (header.toList ++ packet)).2 = packet := by
      rw [fillBuffer, Vector.length_toList]
      exact List.drop_left' Vector.length_toList
    have hrun : Macosx.readSome tunHeader.toList (.ok (header.toList ++ packet)) s =
        .ok ((header.toList ++ packet).length -
          (s.scatter (fillBuffer tunHeader.toList (header.toList ++ packet)).2).2.length)
          (s.scatter (fillBuffer tunHeader.toList (header.toList ++ packet)).2).1 := rfl
    rw [hrun, hrest, scatter_snd h hfits, List.length_append, Vector.length_toList, Nat.add_comm]
    rfl
  rw [Macosx.readFromTunSeparatedAddresses, bind_of_ok (get_apply s), bind_of_ok hcheck, catching,
    bind_of_ok hread, h.length_src, h.length_dst, subSize_subSize (by omega)]
  by_cases hshort : 28 ≤ packet.length ∧ packet.length < 32
  · have hraise : (if 32 ≤ packet.length + 4 then packet.length + 4 - 32
        else 2 ^ 64 + (packet.length + 4) - 32) < 4 := by
      split_ifs <;> omega
    have hzero : packet.length - 32 = 0 := by omega
    rw [if_pos hraise, if_pos hshort.1, hzero]
    rfl
  · have hreturn : ¬ (if 32 ≤ packet.length + 4 then packet.length + 4 - 32
        else 2 ^ 64 + (packet.length + 4) - 32) < 4 := by
      split_ifs <;> omega
    have hvalue : subSize (if 32 ≤ packet.length + 4 then packet.length + 4 - 32
        else 2 ^ 64 + (packet.length + 4) - 32) 4 =
        if 28 ≤ packet.length then packet.length - 32 else 2 ^ 64 + packet.length - 32 := by
      unfold subSize
      split_ifs <;> omega
    rw [if_neg hreturn, hvalue]
    rfl

end Read

/-! ### Packets that are split and joined -/

/-- What a read is to return for what the device delivers: the length without the addresses, with the
packet split, or 0 for an error and for a packet without room for both addresses. It is never more than
the buffer has. -/
def ReadsRight (s : Split) (device : Except String Bytes) (run : EStateM.Result (Fault Exn) Split ℕ) :
    Prop :=
  ∃ n s', run = .ok n s' ∧ n ≤ s.data.length ∧
    match device with
    | .error _ => n = 0
    | .ok packet =>
      if 40 ≤ packet.length then
        n = packet.length - 32 ∧ s'.data.take n = packet.take 8 ++ packet.drop 40 ∧
          s'.srcBinaryAddress = (packet.drop 8).take 16 ∧
          s'.dstBinaryAddress = (packet.drop 24).take 16
      else n = 0

/-- What the device delivers on macOS: there is a header in front of the packet. -/
def Macosx.delivered (header : Vector UInt8 4) : Except String Bytes → Except String Bytes
  | .ok packet => .ok (header.toList ++ packet)
  | .error msg => .error msg

/-- Both systems split what the device delivers, and do the same, and each of them writes a packet that it has
split as it was. Writing is looked at for packets with both addresses only. -/
structure SplitsPackets (s : Split) (tunHeader header : Vector UInt8 4) (device : Except String Bytes) :
    Prop where
  linux : ReadsRight s device (Linux.readFromTunSeparatedAddresses device s)
  macosx : ReadsRight s device
    (Macosx.readFromTunSeparatedAddresses tunHeader (Macosx.delivered header device) s)
  agree : Linux.readFromTunSeparatedAddresses device s =
    Macosx.readFromTunSeparatedAddresses tunHeader (Macosx.delivered header device) s
  linux_joins : ∀ packet n s', device = .ok packet → 40 ≤ packet.length →
    Linux.readFromTunSeparatedAddresses device s = .ok n s' →
    Linux.sendToTunSeparatedAddresses (.ok ())
      ⟨s'.data.take n, s'.srcBinaryAddress, s'.dstBinaryAddress⟩ [] = .ok packet.length [packet]
  macosx_joins : ∀ packet n s', device = .ok packet → 40 ≤ packet.length →
    Macosx.readFromTunSeparatedAddresses tunHeader (Macosx.delivered header device) s = .ok n s' →
    Macosx.sendToTunSeparatedAddresses (.ok ())
      ⟨s'.data.take n, s'.srcBinaryAddress, s'.dstBinaryAddress⟩ [] =
        .ok packet.length [[0x00, 0x00, 0x00, 0x1E] ++ packet]

section Split

variable {s : Split} {packet : Bytes} {device : Except String Bytes} {n : ℕ}

private theorem readsRight_of_error (msg : String) : ReadsRight s (.error msg) (.ok 0 s) :=
  ⟨0, s, rfl, Nat.zero_le _, rfl⟩

private theorem readsRight_of_le (h : s.Valid) (hle : 40 ≤ packet.length)
    (hfits : packet.length ≤ s.data.length + 32) :
    ReadsRight s (.ok packet) (.ok (packet.length - 32) (s.scatter packet).1) := by
  refine ⟨_, _, rfl, by omega, ?_⟩
  dsimp only
  rw [if_pos hle]
  exact ⟨rfl, take_scatter h hle hfits, congrArg Split.srcBinaryAddress (scatter_fst h hle hfits),
    congrArg Split.dstBinaryAddress (scatter_fst h hle hfits)⟩

/-- Without room for both addresses, 0 is to be returned. -/
theorem readsRight_iff_of_lt {s' : Split} (hlt : packet.length < 40) :
    ReadsRight s (.ok packet) (.ok n s') ↔ n = 0 := by
  constructor
  · rintro ⟨k, t, hrun, -, hzero⟩
    obtain ⟨rfl, rfl⟩ := EStateM.Result.ok.inj hrun
    dsimp only at hzero
    rwa [if_neg (Nat.not_le.mpr hlt)] at hzero
  · rintro rfl
    refine ⟨0, s', rfl, Nat.zero_le _, ?_⟩
    dsimp only
    rw [if_neg (Nat.not_le.mpr hlt)]

/-- What Linux writes. -/
private theorem linux_send (hlength : 8 ≤ s.data.length) :
    Linux.sendToTunSeparatedAddresses (.ok ()) s [] = .ok s.gather.length [s.gather] := by
  have hcheck : checkThat (s.data.length ≥ 8) (Exn.errCheckInput "size >= 8") ([] : List Bytes) =
      .ok () [] := checkThat_eq_ok_iff.mpr ⟨hlength, rfl⟩
  rw [Linux.sendToTunSeparatedAddresses, bind_of_ok hcheck]
  rfl

/-- What macOS writes. -/
private theorem macosx_send (hlength : 8 ≤ s.data.length) (hlt : s.gather.length < 2 ^ 64) :
    Macosx.sendToTunSeparatedAddresses (.ok ()) s [] =
      .ok s.gather.length [[0x00, 0x00, 0x00, 0x1E] ++ s.gather] := by
  have hcheck : checkThat (s.data.length ≥ 8) (Exn.errCheckInput "size >= 8") ([] : List Bytes) =
      .ok () [] := checkThat_eq_ok_iff.mpr ⟨hlength, rfl⟩
  have hwrite : writeSome (.ok ()) ([0x00, 0x00, 0x00, 0x1E] ++ s.gather) [] =
      .ok (s.gather.length + 4) [[0x00, 0x00, 0x00, 0x1E] ++ s.gather] := rfl
  have hfour : ([0x00, 0x00, 0x00, 0x1E] : Bytes).length = 4 := rfl
  have hsub : subSize (s.gather.length + 4) 4 = s.gather.length := by
    unfold subSize
    omega
  rw [Macosx.sendToTunSeparatedAddresses, bind_of_ok hcheck, catching, bind_of_ok hwrite, hfour, hsub,
    if_neg (by omega)]
  rfl

/-- The packets for which both systems are right: there is room for both addresses, or for 32 octets. Of 32
octets the number that is returned is 0 by chance. -/
def Splittable (device : Except String Bytes) : Prop :=
  ∀ packet, device = .ok packet → 40 ≤ packet.length ∨ packet.length = 32

/-- Linux reads a packet right exactly when it has at least 40 octets, or 32. -/
theorem readsRight_linux_iff (h : s.Valid) (hfits : packet.length ≤ s.data.length + 32) :
    ReadsRight s (.ok packet) (Linux.readFromTunSeparatedAddresses (.ok packet) s) ↔
      40 ≤ packet.length ∨ packet.length = 32 := by
  rw [linux_of_ok h hfits]
  by_cases hle : 40 ≤ packet.length
  · rw [if_pos (by omega)]
    exact iff_of_true (readsRight_of_le h hle hfits) (.inl hle)
  · rw [readsRight_iff_of_lt (by omega)]
    split_ifs <;> omega

/-- macOS reads a packet right exactly when it has at least 40 octets, or 28 to 32. -/
theorem readsRight_macosx_iff (h : s.Valid) (hfits : packet.length ≤ s.data.length + 32)
    (tunHeader header : Vector UInt8 4) :
    ReadsRight s (.ok packet)
        (Macosx.readFromTunSeparatedAddresses tunHeader (.ok (header.toList ++ packet)) s) ↔
      40 ≤ packet.length ∨ 28 ≤ packet.length ∧ packet.length ≤ 32 := by
  rw [macosx_of_ok h hfits]
  by_cases hle : 40 ≤ packet.length
  · rw [if_pos (by omega)]
    exact iff_of_true (readsRight_of_le h hle hfits) (.inl hle)
  · rw [readsRight_iff_of_lt (by omega)]
    split_ifs <;> omega

/-- The parts that Linux and macOS leave of a packet with room for both addresses, put together again. -/
private theorem gather_parts (h : s.Valid) (hle : 40 ≤ packet.length)
    (hfits : packet.length ≤ s.data.length + 32) {s' : Split}
    (hrun : EStateM.Result.ok (packet.length - 32) (s.scatter packet).1 =
      (EStateM.Result.ok n s' : EStateM.Result (Fault Exn) Split ℕ)) :
    Split.gather ⟨s'.data.take n, s'.srcBinaryAddress, s'.dstBinaryAddress⟩ = packet ∧
      8 ≤ (s'.data.take n).length := by
  obtain ⟨rfl, rfl⟩ := EStateM.Result.ok.inj hrun
  refine ⟨gather_take_scatter h hle hfits, ?_⟩
  rw [take_scatter h hle hfits, List.length_append, List.length_take]
  omega

private theorem splitsPackets_of_error (h : s.Valid) (tunHeader header : Vector UInt8 4) (msg : String) :
    SplitsPackets s tunHeader header (.error msg) where
  linux := linux_of_error h msg ▸ readsRight_of_error msg
  macosx := by
    rw [Macosx.delivered, macosx_of_error h]
    exact readsRight_of_error msg
  agree := (linux_of_error h msg).trans (macosx_of_error h tunHeader msg).symm
  linux_joins packet n s' hdevice := nomatch hdevice
  macosx_joins packet n s' hdevice := nomatch hdevice

private theorem splitsPackets_of_ok (h : s.Valid) (hfits : packet.length ≤ s.data.length + 32)
    (tunHeader header : Vector UInt8 4) (hlength : 40 ≤ packet.length ∨ packet.length = 32) :
    SplitsPackets s tunHeader header (.ok packet) where
  linux := (readsRight_linux_iff h hfits).mpr hlength
  macosx := (readsRight_macosx_iff h hfits tunHeader header).mpr (by omega)
  agree := by
    rw [linux_of_ok h hfits, Macosx.delivered, macosx_of_ok h hfits, if_pos (by omega), if_pos (by omega)]
  linux_joins sent n s' hdevice hle hread := by
    obtain rfl : packet = sent := Except.ok.inj hdevice
    rw [linux_of_ok h hfits, if_pos (by omega)] at hread
    obtain ⟨hgather, hdata⟩ := gather_parts h hle hfits hread
    rw [linux_send hdata, hgather]
  macosx_joins sent n s' hdevice hle hread := by
    have hlt := h.length_lt
    obtain rfl : packet = sent := Except.ok.inj hdevice
    rw [Macosx.delivered, macosx_of_ok h hfits, if_pos (by omega)] at hread
    obtain ⟨hgather, hdata⟩ := gather_parts h hle hfits hread
    rw [macosx_send hdata (by rw [hgather]; omega), hgather]

/-- Both systems split and join what the device delivers, and do the same, exactly when it is an error, or a
packet of at least 40 octets, or of 32. It holds for every buffer that a caller may give and for whatever was
in it. -/
theorem splitsPackets_iff (h : s.Valid) (tunHeader header : Vector UInt8 4)
    (hfits : ∀ packet, device = .ok packet → packet.length ≤ s.data.length + 32) :
    SplitsPackets s tunHeader header device ↔ Splittable device := by
  cases device with
  | error msg =>
    exact iff_of_true (splitsPackets_of_error h tunHeader header msg) fun packet hdevice => nomatch hdevice
  | ok packet =>
    have hle := hfits packet rfl
    constructor
    · intro hsplits sent hdevice
      obtain rfl : packet = sent := Except.ok.inj hdevice
      exact (readsRight_linux_iff h hle).mp hsplits.linux
    · intro hlength
      exact splitsPackets_of_ok h hle tunHeader header (hlength packet rfl)

end Split

/-- A buffer of nine octets, and two addresses. -/
def nineOctets : Split := ⟨List.replicate 9 0, List.replicate 16 0, List.replicate 16 0⟩

private theorem valid_nineOctets : nineOctets.Valid := by
  constructor <;> decide

/-- A packet of forty octets. -/
theorem splitsPackets_forty_iff :
    SplitsPackets nineOctets (.replicate 4 0) (.replicate 4 0) (.ok (List.replicate 40 7)) ↔
      Splittable (.ok (List.replicate 40 7)) :=
  splitsPackets_iff valid_nineOctets _ _ fun packet hdevice => by
    obtain rfl := Except.ok.inj hdevice
    decide

/-- A packet of one octet: Linux returns a number close to the end of `size_t`. -/
theorem not_splitsPackets_one :
    ¬ SplitsPackets nineOctets (.replicate 4 0) (.replicate 4 0) (.ok [0x60]) := by
  intro h
  have hlength := (readsRight_linux_iff valid_nineOctets (by decide)).mp h.linux
  exact absurd hlength (by decide)

end Tuntap

end Galaxy42
