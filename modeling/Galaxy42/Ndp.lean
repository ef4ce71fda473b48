import Galaxy42.Exceptions
import Galaxy42.Lib.OnesComplement

/-!
# Answers to neighbor solicitations

The two overloads of `c_ndp::checksum_ipv6_packet`, and `c_ndp::generate_neighbor_advertisement`. They
are compiled for Windows only, where machines are little-endian. The sum of the checksum is of at most
`2 ^ 15 + 20` words, and so a number: it does not come near the end of a `uint64_t`.

The octet behind the content is read when its length is odd, by one overload, and not there for the other
one (`checksumRight_iff`). The answers have 40 octets of content: their checksum verifies
(`generateNeighborAdvertisement_answers`).

The two overloads have one body and differ in how they read an octet: through a pointer, where any octet of
memory can be read, or through a view, where `at` throws behind its end. So the body is one program with the
reading as a parameter, and the octets that it reads are logged. What is returned is compared with the
checksum of RFC 1071 over the pseudo-header and the content, as it lies in memory on such a machine: the loop
adds the octets of a word in the other order, and `htonl` swaps what it returns.

The answer is filled octet by octet through an iterator, from constants, from the solicitation and from the
hardware address. It is first shown to be a list of parts (`advertisement`), of which one is the checksum, and
what a receiver checks of it (`Answers`) is then read off the parts.
-/

namespace Galaxy42

open Toolkit Program OnesComplement

namespace Ndp

/-! ### The octets that are read -/

/-- The two operands of the checksum. -/
inductive Operand where
  | sourceDestinationAddr
  | headerWithContent
  deriving DecidableEq, Repr

/-- The octets that were read: of which operand, and which one. -/
abbrev Reads := List (Operand × ℕ)

/-- `p[i]`, for a pointer `p` to octets -/
def deref (operand : Operand) (p : ℕ → UInt8) (i : ℕ) : Program Exn Reads UInt8 := do
  modify (· ++ [(operand, i)])
  return p i

/-- `tab_view::at` -/
def viewAt (operand : Operand) (view : Bytes) (i : ℕ) : Program Exn Reads UInt8 :=
  match view[i]? with
  | some octet => do
    modify (· ++ [(operand, i)])
    return octet
  | none => raise .outOfRange

/-! ### The checksum -/

/-- `htonl`, on a little-endian machine -/
def htonl (v : ℕ) : ℕ := Octets.toNat (Octets.bigEndian 4 v).reverse

/-- `for (i = 0; i < length; i += 2)`, from `i` on: the octets are added in pairs, low octet first. For an odd
length the last pair takes an octet behind the end. -/
def addPairs (read : ℕ → Program Exn Reads UInt8) (length result i : ℕ) : Program Exn Reads ℕ :=
  if i < length then do
    let low ← read i
    let high ← read (i + 1)
    addPairs read length (result + low.toNat + high.toNat <<< 8) (i + 2)
  else
    return result
termination_by length - i

/-- The high part of a number and its low 16 bits, added. -/
theorem shiftRight_add_and (n : ℕ) : n >>> 16 + (n &&& 0xFFFF) = n / 65536 + n % 65536 := by
  rw [Nat.shiftRight_eq_div_pow, show (0xFFFF : ℕ) = 2 ^ 16 - 1 from rfl, Nat.and_two_pow_sub_one_eq_mod]

/-- `while (result >> 16)`. It ends when the number has 16 bits, and each round makes it smaller. -/
def foldCarries (result : ℕ) : ℕ :=
  if result >>> 16 ≠ 0 then foldCarries (result >>> 16 + (result &&& 0xFFFF)) else result
termination_by result
decreasing_by
  rename_i h
  rw [Nat.shiftRight_eq_div_pow] at h
  rw [shiftRight_add_and]
  omega

/-- The body of both overloads of `c_ndp::checksum_ipv6_packet`, with the way they read octets. A length of
zero aborts the process. For an odd length the last octet is added a second time. -/
def checksumBody (readAddr readContent : ℕ → Program Exn Reads UInt8) (length : UInt16)
    (nextHvalue : UInt32) : Program Exn Reads UInt16 := do
  assertThat (length > 0)
  let nextHvalue := htonl nextHvalue.toNat
  let result ← addPairs readAddr 32 0 0
  let result ← addPairs readContent length.toNat result 0
  let result ←
    if length.toNat % 2 = 1 then do
      let last ← readContent (length.toNat - 1)
      pure (result + last.toNat <<< 8)
    else pure result
  let lengthBigendian := htonl length.toNat
  let result := result + (lengthBigendian >>> 16 + (lengthBigendian &&& 0xFFFF))
  let result := result + (nextHvalue >>> 16 + (nextHvalue &&& 0xFFFF))
  return UInt16.ofNat (2 ^ 64 - 1 - foldCarries result)

/-- `c_ndp::checksum_ipv6_packet`, with pointers -/
def checksumIpv6Packet (sourceDestinationAddr headerWithContent : ℕ → UInt8) (length : UInt16)
    (nextHvalue : UInt32) : Program Exn Reads UInt16 :=
  checksumBody (deref .sourceDestinationAddr sourceDestinationAddr)
    (deref .headerWithContent headerWithContent) length nextHvalue

/-- `c_ndp::checksum_ipv6_packet`, with views -/
def checksumIpv6PacketView (sourceDestinationAddr headerWithContent : Bytes) (nextHvalue : UInt32) :
    Program Exn Reads UInt16 :=
  checksumBody (viewAt .sourceDestinationAddr sourceDestinationAddr)
    (viewAt .headerWithContent headerWithContent) (UInt16.ofNat headerWithContent.length) nextHvalue

/-! ### What the loops add up -/

/-- The loop that folds the carries leaves the residue. -/
private theorem foldCarries_eq (result : ℕ) : foldCarries result = residue 65536 result := by
  induction result using foldCarries.induct with
  | case1 result h ih =>
    rw [foldCarries, if_pos h, ih, shiftRight_add_and]
    exact residue_div_add_mod (by decide)
  | case2 result h =>
    rw [foldCarries, if_neg h]
    rw [Nat.shiftRight_eq_div_pow, not_not] at h
    exact (residue_of_lt (by omega)).symm

/-- The words of a number in network order, added. -/
private theorem htonl_words (v : ℕ) :
    htonl v >>> 16 + (htonl v &&& 0xFFFF) = swappedSum (Octets.bigEndian 4 v) := by
  rw [shiftRight_add_and]
  simp only [htonl, Octets.bigEndian, List.reverse_cons, List.reverse_nil, List.nil_append,
    List.cons_append, Octets.toNat_cons, Octets.toNat_nil, List.length_cons, List.length_nil, swappedSum]
  generalize UInt8.ofNat (v / 256 ^ 3 % 256) = b3
  generalize UInt8.ofNat (v / 256 ^ 2 % 256) = b2
  generalize UInt8.ofNat (v / 256 ^ 1 % 256) = b1
  generalize UInt8.ofNat (v / 256 ^ 0 % 256) = b0
  have h3 := b3.toNat_lt
  have h2 := b2.toNat_lt
  have h1 := b1.toNat_lt
  have h0 := b0.toNat_lt
  omega

section Loop

variable {operand : Operand} {read : ℕ → Program Exn Reads UInt8} {octet : ℕ → UInt8}

/-- A loop of `k` rounds, all of whose reads succeed, adds the words that it reads. -/
theorem addPairs_of_read {length result i k : ℕ} {reads : Reads} (hk : (length - i + 1) / 2 = k)
    (hread : ∀ j, j < i + 2 * k → ∀ s, read j s = .ok (octet j) (s ++ [(operand, j)])) :
    addPairs read length result i reads =
      .ok (result + swappedSum ((List.range' i (2 * k)).map octet))
        (reads ++ (List.range' i (2 * k)).map (operand, ·)) := by
  induction k generalizing result i reads with
  | zero =>
    rw [addPairs, if_neg (by omega)]
    simp [swappedSum]
  | succ k ih =>
    have hrange : List.range' i (2 * (k + 1)) = i :: (i + 1) :: List.range' (i + 2) (2 * k) := rfl
    rw [addPairs, if_pos (by omega), bind_of_ok (hread i (by omega) reads),
      bind_of_ok (hread (i + 1) (by omega) _), ih (by omega) fun j hj => hread j (by omega), hrange]
    simp only [List.map_cons, swappedSum, Nat.shiftLeft_eq, List.append_assoc, List.cons_append,
      List.nil_append]
    refine congrArg (fun n => EStateM.Result.ok n _) ?_
    omega

private theorem addPairs_deref (p : ℕ → UInt8) (length result : ℕ) (reads : Reads) :
    addPairs (deref operand p) length result 0 reads =
      .ok (result + swappedSum ((List.range' 0 (2 * ((length + 1) / 2))).map p))
        (reads ++ (List.range' 0 (2 * ((length + 1) / 2))).map (operand, ·)) :=
  addPairs_of_read rfl fun _ _ _ => rfl

/-- A loop over an odd number of octets that returns has read the octet behind them. -/
private theorem exists_read_of_addPairs {length result i total k : ℕ} {reads reads' : Reads}
    (hodd : length = i + 2 * k + 1) (h : addPairs read length result i reads = .ok total reads') :
    ∃ last s s', read length s = .ok last s' := by
  induction k generalizing result i reads with
  | zero =>
    obtain rfl : length = i + 1 := hodd
    rw [addPairs, if_pos (by omega)] at h
    obtain ⟨low, s, -, h⟩ := bind_eq_ok_iff.mp h
    obtain ⟨high, s', hhigh, -⟩ := bind_eq_ok_iff.mp h
    exact ⟨high, s, s', hhigh⟩
  | succ k ih =>
    rw [addPairs, if_pos (by omega)] at h
    obtain ⟨low, s, -, h⟩ := bind_eq_ok_iff.mp h
    obtain ⟨high, s', -, h⟩ := bind_eq_ok_iff.mp h
    exact ih (by omega) h

end Loop

/-! ### The checksum of RFC 1071 -/

/-- The pseudo-header: the addresses, the length of the content and the next header. -/
def pseudoHeader (addr : Bytes) (length nextHeader : ℕ) : Bytes :=
  addr ++ Octets.bigEndian 4 length ++ Octets.bigEndian 4 nextHeader

/-- The checksum of RFC 1071: the complement of the one's complement sum of the words. An odd number of octets
is padded with a zero. -/
def rfc1071 (octets : Bytes) : ℕ := 65535 - OnesComplement.sum 65536 (words octets)

/-- The octets of a number in memory, on a little-endian machine. -/
def inMemory (v : UInt16) : Bytes := (Octets.bigEndian 2 v.toNat).reverse

/-- The two addresses, one after the other. -/
structure Addresses where
  /-- The octets. -/
  octets : Bytes
  length_octets : octets.length = 32

/-- The number that is returned for a sum of words with their octets swapped has the octets of the checksum
in memory. -/
theorem inMemory_complement (octets : Bytes) :
    inMemory (UInt16.ofNat (2 ^ 64 - 1 - foldCarries (swappedSum octets))) =
      Octets.bigEndian 2 (rfc1071 octets) := by
  have hlt : OnesComplement.sum 65536 (words octets) < 65536 := by
    rw [sum_eq_residue (by decide) (words_lt octets)]
    have hle : residue 65536 (words octets).sum ≤ 65535 := residue_le (by decide)
    omega
  rw [foldCarries_eq, residue_swappedSum, rfc1071]
  generalize OnesComplement.sum 65536 (words octets) = n at hlt ⊢
  have hnat : (UInt16.ofNat (2 ^ 64 - 1 - swap n)).toNat = 65535 - swap n := by
    rw [UInt16.toNat_ofNat']
    unfold swap
    omega
  simp only [inMemory, hnat, Octets.bigEndian, List.reverse_cons, List.reverse_nil, List.nil_append,
    List.cons_append, pow_zero, pow_one, Nat.div_one]
  obtain ⟨high, low, rfl, hhigh, hlow⟩ : ∃ high low, n = 256 * high + low ∧ high < 256 ∧ low < 256 :=
    ⟨n / 256, n % 256, by omega, by omega, by omega⟩
  have hswap : swap (256 * high + low) = 256 * low + high := by
    unfold swap
    omega
  have hcomplement {a b : ℕ} (ha : a < 256) (hb : b < 256) :
      (65535 - (256 * a + b)) / 256 % 256 = 255 - a ∧ (65535 - (256 * a + b)) % 256 = 255 - b := by
    have hsub : 65535 - (256 * a + b) = 256 * (255 - a) + (255 - b) := by omega
    rw [hsub]
    omega
  rw [hswap, (hcomplement hlow hhigh).1, (hcomplement hlow hhigh).2, (hcomplement hhigh hlow).1,
    (hcomplement hhigh hlow).2]

/-- What is returned for an even number of octets, all of which can be read. -/
theorem checksumBody_of_read {readAddr readContent : ℕ → Program Exn Reads UInt8}
    {addr content : ℕ → UInt8} {length : UInt16} {nextHvalue : UInt32} (hpos : 0 < length)
    (heven : length.toNat % 2 = 0)
    (haddr : ∀ j, j < 32 → ∀ s, readAddr j s = .ok (addr j) (s ++ [(.sourceDestinationAddr, j)]))
    (hcontent : ∀ j, j < length.toNat → ∀ s,
      readContent j s = .ok (content j) (s ++ [(.headerWithContent, j)])) :
    checksumBody readAddr readContent length nextHvalue [] =
      .ok (UInt16.ofNat (2 ^ 64 - 1 - foldCarries (swappedSum
          (pseudoHeader ((List.range 32).map addr) length.toNat nextHvalue.toNat ++
            (List.range length.toNat).map content))))
        ((List.range 32).map (Operand.sourceDestinationAddr, ·) ++
          (List.range length.toNat).map (Operand.headerWithContent, ·)) := by
  obtain ⟨k, hk⟩ : ∃ k, length.toNat = 2 * k := ⟨length.toNat / 2, by omega⟩
  have hfst : addPairs readAddr 32 0 0 [] =
      .ok (0 + swappedSum ((List.range' 0 (2 * 16)).map addr))
        ([] ++ (List.range' 0 (2 * 16)).map (Operand.sourceDestinationAddr, ·)) :=
    addPairs_of_read (by decide) fun j hj => haddr j (by omega)
  have hsnd : ∀ result reads, addPairs readContent length.toNat result 0 reads =
      .ok (result + swappedSum ((List.range' 0 (2 * k)).map content))
        (reads ++ (List.range' 0 (2 * k)).map (Operand.headerWithContent, ·)) := fun _ _ =>
    addPairs_of_read (by omega) fun j hj => hcontent j (by omega)
  have hassert : (assertThat (length > 0) : Program Exn Reads Unit) [] = .ok () [] :=
    assertThat_eq_ok_iff.mpr ⟨hpos, rfl⟩
  rw [← hk] at hsnd
  unfold checksumBody
  rw [bind_of_ok hassert, bind_of_ok hfst, bind_of_ok (hsnd _ _), if_neg (by omega),
    bind_of_ok (pure_apply _ _)]
  have hlength : ((List.range 32).map addr).length % 2 = 0 := by
    rw [List.length_map, List.length_range]
  have hsum : 0 + swappedSum ((List.range 32).map addr) +
        swappedSum ((List.range length.toNat).map content) +
          swappedSum (Octets.bigEndian 4 length.toNat) + swappedSum (Octets.bigEndian 4 nextHvalue.toNat) =
      swappedSum (pseudoHeader ((List.range 32).map addr) length.toNat nextHvalue.toNat ++
        (List.range length.toNat).map content) := by
    simp only [pseudoHeader, List.append_assoc]
    rw [swappedSum_append hlength, swappedSum_append (by rw [Octets.length_bigEndian]),
      swappedSum_append (by rw [Octets.length_bigEndian])]
    omega
  simp only [htonl_words, pure_apply, ← List.range_eq_range', List.nil_append, ← hsum]

/-! ### The two overloads -/

section Overloads

/-- The octets that the pointers point at. -/
def Addresses.octetAt (addr : Addresses) (i : ℕ) : UInt8 := addr.octets.getD i 0

private theorem Addresses.map_octetAt (addr : Addresses) :
    (List.range 32).map addr.octetAt = addr.octets := by
  refine List.ext_getElem (by simp [addr.length_octets]) fun i hi hi' => ?_
  simp [octetAt, hi']

/-- The octets that are expected in memory where the number that is returned is stored. -/
def expected (addr : Addresses) (content : Bytes) (nextHvalue : UInt32) : Bytes :=
  Octets.bigEndian 2
    (rfc1071 (pseudoHeader addr.octets content.length nextHvalue.toNat ++ content))

/-- The call returns the checksum, and reads no octet behind the content. The number that is returned is
stored in memory as it is, so its octets there are those that count. -/
def ReturnsChecksum (call : Program Exn Reads UInt16) (addr : Addresses) (content : Bytes)
    (nextHvalue : UInt32) : Prop :=
  ∃ v reads, call [] = .ok v reads ∧ inMemory v = expected addr content nextHvalue ∧
    ∀ i, (Operand.headerWithContent, i) ∈ reads → i < content.length

/-- The octets of the content, from where the pointer points. -/
def contentOf (memory : ℕ → UInt8) (length : UInt16) : Bytes := (List.range length.toNat).map memory

variable {addr : Addresses} {memory : ℕ → UInt8} {length : UInt16} {nextHvalue : UInt32}

@[simp] theorem length_contentOf : (contentOf memory length).length = length.toNat := by
  rw [contentOf, List.length_map, List.length_range]

private theorem viewAt_of_getElem? {operand : Operand} {view : Bytes} {i : ℕ} {octet : UInt8}
    (h : view[i]? = some octet) (s : Reads) :
    viewAt operand view i s = .ok octet (s ++ [(operand, i)]) := by
  unfold viewAt
  rw [h]
  rfl

private theorem getElem?_octets {i : ℕ} (h : i < 32) : addr.octets[i]? = some (addr.octetAt i) := by
  have hi : i < addr.octets.length := by rwa [addr.length_octets]
  simp [Addresses.octetAt, hi]

private theorem getElem?_contentOf {i : ℕ} (h : i < length.toNat) :
    (contentOf memory length)[i]? = some (memory i) := by
  simp [contentOf, h]

/-- Reads of both overloads succeed within the content, and what they return is the checksum when its
length is even. -/
theorem returnsChecksum_of_read {readAddr readContent : ℕ → Program Exn Reads UInt8} (hpos : 0 < length)
    (heven : length.toNat % 2 = 0)
    (haddr : ∀ j, j < 32 → ∀ s,
      readAddr j s = .ok (addr.octetAt j) (s ++ [(.sourceDestinationAddr, j)]))
    (hcontent : ∀ j, j < length.toNat → ∀ s,
      readContent j s = .ok (memory j) (s ++ [(.headerWithContent, j)])) :
    ReturnsChecksum (checksumBody readAddr readContent length nextHvalue) addr
      (contentOf memory length) nextHvalue := by
  refine ⟨_, _, checksumBody_of_read hpos heven haddr hcontent, ?_, fun i hi => ?_⟩
  · rw [inMemory_complement, addr.map_octetAt, expected, length_contentOf]
    rfl
  · rw [length_contentOf]
    simpa using hi

/-- The overload with pointers reads the octet behind an odd number of others. -/
private theorem behind_mem_reads {v : UInt16} {reads : Reads} (hodd : length.toNat % 2 = 1)
    (h : checksumIpv6Packet addr.octetAt memory length nextHvalue [] = .ok v reads) :
    (Operand.headerWithContent, length.toNat) ∈ reads := by
  obtain ⟨_, _, -, h⟩ := bind_eq_ok_iff.mp h
  obtain ⟨_, s, -, h⟩ := bind_eq_ok_iff.mp h
  obtain ⟨total, s', hcontent, h⟩ := bind_eq_ok_iff.mp h
  rw [addPairs_deref] at hcontent
  obtain ⟨rfl, rfl⟩ := EStateM.Result.ok.inj hcontent
  rw [if_pos hodd] at h
  obtain ⟨_, rfl⟩ := EStateM.Result.ok.inj h
  refine List.mem_append_left _ (List.mem_append_right _ (List.mem_map.mpr ⟨length.toNat, ?_, rfl⟩))
  rw [List.mem_range'_1]
  omega

/-- The overload with views does not return for an odd number of octets. -/
theorem checksumIpv6PacketView_ne_ok {v : UInt16} {reads : Reads} (hodd : length.toNat % 2 = 1) :
    checksumIpv6PacketView addr.octets (contentOf memory length) nextHvalue [] ≠ .ok v reads := by
  intro h
  rw [checksumIpv6PacketView, length_contentOf, UInt16.ofNat_toNat] at h
  obtain ⟨_, _, -, h⟩ := bind_eq_ok_iff.mp h
  obtain ⟨_, s, -, h⟩ := bind_eq_ok_iff.mp h
  obtain ⟨total, s', hcontent, h⟩ := bind_eq_ok_iff.mp h
  obtain ⟨last, t, t', hread⟩ := exists_read_of_addPairs (k := length.toNat / 2) (by omega) hcontent
  have hnone : (contentOf memory length)[length.toNat]? = none := by simp [contentOf]
  unfold viewAt at hread
  rw [hnone] at hread
  exact nomatch hread

/-- Both overloads return the checksum, the same number, and read no octet behind the content. The memory
behind the content is there, so that reading on would not be noticed in what is returned. -/
def ChecksumRight (addr : Addresses) (memory : ℕ → UInt8) (length : UInt16) (nextHvalue : UInt32) : Prop :=
  ReturnsChecksum (checksumIpv6Packet addr.octetAt memory length nextHvalue) addr
      (contentOf memory length) nextHvalue ∧
    ReturnsChecksum (checksumIpv6PacketView addr.octets (contentOf memory length) nextHvalue) addr
      (contentOf memory length) nextHvalue ∧
    ∃ v reads reads', checksumIpv6Packet addr.octetAt memory length nextHvalue [] = .ok v reads ∧
      checksumIpv6PacketView addr.octets (contentOf memory length) nextHvalue [] = .ok v reads'

private theorem returnsChecksum_pointer_iff (hpos : 0 < length) :
    ReturnsChecksum (checksumIpv6Packet addr.octetAt memory length nextHvalue) addr
      (contentOf memory length) nextHvalue ↔ length.toNat % 2 = 0 := by
  constructor
  · rintro ⟨v, reads, hok, -, hreads⟩
    by_contra hodd
    have hlt := hreads _ (behind_mem_reads (by omega) hok)
    rw [length_contentOf] at hlt
    exact lt_irrefl _ hlt
  · exact fun heven => returnsChecksum_of_read hpos heven (fun _ _ _ => rfl) fun _ _ _ => rfl

private theorem returnsChecksum_view_iff (hpos : 0 < length) :
    ReturnsChecksum (checksumIpv6PacketView addr.octets (contentOf memory length) nextHvalue) addr
      (contentOf memory length) nextHvalue ↔ length.toNat % 2 = 0 := by
  constructor
  · rintro ⟨v, reads, hok, -, -⟩
    by_contra hodd
    exact checksumIpv6PacketView_ne_ok (by omega) hok
  · intro heven
    rw [checksumIpv6PacketView, length_contentOf, UInt16.ofNat_toNat]
    exact returnsChecksum_of_read hpos heven (fun j hj => viewAt_of_getElem? (getElem?_octets hj))
      fun j hj => viewAt_of_getElem? (getElem?_contentOf hj)


private theorem inMemory_injective {v v' : UInt16} (h : inMemory v = inMemory v') : v = v' := by
  have hnat := congrArg Octets.toNat (List.reverse_injective h)
  rw [Octets.toNat_bigEndian_of_lt v.toNat_lt, Octets.toNat_bigEndian_of_lt v'.toNat_lt] at hnat
  exact UInt16.toNat_inj.mp hnat

/-- The overloads are right exactly when the length is even: each of them is wrong for every odd length. One
of them reads the octet behind the content then, and the other one throws there. -/
theorem checksumRight_iff (hpos : 0 < length) :
    ChecksumRight addr memory length nextHvalue ↔ length.toNat % 2 = 0 := by
  constructor
  · exact fun h => (returnsChecksum_pointer_iff hpos).mp h.1
  · intro heven
    have hpointer : ReturnsChecksum (checksumIpv6Packet addr.octetAt memory length nextHvalue) addr
        (contentOf memory length) nextHvalue := (returnsChecksum_pointer_iff hpos).mpr heven
    have hview : ReturnsChecksum
        (checksumIpv6PacketView addr.octets (contentOf memory length) nextHvalue) addr
        (contentOf memory length) nextHvalue := (returnsChecksum_view_iff hpos).mpr heven
    refine ⟨hpointer, hview, ?_⟩
    obtain ⟨v, reads, hok, hv, -⟩ := hpointer
    obtain ⟨v', reads', hok', hv', -⟩ := hview
    obtain rfl : v = v' := inMemory_injective (hv.trans hv'.symm)
    exact ⟨v, reads, reads', hok, hok'⟩

end Overloads

/-- The addresses that are all zero. -/
def noAddresses : Addresses := ⟨List.replicate 32 0, List.length_replicate⟩

/-- Two octets of content. -/
theorem checksumRight_two_iff :
    ChecksumRight noAddresses (fun _ => 1) 2 58 ↔ (2 : UInt16).toNat % 2 = 0 :=
  checksumRight_iff (by decide)

/-- One octet of content. -/
theorem not_checksumRight_one : ¬ ChecksumRight noAddresses (fun _ => 1) 1 58 := by
  rintro ⟨-, ⟨v, reads, hok, -⟩, -⟩
  exact checksumIpv6PacketView_ne_ok (by decide) hok

/-! ### The answer -/

/-- A pointer into an array. -/
def pointer (octets : Bytes) (offset i : ℕ) : UInt8 := octets.getD (offset + i) 0

/-- The `n` octets of an array from an offset on. They are read through a pointer, as the code does it. -/
def slice (octets : Bytes) (offset n : ℕ) : Bytes := (List.range n).map (pointer octets offset)

/-- The array that is filled, and the iterator that goes through it. Nothing checks the iterator against the
end, and an octet behind it would be lost here. -/
structure Filling where
  /-- The array. -/
  octets : Bytes
  /-- The index of the octet that the iterator points at. -/
  it : ℕ

namespace Filling

/-- `*it = octet; ++it;` -/
def put (f : Filling) (octet : UInt8) : Filling := ⟨f.octets.set f.it octet, f.it + 1⟩

/-- `for (int i = 0; i < n; ++i) { *it = p[i]; ++it; }` -/
def putLoop (f : Filling) (p : ℕ → UInt8) (n : ℕ) : Filling :=
  (List.range n).foldl (fun f i => f.put (p i)) f

end Filling

/-- What `generate_neighbor_advertisement` writes before it has the checksum, and `it_checksum`. It returns
where the two octets of the checksum are, which are zero for now. -/
def fill (packet : Bytes) (f : Filling) : Filling × ℕ :=
  let inputSrcMacAddress := pointer packet 6
  -- ethernet header: destination MAC, source MAC, EtherType
  let f := f.putLoop inputSrcMacAddress 6
  let f := f.put 0xFC
  let f := f.putLoop (fun _ => 0x00) 5
  let f := (f.put 0x86).put 0xDD
  -- ipv6 header: flow label, payload len, next header, hop limit, source and destination address
  let f := (((f.put 0x60).put 0x00).put 0x00).put 0x00
  let f := (f.put 0x00).put 0x28
  let f := f.put 0x3A
  let f := f.put 0xFF
  let inputIcmpTargetAddress := pointer packet (54 + 8)
  let f := f.putLoop inputIcmpTargetAddress 16
  let inputSourceIpv6Address := pointer packet 22
  let f := f.putLoop inputSourceIpv6Address 16
  -- icmpv6: type, code, checksum, flags, reserved, target address
  let f := (f.put 136).put 0
  let itChecksum := f.it
  let f := (f.put 0x00).put 0x00
  let f := f.put 0xE0
  let f := ((f.put 0x00).put 0x00).put 0x00
  let f := f.putLoop inputIcmpTargetAddress 16
  -- options: target and source link-layer address
  let f := (f.put 0x02).put 0x01
  let f := f.put 0xFC
  let f := f.putLoop (fun _ => 0x00) 5
  let f := (f.put 0x01).put 0x01
  let f := f.putLoop inputSrcMacAddress 6
  (f, itChecksum)

/-- `c_ndp::generate_neighbor_advertisement`, where `returnPacket` is what is in the array before. The
checksum is that of the octets that were written, over the addresses in the header. -/
def generateNeighborAdvertisement (returnPacket : Vector UInt8 94) (packet : Vector UInt8 9000) :
    Program Exn Reads Bytes := do
  let (f, itChecksum) := fill packet.toList ⟨returnPacket.toList, 0⟩
  let checksum ← checksumIpv6Packet (pointer f.octets 22) (pointer f.octets 54) 40 58
  let octets := f.octets.set itChecksum ((inMemory checksum).getD 0 0)
  return octets.set (itChecksum + 1) ((inMemory checksum).getD 1 0)

/-- The frame, with the octets of its checksum. -/
def advertisement (packet checksum : Bytes) : Bytes :=
  slice packet 6 6 ++ [0xFC, 0, 0, 0, 0, 0, 0x86, 0xDD, 0x60, 0, 0, 0, 0, 0x28, 0x3A, 0xFF] ++
    slice packet 62 16 ++ slice packet 22 16 ++ [136, 0] ++ checksum ++ [0xE0, 0, 0, 0] ++
      slice packet 62 16 ++ [0x02, 0x01, 0xFC, 0, 0, 0, 0, 0, 0x01, 0x01] ++ slice packet 6 6

namespace Filling

/-- Some octets, one after the other. -/
def putAll (f : Filling) (octets : Bytes) : Filling := octets.foldl put f

variable {f : Filling}

theorem put_eq_putAll (f : Filling) (octet : UInt8) : f.put octet = f.putAll [octet] := rfl

private theorem putLoop_eq_putAll (f : Filling) (p : ℕ → UInt8) (n : ℕ) :
    f.putLoop p n = f.putAll ((List.range n).map p) := by
  rw [putLoop, putAll, List.foldl_map]

private theorem putAll_putAll (f : Filling) (octets octets' : Bytes) :
    (f.putAll octets).putAll octets' = f.putAll (octets ++ octets') :=
  List.foldl_append.symm

private theorem it_putAll (f : Filling) (octets : Bytes) : (f.putAll octets).it = f.it + octets.length := by
  induction octets generalizing f with
  | nil => rfl
  | cons octet octets ih =>
    refine (ih (f.put octet)).trans ?_
    change f.it + 1 + octets.length = f.it + (octets.length + 1)
    omega

/-- Octets that fit are put over those that were there. -/
private theorem putAll_mk {octets rest : Bytes} (h : octets.length ≤ rest.length) (written : Bytes) :
    putAll ⟨written ++ rest, written.length⟩ octets =
      ⟨written ++ octets ++ rest.drop octets.length, written.length + octets.length⟩ := by
  induction octets generalizing written rest with
  | nil => simp [putAll]
  | cons octet octets ih =>
    cases rest with
    | nil => exact absurd h (by simp)
    | cons garbage rest =>
      have hput : put ⟨written ++ garbage :: rest, written.length⟩ octet =
          ⟨(written ++ [octet]) ++ rest, (written ++ [octet]).length⟩ := by
        simp [put]
      rw [putAll, List.foldl_cons, hput]
      refine (ih (Nat.le_of_succ_le_succ h) (written ++ [octet])).trans ?_
      simp only [List.length_append, List.length_cons, List.length_nil, List.append_assoc,
        List.cons_append, List.nil_append, List.drop_succ_cons, mk.injEq, true_and]
      omega

/-- Octets that fill the array are all that is left in it. -/
private theorem putAll_of_length_eq {octets garbage : Bytes} (h : octets.length = garbage.length) :
    putAll ⟨garbage, 0⟩ octets = ⟨octets, octets.length⟩ := by
  have hall := putAll_mk h.le []
  rw [List.drop_eq_nil_of_le h.ge] at hall
  simpa using hall

end Filling

@[simp] theorem length_slice (octets : Bytes) (offset n : ℕ) : (slice octets offset n).length = n := by
  rw [slice, List.length_map, List.length_range]

/-- A part of some octets, where it lies. -/
theorem slice_of_eq {octets : Bytes} (front part back : Bytes) (h : octets = front ++ part ++ back)
    {offset n : ℕ} (hfront : front.length = offset) (hpart : part.length = n) :
    slice octets offset n = part := by
  subst h hfront hpart
  refine List.ext_getElem (by simp) fun i hi hi' => ?_
  simp only [slice, pointer, List.getElem_map, List.getElem_range, List.append_assoc]
  simp [List.getElem?_append, hi']

/-- Whatever was in the array, it is filled with the frame, and two octets are left for the checksum. -/
private theorem fill_eq {garbage : Bytes} (h : garbage.length = 94) (packet : Bytes) :
    fill packet ⟨garbage, 0⟩ = (⟨advertisement packet [0, 0], 94⟩, 56) := by
  have hzeros : (List.range 5).map (fun _ => (0x00 : UInt8)) = [0, 0, 0, 0, 0] := rfl
  have hlength : (advertisement packet [0, 0]).length = 94 := by simp [advertisement]
  have hfst : (fill packet ⟨garbage, 0⟩).1 =
      Filling.putAll ⟨garbage, 0⟩ (advertisement packet [0, 0]) := by
    simp only [fill, Filling.put_eq_putAll, Filling.putLoop_eq_putAll, Filling.putAll_putAll, hzeros]
    simp only [advertisement, slice, List.append_assoc, List.cons_append, List.nil_append]
  have hsnd : (fill packet ⟨garbage, 0⟩).2 = 56 := by
    simp only [fill, Filling.put_eq_putAll, Filling.putLoop_eq_putAll, Filling.putAll_putAll, hzeros,
      Filling.it_putAll]
    simp
  rw [Filling.putAll_of_length_eq (hlength.trans h.symm), hlength] at hfst
  exact Prod.ext hfst hsnd

/-- The addresses in the ipv6 header of the frame. -/
def answerAddresses (packet : Bytes) : Addresses :=
  ⟨slice packet 62 16 ++ slice packet 22 16, by simp⟩

/-- The icmpv6 part of the frame. -/
def answerBody (packet checksum : Bytes) : Bytes :=
  [136, 0] ++ checksum ++ ([0xE0, 0, 0, 0] ++ slice packet 62 16 ++
    [0x02, 0x01, 0xFC, 0, 0, 0, 0, 0, 0x01, 0x01] ++ slice packet 6 6)

/-- The ethernet header of the frame, and the start of its ipv6 header. -/
def answerFront (packet : Bytes) : Bytes :=
  slice packet 6 6 ++ [0xFC, 0, 0, 0, 0, 0, 0x86, 0xDD, 0x60, 0, 0, 0, 0, 0x28, 0x3A, 0xFF]

private theorem advertisement_eq (packet checksum : Bytes) : advertisement packet checksum =
    answerFront packet ++ (answerAddresses packet).octets ++ answerBody packet checksum := by
  simp [advertisement, answerFront, answerAddresses, answerBody]

private theorem slice_addresses (packet checksum : Bytes) :
    slice (advertisement packet checksum) 22 32 = (answerAddresses packet).octets :=
  slice_of_eq _ _ _ (advertisement_eq packet checksum) (by simp [answerFront])
    (answerAddresses packet).length_octets

private theorem slice_body (packet : Bytes) {checksum : Bytes} (h : checksum.length = 2) :
    slice (advertisement packet checksum) 54 40 = answerBody packet checksum :=
  slice_of_eq (answerFront packet ++ (answerAddresses packet).octets) _ []
    (by rw [advertisement_eq, List.append_nil]) (by simp [answerFront, answerAddresses])
    (by simp [answerBody, h])

/-- The octets over which the checksum of a frame is taken: the pseudo-header of its ipv6 header, and its
icmpv6 part. -/
def checksummed (frame : Bytes) : Bytes :=
  pseudoHeader (slice frame 22 32) (Octets.toNat (slice frame 18 2)) (Octets.toNat (slice frame 20 1)) ++
    slice frame 54 40

/-- A frame that answers a neighbor solicitation: it goes to the host that asks, from the address that was
asked for, and its checksum verifies. All fields are read at their places in the frame. -/
structure Answers (packet frame : Bytes) : Prop where
  length : frame.length = 94
  destinationMac : slice frame 0 6 = slice packet 6 6
  source : slice frame 22 16 = slice packet 62 16
  destination : slice frame 38 16 = slice packet 22 16
  target : slice frame 62 16 = slice packet 62 16
  verifies : OnesComplement.sum 65536 (words (checksummed frame)) = 0xFFFF

/-- The octets over which the checksum is taken, with the checksum among them. -/
private theorem checksummed_advertisement (packet : Bytes) {checksum : Bytes} (h : checksum.length = 2) :
    checksummed (advertisement packet checksum) =
      pseudoHeader (answerAddresses packet).octets 40 58 ++ answerBody packet checksum := by
  have hlength : slice (advertisement packet checksum) 18 2 = [0, 0x28] :=
    slice_of_eq (slice packet 6 6 ++ [0xFC, 0, 0, 0, 0, 0, 0x86, 0xDD, 0x60, 0, 0, 0]) _
      ([0x3A, 0xFF] ++ ((answerAddresses packet).octets ++ answerBody packet checksum))
      (by simp [advertisement_eq, answerFront]) (by simp) rfl
  have hnext : slice (advertisement packet checksum) 20 1 = [0x3A] :=
    slice_of_eq (slice packet 6 6 ++ [0xFC, 0, 0, 0, 0, 0, 0x86, 0xDD, 0x60, 0, 0, 0, 0, 0x28]) _
      ([0xFF] ++ ((answerAddresses packet).octets ++ answerBody packet checksum))
      (by simp [advertisement_eq, answerFront]) (by simp) rfl
  have hlengthField : Octets.toNat [0, 0x28] = 40 := by decide
  have hnextField : Octets.toNat [0x3A] = 58 := by decide
  rw [checksummed, slice_addresses, slice_body packet h, hlength, hnext, hlengthField, hnextField]

/-- With the checksum of the octets in the place of zeros, the words add up to `0xFFFF`. -/
private theorem sum_words_rfc1071 {front : Bytes} (hfront : front.length % 2 = 0) (back : Bytes) :
    OnesComplement.sum 65536 (words (front ++ Octets.bigEndian 2 (rfc1071 (front ++ [0, 0] ++ back)) ++
      back)) = 0xFFFF := by
  have hwords (middle : Bytes) (h : middle.length = 2) : (words (front ++ middle ++ back)).sum =
      (words front).sum + (words middle).sum + (words back).sum := by
    rw [words_append (by rw [List.length_append]; omega), words_append hfront, List.sum_append,
      List.sum_append]
  have hzero : OnesComplement.sum 65536 (words (front ++ [0, 0] ++ back)) =
      residue 65536 ((words front).sum + (words back).sum) := by
    rw [sum_eq_residue (by decide) (words_lt _), hwords _ rfl]
    rfl
  have hchecksum : (words (Octets.bigEndian 2 (rfc1071 (front ++ [0, 0] ++ back)))).sum =
      65535 - residue 65536 ((words front).sum + (words back).sum) := by
    rw [rfc1071, hzero]
    generalize residue 65536 ((words front).sum + (words back).sum) = n
    simp only [Octets.bigEndian, words, List.sum_singleton, Octets.toNat_ofNat_digit, pow_zero, pow_one]
    omega
  rw [sum_eq_residue (by decide) (words_lt _), hwords _ (Octets.length_bigEndian _ _), hchecksum,
    Nat.add_right_comm]
  exact residue_add_complement (by decide) _

private theorem advertisement_eq_mac (packet checksum : Bytes) : advertisement packet checksum =
    [] ++ slice packet 6 6 ++ ([0xFC, 0, 0, 0, 0, 0, 0x86, 0xDD, 0x60, 0, 0, 0, 0, 0x28, 0x3A, 0xFF] ++
      (answerAddresses packet).octets ++ answerBody packet checksum) := by
  simp [advertisement_eq, answerFront]

/-- The frame with the checksum of its octets is an answer. -/
private theorem answers_advertisement (packet : Bytes) :
    Answers packet (advertisement packet (Octets.bigEndian 2 (rfc1071
      (pseudoHeader (answerAddresses packet).octets 40 58 ++ answerBody packet [0, 0])))) := by
  have htwo := Octets.length_bigEndian 2
    (rfc1071 (pseudoHeader (answerAddresses packet).octets 40 58 ++ answerBody packet [0, 0]))
  generalize hchecksum : Octets.bigEndian 2
    (rfc1071 (pseudoHeader (answerAddresses packet).octets 40 58 ++ answerBody packet [0, 0])) =
      checksum at htwo ⊢
  refine ⟨?_, ?_, ?_, ?_, ?_, ?_⟩
  · simp [advertisement, htwo]
  · exact slice_of_eq [] _ _ (advertisement_eq_mac packet checksum) rfl (by simp)
  · exact slice_of_eq (answerFront packet) _ (slice packet 22 16 ++ answerBody packet checksum)
      (by simp [advertisement_eq, answerAddresses]) (by simp [answerFront]) (by simp)
  · exact slice_of_eq (answerFront packet ++ slice packet 62 16) _ (answerBody packet checksum)
      (by simp [advertisement_eq, answerAddresses]) (by simp [answerFront]) (by simp)
  · exact slice_of_eq (answerFront packet ++ (answerAddresses packet).octets ++ [136, 0] ++ checksum ++
      [0xE0, 0, 0, 0]) _ ([0x02, 0x01, 0xFC, 0, 0, 0, 0, 0, 0x01, 0x01] ++ slice packet 6 6)
      (by simp [advertisement_eq, answerBody]) (by simp [answerFront, answerAddresses, htwo]) (by simp)
  · have hfront : (pseudoHeader (answerAddresses packet).octets 40 58 ++ [136, 0]).length % 2 = 0 := by
      simp [pseudoHeader, (answerAddresses packet).length_octets]
    have hsum := sum_words_rfc1071 hfront ([0xE0, 0, 0, 0] ++ slice packet 62 16 ++
      [0x02, 0x01, 0xFC, 0, 0, 0, 0, 0, 0x01, 0x01] ++ slice packet 6 6)
    rw [checksummed_advertisement packet htwo, ← hchecksum]
    simpa only [answerBody, List.append_assoc] using hsum

/-- Storing the two octets of the checksum. -/
private theorem set_checksum (packet : Bytes) (low high : UInt8) :
    ((advertisement packet [0, 0]).set 56 low).set 57 high = advertisement packet [low, high] := by
  have hsplit (a b : UInt8) : advertisement packet [a, b] =
      (answerFront packet ++ (answerAddresses packet).octets ++ [136, 0]) ++
        (a :: b :: ([0xE0, 0, 0, 0] ++ slice packet 62 16 ++
          [0x02, 0x01, 0xFC, 0, 0, 0, 0, 0, 0x01, 0x01] ++ slice packet 6 6)) := by
    simp [advertisement_eq, answerBody]
  have hlength : (answerFront packet ++ (answerAddresses packet).octets ++ [136, 0]).length = 56 := by
    simp [answerFront, answerAddresses]
  rw [hsplit, hsplit, List.set_append_right _ _ hlength.le, List.set_append_right _ _ (by omega), hlength]
  rfl

/-- The answer is the frame with its checksum, whatever was in the array before. -/
private theorem generateNeighborAdvertisement_eq (returnPacket : Vector UInt8 94)
    (packet : Vector UInt8 9000) :
    ∃ reads, generateNeighborAdvertisement returnPacket packet [] =
      .ok (advertisement packet.toList (Octets.bigEndian 2 (rfc1071 (pseudoHeader
        (answerAddresses packet.toList).octets 40 58 ++ answerBody packet.toList [0, 0])))) reads := by
  have hfill : fill packet.toList ⟨returnPacket.toList, 0⟩ =
      (⟨advertisement packet.toList [0, 0], 94⟩, 56) := fill_eq returnPacket.length_toList _
  have haddr : (List.range 32).map (pointer (advertisement packet.toList [0, 0]) 22) =
      (answerAddresses packet.toList).octets := slice_addresses packet.toList [0, 0]
  have hbody : (List.range 40).map (pointer (advertisement packet.toList [0, 0]) 54) =
      answerBody packet.toList [0, 0] := slice_body packet.toList rfl
  obtain ⟨v, reads, hrun, hv⟩ : ∃ v reads,
      checksumIpv6Packet (pointer (advertisement packet.toList [0, 0]) 22)
        (pointer (advertisement packet.toList [0, 0]) 54) 40 58 [] = .ok v reads ∧
      inMemory v = Octets.bigEndian 2 (rfc1071 (pseudoHeader (answerAddresses packet.toList).octets 40 58 ++
        answerBody packet.toList [0, 0])) := by
    refine ⟨_, _, checksumBody_of_read (by decide) (by decide) (fun _ _ _ => rfl) fun _ _ _ => rfl, ?_⟩
    rw [inMemory_complement, haddr]
    exact congrArg (fun body => Octets.bigEndian 2 (rfc1071 (pseudoHeader
      (answerAddresses packet.toList).octets 40 58 ++ body))) hbody
  refine ⟨reads, ?_⟩
  have hoctets : inMemory v = [(inMemory v).getD 0 0, (inMemory v).getD 1 0] := rfl
  rw [generateNeighborAdvertisement, hfill]
  refine (bind_of_ok hrun).trans ?_
  rw [← hv, hoctets]
  exact congrArg (fun frame => EStateM.Result.ok frame reads) (set_checksum packet.toList _ _)

/-- Every answer is one to the solicitation: its addresses are, and its checksum verifies. This holds for
every solicitation, with whatever is in its fields. -/
theorem generateNeighborAdvertisement_answers (returnPacket : Vector UInt8 94)
    (packet : Vector UInt8 9000) :
    ∃ frame reads, generateNeighborAdvertisement returnPacket packet [] = .ok frame reads ∧
      Answers packet.toList frame := by
  obtain ⟨reads, hok⟩ := generateNeighborAdvertisement_eq returnPacket packet
  exact ⟨_, reads, hok, answers_advertisement packet.toList⟩

end Ndp

end Galaxy42
