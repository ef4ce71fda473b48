import Galaxy42.Lib.SearchTree
import Galaxy42.Tunserver.Node

/-!
# Addresses as keys of a map

The operators of `c_ip46_addr` compare the family of two addresses, their octets and their ports. The
operator `==` looks at all octets. The operator `<` looks at the size of an IPv4 address in both families:
of an IPv6 address these are the first four octets.

So the operators agree on some addresses exactly when no two different IPv6 addresses among them have the
same first four octets and the same port, and then a `std::map` has one entry for each address that was
given, with the value that was assigned last (`fitAsKeys_iff`). Of two such addresses the map keeps one
entry, with the first address and the second value (`mapOf_pair`).

As a comparison of three results the operator `<` is lexicographic in three components: the family, the octets
that it looks at, and the port (`cmp`). That makes it a strict weak order on all addresses, so that a map with
them is always in order; what can fail is that it tells two addresses apart, and this is decided by
the addresses alone (`Distinguished`).

The map is the search tree of `Lib.SearchTree`, as for all maps whose keys are compared by operators of the
program. What is said of it is independent of how the tree is balanced. The value that an address should have
is found in the list of the assignments, from the last one on (`lastAssigned`).
-/

namespace Galaxy42

open Toolkit Program SearchTree

namespace Ip46Addr

variable {σ : Type}

/-! ### The operators -/

/-- The end of `operator<` for two addresses of one family. -/
def ltSameFamily (cmp : Ordering) (thisPort rhsPort : UInt16) : Bool :=
  match cmp with
  | .lt => true
  | .gt => false
  | .eq => decide (thisPort < rhsPort)

/-- `memcmp` on so many octets. -/
def memcmp (a b : Bytes) (count : ℕ) : Ordering := compare (a.take count) (b.take count)

/-- `operator<` on addresses that are set. It has `sizeof(in_addr)` in both families. -/
def lt : Ip46Addr → Ip46Addr → Bool
  | ipv4 _ _, ipv6 _ _ => true
  | ipv6 _ _, ipv4 _ _ => false
  | ipv4 addr port, ipv4 rhsAddr rhsPort => ltSameFamily (memcmp addr.octets rhsAddr.octets 4) port rhsPort
  | ipv6 addr port, ipv6 rhsAddr rhsPort => ltSameFamily (memcmp addr.octets rhsAddr.octets 4) port rhsPort
  | _, _ => false

/-- `operator<`, which refuses an address that is not set. -/
def less (this rhs : Ip46Addr) : Program Exn σ Bool := do
  checkThat (this ≠ none) (.invalidArgument "lhs: m_tag == tag_none")
  checkThat (rhs ≠ none) (.invalidArgument "rhs: m_tag == tag_none")
  return lt this rhs

private theorem less_of_ne_none {a b : Ip46Addr} (ha : a ≠ none) (hb : b ≠ none) (s : σ) :
    less a b s = .ok (a.lt b) s := by
  rw [less, bind_apply, checkThat_apply, if_pos ha]
  dsimp only
  rw [bind_apply, checkThat_apply, if_pos hb]
  rfl

private theorem equal_of_ne_none {a b : Ip46Addr} (ha : a ≠ none) (hb : b ≠ none) (s : σ) :
    equal a b s = .ok (decide (a = b)) s := by
  rw [equal, bind_apply, checkThat_apply, if_pos ha]
  dsimp only
  rw [bind_apply, checkThat_apply, if_pos hb]
  rfl

/-! ### What is compared -/

/-- The place of the family in the order. -/
def family : Ip46Addr → ℕ
  | none => 0
  | ipv4 _ _ => 1
  | ipv6 _ _ => 2

/-- The octets that are compared. -/
def comparedOctets : Ip46Addr → Bytes
  | none => []
  | ipv4 addr _ => addr.octets.take 4
  | ipv6 addr _ => addr.octets.take 4

/-- The order by the family, the octets that are compared, and the port. -/
def cmp : Ip46Addr → Ip46Addr → Ordering :=
  compareLex (compareOn family) (compareLex (compareOn comparedOctets) (compareOn getAssignedPort))

instance : Std.TransCmp cmp :=
  inferInstanceAs (Std.TransCmp (compareLex (compareOn family)
    (compareLex (compareOn comparedOctets) (compareOn getAssignedPort))))

private theorem lt_eq_isLT {a b : Ip46Addr} (ha : a ≠ none) (hb : b ≠ none) : a.lt b = (cmp a b).isLT := by
  have hsame : ∀ (o : Ordering) (p q : UInt16),
      ltSameFamily o p q = (o.then (compare p q)).isLT := by
    rintro (_ | _ | _) p q
    · rfl
    · rw [ltSameFamily, Ordering.eq_then, Bool.eq_iff_iff, decide_eq_true_eq, Ordering.isLT_iff_eq_lt,
        Std.compare_eq_lt]
    · rfl
  match a, b with
  | none, _ => exact absurd rfl ha
  | ipv4 _ _, none | ipv6 _ _, none => exact absurd rfl hb
  | ipv4 _ _, ipv6 _ _ => rfl
  | ipv6 _ _, ipv4 _ _ => rfl
  | ipv4 addr p, ipv4 rhsAddr q => exact hsame (memcmp addr.octets rhsAddr.octets 4) p q
  | ipv6 addr p, ipv6 rhsAddr q => exact hsame (memcmp addr.octets rhsAddr.octets 4) p q

private theorem cmp_eq_iff {a b : Ip46Addr} : cmp a b = .eq ↔
    a.family = b.family ∧ a.comparedOctets = b.comparedOctets ∧ a.getAssignedPort = b.getAssignedPort := by
  simp only [cmp, compareLex_eq_eq, compareOn, Std.compare_eq_iff_eq]

/-! ### Which addresses are told apart -/

/-- No two different IPv6 addresses have the same first four octets and the same port. It is a condition on
the addresses, and not on what the operators say of them. -/
def Distinguished (S : Set Ip46Addr) : Prop :=
  ∀ addr addr' port, ipv6 addr port ∈ S → ipv6 addr' port ∈ S →
    addr.octets.take 4 = addr'.octets.take 4 → addr = addr'

variable {S : Set Ip46Addr} {a b : Ip46Addr}

/-- Such addresses are equal when nothing that is compared differs. -/
theorem Distinguished.eq_of_cmp (h : Distinguished S) (ha : a ∈ S) (hb : b ∈ S) (hcmp : cmp a b = .eq) :
    a = b := by
  obtain ⟨hfamily, hoctets, hport⟩ := cmp_eq_iff.mp hcmp
  match a, b with
  | none, none => rfl
  | none, ipv4 _ _ | none, ipv6 _ _ | ipv4 _ _, none | ipv6 _ _, none | ipv4 _ _, ipv6 _ _
  | ipv6 _ _, ipv4 _ _ => cases hfamily
  | ipv4 addr p, ipv4 addr' q =>
    obtain rfl : p = q := hport
    have hall : ∀ block : Block 4, block.octets.take 4 = block.octets := fun block =>
      List.take_of_length_le block.length_octets.le
    rw [comparedOctets, comparedOctets, hall, hall] at hoctets
    rw [Block.ext hoctets]
  | ipv6 addr p, ipv6 addr' q =>
    obtain rfl : p = q := hport
    rw [h addr addr' p ha hb hoctets]

private theorem strictTotalOn_lt (hset : ∀ a ∈ S, a ≠ none) (h : Distinguished S) : StrictTotalOn lt S := by
  have hlt : ∀ a ∈ S, ∀ b ∈ S, a.lt b = (cmp a b).isLT := fun a ha b hb =>
    lt_eq_isLT (hset a ha) (hset b hb)
  have heq : ∀ a ∈ S, ∀ b ∈ S, Incomparable lt a b → a = b := by
    rintro a ha b hb ⟨hab, hba⟩
    rw [hlt a ha b hb] at hab
    rw [hlt b hb a ha] at hba
    refine h.eq_of_cmp ha hb ?_
    cases hcmp : cmp a b with
    | lt => simp [hcmp] at hab
    | eq => rfl
    | gt => simp [Std.OrientedCmp.lt_of_gt hcmp] at hba
  exact {
    irrefl := fun a ha => by simp [hlt a ha a ha, Std.ReflCmp.compare_self]
    trans := fun a ha b hb c hc hab hbc => by
      rw [hlt a ha b hb, Ordering.isLT_iff_eq_lt] at hab
      rw [hlt b hb c hc, Ordering.isLT_iff_eq_lt] at hbc
      rw [hlt a ha c hc, Ordering.isLT_iff_eq_lt]
      exact Std.TransCmp.lt_trans hab hbc
    incomparable_trans := fun a ha b hb c _ hab hbc => by rwa [heq a ha b hb hab]
    eq_of_incomparable := heq }

/-- `operator<` returns true. -/
def Less (a b : Ip46Addr) : Prop := (less a b : Program Exn Unit Bool) () = .ok true ()

/-- `operator==` returns true. -/
def Equal (a b : Ip46Addr) : Prop := (equal a b : Program Exn Unit Bool) () = .ok true ()

private theorem less_iff (ha : a ≠ none) (hb : b ≠ none) : Less a b ↔ a.lt b = true := by
  rw [Less, less_of_ne_none ha hb]
  simp

private theorem equal_iff (ha : a ≠ none) (hb : b ≠ none) : Equal a b ↔ a = b := by
  rw [Equal, equal_of_ne_none ha hb]
  simp

/-- Exactly one of two addresses is less, or they are equal. -/
def Trichotomous (a b : Ip46Addr) : Prop :=
  Less a b ∧ ¬ Equal a b ∧ ¬ Less b a ∨ ¬ Less a b ∧ Equal a b ∧ ¬ Less b a ∨
    ¬ Less a b ∧ ¬ Equal a b ∧ Less b a

/-- The operators are a strict total order on some addresses exactly when those are distinguished. -/
theorem trichotomous_iff (hset : ∀ a ∈ S, a ≠ none) :
    ((∀ a ∈ S, ∀ b ∈ S, Trichotomous a b) ∧
      ∀ a ∈ S, ∀ b ∈ S, ∀ c ∈ S, Less a b → Less b c → Less a c) ↔ Distinguished S := by
  constructor
  · rintro ⟨htri, -⟩ addr addr' port ha hb hoctets
    have hcmp : ∀ a b : Ip46Addr, cmp a b = .eq → a ≠ none → b ≠ none → ¬ Less a b := by
      intro a b hcmp ha hb
      rw [less_iff ha hb, lt_eq_isLT ha hb, hcmp]
      decide
    have hna := hset _ ha
    have hnb := hset _ hb
    have hless := hcmp (ipv6 addr port) (ipv6 addr' port)
      (cmp_eq_iff.mpr ⟨rfl, hoctets, rfl⟩) hna hnb
    have hless' := hcmp (ipv6 addr' port) (ipv6 addr port)
      (cmp_eq_iff.mpr ⟨rfl, hoctets.symm, rfl⟩) hnb hna
    rcases htri _ ha _ hb with h | h | h
    · exact absurd h.1 hless
    · exact (Ip46Addr.ipv6.inj ((equal_iff hna hnb).mp h.2.1)).1
    · exact absurd h.2.2 hless'
  · intro h
    have hlt := strictTotalOn_lt hset h
    refine ⟨fun a ha b hb => ?_, fun a ha b hb c hc hab hbc => ?_⟩
    · rw [Trichotomous, less_iff (hset a ha) (hset b hb), less_iff (hset b hb) (hset a ha),
        equal_iff (hset a ha) (hset b hb)]
      by_cases heq : a = b
      · subst heq
        simp [hlt.irrefl a ha]
      · by_cases hab : a.lt b = true
        · have hba : ¬ b.lt a = true := fun hba =>
            absurd (hlt.trans a ha b hb a ha hab hba) (by simp [hlt.irrefl a ha])
          exact .inl ⟨hab, heq, hba⟩
        · have hba := hlt.lt_of_ne hb ha (Ne.symm heq) (by simpa using hab)
          exact .inr (.inr ⟨hab, heq, hba⟩)
    · rw [less_iff (hset _ ‹_›) (hset _ ‹_›)] at hab hbc ⊢
      exact hlt.trans a ha b hb c hc hab hbc

/-! ### Maps with addresses as keys -/

variable {ν : Type} (rebalancing : Rebalancing Ip46Addr ν)

/-- A new map after some assignments. -/
def mapOf (calls : List (Ip46Addr × ν)) : SearchTree Ip46Addr ν :=
  calls.foldl (fun t call => t.assign lt rebalancing call.1 call.2) .leaf

/-- The addresses of some assignments. -/
def addresses (calls : List (Ip46Addr × ν)) : Set Ip46Addr := {a | ∃ v, (a, v) ∈ calls}

/-- The value that is assigned last to an address. -/
def lastAssigned (calls : List (Ip46Addr × ν)) : Ip46Addr → Option ν :=
  calls.foldl (fun f call => Function.update f call.1 (some call.2)) fun _ => Option.none

/-- The operators are a strict total order on the addresses of some assignments, and a map has one entry for
each address, with the value that is assigned last. It is asked of the map after all assignments, which may
name an address any number of times. -/
structure FitAsKeys (calls : List (Ip46Addr × ν)) : Prop where
  trichotomous : ∀ a ∈ addresses calls, ∀ b ∈ addresses calls, Trichotomous a b
  trans : ∀ a ∈ addresses calls, ∀ b ∈ addresses calls, ∀ c ∈ addresses calls,
    Less a b → Less b c → Less a c
  one : ∀ a ∈ addresses calls, (mapOf rebalancing calls).keys.count a = 1
  only : ∀ a ∈ (mapOf rebalancing calls).keys, a ∈ addresses calls
  finds : ∀ a ∈ addresses calls, ∃ v, lastAssigned calls a = some v ∧
    (mapOf rebalancing calls).find lt a = some (a, v)

private theorem represents_mapOf (h : StrictTotalOn lt S) (calls : List (Ip46Addr × ν))
    (hcalls : ∀ call ∈ calls, call.1 ∈ S) :
    Represents lt S (mapOf rebalancing calls) (lastAssigned calls) := by
  induction calls using List.reverseRecOn with
  | nil => exact .leaf lt S
  | append_singleton calls call ih =>
    rw [mapOf, lastAssigned, List.foldl_append, List.foldl_append]
    exact (ih fun c hc => hcalls c (List.mem_append_left _ hc)).assign h (hcalls call (by simp)) rebalancing

private theorem isSome_lastAssigned_iff (calls : List (Ip46Addr × ν)) :
    (lastAssigned calls a).isSome ↔ a ∈ addresses calls := by
  induction calls using List.reverseRecOn with
  | nil => simp [lastAssigned, addresses]
  | append_singleton calls call ih =>
    rw [lastAssigned, List.foldl_append, List.foldl_cons, List.foldl_nil, Function.update_apply]
    by_cases heq : a = call.1
    · subst heq
      simpa [addresses] using ⟨call.2, .inr rfl⟩
    · rw [if_neg heq, ← lastAssigned, ih]
      simp [addresses, Prod.ext_iff, heq]

/-- Addresses can be the keys of a map exactly when no two different IPv6 addresses among them have the same
first four octets and the same port. It does not depend on the order of the assignments, nor on the values. -/
theorem fitAsKeys_iff {calls : List (Ip46Addr × ν)} (hset : ∀ a ∈ addresses calls, a ≠ none) :
    FitAsKeys rebalancing calls ↔ Distinguished (addresses calls) := by
  constructor
  · exact fun h => (trichotomous_iff hset).mp ⟨h.trichotomous, h.trans⟩
  · intro h
    have hlt := strictTotalOn_lt hset h
    obtain ⟨htri, htrans⟩ := (trichotomous_iff hset).mpr h
    have hmap := represents_mapOf rebalancing hlt calls fun call hcall => ⟨call.2, hcall⟩
    have hkeys : ∀ a, a ∈ (mapOf rebalancing calls).keys ↔ a ∈ addresses calls := fun a => by
      rw [hmap.mem_keys_iff, isSome_lastAssigned_iff]
    refine ⟨htri, htrans, fun a ha => ?_, fun a ha => (hkeys a).mp ha, fun a ha => ?_⟩
    · exact List.count_eq_one_of_mem (hmap.sorted.nodup_keys hlt hmap.keysIn) ((hkeys a).mpr ha)
    · obtain ⟨v, hv⟩ := Option.isSome_iff_exists.mp ((isSome_lastAssigned_iff calls).mpr ha)
      exact ⟨v, hv, by rw [hmap.find_eq hlt ha, hv, Option.map_some]⟩

/-- Of two addresses that are not told apart the map keeps the first, with the value of the second. -/
theorem mapOf_pair (hab : Incomparable lt a b) (v w : ν) :
    (mapOf .none [(a, v), (b, w)]).toList = [(a, w)] := by
  obtain ⟨hab, hba⟩ := hab
  simp [mapOf, assign, find, lowerBound, emplace, before, place, SearchTree.modify, Rebalancing.none,
    toList, Option.filter_some, hab, hba]

/-- Two addresses in `2001:db8::/32`, with the default port. -/
private def sampleIpv6 (last : UInt8) : Ip46Addr :=
  ipv6 ⟨[32, 1, 13, 184, 0, 0, 0, 0, 0, 0, 0, 0, 0, 0, 0, last], rfl⟩ 9042

/-- An IPv4 address and an IPv6 address. -/
theorem fitAsKeys_iff_families :
    FitAsKeys .none [(ipv4 0 9042, 1), (sampleIpv6 1, 2)] ↔
      Distinguished (addresses [(ipv4 0 9042, 1), (sampleIpv6 1, 2)]) :=
  fitAsKeys_iff .none fun a ⟨v, hv⟩ => by
    rcases List.mem_pair.mp hv with h | h
    · obtain ⟨rfl, -⟩ := Prod.mk.inj h
      decide
    · obtain ⟨rfl, -⟩ := Prod.mk.inj h
      decide

/-- The second of two addresses of one network is not in the map. -/
theorem not_fitAsKeys_network : ¬ FitAsKeys .none [(sampleIpv6 1, 1), (sampleIpv6 2, 2)] := by
  intro h
  have hone := h.one (sampleIpv6 2) ⟨2, by simp⟩
  rw [keys, mapOf_pair ⟨by decide, by decide⟩] at hone
  revert hone
  decide

end Ip46Addr

end Galaxy42
