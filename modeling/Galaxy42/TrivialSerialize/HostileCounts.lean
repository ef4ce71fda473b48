import Galaxy42.Lib.Counting
import Galaxy42.TrivialSerialize.Interface

/-!
# Announced numbers of elements

A collection begins with the number of its elements, which can be any number of 64 bits, whatever comes
behind it. Elements are read until there are as many or one cannot be read. An element that takes at least
one octet can be read at most as often as there are octets; the entries of a map need not even do that,
since an entry that takes nothing is read again with the same key, and a key is refused the second time.

The readers of this module count the elements they begin to read. What they return and where they stop
is what the readers of the model do.

That the counting readers are the readers of the model is a part of the result and not of its definition: the
counter is a second component of the state, and forgetting it is a simulation (`ReadsAnnounced.simulates`). The
bound is then a statement about a counter that only goes up. A loop that begins an element has one octet less
ahead of it for each one before (`Lib.Counting`), and when there is none left the next one fails.

The entries of a map may take no octets. Where one takes none, the next round begins in the same place, reads
the same key and refuses it. So there are at most two rounds more than those that take an octet, and the number
itself has taken one octet too.
-/

namespace Galaxy42

open Toolkit Program

namespace TrivialSerialize

/-! ### Collections with a counter -/

section Counting

variable {τ κ ν : Type}

/-- `parser::pop_vector_string`, counting the strings. -/
def popVectorStringCounting : Program Exn (Cursor UInt8 × ℕ) (List Bytes) := do
  let size ← onFst popIntegerUvarint
  replicateM (counting popVarstring) size

/-- `parser::pop_vector_object<T>`, counting the objects. -/
def popVectorObjectCounting (object : Pops τ) : Program Exn (Cursor UInt8 × ℕ) (List τ) := do
  let size ← onFst popIntegerUvarint
  replicateM (counting object.run) size

variable [Ord κ] [Std.TransOrd κ] (objectKey : Pops κ) (objectVal : Pops ν)

/-- The loop of `pop_map_object`, counting its rounds. -/
def popMapLoopCounting :
    ℕ → Std.ExtTreeMap κ ν → Program Exn (Cursor UInt8 × ℕ) (Std.ExtTreeMap κ ν)
  | 0, ret => pure ret
  | i + 1, ret => do
    let ret' ← counting (Pops.popMapEntry objectKey objectVal ret).run
    popMapLoopCounting i ret'

/-- `parser::pop_map_object<TKey, TVal>`, counting the entries. -/
def popMapObjectCounting : Program Exn (Cursor UInt8 × ℕ) (Std.ExtTreeMap κ ν) := do
  let size ← onFst popIntegerUvarint
  let ret ← popMapLoopCounting objectKey objectVal size ∅
  checkThat (ret.size = size) .formatErrorReadBadformat
  return ret

end Counting

/-- The collection is read with as many elements as announced, and no more elements are begun to be read than
there are octets, but for one. The counter goes up when an element is begun, before it is known whether it can
be read. -/
structure ReadsAnnounced {γ : Type} (counted : Program Exn (Cursor UInt8 × ℕ) γ) (pop : Parser γ)
    (size : γ → ℕ) : Prop where
  /-- The counter makes no difference. -/
  simulates : Simulates (fun (s : Cursor UInt8 × ℕ) c => s.1 = c) counted pop
  count_le : ∀ c, (finalState counted (c, 0)).2 ≤ c.ahead.length + 1
  size_eq : ∀ c x c', pop c = .ok x c' → ∃ c₁, popIntegerUvarint c = .ok (size x) c₁

/-- Whatever the code reads takes at least one octet. It need not hold where it throws. -/
def Pops.Consumes {τ : Type} (object : Pops τ) : Prop :=
  ∀ c x c', object.run c = .ok x c' → c.now < c'.now

/-! ### Vectors -/

section Vectors

variable {τ : Type} {object : Pops τ}

/-- What takes an octet leaves fewer of them. -/
theorem Pops.Consumes.ahead_lt (h : object.Consumes) {c c' : Cursor UInt8} {x : τ}
    (hrun : object.run c = .ok x c') : c'.ahead.length < c.ahead.length := by
  obtain ⟨n, hn, hfinal⟩ := object.finalState_run c
  have hnow := h c x c' hrun
  rw [finalState_of_ok hrun] at hfinal
  subst hfinal
  have hpos : c.now < c.now + n := hnow
  rw [Cursor.ahead_advance, List.length_drop]
  omega

private theorem MovesOn.consumes (h : MovesOn object.run) : object.Consumes := by
  intro c x c' hrun
  rcases h c with ⟨-, herror⟩ | ⟨n, hpos, -, hfinal⟩
  · exact nomatch hrun.symm.trans herror
  · rw [finalState_of_ok hrun] at hfinal
    subst hfinal
    exact Nat.lt_add_of_pos_right hpos

/-- The number itself takes octets too. -/
theorem ahead_lt_of_popIntegerUvarint {c c' : Cursor UInt8} {size : ℕ}
    (h : popIntegerUvarint c = .ok size c') : c'.ahead.length < c.ahead.length := by
  rw [← Pops.run_popIntegerUvarint] at h
  exact MovesOn.popIntegerUvarint.consumes.ahead_lt h

private theorem consumes_popVarstring : Pops.popVarstring.Consumes :=
  MovesOn.consumes MovesOn.popIntegerUvarint.bind

private theorem readsAnnounced_popVectorObject (h : object.Consumes) :
    ReadsAnnounced (popVectorObjectCounting object) (@popVectorObject τ object.deserialize)
      List.length where
  simulates := (Simulates.onFst _).bind fun size => (Simulates.counting _).replicateM size
  count_le c := by
    cases hsize : popIntegerUvarint c with
    | ok size c₁ =>
      have hless := ahead_lt_of_popIntegerUvarint hsize
      have hcount := finalState_replicateM_counting_le (fun c : Cursor UInt8 => c.ahead.length)
        (fun c x c' hrun => h.ahead_lt hrun) size c₁ 0
      have hfst : onFst popIntegerUvarint (c, 0) = .ok size (c₁, 0) :=
        onFst_eq_ok_iff.mpr ⟨hsize, rfl⟩
      rw [popVectorObjectCounting, finalState_bind_of_ok hfst]
      omega
    | error e c₁ =>
      have hfst : onFst popIntegerUvarint (c, 0) = .error e (c₁, 0) := by
        simp [onFst, hsize]
      rw [popVectorObjectCounting, finalState_bind_of_error hfst]
      exact Nat.zero_le _
  size_eq c xs c' hrun := by
    obtain ⟨size, c₁, hsize, hxs⟩ := bind_eq_ok_iff.mp hrun
    rw [length_of_replicateM_eq_ok hxs]
    exact ⟨c₁, hsize⟩

/-- A vector of strings is a vector of objects that are strings. -/
private theorem readsAnnounced_popVectorString :
    ReadsAnnounced popVectorStringCounting popVectorString List.length := by
  have hcounting : popVectorStringCounting = popVectorObjectCounting Pops.popVarstring := by
    rw [popVectorObjectCounting, Pops.run_popVarstring]
    rfl
  have hpop : popVectorString = @popVectorObject Bytes Pops.popVarstring.deserialize := by
    rw [← Pops.run_popVectorObject, ← Pops.run_popVectorString]
    rfl
  rw [hcounting, hpop]
  exact readsAnnounced_popVectorObject consumes_popVarstring

end Vectors

/-! ### Maps -/

section Maps

variable {κ ν : Type} [Ord κ] [Std.TransOrd κ] {objectKey : Pops κ} {objectVal : Pops ν}

/-- A key and its value. -/
def Pops.popPair (objectKey : Pops κ) (objectVal : Pops ν) : Pops (κ × ν) := do
  let key ← objectKey
  let value ← objectVal
  return (key, value)

/-- A round of the loop reads a key that is not there yet and its value, and inserts them. -/
theorem run_popMapEntry_eq_ok_iff {ret ret' : Std.ExtTreeMap κ ν} {c c' : Cursor UInt8} :
    (Pops.popMapEntry objectKey objectVal ret).run c = .ok ret' c' ↔
      ∃ pair, (Pops.popPair objectKey objectVal).run c = .ok pair c' ∧ pair.1 ∉ ret ∧
        ret' = ret.insertIfNew pair.1 pair.2 := by
  simp only [Pops.popMapEntry, Pops.popPair, Pops.run_bind, Pops.run_checkThat, Pops.run_pure,
    bind_eq_ok_iff, checkThat_eq_ok_iff, pure_apply, EStateM.Result.ok.injEq]
  constructor
  · rintro ⟨key, c₁, hkey, value, c₂, hval, _, _, ⟨hnew, rfl⟩, _, _, ⟨-, rfl⟩, rfl, rfl⟩
    exact ⟨(key, value), ⟨key, c₁, hkey, value, c₂, hval, rfl, rfl⟩, hnew, rfl⟩
  · rintro ⟨_, ⟨key, c₁, hkey, value, c₂, hval, rfl, rfl⟩, hnew, rfl⟩
    have hsize : (ret.insertIfNew key value).size = ret.size + 1 := by
      rw [Std.ExtTreeMap.size_insertIfNew, if_neg hnew]
    exact ⟨key, c₁, hkey, value, c₂, hval, (), c₂, ⟨hnew, rfl⟩, (), c₂, ⟨hsize, rfl⟩, rfl, rfl⟩

/-- An entry that takes nothing is not read a second time. -/
theorem run_popMapEntry_ne_ok {ret ret' ret'' : Std.ExtTreeMap κ ν} {c c' : Cursor UInt8}
    (h : (Pops.popMapEntry objectKey objectVal ret).run c = .ok ret' c) :
    (Pops.popMapEntry objectKey objectVal ret').run c ≠ .ok ret'' c' := by
  intro hagain
  obtain ⟨pair, hpair, -, rfl⟩ := run_popMapEntry_eq_ok_iff.mp h
  obtain ⟨pair', hpair', hnew, -⟩ := run_popMapEntry_eq_ok_iff.mp hagain
  obtain ⟨rfl, -⟩ := EStateM.Result.ok.inj (hpair.symm.trans hpair')
  exact hnew (Std.ExtTreeMap.mem_insertIfNew_self)

/-- The loop goes one round more for each octet, one that takes nothing, and one that fails, at most. -/
private theorem finalState_popMapLoopCounting_le (i : ℕ) :
    ∀ (ret : Std.ExtTreeMap κ ν) (c : Cursor UInt8) (k : ℕ),
      (finalState (popMapLoopCounting objectKey objectVal i ret) (c, k)).2 ≤
        k + c.ahead.length + 2 := by
  induction i with
  | zero =>
    intro ret c k
    change k ≤ _
    omega
  | succ i ih =>
    intro ret c k
    cases hrun : (Pops.popMapEntry objectKey objectVal ret).run c with
    | error e c' =>
      rw [popMapLoopCounting, finalState_bind_of_error (counting_of_error hrun k)]
      dsimp only
      omega
    | ok ret' c' =>
      rw [popMapLoopCounting, finalState_bind_of_ok (counting_of_ok hrun k)]
      obtain ⟨n, hn, hfinal⟩ := (Pops.popMapEntry objectKey objectVal ret).finalState_run c
      rw [finalState_of_ok hrun] at hfinal
      subst hfinal
      rcases Nat.eq_zero_or_pos n with rfl | hpos
      · -- the next round, if there is one, fails
        cases i with
        | zero =>
          change k + 1 ≤ _
          omega
        | succ j =>
          cases hagain : (Pops.popMapEntry objectKey objectVal ret').run (c.advance 0) with
          | ok ret'' c'' => exact absurd hagain (run_popMapEntry_ne_ok hrun)
          | error e c'' =>
            rw [popMapLoopCounting, finalState_bind_of_error (counting_of_error hagain _)]
            dsimp only
            omega
      · have hrest := ih ret' (c.advance n) (k + 1)
        rw [Cursor.ahead_advance, List.length_drop] at hrest
        omega

/-- When the loop returns, the keys that were read are different from each other, and from those that were
there. -/
theorem run_popMapLoop_eq_ok {i : ℕ} :
    ∀ {ret ret' : Std.ExtTreeMap κ ν} {c c' : Cursor UInt8},
      (Pops.popMapLoop objectKey objectVal i ret).run c = .ok ret' c' →
      ∃ pairs, replicateM (Pops.popPair objectKey objectVal).run i c = .ok pairs c' ∧
        pairs.Pairwise (fun a b => compare a.1 b.1 ≠ .eq) ∧ ∀ pair ∈ pairs, pair.1 ∉ ret := by
  induction i with
  | zero =>
    intro ret ret' c c' h
    obtain ⟨-, rfl⟩ := EStateM.Result.ok.inj h
    exact ⟨[], rfl, .nil, nofun⟩
  | succ i ih =>
    intro ret ret' c c' h
    obtain ⟨ret₁, c₁, hentry, hloop⟩ := bind_eq_ok_iff.mp h
    obtain ⟨pair, hpair, hnew, rfl⟩ := run_popMapEntry_eq_ok_iff.mp hentry
    obtain ⟨pairs, hpairs, hdistinct, hfresh⟩ := ih hloop
    have hboth : ∀ other ∈ pairs, compare pair.1 other.1 ≠ .eq ∧ other.1 ∉ ret := by
      intro other hother
      have hnot := hfresh other hother
      rwa [Std.ExtTreeMap.mem_insertIfNew, not_or] at hnot
    refine ⟨pair :: pairs, ?_, .cons (fun other hother => (hboth other hother).1) hdistinct, ?_⟩
    · rw [replicateM, bind_of_ok hpair, bind_of_ok hpairs]
      rfl
    · intro other hother
      rcases List.mem_cons.mp hother with rfl | hother
      · exact hnew
      · exact (hboth other hother).2

private theorem simulates_popMapLoopCounting (i : ℕ) :
    ∀ ret : Std.ExtTreeMap κ ν, Simulates (fun (s : Cursor UInt8 × ℕ) c => s.1 = c)
      (popMapLoopCounting objectKey objectVal i ret)
      (Pops.popMapLoop objectKey objectVal i ret).run := by
  induction i with
  | zero => exact fun ret => .pure ret
  | succ i ih => exact fun ret => (Simulates.counting _).bind ih

/-- A map is read with the loop over its entries. -/
theorem run_popMapObject_eq :
    @popMapObject κ ν objectKey.deserialize objectVal.deserialize _ _ = (do
      let size ← popIntegerUvarint
      let ret ← (Pops.popMapLoop objectKey objectVal size ∅).run
      checkThat (ret.size = size) .formatErrorReadBadformat
      return ret) := by
  simp only [Pops.run_popMapLoop]
  rfl

private theorem readsAnnounced_popMapObject :
    ReadsAnnounced (popMapObjectCounting objectKey objectVal)
      (@popMapObject κ ν objectKey.deserialize objectVal.deserialize _ _) Std.ExtTreeMap.size where
  simulates := by
    have hcheck : ∀ (size : ℕ) (ret : Std.ExtTreeMap κ ν),
        Simulates (fun (s : Cursor UInt8 × ℕ) c => s.1 = c)
          (checkThat (ret.size = size) Exn.formatErrorReadBadformat)
          (checkThat (ret.size = size) Exn.formatErrorReadBadformat) := fun size ret => by
      unfold checkThat
      split
      · exact .pure ()
      · exact .raise _
    rw [run_popMapObject_eq]
    exact (Simulates.onFst _).bind fun size => (simulates_popMapLoopCounting size ∅).bind fun ret =>
      (hcheck size ret).bind fun _ => .pure ret
  count_le c := by
    cases hsize : popIntegerUvarint c with
    | ok size c₁ =>
      have hless := ahead_lt_of_popIntegerUvarint hsize
      have hcount := @finalState_popMapLoopCounting_le κ ν _ _ objectKey objectVal size ∅ c₁ 0
      have hfst : onFst popIntegerUvarint (c, 0) = .ok size (c₁, 0) :=
        onFst_eq_ok_iff.mpr ⟨hsize, rfl⟩
      have hloop : (finalState (popMapLoopCounting objectKey objectVal size ∅) (c₁, 0)).2 ≤
          c.ahead.length + 1 := by omega
      rw [popMapObjectCounting, finalState_bind_of_ok hfst]
      exact Preserves.finalState_bind (I := fun s : Cursor UInt8 × ℕ => s.2 ≤ c.ahead.length + 1)
        hloop fun ret => .bind (.checkThat _ _) fun _ => .pure ret
    | error e c₁ =>
      have hfst : onFst popIntegerUvarint (c, 0) = .error e (c₁, 0) := by
        simp [onFst, hsize]
      rw [popMapObjectCounting, finalState_bind_of_error hfst]
      exact Nat.zero_le _
  size_eq c ret c' hrun := by
    obtain ⟨size, c₁, hsize, hrest⟩ := bind_eq_ok_iff.mp hrun
    simp only [bind_eq_ok_iff, checkThat_eq_ok_iff, pure_apply, EStateM.Result.ok.injEq] at hrest
    obtain ⟨_, _, -, _, _, ⟨rfl, -⟩, rfl, -⟩ := hrest
    exact ⟨c₁, hsize⟩

/-- A map that is returned has as many entries as announced, with different keys. -/
private theorem exists_pairs_of_popMapObject {ret : Std.ExtTreeMap κ ν} {c c' : Cursor UInt8}
    (h : @popMapObject κ ν objectKey.deserialize objectVal.deserialize _ _ c = .ok ret c') :
    ∃ pairs c₁, popIntegerUvarint c = .ok pairs.length c₁ ∧
      replicateM (Pops.popPair objectKey objectVal).run pairs.length c₁ = .ok pairs c' ∧
      pairs.Pairwise fun a b => compare a.1 b.1 ≠ .eq := by
  simp only [run_popMapObject_eq, bind_eq_ok_iff, checkThat_eq_ok_iff, pure_apply,
    EStateM.Result.ok.injEq] at h
  obtain ⟨size, c₁, hsize, ret', c₂, hloop, _, _, ⟨-, rfl⟩, -, rfl⟩ := h
  obtain ⟨pairs, hpairs, hdistinct, -⟩ := run_popMapLoop_eq_ok hloop
  obtain rfl := length_of_replicateM_eq_ok hpairs
  exact ⟨pairs, c₁, hsize, hpairs, hdistinct⟩

end Maps

/-! ### All collections -/

/-- Whatever number is announced, a collection is read with as many elements or not at all, after one element
more than there are octets at most, and the keys of a map that is returned are different. This needs that an
element of a vector takes at least one octet, which holds of all that the program reads; the entries of a map
may take none. -/
theorem collections_bounded {τ κ ν : Type} [Ord κ] [Std.TransOrd κ] {object : Pops τ}
    (hobject : object.Consumes) (objectKey : Pops κ) (objectVal : Pops ν) :
    ReadsAnnounced popVectorStringCounting popVectorString List.length ∧
    ReadsAnnounced (popVectorObjectCounting object) (@popVectorObject τ object.deserialize)
      List.length ∧
    ReadsAnnounced (popMapObjectCounting objectKey objectVal)
      (@popMapObject κ ν objectKey.deserialize objectVal.deserialize _ _) Std.ExtTreeMap.size ∧
    ∀ c ret c', @popMapObject κ ν objectKey.deserialize objectVal.deserialize _ _ c = .ok ret c' →
      ∃ pairs c₁, popIntegerUvarint c = .ok pairs.length c₁ ∧
        replicateM (Pops.popPair objectKey objectVal).run pairs.length c₁ = .ok pairs c' ∧
        pairs.Pairwise fun a b => compare a.1 b.1 ≠ .eq :=
  ⟨readsAnnounced_popVectorString, readsAnnounced_popVectorObject hobject,
    readsAnnounced_popMapObject, fun _ _ _ => exists_pairs_of_popMapObject⟩

/-- A vector that announces the largest number, with two strings behind it. -/
theorem count_le_of_hostile :
    (finalState (popVectorObjectCounting Pops.popVarstring)
      (.start (List.replicate 9 0xFF ++ [1, 97, 0]), 0)).2 ≤ 13 :=
  (collections_bounded consumes_popVarstring Pops.popVarstring Pops.popVarstring).2.1.count_le
    (.start (List.replicate 9 0xFF ++ [1, 97, 0]))

end TrivialSerialize

end Galaxy42
