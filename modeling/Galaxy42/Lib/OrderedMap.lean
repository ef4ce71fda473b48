import Mathlib.Logic.Basic
import Std.Data.ExtTreeMap

/-!
# Ordered maps

What inserting does to a map that has the key already, or not.

Then a map is rebuilt from its entries: a map that is read entry by entry, in the order of its keys, into an
empty map. `Collected data ret todo` says that `ret` holds the entries of `data` that are no longer in
`todo`. It holds at the start (`start`), each entry taken from `todo` is a new one and keeps it (`step`), and
at the end `ret` is the map one started from (`eq`).

The maps are the extensional tree maps of the standard library, so that two maps with the same entries are
equal, and the map that is read back can be compared with the one that was written by `=`. That the keys
are different from each other is not assumed: it is what `step` uses of the list of the entries of a map.
-/

namespace Toolkit

variable {κ ν : Type} [Ord κ] [Std.TransOrd κ]

section Insert

variable [Std.LawfulEqOrd κ] (m : Std.ExtTreeMap κ ν) (k : κ) (a b : ν)

/-- The last value that is inserted stays. -/
theorem insert_insert_self : (m.insert k a).insert k b = m.insert k b := by
  refine Std.ExtTreeMap.ext_getElem? fun {x} => ?_
  simp only [Std.ExtTreeMap.getElem?_insert]
  split <;> rfl

variable {k}

theorem insertIfNew_of_not_mem (h : k ∉ m) : m.insertIfNew k a = m.insert k a := by
  refine Std.ExtTreeMap.ext_getElem? fun {x} => ?_
  rw [Std.ExtTreeMap.getElem?_insertIfNew, Std.ExtTreeMap.getElem?_insert]
  by_cases hk : compare k x = .eq
  · simp [hk, h]
  · simp [hk]

theorem insertIfNew_of_mem (h : k ∈ m) : m.insertIfNew k a = m := by
  refine Std.ExtTreeMap.ext_getElem? fun {x} => ?_
  rw [Std.ExtTreeMap.getElem?_insertIfNew]
  by_cases hk : compare k x = .eq
  · simp [hk, h]
  · simp [hk]

end Insert

/-- `ret` holds exactly the entries of `data` other than those `todo`, which come last. It is the invariant of
a loop that goes over the entries of `data` and puts them into `ret`. -/
def Collected (data ret : Std.ExtTreeMap κ ν) (todo : List (κ × ν)) : Prop :=
  ∃ done, data.toList = done ++ todo ∧ ∀ k v, ret[k]? = some v ↔ (k, v) ∈ done

namespace Collected

variable {data ret : Std.ExtTreeMap κ ν} {pair : κ × ν} {todo : List (κ × ν)}

/-- Nothing is collected at first. -/
theorem start (data : Std.ExtTreeMap κ ν) : Collected data ∅ data.toList :=
  ⟨[], rfl, by simp⟩

/-- What is still to be collected belongs to the map. -/
theorem mem (h : Collected data ret (pair :: todo)) : pair ∈ data.toList := by
  obtain ⟨done, hdone, -⟩ := h
  simp [hdone]

variable [Std.LawfulEqOrd κ]

/-- At the end everything is collected. -/
theorem eq (h : Collected data ret []) : ret = data := by
  obtain ⟨done, hdone, hret⟩ := h
  rw [List.append_nil] at hdone
  refine Std.ExtTreeMap.ext_getElem? fun {k} => Option.ext fun v => ?_
  rw [hret, ← hdone, Std.ExtTreeMap.mem_toList_iff_getElem?_eq_some]

/-- The next entry has a key that was not collected before. -/
theorem not_mem (h : Collected data ret (pair :: todo)) : pair.1 ∉ ret := by
  obtain ⟨done, hdone, hret⟩ := h
  have hdistinct := data.distinct_keys_toList
  rw [hdone, List.pairwise_append] at hdistinct
  rw [Std.ExtTreeMap.mem_iff_isSome_getElem?, Option.isSome_iff_exists]
  rintro ⟨v, hv⟩
  exact hdistinct.2.2 _ ((hret _ _).mp hv) pair (by simp) Std.ReflCmp.compare_self

/-- Inserting the next entry collects it. -/
theorem step (h : Collected data ret (pair :: todo)) :
    Collected data (ret.insertIfNew pair.1 pair.2) todo := by
  have hnew := h.not_mem
  obtain ⟨done, hdone, hret⟩ := h
  have hno : ∀ v, (pair.1, v) ∉ done := by
    intro v hv
    rw [← hret] at hv
    exact hnew (Std.ExtTreeMap.mem_iff_isSome_getElem?.mpr (by rw [hv]; rfl))
  refine ⟨done ++ [pair], by rw [hdone]; simp, fun k v => ?_⟩
  rw [Std.ExtTreeMap.getElem?_insertIfNew, List.mem_append, List.mem_singleton]
  by_cases hk : k = pair.1
  · subst hk
    rw [if_pos ⟨Std.ReflCmp.compare_self, hnew⟩, or_iff_right (hno v)]
    simp [Prod.ext_iff, eq_comm]
  · have hne : (k, v) ≠ pair := fun he => hk (by rw [← he])
    rw [if_neg fun hc => hk (Std.LawfulEqCmp.eq_of_compare hc.1).symm, hret, or_iff_left hne]

end Collected

/-- The entry of a map with one key. -/
theorem toList_insert_empty [Std.LawfulEqOrd κ] (k : κ) (v : ν) :
    ((∅ : Std.ExtTreeMap κ ν).insert k v).toList = [(k, v)] := by
  have hmem : (k, v) ∈ ((∅ : Std.ExtTreeMap κ ν).insert k v).toList := by
    simp [Std.ExtTreeMap.mem_toList_iff_getElem?_eq_some]
  have hlen : ((∅ : Std.ExtTreeMap κ ν).insert k v).toList.length = 1 := by
    simp [Std.ExtTreeMap.length_toList, Std.ExtTreeMap.size_insert]
  obtain ⟨pair, hpair⟩ := List.length_eq_one_iff.mp hlen
  rw [hpair] at hmem ⊢
  rw [List.mem_singleton.mp hmem]

end Toolkit
