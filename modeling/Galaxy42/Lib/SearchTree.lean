import Mathlib.Data.List.Perm.Basic
import Mathlib.Data.Set.Basic
import Mathlib.Logic.Function.Basic

/-!
# Search trees with a comparison

A map whose keys are compared by a function `lt` that is given to it, as `std::map` does it: its entries
are in a binary tree, and a lookup goes down from the root, comparing at each node. Nothing is asked of
`lt`, so that a map can be looked at also where the comparison is no order. How the tree is balanced
after an insertion is left open, as long as the entries stay in their order (`Rebalancing`).

When `lt` is a strict total order on the keys in use (`StrictTotalOn`), the tree is sorted, a lookup
finds the entry with the key (`find_eq_some_iff`), an insertion adds one (`perm_emplace`), and a change
behind a lookup changes that entry only (`toList_modify`). A tree that is filled by assignments has the
entries of the partial function that they make (`Represents.assign`).

For a comparison that is no order little is left, and it is stated here too, because programs do use such
maps: an insertion adds its entry or changes nothing (`perm_emplace_of_accepts`,
`emplace_of_not_accepts`), and a change is made to the one entry that the lookup goes down to, whatever its
key is (`toList_modify_of_lowerBound`). Which of the keys are found, and where a new one is put, then depends
on how the tree was balanced.

Comparisons that are strict total orders are built from others: by what the keys are made of (`comap`), by a
rank and an order for each rank (`of_rank`), and from any lawful order (`of_compare`).
-/

namespace Toolkit

/-! ### Comparisons -/

section Comparison

variable {κ : Type} (lt : κ → κ → Bool)

/-- Neither is less than the other. A map takes keys for the same when they are so. -/
def Incomparable (a b : κ) : Prop := lt a b = false ∧ lt b a = false

/-- A strict weak order on some keys. It is what a standard container asks of its comparison. That it is about
some keys only lets a comparison be an order on the keys that are in use. -/
structure StrictWeakOn (S : Set κ) : Prop where
  irrefl : ∀ a ∈ S, lt a a = false
  trans : ∀ a ∈ S, ∀ b ∈ S, ∀ c ∈ S, lt a b = true → lt b c = true → lt a c = true
  incomparable_trans : ∀ a ∈ S, ∀ b ∈ S, ∀ c ∈ S, Incomparable lt a b → Incomparable lt b c →
    Incomparable lt a c

/-- A strict weak order on some keys, where only equal ones are incomparable. With such a comparison a map
holds one entry for each key. -/
structure StrictTotalOn (S : Set κ) : Prop extends StrictWeakOn lt S where
  eq_of_incomparable : ∀ a ∈ S, ∀ b ∈ S, Incomparable lt a b → a = b

variable {lt} {S : Set κ}

namespace StrictTotalOn

theorem ne_of_lt (h : StrictTotalOn lt S) {a b : κ} (ha : a ∈ S) (hlt : lt a b = true) : a ≠ b := by
  rintro rfl
  exact Bool.false_ne_true ((h.irrefl a ha).symm.trans hlt)

theorem lt_of_ne (h : StrictTotalOn lt S) {a b : κ} (ha : a ∈ S) (hb : b ∈ S) (hne : a ≠ b)
    (hlt : lt b a = false) : lt a b = true := by
  by_contra hab
  rw [Bool.not_eq_true] at hab
  exact hne (h.eq_of_incomparable a ha b hb ⟨hab, hlt⟩)

/-- Where a comparison is total, it tells apart exactly what differs. -/
theorem incomparable_iff (h : StrictTotalOn lt S) {a b : κ} (ha : a ∈ S) (hb : b ∈ S) :
    Incomparable lt a b ↔ a = b := by
  refine ⟨h.eq_of_incomparable a ha b hb, ?_⟩
  rintro rfl
  exact ⟨h.irrefl a ha, h.irrefl a ha⟩

/-- Keys are ordered as what they are made of. -/
theorem range {α : Type} {f : α → κ} {ltα : α → α → Bool} (h : StrictTotalOn ltα Set.univ)
    (hf : ∀ a b, lt (f a) (f b) = ltα a b) : StrictTotalOn lt (Set.range f) where
  irrefl := by
    rintro _ ⟨a, rfl⟩
    rw [hf]
    exact h.irrefl a trivial
  trans := by
    rintro _ ⟨a, rfl⟩ _ ⟨b, rfl⟩ _ ⟨c, rfl⟩
    rw [hf, hf, hf]
    exact h.trans a trivial b trivial c trivial
  incomparable_trans := by
    rintro _ ⟨a, rfl⟩ _ ⟨b, rfl⟩ _ ⟨c, rfl⟩
    simp only [Incomparable, hf]
    exact h.incomparable_trans a trivial b trivial c trivial
  eq_of_incomparable := by
    rintro _ ⟨a, rfl⟩ _ ⟨b, rfl⟩
    simp only [Incomparable, hf]
    exact fun hab => congrArg f (h.eq_of_incomparable a trivial b trivial hab)

/-- Keys are compared by something that tells them apart. The comparison then is that of these things. -/
theorem comap {α : Type} {f : κ → α} {ltα : α → α → Bool} (h : StrictTotalOn ltα Set.univ)
    (hf : Function.Injective f) : StrictTotalOn (fun a b => ltα (f a) (f b)) Set.univ where
  irrefl a _ := h.irrefl (f a) trivial
  trans a _ b _ c _ := h.trans (f a) trivial (f b) trivial (f c) trivial
  incomparable_trans a _ b _ c _ := h.incomparable_trans (f a) trivial (f b) trivial (f c) trivial
  eq_of_incomparable a _ b _ hab := hf (h.eq_of_incomparable (f a) trivial (f b) trivial hab)

/-- A comparison by a rank, and by an order on the keys of each rank. Between different ranks the rank alone
decides. -/
theorem of_rank {rank : κ → ℕ} (hrank : ∀ a b, rank a ≠ rank b → lt a b = decide (rank a < rank b))
    (hsame : ∀ a, StrictTotalOn lt {b | rank b = rank a}) : StrictTotalOn lt Set.univ := by
  have hle : ∀ {a b}, lt a b = true → rank a ≤ rank b := fun {a b} hlt => by
    by_contra hgt
    rw [hrank a b (by omega), decide_eq_true_eq] at hlt
    omega
  have heq : ∀ {a b}, Incomparable lt a b → rank a = rank b := fun {a b} ⟨hab, hba⟩ => by
    by_contra hne
    rw [hrank a b hne, decide_eq_false_iff_not] at hab
    rw [hrank b a (Ne.symm hne), decide_eq_false_iff_not] at hba
    omega
  exact {
    irrefl := fun a _ => (hsame a).irrefl a rfl
    trans := fun a _ b _ c _ hab hbc => by
      have hleab := hle hab
      have hlebc := hle hbc
      by_cases hac : rank a = rank c
      · exact (hsame a).trans a rfl b (show rank b = rank a by omega) c hac.symm hab hbc
      · rw [hrank a c hac, decide_eq_true_eq]
        omega
    incomparable_trans := fun a _ b _ c _ hab hbc =>
      (hsame a).incomparable_trans a rfl b (heq hab).symm c ((heq hab).trans (heq hbc)).symm hab hbc
    eq_of_incomparable := fun a _ b _ hab =>
      (hsame a).eq_of_incomparable a rfl b (heq hab).symm hab }

/-- What is less in a lawful order. -/
theorem of_compare [Ord κ] [Std.TransOrd κ] [Std.LawfulEqOrd κ] :
    StrictTotalOn (fun a b : κ => (compare a b).isLT) Set.univ := by
  have heq : ∀ {a b : κ}, Incomparable (fun a b => (compare a b).isLT) a b → a = b := by
    rintro a b ⟨hab, hba⟩
    cases hcmp : compare a b with
    | lt => simp [hcmp] at hab
    | eq => exact Std.LawfulEqOrd.eq_of_compare hcmp
    | gt => simp [Std.OrientedCmp.lt_of_gt hcmp] at hba
  exact {
    irrefl := fun a _ => by simp [Std.compare_self]
    trans := fun a _ b _ c _ hab hbc => by
      rw [Ordering.isLT_iff_eq_lt] at hab hbc ⊢
      exact Std.TransCmp.lt_trans hab hbc
    incomparable_trans := fun a _ b _ c _ hab hbc => by rwa [heq hab]
    eq_of_incomparable := fun a _ b _ hab => heq hab }

end StrictTotalOn

end Comparison

/-! ### Trees -/

/-- A binary tree with entries. Nothing is said about how its entries are ordered, nor about its balance. -/
inductive SearchTree (κ ν : Type) where
  | leaf
  | node (left : SearchTree κ ν) (key : κ) (value : ν) (right : SearchTree κ ν)

namespace SearchTree

variable {κ ν : Type}

/-- The entries, from the left to the right. -/
def toList : SearchTree κ ν → List (κ × ν)
  | leaf => []
  | node left key value right => left.toList ++ (key, value) :: right.toList

/-- The keys, from the left to the right. -/
def keys (t : SearchTree κ ν) : List κ := t.toList.map Prod.fst

section

variable (lt : κ → κ → Bool) (k : κ)

/-- The leftmost entry on the way down that is not less. At each node the way goes by one comparison, so with
a comparison that is no order an entry may be missed. -/
def lowerBound : SearchTree κ ν → Option (κ × ν)
  | leaf => none
  | node left key value right =>
    if lt key k then right.lowerBound else left.lowerBound.or (some (key, value))

/-- Look up a key. The entry where the way down ends must not be greater than the key. -/
def find (t : SearchTree κ ν) : Option (κ × ν) :=
  (t.lowerBound lt k).filter fun e => !lt k e.1

/-- Change the value of the entry that is not less. The way down is that of a lookup, whether the entry has
the key or not. -/
def modify (f : ν → ν) : SearchTree κ ν → SearchTree κ ν
  | leaf => leaf
  | node left key value right =>
    if lt key k then node left key value (right.modify f)
    else if (left.lowerBound lt k).isSome then node (left.modify f) key value right
    else node left key (f value) right

/-- Put an entry where the way down ends. -/
def place (v : ν) : SearchTree κ ν → SearchTree κ ν
  | leaf => node leaf k v leaf
  | node left key value right =>
    if lt k key then node (left.place v) key value right else node left key value (right.place v)

/-- The key in front of the place where the way down ends. It is the key that an insertion compares with, to
tell whether the new key is there already. -/
def before : SearchTree κ ν → Option κ
  | leaf => none
  | node left key _ right => if lt k key then left.before else right.before.or (some key)

end

/-- What is done to a tree after an insertion: it may change, but its entries stay in their order. Results
that hold for each of them do not depend on how an implementation balances its trees. -/
structure Rebalancing (κ ν : Type) where
  run : SearchTree κ ν → SearchTree κ ν
  toList_run : ∀ t, (run t).toList = t.toList

/-- Nothing is done, as with a tree that is balanced. -/
def Rebalancing.none : Rebalancing κ ν := ⟨id, fun _ => rfl⟩

/-- Insert an entry, unless the key in front of its place is not less. It is what a map does: the key is not
inserted twice, as far as its comparison tells. -/
def emplace (lt : κ → κ → Bool) (rebalancing : Rebalancing κ ν) (k : κ) (v : ν)
    (t : SearchTree κ ν) : SearchTree κ ν :=
  if (t.before lt k).all fun key => lt key k then rebalancing.run (t.place lt k v) else t

/-! ### Sorted trees -/

@[simp] theorem toList_node (left right : SearchTree κ ν) (key : κ) (value : ν) :
    (node left key value right).toList = left.toList ++ (key, value) :: right.toList := rfl

/-- The keys in front are less. -/
def Sorted (lt : κ → κ → Bool) (t : SearchTree κ ν) : Prop :=
  t.toList.Pairwise fun a b => lt a.1 b.1 = true

/-- The keys are among some. -/
def KeysIn (S : Set κ) (t : SearchTree κ ν) : Prop := ∀ e ∈ t.toList, e.1 ∈ S

variable {lt : κ → κ → Bool} {S : Set κ} {k : κ} {v : ν} {t left right : SearchTree κ ν} {key : κ}
  {value : ν}

theorem sorted_iff_keys : Sorted lt t ↔ t.keys.Pairwise fun a b => lt a b = true := by
  rw [keys, List.pairwise_map]
  rfl

theorem keysIn_iff_keys : KeysIn S t ↔ ∀ key ∈ t.keys, key ∈ S := by
  rw [keys, List.forall_mem_map]
  rfl

theorem sorted_node_iff :
    Sorted lt (node left key value right) ↔ Sorted lt left ∧ Sorted lt right ∧
      (∀ e ∈ left.toList, lt e.1 key = true) ∧ (∀ e ∈ right.toList, lt key e.1 = true) ∧
      ∀ e ∈ left.toList, ∀ e' ∈ right.toList, lt e.1 e'.1 = true := by
  simp only [Sorted, toList_node, List.pairwise_append, List.pairwise_cons, List.mem_cons,
    forall_eq_or_imp]
  constructor
  · rintro ⟨hleft, ⟨hkey, hright⟩, hbetween⟩
    exact ⟨hleft, hright, fun e he => (hbetween e he).1, hkey, fun e he => (hbetween e he).2⟩
  · rintro ⟨hleft, hright, hless, hkey, hbetween⟩
    exact ⟨hleft, ⟨hkey, hright⟩, fun e he => ⟨hless e he, hbetween e he⟩⟩

theorem keysIn_node_iff :
    KeysIn S (node left key value right) ↔ KeysIn S left ∧ key ∈ S ∧ KeysIn S right := by
  simp [KeysIn, or_imp, forall_and]

/-- What is found on the way down is the first entry that is not less. -/
theorem lowerBound_eq_find? (h : StrictTotalOn lt S) (hk : k ∈ S) (hin : KeysIn S t)
    (hsorted : Sorted lt t) : t.lowerBound lt k = t.toList.find? fun e => !lt e.1 k := by
  induction t with
  | leaf => rfl
  | node left key value right ihl ihr =>
    obtain ⟨hleft, hright, hless, -, -⟩ := sorted_node_iff.mp hsorted
    obtain ⟨hinl, hkey, hinr⟩ := keysIn_node_iff.mp hin
    rw [lowerBound, toList_node, List.find?_append, List.find?_cons, ihl hinl hleft, ihr hinr hright]
    by_cases hlt : lt key k = true
    · -- everything on the left is less, too
      have hnone : left.toList.find? (fun e => !lt e.1 k) = none := by
        rw [List.find?_eq_none]
        intro e he
        simp [h.trans e.1 (hinl e he) key hkey k hk (hless e he) hlt]
      simp [hlt, hnone]
    · simp [hlt]

/-- A lookup finds the entry with the key. So a tree in order, under a comparison that is total on its keys,
is searched as a list is. -/
theorem find_eq_some_iff (h : StrictTotalOn lt S) (hk : k ∈ S) (hin : KeysIn S t)
    (hsorted : Sorted lt t) {e : κ × ν} : t.find lt k = some e ↔ e ∈ t.toList ∧ e.1 = k := by
  rw [find, lowerBound_eq_find? h hk hin hsorted, Option.filter_eq_some_iff]
  constructor
  · rintro ⟨hfind, hnot⟩
    have hmem := List.mem_of_find?_eq_some hfind
    have hnot' := List.find?_some hfind
    simp only [Bool.not_eq_true'] at hnot hnot'
    exact ⟨hmem, h.eq_of_incomparable e.1 (hin e hmem) k hk ⟨hnot', hnot⟩⟩
  · rintro ⟨hmem, rfl⟩
    refine ⟨List.find?_eq_some_iff_append.mpr ⟨by simp [h.irrefl e.1 hk], ?_⟩,
      by simp [h.irrefl e.1 hk]⟩
    obtain ⟨front, rest, heq⟩ := List.append_of_mem hmem
    refine ⟨front, rest, heq, fun a ha => ?_⟩
    have hlt := hsorted
    rw [Sorted, heq, List.pairwise_append] at hlt
    simp [hlt.2.2 a ha e List.mem_cons_self]

theorem find_eq_none_iff (h : StrictTotalOn lt S) (hk : k ∈ S) (hin : KeysIn S t)
    (hsorted : Sorted lt t) : t.find lt k = none ↔ k ∉ t.keys := by
  rw [Option.eq_none_iff_forall_ne_some]
  simp only [ne_eq, find_eq_some_iff h hk hin hsorted, keys, List.mem_map]
  push Not
  rfl

/-- The keys of a sorted tree are different. -/
theorem Sorted.nodup_keys (h : StrictTotalOn lt S) (hin : KeysIn S t) (hsorted : Sorted lt t) :
    t.keys.Nodup := by
  rw [keys, List.Nodup, List.pairwise_map]
  exact hsorted.imp_of_mem fun {a b} ha _ hlt => h.ne_of_lt (hin a ha) hlt

/-! ### Insertions -/

theorem perm_place : (t.place lt k v).toList.Perm ((k, v) :: t.toList) := by
  induction t with
  | leaf => exact .refl _
  | node left key value right ihl ihr =>
    rw [place]
    split
    · exact ihl.append_right _
    · exact ((ihr.cons _).trans (.swap _ _ _)).append_left _ |>.trans List.perm_middle

theorem mem_place {e : κ × ν} : e ∈ (t.place lt k v).toList ↔ e = (k, v) ∨ e ∈ t.toList := by
  rw [perm_place.mem_iff, List.mem_cons]

/-- An entry with a new key is put between the less ones and the others. -/
theorem Sorted.place (h : StrictTotalOn lt S) (hk : k ∈ S) (hin : KeysIn S t) (hsorted : Sorted lt t)
    (hnew : k ∉ t.keys) : Sorted lt (t.place lt k v) := by
  induction t with
  | leaf => exact List.pairwise_singleton _ _
  | node left key value right ihl ihr =>
    obtain ⟨hleft, hright, hless, hmore, hbetween⟩ := sorted_node_iff.mp hsorted
    obtain ⟨hinl, hkey, hinr⟩ := keysIn_node_iff.mp hin
    simp only [keys, toList_node, List.map_append, List.map_cons, List.mem_append, List.mem_cons,
      not_or] at hnew
    obtain ⟨hnewl, hne, hnewr⟩ := hnew
    rw [SearchTree.place]
    split
    next hlt =>
      refine sorted_node_iff.mpr ⟨ihl hinl hleft hnewl, hright, fun e he => ?_, hmore,
        fun e he e' he' => ?_⟩
      · rcases mem_place.mp he with rfl | he
        · exact hlt
        · exact hless e he
      · rcases mem_place.mp he with rfl | he
        · exact h.trans k hk key hkey e'.1 (hinr e' he') hlt (hmore e' he')
        · exact hbetween e he e' he'
    next hnot =>
      have hlt : lt key k = true := h.lt_of_ne hkey hk (Ne.symm hne) (Bool.not_eq_true _ ▸ hnot)
      refine sorted_node_iff.mpr ⟨hleft, ihr hinr hright hnewr, hless, fun e he => ?_,
        fun e he e' he' => ?_⟩
      · rcases mem_place.mp he with rfl | he
        · exact hlt
        · exact hmore e he
      · rcases mem_place.mp he' with rfl | he'
        · exact h.trans e.1 (hinl e he) key hkey k hk (hless e he) hlt
        · exact hbetween e he e' he'

theorem mem_keys_of_before (h : t.before lt k = some key) : key ∈ t.keys ∧ lt k key = false := by
  induction t with
  | leaf => cases h
  | node left key' value right ihl ihr =>
    simp only [keys, toList_node, List.map_append, List.map_cons, List.mem_append, List.mem_cons]
    rw [before] at h
    split at h
    · exact ⟨.inl (ihl h).1, (ihl h).2⟩
    next hnot =>
      rcases Option.or_eq_some_iff.mp h with h | ⟨-, h⟩
      · exact ⟨.inr (.inr (ihr h).1), (ihr h).2⟩
      · obtain rfl := Option.some.inj h
        exact ⟨.inr (.inl rfl), Bool.not_eq_true _ ▸ hnot⟩

/-- The tree accepts a key: the one in front of its place, if there is one, is less. It is a condition on the
shape of the tree too, when the comparison is no order. -/
def Accepts (lt : κ → κ → Bool) (t : SearchTree κ ν) (k : κ) : Prop :=
  (t.before lt k).all (fun key => lt key k) = true

instance (lt : κ → κ → Bool) (t : SearchTree κ ν) (k : κ) : Decidable (t.Accepts lt k) :=
  inferInstanceAs (Decidable (_ = true))

/-- Whatever the comparison is, an insertion that is accepted adds the entry. Nothing is lost, and where the
entry comes depends on the comparison. -/
theorem perm_emplace_of_accepts (h : t.Accepts lt k) (rebalancing : Rebalancing κ ν) :
    (t.emplace lt rebalancing k v).toList.Perm ((k, v) :: t.toList) := by
  have hplaced : t.emplace lt rebalancing k v = rebalancing.run (t.place lt k v) := if_pos h
  rw [hplaced, rebalancing.toList_run]
  exact perm_place

theorem emplace_of_not_accepts (h : ¬ t.Accepts lt k) (rebalancing : Rebalancing κ ν) :
    t.emplace lt rebalancing k v = t :=
  if_neg h

/-- Where the comparison is an order, a new key is accepted. -/
theorem accepts_of_not_mem (h : StrictTotalOn lt S) (hk : k ∈ S) (hin : KeysIn S t)
    (hnew : k ∉ t.keys) : t.Accepts lt k := by
  rw [Accepts, Option.all_eq_true_iff_get]
  intro hsome
  obtain ⟨hmem, hnot⟩ := mem_keys_of_before (Option.some_get hsome).symm
  obtain ⟨e, he, hfst⟩ := List.mem_map.mp hmem
  exact h.lt_of_ne (hfst ▸ hin e he) hk (fun heq => hnew (heq ▸ hmem)) hnot

section Emplace

variable (h : StrictTotalOn lt S) (hk : k ∈ S) (hin : KeysIn S t) (hnew : k ∉ t.keys)
  (rebalancing : Rebalancing κ ν)
include h hk hin hnew

/-- An entry with a new key is inserted. -/
theorem emplace_of_not_mem :
    t.emplace lt rebalancing k v = rebalancing.run (t.place lt k v) :=
  if_pos (accepts_of_not_mem h hk hin hnew)

theorem perm_emplace : (t.emplace lt rebalancing k v).toList.Perm ((k, v) :: t.toList) :=
  perm_emplace_of_accepts (accepts_of_not_mem h hk hin hnew) rebalancing

theorem Sorted.emplace (hsorted : Sorted lt t) : Sorted lt (t.emplace lt rebalancing k v) := by
  rw [emplace_of_not_mem h hk hin hnew, Sorted, rebalancing.toList_run]
  exact hsorted.place h hk hin hnew

end Emplace

/-! ### Changes -/

/-- A lookup that is not for a key in the tree finds nothing that is not less exactly when all keys are
less. -/
theorem lowerBound_eq_none_iff (h : StrictTotalOn lt S) (hk : k ∈ S) (hin : KeysIn S t)
    (hsorted : Sorted lt t) : t.lowerBound lt k = none ↔ ∀ e ∈ t.toList, lt e.1 k = true := by
  rw [lowerBound_eq_find? h hk hin hsorted, List.find?_eq_none]
  simp

@[simp] theorem keys_modify (f : ν → ν) : (t.modify lt k f).keys = t.keys := by
  induction t with
  | leaf => rfl
  | node left key value right ihl ihr =>
    simp only [keys, toList_node, List.map_append, List.map_cons] at ihl ihr ⊢
    rw [modify]
    split_ifs <;> simp [ihl, ihr]

/-- A lookup goes down to the entry that it finds. -/
theorem lowerBound_of_find {e : κ × ν} (h : t.find lt k = some e) : t.lowerBound lt k = some e :=
  (Option.filter_eq_some_iff.mp h).1

/-- Whatever the comparison is, a change is made to the one entry that a lookup goes down to. All other
entries stay as they are and where they are. -/
theorem toList_modify_of_lowerBound {e : κ × ν} (h : t.lowerBound lt k = some e) (f : ν → ν) :
    ∃ front rest, t.toList = front ++ e :: rest ∧
      (t.modify lt k f).toList = front ++ (e.1, f e.2) :: rest := by
  induction t with
  | leaf => cases h
  | node left key value right ihl ihr =>
    rw [lowerBound] at h
    rw [modify]
    split_ifs at h ⊢ with hlt hleft
    · obtain ⟨front, rest, hright, hmodify⟩ := ihr h
      exact ⟨left.toList ++ (key, value) :: front, rest, by simp [hright], by simp [hmodify]⟩
    · obtain ⟨e', he'⟩ := Option.isSome_iff_exists.mp hleft
      rw [he', Option.some_or] at h
      obtain ⟨front, rest, hleft', hmodify⟩ := ihl (he'.trans h)
      exact ⟨front, rest ++ (key, value) :: right.toList, by simp [hleft'], by simp [hmodify]⟩
    · rw [Option.not_isSome_iff_eq_none.mp hleft, Option.none_or] at h
      obtain rfl := Option.some.inj h
      exact ⟨left.toList, right.toList, rfl, rfl⟩

theorem KeysIn.modify (hin : KeysIn S t) (f : ν → ν) : KeysIn S (t.modify lt k f) := by
  rw [keysIn_iff_keys, keys_modify]
  exact keysIn_iff_keys.mp hin

theorem Sorted.modify (hsorted : Sorted lt t) (f : ν → ν) : Sorted lt (t.modify lt k f) := by
  rw [sorted_iff_keys, keys_modify]
  exact sorted_iff_keys.mp hsorted

section

variable [DecidableEq κ]

theorem map_ite_of_ne {f : ν → ν} {l : List (κ × ν)} (h : ∀ e ∈ l, e.1 ≠ k) :
    l.map (fun e => if e.1 = k then (e.1, f e.2) else e) = l := by
  conv_rhs => rw [← List.map_id l]
  exact List.map_congr_left fun e he => if_neg (h e he)

/-- A change is made to the entry with the key, if there is one. -/
theorem toList_modify (h : StrictTotalOn lt S) (hk : k ∈ S) (hin : KeysIn S t) (hsorted : Sorted lt t)
    (hmem : k ∈ t.keys) (f : ν → ν) :
    (t.modify lt k f).toList = t.toList.map fun e => if e.1 = k then (e.1, f e.2) else e := by
  induction t with
  | leaf => exact absurd hmem List.not_mem_nil
  | node left key value right ihl ihr =>
    obtain ⟨hleft, hright, hless, hmore, -⟩ := sorted_node_iff.mp hsorted
    obtain ⟨hinl, hkey, hinr⟩ := keysIn_node_iff.mp hin
    simp only [keys, toList_node, List.map_append, List.map_cons, List.mem_append, List.mem_cons]
      at hmem
    rw [modify, toList_node, List.map_append, List.map_cons]
    by_cases hlt : lt key k = true
    · -- what is on the left is less than what is looked for
      have hltl : ∀ e ∈ left.toList, lt e.1 k = true := fun e he =>
        h.trans e.1 (hinl e he) key hkey k hk (hless e he) hlt
      have hnel : ∀ e ∈ left.toList, e.1 ≠ k := fun e he => h.ne_of_lt (hinl e he) (hltl e he)
      have hne := h.ne_of_lt hkey hlt
      have hmemr : k ∈ right.keys := by
        rcases hmem with hmem | rfl | hmem
        · obtain ⟨e, he, rfl⟩ := List.mem_map.mp hmem
          exact absurd rfl (hnel e he)
        · exact absurd rfl hne
        · exact hmem
      rw [if_pos hlt, toList_node, ihr hinr hright hmemr, map_ite_of_ne hnel, if_neg hne]
    · have hner : ∀ e ∈ right.toList, e.1 ≠ k := by
        rintro e he rfl
        exact hlt (hmore e he)
      rw [if_neg hlt]
      by_cases hmeml : k ∈ left.keys
      · obtain ⟨e, he, rfl⟩ := List.mem_map.mp hmeml
        have hsome : (left.lowerBound lt e.1).isSome = true := by
          rw [Option.isSome_iff_ne_none, ne_eq, lowerBound_eq_none_iff h hk hinl hleft]
          intro hall
          exact h.ne_of_lt (hinl e he) (hall e he) rfl
        have hne : key ≠ e.1 := (h.ne_of_lt (hinl e he) (hless e he)).symm
        rw [if_pos hsome, toList_node, ihl hinl hleft hmeml, map_ite_of_ne hner, if_neg hne]
      · obtain rfl : k = key := by
          rcases hmem with hmem | heq | hmem
          · exact absurd hmem hmeml
          · exact heq
          · obtain ⟨e, he, rfl⟩ := List.mem_map.mp hmem
            exact absurd rfl (hner e he)
        have hnone : left.lowerBound lt k = none :=
          (lowerBound_eq_none_iff h hk hinl hleft).mpr hless
        rw [hnone, if_neg (by simp), toList_node, map_ite_of_ne hner,
          map_ite_of_ne fun e he => h.ne_of_lt (hinl e he) (hless e he), if_pos rfl]

end

/-! ### Assignments -/

/-- Set the value behind a key, which is inserted when it is not found. -/
def assign (lt : κ → κ → Bool) (rebalancing : Rebalancing κ ν) (k : κ) (v : ν) (t : SearchTree κ ν) :
    SearchTree κ ν :=
  match t.find lt k with
  | none => t.emplace lt rebalancing k v
  | some _ => t.modify lt k fun _ => v

/-- The tree is in order, and has the entries of a partial function. Such trees can be reasoned about as
functions from keys to values. -/
structure Represents (lt : κ → κ → Bool) (S : Set κ) (t : SearchTree κ ν) (f : κ → Option ν) : Prop where
  keysIn : t.KeysIn S
  sorted : t.Sorted lt
  mem_iff : ∀ e, e ∈ t.toList ↔ f e.1 = some e.2

namespace Represents

variable {f : κ → Option ν}

theorem leaf (lt : κ → κ → Bool) (S : Set κ) :
    Represents lt S (leaf : SearchTree κ ν) fun _ => none where
  keysIn _ he := absurd he List.not_mem_nil
  sorted := List.Pairwise.nil
  mem_iff _ := by simp [toList]

theorem mem_keys_iff (hf : Represents lt S t f) : k ∈ t.keys ↔ (f k).isSome := by
  rw [keys, List.mem_map, Option.isSome_iff_exists]
  constructor
  · rintro ⟨e, he, rfl⟩
    exact ⟨e.2, (hf.mem_iff e).mp he⟩
  · rintro ⟨v, hv⟩
    exact ⟨(k, v), (hf.mem_iff (k, v)).mpr hv, rfl⟩

theorem find_eq (h : StrictTotalOn lt S) (hk : k ∈ S) (hf : Represents lt S t f) :
    t.find lt k = (f k).map fun v => (k, v) := by
  cases hfk : f k with
  | none =>
    rw [Option.map_none, find_eq_none_iff h hk hf.keysIn hf.sorted, hf.mem_keys_iff, hfk]
    simp
  | some v =>
    rw [Option.map_some, find_eq_some_iff h hk hf.keysIn hf.sorted, hf.mem_iff]
    exact ⟨hfk, rfl⟩

/-- An assignment changes the function at one key. -/
theorem assign [DecidableEq κ] (h : StrictTotalOn lt S) (hk : k ∈ S) (hf : Represents lt S t f)
    (rebalancing : Rebalancing κ ν) :
    Represents lt S (t.assign lt rebalancing k v) (Function.update f k (some v)) := by
  have hfind := hf.find_eq h hk
  cases hfk : f k with
  | none =>
    have hnew : k ∉ t.keys := by simp [hf.mem_keys_iff, hfk]
    have hassign : t.assign lt rebalancing k v = t.emplace lt rebalancing k v := by
      rw [SearchTree.assign, hfind, hfk]
      rfl
    have hperm := @perm_emplace _ _ _ _ _ v _ h hk hf.keysIn hnew rebalancing
    rw [hassign]
    refine ⟨fun e he => ?_, hf.sorted.emplace h hk hf.keysIn hnew rebalancing, fun e => ?_⟩
    · rcases List.mem_cons.mp (hperm.mem_iff.mp he) with rfl | he
      · exact hk
      · exact hf.keysIn e he
    · rw [hperm.mem_iff, List.mem_cons, hf.mem_iff, Function.update_apply, Prod.ext_iff]
      by_cases hek : e.1 = k
      · simp [hek, hfk, eq_comm]
      · simp [hek]
  | some w =>
    have hmem : k ∈ t.keys := by simp [hf.mem_keys_iff, hfk]
    have hassign : t.assign lt rebalancing k v = t.modify lt k fun _ => v := by
      rw [SearchTree.assign, hfind, hfk]
      rfl
    rw [hassign]
    refine ⟨hf.keysIn.modify _, hf.sorted.modify _, fun e => ?_⟩
    rw [toList_modify h hk hf.keysIn hf.sorted hmem, List.mem_map, Function.update_apply]
    constructor
    · rintro ⟨old, hold, rfl⟩
      by_cases hek : old.1 = k
      · simp [hek]
      · simpa [hek] using (hf.mem_iff old).mp hold
    · intro he
      by_cases hek : e.1 = k
      · rw [if_pos hek, Option.some.injEq] at he
        exact ⟨(k, w), (hf.mem_iff (k, w)).mpr hfk, by simp [he, ← hek]⟩
      · rw [if_neg hek] at he
        exact ⟨e, (hf.mem_iff e).mpr he, if_neg hek⟩

end Represents

end SearchTree

end Toolkit
