import Mathlib.Data.Finset.Max
import Galaxy42.Tunserver.Routing

/-!
# The requests of a search

The requests of a search are a `std::map` whose keys are reasons, compared by `operator<` of
`c_route_reason`. A reason is less when its address is, or when its mode is; so of two reasons each can be
less than the other. The map asks for a strict weak order, and does not promise anything without one. Here
it is the binary tree that a `std::map` is, and what it holds is looked at for every way of keeping the tree
balanced.

The operator is such an order on some reasons exactly when a greater address never goes with a smaller mode
(`strictTotalOn_lt`, `agree_of_strictWeakOn`). Then the map holds one entry for each reason that was given,
and finds it (`usableAsKeys_iff`). Of two reasons that are each less than the other, the second is not found
(`find_requestMap_pair`); a further request with it may be refused.

A search also has the TTL that it is to use, which is declared to be the highest one in the map. It begins
with 5, and takes the TTL of each request whether or not the map keeps the request. So it is what it is
declared to be exactly when a request that the map keeps has a TTL of 5 or more that no other request
exceeds (`usesHighestTtl_iff`). Where the operator is an order, all requests are kept.
-/

namespace Galaxy42

open Toolkit SearchTree

theorem SearchMode.value_inj {a b : SearchMode} (h : a.value = b.value) : a = b := by
  cases a <;> cases b <;> first | rfl | exact absurd h (by decide)

namespace RouteReason

variable {a b : RouteReason} {S : Set RouteReason}

theorem lt_iff : a.lt b = true ↔
    compare a.hisAddr b.hisAddr = .lt ∨ a.searchMode.value < b.searchMode.value := by
  unfold lt
  split_ifs <;> simp_all

private theorem equal_iff : a.equal b = true ↔ a = b := by
  cases a
  cases b
  simp [equal]

/-- Reasons that are not less than each other are equal. -/
theorem eq_of_incomparable (h : Incomparable lt a b) : a = b := by
  obtain ⟨hab, hba⟩ := h
  rw [← Bool.not_eq_true, lt_iff, not_or, not_lt] at hab hba
  have haddr : a.hisAddr = b.hisAddr := by
    refine @Std.LawfulEqCmp.eq_of_compare _ compare _ _ _ ?_
    cases hcmp : compare a.hisAddr b.hisAddr with
    | eq => rfl
    | lt => exact absurd hcmp hab.1
    | gt => exact absurd (Std.OrientedCmp.lt_of_gt hcmp) hba.1
  have hmode := SearchMode.value_inj (le_antisymm hba.2 hab.2)
  cases a
  cases b
  exact congrArg₂ RouteReason.mk haddr hmode

/-- A greater address does not go with a smaller mode. The mode that is compared is the number of the constant
in the enumeration. -/
def Agree (S : Set RouteReason) : Prop :=
  ∀ a ∈ S, ∀ b ∈ S, compare a.hisAddr b.hisAddr = .lt → a.searchMode.value ≤ b.searchMode.value

theorem strictTotalOn_lt (h : Agree S) : StrictTotalOn lt S where
  irrefl a _ := by
    rw [← Bool.not_eq_true, lt_iff]
    simp
  trans a ha b hb c hc hab hbc := by
    rw [lt_iff] at hab hbc ⊢
    rcases hab with hab | hab
    · rcases hbc with hbc | hbc
      · exact .inl (Std.TransCmp.lt_trans hab hbc)
      · exact .inr ((h a ha b hb hab).trans_lt hbc)
    · rcases hbc with hbc | hbc
      · exact .inr (hab.trans_le (h b hb c hc hbc))
      · exact .inr (hab.trans hbc)
  incomparable_trans a ha b hb c hc hab hbc := by
    obtain rfl := eq_of_incomparable hab
    exact hbc
  eq_of_incomparable a _ b _ := eq_of_incomparable

/-- The operator is an order on some reasons exactly when their addresses and modes agree. -/
theorem agree_of_strictWeakOn (h : StrictWeakOn lt S) : Agree S := by
  intro a ha b hb haddr
  by_contra hmode
  have hab : a.lt b = true := lt_iff.mpr (.inl haddr)
  have hba : b.lt a = true := lt_iff.mpr (.inr (not_le.mp hmode))
  exact Bool.false_ne_true ((h.irrefl a ha).symm.trans (h.trans a ha b hb a ha hab hba))

end RouteReason

namespace RouteSearch

open RouteReason

variable (rebalancing : Rebalancing RouteReason ℤ)

/-! ### Reasons as keys -/

/-- `add_request`, for one request after the other. -/
def addRequests (search : RouteSearch) (calls : List (RouteReason × ℤ)) : RouteSearch :=
  calls.foldl (fun search call => search.addRequest call.1 call.2) search

/-- The map with some requests more, one after the other. -/
def addReasons (request : SearchTree RouteReason ℤ) (calls : List (RouteReason × ℤ)) :
    SearchTree RouteReason ℤ :=
  calls.foldl (fun request call => addReason rebalancing request call.1 call.2) request

/-- The map of a new search after `add_request`, for one request after the other. -/
def requestMap (calls : List (RouteReason × ℤ)) : SearchTree RouteReason ℤ :=
  addReasons rebalancing .leaf calls

/-- The reasons of some requests. -/
def reasons (calls : List (RouteReason × ℤ)) : Set RouteReason := {r | ∃ ttl, (r, ttl) ∈ calls}

/-- What a map needs of the operators for these requests, and what it gives then. The operators are a strict
weak order and an equality that go together; the map has each reason once, has no others, and finds them. -/
structure UsableAsKeys (calls : List (RouteReason × ℤ)) : Prop where
  order : StrictWeakOn lt (reasons calls)
  equivalence : ∀ a ∈ reasons calls, ∀ b ∈ reasons calls, Incomparable lt a b ↔ a.equal b = true
  one : ∀ r ∈ reasons calls, (requestMap rebalancing calls).keys.count r = 1
  only : ∀ r ∈ (requestMap rebalancing calls).keys, r ∈ reasons calls
  finds : ∀ r ∈ reasons calls, ∃ ttl, (requestMap rebalancing calls).find lt r = some (r, ttl)

variable {rebalancing} {S : Set RouteReason} {request : SearchTree RouteReason ℤ}
  {reason : RouteReason} {ttl : ℤ} {calls : List (RouteReason × ℤ)}

/-- The requests of a search are put into its map. -/
private theorem request_addRequests (search : RouteSearch) (calls : List (RouteReason × ℤ)) :
    (search.addRequests calls).request rebalancing =
      addReasons rebalancing (search.request rebalancing) calls := by
  induction calls generalizing search with
  | nil => rfl
  | cons call calls ih => exact ih (search.addRequest call.1 call.2)

/-- The map is in order, and its keys are these. -/
structure InOrder (S : Set RouteReason) (request : SearchTree RouteReason ℤ)
    (keys : Set RouteReason) : Prop where
  keysIn : request.KeysIn S
  sorted : request.Sorted lt
  mem_keys_iff : ∀ r, r ∈ request.keys ↔ r ∈ keys

private theorem inOrder_leaf : InOrder S .leaf ∅ where
  keysIn _ he := absurd he List.not_mem_nil
  sorted := List.Pairwise.nil
  mem_keys_iff _ := iff_of_false List.not_mem_nil (Set.notMem_empty _)

variable {keys : Set RouteReason}

/-- A request leaves the map in order, and its reason is a key then. -/
theorem InOrder.addReason (h : StrictTotalOn lt S) (horder : InOrder S request keys)
    (hreason : reason ∈ S) :
    InOrder S (addReason rebalancing request reason ttl) (insert reason keys) := by
  obtain ⟨hin, hsorted, hkeys⟩ := horder
  by_cases hmem : reason ∈ request.keys
  · obtain ⟨known, hknown⟩ : ∃ known, request.find lt reason = some known := by
      rw [← Option.ne_none_iff_exists', ne_eq, find_eq_none_iff h hreason hin hsorted]
      exact not_not.mpr hmem
    have hmap : RouteSearch.addReason rebalancing request reason ttl =
        request.modify lt reason fun t => max t ttl := by
      rw [RouteSearch.addReason, hknown]
    rw [hmap, Set.insert_eq_of_mem ((hkeys reason).mp hmem)]
    exact ⟨hin.modify _, hsorted.modify _, fun r => by rw [keys_modify, hkeys]⟩
  · have hmap : RouteSearch.addReason rebalancing request reason ttl =
        request.emplace lt rebalancing reason ttl := by
      rw [RouteSearch.addReason, (find_eq_none_iff h hreason hin hsorted).mpr hmem]
    have hentries : (request.emplace lt rebalancing reason ttl).toList.Perm
        ((reason, ttl) :: request.toList) := perm_emplace h hreason hin hmem rebalancing
    rw [hmap]
    refine ⟨fun r hr => ?_, Sorted.emplace h hreason hin hmem rebalancing hsorted, fun r => ?_⟩
    · rcases List.mem_cons.mp (hentries.mem_iff.mp hr) with rfl | hr
      · exact hreason
      · exact hin r hr
    · rw [SearchTree.keys, (hentries.map Prod.fst).mem_iff, List.map_cons, List.mem_cons,
        Set.mem_insert_iff, ← hkeys r]
      rfl

/-- The map is in order after any requests whose reasons are. -/
private theorem InOrder.addReasons (h : StrictTotalOn lt S) (horder : InOrder S request keys)
    (hcalls : ∀ call ∈ calls, call.1 ∈ S) :
    InOrder S (addReasons rebalancing request calls) (keys ∪ reasons calls) := by
  induction calls generalizing request keys with
  | nil =>
    have hnone : reasons [] = ∅ := Set.eq_empty_of_forall_notMem fun _ ⟨_, hr⟩ => nomatch hr
    rw [hnone, Set.union_empty]
    exact horder
  | cons call calls ih =>
    obtain ⟨hcall, hcalls⟩ := List.forall_mem_cons.mp hcalls
    have hreasons : insert call.1 keys ∪ reasons calls = keys ∪ reasons (call :: calls) := by
      ext r
      simp only [reasons, Set.mem_union, Set.mem_insert_iff, Set.mem_ofPred_eq, List.mem_cons,
        exists_or, Prod.ext_iff, exists_and_left, exists_eq, and_true]
      tauto
    rw [← hreasons]
    exact ih (horder.addReason h hcall) hcalls

private theorem inOrder_requestMap (h : Agree (reasons calls)) :
    InOrder (reasons calls) (requestMap rebalancing calls) (∅ ∪ reasons calls) :=
  inOrder_leaf.addReasons (strictTotalOn_lt h) fun call hcall => ⟨call.2, hcall⟩

/-- The reasons of some requests can be the keys of a map exactly when a greater address never goes with a
smaller mode. It does not depend on the order of the requests, nor on how the tree is balanced. -/
theorem usableAsKeys_iff (rebalancing : Rebalancing RouteReason ℤ) (calls : List (RouteReason × ℤ)) :
    UsableAsKeys rebalancing calls ↔ Agree (reasons calls) := by
  refine ⟨fun h => agree_of_strictWeakOn h.order, fun h => ?_⟩
  have hlt := strictTotalOn_lt h
  obtain ⟨hin, hsorted, hkeys⟩ := @inOrder_requestMap rebalancing calls h
  rw [Set.empty_union] at hkeys
  refine ⟨hlt.toStrictWeakOn, fun a ha b hb => ?_, fun r hr => ?_, fun r hr => (hkeys r).mp hr,
    fun r hr => ?_⟩
  · rw [hlt.incomparable_iff ha hb, equal_iff]
  · exact List.count_eq_one_of_mem (hsorted.nodup_keys hlt hin) ((hkeys r).mpr hr)
  · obtain ⟨e, he, rfl⟩ := List.mem_map.mp ((hkeys r).mpr hr)
    exact ⟨e.2, (find_eq_some_iff hlt hr hin hsorted).mpr ⟨he, rfl⟩⟩

/-- Of two reasons that are each less than the other, the second is in the map and is not found. Another
request with it may then be put into the map, or be refused. -/
theorem find_requestMap_pair {a b : RouteReason} (hab : a.lt b = true) (hba : b.lt a = true)
    (ttl ttl' : ℤ) :
    (requestMap .none [(a, ttl), (b, ttl')]).toList = [(b, ttl'), (a, ttl)] ∧
      (requestMap .none [(a, ttl), (b, ttl')]).find lt b = none := by
  have hmap : requestMap .none [(a, ttl), (b, ttl')] =
      .node (.node .leaf b ttl' .leaf) a ttl .leaf := by
    simp [requestMap, addReasons, addReason, find, lowerBound, emplace,
      before, place, Rebalancing.none, hab, hba]
  rw [hmap]
  refine ⟨rfl, ?_⟩
  simp [find, lowerBound, hab]

/-- A peer asks for help, and a packet of our own goes to a greater address. -/
theorem not_usableAsKeys_pair :
    ¬ UsableAsKeys .none
      [(⟨0, .helpFind⟩, 5), (⟨⟨List.replicate 16 1, rfl⟩, .routeOwnPacket⟩, 5)] := by
  intro h
  obtain ⟨ttl, hfind⟩ := h.finds ⟨⟨List.replicate 16 1, rfl⟩, .routeOwnPacket⟩ ⟨5, by simp⟩
  rw [(find_requestMap_pair (by decide) (by decide) 5 5).2] at hfind
  cases hfind

/-! ### The TTL of a search -/

/-- The map keeps a request: it finds the reason, or accepts it as a new one. -/
def Keeps (request : SearchTree RouteReason ℤ) (reason : RouteReason) : Prop :=
  (request.find lt reason).isSome = true ∨ request.Accepts lt reason

instance : Decidable (Keeps request reason) := inferInstanceAs (Decidable (_ ∨ _))

/-- Those of some requests that the map keeps. -/
def kept (rebalancing : Rebalancing RouteReason ℤ) :
    SearchTree RouteReason ℤ → List (RouteReason × ℤ) → List (RouteReason × ℤ)
  | _, [] => []
  | request, call :: calls =>
    let rest := kept rebalancing (addReason rebalancing request call.1 call.2) calls
    if Keeps request call.1 then call :: rest else rest

/-- What `m_ttl_should_use` is declared to be: the highest TTL in the map of requests. The map may hold a
reason twice, and all entries count. -/
def UsesHighestTtl (rebalancing : Rebalancing RouteReason ℤ) (search : RouteSearch) : Prop :=
  (∃ e ∈ (search.request rebalancing).toList, e.2 = search.ttlShouldUse) ∧
    ∀ e ∈ (search.request rebalancing).toList, e.2 ≤ search.ttlShouldUse

/-- What bounds the TTLs in the map after a request bounds those before, and the new one if it is kept. -/
theorem forall_addReason_le_iff (t : ℤ) :
    (∀ e ∈ (addReason rebalancing request reason ttl).toList, e.2 ≤ t) ↔
      (∀ e ∈ request.toList, e.2 ≤ t) ∧ (Keeps request reason → ttl ≤ t) := by
  unfold addReason Keeps
  cases hfind : request.find lt reason with
  | some known =>
    obtain ⟨front, rest, hbefore, hafter⟩ :=
      toList_modify_of_lowerBound (lowerBound_of_find hfind) fun known => max known ttl
    dsimp only
    rw [hbefore, hafter]
    simp only [List.forall_mem_append, List.forall_mem_cons, max_le_iff, Option.isSome_some, true_or,
      forall_const]
    tauto
  | none =>
    by_cases haccepts : request.Accepts lt reason
    · have hperm := perm_emplace_of_accepts (v := ttl) haccepts rebalancing
      simp only [hperm.mem_iff, List.forall_mem_cons, haccepts, or_true, forall_const]
      exact and_comm
    · simp only [emplace_of_not_accepts haccepts, haccepts, Option.isSome_none, Bool.false_eq_true,
        or_self, false_imp_iff, and_true]

/-- The map is bounded by what bounds the requests that it keeps. -/
theorem forall_addReasons_le_iff (t : ℤ) :
    (∀ e ∈ (addReasons rebalancing request calls).toList, e.2 ≤ t) ↔
      (∀ e ∈ request.toList, e.2 ≤ t) ∧ ∀ call ∈ kept rebalancing request calls, call.2 ≤ t := by
  induction calls generalizing request with
  | nil => exact (and_iff_left nofun).symm
  | cons call calls ih =>
    rw [show addReasons rebalancing request (call :: calls) =
      addReasons rebalancing (addReason rebalancing request call.1 call.2) calls from rfl, ih,
      forall_addReason_le_iff, and_assoc, kept]
    refine and_congr_right fun _ => ?_
    by_cases hkeeps : Keeps request call.1
    · rw [if_pos hkeeps, List.forall_mem_cons, imp_iff_right hkeeps]
    · rw [if_neg hkeeps, and_iff_right fun h => absurd h hkeeps]

/-- The TTL of a search is the highest one of the requests, and of the one it had. -/
theorem ttlShouldUse_addRequests_le_iff (t : ℤ) (search : RouteSearch) :
    (search.addRequests calls).ttlShouldUse ≤ t ↔
      search.ttlShouldUse ≤ t ∧ ∀ call ∈ calls, call.2 ≤ t := by
  induction calls generalizing search with
  | nil => exact (and_iff_left nofun).symm
  | cons call calls ih =>
    rw [List.forall_mem_cons, ← and_assoc]
    exact (ih (search.addRequest call.1 call.2)).trans (and_congr_left' max_le_iff)

private theorem mem_of_mem_kept {call : RouteReason × ℤ} (h : call ∈ kept rebalancing request calls) :
    call ∈ calls := by
  induction calls generalizing request with
  | nil => exact h
  | cons first calls ih =>
    rw [kept] at h
    split at h
    · rcases List.mem_cons.mp h with rfl | h
      · exact List.mem_cons_self
      · exact List.mem_cons_of_mem _ (ih h)
    · exact List.mem_cons_of_mem _ (ih h)

/-- Where the operator is an order, the map keeps every request. -/
private theorem InOrder.kept_eq (h : StrictTotalOn lt S) (horder : InOrder S request keys)
    (hcalls : ∀ call ∈ calls, call.1 ∈ S) : kept rebalancing request calls = calls := by
  induction calls generalizing request keys with
  | nil => rfl
  | cons call calls ih =>
    obtain ⟨hcall, hcalls⟩ := List.forall_mem_cons.mp hcalls
    have hkeeps : Keeps request call.1 := by
      by_cases hmem : call.1 ∈ request.keys
      · refine .inl (Option.isSome_iff_ne_none.mpr fun hnone => ?_)
        exact (find_eq_none_iff h hcall horder.keysIn horder.sorted).mp hnone hmem
      · exact .inr (accepts_of_not_mem h hcall horder.keysIn hmem)
    rw [kept, if_pos hkeeps, ih (horder.addReason h hcall) hcalls]

/-- The TTL of a search is the highest one in the map exactly when the map keeps a highest request, which has
a TTL of 5 or more. -/
private theorem usesHighestTtl_iff_kept (rebalancing : Rebalancing RouteReason ℤ) (addr : HashipAddr)
    (calls : List (RouteReason × ℤ)) :
    ((new addr).addRequests calls).UsesHighestTtl rebalancing ↔
      ∃ call ∈ kept rebalancing .leaf calls, 5 ≤ call.2 ∧ ∀ other ∈ calls, other.2 ≤ call.2 := by
  have hstored : ∀ t, (∀ e ∈ (((new addr).addRequests calls).request rebalancing).toList, e.2 ≤ t) ↔
      ∀ call ∈ kept rebalancing .leaf calls, call.2 ≤ t := fun t => by
    rw [request_addRequests, forall_addReasons_le_iff]
    exact and_iff_right nofun
  have httl : ∀ t, ((new addr).addRequests calls).ttlShouldUse ≤ t ↔
      (new addr).ttlShouldUse ≤ t ∧ ∀ call ∈ calls, call.2 ≤ t :=
    fun t => ttlShouldUse_addRequests_le_iff t (new addr)
  unfold UsesHighestTtl
  generalize ((new addr).addRequests calls).ttlShouldUse = highest at httl ⊢
  generalize (((new addr).addRequests calls).request rebalancing).toList = stored at hstored ⊢
  obtain ⟨hfive, hhighest⟩ := (httl highest).mp le_rfl
  constructor
  · rintro ⟨⟨e, he, heq⟩, -⟩
    by_contra hnone
    push Not at hnone
    -- all that is kept is lower, and so is the entry with the TTL of the search
    have hlower : ∀ call ∈ kept rebalancing .leaf calls, call.2 ≤ highest - 1 := fun call hcall => by
      by_contra hlt
      obtain ⟨other, hother, hmore⟩ := hnone call hcall (by
        have : (new addr).ttlShouldUse = 5 := rfl
        omega)
      have := hhighest other hother
      omega
    have := (hstored _).mpr hlower e he
    omega
  · rintro ⟨call, hcall, hcallFive, hcallHighest⟩
    have heq : call.2 = highest :=
      le_antisymm (hhighest call (mem_of_mem_kept hcall)) ((httl call.2).mpr ⟨hcallFive, hcallHighest⟩)
    have hbound := (hstored highest).mpr fun call hcall => hhighest call (mem_of_mem_kept hcall)
    refine ⟨?_, hbound⟩
    by_contra hnone
    push Not at hnone
    -- otherwise one less would bound the map, and with it what is kept
    have hless : ∀ e ∈ stored, e.2 ≤ highest - 1 := fun e he => by
      have := hbound e he
      have := hnone e he
      omega
    have := (hstored _).mp hless call hcall
    omega

/-- Among requests of which one has a TTL of some size, one has the highest TTL. -/
private theorem exists_highest_iff {t : ℤ} :
    (∃ call ∈ calls, t ≤ call.2 ∧ ∀ other ∈ calls, other.2 ≤ call.2) ↔ ∃ call ∈ calls, t ≤ call.2 := by
  constructor
  · rintro ⟨call, hcall, ht, -⟩
    exact ⟨call, hcall, ht⟩
  · rintro ⟨call, hcall, ht⟩
    obtain ⟨top, htop, hmax⟩ :=
      calls.toFinset.exists_max_image Prod.snd ⟨call, List.mem_toFinset.mpr hcall⟩
    have hhighest : ∀ other ∈ calls, other.2 ≤ top.2 := fun other hother =>
      hmax other (List.mem_toFinset.mpr hother)
    exact ⟨top, List.mem_toFinset.mp htop, ht.trans (hhighest call hcall), hhighest⟩

/-- The TTL of a search is the highest one in the map exactly when some request that the map keeps has a TTL
of 5 or more, and no request a higher one. Where addresses and modes agree, this is when some request has a
TTL of 5 or more: the search begins with 5. Requests may come with any reasons, in any order, and the map may
refuse one whose reason it has and does not find. -/
theorem usesHighestTtl_iff (rebalancing : Rebalancing RouteReason ℤ) (addr : HashipAddr)
    (calls : List (RouteReason × ℤ)) :
    (((new addr).addRequests calls).UsesHighestTtl rebalancing ↔
      ∃ call ∈ kept rebalancing .leaf calls, 5 ≤ call.2 ∧ ∀ other ∈ calls, other.2 ≤ call.2) ∧
    (Agree (reasons calls) → (((new addr).addRequests calls).UsesHighestTtl rebalancing ↔
      ∃ call ∈ calls, 5 ≤ call.2)) := by
  have hexact := usesHighestTtl_iff_kept rebalancing addr calls
  refine ⟨hexact, fun hagree => hexact.trans ?_⟩
  rw [inOrder_leaf.kept_eq (strictTotalOn_lt hagree) fun call hcall => ⟨call.2, hcall⟩]
  exact exists_highest_iff

/-- One request with a TTL of 3. -/
theorem not_usesHighestTtl_three :
    ¬ ((new 0).addRequests [(⟨0, .helpFind⟩, 3)]).UsesHighestTtl .none := by
  unfold UsesHighestTtl
  decide +kernel

/-- A request with a TTL of 9 that the map refuses: its reason is there, and is not found. -/
theorem not_usesHighestTtl_refused :
    ¬ ((new 0).addRequests [(⟨0, .helpFind⟩, 5), (⟨⟨List.replicate 16 1, rfl⟩, .routeOwnPacket⟩, 5),
      (⟨⟨List.replicate 16 1, rfl⟩, .routeOwnPacket⟩, 9)]).UsesHighestTtl .none := by
  unfold UsesHighestTtl
  decide +kernel

end RouteSearch

end Galaxy42
