import Galaxy42.Tunserver.Queries

/-!
# Queries as they are read

A query is an address in binary, a semicolon, the TTL in one octet, and a semicolon. The end of the address
is found by looking for a semicolon, from the third octet on, so an address with that octet in it is cut
short, and the query is refused. The TTL is written from an `unsigned char`, and read into a `char`, so
from 128 on it is read as a negative number. In all other cases a query is read as it was written
(`readsBack_iff`).

The octets of the query are those that a search really sends: the statement is about every node that carries out
the search, with whatever peers, and about every datagram that it sends then (`RouteSearch.ReadsBack`). A search
whose TTL does not fit into an octet sends none, so it is asked of those whose TTL does.

Why an address with a semicolon is never read right: the part in front of the first semicolon has less
than 16 octets, and is refused as an address. The first two octets are not looked at, so that a semicolon there
does no harm; the prefix of the network is in the first one anyway.
-/

namespace Galaxy42

open Toolkit Program Tunserver

namespace Tunserver

/-- What the handler of queries takes from a datagram: the address that is asked for, and the TTL. -/
def extractedQuery (node : Tunserver) (buf : Bytes) : Option (HashipAddr × ℤ) :=
  if datagramCmd buf = some .findhipQuery then
    returned (parseFindhipQuery (buf.drop 2) : Node (HashipAddr × ℤ)) node
  else
    none

end Tunserver

/-- Wherever the query of a search is sent from, and whoever gets it, reads the address and the TTL of the
search in it. A sender may have any peers, and so may who receives it. -/
def RouteSearch.ReadsBack (search : RouteSearch) : Prop :=
  ∀ sender receiver : Tunserver, sender.searchFor search.addr = some search →
    ∀ d ∈ (finalState search.execute sender).sentSince sender,
      receiver.extractedQuery d.2 = some (search.addr, search.ttlShouldUse)

variable {hip : HashipAddr} {ttl : UInt8}

/-! ### Reading one query -/

/-- A query is refused when there is a semicolon in the address, apart from its first two octets. -/
private theorem not_mem_of_parseFindhipQuery {σ : Type} {s s' : σ} {query : HashipAddr × ℤ}
    (h : parseFindhipQuery (queryBin hip ttl) s = .ok query s') : semicolon ∉ hip.octets.drop 2 := by
  obtain ⟨_, _, hcheck, -⟩ := bind_eq_ok_iff.mp h
  obtain ⟨hpos, -⟩ := checkThat_eq_ok_iff.mp hcheck
  have hdrop : (queryBin hip ttl).drop 2 = hip.octets.drop 2 ++ [semicolon, ttl, semicolon] := by
    rw [queryBin, List.drop_append_of_le_length (by rw [hip.length_octets]; decide)]
  rw [hdrop, List.findIdx?_append] at hpos
  intro hmem
  -- the first semicolon would be one in the address
  obtain ⟨i, hfind⟩ : ∃ i, (hip.octets.drop 2).findIdx? (fun b => decide (b = semicolon)) = some i := by
    rw [← Option.ne_none_iff_exists', ne_eq, List.findIdx?_eq_none_iff]
    exact fun hnone => absurd (hnone _ hmem) (by decide)
  obtain ⟨hlt, -⟩ := List.findIdx?_eq_some_iff_getElem.mp hfind
  rw [hfind, Option.some_or, Option.map_some, Option.some.injEq] at hpos
  rw [List.length_drop, hip.length_octets] at hlt
  omega

private theorem returned_parseFindhipQuery_iff {σ : Type} {s : σ} {query : HashipAddr × ℤ} :
    returned (parseFindhipQuery (queryBin hip ttl)) s = some query ↔
      semicolon ∉ hip.octets.drop 2 ∧ (hip, ttl.toInt8.toInt) = query := by
  rw [returned_eq_some_iff]
  constructor
  · rintro ⟨s', hrun⟩
    have hno := not_mem_of_parseFindhipQuery hrun
    rw [parseFindhipQuery_queryBin hno] at hrun
    exact ⟨hno, (EStateM.Result.ok.inj hrun).1⟩
  · rintro ⟨hno, rfl⟩
    exact ⟨s, parseFindhipQuery_queryBin hno ttl s⟩

/-- The TTL is read as it was written exactly when it is less than 128. -/
theorem toInt_toInt8_ofInt_iff {t : ℤ} (h1 : 1 ≤ t) (h255 : t ≤ 255) :
    (UInt8.ofInt t).toInt8.toInt = t ↔ t ≤ 127 := by
  have hnat : ((UInt8.ofInt t).toNat : ℤ) = t := toNat_ofInt_of_lt (by omega) (by omega)
  have hbmod : (UInt8.ofInt t).toInt8.toInt = ((UInt8.ofInt t).toNat : ℤ).bmod 256 := by
    exact BitVec.toInt_eq_toNat_bmod _
  rw [hbmod, hnat, Int.bmod_def]
  split_ifs <;> omega

private theorem extractedQuery_queryOctets_iff {t : ℤ} (h1 : 1 ≤ t) (h255 : t ≤ 255) {node : Tunserver} :
    node.extractedQuery (queryOctets hip (UInt8.ofInt t)) = some (hip, t) ↔
      semicolon ∉ hip.octets.drop 2 ∧ t ≤ 127 := by
  rw [extractedQuery, datagramCmd_queryOctets, if_pos rfl]
  refine returned_parseFindhipQuery_iff.trans (and_congr_right fun _ => ?_)
  rw [Prod.mk.injEq, toInt_toInt8_ofInt_iff h1 h255]
  exact and_iff_right rfl

/-! ### The query of a search -/

/-- What a search sends, to the peers that are reached. -/
private theorem sentSince_execute {search : RouteSearch} {sender : Tunserver} (h0 : 0 ≤ search.ttlShouldUse)
    (hlt : search.ttlShouldUse < 256) (hsearch : sender.searchFor search.addr = some search) :
    (finalState search.execute sender).sentSince sender =
      (sender.reachedPeers.map fun p =>
        (p.getPip, queryOctets search.addr (UInt8.ofInt search.ttlShouldUse))).reverse := by
  have hmem : search.addr ∈ sender.routingManager.search :=
    Std.ExtTreeMap.mem_iff_isSome_getElem?.mpr (Option.isSome_iff_exists.mpr ⟨search, hsearch⟩)
  obtain ⟨m, hstate, -⟩ := finalState_execute search sender h0 hmem
  rw [if_neg (not_le.mpr hlt)] at hstate
  rw [hstate]
  exact sentSince_of_append rfl

/-- A node with a peer, and a search. -/
def searchingNode (search : RouteSearch) : Tunserver :=
  ((sampleNode 1).after (sampleMeet 2)).putSearch search.addr search

/-- A search is read back when its query is, since some node sends it. -/
theorem readsBack_iff_extractedQuery {search : RouteSearch} (h1 : 1 ≤ search.ttlShouldUse)
    (h255 : search.ttlShouldUse ≤ 255) :
    search.ReadsBack ↔ ∀ receiver : Tunserver,
      receiver.extractedQuery (queryOctets search.addr (UInt8.ofInt search.ttlShouldUse)) =
        some (search.addr, search.ttlShouldUse) := by
  have hsent : ∀ sender : Tunserver, sender.searchFor search.addr = some search → _ :=
    fun sender => sentSince_execute (by omega) (by omega)
  constructor
  · intro h receiver
    have hsearch : (searchingNode search).searchFor search.addr = some search :=
      Std.ExtTreeMap.getElem?_insert_self
    have hreached : ((sampleNode 1).after (sampleMeet 2)).reachedPeers.length = 1 := by decide +kernel
    obtain ⟨p, hp⟩ := List.exists_mem_of_length_pos (hreached ▸ Nat.one_pos)
    refine h _ receiver hsearch (p.getPip, _) ?_
    rw [hsent _ hsearch, List.mem_reverse]
    exact List.mem_map_of_mem hp
  · intro h sender receiver hsearch d hd
    rw [hsent sender hsearch, List.mem_reverse] at hd
    obtain ⟨p, -, rfl⟩ := List.mem_map.mp hd
    exact h receiver

/-- The query of a search with a TTL of one octet is read as it was written exactly when there is no semicolon
in the address, apart from its first two octets, and the TTL is less than 128. Both exceptions are about the
octets of the query, whoever has sent it. -/
theorem readsBack_iff (search : RouteSearch) (h1 : 1 ≤ search.ttlShouldUse)
    (h255 : search.ttlShouldUse ≤ 255) :
    search.ReadsBack ↔ semicolon ∉ search.addr.octets.drop 2 ∧ search.ttlShouldUse ≤ 127 := by
  rw [readsBack_iff_extractedQuery h1 h255]
  constructor
  · exact fun h => (extractedQuery_queryOctets_iff h1 h255).mp (h (sampleNode 2))
  · exact fun h receiver => (extractedQuery_queryOctets_iff h1 h255).mpr h

/-- The query of a new search for an address without a semicolon. -/
theorem readsBack_iff_example :
    (RouteSearch.new (sampleHip 9)).ReadsBack ↔ semicolon ∉ (sampleHip 9).octets.drop 2 ∧ (5 : ℤ) ≤ 127 :=
  readsBack_iff (RouteSearch.new (sampleHip 9)) (by decide) (by decide)

/-- A new search for an address with a semicolon. -/
theorem not_readsBack_semicolon : ¬ (RouteSearch.new (sampleHip semicolon)).ReadsBack := by
  intro h
  have hread := (readsBack_iff_extractedQuery (by decide) (by decide)).mp h (sampleNode 2)
  exact absurd ((extractedQuery_queryOctets_iff (by decide) (by decide)).mp hread).1 (by decide)

end Galaxy42
