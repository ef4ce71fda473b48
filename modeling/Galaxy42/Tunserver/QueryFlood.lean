import Mathlib.Algebra.BigOperators.Ring.Finset
import Mathlib.Algebra.Order.BigOperators.Group.Finset
import Mathlib.Data.Set.Card
import Mathlib.Data.Set.Finite.Lattice
import Galaxy42.Tunserver.Network

/-!
# The flood of queries

A node that has no route to a destination asks all its peers, and those that have none ask theirs. Nothing in
a query says where it has been, so in a network with cycles it comes back to nodes that have sent it. That the
flood ends nevertheless rests on the table of searches: it is looked at before each broadcast, and a search
that was started is never forgotten. So a node asks for a destination in one event at most of a whole run, and
then it asks peers that it has at that time, each of them once (`Floods`).

How many queries there are at most depends on which destinations are asked for and on the links. Both are
read off the record of the run (`NodeRun`). A destination is *asked for* when a node looks for it for another
reason than a query (`asked`): its user requests it, or data that the node has to send or to forward go
there. A *link* is a pair of a node and a peer that it has at some time (`links`); peers may come and go. Every
query in flight is about a destination that is asked for, since queries only lead to queries about the same
destination (`invariant_asked`).

Which destinations data make a node ask for is traced back to the users as well (`asked_subset`). Data are
only about the sources and destinations of packets that were read from the cards of users. A node looks for
the destination of data, or for the next hop of a route to it that is no peer any more; this is a peer that
was removed (`StaleOf`). When no packets are read there are no data, and the destinations asked for are those
that users request.
-/

namespace Galaxy42

open Toolkit Program TrivialSerialize Tunserver

/-! ### Queries -/

/-- The queries for a destination among datagrams. They are told by the command and the address in the octets,
not by who has sent them. -/
def queriesFor (dst : HashipAddr) (sent : List (Ip46Addr × Bytes)) : List (Ip46Addr × Bytes) :=
  sent.filter fun d => datagramCmd d.2 = some .findhipQuery ∧
    (d.2.drop 2).take hashipAddrSize = dst.octets

/-- The queries among datagrams. -/
def queriesIn (sent : List (Ip46Addr × Bytes)) : List (Ip46Addr × Bytes) :=
  sent.filter fun d => datagramCmd d.2 = some .findhipQuery

/-- A query to each of these peers, the last one first. All of them have the same octets. -/
def broadcast (peers : List Peering) (dst : HashipAddr) (ttl : UInt8) : List (Ip46Addr × Bytes) :=
  (peers.map fun p => (p.getPip, queryOctets dst ttl)).reverse

section Queries

variable {dst dst' : HashipAddr} {ttl : UInt8} {sent : List (Ip46Addr × Bytes)}

private theorem take_queryOctets (dst : HashipAddr) (ttl : UInt8) :
    ((queryOctets dst ttl).drop 2).take hashipAddrSize = dst.octets := by
  change (queryBin dst ttl).take hashipAddrSize = dst.octets
  rw [queryBin, List.take_append_of_le_length dst.length_octets.ge,
    List.take_of_length_le dst.length_octets.le]

private theorem queriesFor_cons_cmdOctets {addr : Ip46Addr} {cmd : ProtoCmd} (bin : Bytes)
    (h : cmd ≠ .findhipQuery) :
    queriesFor dst ((addr, cmdOctets cmd bin) :: sent) = queriesFor dst sent := by
  refine List.filter_cons_of_neg fun htrue => ?_
  have hcmd := (of_decide_eq_true htrue).1
  rw [datagramCmd_cmdOctets] at hcmd
  exact h (Option.some.inj hcmd)

private theorem queriesFor_broadcast_append (peers : List Peering) :
    queriesFor dst' (broadcast peers dst ttl ++ sent) =
      (if dst' = dst then broadcast peers dst ttl else []) ++ queriesFor dst' sent := by
  have hmem : ∀ d ∈ broadcast peers dst ttl, d.2 = queryOctets dst ttl := by
    intro d hd
    obtain ⟨p, -, rfl⟩ := List.mem_map.mp (List.mem_reverse.mp hd)
    rfl
  rw [queriesFor, List.filter_append]
  congr 1
  split
  next heq =>
    subst heq
    refine List.filter_eq_self.mpr fun d hd => decide_eq_true ?_
    rw [hmem d hd]
    exact ⟨datagramCmd_queryOctets _ _, take_queryOctets _ _⟩
  next hne =>
    refine List.filter_eq_nil_iff.mpr fun d hd htrue => hne ?_
    have htake := (of_decide_eq_true htrue).2
    rw [hmem d hd, take_queryOctets] at htake
    exact (Block.ext htake).symm

end Queries

/-! ### What is asked in one event -/

/-- A node is asked for a destination, by its user or for data that it has to send. The other reason to look
for a destination is the query of a peer. -/
def Event.Asks (node : Tunserver) (event : Event) (dst : HashipAddr) : Prop :=
  (∃ data, event.Routes node data ∧ routed node data = .search dst) ∨
    ∃ reason searchTtl, event = .request dst reason searchTtl

/-- What has happened to a node in an event, as far as queries are concerned. -/
structure AskedSince (node : Tunserver) (event : Event) (new : List (Ip46Addr × Bytes))
    (node' : Tunserver) : Prop where
  sent : node'.sent = new ++ node.sent
  /-- No search is forgotten. -/
  search : ∀ dst ∈ node.routingManager.search, dst ∈ node'.routingManager.search
  /-- As long as something can be looked for, the peers are those there were before. -/
  peer : ∀ dst ttl, event.Searches node dst ttl → node'.peer = node.peer
  /-- Queries are about what is looked for. -/
  query : ∀ d ∈ new, datagramCmd d.2 = some .findhipQuery →
    ∃ dst ttl, (∃ searchTtl, event.Searches node dst searchTtl) ∧ d.2 = queryOctets dst ttl
  /-- They are sent when the search is new, one to each of some peers. -/
  once : ∀ dst, queriesFor dst new ≠ [] →
    dst ∉ node.routingManager.search ∧ dst ∈ node'.routingManager.search ∧
      ∃ (peers : List (HashipAddr × Peering)) (ttl : UInt8), peers.Sublist node.peer.toList ∧
        queriesFor dst new = broadcast (peers.map Prod.snd) dst ttl

section Event

variable {lib : CryptoLib} {node node' : Tunserver} {event : Event} {new : List (Ip46Addr × Bytes)}
  {dst : HashipAddr} {searchTtl : ℤ}

/-- Who is asked are some of the peers. -/
private theorem askedPeers_eq (node : Tunserver) (dst : HashipAddr) (searchTtl : ℤ) :
    ∃ peers : List (HashipAddr × Peering), peers.Sublist node.peer.toList ∧
      node.askedPeers dst searchTtl = peers.map Prod.snd := by
  unfold askedPeers reachedPeers
  split
  · exact ⟨[], List.nil_sublist _, rfl⟩
  · split
    · exact ⟨[], List.nil_sublist _, rfl⟩
    · rw [List.takeWhile_map]
      exact ⟨_, (List.takeWhile_prefix _).sublist, rfl⟩

private theorem AskedSince.refl (node : Tunserver) (event : Event) : AskedSince node event [] node where
  sent := rfl
  search _ := id
  peer _ _ _ := rfl
  query _ hd := absurd hd List.not_mem_nil
  once _ h := absurd rfl h

/-- Something is sent that is no query. -/
private theorem AskedSince.pushSent (h : AskedSince node event new node') (addr : Ip46Addr)
    {cmd : ProtoCmd} (bin : Bytes) (hcmd : cmd ≠ .findhipQuery) :
    AskedSince node event ((addr, cmdOctets cmd bin) :: new) (node'.pushSent addr (cmdOctets cmd bin)) where
  sent := congrArg ((addr, cmdOctets cmd bin) :: ·) h.sent
  search := h.search
  peer := h.peer
  query d hd hquery := by
    obtain rfl | hd := List.mem_cons.mp hd
    · rw [datagramCmd_cmdOctets] at hquery
      exact absurd (Option.some.inj hquery) hcmd
    · exact h.query d hd hquery
  once dst hne := by
    rw [queriesFor_cons_cmdOctets bin hcmd] at hne ⊢
    exact h.once dst hne

/-- A destination is looked for: nobody is asked when the search is known. -/
private theorem AskedSince.searchRoute (h : AskedSince node event new node')
    (hsearches : event.Searches node dst searchTtl) (reason : RouteReason) :
    ∃ new', AskedSince node event new' (finalState (searchRoute dst reason searchTtl) node') := by
  obtain ⟨m, hstate, hmem⟩ := finalState_searchRoute dst reason searchTtl node'
  obtain ⟨peers, hsub, hpeers⟩ := askedPeers_eq node' dst searchTtl
  have hsub' : peers.Sublist node.peer.toList := by rwa [← h.peer dst searchTtl hsearches]
  rw [hstate, hpeers]
  refine ⟨broadcast (peers.map Prod.snd) dst (UInt8.ofInt (max 5 searchTtl)) ++ new, ?_, fun dst' hin => ?_,
    h.peer, fun d hd hquery => ?_, fun dst' hne => ?_⟩
  · rw [List.append_assoc, ← h.sent]
    rfl
  · exact (hmem dst').mpr (.inr (h.search dst' hin))
  · rcases List.mem_append.mp hd with hd | hd
    · obtain ⟨p, -, rfl⟩ := List.mem_map.mp (List.mem_reverse.mp hd)
      exact ⟨dst, _, ⟨searchTtl, hsearches⟩, rfl⟩
    · exact h.query d hd hquery
  · rw [queriesFor_broadcast_append] at hne ⊢
    by_cases heq : dst' = dst
    · subst heq
      rw [if_pos rfl] at hne ⊢
      by_cases hknown : dst' ∈ node'.routingManager.search
      · -- the search is known, so this asks nobody
        have hnobody : node'.askedPeers dst' searchTtl = [] := if_pos (.inl (mem_search_iff.mp hknown))
        rw [← hpeers, hnobody] at hne ⊢
        obtain ⟨hnot, -, hrest⟩ := h.once dst' hne
        exact ⟨hnot, (hmem dst').mpr (.inl rfl), hrest⟩
      · have hnone : queriesFor dst' new = [] := by
          by_contra hsent
          exact hknown (h.once dst' hsent).2.1
        rw [hnone, List.append_nil]
        exact ⟨fun hin => hknown (h.search dst' hin), (hmem dst').mpr (.inl rfl), peers, _, hsub', rfl⟩
    · rw [if_neg heq] at hne ⊢
      obtain ⟨hnot, hin, hrest⟩ := h.once dst' hne
      exact ⟨hnot, (hmem dst').mpr (.inr hin), hrest⟩

/-- All that an event does is done this way. -/
private theorem effects_askedSince (lib : CryptoLib) (node : Tunserver) (event : Event) :
    Effects lib (fun node' => ∃ new, AskedSince node event new node') node event where
  learned goal route _ := ⟨[], rfl, fun _ => id, fun _ _ _ => rfl, fun _ hd => absurd hd List.not_mem_nil,
    fun _ hne => absurd rfl hne⟩
  put hip peering hput := ⟨[], rfl, fun _ => id, fun dst ttl h => absurd h (not_searches_of_puts hput),
    fun _ hd => absurd hd List.not_mem_nil, fun _ hne => absurd rfl hne⟩
  removed := by
    rintro ⟨hip, -, hremoves⟩
    exact ⟨[], rfl, fun _ => id, fun dst ttl h => absurd h (not_searches_of_removes hremoves),
      fun _ hd => absurd hd List.not_mem_nil, fun _ hne => absurd rfl hne⟩
  greet := by
    rintro node' addr bin ⟨new, h⟩
    exact ⟨_, h.pushSent addr bin (by decide)⟩
  reply := by
    rintro node' _ _ sender hip ttl route _ _ _ ⟨new, h⟩
    exact ⟨_, h.pushSent sender.getPip _ (by decide)⟩
  data := by
    rintro node' addr packet _ ⟨new, h⟩
    exact ⟨_, h.pushSent addr _ (by decide)⟩
  search := by
    rintro dst ttl reason hsearches node' ⟨new, h⟩
    exact h.searchRoute hsearches reason
  unrelated := by
    rintro node' _ _ _ _ ⟨new, h⟩
    exact ⟨new, h.sent, h.search, h.peer, h.query, h.once⟩

/-- What is asked in an event. -/
theorem askedSince_run (lib : CryptoLib) (node : Tunserver) (event : Event) :
    AskedSince node event ((finalState (event.run lib) node).sentSince node)
      (finalState (event.run lib) node) := by
  obtain ⟨new, h⟩ := (effects_askedSince lib node event).run ⟨[], .refl node event⟩
  rwa [sentSince_of_append h.sent]

/-- What is looked for is asked for, or a query asks for it. -/
private theorem Event.Searches.asks_or_query (h : event.Searches node dst searchTtl) :
    event.Asks node dst ∨ ∃ senderPip buf sender ttl, event = .datagram senderPip buf ∧
      node.acceptedQuery senderPip buf = some (sender, dst, ttl) := by
  obtain ⟨data, hroutes, hsearch, -⟩ | h := h
  · exact .inl (.inl ⟨data, hroutes, hsearch⟩)
  · cases event with
    | datagram senderPip buf =>
      obtain ⟨sender, ttl, hquery, -⟩ := h
      exact .inr ⟨senderPip, buf, sender, ttl, rfl, hquery⟩
    | request dst' reason searchTtl' =>
      obtain ⟨rfl, -⟩ := h
      exact .inl (.inr ⟨reason, searchTtl', rfl⟩)
    | tunPacket _ => cases h
    | ping _ _ _ => cases h
    | op _ => cases h

end Event

/-! ### What is asked in a whole run -/

section Record

variable {ι : Type} (lib : CryptoLib) (record : List (ι × Handled))

/-- The destinations that nodes are asked for in a run. A node may be asked for one of them any number of
times. -/
def asked : Set HashipAddr := {dst | ∃ act ∈ record, act.2.event.Asks act.2.before dst}

/-- The links of a run: a node, and a peer that it has at some time. A peer that was removed, or that has come
later, is among them. -/
def links : Set (ι × HashipAddr) := {link | ∃ act ∈ record, act.1 = link.1 ∧ link.2 ∈ act.2.before.peer}

/-- The queries that are sent in a run. -/
def queriesSent : List (Ip46Addr × Bytes) := record.flatMap fun act => queriesIn (act.2.sent lib)

/-- Each node asks for a destination in one event at most. Whenever it does, it sends one query to each of
some of the peers that it has then. So a node sends at most as many queries for a destination as it has peers
at that time. -/
structure Floods [DecidableEq ι] : Prop where
  once : ∀ i dst,
    (record.filter fun act => act.1 = i ∧ queriesFor dst (act.2.sent lib) ≠ []).length ≤ 1
  peers : ∀ act ∈ record, ∀ dst, ∃ (peers : List (HashipAddr × Peering)) (ttl : UInt8),
    peers.Sublist act.2.before.peer.toList ∧
      queriesFor dst (act.2.sent lib) = broadcast (peers.map Prod.snd) dst ttl

end Record

section Once

variable {ι : Type} [DecidableEq ι]

/-- A destination was asked for once at most by each node, and only if the node has a search for it. For each
query there is a link of its own. -/
private structure AskedOnce (lib : CryptoLib) (dst : HashipAddr) (record : List (ι × Handled))
    (node : ι → Tunserver) : Prop where
  once : ∀ i,
    (record.filter fun act => act.1 = i ∧ queriesFor dst (act.2.sent lib) ≠ []).length ≤ 1
  never : ∀ i, dst ∉ (node i).routingManager.search →
    (record.filter fun act => act.1 = i ∧ queriesFor dst (act.2.sent lib) ≠ []) = []
  used : ∃ used : List (ι × HashipAddr), used.Nodup ∧
    (∀ link ∈ used, link ∈ links record ∧ dst ∈ (node link.1).routingManager.search) ∧
    used.length = (record.map fun act => (queriesFor dst (act.2.sent lib)).length).sum

variable {lib : CryptoLib} {dst : HashipAddr} {record : List (ι × Handled)} {node : ι → Tunserver}

omit [DecidableEq ι] in
/-- The peers of a table are different. -/
private theorem nodup_links (i : ι) {peers : List (HashipAddr × Peering)} {table : Tunserver}
    (h : peers.Sublist table.peer.toList) : (peers.map fun p => (i, p.1)).Nodup := by
  have hkeys : (table.peer.toList.map Prod.fst).Nodup := by
    rw [Std.ExtTreeMap.map_fst_toList_eq_keys]
    exact Std.ExtTreeMap.nodup_keys
  have hsub := (h.map Prod.fst).nodup hkeys
  rw [show (peers.map fun p => (i, p.1)) = (peers.map Prod.fst).map (Prod.mk i) from by
    rw [List.map_map]; rfl]
  exact hsub.map fun _ _ h => (Prod.mk.inj h).2

/-- Searches that are there stay when a node handles an event. -/
private theorem mem_search_update (i : ι) (event : Event) {j : ι}
    (h : dst ∈ (node j).routingManager.search) :
    dst ∈ (Function.update node i (finalState (event.run lib) (node i)) j).routingManager.search := by
  by_cases hji : j = i
  · subst hji
    rw [Function.update_self]
    exact (askedSince_run lib (node j) event).search dst h
  · rwa [Function.update_of_ne hji]

omit [DecidableEq ι] in
/-- Links stay links when more is put on record. -/
private theorem mem_links_cons (act : ι × Handled) {link : ι × HashipAddr} (h : link ∈ links record) :
    link ∈ links (act :: record) := by
  obtain ⟨act', hact', hlink⟩ := h
  exact ⟨act', List.mem_cons_of_mem _ hact', hlink⟩

/-- An event in which a node does not ask keeps it so. -/
private theorem AskedOnce.act_of_none (h : AskedOnce lib dst record node) {i : ι} {event : Event}
    (hnone : queriesFor dst ((⟨node i, event⟩ : Handled).sent lib) = []) :
    AskedOnce lib dst ((i, ⟨node i, event⟩) :: record)
      (Function.update node i (finalState (event.run lib) (node i))) := by
  have hfilter : ∀ j, (((i, ⟨node i, event⟩) :: record).filter fun act =>
      act.1 = j ∧ queriesFor dst (act.2.sent lib) ≠ []) =
        record.filter fun act => act.1 = j ∧ queriesFor dst (act.2.sent lib) ≠ [] :=
    fun j => List.filter_cons_of_neg (by simp [hnone])
  obtain ⟨used, hnodup, hused, hlength⟩ := h.used
  refine ⟨fun j => ?_, fun j hj => ?_, used, hnodup, fun link hlink => ?_, ?_⟩
  · rw [hfilter]
    exact h.once j
  · rw [hfilter]
    exact h.never j fun hin => hj (mem_search_update i event hin)
  · obtain ⟨hin, hmem⟩ := hused link hlink
    exact ⟨mem_links_cons _ hin, mem_search_update i event hmem⟩
  · rw [hlength, List.map_cons, List.sum_cons, hnone, List.length_nil, Nat.zero_add]

/-- An event in which a node asks keeps it so: the search is new, so that the node has not asked before. -/
private theorem AskedOnce.act_of_ne_nil (h : AskedOnce lib dst record node) {i : ι} {event : Event}
    (hasks : queriesFor dst ((⟨node i, event⟩ : Handled).sent lib) ≠ []) :
    AskedOnce lib dst ((i, ⟨node i, event⟩) :: record)
      (Function.update node i (finalState (event.run lib) (node i))) := by
  obtain ⟨hnew, hin, peers, ttl, hsub, hqueries⟩ := (askedSince_run lib (node i) event).once dst hasks
  have hbefore := h.never i hnew
  have hafter : dst ∈ (Function.update node i
      (finalState (event.run lib) (node i)) i).routingManager.search := by
    rwa [Function.update_self]
  obtain ⟨used, hnodup, hused, hlength⟩ := h.used
  refine ⟨fun j => ?_, fun j hj => ?_, (peers.map fun p => (i, p.1)) ++ used, ?_, fun link hlink => ?_, ?_⟩
  · by_cases hji : j = i
    · subst hji
      rw [List.filter_cons_of_pos (by simp [hasks]), hbefore]
      exact le_rfl
    · rw [List.filter_cons_of_neg (by simp [Ne.symm hji])]
      exact h.once j
  · have hji : j ≠ i := by
      rintro rfl
      exact hj hafter
    rw [List.filter_cons_of_neg (by simp [hji.symm])]
    exact h.never j fun hin => hj (mem_search_update i event hin)
  · refine (nodup_links i hsub).append hnodup fun link hlink hold => hnew ?_
    obtain ⟨p, -, rfl⟩ := List.mem_map.mp hlink
    exact (hused _ hold).2
  · rcases List.mem_append.mp hlink with hlink | hlink
    · obtain ⟨p, hp, rfl⟩ := List.mem_map.mp hlink
      have hpeer : p.1 ∈ (node i).peer := by
        rw [mem_peer_iff, Std.ExtTreeMap.mem_toList_iff_getElem?_eq_some.mp (hsub.subset hp)]
        rfl
      exact ⟨⟨_, List.mem_cons_self, rfl, hpeer⟩, hafter⟩
    · obtain ⟨hold, hmem⟩ := hused link hlink
      exact ⟨mem_links_cons _ hold, mem_search_update i event hmem⟩
  · have hqueries' : queriesFor dst ((⟨node i, event⟩ : Handled).sent lib) =
        broadcast (peers.map Prod.snd) dst ttl := hqueries
    rw [List.map_cons, List.sum_cons, hqueries', List.length_append, hlength, broadcast,
      List.length_reverse, List.length_map, List.length_map, List.length_map]

/-- An event of a node keeps it so. -/
private theorem AskedOnce.act (h : AskedOnce lib dst record node) (i : ι) (event : Event) :
    AskedOnce lib dst ((i, ⟨node i, event⟩) :: record)
      (Function.update node i (finalState (event.run lib) (node i))) := by
  by_cases hnone : queriesFor dst ((⟨node i, event⟩ : Handled).sent lib) = []
  · exact h.act_of_none hnone
  · exact h.act_of_ne_nil hnone

/-- So it is in every run. -/
private theorem askedOnce_of_run {addr : ι → Ip46Addr} {net net' : NodeNetwork ι} (dst : HashipAddr)
    (hrun : NodeRun lib addr net record net') : AskedOnce lib dst record net'.node := by
  induction hrun with
  | start => exact ⟨fun _ => Nat.zero_le _, fun _ _ => rfl, [], List.nodup_nil, nofun, rfl⟩
  | @own net' acts i handled s new _ hact ih =>
    obtain ⟨hbefore, -, rfl, -⟩ := hact
    obtain ⟨_, event⟩ := handled
    subst hbefore
    exact ih.act i event
  | @deliver net' acts i d handled s new pre suf _ _ hact ih =>
    obtain ⟨hbefore, -, -, rfl, -⟩ := hact
    obtain ⟨_, event⟩ := handled
    subst hbefore
    exact ih.act i event
  | fault _ hfault ih =>
    cases hfault <;> exact ih

end Once

/-! ### Destinations that are asked for -/

/-- A query is only about these destinations. -/
def QueryAbout (D : Set HashipAddr) (octets : Bytes) : Prop :=
  datagramCmd octets = some .findhipQuery → ∃ dst ∈ D, ∃ ttl, octets = queryOctets dst ttl

/-- Data are only about these addresses. -/
def DataAbout (U : Set HashipAddr) (octets : Bytes) : Prop :=
  datagramCmd octets = some .tunneledData →
    ∃ packet : TunneledData, packet.srcHip ∈ U ∧ packet.dstHip ∈ U ∧ octets = tunneledOctets packet

/-- The destinations that users request in a run. The mode and the TTL of a request play no role. -/
def requested {ι : Type} (record : List (ι × Handled)) : Set HashipAddr :=
  {dst | ∃ act ∈ record, ∃ reason searchTtl, act.2.event = .request dst reason searchTtl}

/-- The sources and destinations of the packets that are read from the cards in a run. A packet whose
addresses cannot be read leads to no search, and is not counted. -/
def addressed {ι : Type} (record : List (ι × Handled)) : Set HashipAddr :=
  {hip | ∃ act ∈ record, ∃ tunReadBuff src dst, act.2.event = .tunPacket tunReadBuff ∧
    returned (parseTunIpSrcDst tunReadBuff : Node _) act.2.before = some (src, dst) ∧
      (hip = src ∨ hip = dst)}

/-- The peers that are removed in a run. -/
def removedPeers {ι : Type} (record : List (ι × Handled)) : Set HashipAddr :=
  {hip | ∃ act ∈ record, hip ∈ act.2.before.peer ∧ act.2.event.removes hip = true}

section Asked

variable {lib : CryptoLib} {D U R : Set HashipAddr} {node : Tunserver} {event : Event} {dst : HashipAddr}

/-- What is looked for in an event is asked for, or a query was about it. -/
private theorem mem_of_searches (hasks : ∀ dst, event.Asks node dst → dst ∈ D)
    (hquery : ∀ senderPip buf, event = .datagram senderPip buf → QueryAbout D buf) {searchTtl : ℤ}
    (h : event.Searches node dst searchTtl) : dst ∈ D := by
  obtain hask | ⟨senderPip, buf, sender, ttl, hevent, haccept⟩ := h.asks_or_query
  · exact hasks dst hask
  · obtain ⟨hcmd, -, hparse, -⟩ := of_acceptedQuery haccept
    obtain ⟨asked, hmem, ttl', rfl⟩ := hquery senderPip buf hevent hcmd
    rwa [hip_of_parseFindhipQuery hparse]

/-- So the queries that a node sends are about what is asked for. -/
private theorem queryAbout_of_sent (hasks : ∀ dst, event.Asks node dst → dst ∈ D)
    (hquery : ∀ senderPip buf, event = .datagram senderPip buf → QueryAbout D buf)
    {d : Ip46Addr × Bytes} (hd : d ∈ (finalState (event.run lib) node).sentSince node) :
    QueryAbout D d.2 := by
  intro hcmd
  obtain ⟨dst, ttl, ⟨searchTtl, hsearches⟩, heq⟩ := (askedSince_run lib node event).query d hd hcmd
  exact ⟨dst, mem_of_searches hasks hquery hsearches, ttl, heq⟩

/-- Where data go depends on their destination and their TTL. -/
private theorem routed_eq_of_eq {packet packet' : TunneledData} (hdst : packet.dstHip = packet'.dstHip)
    (httl : packet.ttl = packet'.ttl) : routed node packet = routed node packet' := by
  rw [routed, routed, hdst, httl]

/-- All data that an event may send go to the same peer, or need a search for the same destination. -/
private theorem Event.Routes.routed_eq {data data' : TunneledData} (h : event.Routes node data)
    (h' : event.Routes node data') : routed node data = routed node data' := by
  cases event with
  | datagram senderPip buf =>
    obtain ⟨sender, packet, haccept, hdata⟩ := h
    obtain ⟨sender', packet', haccept', hdata'⟩ := h'
    obtain ⟨rfl, rfl⟩ := Prod.mk.inj (Option.some.inj (haccept.symm.trans haccept'))
    split at hdata
    next hmine =>
      rw [if_pos hmine] at hdata'
      obtain ⟨-, nonce, rfl⟩ := hdata
      obtain ⟨-, nonce', rfl⟩ := hdata'
      exact routed_eq_of_eq rfl rfl
    next hmine =>
      rw [if_neg hmine] at hdata'
      rw [hdata, hdata']
  | tunPacket tunReadBuff =>
    obtain ⟨hparse, httl⟩ := h
    obtain ⟨hparse', httl'⟩ := h'
    obtain ⟨-, hdst⟩ := Prod.mk.inj (Option.some.inj (hparse.symm.trans hparse'))
    exact routed_eq_of_eq hdst (httl.trans httl'.symm)
  | ping _ _ _ => cases h
  | request _ _ _ => cases h
  | op _ => cases h

/-- In one event a node is asked for a few destinations only. -/
private theorem finite_asks (node : Tunserver) (event : Event) : {dst | event.Asks node dst}.Finite := by
  refine Set.Finite.union (Set.Subsingleton.finite ?_) (Set.Subsingleton.finite ?_)
  · rintro dst ⟨data, hroutes, hsearch⟩ dst' ⟨data', hroutes', hsearch'⟩
    rw [hroutes.routed_eq hroutes', hsearch'] at hsearch
    exact (NextPeer.search.inj hsearch).symm
  · rintro dst ⟨_, _, rfl⟩ dst' ⟨_, _, heq⟩
    exact (Event.request.inj heq).1

private theorem finite_asked {ι : Type} (record : List (ι × Handled)) : (asked record).Finite := by
  have hasked : asked record = ⋃ act ∈ {act | act ∈ record}, {dst | act.2.event.Asks act.2.before dst} := by
    ext dst
    simp [asked]
  rw [hasked]
  exact Set.Finite.biUnion (List.finite_toSet record) fun act _ => finite_asks _ _

private theorem finite_links {ι : Type} (record : List (ι × Handled)) : (links record).Finite := by
  have hpeers : ∀ act : ι × Handled,
      (Prod.mk act.1 '' {hip | hip ∈ act.2.before.peer.keys}).Finite :=
    fun act => Set.Finite.image _ (List.finite_toSet _)
  refine (Set.Finite.biUnion (List.finite_toSet record) fun act _ => hpeers act).subset ?_
  rintro ⟨i, hip⟩ ⟨act, hact, rfl, hpeer⟩
  exact Set.mem_biUnion hact ⟨hip, Std.ExtTreeMap.mem_keys.mpr hpeer, rfl⟩

end Asked

/-! ### What data make a node ask for -/

/-- A node whose routes lead over peers, but for some that are no peers any more, and that has sent data about
some addresses only. -/
private structure StaleOf (lib : CryptoLib) (U R : Set HashipAddr) (node : Tunserver) : Prop where
  peers : PeersBound lib node
  nexthop : ∀ goal route, node.routeTo goal = some route → route.nexthop ∈ node.peer ∨ route.nexthop ∈ R
  sent : ∀ d ∈ node.sent, DataAbout U d.2

/-- What users and other nodes send data about, and who is removed. -/
private structure BringsOnly (U R : Set HashipAddr) (node : Tunserver) (event : Event) : Prop where
  datagram : ∀ senderPip buf, event = .datagram senderPip buf → DataAbout U buf
  packet : ∀ tunReadBuff src dst, event = .tunPacket tunReadBuff →
    returned (parseTunIpSrcDst tunReadBuff : Node _) node = some (src, dst) → src ∈ U ∧ dst ∈ U
  removed : ∀ hip ∈ node.peer, event.removes hip = true → hip ∈ R

section Data

variable {lib : CryptoLib} {U R : Set HashipAddr} {node : Tunserver} {event : Event} {dst : HashipAddr}

private theorem StaleOf.new (myIDC : MultikeysPAIR) (myIDIPub : MultikeysPub) (myHip : HashipAddr)
    (ipv6Prefix : Bytes) (draws : ℕ) :
    StaleOf lib U R (Tunserver.new myIDC myIDIPub myHip ipv6Prefix draws) where
  peers := .new _ _ _ _ _
  nexthop goal route hget := by simp [Tunserver.new, routeTo] at hget
  sent d hd := by cases hd

/-- Data for a destination go to a peer, or the destination is looked for, or the next hop of a route to it
that is no peer any more. -/
private theorem StaleOf.of_routed_eq_search (h : StaleOf lib U R node) {packet : TunneledData}
    {hip : HashipAddr} (hsearch : routed node packet = .search hip) : hip = packet.dstHip ∨ hip ∈ R := by
  unfold routed at hsearch
  split at hsearch
  · cases hsearch
  rw [nextPeer] at hsearch
  split at hsearch
  · cases hsearch
  split at hsearch
  next route hroute =>
    rw [nextPeer] at hsearch
    split at hsearch
    · cases hsearch
    next hnext =>
    split at hsearch
    next route' hroute' =>
      rw [nextPeer] at hsearch
      split at hsearch <;> cases hsearch
    next hnone =>
      obtain rfl := NextPeer.search.inj hsearch
      refine .inr ((h.nexthop _ route hroute).resolve_left fun hmem => ?_)
      rw [mem_peer_iff, hnext] at hmem
      cases hmem
  next hnone => exact .inl (NextPeer.search.inj hsearch).symm

/-- The data that an event makes a node send are about the addresses that the event brings. -/
private theorem BringsOnly.routes (h : BringsOnly U R node event) {packet : TunneledData}
    (hroutes : event.Routes node packet) : packet.srcHip ∈ U ∧ packet.dstHip ∈ U := by
  cases event with
  | datagram senderPip buf =>
    obtain ⟨sender, read, haccept, hpacket⟩ := hroutes
    obtain ⟨hcmd, -, hparse⟩ := of_acceptedPacket haccept
    obtain ⟨written, hsrc, hdst, rfl⟩ := h.datagram senderPip buf rfl hcmd
    obtain ⟨hsrc', hdst', -⟩ := fields_of_popTunneledData hparse
    rw [← hsrc'] at hsrc
    rw [← hdst'] at hdst
    split at hpacket
    · obtain ⟨-, nonce, rfl⟩ := hpacket
      exact ⟨hdst, hsrc⟩
    · subst hpacket
      exact ⟨hsrc, hdst⟩
  | tunPacket tunReadBuff => exact h.packet tunReadBuff _ _ rfl hroutes.1
  | ping _ _ _ => cases hroutes
  | request _ _ _ => cases hroutes
  | op _ => cases hroutes

/-- A node is asked for what its user requests, or for data: then for the destination, or for a peer that was
removed. -/
private theorem StaleOf.of_asks (h : StaleOf lib U R node) (hbrings : BringsOnly U R node event)
    (hasks : event.Asks node dst) :
    (∃ reason searchTtl, event = .request dst reason searchTtl) ∨ U.Nonempty ∧ (dst ∈ U ∨ dst ∈ R) := by
  obtain ⟨data, hroutes, hsearch⟩ | hrequest := hasks
  · have hdst := (hbrings.routes hroutes).2
    refine .inr ⟨⟨_, hdst⟩, ?_⟩
    obtain rfl | hremoved := h.of_routed_eq_search hsearch
    · exact .inl hdst
    · exact .inr hremoved
  · exact .inl hrequest

private theorem dataAbout_cmdOctets {cmd : ProtoCmd} (h : cmd ≠ .tunneledData) (bin : Bytes) :
    DataAbout U (cmdOctets cmd bin) := by
  intro hcmd
  rw [datagramCmd_cmdOctets] at hcmd
  exact absurd (Option.some.inj hcmd) h

private theorem StaleOf.pushSent (h : StaleOf lib U R node) (addr : Ip46Addr) {octets : Bytes}
    (habout : DataAbout U octets) : StaleOf lib U R (node.pushSent addr octets) where
  peers := h.peers
  nexthop := h.nexthop
  sent d hd := by
    obtain rfl | hd := List.mem_cons.mp hd
    · exact habout
    · exact h.sent d hd

/-- Peers are removed: the routes over them are left. -/
private theorem StaleOf.removed (h : StaleOf lib U R node) (hbrings : BringsOnly U R node event) :
    StaleOf lib U R (node.removePeers event.removes) where
  peers := h.peers.removed _
  nexthop goal route hget := by
    obtain hpeer | hold := h.nexthop goal route hget
    · cases hremoves : event.removes route.nexthop with
      | true => exact .inr (hbrings.removed _ hpeer hremoves)
      | false => exact .inl (remains_iff.mp ⟨hpeer, hremoves⟩)
    · exact .inr hold
  sent := h.sent

/-- A route that is learned leads over a peer. -/
private theorem StaleOf.learned (h : StaleOf lib U R node) {goal : HashipAddr} {route : RouteInfo}
    (hlearned : node.learned lib event = some (goal, route)) :
    StaleOf lib U R (node.learnRoute goal route) where
  peers := h.peers
  nexthop dst route' hget := by
    rw [routeTo_learnRoute] at hget
    split at hget
    next heq =>
      subst heq
      cases hknown : node.routeTo dst with
      | none =>
        rw [hknown] at hget
        obtain rfl := Option.some.inj hget
        obtain ⟨hreply, -⟩ | hdirect := replied_or_direct hlearned
        · exact .inl (h.peers.sender_mem (of_acceptedReply hreply).2.1)
        · obtain ⟨hmem, hnext, -⟩ := h.peers.direct hdirect
          refine .inl ?_
          rw [← hnext] at hmem
          exact hmem
      | some known =>
        rw [hknown] at hget
        obtain rfl := Option.some.inj hget
        exact h.nexthop dst _ hknown
    · exact h.nexthop dst route' hget
  sent := h.sent

/-- All that an event does keeps the node so. -/
private theorem StaleOf.effects (h : StaleOf lib U R node) (hbrings : BringsOnly U R node event) :
    Effects lib (StaleOf lib U R) node event where
  learned _ _ := h.learned
  put _ _ hput := ⟨h.peers.put hput, fun goal route hget => (h.nexthop goal route hget).imp_left mem_peer_putPeer,
    h.sent⟩
  removed _ := h.removed hbrings
  greet _ addr bin h' := h'.pushSent addr (dataAbout_cmdOctets (by decide) bin)
  reply _ _ _ sender _ _ _ _ _ _ h' := h'.pushSent sender.getPip (dataAbout_cmdOctets (by decide) _)
  data _ addr packet hroutes h' := by
    obtain ⟨hsrc, hdst⟩ := hbrings.routes hroutes
    exact h'.pushSent addr fun _ => ⟨packet, hsrc, hdst, rfl⟩
  search dst ttl reason _ node' h' := by
    obtain ⟨m, hstate, -⟩ := finalState_searchRoute dst reason ttl node'
    rw [hstate]
    refine ⟨h'.peers, h'.nexthop, fun d hd => ?_⟩
    rcases List.mem_append.mp hd with hd | hd
    · obtain ⟨p, -, rfl⟩ := List.mem_map.mp (List.mem_reverse.mp hd)
      intro hcmd
      rw [datagramCmd_queryOctets] at hcmd
      cases hcmd
    · exact h'.sent d hd
  unrelated _ _ _ _ _ h' := ⟨h'.peers, h'.nexthop, h'.sent⟩

end Data

/-! ### The flood is finite -/

/-- No node has been running, and nothing is in flight. Each of them may have any keys and any prefix. -/
def Fresh {ι : Type} (net : NodeNetwork ι) : Prop :=
  (∀ i, ∃ myIDC myIDIPub myHip ipv6Prefix draws,
    net.node i = Tunserver.new myIDC myIDIPub myHip ipv6Prefix draws) ∧ net.flight = []

section Flood

variable {ι : Type} (lib : CryptoLib) (addr : ι → Ip46Addr)

/-- The kind of acts in which nodes are asked for these destinations only. -/
private def AsksWithin (D : Set HashipAddr) (act : ι × Handled) : Prop :=
  ∀ dst, act.2.event.Asks act.2.before dst → dst ∈ D

/-- Queries in flight stay about the destinations that are asked for. -/
private theorem invariant_asked (D : Set HashipAddr) :
    Network.Invariant (Network.OwnWith (AsksWithin D) (HandlesOwn lib))
      (Network.ReceiveWith (AsksWithin D) (HandlesDatagram lib addr)) (fun _ _ => True)
      fun d : Datagram ι => QueryAbout D d.octets := by
  constructor
  · rintro i node node' new - ⟨⟨before, event⟩, hasks, rfl, hown, rfl, rfl⟩
    refine ⟨trivial, fun d hd => ?_⟩
    obtain ⟨d', hd', rfl⟩ := List.mem_map.mp hd
    refine queryAbout_of_sent hasks (fun senderPip buf heq => ?_) hd'
    dsimp only at heq
    subst heq
    cases hown
  · rintro i d node node' new - hd ⟨⟨before, event⟩, hasks, rfl, hevent, -, rfl, rfl⟩
    refine ⟨trivial, fun d' hd' => ?_⟩
    obtain ⟨d'', hd'', rfl⟩ := List.mem_map.mp hd'
    refine queryAbout_of_sent hasks (fun senderPip buf heq => ?_) hd''
    obtain ⟨-, rfl⟩ := Event.datagram.inj (hevent.symm.trans heq)
    exact hd

/-- The kind of acts in which users, and other threads, do this. -/
private def UsesOnly (U R : Set HashipAddr) (act : ι × Handled) : Prop :=
  (∀ tunReadBuff src dst, act.2.event = .tunPacket tunReadBuff →
    returned (parseTunIpSrcDst tunReadBuff : Node _) act.2.before = some (src, dst) → src ∈ U ∧ dst ∈ U) ∧
  ∀ hip ∈ act.2.before.peer, act.2.event.removes hip = true → hip ∈ R

/-- Nodes whose users do this stay so, and the data in flight stay about the addresses that users send to. -/
private theorem invariant_staleOf (U R : Set HashipAddr) :
    Network.Invariant (Network.OwnWith (UsesOnly U R) (HandlesOwn lib))
      (Network.ReceiveWith (UsesOnly U R) (HandlesDatagram lib addr)) (fun _ : ι => StaleOf lib U R)
      fun d : Datagram ι => DataAbout U d.octets := by
  have hacts : ∀ (i : ι) (node : Tunserver) (event : Event), StaleOf lib U R node →
      BringsOnly U R node event → StaleOf lib U R (finalState (event.run lib) node) ∧
        ∀ d ∈ ((finalState (event.run lib) node).sentSince node).map fun d =>
          ({ sender := i, addr := d.1, octets := d.2 } : Datagram ι), DataAbout U d.octets := by
    intro i node event h hbrings
    have hafter := (h.effects hbrings).run h
    refine ⟨hafter, fun d hd => ?_⟩
    obtain ⟨d', hd', rfl⟩ := List.mem_map.mp hd
    exact hafter.sent d' (mem_sent_of_mem_sentSince hd')
  constructor
  · rintro i node node' new h ⟨⟨before, event⟩, ⟨hpacket, hremoved⟩, rfl, hown, rfl, rfl⟩
    refine hacts i before event h ⟨fun senderPip buf heq => ?_, hpacket, hremoved⟩
    subst heq
    cases hown
  · rintro i d node node' new h hd ⟨⟨before, event⟩, ⟨hpacket, hremoved⟩, rfl, hevent, -, rfl, rfl⟩
    refine hacts i before event h ⟨fun senderPip buf heq => ?_, hpacket, hremoved⟩
    obtain ⟨-, rfl⟩ := Event.datagram.inj (hevent.symm.trans heq)
    exact hd

variable {lib addr} [DecidableEq ι] {net net' : NodeNetwork ι} {record : List (ι × Handled)}

/-- The queries that are sent in an act of a run are for destinations that are asked for. -/
private theorem mem_asked_of_queriesIn (hfresh : Fresh net) (hrun : NodeRun lib addr net record net') :
    ∀ act ∈ record, ∀ d ∈ act.2.sent lib, QueryAbout (asked record) d.2 := by
  have hP : ∀ act ∈ record, AsksWithin (asked record) act := fun act hact dst hasks => ⟨act, hact, hasks⟩
  refine Network.Recorded.forall_acts (invariant_asked lib addr (asked record)) ?_ ?_ hrun hP
    ⟨fun _ => trivial, fun d hd => by rw [hfresh.2] at hd; cases hd⟩
  · rintro i ⟨before, event⟩ node node' new - hasks ⟨rfl, hown, -, -⟩ d hd
    refine queryAbout_of_sent hasks (fun senderPip buf heq => ?_) hd
    dsimp only at heq
    subst heq
    cases hown
  · rintro i d ⟨before, event⟩ node node' new - hd hasks ⟨rfl, hevent, -, -, -⟩ d' hd'
    refine queryAbout_of_sent hasks (fun senderPip buf heq => ?_) hd'
    obtain ⟨-, rfl⟩ := Event.datagram.inj (hevent.symm.trans heq)
    exact hd

/-- What nodes are asked for is what users request; or it is for data, and then users send packets, and it is
the source or destination of one, or a peer that was removed. -/
private theorem asked_subset (hfresh : Fresh net) (hrun : NodeRun lib addr net record net')
    {dst : HashipAddr} (h : dst ∈ asked record) :
    dst ∈ requested record ∨
      (addressed record).Nonempty ∧ (dst ∈ addressed record ∨ dst ∈ removedPeers record) := by
  have hP : ∀ act ∈ record, UsesOnly (addressed record) (removedPeers record) act := by
    refine fun act hact => ⟨fun tunReadBuff src dst hevent hparse => ?_, fun hip hpeer hremoves => ?_⟩
    · exact ⟨⟨act, hact, tunReadBuff, src, dst, hevent, hparse, .inl rfl⟩,
        ⟨act, hact, tunReadBuff, src, dst, hevent, hparse, .inr rfl⟩⟩
    · exact ⟨act, hact, hpeer, hremoves⟩
  have hstart : net.Holds (fun _ : ι => StaleOf lib (addressed record) (removedPeers record))
      fun d : Datagram ι => DataAbout (addressed record) d.octets := by
    refine ⟨fun i => ?_, fun d hd => ?_⟩
    · obtain ⟨myIDC, myIDIPub, myHip, ipv6Prefix, draws, heq⟩ := hfresh.1 i
      rw [heq]
      exact .new _ _ _ _ _
    · rw [hfresh.2] at hd
      cases hd
  have hacts : ∀ act ∈ record, ∀ dst, act.2.event.Asks act.2.before dst →
      (∃ reason searchTtl, act.2.event = .request dst reason searchTtl) ∨
        (addressed record).Nonempty ∧ (dst ∈ addressed record ∨ dst ∈ removedPeers record) := by
    refine Network.Recorded.forall_acts
      (invariant_staleOf lib addr (addressed record) (removedPeers record)) ?_ ?_ hrun hP hstart
    · rintro i ⟨before, event⟩ node node' new hnode ⟨hpacket, hremoved⟩ ⟨rfl, hown, -, -⟩ dst hasks
      refine hnode.of_asks ⟨fun senderPip buf heq => ?_, hpacket, hremoved⟩ hasks
      dsimp only at heq
      subst heq
      cases hown
    · rintro i d ⟨before, event⟩ node node' new hnode hd ⟨hpacket, hremoved⟩ ⟨rfl, hevent, -, -, -⟩ dst hasks
      refine hnode.of_asks ⟨fun senderPip buf heq => ?_, hpacket, hremoved⟩ hasks
      obtain ⟨-, rfl⟩ := Event.datagram.inj (hevent.symm.trans heq)
      exact hd
  obtain ⟨act, hact, hasks⟩ := h
  exact (hacts act hact dst hasks).imp_left fun ⟨reason, ttl, heq⟩ => ⟨act, hact, reason, ttl, heq⟩

/-- Datagrams that each have a key are not more than those of all keys together. -/
private theorem countP_le_sum_countP {α κ : Type} {q : α → Bool} {p : κ → α → Bool} {D : Finset κ} :
    ∀ {xs : List α}, (∀ x ∈ xs, q x = true → ∃ d ∈ D, p d x = true) →
      xs.countP q ≤ ∑ d ∈ D, xs.countP (p d) := by
  intro xs
  induction xs with
  | nil => exact fun _ => Nat.zero_le _
  | cons x xs ih =>
    intro h
    have hrest := ih fun y hy => h y (List.mem_cons_of_mem _ hy)
    have hhead : (if q x = true then 1 else 0) ≤ ∑ d ∈ D, if p d x = true then 1 else 0 := by
      split
      next hq =>
        obtain ⟨d, hd, hp⟩ := h x List.mem_cons_self hq
        refine le_trans ?_ (Finset.single_le_sum (fun _ _ => Nat.zero_le _) hd)
        rw [if_pos hp]
      · exact Nat.zero_le _
    simp only [List.countP_cons, Finset.sum_add_distrib]
    exact Nat.add_le_add hrest hhead

/-- The queries for one destination in a run are not more than the links. -/
private theorem sum_queriesFor_le (hrun : NodeRun lib addr net record net') (dst : HashipAddr) :
    (record.map fun act => (queriesFor dst (act.2.sent lib)).length).sum ≤ (links record).ncard := by
  obtain ⟨used, hnodup, hused, hlength⟩ := (askedOnce_of_run dst hrun).used
  rw [← hlength, ← List.toFinset_card_of_nodup hnodup, ← Set.ncard_coe_finset]
  refine Set.ncard_le_ncard (fun link hlink => ?_) (finite_links record)
  exact (hused link (List.mem_toFinset.mp hlink)).1

/-- All queries of a run are not more than the destinations that are asked for, times the links. -/
private theorem length_queriesSent_le (hfresh : Fresh net) (hrun : NodeRun lib addr net record net') :
    (queriesSent lib record).length ≤ (asked record).ncard * (links record).ncard := by
  have habout := mem_asked_of_queriesIn hfresh hrun
  have hfinite := finite_asked record
  have hkey : ∀ d ∈ record.flatMap fun act => act.2.sent lib,
      decide (datagramCmd d.2 = some .findhipQuery) = true →
        ∃ dst ∈ hfinite.toFinset, decide (datagramCmd d.2 = some .findhipQuery ∧
          (d.2.drop 2).take hashipAddrSize = dst.octets) = true := by
    intro d hd hquery
    obtain ⟨act, hact, hd⟩ := List.mem_flatMap.mp hd
    obtain ⟨dst, hdst, ttl, heq⟩ := habout act hact d hd (of_decide_eq_true hquery)
    refine ⟨dst, hfinite.mem_toFinset.mpr hdst, decide_eq_true ⟨of_decide_eq_true hquery, ?_⟩⟩
    rw [heq, take_queryOctets]
  calc (queriesSent lib record).length
      = (record.flatMap fun act => act.2.sent lib).countP fun d =>
          decide (datagramCmd d.2 = some .findhipQuery) := by
        rw [List.countP_eq_length_filter, List.filter_flatMap]
        rfl
    _ ≤ ∑ dst ∈ hfinite.toFinset, (record.flatMap fun act => act.2.sent lib).countP fun d =>
          decide (datagramCmd d.2 = some .findhipQuery ∧
            (d.2.drop 2).take hashipAddrSize = dst.octets) := countP_le_sum_countP hkey
    _ ≤ ∑ _dst ∈ hfinite.toFinset, (links record).ncard := by
        refine Finset.sum_le_sum fun dst _ => ?_
        rw [List.countP_flatMap]
        simp only [Function.comp_def, List.countP_eq_length_filter]
        exact sum_queriesFor_le hrun dst
    _ = (asked record).ncard * (links record).ncard := by
        rw [Finset.sum_const_nat fun _ _ => rfl, Set.ncard_eq_toFinset_card _ hfinite]

end Flood

/-- The flood of queries is finite. In every run of a network, whatever its users ask for and whatever happens
to its peers and its datagrams, each node asks for each destination in one event at most, and there are at most
as many queries as destinations that are asked for, times links. These destinations are what users request,
and where there are packets from the cards, the sources and destinations of these, and peers that were
removed. -/
theorem query_flood_finite {ι : Type} [DecidableEq ι] (lib : CryptoLib) (addr : ι → Ip46Addr)
    {net net' : NodeNetwork ι} {record : List (ι × Handled)} (hfresh : Fresh net)
    (hrun : NodeRun lib addr net record net') :
    Floods lib record ∧
      (queriesSent lib record).length ≤ (asked record).ncard * (links record).ncard ∧
      asked record ⊆ requested record ∪ addressed record ∪ removedPeers record ∧
      (addressed record = ∅ → asked record ⊆ requested record) := by
  refine ⟨⟨fun i dst => (askedOnce_of_run dst hrun).once i, fun act hact dst => ?_⟩,
    length_queriesSent_le hfresh hrun, fun dst hdst => ?_, fun hnone dst hdst => ?_⟩
  · by_cases hsent : queriesFor dst (act.2.sent lib) = []
    · exact ⟨[], 0, List.nil_sublist _, hsent⟩
    · exact ((askedSince_run lib act.2.before act.2.event).once dst hsent).2.2
  · obtain hrequested | ⟨-, haddressed | hremoved⟩ := asked_subset hfresh hrun hdst
    · exact .inl (.inl hrequested)
    · exact .inl (.inr haddressed)
    · exact .inr hremoved
  · obtain hrequested | ⟨hsome, -⟩ := asked_subset hfresh hrun hdst
    · exact hrequested
    · exact absurd hnone hsome.ne_empty

/-- Two nodes that are peers of each other. The first one is asked for a third one, and asks the second one,
which asks back; then the first one loses its peer. -/
theorem query_flood_finite_example :
    let lib := CryptoLib.sample
    let met := (sampleNode 1).after (sampleMeet 2)
    let met' := (sampleNode 2).after (sampleMeet 1)
    let searching := met.after (.request (sampleHip 9) ownReason 5)
    let askedBack := searching.after (sampleQuery 2 9 5)
    let record : List (Bool × Handled) :=
      [(false, ⟨askedBack, .op (.deletePeer (sampleHip 2))⟩), (false, ⟨searching, sampleQuery 2 9 5⟩),
        (true, ⟨met', sampleQuery 1 9 5⟩), (false, ⟨met, .request (sampleHip 9) ownReason 5⟩),
        (true, ⟨sampleNode 2, sampleMeet 1⟩), (false, ⟨sampleNode 1, sampleMeet 2⟩)]
    (queriesSent lib record).length = 2 ∧ 2 ≤ (asked record).ncard * (links record).ncard ∧
      asked record ⊆ requested record := by
  intro lib met met' searching askedBack record
  let addr : Bool → Ip46Addr := fun i => samplePip (if i then 2 else 1)
  let net : NodeNetwork Bool := { node := fun i => sampleNode (if i then 2 else 1), flight := [] }
  let query : Datagram Bool := { sender := false, addr := samplePip 2, octets := queryOctets (sampleHip 9) 5 }
  let query' : Datagram Bool := { sender := true, addr := samplePip 1, octets := queryOctets (sampleHip 9) 5 }
  have hfresh : Fresh net := ⟨fun i => ⟨_, _, _, _, _, rfl⟩, rfl⟩
  have hmeet : HandlesOwn lib false ⟨sampleNode 1, sampleMeet 2⟩ (sampleNode 1) met [] :=
    ⟨rfl, rfl, rfl, by decide +kernel⟩
  have hmeet' : HandlesOwn lib true ⟨sampleNode 2, sampleMeet 1⟩ (sampleNode 2) met' [] :=
    ⟨rfl, rfl, rfl, by decide +kernel⟩
  have hrequest : HandlesOwn lib false ⟨met, .request (sampleHip 9) ownReason 5⟩ met searching [query] :=
    ⟨rfl, rfl, rfl, by decide +kernel⟩
  have hask : HandlesDatagram lib addr true query ⟨met', sampleQuery 1 9 5⟩ met'
      (met'.after (sampleQuery 1 9 5)) [query'] :=
    ⟨rfl, rfl, rfl, rfl, by decide +kernel⟩
  have hback : HandlesDatagram lib addr false query' ⟨searching, sampleQuery 2 9 5⟩ searching askedBack [] :=
    ⟨rfl, rfl, rfl, rfl, by decide +kernel⟩
  have hdelete : HandlesOwn lib false ⟨askedBack, .op (.deletePeer (sampleHip 2))⟩ askedBack
      (askedBack.after (.op (.deletePeer (sampleHip 2)))) [] :=
    ⟨rfl, rfl, rfl, by decide +kernel⟩
  let net₁ := (net.act false met []).act true met' []
  let net₂ := (net₁.act false searching [query]).withFlight []
  let net₃ := (net₂.act true (met'.after (sampleQuery 1 9 5)) [query']).withFlight []
  have hrun₁ : NodeRun lib addr net _ net₁ := .own (.own .start hmeet) hmeet'
  have hrun₂ : NodeRun lib addr net _ (net₂.act true (met'.after (sampleQuery 1 9 5)) [query']) :=
    .deliver (.own hrun₁ hrequest) (List.nil_append [query]).symm hask
  have hrun : NodeRun lib addr net record ((net₃.act false askedBack []).act false
      (askedBack.after (.op (.deletePeer (sampleHip 2)))) []) :=
    .own (.deliver hrun₂ (List.nil_append [query']).symm hback) hdelete
  obtain ⟨-, hlength, -, hrequested⟩ := query_flood_finite lib addr hfresh hrun
  have htwo : (queriesSent lib record).length = 2 := by decide +kernel
  refine ⟨htwo, htwo ▸ hlength, hrequested (Set.eq_empty_of_forall_notMem ?_)⟩
  rintro hip ⟨act, hact, tunReadBuff, src, dst, hevent, -⟩
  simp only [record, List.mem_cons, List.not_mem_nil, or_false] at hact
  rcases hact with rfl | rfl | rfl | rfl | rfl | rfl <;> cases hevent

end Galaxy42
