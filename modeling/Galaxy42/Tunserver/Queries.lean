import Galaxy42.Tunserver.StoredRoutes

/-!
# Queries and replies

What a node sends because of a query. When it has a route, or the address is a peer, it sends a reply at
most (`finalState_answerQuery_of_tellable`); otherwise it looks for a route, which sends queries when there was
no search before.

Two things follow that are not what the program says it does:

* the cost in a reply is the cost of the route that is stored, and nothing is added to it on the way. So
  the cost that is stored along a chain of replies is always 1, and it is the number of hops for the
  neighbours of the owner only (`cost_of_knows`);
* the TTL of a query that is sent because of another one has nothing to do with the TTL of that one, which
  was lowered and limited into a variable that is not used. It is 5, or one less than the TTL of the query
  if that is more. So it is within the limits only when the TTL was 6 (`queries_within_iff`).

For the first, a chain of replies is an inductive predicate (`Knows`): a neighbour of the owner has looked it
up as a peer, and a node that has asked one that knows a route may learn one from the reply. Each node may be
in whatever state it is, as long as it accepts the reply and had no route before, so the chain is one of any
network in any run.

For the second, what is within the limits is stated for the octets that are sent (`queryTtl`, `QueryWithin`),
and the cases without a query are those of a lookup: the sender is not known, the TTL is too low, the address
is known, it was searched for, or there is nobody to ask (`AsksNobody`).
-/

namespace Galaxy42

open Toolkit Program TrivialSerialize Tunserver

variable {lib : CryptoLib} {node : Tunserver}

/-! ### The cost along a chain of replies -/

/-- What a reply says of TTL, cost and destination is what was written, whatever key follows. -/
theorem fields_of_popFindhipReply {ttl cost : UInt8} {hip : HashipAddr} {pubkey : Bytes}
    {reply : FindhipReply}
    (h : returned (within (parserOfBuffer (replyBin ttl cost hip pubkey)) popFindhipReply : Node _) node =
      some reply) :
    reply.ttl = ttl.toNat ∧ reply.cost = cost.toNat ∧ reply.goalHip = hip := by
  obtain ⟨node', hrun⟩ := returned_eq_some_iff.mp h
  obtain ⟨⟨c, hpop⟩, -⟩ := within_eq_ok_iff.mp hrun
  let rest : Bytes := semicolon :: (varstringOctets pubkey ++ [semicolon])
  have hstart : parserOfBuffer (replyBin ttl cost hip pubkey) =
      Cursor.between [] ([ttl] ++ ([semicolon] ++ ([cost] ++ ([semicolon] ++ (hip.octets ++ rest))))) :=
    rfl
  rw [hstart, popFindhipReply, bind_of_ok (reads_popByteU ttl _ _),
    bind_of_ok (reads_popByteSkip semicolon _ _), bind_of_ok (reads_popByteU cost _ _),
    bind_of_ok (reads_popByteSkip semicolon _ _), bind_of_ok (reads_popHip hip _ _)] at hpop
  obtain ⟨_, _, -, hpop⟩ := bind_eq_ok_iff.mp hpop
  obtain ⟨_, _, -, hpop⟩ := bind_eq_ok_iff.mp hpop
  obtain ⟨_, _, -, hpop⟩ := bind_eq_ok_iff.mp hpop
  obtain ⟨_, _, -, hpop⟩ := bind_eq_ok_iff.mp hpop
  cases hpop
  exact ⟨rfl, rfl, rfl⟩

/-- Nodes that know a route to an address over so many hops. The neighbour of the owner looks it up as a
peer; and who knows a route may answer the query of another node, which gets to know it from the reply. -/
inductive Knows (lib : CryptoLib) (goal : HashipAddr) : ℕ → Tunserver → Prop
  | neighbour {node : Tunserver} {event : Event} {route : RouteInfo}
      (hlearned : node.learned lib event = some (goal, route))
      (hdirect : node.directRouteTo goal = some route) (hnew : node.routeTo goal = none) :
      Knows lib goal 1 (finalState (event.run lib) node)
  | later {hops : ℕ} {node : Tunserver} (h : Knows lib goal hops node) (event : Event) :
      Knows lib goal hops (finalState (event.run lib) node)
  | relay {hops : ℕ} {node node' : Tunserver} {senderPip senderPip' addr : Ip46Addr}
      {buf data : Bytes} {sender : Peering} {ttl : ℤ} {route : RouteInfo}
      (h : Knows lib goal hops node)
      (hquery : node.acceptedQuery senderPip buf = some (sender, goal, ttl))
      (hsent : (finalState ((Event.datagram senderPip buf).run lib) node).sent =
        (addr, data) :: node.sent)
      (hreplied : node'.Replied lib (.datagram senderPip' data) goal route)
      (hnew : node'.routeTo goal = none) :
      Knows lib goal (hops + 1) (finalState ((Event.datagram senderPip' data).run lib) node')

/-- The cost that is stored along a chain of replies is 1. So it is the number of hops exactly for the
neighbours of the owner. It does not matter which nodes the chain goes through, nor what has happened to them
before and after. -/
theorem cost_of_knows {goal : HashipAddr} {hops : ℕ} (h : Knows lib goal hops node) :
    ∃ route, node.routeTo goal = some route ∧ route.cost = 1 ∧ (route.cost = hops ↔ hops = 1) := by
  have hcost : ∃ route, node.routeTo goal = some route ∧ route.cost = 1 := by
    induction h with
    | neighbour hlearned hdirect hnew =>
      exact ⟨_, routeTo_finalState_of_new hlearned hnew, cost_of_directRouteTo hdirect⟩
    | later _ event ih =>
      obtain ⟨route, hroute, hcost⟩ := ih
      exact ⟨route, routeTo_finalState_of_known hroute, hcost⟩
    | @relay hops node node' senderPip senderPip' addr buf data sender ttl route h hquery hsent
        hreplied hnew ih =>
      obtain ⟨known, hknown, hcost⟩ := ih
      refine ⟨route, routeTo_finalState_of_new hreplied.learned hnew, ?_⟩
      -- The only datagram that the other node has sent is its reply.
      have hdata : data = toldOctets ttl goal known := by
        rw [finalState_run] at hsent
        obtain hsame | ⟨told, hfor, -, htold⟩ :=
          sent_of_query_with_route lib hquery (.inr (by rw [hknown]; rfl))
        · exact absurd (hsent.symm.trans hsame) (List.cons_ne_self _ _)
        · obtain rfl := eq_of_routeFor_of_known hfor hknown
          exact (Prod.mk.inj (List.cons.inj (hsent.symm.trans htold)).1).2
      obtain ⟨hreply, -⟩ := hreplied
      obtain ⟨-, -, hparse, -⟩ := of_acceptedReply hreply
      rw [hdata] at hparse
      have hfields := fields_of_popFindhipReply hparse
      rw [repliedRoute, hfields.2.1, hcost]
      rfl
  obtain ⟨route, hroute, hone⟩ := hcost
  exact ⟨route, hroute, hone, by rw [hone, eq_comm]⟩

/-- A node that has the owner as a peer, and has looked it up. -/
def neighbourOfOwner : Tunserver :=
  ((((sampleNode 2).after (sampleMeet 9)).after (sampleMeet 1)).after
    (.request (sampleHip 9) ownReason 5))

/-- A node that has the neighbour of the owner as a peer. -/
def secondFromOwner : Tunserver := (sampleNode 1).after (sampleMeet 2)

/-- A chain of two hops. -/
theorem knows_sample :
    Knows CryptoLib.sample (sampleHip 9) 2 (secondFromOwner.after (sampleReply 2 5 1 9 9)) := by
  let before := ((sampleNode 2).after (sampleMeet 9)).after (sampleMeet 1)
  have hnew : ∀ {node : Tunserver}, (node.routeTo (sampleHip 9)).isNone = true →
      node.routeTo (sampleHip 9) = none := Option.isNone_iff_eq_none.mp
  obtain ⟨direct, hdirect⟩ := Option.isSome_iff_exists.mp
    (show (before.directRouteTo (sampleHip 9)).isSome = true by decide +kernel)
  have hneighbour : Knows CryptoLib.sample (sampleHip 9) 1 neighbourOfOwner :=
    .neighbour (learned_request hdirect ownReason 5) hdirect (hnew (by decide +kernel))
  have hquery : (neighbourOfOwner.acceptedQuery (samplePip 1) (queryOctets (sampleHip 9) 5)).map
      Prod.snd = some (sampleHip 9, 5) := by decide +kernel
  obtain ⟨⟨sender, hip, ttl⟩, haccepted, heq⟩ := Option.map_eq_some_iff.mp hquery
  obtain ⟨rfl, rfl⟩ := Prod.mk.inj heq
  have hlearned : (secondFromOwner.learned CryptoLib.sample (sampleReply 2 5 1 9 9)).map Prod.fst =
      some (sampleHip 9) := by decide +kernel
  obtain ⟨⟨goal, route⟩, hroute, rfl⟩ := Option.map_eq_some_iff.mp hlearned
  have hreplied : secondFromOwner.Replied CryptoLib.sample (sampleReply 2 5 1 9 9)
      (sampleHip 9) route := by
    refine (replied_or_direct hroute).resolve_right fun hself => ?_
    have hnone : (secondFromOwner.directRouteTo (sampleHip 9)).isNone = true := by decide +kernel
    rw [Option.isNone_iff_eq_none.mp hnone] at hself
    cases hself
  have hsent : (finalState ((sampleQuery 1 9 5).run CryptoLib.sample) neighbourOfOwner).sent =
      (samplePip 1, replyOctets 5 1 (sampleHip 9) (sampleKeyBin 9)) :: neighbourOfOwner.sent := by
    decide +kernel
  exact .relay hneighbour haccepted hsent hreplied (hnew (by decide +kernel))

/-- The second node from the owner stores a cost of 1. -/
theorem cost_of_knows_example :
    ∃ route, (secondFromOwner.after (sampleReply 2 5 1 9 9)).routeTo (sampleHip 9) = some route ∧
      route.cost = 1 ∧ (route.cost = 2 ↔ 2 = 1) :=
  cost_of_knows knows_sample

/-- The cost is not the number of hops. -/
theorem not_cost_eq_hops :
    ¬ ∀ lib goal hops node route, Knows lib goal hops node → node.routeTo goal = some route →
      route.cost = hops := by
  intro h
  have hcost : ((secondFromOwner.after (sampleReply 2 5 1 9 9)).routeTo (sampleHip 9)).map
      (fun route => route.cost) = some 1 := by decide +kernel
  obtain ⟨route, hroute, hone⟩ := Option.map_eq_some_iff.mp hcost
  have htwo := h _ _ _ _ route knows_sample hroute
  rw [hone] at htwo
  exact absurd htwo (by decide)

/-! ### The TTL of queries -/

/-- The TTL in a query, behind the address. -/
def queryTtl (data : Bytes) : Option UInt8 := data[2 + hashipAddrSize + 1]?

/-- The TTL of a query that is sent because of a query with a TTL one above the bound: it is in the bound, and
in the configured one, and no query is sent when the bound is 0 or less. It is read off the octets of the
query, behind the address. -/
def QueryWithin (bound : ℤ) (data : Bytes) : Prop :=
  ∃ ttl, queryTtl data = some ttl ∧ (ttl.toNat : ℤ) ≤ bound ∧ (ttl.toNat : ℤ) ≤ ttlMaxAccepted ∧
    0 < bound

theorem queryTtl_queryOctets (hip : HashipAddr) (ttl : UInt8) :
    queryTtl (queryOctets hip ttl) = some ttl := by
  have hlen := hip.length_octets
  change (hip.octets ++ [semicolon, ttl, semicolon])[hashipAddrSize + 1]? = some ttl
  rw [List.getElem?_append_right (by rw [hlen]; decide), hlen]
  rfl

theorem datagramCmd_queryOctets (hip : HashipAddr) (ttl : UInt8) :
    datagramCmd (queryOctets hip ttl) = some .findhipQuery :=
  datagramCmd_cmdOctets _ _

/-- The TTL of a query that can be read is a `char`. -/
theorem ttl_le_of_parseFindhipQuery {cmdData : Bytes} {hip : HashipAddr} {ttl : ℤ}
    (h : returned (parseFindhipQuery cmdData : Node _) node = some (hip, ttl)) : ttl ≤ 127 := by
  obtain ⟨node', hrun⟩ := returned_eq_some_iff.mp h
  obtain ⟨_, _, -, hrun⟩ := bind_eq_ok_iff.mp hrun
  obtain ⟨_, _, -, hrun⟩ := bind_eq_ok_iff.mp hrun
  obtain ⟨_, _, -, hrun⟩ := bind_eq_ok_iff.mp hrun
  obtain ⟨octet, _, -, hrun⟩ := bind_eq_ok_iff.mp hrun
  cases hrun
  exact Int8.toInt_le octet.toInt8

/-- A query is accepted when its sender is known and its TTL is not too low. -/
theorem acceptedQuery_of_parse {senderPip : Ip46Addr} {buf : Bytes} {hip : HashipAddr} {ttl : ℤ}
    (hcmd : datagramCmd buf = some .findhipQuery)
    (hparse : returned (parseFindhipQuery (buf.drop 2) : Node _) node = some (hip, ttl)) :
    node.acceptedQuery senderPip buf =
      (node.senderOf senderPip).bind fun sender => if ttl < 1 then none else some (sender, hip, ttl) := by
  simp [acceptedQuery, hcmd, hparse]

/-- A query that is not accepted changes nothing. -/
private theorem finalState_of_query_not_accepted {senderPip : Ip46Addr} {buf : Bytes}
    (hcmd : datagramCmd buf = some .findhipQuery) (h : node.acceptedQuery senderPip buf = none) :
    finalState (handleDatagram lib senderPip buf) node = node :=
  finalState_handleDatagram_of_none (by simp [acceptedPacket, hcmd]) h (by simp [acceptedReply, hcmd])
    (by simp [greeting, hcmd])

/-- A node does not ask others because of a query: the sender is not known, the TTL is too low, it knows
the address, it has searched for it before, or it reaches no peer. -/
def Tunserver.AsksNobody (node : Tunserver) (senderPip : Ip46Addr) (hip : HashipAddr) (ttl : ℤ) : Prop :=
  node.senderOf senderPip = none ∨ ttl < 1 ∨ hip ∈ node.peer ∨ (node.routeTo hip).isSome ∨
    (node.searchFor hip).isSome ∨ node.reachedPeers = []

/-- A query with the TTL that is sent is within the limits of no bound but 5. -/
theorem queryWithin_iff {bound : ℤ} (hlt : bound < 256) (hip : HashipAddr) :
    QueryWithin bound (queryOctets hip (UInt8.ofInt (max 5 bound))) ↔ bound = 5 := by
  have httl : ((UInt8.ofInt (max 5 bound)).toNat : ℤ) = max 5 bound :=
    toNat_ofInt_of_lt (by omega) (by omega)
  have hmax : ttlMaxAccepted = 5 := rfl
  unfold QueryWithin
  rw [queryTtl_queryOctets]
  constructor
  · rintro ⟨ttl, hsent, hle, hconf, -⟩
    obtain rfl := Option.some.inj hsent
    omega
  · rintro rfl
    exact ⟨_, rfl, by omega, by omega, by omega⟩

/-- The queries that are sent because of a query are within the limits of its TTL exactly when none is sent,
or the TTL was 6. This is one statement for all nodes and all queries: where some are sent, their TTL is 5, or
one less than the TTL of the query if that is more. -/
theorem queries_within_iff (lib : CryptoLib) (node : Tunserver) (senderPip : Ip46Addr) (buf : Bytes)
    (hip : HashipAddr) (ttl : ℤ) (hcmd : datagramCmd buf = some .findhipQuery)
    (hparse : returned (parseFindhipQuery (buf.drop 2) : Node _) node = some (hip, ttl)) :
    (∀ d ∈ (finalState ((Event.datagram senderPip buf).run lib) node).sentSince node,
      datagramCmd d.2 = some .findhipQuery → QueryWithin (ttl - 1) d.2) ↔
    node.AsksNobody senderPip hip ttl ∨ ttl = 6 := by
  have haccept : node.acceptedQuery senderPip buf = _ := acceptedQuery_of_parse hcmd hparse
  have hle := ttl_le_of_parseFindhipQuery hparse
  rw [finalState_run, Event.handle, Tunserver.AsksNobody]
  -- Where no query is sent, both sides hold.
  have hnone : ∀ new, (finalState (handleDatagram lib senderPip buf) node).sent = new ++ node.sent →
      (∀ d ∈ new, datagramCmd d.2 ≠ some .findhipQuery) →
      ∀ d ∈ (finalState (handleDatagram lib senderPip buf) node).sentSince node,
        datagramCmd d.2 = some .findhipQuery → QueryWithin (ttl - 1) d.2 := by
    intro new hsent hno d hd hquery
    rw [sentSince_of_append hsent] at hd
    exact absurd hquery (hno d hd)
  cases hsender : node.senderOf senderPip with
  | none =>
    rw [hsender] at haccept
    have hsame : finalState (handleDatagram lib senderPip buf) node = node :=
      finalState_of_query_not_accepted hcmd haccept
    exact iff_of_true (hnone [] (by rw [hsame]; rfl) fun _ hd => by cases hd) (.inl (.inl rfl))
  | some sender =>
  by_cases httl : ttl < 1
  · rw [hsender, Option.bind_some, if_pos httl] at haccept
    have hsame : finalState (handleDatagram lib senderPip buf) node = node :=
      finalState_of_query_not_accepted hcmd haccept
    exact iff_of_true (hnone [] (by rw [hsame]; rfl) fun _ hd => by cases hd)
      (.inl (.inr (.inl httl)))
  rw [hsender, Option.bind_some, if_neg httl] at haccept
  by_cases hknown : hip ∈ node.peer ∨ (node.routeTo hip).isSome
  · refine iff_of_true ?_ (.inl (.inr (.inr (hknown.imp_right .inl))))
    obtain hsame | ⟨route, -, -, hreply⟩ := sent_of_query_with_route lib haccept hknown
    · exact hnone [] hsame fun _ hd => by cases hd
    · refine hnone [_] hreply fun d hd hquery => ?_
      obtain rfl := List.mem_singleton.mp hd
      rw [toldOctets, replyOctets, datagramCmd_cmdOctets] at hquery
      cases hquery
  obtain ⟨hpeer, hroute⟩ := not_or.mp hknown
  obtain ⟨m, hstate, -⟩ := finalState_searchRoute hip
    { hisAddr := sender.getHip, searchMode := .helpFind } (ttl - 1) node
  rw [← finalState_of_query_without_route haccept hpeer (by simpa using hroute)] at hstate
  have hsent : (finalState (handleDatagram lib senderPip buf) node).sent =
      ((node.askedPeers hip (ttl - 1)).map fun p =>
        (p.getPip, queryOctets hip (UInt8.ofInt (max 5 (ttl - 1))))).reverse ++ node.sent := by
    rw [hstate]
    rfl
  rw [sentSince_of_append hsent]
  simp only [List.mem_reverse, List.forall_mem_map, datagramCmd_queryOctets, forall_const,
    queryWithin_iff (show ttl - 1 < 256 by omega)]
  have hfit : ¬ 256 ≤ ttl - 1 := by omega
  rw [askedPeers]
  cases hsearch : (node.searchFor hip).isSome with
  | true => simp
  | false =>
    simp only [Bool.false_eq_true, hfit, or_self, if_false, reduceCtorEq, httl, hpeer, hroute, false_or]
    cases node.reachedPeers with
    | nil => simp
    | cons p ps =>
      simp only [List.mem_cons, reduceCtorEq, false_or]
      constructor
      · intro h
        have hbound := h p (.inl rfl)
        omega
      · rintro rfl _ _
        rfl

/-- A node with two peers. -/
def betweenPeers : Tunserver := ((sampleNode 1).after (sampleMeet 2)).after (sampleMeet 3)

/-- A query with a TTL of 6 makes a node ask its peers within the limits. -/
theorem queries_within_iff_example :
    let sent := (betweenPeers.after (sampleQuery 2 9 6)).sentSince betweenPeers
    sent.length = 2 ∧
      ∀ d ∈ sent, datagramCmd d.2 = some .findhipQuery → QueryWithin 5 d.2 :=
  ⟨by decide +kernel, (queries_within_iff CryptoLib.sample betweenPeers (samplePip 2)
    (queryOctets (sampleHip 9) 6) (sampleHip 9) 6 (by decide) (by decide +kernel)).mpr (.inr rfl)⟩

/-- A query with a TTL of 1 makes a node ask its peers with a TTL of 5. -/
theorem not_queries_within :
    ¬ ∀ lib node senderPip buf hip ttl, Reached lib (fun _ _ => True) node →
      datagramCmd buf = some .findhipQuery →
      returned (parseFindhipQuery (buf.drop 2) : Node _) node = some (hip, ttl) →
      ∀ d ∈ (finalState ((Event.datagram senderPip buf).run lib) node).sentSince node,
        datagramCmd d.2 = some .findhipQuery → QueryWithin (ttl - 1) d.2 := by
  intro h
  have hreached : Reached CryptoLib.sample (fun _ _ => True) betweenPeers :=
    ((reached_sampleNode 1).after trivial (by decide +kernel)).after trivial (by decide +kernel)
  have hsent : (samplePip 3, queryOctets (sampleHip 9) 5) ∈
      (betweenPeers.after (sampleQuery 2 9 1)).sentSince betweenPeers := by decide +kernel
  have hwithin := h _ _ (samplePip 2) (queryOctets (sampleHip 9) 1) (sampleHip 9) 1 hreached (by decide)
    (by decide +kernel) _ hsent (by decide)
  obtain ⟨_, _, _, _, hpos⟩ := hwithin
  exact absurd hpos (by decide)

end Galaxy42
