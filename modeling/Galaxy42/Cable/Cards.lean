import Galaxy42.Cable.IoserviceManager
import Galaxy42.Cable.MakeAddr
import Galaxy42.Lib.Octets

/-!
# The cards of the cables

`c_cable_cards` keeps one card for each selector, in a `std::map` whose keys are compared by the addresses.
A card is made when it is asked for and is not there. As the order is total, a card is made once for each
selector, and a card that cannot be made leaves the others as they were (`cards_of_strictTotalOn`).

Cards have an identity: two cards for one endpoint are different objects with different sockets. So a card
carries the number under which it was made, and numbers are given out in order. That the same selector gets
the same card is then an equality of cards, and not only of what they are made for.

What a call of `get_card` can do is one lemma (`getCard_cases`): it finds the card that is there, or it makes
one and adds it, or it throws what making it throws. It throws only where there is a reason to (`Refused`): the
selector is not one of UDP, or the operating system refuses. The results of the operating system are given to
each call, so that a statement about all calls is one about all that it may do. After any calls the entries
are exactly the cards that were returned (`mem_after_iff`), and a further call for a selector of UDP returns
the card, stored, whenever nothing is refused.

The service that a new card gets comes from a manager of one service, which is made when there is none.
-/

namespace Galaxy42

open Toolkit Program SearchTree

/-- `c_cable_udp`, with a number that tells it from all other cards. -/
structure CableUdp (Endpoint : Type) where
  id : ℕ
  /-- `m_io_service`, as the index of the service. -/
  ioService : ℕ
  /-- The endpoint of `m_write_socket`. -/
  writeEndpoint : Endpoint
  deriving DecidableEq

/-- `c_cable_cards` -/
structure CableCards (Endpoint : Type) where
  /-- `m_cards` -/
  cards : SearchTree (CardSelector Endpoint) (CableUdp Endpoint)
  /-- `m_asioservice_manager` -/
  asioserviceManager : Option IoserviceManager
  /-- How many cards were made. -/
  made : ℕ

/-- How the system answers in a call: what the constructors of the manager and of the sockets do. -/
structure SystemAnswer where
  manager : Except Exn Unit
  sockets : Except Exn Unit

namespace CableCards

variable {Endpoint : Type} (ltEndpoint : Endpoint → Endpoint → Bool)
  (rebalancing : Rebalancing (CardSelector Endpoint) (CableUdp Endpoint)) (answer : SystemAnswer)

/-! ### The methods -/

/-- A manager of one service. -/
def makeManager : Program Exn (CableCards Endpoint) IoserviceManager := do
  fromExcept answer.manager
  let made ← withinState (IoserviceManager.initial 1) (IoserviceManager.construct 1)
  return made.2

/-- `get_asioservice` -/
def getAsioservice : Program Exn (CableCards Endpoint) IoserviceManager := do
  let self ← get
  match self.asioserviceManager with
  | none => do
    let manager ← makeManager answer
    modify fun self => { self with asioserviceManager := some manager }
    return manager
  | some manager => return manager

/-- The constructor of `c_cable_udp`. -/
def makeCableUdp (manager : IoserviceManager) (endpoint : Endpoint) :
    Program Exn (CableCards Endpoint) (CableUdp Endpoint) := do
  let (ioService, manager) ← withinState manager IoserviceManager.getNextIoservice
  modify fun self => { self with asioserviceManager := some manager }
  fromExcept answer.sockets
  let self ← get
  set { self with made := self.made + 1 }
  return { id := self.made, ioService, writeEndpoint := endpoint }

/-- `create_card` -/
def createCard (selector : CardSelector Endpoint) :
    Program Exn (CableCards Endpoint) (CableUdp Endpoint) :=
  match selector.myAddr with
  | .udp endpoint => do
    let manager ← getAsioservice answer
    makeCableUdp answer manager endpoint
  | _ => raise (.runtimeError "unsupported cable kind")

/-- `get_card`: the card of a selector that is there, or a new one, which is put into the map. The map
compares by what `operator<` returns (`CardSelector.less_eq`). -/
def getCard (selector : CardSelector Endpoint) : Program Exn (CableCards Endpoint) (CableUdp Endpoint) := do
  let self ← get
  match self.cards.find (CardSelector.lt ltEndpoint) selector with
  | some found => return found.2
  | none => do
    let card ← createCard answer selector
    modify fun self =>
      { self with cards := self.cards.emplace (CardSelector.lt ltEndpoint) rebalancing selector card }
    let lessSelf ← fromExcept (selector.less ltEndpoint selector)
    checkThat (lessSelf = false) (.runtimeError "! ( selector < selector )")
    let self ← get
    match self.cards.find (CardSelector.lt ltEndpoint) selector with
    | some found => return found.2
    | none => raise .outOfRange

/-- No cards yet. -/
def empty : CableCards Endpoint where
  cards := .leaf
  asioserviceManager := none
  made := 0

/-! ### Sequences of calls -/

/-- One call of `get_card`. -/
structure Call (Endpoint : Type) where
  selector : CardSelector Endpoint
  answer : SystemAnswer

/-- The cards after some calls. -/
def after (self : CableCards Endpoint) : List (Call Endpoint) → CableCards Endpoint
  | [] => self
  | call :: calls =>
    after (finalState (getCard ltEndpoint rebalancing call.answer call.selector) self) calls

/-- The selectors that some calls returned a card for, each with the card. -/
def returnedCards (self : CableCards Endpoint) :
    List (Call Endpoint) → List (CardSelector Endpoint × CableUdp Endpoint)
  | [] => []
  | call :: calls =>
    let getCall := getCard ltEndpoint rebalancing call.answer call.selector
    ((returned getCall self).map fun card => (call.selector, card)).toList ++
      returnedCards (finalState getCall self) calls

/-! ### What the methods do -/

variable {ltEndpoint rebalancing answer} {self : CableCards Endpoint}

/-- What holds of the cards after any calls. -/
structure Invariant (ltEndpoint : Endpoint → Endpoint → Bool) (c : CableCards Endpoint) : Prop where
  sorted : Sorted (CardSelector.lt ltEndpoint) c.cards
  nodup_ids : (c.cards.toList.map fun e => e.2.id).Nodup
  id_lt : ∀ e ∈ c.cards.toList, e.2.id < c.made
  manager : ∀ manager, c.asioserviceManager = some manager → manager.Invariant

/-- The manager of the cards may be another one, all else is the same. -/
structure OnlyManager (c c' : CableCards Endpoint) : Prop where
  cards : c'.cards = c.cards
  made : c'.made = c.made
  manager : ∀ manager, c'.asioserviceManager = some manager → manager.Invariant

/-- A manager of one service is made, or not. -/
private theorem makeManager_cases (answer : SystemAnswer) (self : CableCards Endpoint) :
    (∃ manager, makeManager answer self = .ok manager self ∧ manager.Invariant) ∨
      ∃ e, answer.manager = .error e ∧ makeManager answer self = .error (.throw e) self := by
  have hnew : IoserviceManager.IsNew 1 ((IoserviceManager.initial 1).grow 1) :=
    IoserviceManager.isNew_iff.mpr ⟨⟨by decide, by decide⟩, rfl⟩
  rw [makeManager]
  cases answer.manager with
  | error e => exact .inr ⟨e, rfl, rfl⟩
  | ok u =>
    have hmade : (withinState (IoserviceManager.initial 1) (IoserviceManager.construct 1) :
        Program Exn (CableCards Endpoint) (Unit × IoserviceManager)) self =
          .ok ((), (IoserviceManager.initial 1).grow 1) self :=
      withinState_eq_ok_iff.mpr ⟨hnew, rfl⟩
    exact .inl ⟨_, (bind_of_ok rfl).trans (bind_of_ok hmade), .of_isNew hnew⟩

/-- `get_asioservice` finds a manager or makes one, or throws what the system does. -/
private theorem getAsioservice_cases
    (h : ∀ manager, self.asioserviceManager = some manager → manager.Invariant)
    (answer : SystemAnswer) :
    (∃ manager self', getAsioservice answer self = .ok manager self' ∧ manager.Invariant ∧
        OnlyManager self self') ∨
      ∃ e, answer.manager = .error e ∧ getAsioservice answer self = .error (.throw e) self := by
  rw [getAsioservice, bind_of_ok (get_apply self)]
  cases hmanager : self.asioserviceManager with
  | some manager => exact .inl ⟨manager, self, rfl, h manager hmanager, rfl, rfl, h⟩
  | none =>
    rcases makeManager_cases answer self with ⟨manager, hmade, hinv⟩ | ⟨e, hanswer, herror⟩
    · refine .inl ⟨manager, _, (bind_of_ok hmade).trans (bind_of_ok rfl), hinv, rfl, rfl, ?_⟩
      rintro manager' heq
      obtain rfl := Option.some.inj heq
      exact hinv
    · exact .inr ⟨e, hanswer, bind_of_error herror⟩

/-- A card is made with a new number, or not made. -/
private theorem makeCableUdp_cases {manager : IoserviceManager} (h : manager.Invariant)
    (answer : SystemAnswer)
    (endpoint : Endpoint) (self : CableCards Endpoint) :
    (∃ card self', makeCableUdp answer manager endpoint self =
        .ok card { self' with made := self.made + 1 } ∧ card.id = self.made ∧ OnlyManager self self') ∨
      ∃ e self', answer.sockets = .error e ∧
        makeCableUdp answer manager endpoint self = .error (.throw e) self' ∧
        OnlyManager self self' := by
  have honly : OnlyManager self { self with asioserviceManager := some manager.advance } := by
    refine ⟨rfl, rfl, ?_⟩
    rintro manager' heq
    obtain rfl := Option.some.inj heq
    exact h.advance
  have hnext : (withinState manager IoserviceManager.getNextIoservice :
      Program Exn (CableCards Endpoint) (ℕ × IoserviceManager)) self =
        .ok ((manager.lastIoservice + 1) % manager.size, manager.advance) self :=
    withinState_eq_ok_iff.mpr ⟨IoserviceManager.getNextIoservice_apply h, rfl⟩
  rw [makeCableUdp, bind_of_ok hnext]
  cases answer.sockets with
  | error e => exact .inr ⟨e, _, rfl, rfl, honly⟩
  | ok u => exact .inl ⟨_, _, rfl, rfl, honly⟩

/-- Why no card can be made: the cable is not of UDP, or the system refuses. -/
def Refused (answer : SystemAnswer) (selector : CardSelector Endpoint) : Prop :=
  (∀ endpoint, selector.myAddr ≠ .udp endpoint) ∨
    (∃ e, answer.manager = .error e) ∨ ∃ e, answer.sockets = .error e

/-- `create_card` makes a card with a new number, or throws because it cannot be made. -/
private theorem createCard_cases (h : ∀ manager, self.asioserviceManager = some manager → manager.Invariant)
    (answer : SystemAnswer) (selector : CardSelector Endpoint) :
    (∃ card self', createCard answer selector self = .ok card { self' with made := self.made + 1 } ∧
        card.id = self.made ∧ OnlyManager self self') ∨
      ∃ e self', Refused answer selector ∧
        createCard answer selector self = .error (.throw e) self' ∧ OnlyManager self self' := by
  rw [createCard]
  cases haddr : selector.myAddr with
  | simul addr =>
    exact .inr ⟨_, self, (.inl fun _ hudp => nomatch haddr.symm.trans hudp), rfl, rfl, rfl, h⟩
  | shm addr =>
    exact .inr ⟨_, self, (.inl fun _ hudp => nomatch haddr.symm.trans hudp), rfl, rfl, rfl, h⟩
  | udp endpoint =>
    rcases getAsioservice_cases h answer with
      ⟨manager, self₁, hmanager, hinv, honly⟩ | ⟨e, hanswer, herror⟩
    · simp only [bind_of_ok hmanager]
      rcases makeCableUdp_cases hinv answer endpoint self₁ with
        ⟨card, self₂, hcard, hid, honly'⟩ | ⟨e, self₂, hanswer, herror, honly'⟩
      · refine .inl ⟨card, self₂, ?_, hid.trans honly.made, ?_⟩
        · rw [hcard, honly.made]
        · exact ⟨honly'.cards.trans honly.cards, honly'.made.trans honly.made, honly'.manager⟩
      · exact .inr ⟨e, self₂, .inr (.inr ⟨e, hanswer⟩), herror, honly'.cards.trans honly.cards,
          honly'.made.trans honly.made, honly'.manager⟩
    · exact .inr ⟨e, self, .inr (.inl ⟨e, hanswer⟩), bind_of_error herror, rfl, rfl, h⟩

/-- What `get_card` does: it finds a card, or adds the one it makes, or throws what making it throws. All
results about cards rest on this one, since nothing else changes the map. -/
theorem getCard_cases (htotal : StrictTotalOn ltEndpoint Set.univ) (h : Invariant ltEndpoint self)
    (rebalancing : Rebalancing (CardSelector Endpoint) (CableUdp Endpoint)) (answer : SystemAnswer)
    (selector : CardSelector Endpoint) :
    (∃ card, (selector, card) ∈ self.cards.toList ∧
      getCard ltEndpoint rebalancing answer selector self = .ok card self) ∨
    selector ∉ self.cards.keys ∧
      ((∃ card self', card.id = self.made ∧ OnlyManager self self' ∧
        createCard answer selector self = .ok card { self' with made := self.made + 1 } ∧
        getCard ltEndpoint rebalancing answer selector self = .ok card
          { self' with
            cards := self.cards.emplace (CardSelector.lt ltEndpoint) rebalancing selector card
            made := self.made + 1 }) ∨
      ∃ e self', Refused answer selector ∧ OnlyManager self self' ∧
        createCard answer selector self = .error (.throw e) self' ∧
        getCard ltEndpoint rebalancing answer selector self = .error (.throw e) self') := by
  have hlt := CardSelector.strictTotalOn_lt htotal
  have hin : ∀ t : SearchTree (CardSelector Endpoint) (CableUdp Endpoint), KeysIn Set.univ t :=
    fun _ _ _ => trivial
  have hget : getCard ltEndpoint rebalancing answer selector self = _ := bind_of_ok (get_apply self)
  cases hfind : self.cards.find (CardSelector.lt ltEndpoint) selector with
  | some found =>
    obtain ⟨hmem, rfl⟩ := (find_eq_some_iff hlt trivial (hin _) h.sorted).mp hfind
    rw [hfind] at hget
    exact .inl ⟨found.2, hmem, hget⟩
  | none =>
    have hnew := (find_eq_none_iff hlt trivial (hin _) h.sorted).mp hfind
    rw [hfind] at hget
    refine .inr ⟨hnew, ?_⟩
    rcases createCard_cases h.manager answer selector with
      ⟨card, self', hcreate, hid, honly⟩ | ⟨e, self', hrefused, herror, honly⟩
    · refine .inl ⟨card, self', hid, honly, hcreate, hget.trans ((bind_of_ok hcreate).trans ?_)⟩
      have hsorted := Sorted.emplace hlt trivial (hin _) hnew (v := card) rebalancing h.sorted
      have hmem : (selector, card) ∈
          (self.cards.emplace (CardSelector.lt ltEndpoint) rebalancing selector card).toList :=
        (perm_emplace hlt trivial (hin _) hnew rebalancing).mem_iff.mpr List.mem_cons_self
      have hfound := (find_eq_some_iff hlt trivial (hin _) hsorted).mpr ⟨hmem, rfl⟩
      have hless : selector.less ltEndpoint selector = .ok false := by
        rw [CardSelector.less_eq, hlt.irrefl selector trivial]
      refine (bind_of_ok rfl).trans ?_
      rw [hless, honly.cards]
      refine (bind_of_ok rfl).trans ((bind_of_ok rfl).trans ((bind_of_ok (get_apply _)).trans ?_))
      simp only [hfound]
      rfl
    · exact .inr ⟨e, self', hrefused, honly, herror, hget.trans (bind_of_error herror)⟩

/-! ### Runs -/

variable (rebalancing) in
/-- The entries after a call: those before, and the one that the call returns. -/
private theorem mem_finalState_getCard (htotal : StrictTotalOn ltEndpoint Set.univ)
    (h : Invariant ltEndpoint self) (call : Call Endpoint)
    (e : CardSelector Endpoint × CableUdp Endpoint) :
    e ∈ (finalState (getCard ltEndpoint rebalancing call.answer call.selector) self).cards.toList ↔
      e ∈ self.cards.toList ∨
        (returned (getCard ltEndpoint rebalancing call.answer call.selector) self).map
          (fun card => (call.selector, card)) = some e := by
  rcases getCard_cases htotal h rebalancing call.answer call.selector with
    ⟨card, hmem, hget⟩ | ⟨hnew, ⟨card, self', -, -, -, hget⟩ | ⟨fault, self', -, honly, -, hget⟩⟩
  · rw [finalState_of_ok hget, returned, hget]
    simp only [Option.map_some, Option.some.injEq]
    refine ⟨.inl, ?_⟩
    rintro (he | rfl)
    · exact he
    · exact hmem
  · have hperm := perm_emplace (CardSelector.strictTotalOn_lt htotal) trivial (fun _ _ => trivial) hnew
      (v := card) rebalancing
    rw [finalState_of_ok hget, returned, hget]
    simp only [Option.map_some, Option.some.injEq]
    rw [hperm.mem_iff, List.mem_cons, or_comm, eq_comm]
  · rw [finalState_of_error hget, returned, hget, honly.cards]
    simp

variable (rebalancing) in
private theorem Invariant.finalState_getCard (htotal : StrictTotalOn ltEndpoint Set.univ)
    (h : Invariant ltEndpoint self) (call : Call Endpoint) :
    Invariant ltEndpoint
      (finalState (getCard ltEndpoint rebalancing call.answer call.selector) self) := by
  rcases getCard_cases htotal h rebalancing call.answer call.selector with
    ⟨card, -, hget⟩ | ⟨hnew, ⟨card, self', hid, honly, -, hget⟩ | ⟨fault, self', -, honly, -, hget⟩⟩
  · rw [finalState_of_ok hget]
    exact h
  · have hlt := CardSelector.strictTotalOn_lt htotal
    have hperm := perm_emplace hlt trivial (fun _ _ => trivial) hnew (v := card) rebalancing
    rw [finalState_of_ok hget]
    exact {
      sorted := Sorted.emplace hlt trivial (fun _ _ => trivial) hnew rebalancing h.sorted
      nodup_ids := by
        refine (hperm.map fun e => e.2.id).nodup_iff.mpr (List.nodup_cons.mpr ⟨?_, h.nodup_ids⟩)
        intro hmem
        obtain ⟨e, he, heq⟩ := List.mem_map.mp hmem
        exact absurd (h.id_lt e he) (Nat.not_lt.mpr (hid.symm.trans heq.symm).le)
      id_lt := fun e he => by
        rcases List.mem_cons.mp (hperm.mem_iff.mp he) with rfl | he
        · exact hid.trans_lt (Nat.lt_succ_self _)
        · exact (h.id_lt e he).trans (Nat.lt_succ_self _)
      manager := honly.manager }
  · rw [finalState_of_error hget]
    exact {
      sorted := honly.cards ▸ h.sorted
      nodup_ids := honly.cards ▸ h.nodup_ids
      id_lt := fun e he => by
        rw [honly.cards] at he
        rw [honly.made]
        exact h.id_lt e he
      manager := honly.manager }

private theorem invariant_empty : Invariant ltEndpoint (empty : CableCards Endpoint) where
  sorted := List.Pairwise.nil
  nodup_ids := List.Pairwise.nil
  id_lt _ he := absurd he List.not_mem_nil
  manager _ heq := nomatch heq

variable (rebalancing) in
private theorem Invariant.after (htotal : StrictTotalOn ltEndpoint Set.univ) (h : Invariant ltEndpoint self)
    (calls : List (Call Endpoint)) : Invariant ltEndpoint (self.after ltEndpoint rebalancing calls) := by
  induction calls generalizing self with
  | nil => exact h
  | cons call calls ih => exact ih (h.finalState_getCard rebalancing htotal call)

variable (rebalancing) in
/-- After any calls the entries are those that were returned. The calls may be any, and fail on the way. -/
theorem mem_after_iff (htotal : StrictTotalOn ltEndpoint Set.univ) (h : Invariant ltEndpoint self)
    (calls : List (Call Endpoint)) (e : CardSelector Endpoint × CableUdp Endpoint) :
    e ∈ (self.after ltEndpoint rebalancing calls).cards.toList ↔
      e ∈ self.cards.toList ∨ e ∈ self.returnedCards ltEndpoint rebalancing calls := by
  induction calls generalizing self with
  | nil => simp [CableCards.after, returnedCards]
  | cons call calls ih =>
    rw [CableCards.after, ih (h.finalState_getCard rebalancing htotal call),
      mem_finalState_getCard rebalancing htotal h, returnedCards, List.mem_append, or_assoc,
      Option.mem_toList]

/-- The operators of addresses and of selectors belong to one strict total order, and do not throw. Each of
them returns what that order says. -/
structure OrderTotal [DecidableEq Endpoint] (ltEndpoint : Endpoint → Endpoint → Bool) : Prop where
  addr_strictTotal : StrictTotalOn (CableAddr.lt ltEndpoint) Set.univ
  addr_less : ∀ a b : CableAddr Endpoint, a.less ltEndpoint b = .ok (a.lt ltEndpoint b)
  addr_equal : ∀ a b : CableAddr Endpoint, a.equal ltEndpoint b = .ok (decide (a = b))
  addr_notEqual : ∀ a b : CableAddr Endpoint, a.notEqual ltEndpoint b = .ok (decide (a ≠ b))
  strictTotal : StrictTotalOn (CardSelector.lt ltEndpoint) Set.univ
  less : ∀ a b : CardSelector Endpoint, a.less ltEndpoint b = .ok (a.lt ltEndpoint b)
  equal : ∀ a b : CardSelector Endpoint, a.equal ltEndpoint b = .ok (decide (a = b))
  notEqual : ∀ a b : CardSelector Endpoint, a.notEqual ltEndpoint b = .ok (decide (a ≠ b))

/-- After the calls there is one card for each selector that got one, always the same, and no card has two
selectors. A further call returns the card that is there, or makes one and keeps it, as it does for every
address of UDP when the system does not refuse; a card that cannot be made leaves the table as it is. -/
structure OneCardEach (ltEndpoint : Endpoint → Endpoint → Bool)
    (rebalancing : Rebalancing (CardSelector Endpoint) (CableUdp Endpoint))
    (calls : List (Call Endpoint)) : Prop where
  nodup_keys : (empty.after ltEndpoint rebalancing calls).cards.keys.Nodup
  mem_iff : ∀ e, e ∈ (empty.after ltEndpoint rebalancing calls).cards.toList ↔
    e ∈ empty.returnedCards ltEndpoint rebalancing calls
  same_card : ∀ e ∈ empty.returnedCards ltEndpoint rebalancing calls,
    ∀ e' ∈ empty.returnedCards ltEndpoint rebalancing calls, e.1 = e'.1 → e.2 = e'.2
  other_card : ∀ e ∈ empty.returnedCards ltEndpoint rebalancing calls,
    ∀ e' ∈ empty.returnedCards ltEndpoint rebalancing calls, e.2.id = e'.2.id → e.1 = e'.1
  found : ∀ (call : Call Endpoint) card,
    (call.selector, card) ∈ empty.returnedCards ltEndpoint rebalancing calls →
    getCard ltEndpoint rebalancing call.answer call.selector (empty.after ltEndpoint rebalancing calls) =
      .ok card (empty.after ltEndpoint rebalancing calls)
  created : ∀ (call : Call Endpoint) card self',
    (empty.after ltEndpoint rebalancing calls).cards.find (CardSelector.lt ltEndpoint) call.selector =
      none →
    createCard call.answer call.selector (empty.after ltEndpoint rebalancing calls) = .ok card self' →
    ∃ cards, getCard ltEndpoint rebalancing call.answer call.selector
        (empty.after ltEndpoint rebalancing calls) = .ok card { self' with cards := cards } ∧
      ∀ e, e ∈ cards.toList ↔
        e ∈ (empty.after ltEndpoint rebalancing calls).cards.toList ∨ e = (call.selector, card)
  gets : ∀ (call : Call Endpoint) endpoint, call.selector.myAddr = .udp endpoint →
    call.answer = { manager := .ok (), sockets := .ok () } →
    ∃ card self', getCard ltEndpoint rebalancing call.answer call.selector
        (empty.after ltEndpoint rebalancing calls) = .ok card self' ∧
      (call.selector, card) ∈ self'.cards.toList
  failed : ∀ (call : Call Endpoint) fault self',
    (empty.after ltEndpoint rebalancing calls).cards.find (CardSelector.lt ltEndpoint) call.selector =
      none →
    createCard call.answer call.selector (empty.after ltEndpoint rebalancing calls) = .error fault self' →
    getCard ltEndpoint rebalancing call.answer call.selector (empty.after ltEndpoint rebalancing calls) =
        .error fault self' ∧
      self'.cards = (empty.after ltEndpoint rebalancing calls).cards

/-- The system refuses nothing that is asked of it for an address of UDP. -/
private theorem not_refused {answer : SystemAnswer} {selector : CardSelector Endpoint}
    {endpoint : Endpoint} (hudp : selector.myAddr = .udp endpoint)
    (hanswer : answer = { manager := .ok (), sockets := .ok () }) : ¬ Refused answer selector := by
  subst hanswer
  rintro (hno | ⟨e, he⟩ | ⟨e, he⟩)
  · exact hno endpoint hudp
  · cases he
  · cases he

section Outcomes

variable {answer : SystemAnswer} {selector : CardSelector Endpoint} {card : CableUdp Endpoint}
  (htotal : StrictTotalOn ltEndpoint Set.univ) (h : Invariant ltEndpoint self)
  (rebalancing : Rebalancing (CardSelector Endpoint) (CableUdp Endpoint))

include htotal h

/-- A card that is in the table is the one that is returned. -/
private theorem getCard_of_mem (hmem : (selector, card) ∈ self.cards.toList) :
    getCard ltEndpoint rebalancing answer selector self = .ok card self := by
  have hkeys := h.sorted.nodup_keys (CardSelector.strictTotalOn_lt htotal) fun _ _ => trivial
  rcases getCard_cases htotal h rebalancing answer selector with ⟨card', hcard', hget⟩ | ⟨hnew, -⟩
  · have heq := List.inj_on_of_nodup_map hkeys hmem hcard' rfl
    rw [hget, (Prod.mk.inj heq).2]
  · exact absurd (List.mem_map_of_mem hmem) hnew

/-- A card that is made is put into the table, and returned. -/
private theorem getCard_of_createCard_ok {self' : CableCards Endpoint}
    (hfind : self.cards.find (CardSelector.lt ltEndpoint) selector = none)
    (hcreate : createCard answer selector self = .ok card self') :
    ∃ cards, getCard ltEndpoint rebalancing answer selector self = .ok card { self' with cards := cards } ∧
      ∀ e, e ∈ cards.toList ↔ e ∈ self.cards.toList ∨ e = (selector, card) := by
  have hlt := CardSelector.strictTotalOn_lt htotal
  have hnew := (find_eq_none_iff hlt trivial (fun _ _ => trivial) h.sorted).mp hfind
  have hperm := perm_emplace hlt trivial (fun _ _ => trivial) hnew (v := card) rebalancing
  rcases getCard_cases htotal h rebalancing answer selector with
    ⟨card, hcard, -⟩ | ⟨-, ⟨card', self₁, -, -, hcreate', hget⟩ | ⟨e, self₁, -, -, hcreate', -⟩⟩
  · exact absurd (List.mem_map_of_mem hcard) hnew
  · obtain ⟨rfl, rfl⟩ := EStateM.Result.ok.inj (hcreate.symm.trans hcreate')
    refine ⟨_, hget, fun e => ?_⟩
    rw [hperm.mem_iff, List.mem_cons, or_comm]
  · exact nomatch hcreate.symm.trans hcreate'

/-- When no card can be made, the table stays as it is. -/
private theorem getCard_of_createCard_error {fault : Fault Exn} {self' : CableCards Endpoint}
    (hfind : self.cards.find (CardSelector.lt ltEndpoint) selector = none)
    (herror : createCard answer selector self = .error fault self') :
    getCard ltEndpoint rebalancing answer selector self = .error fault self' ∧ self'.cards = self.cards := by
  have hlt := CardSelector.strictTotalOn_lt htotal
  have hnew := (find_eq_none_iff hlt trivial (fun _ _ => trivial) h.sorted).mp hfind
  rcases getCard_cases htotal h rebalancing answer selector with
    ⟨card, hcard, -⟩ | ⟨-, ⟨card, self₁, -, -, hcreate, -⟩ | ⟨fault', self₁, -, honly, hcreate, hget⟩⟩
  · exact absurd (List.mem_map_of_mem hcard) hnew
  · rw [herror] at hcreate
    cases hcreate
  · rw [herror] at hcreate
    cases hcreate
    exact ⟨hget, honly.cards⟩

/-- For an address of UDP there is a card, when the system refuses nothing. -/
private theorem exists_getCard_eq_ok {endpoint : Endpoint} (hudp : selector.myAddr = .udp endpoint)
    (hanswer : answer = { manager := .ok (), sockets := .ok () }) :
    ∃ card self', getCard ltEndpoint rebalancing answer selector self = .ok card self' ∧
      (selector, card) ∈ self'.cards.toList := by
  rcases getCard_cases htotal h rebalancing answer selector with
    ⟨card, hcard, hget⟩ | ⟨hnew, ⟨card, self₁, -, -, -, hget⟩ | ⟨e, self₁, hrefused, -, -, -⟩⟩
  · exact ⟨card, _, hget, hcard⟩
  · refine ⟨card, _, hget, ?_⟩
    have hperm := perm_emplace (CardSelector.strictTotalOn_lt htotal) trivial (fun _ _ => trivial) hnew
      (v := card) rebalancing
    exact hperm.mem_iff.mpr List.mem_cons_self
  · exact absurd hrefused (not_refused hudp hanswer)

end Outcomes

/-- Where the endpoints are in a strict total order, so are the addresses and the selectors, and each selector
has one card. The cards are asked for in any order and any number of times. A card is made when it is asked
for first, is kept, and is the one that is returned from then on. -/
theorem cards_of_strictTotalOn [DecidableEq Endpoint] (h : StrictTotalOn ltEndpoint Set.univ)
    (rebalancing : Rebalancing (CardSelector Endpoint) (CableUdp Endpoint)) :
    OrderTotal ltEndpoint ∧ ∀ calls, OneCardEach ltEndpoint rebalancing calls := by
  refine ⟨{
    addr_strictTotal := CableAddr.strictTotalOn_lt h
    addr_less := CableAddr.less_eq
    addr_equal := CableAddr.equal_eq h
    addr_notEqual := CableAddr.notEqual_eq h
    strictTotal := CardSelector.strictTotalOn_lt h
    less := CardSelector.less_eq
    equal := CardSelector.equal_eq h
    notEqual := CardSelector.notEqual_eq h }, fun calls => ?_⟩
  have hlt := CardSelector.strictTotalOn_lt h
  have hempty : Invariant ltEndpoint (empty : CableCards Endpoint) := invariant_empty
  have hinv := hempty.after rebalancing h calls
  have hmem : ∀ e, e ∈ (empty.after ltEndpoint rebalancing calls).cards.toList ↔
      e ∈ empty.returnedCards ltEndpoint rebalancing calls := fun e =>
    (mem_after_iff rebalancing h hempty calls e).trans (or_iff_right List.not_mem_nil)
  have hkeys := hinv.sorted.nodup_keys hlt fun _ _ => trivial
  exact {
    nodup_keys := hkeys
    mem_iff := hmem
    same_card := fun e he e' he' heq =>
      congrArg Prod.snd
        (List.inj_on_of_nodup_map hkeys ((hmem e).mpr he) ((hmem e').mpr he') heq)
    other_card := fun e he e' he' heq =>
      congrArg Prod.fst
        (List.inj_on_of_nodup_map hinv.nodup_ids ((hmem e).mpr he) ((hmem e').mpr he') heq)
    found := fun _ _ hcard => getCard_of_mem h hinv rebalancing ((hmem _).mpr hcard)
    created := fun _ _ _ hfind hcreate => getCard_of_createCard_ok h hinv rebalancing hfind hcreate
    gets := fun _ _ hudp hanswer => exists_getCard_eq_ok h hinv rebalancing hudp hanswer
    failed := fun _ _ _ hfind herror => getCard_of_createCard_error h hinv rebalancing hfind herror }

/-! ### A sample -/

/-- The octets by which Boost compares endpoints: the family, the address and the port. -/
def endpointOctets (endpoint : UdpEndpoint) : Bytes :=
  (match endpoint.address with
    | .v4 addr => 4 :: addr.octets
    | .v6 addr => 6 :: addr.octets) ++
  Octets.bigEndian 2 endpoint.port.toNat

/-- `operator<` of endpoints. -/
def ltUdpEndpoint (a b : UdpEndpoint) : Bool := (compare (endpointOctets a) (endpointOctets b)).isLT

private theorem endpointOctets_injective : Function.Injective endpointOctets := by
  have hport : ∀ {p q : UInt16}, Octets.bigEndian 2 p.toNat = Octets.bigEndian 2 q.toNat → p = q :=
    fun {p q} heq => by
      have hnat := congrArg Octets.toNat heq
      rw [Octets.toNat_bigEndian_of_lt p.toNat_lt, Octets.toNat_bigEndian_of_lt q.toNat_lt] at hnat
      exact UInt16.toNat_inj.mp hnat
  rintro ⟨addr, port⟩ ⟨addr', port'⟩ heq
  obtain ⟨haddr, hrest⟩ := List.append_inj' heq (by simp)
  obtain rfl := hport hrest
  cases addr with
  | v4 addr =>
    cases addr' with
    | v4 addr' => rw [Block.ext (List.cons.inj haddr).2]
    | v6 addr' => exact absurd (List.cons.inj haddr).1 (by decide)
  | v6 addr =>
    cases addr' with
    | v4 addr' => exact absurd (List.cons.inj haddr).1 (by decide)
    | v6 addr' => rw [Block.ext (List.cons.inj haddr).2]

private theorem strictTotalOn_ltUdpEndpoint : StrictTotalOn ltUdpEndpoint Set.univ :=
  StrictTotalOn.of_compare.comap endpointOctets_injective

/-- Cards for endpoints of UDP. -/
theorem cards_of_strictTotalOn_udp :
    OrderTotal ltUdpEndpoint ∧ ∀ calls, OneCardEach ltUdpEndpoint .none calls :=
  cards_of_strictTotalOn strictTotalOn_ltUdpEndpoint .none

end CableCards

end Galaxy42
