import Mathlib.Data.List.Basic
import Mathlib.Logic.Function.Basic
import Mathlib.Logic.Relation

/-!
# Networks

Parties that send messages to each other. A network is the states of its parties, and the messages in
flight. A party makes a step of its own, or it takes a message out of flight; both may change its state and
put new messages into flight. So messages are delivered in any order. A message can also be lost or be
delivered more than once, which is a `Fault`.

What holds of each party and of each message in flight is carried along every run by `Invariant.run`. The
rule asks about one party at a time, and about the messages that it gets and sends: nothing is said of how the
parties are connected, or of how many there are.

Some properties are about what has been done in a run, and not about the state that it ends in. For these a
run has a record (`Recorded`): the list of the acts of its parties, each with a label, which can be the state
before and what the party did. A recorded run whose labels are of some kind is a run with steps of that kind
only (`Recorded.run`), so that the rule for invariants applies to it; and what an invariant says of each act
holds of all acts of the record (`Recorded.forall_acts`).

What a party does is a relation between its state before, its state afterwards and the messages it sends, so
that parties may choose. A message is anything: whom it is for, and who has sent it, is part of the message,
and the relation that says who receives it decides what of this can be relied on.
-/

namespace Toolkit

/-- The states of parties, and the messages in flight. The messages are in a list, but their order does not
matter, as each of them may be the next one to be delivered. -/
structure Network (ι σ μ : Type) where
  node : ι → σ
  flight : List μ

namespace Network

variable {ι σ μ : Type} [DecidableEq ι]

/-- The network after a party has changed its state and sent messages. -/
def act (net : Network ι σ μ) (i : ι) (s : σ) (new : List μ) : Network ι σ μ :=
  { node := Function.update net.node i s, flight := new ++ net.flight }

@[simp] theorem node_act_self (net : Network ι σ μ) (i : ι) (s : σ) (new : List μ) :
    (net.act i s new).node i = s :=
  Function.update_self _ _ _

theorem node_act_of_ne {net : Network ι σ μ} {i j : ι} (h : j ≠ i) {s : σ} {new : List μ} :
    (net.act i s new).node j = net.node j :=
  Function.update_of_ne h _ _

@[simp] theorem flight_act (net : Network ι σ μ) (i : ι) (s : σ) (new : List μ) :
    (net.act i s new).flight = new ++ net.flight :=
  rfl

/-- The network with other messages in flight. -/
def withFlight (net : Network ι σ μ) (flight : List μ) : Network ι σ μ := { net with flight }

section Steps

variable (own : ι → σ → σ → List μ → Prop) (receive : ι → μ → σ → σ → List μ → Prop)

/-- A step of a network: a party does something on its own, or gets a message. What a party does on its own,
and what it does about a message, are relations: a party may have a choice. A message that is delivered is no
longer in flight. -/
inductive Step : Network ι σ μ → Network ι σ μ → Prop
  | own {net : Network ι σ μ} {i : ι} {s : σ} {new : List μ} (h : own i (net.node i) s new) :
      Step net (net.act i s new)
  | deliver {net : Network ι σ μ} {i : ι} {m : μ} {s : σ} {new pre suf : List μ}
      (hflight : net.flight = pre ++ m :: suf) (h : receive i m (net.node i) s new) :
      Step net ((net.withFlight (pre ++ suf)).act i s new)

/-- What can happen to a message in flight instead of its delivery. It is lost, or there is another copy of
it. Late delivery and another order need no fault. -/
inductive Fault : Network ι σ μ → Network ι σ μ → Prop
  | lose {net : Network ι σ μ} {m : μ} {pre suf : List μ} (hflight : net.flight = pre ++ m :: suf) :
      Fault net (net.withFlight (pre ++ suf))
  | double {net : Network ι σ μ} {m : μ} (hflight : m ∈ net.flight) :
      Fault net (net.withFlight (m :: net.flight))

/-- A step, or a fault. -/
def StepOrFault (net net' : Network ι σ μ) : Prop := Step own receive net net' ∨ Fault net net'

end Steps

/-- Each party, and each message in flight, is as it should be. -/
def Holds (I : ι → σ → Prop) (M : μ → Prop) (net : Network ι σ μ) : Prop :=
  (∀ i, I i (net.node i)) ∧ ∀ m ∈ net.flight, M m

/-- What a party does keeps it as it should be, and it only sends messages that are. A party may rely on
itself being as it should be, and on the message that it gets. It need not know anything about the other
parties. -/
structure Invariant (own : ι → σ → σ → List μ → Prop) (receive : ι → μ → σ → σ → List μ → Prop)
    (I : ι → σ → Prop) (M : μ → Prop) : Prop where
  own : ∀ i s s' new, I i s → own i s s' new → I i s' ∧ ∀ m ∈ new, M m
  receive : ∀ i m s s' new, I i s → M m → receive i m s s' new → I i s' ∧ ∀ m' ∈ new, M m'

section Rules

variable {own : ι → σ → σ → List μ → Prop} {receive : ι → μ → σ → σ → List μ → Prop}
  {I : ι → σ → Prop} {M : μ → Prop} {net net' : Network ι σ μ}

theorem Holds.act (h : net.Holds I M) {i : ι} {s : σ} {new : List μ} (hs : I i s)
    (hnew : ∀ m ∈ new, M m) : (net.act i s new).Holds I M := by
  refine ⟨fun j => ?_, fun m hm => ?_⟩
  · by_cases hij : j = i
    · subst hij
      rwa [node_act_self]
    · rw [node_act_of_ne hij]
      exact h.1 j
  · rcases List.mem_append.mp hm with hm | hm
    · exact hnew m hm
    · exact h.2 m hm

omit [DecidableEq ι] in
theorem Holds.withFlight (h : net.Holds I M) {flight : List μ} (hsub : flight ⊆ net.flight) :
    (net.withFlight flight).Holds I M :=
  ⟨h.1, fun m hm => h.2 m (hsub hm)⟩

/-- One step keeps everything as it should be. -/
theorem Invariant.step (hI : Invariant own receive I M) (h : net.Holds I M)
    (hstep : Step own receive net net') : net'.Holds I M := by
  cases hstep with
  | @own i s new hown =>
    obtain ⟨hs, hnew⟩ := hI.own i _ _ _ (h.1 i) hown
    exact h.act hs hnew
  | @deliver i m s new pre suf hflight hreceive =>
    have hm : M m := h.2 m (by rw [hflight]; simp)
    have hrest : pre ++ suf ⊆ net.flight := by
      rw [hflight]
      intro m' hm'
      simp only [List.mem_append, List.mem_cons] at hm' ⊢
      exact hm'.imp_right .inr
    obtain ⟨hs, hnew⟩ := hI.receive i m _ _ _ (h.1 i) hm hreceive
    exact (h.withFlight hrest).act hs hnew

omit [DecidableEq ι] in
/-- A fault too. -/
theorem Holds.fault (h : net.Holds I M) (hfault : Fault net net') : net'.Holds I M := by
  cases hfault with
  | lose hflight =>
    refine h.withFlight fun m' hm' => ?_
    rw [hflight]
    simp only [List.mem_append, List.mem_cons] at hm' ⊢
    exact hm'.imp_right .inr
  | double hmem =>
    refine h.withFlight fun m' hm' => ?_
    obtain rfl | hm' := List.mem_cons.mp hm'
    · exact hmem
    · exact hm'

/-- So everything is as it should be in every run that begins so. Messages may be lost, doubled and reordered
in it. -/
theorem Invariant.run (hI : Invariant own receive I M) (h : net.Holds I M)
    (hrun : Relation.ReflTransGen (StepOrFault own receive) net net') : net'.Holds I M := by
  induction hrun with
  | refl => exact h
  | tail _ hstep ih =>
    rcases hstep with hstep | hfault
    · exact hI.step ih hstep
    · exact ih.fault hfault

end Rules

/-! ### Runs with a record -/

section Records

variable {ε : Type*}

/-- A run, and what the parties have done in it, the last act first. Each act is recorded with the party and
the label of its step, so that results can count what has happened. A fault is nobody's act, and is not
recorded. -/
inductive Recorded (own : ι → ε → σ → σ → List μ → Prop)
    (receive : ι → μ → ε → σ → σ → List μ → Prop) :
    Network ι σ μ → List (ι × ε) → Network ι σ μ → Prop
  | start {net : Network ι σ μ} : Recorded own receive net [] net
  | own {net net' : Network ι σ μ} {acts : List (ι × ε)} {i : ι} {e : ε} {s : σ} {new : List μ}
      (hrun : Recorded own receive net acts net') (h : own i e (net'.node i) s new) :
      Recorded own receive net ((i, e) :: acts) (net'.act i s new)
  | deliver {net net' : Network ι σ μ} {acts : List (ι × ε)} {i : ι} {m : μ} {e : ε} {s : σ}
      {new pre suf : List μ} (hrun : Recorded own receive net acts net')
      (hflight : net'.flight = pre ++ m :: suf) (h : receive i m e (net'.node i) s new) :
      Recorded own receive net ((i, e) :: acts) ((net'.withFlight (pre ++ suf)).act i s new)
  | fault {net net' net'' : Network ι σ μ} {acts : List (ι × ε)}
      (hrun : Recorded own receive net acts net') (hfault : Fault net' net'') :
      Recorded own receive net acts net''

/-- What a party does on its own, with a label of some kind. -/
def OwnWith (P : ι × ε → Prop) (own : ι → ε → σ → σ → List μ → Prop) (i : ι) (s s' : σ)
    (new : List μ) : Prop :=
  ∃ e, P (i, e) ∧ own i e s s' new

/-- What a party does about a message, with a label of some kind. -/
def ReceiveWith (P : ι × ε → Prop) (receive : ι → μ → ε → σ → σ → List μ → Prop) (i : ι) (m : μ)
    (s s' : σ) (new : List μ) : Prop :=
  ∃ e, P (i, e) ∧ receive i m e s s' new

variable {own : ι → ε → σ → σ → List μ → Prop} {receive : ι → μ → ε → σ → σ → List μ → Prop}
  {P Q : ι × ε → Prop} {I : ι → σ → Prop} {M : μ → Prop} {net net' : Network ι σ μ}
  {acts : List (ι × ε)}

/-- A run whose labels are of some kind is a run with steps of that kind. -/
theorem Recorded.run (hrun : Recorded own receive net acts net') (hP : ∀ act ∈ acts, P act) :
    Relation.ReflTransGen (StepOrFault (OwnWith P own) (ReceiveWith P receive)) net net' := by
  induction hrun with
  | start => exact .refl
  | @own _ acts i e s new hrun h ih =>
    obtain ⟨hact, hacts⟩ := List.forall_mem_cons.mp hP
    exact (ih hacts).tail (.inl (.own ⟨e, hact, h⟩))
  | @deliver _ acts i m e s new pre suf hrun hflight h ih =>
    obtain ⟨hact, hacts⟩ := List.forall_mem_cons.mp hP
    exact (ih hacts).tail (.inl (.deliver hflight ⟨e, hact, h⟩))
  | fault _ hfault ih => exact (ih hP).tail (.inr hfault)

/-- What holds of an act in a network that is as it should be holds of all acts of a run. The labels of the
run must be of the kind for which the network stays as it should be. -/
theorem Recorded.forall_acts (hI : Invariant (OwnWith P own) (ReceiveWith P receive) I M)
    (hown : ∀ i e s s' new, I i s → P (i, e) → own i e s s' new → Q (i, e))
    (hreceive : ∀ i m e s s' new, I i s → M m → P (i, e) → receive i m e s s' new → Q (i, e))
    (hrun : Recorded own receive net acts net') (hP : ∀ act ∈ acts, P act) (h : net.Holds I M) :
    ∀ act ∈ acts, Q act := by
  induction hrun with
  | start => exact fun _ hact => absurd hact List.not_mem_nil
  | @own _ acts i e s new hrun hstep ih =>
    obtain ⟨hact, hacts⟩ := List.forall_mem_cons.mp hP
    have hbefore := hI.run h (hrun.run hacts)
    exact List.forall_mem_cons.mpr ⟨hown i e _ s new (hbefore.1 i) hact hstep, ih hacts⟩
  | @deliver _ acts i m e s new pre suf hrun hflight hstep ih =>
    obtain ⟨hact, hacts⟩ := List.forall_mem_cons.mp hP
    have hbefore := hI.run h (hrun.run hacts)
    have hm : M m := hbefore.2 m (by rw [hflight]; simp)
    exact List.forall_mem_cons.mpr
      ⟨hreceive i m e _ s new (hbefore.1 i) hm hact hstep, ih hacts⟩
  | fault _ _ ih => exact ih hP

end Records

end Network

end Toolkit
