import Galaxy42.Lib.SearchTree
import Galaxy42.Exceptions

/-!
# Addresses of cables

An address belongs to one of three kinds of cables. Addresses of one kind are compared by
`compare_same_class`, and addresses of different kinds by the kind. When the endpoints of UDP are in a strict
total order, so are the addresses (`strictTotalOn_lt`), and a card selector, which holds an address.

The classes derived from `c_cable_base_addr` are the constructors of one type, and a `dynamic_cast` to a class
is a match. So the exception of `compare_same_class` for an address of another class is there, and that
`operator<` never runs into it has to be shown (`less_eq`): it compares the kinds first. The values of the
kinds are those of the enumeration, which decide in which order the kinds come.

The endpoints are those of Boost, which is not in the repository. They are a parameter, with the order that
`operator<` of endpoints has; all that is asked of it is that it is a strict total order. For the selectors
the same is shown again, since their operators go through the address that they hold.

The operators are needed because the addresses and the selectors are keys of a `std::map`: the cards of the
cables are kept in one.
-/

namespace Galaxy42

open Toolkit

/-- `t_cable_kind` -/
inductive CableKind where
  | simul
  | shm
  | udp
  deriving DecidableEq

/-- The value of a `t_cable_kind`. -/
def CableKind.value : CableKind → ℕ
  | simul => 1
  | shm => 2
  | udp => 3

/-- The classes derived from `c_cable_base_addr`, each with its `m_addr`. The classes correspond to the kinds,
so that the cast of an address of the same kind cannot fail. -/
inductive CableAddr (Endpoint : Type) where
  /-- `c_cable_simul_addr` -/
  | simul (addr : ℤ)
  /-- `cable_shm_addr` -/
  | shm (addr : Bytes)
  /-- `c_cable_udp_addr` -/
  | udp (addr : Endpoint)
  deriving DecidableEq

/-- `compare_same_class`, for `m_addr` of one class. It is zero when neither is less than the other, whether
they are equal or not. -/
def threeWay {α : Type} (lt : α → α → Bool) (this other : α) : ℤ :=
  if lt this other then -1 else if lt other this then 1 else 0

/-- `operator<` of `std::string`. -/
def stringLt (a b : Bytes) : Bool := (compare a b).isLT

/-! ### The operators -/

section Operators

variable {Endpoint : Type} (ltEndpoint : Endpoint → Endpoint → Bool)

namespace CableAddr

/-- `get_kind` -/
def kind : CableAddr Endpoint → CableKind
  | simul _ => .simul
  | shm _ => .shm
  | udp _ => .udp

/-- `compare_same_class`, which refuses an address of another class. -/
def compareSameClass : CableAddr Endpoint → CableAddr Endpoint → Except Exn ℤ
  | simul this, simul other => .ok (threeWay (fun a b => decide (a < b)) this other)
  | shm this, shm other => .ok (threeWay stringLt this other)
  | udp this, udp other => .ok (threeWay ltEndpoint this other)
  | _, _ => .error (.runtimeError "Can not compare addresses, it is other class")

/-- `operator==` -/
def equal (this other : CableAddr Endpoint) : Except Exn Bool :=
  if this.kind = other.kind then do
    let compared ← this.compareSameClass ltEndpoint other
    return decide (0 = compared)
  else return false

/-- `operator!=` -/
def notEqual (this other : CableAddr Endpoint) : Except Exn Bool :=
  if this.kind ≠ other.kind then return true
  else do
    let compared ← this.compareSameClass ltEndpoint other
    return decide (0 ≠ compared)

/-- `operator<` -/
def less (this other : CableAddr Endpoint) : Except Exn Bool :=
  if this.kind = other.kind then do
    let compared ← this.compareSameClass ltEndpoint other
    return decide (-1 = compared)
  else return decide (this.kind.value < other.kind.value)

/-- The order of the addresses. -/
def lt : CableAddr Endpoint → CableAddr Endpoint → Bool
  | simul a, simul b => decide (a < b)
  | shm a, shm b => stringLt a b
  | udp a, udp b => ltEndpoint a b
  | a, b => decide (a.kind.value < b.kind.value)

end CableAddr

/-- `c_card_selector`. The address is not null. It is compared by its address, so it has the order of the
addresses. -/
structure CardSelector (Endpoint : Type) where
  /-- `m_my_addr` -/
  myAddr : CableAddr Endpoint
  deriving DecidableEq

namespace CardSelector

/-- `operator==` -/
def equal (this other : CardSelector Endpoint) : Except Exn Bool := do
  let same ← this.myAddr.equal ltEndpoint other.myAddr
  if ! same then return false
  else return true

/-- `operator!=` -/
def notEqual (this other : CardSelector Endpoint) : Except Exn Bool := do
  let same ← this.equal ltEndpoint other
  return !same

/-- `operator<` -/
def less (this other : CardSelector Endpoint) : Except Exn Bool := do
  let isLess ← this.myAddr.less ltEndpoint other.myAddr
  if isLess then return true
  else return false

/-- The order of the selectors. -/
def lt (a b : CardSelector Endpoint) : Bool := a.myAddr.lt ltEndpoint b.myAddr

end CardSelector

/-! ### The order -/

variable {ltEndpoint}

private theorem threeWay_eq_neg_one_iff {α : Type} {lt : α → α → Bool} {a b : α} :
    -1 = threeWay lt a b ↔ lt a b = true := by
  unfold threeWay
  split_ifs <;> simp_all

private theorem threeWay_eq_zero_iff {α : Type} {lt : α → α → Bool} {a b : α} :
    0 = threeWay lt a b ↔ Incomparable lt a b := by
  unfold threeWay Incomparable
  split_ifs <;> simp_all

private theorem strictTotalOn_int : StrictTotalOn (fun a b : ℤ => decide (a < b)) Set.univ where
  irrefl a _ := by simp
  trans a _ b _ c _ hab hbc := by
    rw [decide_eq_true_eq] at hab hbc ⊢
    omega
  incomparable_trans a _ b _ c _ := by
    simp only [Incomparable, decide_eq_false_iff_not]
    omega
  eq_of_incomparable a _ b _ := by
    simp only [Incomparable, decide_eq_false_iff_not]
    omega

namespace CableAddr

/-- `operator<` is the order, and does not throw. -/
theorem less_eq (a b : CableAddr Endpoint) : a.less ltEndpoint b = .ok (a.lt ltEndpoint b) := by
  have hsame : ∀ {α : Type} {ltα : α → α → Bool} {a b : α},
      decide (-1 = threeWay ltα a b) = ltα a b := fun {α ltα a b} => by
    rw [Bool.eq_iff_iff, decide_eq_true_iff, threeWay_eq_neg_one_iff]
  cases a <;> cases b <;> first | exact congrArg Except.ok hsame | rfl

/-- The order of the addresses is total when that of the endpoints is. -/
theorem strictTotalOn_lt (h : StrictTotalOn ltEndpoint Set.univ) :
    StrictTotalOn (lt ltEndpoint) Set.univ := by
  have hstring : StrictTotalOn stringLt Set.univ := StrictTotalOn.of_compare
  refine @StrictTotalOn.of_rank _ _ (fun a => a.kind.value) (fun a b hne => ?_) fun a => ?_
  · cases a <;> cases b <;> first | rfl | exact absurd rfl hne
  · cases a with
    | simul a =>
      have hclass : {b : CableAddr Endpoint | b.kind.value = 1} = Set.range simul := by
        ext b
        cases b <;> simp [kind, CableKind.value]
      exact hclass ▸ StrictTotalOn.range strictTotalOn_int fun _ _ => rfl
    | shm a =>
      have hclass : {b : CableAddr Endpoint | b.kind.value = 2} = Set.range shm := by
        ext b
        cases b <;> simp [kind, CableKind.value]
      exact hclass ▸ StrictTotalOn.range hstring fun _ _ => rfl
    | udp a =>
      have hclass : {b : CableAddr Endpoint | b.kind.value = 3} = Set.range udp := by
        ext b
        cases b <;> simp [kind, CableKind.value]
      exact hclass ▸ StrictTotalOn.range h fun _ _ => rfl

/-- Addresses of one class are the same when the comparison says so. -/
theorem compareSameClass_eq (h : StrictTotalOn ltEndpoint Set.univ) {a b : CableAddr Endpoint}
    (hkind : a.kind = b.kind) :
    ∃ compared, a.compareSameClass ltEndpoint b = .ok compared ∧ (0 = compared ↔ a = b) := by
  have hsame : ∀ {α : Type} {ltα : α → α → Bool} {make : α → CableAddr Endpoint} {a b : α},
      StrictTotalOn ltα Set.univ → Function.Injective make →
      (0 = threeWay ltα a b ↔ make a = make b) := fun hα hmake => by
    rw [threeWay_eq_zero_iff, hα.incomparable_iff trivial trivial, hmake.eq_iff]
  have hstring : StrictTotalOn stringLt Set.univ := StrictTotalOn.of_compare
  cases a <;> cases b <;> simp only [kind, reduceCtorEq] at hkind
  · exact ⟨_, rfl, hsame strictTotalOn_int fun _ _ => simul.inj⟩
  · exact ⟨_, rfl, hsame hstring fun _ _ => shm.inj⟩
  · exact ⟨_, rfl, hsame h fun _ _ => udp.inj⟩

/-- `operator==` -/
theorem equal_eq [DecidableEq Endpoint] (h : StrictTotalOn ltEndpoint Set.univ) (a b : CableAddr Endpoint) :
    a.equal ltEndpoint b = .ok (decide (a = b)) := by
  unfold equal
  split_ifs with hkind
  · obtain ⟨compared, hcompared, hzero⟩ := compareSameClass_eq h hkind
    rw [bindExcept_of_ok hcompared, ← decide_eq_decide.mpr hzero]
    rfl
  · rw [decide_eq_false fun heq => hkind (congrArg kind heq)]
    rfl

/-- `operator!=` -/
theorem notEqual_eq [DecidableEq Endpoint] (h : StrictTotalOn ltEndpoint Set.univ)
    (a b : CableAddr Endpoint) : a.notEqual ltEndpoint b = .ok (decide (a ≠ b)) := by
  unfold notEqual
  split_ifs with hkind
  · have hne : a ≠ b := fun heq => hkind (congrArg kind heq)
    rw [decide_eq_true hne]
    rfl
  · obtain ⟨compared, hcompared, hzero⟩ := compareSameClass_eq h (not_not.mp hkind)
    rw [bindExcept_of_ok hcompared, ← decide_eq_decide.mpr (not_congr hzero)]
    rfl

end CableAddr

namespace CardSelector

theorem less_eq (a b : CardSelector Endpoint) : a.less ltEndpoint b = .ok (a.lt ltEndpoint b) := by
  rw [less, bindExcept_of_ok (CableAddr.less_eq _ _), lt]
  cases a.myAddr.lt ltEndpoint b.myAddr <;> rfl

theorem equal_eq [DecidableEq Endpoint] (h : StrictTotalOn ltEndpoint Set.univ)
    (a b : CardSelector Endpoint) : a.equal ltEndpoint b = .ok (decide (a = b)) := by
  have haddr : a.myAddr = b.myAddr ↔ a = b := by
    cases a
    cases b
    simp
  rw [equal, bindExcept_of_ok (CableAddr.equal_eq h _ _), ← decide_eq_decide.mpr haddr]
  cases decide (a.myAddr = b.myAddr) <;> rfl

theorem notEqual_eq [DecidableEq Endpoint] (h : StrictTotalOn ltEndpoint Set.univ)
    (a b : CardSelector Endpoint) : a.notEqual ltEndpoint b = .ok (decide (a ≠ b)) := by
  rw [notEqual, bindExcept_of_ok (equal_eq h a b), decide_not]
  rfl

/-- The order of the selectors is total when that of the endpoints is. -/
theorem strictTotalOn_lt (h : StrictTotalOn ltEndpoint Set.univ) :
    StrictTotalOn (lt ltEndpoint) Set.univ := by
  refine (CableAddr.strictTotalOn_lt h).comap (f := myAddr) ?_
  rintro ⟨a⟩ ⟨b⟩ rfl
  rfl

end CardSelector

end Operators

end Galaxy42
