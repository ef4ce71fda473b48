import Galaxy42.Lib.Program

/-!
# Writing a format and reading it back

A writer appends to a list; a reader moves a `Cursor` over one. `Emits w P out` says that the writer
`w` succeeds exactly when `P` holds and then has appended the piece `out`. `Reads r out x` says that
the reader `r`, standing in front of the piece `out` of any larger input, returns `x` and stops right
behind the piece.

Both are closed under the ways a format is put together: one field after the other (`seq`, `bind`)
and a counted repetition (`forM`, `replicateM`, and `Reads.loop` for a loop that carries an
accumulator). A format is then shown to be written and read back field by field, with no reasoning
about positions left.

A reader may accept more than what is written. `Parses r octets val` says that the reader `r` accepts
exactly the pieces `octets t`, where `t` runs through the syntax trees of a format, and reads them as
`val t`. Two facts follow from any such description: a reader that reads two pieces at the beginning of
one input reads the same piece both times (`Reads.unique`), and a row of pieces can be cut into its
pieces in one way only (`Reads.flatMap_unique`).

A cursor is `between pre suf` when `pre` lies behind it and `suf` ahead. All rules are stated for such
cursors, where the position has disappeared: a reader takes a piece from the front of `suf` and puts it at
the end of `pre`. A position that a program computes itself is related to a cursor once, in
`Cursor.eq_between`.
-/

namespace Toolkit

/-- A read position in a list. The data do not change while they are read. The position may be behind the end,
where nothing is ahead. -/
structure Cursor (α : Type) where
  /-- Everything there is to read. -/
  data : List α
  /-- How much of it lies behind the read position. -/
  now : ℕ
  deriving DecidableEq, Repr

namespace Cursor

variable {α : Type}

/-- The cursor at the beginning of `data`. -/
def start (data : List α) : Cursor α := ⟨data, 0⟩

/-- The cursor with `pre` behind it and `suf` ahead of it. -/
def between (pre suf : List α) : Cursor α := ⟨pre ++ suf, pre.length⟩

/-- What lies ahead of the cursor. -/
def ahead (c : Cursor α) : List α := c.data.drop c.now

/-- The cursor after `n` more elements. -/
def advance (c : Cursor α) (n : ℕ) : Cursor α := { c with now := c.now + n }

@[simp] theorem between_nil (suf : List α) : between [] suf = start suf := rfl

@[simp] theorem ahead_between (pre suf : List α) : (between pre suf).ahead = suf := by
  simp [between, ahead]

@[simp] theorem data_between (pre suf : List α) : (between pre suf).data = pre ++ suf := rfl

@[simp] theorem now_between (pre suf : List α) : (between pre suf).now = pre.length := rfl

/-- A cursor inside its data has the one part behind it and the other ahead. -/
theorem eq_between {c : Cursor α} (h : c.now ≤ c.data.length) :
    c = between (c.data.take c.now) c.ahead := by
  obtain ⟨data, now⟩ := c
  simp only [between, ahead, List.take_append_drop, List.length_take, Nat.min_eq_left h]

/-- A cursor with something ahead is inside its data. -/
theorem now_le_of_ahead_pos {c : Cursor α} (h : 0 < c.ahead.length) : c.now ≤ c.data.length := by
  rw [ahead, List.length_drop] at h
  omega

theorem ahead_advance (c : Cursor α) (n : ℕ) : (c.advance n).ahead = c.ahead.drop n :=
  (List.drop_drop).symm

/-- Moving past a piece of what is ahead. -/
theorem advance_between (pre out suf : List α) :
    (between pre (out ++ suf)).advance out.length = between (pre ++ out) suf := by
  simp [between, advance]

end Cursor

open Cursor Program

variable {ε α β γ : Type}

/-! ### Readers -/

/-- In front of the piece `out` of any input, the reader returns `x` and stops right behind it. What is in
front of the piece, and what is behind it, plays no role. So readers can be put together like the pieces that
they read. -/
def Reads (r : Program ε (Cursor α) β) (out : List α) (x : β) : Prop :=
  ∀ pre suf, r (between pre (out ++ suf)) = .ok x (between (pre ++ out) suf)

namespace Reads

/-- Returning a value reads nothing. -/
theorem pure (x : β) : Reads (Pure.pure x : Program ε (Cursor α) β) [] x := by
  intro pre suf
  simp

/-- One reader after the other reads the two pieces in a row. -/
theorem bind {r : Program ε (Cursor α) β} {f : β → Program ε (Cursor α) γ} {out out' : List α}
    {x : β} {y : γ} (h : Reads r out x) (h' : Reads (f x) out' y) :
    Reads (r >>= f) (out ++ out') y := by
  intro pre suf
  have hr : r (between pre (out ++ out' ++ suf)) = .ok x (between (pre ++ out) (out' ++ suf)) := by
    rw [List.append_assoc]
    exact h pre (out' ++ suf)
  rw [bind_of_ok hr, h' (pre ++ out) suf, List.append_assoc]

/-- A last step that only turns the value read into another one reads nothing more. -/
theorem map {r : Program ε (Cursor α) β} {g : β → γ} {out : List α} {x : β}
    (h : Reads r out x) : Reads (g <$> r) out (g x) := by
  intro pre suf
  rw [map_apply, h pre suf]

/-- A check that is passed reads nothing. -/
theorem check {c : Prop} [Decidable c] {e : ε} (hc : c) :
    Reads (checkThat c e : Program ε (Cursor α) Unit) [] () := by
  intro pre suf
  simp [checkThat_apply, hc]

/-- An assertion that holds reads nothing. -/
theorem assert {c : Prop} [Decidable c] (hc : c) :
    Reads (assertThat c : Program ε (Cursor α) Unit) [] () := by
  intro pre suf
  simp [assertThat_apply, hc]

/-- A repeated reader reads its pieces one by one. -/
theorem replicateM_map {T : Type} {r : Program ε (Cursor α) β} {out : T → List α} {x : T → β}
    {ts : List T} (h : ∀ t ∈ ts, Reads r (out t) (x t)) :
    Reads (Program.replicateM r ts.length) (ts.flatMap out) (ts.map x) := by
  induction ts with
  | nil => exact pure []
  | cons t ts ih =>
    have ht : Reads r (out t) (x t) := h t (by simp)
    have hts := ih fun u hu => h u (by simp [hu])
    exact ht.bind (hts.map (g := fun xs => x t :: xs))

/-- A repeated reader reads values that stand for themselves. -/
theorem replicateM {r : Program ε (Cursor α) β} {out : β → List α} {xs : List β}
    (h : ∀ x ∈ xs, Reads r (out x) x) :
    Reads (Program.replicateM r xs.length) (xs.flatMap out) xs := by
  have hreads := replicateM_map h
  rwa [List.map_id'] at hreads

/-- A loop that goes `xs.length` rounds with an accumulator. The invariant `I` relates the
accumulator to the elements still to come, and each round takes one of them. -/
theorem loop {read : γ → Program ε (Cursor α) γ} {rounds : ℕ → γ → Program ε (Cursor α) γ}
    {out : β → List α} {I : γ → List β → Prop} (h0 : ∀ acc, rounds 0 acc = Pure.pure acc)
    (hsucc : ∀ n acc, rounds (n + 1) acc = read acc >>= rounds n)
    (hstep : ∀ acc x xs, I acc (x :: xs) → ∃ acc', Reads (read acc) (out x) acc' ∧ I acc' xs) :
    ∀ (xs : List β) (acc : γ), I acc xs →
      ∃ acc', Reads (rounds xs.length acc) (xs.flatMap out) acc' ∧ I acc' [] := by
  intro xs
  induction xs with
  | nil =>
    intro acc hI
    rw [List.length_nil, h0]
    exact ⟨acc, pure acc, hI⟩
  | cons x xs ih =>
    intro acc hI
    obtain ⟨acc₁, hx, hI₁⟩ := hstep acc x xs hI
    obtain ⟨acc', hxs, hI'⟩ := ih acc₁ hI₁
    rw [List.length_cons, hsucc]
    exact ⟨acc', hx.bind hxs, hI'⟩

/-- A cursor at the start of a piece reads it from there. -/
theorem apply_start {r : Program ε (Cursor α) β} {out : List α} {x : β} (h : Reads r out x)
    (suf : List α) : r (start (out ++ suf)) = .ok x (between out suf) := by
  simpa using h [] suf

end Reads

/-! ### What a reader accepts -/

/-- Two pieces at the beginning of one input that a reader reads are the same piece, read as the same
value. -/
theorem Reads.unique {r : Program ε (Cursor α) β} {out out' suf suf' : List α} {x x' : β}
    (h : Reads r out x) (h' : Reads r out' x') (heq : out ++ suf = out' ++ suf') :
    out = out' ∧ x = x' ∧ suf = suf' := by
  have hrun := h [] suf
  rw [heq, h' [] suf'] at hrun
  obtain ⟨hx, hc⟩ := EStateM.Result.ok.inj hrun
  have hlen : out'.length = out.length := by simpa using congrArg Cursor.now hc
  obtain ⟨hout, hsuf⟩ := List.append_inj heq hlen.symm
  exact ⟨hout, hx.symm, hsuf⟩

/-- Two rows of pieces that a reader reads, in one input, are the same piece by piece. What lies behind the
rows is the same too. The two rows must have as many pieces as each other. -/
theorem Reads.flatMap_unique {T U : Type} {r : Program ε (Cursor α) β} {out : T → List α} {x : T → β}
    {out' : U → List α} {x' : U → β} :
    ∀ {ts : List T} {us : List U} {suf suf' : List α}, (∀ t ∈ ts, Reads r (out t) (x t)) →
      (∀ u ∈ us, Reads r (out' u) (x' u)) → ts.length = us.length →
      ts.flatMap out ++ suf = us.flatMap out' ++ suf' →
      List.Forall₂ (fun t u => out t = out' u ∧ x t = x' u) ts us ∧ suf = suf'
  | [], [], _, _, _, _, _, heq => ⟨.nil, heq⟩
  | t :: ts, u :: us, suf, suf', h, h', hlen, heq => by
    rw [List.flatMap_cons, List.flatMap_cons, List.append_assoc, List.append_assoc] at heq
    obtain ⟨hout, hx, hrest⟩ := (h t List.mem_cons_self).unique (h' u List.mem_cons_self) heq
    obtain ⟨hall, hsuf⟩ := flatMap_unique (fun t ht => h t (List.mem_cons_of_mem _ ht))
      (fun u hu => h' u (List.mem_cons_of_mem _ hu)) (Nat.succ.inj hlen) hrest
    exact ⟨.cons ⟨hout, hx⟩ hall, hsuf⟩

/-- The reader accepts exactly the pieces that are written for some `t` in `T`, and reads `t` as
`val t`. Different trees may stand for one value. -/
def Parses {T : Type} (r : Program ε (Cursor α) β) (octets : T → List α) (val : T → β) : Prop :=
  ∀ pre rest x c, r (between pre rest) = .ok x c ↔
    ∃ t suf, rest = octets t ++ suf ∧ val t = x ∧ c = between (pre ++ octets t) suf

namespace Parses

variable {T T' : Type} {r : Program ε (Cursor α) β} {octets : T → List α} {val : T → β}

theorem reads (h : Parses r octets val) (t : T) : Reads r (octets t) (val t) :=
  fun pre suf => (h pre _ _ _).mpr ⟨t, suf, rfl, rfl, rfl⟩

/-- A reader that reads all pieces, and returns only in front of one of them. The second part is what makes
the octets the only ones that are accepted. -/
theorem of_reads (hreads : ∀ t, Reads r (octets t) (val t))
    (haccept : ∀ pre rest x c, r (between pre rest) = .ok x c → ∃ t suf, rest = octets t ++ suf) :
    Parses r octets val := by
  intro pre rest x c
  constructor
  · intro h
    obtain ⟨t, suf, rfl⟩ := haccept pre rest x c h
    obtain ⟨rfl, rfl⟩ := EStateM.Result.ok.inj ((hreads t pre suf).symm.trans h)
    exact ⟨t, suf, rfl, rfl, rfl⟩
  · rintro ⟨t, suf, rfl, rfl, rfl⟩
    exact hreads t pre suf

/-- What comes behind a piece must be safe wherever the piece stands. The reader itself never aborts here, so
all that can go wrong is behind the pieces that it accepts. -/
theorem safe_bind_iff {γ : Type} (h : Parses r octets val) (hr : NoAbort r)
    {f : β → Program ε (Cursor α) γ} {pre rest : List α} :
    Safe (r >>= f) (between pre rest) (fun _ _ => True) ↔
      ∀ t suf, rest = octets t ++ suf →
        Safe (f (val t)) (between (pre ++ octets t) suf) fun _ _ => True := by
  rw [Program.safe_bind_iff, and_iff_right (hr.safe _)]
  constructor
  · exact fun hsafe t suf hrest => hsafe _ _ ((h _ _ _ _).mpr ⟨t, suf, hrest, rfl, rfl⟩)
  · intro hsafe x c hrun
    obtain ⟨t, suf, hrest, rfl, rfl⟩ := (h _ _ _ _).mp hrun
    exact hsafe t suf hrest

/-- A repeated reader accepts as many pieces in a row. -/
theorem replicateM (h : Parses r octets val) (n : ℕ) :
    Parses (Program.replicateM r n) (fun ts : {ts : List T // ts.length = n} => ts.1.flatMap octets)
      fun ts => ts.1.map val := by
  refine of_reads (fun ⟨ts, hlen⟩ => hlen ▸ Reads.replicateM_map fun t _ => h.reads t) ?_
  induction n with
  | zero => exact fun _ rest _ _ _ => ⟨⟨[], rfl⟩, rest, rfl⟩
  | succ n ih =>
    intro pre rest xs c hrun
    simp only [Program.replicateM, bind_eq_ok_iff] at hrun
    obtain ⟨x, c₁, hx, xs', c₂, hxs, -⟩ := hrun
    obtain ⟨t, suf, rfl, -, rfl⟩ := (h _ _ _ _).mp hx
    obtain ⟨⟨ts, hlen⟩, suf', rfl⟩ := ih _ _ _ _ hxs
    exact ⟨⟨t :: ts, by simp [hlen]⟩, suf', by simp⟩

end Parses

/-! ### Writers -/

/-- The writer succeeds exactly when `P` holds, and then it has appended `out`. The condition is about the
values that are written, not about what was written before. -/
def Emits (w : Program ε (List α) Unit) (P : Prop) (out : List α) : Prop :=
  ∀ s s', w s = .ok () s' ↔ P ∧ s' = s ++ out

namespace Emits

/-- Writing nothing. -/
theorem pure : Emits (Pure.pure () : Program ε (List α) Unit) True [] := by
  intro s s'
  simp [eq_comm]

/-- Appending a fixed piece. -/
theorem append (out : List α) :
    Emits (modify (· ++ out) : Program ε (List α) Unit) True out := by
  intro s s'
  simp [eq_comm]

/-- One writer after the other. -/
theorem seq {w w' : Program ε (List α) Unit} {P P' : Prop} {out out' : List α}
    (h : Emits w P out) (h' : Emits w' P' out') :
    Emits (w >>= fun _ => w') (P ∧ P') (out ++ out') := by
  intro s s''
  constructor
  · intro hs
    obtain ⟨_, s', hw, hw'⟩ := bind_eq_ok_iff.mp hs
    obtain ⟨hP, rfl⟩ := (h s s').mp hw
    obtain ⟨hP', rfl⟩ := (h' _ s'').mp hw'
    exact ⟨⟨hP, hP'⟩, by simp⟩
  · rintro ⟨⟨hP, hP'⟩, rfl⟩
    exact bind_eq_ok_iff.mpr ⟨(), s ++ out, (h s _).mpr ⟨hP, rfl⟩, (h' _ _).mpr ⟨hP', by simp⟩⟩

/-- A check writes nothing. -/
theorem check {c : Prop} [Decidable c] {e : ε} :
    Emits (checkThat c e : Program ε (List α) Unit) c [] := by
  intro s s'
  simp only [checkThat_eq_ok_iff, List.append_nil]
  exact and_congr_right fun _ => eq_comm

/-- An assertion writes nothing. -/
theorem assert {c : Prop} [Decidable c] :
    Emits (assertThat c : Program ε (List α) Unit) c [] := by
  intro s s'
  simp only [assertThat_eq_ok_iff, List.append_nil]
  exact and_congr_right fun _ => eq_comm

/-- The condition under which a writer succeeds may be replaced by an equivalent one. -/
theorem congr {w : Program ε (List α) Unit} {P P' : Prop} {out out' : List α} (h : Emits w P out)
    (hP : P ↔ P') (hout : P' → out = out') : Emits w P' out' := by
  intro s s'
  rw [h s s', hP]
  exact and_congr_right fun hP' => by rw [hout hP']

/-- A writer run on each element of a list. -/
theorem forM {w : β → Program ε (List α) Unit} {P : β → Prop} {out : β → List α}
    (h : ∀ x, Emits (w x) (P x) (out x)) (xs : List β) :
    Emits (xs.forM w) (∀ x ∈ xs, P x) (xs.flatMap out) := by
  induction xs with
  | nil => exact pure.congr (by simp) fun _ => rfl
  | cons x xs ih => exact ((h x).seq ih).congr (by simp) fun _ => by simp

end Emits

end Toolkit
