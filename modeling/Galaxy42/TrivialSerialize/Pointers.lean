import Galaxy42.TrivialSerialize.Interface

/-!
# The pointers of the parser

`parser` holds three pointers into the memory. `Pointers` are their addresses, with a record of the
addresses that were read and of the values the middle pointer has had. The six operations that touch the
pointers are written as the sources write them, with the differences of pointers that are cast to
`size_t`, and with the assertions about the pointers.

Whatever code calls them, in whatever order and with whatever sizes, nothing outside of the data is read,
and the middle pointer stays between the other two (`Pops.preserves_inside`); the assertions do not
fail. The model over a read position is what such pointers do (`Pops.simulates_runAt`).

The records make this a statement about every moment: that `m_data_now` has never been outside is a fact about
the list of its values, and one octet that was read out of bounds would stay in the list of the reads. The
invariant (`Inside`) is about both lists and about the three pointers, and each operation keeps it however it
ends. Behind the exceptions the parser is used on, as a caller can catch them: `callAll` makes call after
call, and `inside_callAll` is about all of them.

The simulation relates pointers to a cursor over the octets between the outer two (`Represents`). It
is proved once for each of the six operations; for scripts it follows as everything about scripts does, and
with it each lemma about the cursor becomes one about the pointers.
-/

namespace Galaxy42

open Toolkit Program

namespace TrivialSerialize

/-- The pointers of `parser`. -/
structure Pointers where
  /-- `m_data_begin` -/
  dataBegin : ℕ
  /-- `m_data_now` -/
  dataNow : ℕ
  /-- `m_data_end` -/
  dataEnd : ℕ
  /-- The addresses that were read. -/
  reads : List ℕ
  /-- The values that `m_data_now` was given. -/
  positions : List ℕ
  deriving DecidableEq, Repr

namespace Pointers

/-- The constructor of `parser` over a buffer. -/
def ofBuffer (buf size : ℕ) : Pointers :=
  { dataBegin := buf, dataNow := buf, dataEnd := buf + size, reads := [], positions := [buf] }

/-- The constructor of `parser` over a string at an address, which refuses the empty string. -/
def ofString {σ : Type} (address : ℕ) (dataStr : Bytes) : Program Exn σ Pointers := do
  checkThat (dataStr ≠ []) (.invalidArgument "input string is empty")
  return ofBuffer address dataStr.length

/-- `m_data_now` is given a value. -/
def moveTo (p : Pointers) (address : ℕ) : Pointers :=
  { p with dataNow := address, positions := p.positions ++ [address] }

/-- Octets in a row are read. -/
def read (p : Pointers) (address size : ℕ) : Pointers :=
  { p with reads := p.reads ++ List.range' address size }

/-- `static_cast<size_t>(m_data_end - m_data_now)` -/
def sizeAhead (p : Pointers) : ℕ :=
  (((p.dataEnd : ℤ) - p.dataNow) % 2 ^ 64).toNat

end Pointers

/-! ### The operations on the pointers -/

section Operations

variable (memory : ℕ → UInt8)

/-- `parser::is_end` -/
def isEndAt : Program Exn Pointers Bool := do
  let p ← get
  return decide (p.dataNow ≥ p.dataEnd)

/-- `parser::pop_byte_u` -/
def popByteUAt : Program Exn Pointers UInt8 := do
  let p ← get
  checkThat (p.dataNow < p.dataEnd) .formatErrorRead
  checkThat ((p.dataEnd : ℤ) - p.dataNow ≥ 1) .formatErrorRead
  assertThat (p.dataNow < p.dataEnd ∧ p.dataNow ≥ p.dataBegin)
  let c := memory p.dataNow
  set ((p.read p.dataNow 1).moveTo (p.dataNow + 1))
  return c

/-- `parser::pop_byte_s` -/
def popByteSAt : Program Exn Pointers Int8 := do
  let p ← get
  checkThat (p.dataNow < p.dataEnd) .formatErrorRead
  checkThat ((p.dataEnd : ℤ) - p.dataNow ≥ 1) .formatErrorRead
  assertThat (p.dataNow < p.dataEnd ∧ p.dataNow ≥ p.dataBegin)
  let c := (memory p.dataNow).toInt8
  set ((p.read p.dataNow 1).moveTo (p.dataNow + 1))
  return c

/-- `parser::pop_byte_skip` -/
def popByteSkipAt (c : Int8) : Program Exn Pointers Unit := do
  let was ← popByteUAt memory
  if was ≠ c.toUInt8 then
    modify fun p => p.moveTo (p.dataNow - 1)
    raise .formatErrorReadDelimiter

/-- `parser::pop_bytes_n` -/
def popBytesNAt (size : ℕ) : Program Exn Pointers Bytes := do
  if size = 0 then
    return []
  let p ← get
  checkThat (p.dataNow < p.dataEnd) .formatErrorRead
  checkThat (p.sizeAhead ≥ size) .formatErrorRead
  assertThat (p.dataNow < p.dataEnd ∧ p.dataNow ≥ p.dataBegin)
  assertThat (p.dataNow + size ≤ p.dataEnd)
  set ((p.moveTo (p.dataNow + size)).read p.dataNow size)
  return (List.range' p.dataNow size).map memory

/-- `parser::skip_bytes_n` -/
def skipBytesNAt (size : ℕ) : Program Exn Pointers Unit := do
  if size = 0 then
    return
  let p ← get
  checkThat (p.dataNow < p.dataEnd) .formatErrorRead
  checkThat (p.sizeAhead ≥ size) .formatErrorRead
  assertThat (p.dataNow < p.dataEnd ∧ p.dataNow ≥ p.dataBegin)
  assertThat (p.dataNow + size ≤ p.dataEnd)
  set (p.moveTo (p.dataNow + size))

/-- The operations, over the pointers. -/
def ParserOp.runAt {α : Type} : ParserOp α → Program Exn Pointers α
  | isEnd => isEndAt
  | popByteU => popByteUAt memory
  | popByteS => popByteSAt memory
  | popByteSkip c => popByteSkipAt memory c
  | popBytesN size => popBytesNAt memory size
  | skipBytesN size => skipBytesNAt size

/-- What code that uses a parser does to the pointers. -/
def Pops.runAt {α : Type} (p : Pops α) : Program Exn Pointers α :=
  Script.run (fun op => op.runAt memory) p

end Operations

/-! ### What the operations do -/

section Operations

variable {memory : ℕ → UInt8} {p : Pointers}

private theorem Pointers.sizeAhead_le (h : p.dataNow ≤ p.dataEnd) : p.dataNow + p.sizeAhead ≤ p.dataEnd := by
  unfold sizeAhead
  omega

/-- The cast to `size_t` keeps the difference of pointers into one object. -/
private theorem Pointers.sizeAhead_eq (h : p.dataNow ≤ p.dataEnd) (hlt : p.dataEnd - p.dataNow < 2 ^ 64) :
    p.sizeAhead = p.dataEnd - p.dataNow := by
  unfold sizeAhead
  omega

private theorem popByteUAt_of_le (h : p.dataEnd ≤ p.dataNow) :
    popByteUAt memory p = .error (.throw .formatErrorRead) p := by
  have hend : ¬ p.dataNow < p.dataEnd := not_lt.mpr h
  simp [popByteUAt, bind_apply, checkThat_apply, hend]

private theorem popByteUAt_of_lt (hbegin : p.dataBegin ≤ p.dataNow) (h : p.dataNow < p.dataEnd) :
    popByteUAt memory p =
      .ok (memory p.dataNow) ((p.read p.dataNow 1).moveTo (p.dataNow + 1)) := by
  have hone : (p.dataEnd : ℤ) - p.dataNow ≥ 1 := by omega
  simp [popByteUAt, bind_apply, map_apply, checkThat_apply, assertThat_apply, h, hone, hbegin]

private theorem popByteSAt_eq : popByteSAt memory = UInt8.toInt8 <$> popByteUAt memory := by
  simp only [popByteSAt, popByteUAt, map_bind, map_pure]

/-- On another octet than the expected one, the pointer goes one back. -/
theorem popByteSkipAt_of_lt {c : Int8} (hbegin : p.dataBegin ≤ p.dataNow)
    (h : p.dataNow < p.dataEnd) :
    popByteSkipAt memory c p =
      if memory p.dataNow ≠ c.toUInt8 then
        .error (.throw .formatErrorReadDelimiter)
          (((p.read p.dataNow 1).moveTo (p.dataNow + 1)).moveTo p.dataNow)
      else .ok () ((p.read p.dataNow 1).moveTo (p.dataNow + 1)) := by
  rw [popByteSkipAt, bind_of_ok (popByteUAt_of_lt hbegin h)]
  split_ifs <;> rfl

private theorem popByteSkipAt_of_le {c : Int8} (h : p.dataEnd ≤ p.dataNow) :
    popByteSkipAt memory c p = .error (.throw .formatErrorRead) p :=
  bind_of_error (popByteUAt_of_le h)

/-- Nothing is done for a size of zero, and for a size that is too large there is an exception. -/
theorem popBytesNAt_eq (hbegin : p.dataBegin ≤ p.dataNow) (hend : p.dataNow ≤ p.dataEnd) (size : ℕ) :
    popBytesNAt memory size p =
      if size = 0 then .ok [] p
      else if p.dataNow < p.dataEnd ∧ size ≤ p.sizeAhead then
        .ok ((List.range' p.dataNow size).map memory)
          ((p.moveTo (p.dataNow + size)).read p.dataNow size)
      else .error (.throw .formatErrorRead) p := by
  have hle := Pointers.sizeAhead_le hend
  unfold popBytesNAt
  split_ifs with hzero hfits
  · rfl
  · have hsum : p.dataNow + size ≤ p.dataEnd := by omega
    simp [bind_apply, map_apply, checkThat_apply, assertThat_apply, hfits.1, hfits.2, hbegin, hsum]
  · rw [not_and] at hfits
    by_cases hlt : p.dataNow < p.dataEnd
    · simp [bind_apply, checkThat_apply, hlt, hfits hlt]
    · simp [bind_apply, checkThat_apply, hlt]

private theorem skipBytesNAt_eq (hbegin : p.dataBegin ≤ p.dataNow) (hend : p.dataNow ≤ p.dataEnd)
    (size : ℕ) :
    skipBytesNAt size p =
      if size = 0 then .ok () p
      else if p.dataNow < p.dataEnd ∧ size ≤ p.sizeAhead then .ok () (p.moveTo (p.dataNow + size))
      else .error (.throw .formatErrorRead) p := by
  have hle := Pointers.sizeAhead_le hend
  unfold skipBytesNAt
  split_ifs with hzero hfits
  · rfl
  · have hsum : p.dataNow + size ≤ p.dataEnd := by omega
    simp [bind_apply, checkThat_apply, assertThat_apply, hfits.1, hfits.2, hbegin, hsum]
  · rw [not_and] at hfits
    by_cases hlt : p.dataNow < p.dataEnd
    · simp [bind_apply, checkThat_apply, hlt, hfits hlt]
    · simp [bind_apply, checkThat_apply, hlt]

end Operations

/-! ### Inside the data -/

/-- The pointers are those of data between two addresses, `m_data_now` has never left them, and nothing
outside of them was read. The lists grow with each operation, so they tell it of every moment of a run and not
only of its end. -/
structure Inside (first last : ℕ) (p : Pointers) : Prop where
  dataBegin_eq : p.dataBegin = first
  dataEnd_eq : p.dataEnd = last
  first_le : first ≤ p.dataNow
  le_last : p.dataNow ≤ last
  reads_lt : ∀ a ∈ p.reads, first ≤ a ∧ a < last
  positions_le : ∀ a ∈ p.positions, first ≤ a ∧ a ≤ last

namespace Inside

variable {first last : ℕ} {p : Pointers}

private theorem ofBuffer (buf size : ℕ) : Inside buf (buf + size) (.ofBuffer buf size) where
  dataBegin_eq := rfl
  dataEnd_eq := rfl
  first_le := le_rfl
  le_last := Nat.le_add_right _ _
  reads_lt := nofun
  positions_le a ha := by
    obtain rfl : a = buf := by simpa [Pointers.ofBuffer] using ha
    exact ⟨le_rfl, Nat.le_add_right _ _⟩

private theorem moveTo (h : Inside first last p) {address : ℕ} (hfirst : first ≤ address)
    (hlast : address ≤ last) : Inside first last (p.moveTo address) where
  dataBegin_eq := h.dataBegin_eq
  dataEnd_eq := h.dataEnd_eq
  first_le := hfirst
  le_last := hlast
  reads_lt := h.reads_lt
  positions_le a ha := by
    rcases List.mem_append.mp ha with ha | ha
    · exact h.positions_le a ha
    · obtain rfl := List.mem_singleton.mp ha
      exact ⟨hfirst, hlast⟩

private theorem read (h : Inside first last p) {address size : ℕ} (hfirst : first ≤ address)
    (hlast : address + size ≤ last) : Inside first last (p.read address size) where
  dataBegin_eq := h.dataBegin_eq
  dataEnd_eq := h.dataEnd_eq
  first_le := h.first_le
  le_last := h.le_last
  reads_lt a ha := by
    rcases List.mem_append.mp ha with ha | ha
    · exact h.reads_lt a ha
    · obtain ⟨hle, hlt⟩ := List.mem_range'_1.mp ha
      exact ⟨hfirst.trans hle, hlt.trans_le hlast⟩
  positions_le := h.positions_le

end Inside

section Runs

variable {first last : ℕ} (memory : ℕ → UInt8)

/-- However it ends, an operation on pointers inside the data leaves them inside the data. -/
theorem ParserOp.preserves_inside {α : Type} (op : ParserOp α) :
    Preserves (Inside first last) (op.runAt memory) := by
  intro p hp
  have hbegin : p.dataBegin ≤ p.dataNow := hp.dataBegin_eq.le.trans hp.first_le
  have hend : p.dataNow ≤ p.dataEnd := hp.le_last.trans hp.dataEnd_eq.ge
  have hbyte : p.dataNow < p.dataEnd →
      Inside first last ((p.read p.dataNow 1).moveTo (p.dataNow + 1)) := fun hlt => by
    rw [hp.dataEnd_eq] at hlt
    exact (hp.read hp.first_le hlt).moveTo (hp.first_le.trans (Nat.le_succ _)) hlt
  have hsum : ∀ {size}, size ≤ p.sizeAhead → p.dataNow + size ≤ last := fun hsize =>
    (Nat.add_le_add_left hsize _).trans ((Pointers.sizeAhead_le hend).trans hp.dataEnd_eq.le)
  cases op with
  | isEnd => exact hp
  | popByteU =>
    rcases lt_or_ge p.dataNow p.dataEnd with hlt | hge
    · rw [runAt, finalState_of_ok (popByteUAt_of_lt hbegin hlt)]
      exact hbyte hlt
    · rwa [runAt, finalState_of_error (popByteUAt_of_le hge)]
  | popByteS =>
    rw [runAt, popByteSAt_eq, finalState_map]
    rcases lt_or_ge p.dataNow p.dataEnd with hlt | hge
    · rw [finalState_of_ok (popByteUAt_of_lt hbegin hlt)]
      exact hbyte hlt
    · rwa [finalState_of_error (popByteUAt_of_le hge)]
  | popByteSkip c =>
    rcases lt_or_ge p.dataNow p.dataEnd with hlt | hge
    · have hrun := @popByteSkipAt_of_lt memory p c hbegin hlt
      split_ifs at hrun with hc
      · rw [runAt, finalState_of_error hrun]
        exact (hbyte hlt).moveTo hp.first_le hp.le_last
      · rw [runAt, finalState_of_ok hrun]
        exact hbyte hlt
    · rwa [runAt, finalState_of_error (popByteSkipAt_of_le hge)]
  | popBytesN size =>
    have hrun := @popBytesNAt_eq memory p hbegin hend size
    split_ifs at hrun with hzero hfits
    · rwa [runAt, finalState_of_ok hrun]
    · rw [runAt, finalState_of_ok hrun]
      exact (hp.moveTo (hp.first_le.trans (Nat.le_add_right _ _)) (hsum hfits.2)).read hp.first_le
        (hsum hfits.2)
    · rwa [runAt, finalState_of_error hrun]
  | skipBytesN size =>
    have hrun := skipBytesNAt_eq hbegin hend size
    split_ifs at hrun with hzero hfits
    · rwa [runAt, finalState_of_ok hrun]
    · rw [runAt, finalState_of_ok hrun]
      exact hp.moveTo (hp.first_le.trans (Nat.le_add_right _ _)) (hsum hfits.2)
    · rwa [runAt, finalState_of_error hrun]

/-- However it ends, code that uses a parser leaves its pointers inside the data, and reads nothing
outside of them. -/
theorem Pops.preserves_inside {α : Type} (p : Pops α) :
    Preserves (Inside first last) (p.runAt memory) :=
  Script.preserves_run (fun op => op.preserves_inside memory) p

end Runs

/-! ### Calls -/

namespace PopOperation

/-- The operation as a script, whatever it returns. -/
def script : PopOperation → Pops Unit
  | popByteU => do let _ ← Pops.popByteU
  | popByteS => do let _ ← Pops.popByteS
  | popByteSkip c => Pops.popByteSkip c
  | popIntegerU S T => do let _ ← Pops.popIntegerU S T
  | popIntegerS => do let _ ← Pops.popIntegerS
  | popBytesN size => do let _ ← Pops.popBytesN size
  | skipBytesN size => Pops.skipBytesN size
  | popBytesSizeoctets S => do let _ ← Pops.popBytesSizeoctets S
  | popIntegerUvarint => do let _ ← Pops.popIntegerUvarint
  | popVarstring => do let _ ← Pops.popVarstring
  | skipVarstring => Pops.skipVarstring
  | popVectorString => do let _ ← Pops.popVectorString
  | popVectorObject object => do let _ ← Pops.popVectorObject object
  | popMapObject objectKey objectVal => do let _ ← Pops.popMapObject objectKey objectVal

/-- The script runs as the operation does. -/
theorem run_script (op : PopOperation) : op.script.run = op.run := by
  have hdiscard : ∀ {α : Type} (p : Pops α), Pops.run (p >>= fun _ => pure ()) = discard p.run :=
    fun p => (map_eq_pure_bind _ _).symm
  cases op with
  | popByteU => exact hdiscard _
  | popByteS => exact hdiscard _
  | popByteSkip c => rfl
  | popIntegerU S T => exact (hdiscard _).trans (by rw [Pops.run_popIntegerU]; rfl)
  | popIntegerS => exact hdiscard _
  | popBytesN size => exact hdiscard _
  | skipBytesN size => rfl
  | popBytesSizeoctets S => exact (hdiscard _).trans (by rw [Pops.run_popBytesSizeoctets]; rfl)
  | popIntegerUvarint => exact (hdiscard _).trans (by rw [Pops.run_popIntegerUvarint]; rfl)
  | popVarstring => exact (hdiscard _).trans (by rw [Pops.run_popVarstring]; rfl)
  | skipVarstring => exact Pops.run_skipVarstring
  | popVectorString => exact (hdiscard _).trans (by rw [Pops.run_popVectorString]; rfl)
  | popVectorObject object => exact (hdiscard _).trans (by rw [Pops.run_popVectorObject]; rfl)
  | popMapObject objectKey objectVal =>
    exact (hdiscard _).trans (by rw [Pops.run_popMapObject]; rfl)

end PopOperation

/-- A call of the parser. -/
inductive Call : Type 1 where
  | operation (op : PopOperation)
  /-- `parser::pop_object<T>` -/
  | popObject {τ : Type} (object : Pops τ)
  /-- `parser::is_end` -/
  | isEnd

/-- A call, as a script. -/
def Call.script : Call → Pops Unit
  | operation op => op.script
  | popObject object => do let _ ← object
  | isEnd => do let _ ← Pops.isEnd

/-- Calls one after the other. What they throw is caught, and the next one is made. -/
def callAll (calls : List Call) : Pops Unit :=
  calls.forM fun call => .catching call.script fun _ => pure ()

/-- Whatever is called on a new parser, over a buffer or over a string that is not empty, its pointer stays
between the begin and the end of the data, and nothing outside of them is read. The sizes of the calls may be
anything, and calls go on after one of them has thrown. -/
theorem inside_callAll (memory : ℕ → UInt8) (calls : List Call) :
    (∀ buf size,
      Inside buf (buf + size) (finalState ((callAll calls).runAt memory) (.ofBuffer buf size))) ∧
    ∀ address dataStr (parser : Pointers), Pointers.ofString address dataStr () = .ok parser () →
      Inside address (address + dataStr.length)
        (finalState ((callAll calls).runAt memory) parser) := by
  have hbuffer : ∀ buf size,
      Inside buf (buf + size) (finalState ((callAll calls).runAt memory) (.ofBuffer buf size)) :=
    fun buf size => (callAll calls).preserves_inside memory _ (Inside.ofBuffer buf size)
  refine ⟨hbuffer, fun address dataStr parser hparser => ?_⟩
  simp only [Pointers.ofString, bind_eq_ok_iff, checkThat_eq_ok_iff, pure_apply,
    EStateM.Result.ok.injEq] at hparser
  obtain ⟨_, _, -, rfl, -⟩ := hparser
  exact hbuffer address dataStr.length

/-! ### The read position -/

/-- The pointers stand in data that lie in the memory, where the cursor stands. -/
structure Represents (memory : ℕ → UInt8) (p : Pointers) (c : Cursor UInt8) : Prop where
  dataNow_eq : p.dataNow = p.dataBegin + c.now
  dataEnd_eq : p.dataEnd = p.dataBegin + c.data.length
  now_le : c.now ≤ c.data.length
  length_lt : c.data.length < 2 ^ 64
  data_eq : (List.range' p.dataBegin c.data.length).map memory = c.data

namespace Represents

variable {memory : ℕ → UInt8} {p p' : Pointers} {c : Cursor UInt8}

private theorem ahead_eq (h : Represents memory p c) :
    c.ahead = (List.range' p.dataNow c.ahead.length).map memory := by
  have hlen : c.ahead.length = c.data.length - c.now := List.length_drop
  rw [hlen, h.dataNow_eq, Cursor.ahead]
  conv_lhs => rw [← h.data_eq]
  rw [← List.map_drop, List.drop_range', Nat.mul_one]

private theorem sub_eq (h : Represents memory p c) : p.dataEnd - p.dataNow = c.ahead.length := by
  have hlen : c.ahead.length = c.data.length - c.now := List.length_drop
  rw [h.dataEnd_eq, h.dataNow_eq, hlen]
  omega

/-- Moving on by as much. -/
theorem advance (h : Represents memory p c) {n : ℕ} (hn : n ≤ c.ahead.length)
    (hbegin : p'.dataBegin = p.dataBegin) (hend : p'.dataEnd = p.dataEnd)
    (hnow : p'.dataNow = p.dataNow + n) : Represents memory p' (c.advance n) where
  dataNow_eq := by rw [hnow, h.dataNow_eq, hbegin, Nat.add_assoc]; rfl
  dataEnd_eq := by rw [hend, h.dataEnd_eq, hbegin]; rfl
  now_le := by
    have hlen : c.ahead.length = c.data.length - c.now := List.length_drop
    have hnow_le := h.now_le
    change c.now + n ≤ c.data.length
    omega
  length_lt := h.length_lt
  data_eq := by rw [hbegin]; exact h.data_eq

/-- The octets ahead are those in the memory. -/
private theorem take_eq (h : Represents memory p c) {n : ℕ} (hn : n ≤ c.ahead.length) :
    (List.range' p.dataNow n).map memory = c.ahead.take n := by
  rw [h.ahead_eq, ← List.map_take, List.take_range'_of_length_ge hn]

/-- There is something ahead exactly when the pointer is not at the end. -/
theorem ahead_cases (h : Represents memory p c) :
    (p.dataEnd ≤ p.dataNow ∧ c.ahead = []) ∨
      (p.dataNow < p.dataEnd ∧ ∃ rest, c.ahead = memory p.dataNow :: rest) := by
  have hsub := h.sub_eq
  cases hahead : c.ahead with
  | nil =>
    rw [hahead, List.length_nil] at hsub
    exact .inl ⟨by omega, rfl⟩
  | cons b rest =>
    rw [hahead, List.length_cons] at hsub
    have hb := h.ahead_eq
    rw [hahead, List.length_cons, List.range'_succ, List.map_cons, List.cons.injEq] at hb
    exact .inr ⟨by omega, rest, by rw [hb.1]⟩

private theorem le (h : Represents memory p c) : p.dataBegin ≤ p.dataNow ∧ p.dataNow ≤ p.dataEnd := by
  have hnow := h.dataNow_eq
  have hend := h.dataEnd_eq
  have hle := h.now_le
  omega

private theorem sizeAhead_eq (h : Represents memory p c) : p.sizeAhead = c.ahead.length := by
  have hlen : c.ahead.length = c.data.length - c.now := List.length_drop
  have hlt := h.length_lt
  rw [← h.sub_eq]
  refine Pointers.sizeAhead_eq h.le.2 ?_
  rw [h.sub_eq]
  omega

/-- There are enough octets ahead exactly when the check of the sizes passes. -/
theorem fits_iff (h : Represents memory p c) {size : ℕ} (hpos : size ≠ 0) :
    (p.dataNow < p.dataEnd ∧ size ≤ p.sizeAhead) ↔ size ≤ c.ahead.length := by
  have hsub := h.sub_eq
  rw [h.sizeAhead_eq]
  omega

end Represents

section Simulation

variable {memory : ℕ → UInt8}

/-- One octet is read in the same way. -/
private theorem simulates_popByteUAt : Simulates (Represents memory) (popByteUAt memory) popByteU := by
  intro p c h
  rcases h.ahead_cases with ⟨hend, hnil⟩ | ⟨hlt, rest, hcons⟩
  · exact .inr ⟨_, p, c, popByteUAt_of_le hend, popByteU_of_nil hnil, h⟩
  · refine .inl ⟨_, _, _, popByteUAt_of_lt h.le.1 hlt, popByteU_of_cons hcons, ?_⟩
    exact h.advance (by rw [hcons]; exact Nat.succ_pos _) rfl rfl rfl

/-- Each operation on the pointers does what it does on the read position. -/
theorem ParserOp.simulates_runAt {α : Type} (op : ParserOp α) :
    Simulates (Represents memory) (op.runAt memory) op.run := by
  cases op with
  | isEnd =>
    intro p c h
    have hend : decide (p.dataNow ≥ p.dataEnd) = decide (c.now ≥ c.data.length) := by
      rw [h.dataNow_eq, h.dataEnd_eq]
      exact decide_eq_decide.mpr (Nat.add_le_add_iff_left)
    exact .inl ⟨_, p, c, rfl, by rw [hend]; rfl, h⟩
  | popByteU => exact simulates_popByteUAt
  | popByteS =>
    rw [runAt, run, popByteSAt_eq, popByteS_eq, map_eq_pure_bind, map_eq_pure_bind]
    exact simulates_popByteUAt.bind fun b => .pure _
  | popByteSkip expected =>
    intro p c h
    rcases h.ahead_cases with ⟨hend, hnil⟩ | ⟨hlt, rest, hcons⟩
    · exact .inr ⟨_, p, c, popByteSkipAt_of_le hend, popByteSkip_of_nil expected hnil, h⟩
    · have hrun := @popByteSkipAt_of_lt memory p expected h.le.1 hlt
      split_ifs at hrun with hb
      · refine .inr ⟨_, _, c, hrun, popByteSkip_of_ne hcons hb, ?_⟩
        exact h.advance (n := 0) (Nat.zero_le _) rfl rfl rfl
      · refine .inl ⟨_, _, _, hrun, popByteSkip_of_eq hcons (not_not.mp hb), ?_⟩
        exact h.advance (by rw [hcons]; exact Nat.succ_pos _) rfl rfl rfl
  | popBytesN size =>
    intro p c h
    have hrun := @popBytesNAt_eq memory p h.le.1 h.le.2 size
    split_ifs at hrun with hzero hfits
    · subst hzero
      exact .inl ⟨_, p, c, hrun, rfl, h⟩
    · rw [h.fits_iff hzero] at hfits
      rw [h.take_eq hfits] at hrun
      exact .inl ⟨_, _, _, hrun, popBytesN_of_le hfits, h.advance hfits rfl rfl rfl⟩
    · rw [h.fits_iff hzero] at hfits
      exact .inr ⟨_, p, c, hrun, popBytesN_of_lt (not_le.mp hfits), h⟩
  | skipBytesN size =>
    intro p c h
    have hrun := skipBytesNAt_eq h.le.1 h.le.2 size
    rw [run, skipBytesN_eq]
    split_ifs at hrun with hzero hfits
    · subst hzero
      exact .inl ⟨(), p, c, hrun, rfl, h⟩
    · rw [h.fits_iff hzero] at hfits
      exact .inl ⟨(), _, _, hrun, bind_of_ok (popBytesN_of_le hfits), h.advance hfits rfl rfl rfl⟩
    · rw [h.fits_iff hzero] at hfits
      exact .inr ⟨_, p, c, hrun, bind_of_error (popBytesN_of_lt (not_le.mp hfits)), h⟩

/-- Code that uses a parser does to the pointers what it does to the read position. -/
theorem Pops.simulates_runAt {α : Type} (p : Pops α) :
    Simulates (Represents memory) (p.runAt memory) p.run :=
  Script.simulates_run (fun op => op.simulates_runAt) p

end Simulation

end TrivialSerialize

end Galaxy42
