import Galaxy42.Lib.Script
import Galaxy42.TrivialSerialize.Syntax

/-!
# The interfaces of the parser and the generator

Code that uses a parser, and the `obj_deserialize` of a type among it, can do nothing but call the
operations of the parser. `Pops α` is such code. Six operations touch the read position
(`ParserOp`); the others are written with them, here once more as scripts, and each of these runs as
the operation of the model does (`run_pop...`). In the same way `Pushes α` is code that uses a generator,
the `obj_serialize` of a type among it.

`PopOperation` and `PushOperation` list the pops, skips and pushes, with the scripts for the objects that
the templates among them read and write.

A script is a tree of calls (`Lib.Script`): each call goes on in a way that depends on what it returned. What can
be proved of every script by induction over the tree holds of all code that uses a parser, also of code that is
not in the sources, and the induction needs one fact for each of the six operations. So the position only moves
ahead (`Pops.finalState_run`), and the string of a generator only grows (`Pushes.preserves_run`).

The scripts are a second way to write the operations. The first one, in `Parser`, is the one that follows the
sources; the lemmas `run_pop...` are what connects the two, and they hold by the laws of programs.
-/

namespace Galaxy42

open Toolkit Program

namespace TrivialSerialize

/-- The operations of `parser` that touch its position. All other pops are made of these. -/
inductive ParserOp : Type → Type where
  | isEnd : ParserOp Bool
  | popByteU : ParserOp UInt8
  | popByteS : ParserOp Int8
  | popByteSkip (c : Int8) : ParserOp Unit
  | popBytesN (size : ℕ) : ParserOp Bytes
  | skipBytesN (size : ℕ) : ParserOp Unit

/-- The operations, over the read position. -/
def ParserOp.run {α : Type} : ParserOp α → Parser α
  | isEnd => TrivialSerialize.isEnd
  | popByteU => TrivialSerialize.popByteU
  | popByteS => TrivialSerialize.popByteS
  | popByteSkip c => TrivialSerialize.popByteSkip c
  | popBytesN size => TrivialSerialize.popBytesN size
  | skipBytesN size => TrivialSerialize.skipBytesN size

/-- Code that uses a parser. Templates over objects call `obj_deserialize`, which is code like this. -/
abbrev Pops := Script Exn ParserOp

namespace Pops

open Script (call raise checkThat assertThat replicateM)

variable {α τ κ ν : Type}

/-- What the code does to a read position. -/
def run (p : Pops α) : Parser α :=
  Script.run (fun op => op.run) p

/-! ### The operations as scripts -/

def isEnd : Pops Bool := call .isEnd

def popByteU : Pops UInt8 := call .popByteU

def popByteS : Pops Int8 := call .popByteS

def popByteSkip (c : Int8) : Pops Unit := call (.popByteSkip c)

def popBytesN (size : ℕ) : Pops Bytes := call (.popBytesN size)

def skipBytesN (size : ℕ) : Pops Unit := call (.skipBytesN size)

/-- The loop of `pop_integer_u<S, T>`. -/
def popIntegerULoop (T : UIntType) (value multiplier : ℕ) : ℕ → Pops ℕ
  | 0 => pure value
  | i + 1 => do
    let thisByte ← popByteU
    popIntegerULoop T (T.wrap (value + thisByte.toNat * multiplier)) (multiplier >>> 8) i

/-- `parser::pop_integer_u<S, T>` -/
def popIntegerU (S : OctetCount 8) (T : UIntType) : Pops ℕ :=
  popIntegerULoop T 0 (1 <<< ((S.val - 1) * 8)) S

/-- `parser::pop_integer_s<S, T>` -/
def popIntegerS : Pops ℤ :=
  raise (.runtimeError "Not implemented yet")

/-- `parser::pop_bytes_sizeoctets<S>` -/
def popBytesSizeoctets (S : OctetCount 4) : Pops Bytes := do
  let size ← popIntegerU (OctetCount.ofSize S) .u64
  popBytesN size

/-- `parser::pop_integer_uvarint` -/
def popIntegerUvarint : Pops ℕ := do
  let first ← popByteU
  if first < 0xFD then
    return first.toNat
  else if first = 0xFD then
    popIntegerU OctetCount.two .u64
  else if first = 0xFE then
    popIntegerU OctetCount.four .u64
  else
    popIntegerU OctetCount.eight .u64

/-- `parser::pop_varstring` -/
def popVarstring : Pops Bytes := do
  let size ← popIntegerUvarint
  assertThat (size ≤ saneMaxSizeForString)
  popBytesN size

/-- `parser::skip_varstring` -/
def skipVarstring : Pops Unit := do
  let size ← popIntegerUvarint
  assertThat (size ≤ saneMaxSizeForString)
  skipBytesN size

/-- `parser::pop_vector_string` -/
def popVectorString : Pops (List Bytes) := do
  let size ← popIntegerUvarint
  replicateM popVarstring size

/-- `parser::pop_vector_object<T>` -/
def popVectorObject (object : Pops τ) : Pops (List τ) := do
  let size ← popIntegerUvarint
  replicateM object size

section PopMapObject

variable [Ord κ] [Std.TransOrd κ] (objectKey : Pops κ) (objectVal : Pops ν)

/-- One round of the loop of `pop_map_object`. -/
def popMapEntry (ret : Std.ExtTreeMap κ ν) : Pops (Std.ExtTreeMap κ ν) := do
  let key ← objectKey
  let value ← objectVal
  checkThat (¬ key ∈ ret) .formatErrorReadBadformat
  let ret' := ret.insertIfNew key value
  checkThat (ret'.size = ret.size + 1) .formatErrorReadBadformat
  return ret'

/-- The loop of `pop_map_object`. -/
def popMapLoop : ℕ → Std.ExtTreeMap κ ν → Pops (Std.ExtTreeMap κ ν)
  | 0, ret => pure ret
  | i + 1, ret => do
    let ret' ← popMapEntry objectKey objectVal ret
    popMapLoop i ret'

/-- `parser::pop_map_object<TKey, TVal>` -/
def popMapObject : Pops (Std.ExtTreeMap κ ν) := do
  let size ← popIntegerUvarint
  let ret ← popMapLoop objectKey objectVal size ∅
  checkThat (ret.size = size) .formatErrorReadBadformat
  return ret

end PopMapObject

/-! ### Scripts run as the operations do -/

@[simp] theorem run_pure (a : α) : run (Pure.pure a) = Pure.pure a := rfl

@[simp] theorem run_bind {β : Type} (p : Pops α) (f : α → Pops β) :
    run (p >>= f) = run p >>= fun a => run (f a) := rfl

@[simp] theorem run_ite (c : Prop) [Decidable c] (p q : Pops α) :
    run (if c then p else q) = if c then run p else run q :=
  apply_ite _ _ _ _

@[simp] theorem run_checkThat (c : Prop) [Decidable c] (e : Exn) :
    run (Script.checkThat c e) = Program.checkThat c e :=
  Script.run_checkThat c e

@[simp] theorem run_assertThat (c : Prop) [Decidable c] :
    run (Script.assertThat c) = Program.assertThat c :=
  Script.run_assertThat c

@[simp] theorem run_replicateM (p : Pops α) (n : ℕ) :
    run (Script.replicateM p n) = Program.replicateM (run p) n :=
  Script.run_replicateM p n

@[simp] theorem run_popByteU : run popByteU = TrivialSerialize.popByteU := rfl

@[simp] theorem run_popBytesN (size : ℕ) : run (popBytesN size) = TrivialSerialize.popBytesN size := rfl

@[simp] theorem run_skipBytesN (size : ℕ) :
    run (skipBytesN size) = TrivialSerialize.skipBytesN size := rfl

@[simp] theorem run_popIntegerULoop (T : UIntType) (i : ℕ) :
    ∀ value multiplier, run (popIntegerULoop T value multiplier i) =
      TrivialSerialize.popIntegerULoop T value multiplier i := by
  induction i with
  | zero => exact fun _ _ => rfl
  | succ i ih =>
    intro value multiplier
    rw [popIntegerULoop, run_bind]
    simp only [ih]
    rfl

@[simp] theorem run_popIntegerU (S : OctetCount 8) (T : UIntType) :
    run (popIntegerU S T) = TrivialSerialize.popIntegerU S T :=
  run_popIntegerULoop T S _ _

@[simp] theorem run_popBytesSizeoctets (S : OctetCount 4) :
    run (popBytesSizeoctets S) = TrivialSerialize.popBytesSizeoctets S := by
  simp only [popBytesSizeoctets, run_bind, run_popIntegerU, run_popBytesN]
  rfl

@[simp] theorem run_popIntegerUvarint :
    run popIntegerUvarint = TrivialSerialize.popIntegerUvarint := by
  simp only [popIntegerUvarint, run_bind, run_ite, run_pure, run_popIntegerU, run_popByteU]
  rfl

@[simp] theorem run_popVarstring : run popVarstring = TrivialSerialize.popVarstring := by
  simp only [popVarstring, run_bind, run_popIntegerUvarint, run_assertThat, run_popBytesN]
  rfl

@[simp] theorem run_skipVarstring : run skipVarstring = TrivialSerialize.skipVarstring := by
  simp only [skipVarstring, run_bind, run_popIntegerUvarint, run_assertThat, run_skipBytesN]
  rfl

@[simp] theorem run_popVectorString : run popVectorString = TrivialSerialize.popVectorString := by
  simp only [popVectorString, run_bind, run_popIntegerUvarint, run_replicateM, run_popVarstring]
  rfl

/-- The `obj_deserialize` of a type that is read by a script. -/
abbrev deserialize (object : Pops τ) : ObjDeserialize τ := ⟨object.run⟩

@[simp] theorem run_popVectorObject (object : Pops τ) :
    run (popVectorObject object) = @TrivialSerialize.popVectorObject τ object.deserialize := by
  simp only [popVectorObject, run_bind, run_popIntegerUvarint, run_replicateM]
  rfl

section PopMapObject

variable [Ord κ] [Std.TransOrd κ] (objectKey : Pops κ) (objectVal : Pops ν)

private theorem run_popMapEntry (ret : Std.ExtTreeMap κ ν) :
    run (popMapEntry objectKey objectVal ret) =
      @TrivialSerialize.popMapEntry κ ν objectKey.deserialize objectVal.deserialize _ _ ret := by
  simp only [popMapEntry, run_bind, run_checkThat, run_pure]
  rfl

theorem run_popMapLoop (i : ℕ) :
    ∀ ret, run (popMapLoop objectKey objectVal i ret) =
      @TrivialSerialize.popMapLoop κ ν objectKey.deserialize objectVal.deserialize _ _ i ret := by
  induction i with
  | zero => exact fun _ => rfl
  | succ i ih =>
    intro ret
    rw [popMapLoop, run_bind, run_popMapEntry]
    simp only [ih]
    rfl

@[simp] theorem run_popMapObject :
    run (popMapObject objectKey objectVal) =
      @TrivialSerialize.popMapObject κ ν objectKey.deserialize objectVal.deserialize _ _ := by
  simp only [popMapObject, run_bind, run_popIntegerUvarint, run_popMapLoop, run_checkThat, run_pure]
  rfl

end PopMapObject

end Pops

/-! ### Where the position goes -/

/-- However it ends, an operation leaves the position somewhere ahead. -/
theorem ParserOp.finalState_run {α : Type} (op : ParserOp α) (c : Cursor UInt8) :
    ∃ n ≤ c.ahead.length, finalState op.run c = c.advance n := by
  have hstay : c = c.advance 0 := rfl
  cases op with
  | isEnd => exact ⟨0, Nat.zero_le _, hstay⟩
  | popByteU =>
    cases hahead : c.ahead with
    | nil => exact ⟨0, le_rfl, finalState_of_error (popByteU_of_nil hahead)⟩
    | cons b rest =>
      exact ⟨1, Nat.succ_pos _, finalState_of_ok (popByteU_of_cons hahead)⟩
  | popByteS =>
    rw [run, popByteS_eq, finalState_map]
    cases hahead : c.ahead with
    | nil => exact ⟨0, le_rfl, finalState_of_error (popByteU_of_nil hahead)⟩
    | cons b rest =>
      exact ⟨1, Nat.succ_pos _, finalState_of_ok (popByteU_of_cons hahead)⟩
  | popByteSkip expected =>
    cases hahead : c.ahead with
    | nil => exact ⟨0, le_rfl, finalState_of_error (popByteSkip_of_nil expected hahead)⟩
    | cons b rest =>
      by_cases hb : b = expected.toUInt8
      · exact ⟨1, Nat.succ_pos _, finalState_of_ok (popByteSkip_of_eq hahead hb)⟩
      · exact ⟨0, Nat.zero_le _, finalState_of_error (popByteSkip_of_ne hahead hb)⟩
  | popBytesN size =>
    rcases le_or_gt size c.ahead.length with hle | hlt
    · exact ⟨size, hle, finalState_of_ok (popBytesN_of_le hle)⟩
    · exact ⟨0, Nat.zero_le _, finalState_of_error (popBytesN_of_lt hlt)⟩
  | skipBytesN size =>
    rw [run, skipBytesN_eq, finalState_bind_pure]
    rcases le_or_gt size c.ahead.length with hle | hlt
    · exact ⟨size, hle, finalState_of_ok (popBytesN_of_le hle)⟩
    · exact ⟨0, Nat.zero_le _, finalState_of_error (popBytesN_of_lt hlt)⟩

/-- However it ends, code that uses a parser leaves the position somewhere ahead. -/
theorem Pops.finalState_run {α : Type} (p : Pops α) (c : Cursor UInt8) :
    ∃ n ≤ c.ahead.length, finalState p.run c = c.advance n := by
  refine Script.preserves_run (I := fun c' => ∃ n ≤ c.ahead.length, c' = c.advance n) ?_ p c
    ⟨0, Nat.zero_le _, rfl⟩
  rintro α op _ ⟨n, hn, rfl⟩
  obtain ⟨m, hm, hfinal⟩ := op.finalState_run (c.advance n)
  rw [Cursor.ahead_advance, List.length_drop] at hm
  refine ⟨n + m, by omega, hfinal.trans ?_⟩
  rw [Cursor.advance, Cursor.advance, Cursor.advance, Nat.add_assoc]

/-- The pop throws at the end of the data, and moves on from every other position, however it ends. A loop
that repeats such a pop ends with the data. -/
def MovesOn {α : Type} (p : Parser α) : Prop :=
  ∀ c : Cursor UInt8, (c.ahead = [] ∧ p c = .error (.throw .formatErrorRead) c) ∨
    ∃ n, 0 < n ∧ n ≤ c.ahead.length ∧ finalState p c = c.advance n

namespace MovesOn

variable {α β : Type}

private theorem popByteU : MovesOn Pops.popByteU.run := by
  intro c
  cases hahead : c.ahead with
  | nil => exact .inl ⟨rfl, popByteU_of_nil hahead⟩
  | cons b rest =>
    exact .inr ⟨1, one_pos, Nat.succ_pos _, finalState_of_ok (popByteU_of_cons hahead)⟩

/-- What begins by moving on moves on. -/
theorem bind {p : Pops α} {f : α → Pops β} (h : MovesOn p.run) : MovesOn (p >>= f).run := by
  intro c
  rw [Pops.run_bind]
  rcases h c with ⟨hnil, herror⟩ | ⟨n, hpos, hle, hfinal⟩
  · exact .inl ⟨hnil, bind_of_error herror⟩
  · cases hrun : p.run c with
    | ok a c' =>
      rw [finalState_of_ok hrun] at hfinal
      obtain ⟨m, hm, hrest⟩ := (f a).finalState_run c'
      rw [hfinal, Cursor.ahead_advance, List.length_drop] at hm
      refine .inr ⟨n + m, by omega, by omega, ?_⟩
      rw [finalState_bind_of_ok hrun, hrest, hfinal, Cursor.advance, Cursor.advance, Cursor.advance,
        Nat.add_assoc]
    | error e c' =>
      rw [finalState_of_error hrun] at hfinal
      exact .inr ⟨n, hpos, hle, (finalState_bind_of_error hrun).trans hfinal⟩

theorem discard {p : Parser α} (h : MovesOn p) : MovesOn (discard p) := by
  intro c
  refine (h c).imp (fun hend => ⟨hend.1, ?_⟩) fun ⟨n, hpos, hle, hfinal⟩ => ⟨n, hpos, hle, ?_⟩
  · exact (map_apply _ _ _).trans (by rw [hend.2])
  · exact finalState_discard.trans hfinal

theorem popIntegerU (S : OctetCount 8) (T : UIntType) :
    MovesOn (TrivialSerialize.popIntegerU S T) := by
  obtain ⟨S, hpos, hle⟩ := S
  obtain ⟨n, rfl⟩ : ∃ n, S = n + 1 := ⟨S - 1, by omega⟩
  rw [← Pops.run_popIntegerU]
  exact popByteU.bind

theorem popBytesSizeoctets (S : OctetCount 4) : MovesOn (TrivialSerialize.popBytesSizeoctets S) := by
  rw [← Pops.run_popBytesSizeoctets]
  exact MovesOn.bind (by rw [Pops.run_popIntegerU]; exact popIntegerU _ _)

theorem popIntegerUvarint : MovesOn Pops.popIntegerUvarint.run :=
  popByteU.bind

end MovesOn

/-! ### Pops and skips -/

/-- The pops and skips of `parser`. A template that reads objects has the scripts that read them. They are
what a caller can ask for, one at a time. -/
inductive PopOperation : Type 1 where
  | popByteU
  | popByteS
  | popByteSkip (c : Int8)
  | popIntegerU (S : OctetCount 8) (T : UIntType)
  | popIntegerS
  | popBytesN (size : ℕ)
  | skipBytesN (size : ℕ)
  | popBytesSizeoctets (S : OctetCount 4)
  | popIntegerUvarint
  | popVarstring
  | skipVarstring
  | popVectorString
  | popVectorObject {τ : Type} (object : Pops τ)
  | popMapObject {κ ν : Type} [Ord κ] [Std.TransOrd κ] (objectKey : Pops κ) (objectVal : Pops ν)

namespace PopOperation

/-- The operation on a read position, whatever it returns. -/
def run : PopOperation → Parser Unit
  | popByteU => discard TrivialSerialize.popByteU
  | popByteS => discard TrivialSerialize.popByteS
  | popByteSkip c => TrivialSerialize.popByteSkip c
  | popIntegerU S T => discard (TrivialSerialize.popIntegerU S T)
  | popIntegerS => discard TrivialSerialize.popIntegerS
  | popBytesN size => discard (TrivialSerialize.popBytesN size)
  | skipBytesN size => TrivialSerialize.skipBytesN size
  | popBytesSizeoctets S => discard (TrivialSerialize.popBytesSizeoctets S)
  | popIntegerUvarint => discard TrivialSerialize.popIntegerUvarint
  | popVarstring => discard TrivialSerialize.popVarstring
  | skipVarstring => TrivialSerialize.skipVarstring
  | popVectorString => discard TrivialSerialize.popVectorString
  | popVectorObject object => discard (@TrivialSerialize.popVectorObject _ object.deserialize)
  | popMapObject objectKey objectVal => discard
      (@TrivialSerialize.popMapObject _ _ objectKey.deserialize objectVal.deserialize _ _)

end PopOperation

/-! ### The generator -/

/-- The pushes of `generator` that are no templates over objects. -/
inductive BasicPush where
  | pushByteU (c : UInt8)
  | pushByteS (c : Int8)
  | pushBytesN (size : ℕ) (data : Bytes)
  | pushIntegerU (S : OctetCount 8) (value : ℕ)
  | pushIntegerS (value : ℤ)
  | pushBytesSizeoctets (S : OctetCount 4) (data : Bytes)
  | pushBytesSizeoctetsMax (S : OctetCount 4) (data : Bytes) (maxSizeForAssert : ℕ)
  | pushIntegerUvarint (val : ℕ)
  | pushVarstring (data : Bytes)
  | pushVectorString (data : List Bytes)

/-- The push, on the string generated so far. -/
def BasicPush.run : BasicPush → Generator Unit
  | pushByteU c => TrivialSerialize.pushByteU c
  | pushByteS c => TrivialSerialize.pushByteS c
  | pushBytesN size data => TrivialSerialize.pushBytesN size data
  | pushIntegerU S value => TrivialSerialize.pushIntegerU S value
  | pushIntegerS value => TrivialSerialize.pushIntegerS value
  | pushBytesSizeoctets S data => TrivialSerialize.pushBytesSizeoctets S data
  | pushBytesSizeoctetsMax S data maxSizeForAssert =>
    TrivialSerialize.pushBytesSizeoctetsMax S data maxSizeForAssert
  | pushIntegerUvarint val => TrivialSerialize.pushIntegerUvarint val
  | pushVarstring data => TrivialSerialize.pushVarstring data
  | pushVectorString data => TrivialSerialize.pushVectorString data

/-- What code that uses a generator can call. Reading the string that was generated is one of the calls. -/
inductive GeneratorOp : Type → Type where
  | str : GeneratorOp Bytes
  | push (op : BasicPush) : GeneratorOp Unit

/-- The calls, over the string generated so far. -/
def GeneratorOp.run {α : Type} : GeneratorOp α → Generator α
  | str => get
  | push op => op.run

/-- Code that uses a generator. Templates over objects call `obj_serialize`, which is code like this. -/
abbrev Pushes := Script Exn GeneratorOp

namespace Pushes

/-- What the code does to the string generated so far. -/
def run {α : Type} (p : Pushes α) : Generator α :=
  Script.run (fun op => op.run) p

/-- The `obj_serialize` of a type that is written by a script. -/
abbrev serialize {τ : Type} (object : τ → Pushes Unit) : ObjSerialize τ := ⟨fun data => (object data).run⟩

end Pushes

/-- The pushes of `generator`. A template that writes objects has the scripts that write them. -/
inductive PushOperation : Type 1 where
  | basic (op : BasicPush)
  | pushVectorObject {τ : Type} (object : τ → Pushes Unit) (data : List τ)
  | pushMapObject {κ ν : Type} [Ord κ] [Std.TransOrd κ] (objectKey : κ → Pushes Unit)
      (objectVal : ν → Pushes Unit) (data : Std.ExtTreeMap κ ν)

/-- The push, on the string generated so far. -/
def PushOperation.run : PushOperation → Generator Unit
  | basic op => op.run
  | pushVectorObject object data =>
    @TrivialSerialize.pushVectorObject _ (Pushes.serialize object) data
  | pushMapObject objectKey objectVal data => @TrivialSerialize.pushMapObject _ _
      (Pushes.serialize objectKey) (Pushes.serialize objectVal) _ _ data

/-! ### The string only grows -/

section Prefix

variable (str : Bytes)

private theorem preserves_pushByteU (c : UInt8) : Preserves (str <+: ·) (pushByteU c) :=
  .modify fun s h => h.trans (List.prefix_append s [c])

theorem preserves_pushBytesN (size : ℕ) (data : Bytes) :
    Preserves (str <+: ·) (pushBytesN size data) :=
  .bind (.assertThat _) fun _ => .modify fun s h => h.trans (List.prefix_append s data)

theorem preserves_pushIntegerU (S : OctetCount 8) (value : ℕ) :
    Preserves (str <+: ·) (pushIntegerU S value) := by
  have hloop : ∀ n divider, Preserves (str <+: ·) (pushIntegerULoop value divider n) := by
    intro n
    induction n with
    | zero => exact fun _ => .pure ()
    | succ n ih => exact fun _ => .bind (preserves_pushByteU str _) fun _ => ih _
  exact .ite (.bind (.checkThat _ _) fun _ => hloop _ _) (.bind (.checkThat _ _) fun _ => hloop _ _)

private theorem preserves_pushBytesSizeoctets (S : OctetCount 4) (data : Bytes) :
    Preserves (str <+: ·) (pushBytesSizeoctets S data) :=
  .bind (preserves_pushIntegerU str _ _) fun _ =>
    .modify fun s h => h.trans (List.prefix_append s data)

private theorem preserves_pushIntegerUvarint (val : ℕ) :
    Preserves (str <+: ·) (pushIntegerUvarint val) := by
  have hmarked : ∀ c S, Preserves (str <+: ·) (do pushByteU c; pushIntegerU S val) := fun c S =>
    .bind (preserves_pushByteU str c) fun _ => preserves_pushIntegerU str S val
  exact .ite (preserves_pushIntegerU str _ _) (.ite (hmarked _ _) (.ite (hmarked _ _) (hmarked _ _)))

theorem preserves_pushVarstring (data : Bytes) : Preserves (str <+: ·) (pushVarstring data) :=
  .bind (preserves_pushIntegerUvarint str _) fun _ => preserves_pushBytesN str _ _

/-- However it ends, a push leaves the string with something behind it. -/
theorem BasicPush.preserves_run (op : BasicPush) : Preserves (str <+: ·) op.run := by
  cases op with
  | pushByteU c => exact preserves_pushByteU str c
  | pushByteS c => exact .modify fun s h => h.trans (List.prefix_append s [c.toUInt8])
  | pushBytesN size data => exact preserves_pushBytesN str size data
  | pushIntegerU S value => exact preserves_pushIntegerU str S value
  | pushIntegerS value => exact .raise _
  | pushBytesSizeoctets S data => exact preserves_pushBytesSizeoctets str S data
  | pushBytesSizeoctetsMax S data maxSizeForAssert =>
    exact .bind (.assertThat _) fun _ => preserves_pushBytesSizeoctets str S data
  | pushIntegerUvarint val => exact preserves_pushIntegerUvarint str val
  | pushVarstring data => exact preserves_pushVarstring str data
  | pushVectorString data =>
    exact .bind (preserves_pushIntegerUvarint str _) fun _ =>
      .forM fun x _ => preserves_pushVarstring str x

private theorem GeneratorOp.preserves_run {α : Type} (op : GeneratorOp α) : Preserves (str <+: ·) op.run := by
  cases op with
  | str => exact fun s h => h
  | push op => exact op.preserves_run str

/-- However it ends, code that uses a generator leaves the string with something behind it. -/
theorem Pushes.preserves_run {α : Type} (p : Pushes α) : Preserves (str <+: ·) p.run :=
  Script.preserves_run (fun op => op.preserves_run str) p

end Prefix

end TrivialSerialize

end Galaxy42
