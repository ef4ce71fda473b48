import Galaxy42.TrivialSerialize.Interface
import Galaxy42.TrivialSerialize.PopIntoBuffer
import Galaxy42.TrivialSerialize.Widths

/-!
# What a failed operation leaves behind

The documentation gives the strong exception guarantee to the pops of one octet. The pops and skips of a
block have it too, since they look at the size first. A pop that is made of others has read something
when a later one fails, and nothing is read back: such a pop leaves the position as it was only at the end of
the data. The pop that copies a block into a buffer looks at the size first as well, but it has moved on when
the copy is refused, because the buffer overlaps the block. `AnyPop.eq_iff_of_throws` says this of all pops and
skips at once, over the position and the memory.

The pushes of octets, of integers of a fixed width and of sized strings check what they are given before
they write. A push that writes a number of a variable width first has written something whenever it
throws (`PushOperation.unchanged_iff_of_throws`).

Both results are an equivalence for every operation that throws. In one direction an operation checks first
what it is asked for (`ChecksFirst`) and cannot fail later on; in the other one it begins with an operation that
moves on, or that appends, and a state that has moved on is never the one before (`MovesOn`, `Appends`). These
two notions are kept by whatever follows, so an operation is settled by how it begins, and the templates over
objects need nothing to be known of the scripts that they run.
-/

namespace Galaxy42

open Toolkit Program Octets

namespace TrivialSerialize

/-! ### The parser -/

namespace PopOperation

/-- The operation does not consist of others, apart from the one that pops an octet. -/
def Elementary : PopOperation → Prop
  | popByteU | popByteS | popByteSkip _ | popIntegerS | popBytesN _ | skipBytesN _ => True
  | _ => False

/-- An elementary operation returns, or throws where it was called. -/
theorem run_of_elementary {op : PopOperation} (h : op.Elementary) (c : Cursor UInt8) :
    (∃ c', op.run c = .ok () c') ∨ ∃ e, op.run c = .error (.throw e) c := by
  have hok : ∀ {α : Type} {p : Parser α} {a : α} {c' : Cursor UInt8}, p c = .ok a c' →
      discard p c = .ok () c' := fun hp => map_eq_ok_iff.mpr ⟨_, hp, rfl⟩
  have herror : ∀ {α : Type} {p : Parser α} {e : Exn}, p c = .error (.throw e) c →
      discard p c = .error (.throw e) c := fun hp => (map_apply _ _ _).trans (by rw [hp])
  cases op with
  | popByteU =>
    cases hahead : c.ahead with
    | nil => exact .inr ⟨_, herror (popByteU_of_nil hahead)⟩
    | cons b rest => exact .inl ⟨_, hok (popByteU_of_cons hahead)⟩
  | popByteS =>
    rw [run, popByteS_eq]
    cases hahead : c.ahead with
    | nil => exact .inr ⟨_, herror ((map_apply _ _ _).trans (by rw [popByteU_of_nil hahead]))⟩
    | cons b rest => exact .inl ⟨_, hok (map_eq_ok_iff.mpr ⟨b, popByteU_of_cons hahead, rfl⟩)⟩
  | popByteSkip expected =>
    cases hahead : c.ahead with
    | nil => exact .inr ⟨_, popByteSkip_of_nil expected hahead⟩
    | cons b rest =>
      by_cases hb : b = expected.toUInt8
      · exact .inl ⟨_, popByteSkip_of_eq hahead hb⟩
      · exact .inr ⟨_, popByteSkip_of_ne hahead hb⟩
  | popIntegerS => exact .inr ⟨_, herror rfl⟩
  | popBytesN size =>
    rcases le_or_gt size c.ahead.length with hle | hlt
    · exact .inl ⟨_, hok (popBytesN_of_le hle)⟩
    · exact .inr ⟨_, herror (popBytesN_of_lt hlt)⟩
  | skipBytesN size =>
    rw [run, skipBytesN_eq]
    rcases le_or_gt size c.ahead.length with hle | hlt
    · exact .inl ⟨_, bind_of_ok (popBytesN_of_le hle)⟩
    · exact .inr ⟨_, bind_of_error (popBytesN_of_lt hlt)⟩
  | _ => exact absurd h id

/-- A compound operation moves on from wherever there is something ahead. -/
private theorem movesOn_of_not_elementary {op : PopOperation} (h : ¬ op.Elementary) : MovesOn op.run := by
  cases op with
  | popIntegerU S T => exact (MovesOn.popIntegerU S T).discard
  | popBytesSizeoctets S => exact (MovesOn.popBytesSizeoctets S).discard
  | popIntegerUvarint =>
    have hmoves := MovesOn.popIntegerUvarint
    rw [Pops.run_popIntegerUvarint] at hmoves
    exact hmoves.discard
  | popVarstring =>
    have hmoves : MovesOn Pops.popVarstring.run := MovesOn.popIntegerUvarint.bind
    rw [Pops.run_popVarstring] at hmoves
    exact hmoves.discard
  | skipVarstring =>
    have hmoves : MovesOn Pops.skipVarstring.run := MovesOn.popIntegerUvarint.bind
    rwa [Pops.run_skipVarstring] at hmoves
  | popVectorString =>
    have hmoves : MovesOn Pops.popVectorString.run := MovesOn.popIntegerUvarint.bind
    rw [Pops.run_popVectorString] at hmoves
    exact hmoves.discard
  | popVectorObject object =>
    have hmoves : MovesOn (Pops.popVectorObject object).run := MovesOn.popIntegerUvarint.bind
    rw [Pops.run_popVectorObject] at hmoves
    exact hmoves.discard
  | popMapObject objectKey objectVal =>
    have hmoves : MovesOn (Pops.popMapObject objectKey objectVal).run :=
      MovesOn.popIntegerUvarint.bind
    rw [Pops.run_popMapObject] at hmoves
    exact hmoves.discard
  | _ => exact absurd trivial h

/-- A pop that throws leaves the position as it was exactly when it is elementary, or there is nothing
ahead. -/
private theorem eq_iff_of_run {op : PopOperation} {c c' : Cursor UInt8} {e : Exn}
    (hthrow : op.run c = .error (.throw e) c') : c' = c ↔ op.Elementary ∨ c.ahead = [] := by
  by_cases helem : op.Elementary
  · rw [iff_true_right (.inl helem)]
    rcases run_of_elementary helem c with ⟨c₁, hok⟩ | ⟨e₁, herror⟩
    · exact nomatch hok.symm.trans hthrow
    · exact (EStateM.Result.error.inj (hthrow.symm.trans herror)).2
  · rw [or_iff_right helem]
    rcases movesOn_of_not_elementary helem c with ⟨hnil, herror⟩ | ⟨n, hpos, hle, hfinal⟩
    · exact iff_of_true (EStateM.Result.error.inj (hthrow.symm.trans herror)).2 hnil
    · rw [finalState_of_error hthrow] at hfinal
      refine iff_of_false (fun heq => ?_) (List.ne_nil_of_length_pos (hpos.trans_le hle))
      have hnow : c.now + n = c.now := congrArg Cursor.now (hfinal.symm.trans heq)
      omega

end PopOperation

/-- The pops and skips of `parser`, and the pop that copies into a buffer at an address. -/
inductive AnyPop : Type 1 where
  | operation (op : PopOperation)
  | popBytesNIntoBuff (size buff : ℕ)

namespace AnyPop

/-- The operation on a read position and on the memory, where the data begin at an address. -/
def run (dataBegin : ℕ) : AnyPop → Program Exn (Cursor UInt8 × Accessed) Unit
  | operation op => onFst op.run
  | popBytesNIntoBuff size buff => popBytesNIntoBuffAt dataBegin size buff

/-- The operation refuses what it is asked for before it moves on. -/
def ChecksFirst (c : Cursor UInt8) : AnyPop → Prop
  | operation op => op.Elementary
  | popBytesNIntoBuff size _ => c.ahead.length < size

/-- A pop into a buffer that throws has found too few octets, or it has moved on. -/
private theorem popBytesNIntoBuffAt_of_throws {dataBegin size buff : ℕ} {c c' : Cursor UInt8}
    {m m' : Accessed} {e : Exn}
    (hthrow : popBytesNIntoBuffAt dataBegin size buff (c, m) = .error (.throw e) (c', m')) :
    c' = c ∧ (c.ahead.length < size ∨ c.ahead = []) ∨
      0 < size ∧ size ≤ c.ahead.length ∧ c' = c.advance size := by
  by_cases hnil : c.ahead = []
  · simp only [popBytesNIntoBuffAt, bind_apply, get_apply, checkThat_apply, hnil, ne_eq, not_true_eq_false,
      if_false, EStateM.Result.error.injEq, Prod.mk.injEq] at hthrow
    exact .inl ⟨hthrow.2.1.symm, .inr hnil⟩
  by_cases hlt : c.ahead.length < size
  · rw [popBytesNIntoBuffAt_of_lt hlt] at hthrow
    exact .inl ⟨(Prod.mk.inj (EStateM.Result.error.inj hthrow).2).1.symm, .inl hlt⟩
  -- The read position has moved on when the copy is tried, and an empty copy is refused by an assertion.
  have hle : c.ahead.length ≥ size := not_lt.mp hlt
  simp only [popBytesNIntoBuffAt, bind_apply, get_apply, checkThat_apply, assertThat_apply, hnil, hle, ne_eq,
    not_false_eq_true, if_true] at hthrow
  by_cases hbuff : buff = 0
  · rw [if_neg (not_not.mpr hbuff)] at hthrow
    cases hthrow
  rw [if_pos hbuff] at hthrow
  simp only [onFst, set_apply, onSnd] at hthrow
  split at hthrow
  · cases hthrow
  next e₁ m₁ hcopy =>
    obtain ⟨rfl, hstate⟩ := EStateM.Result.error.inj hthrow
    refine .inr ⟨Nat.pos_of_ne_zero fun hzero => ?_, hle, (Prod.mk.inj hstate).1.symm⟩
    simp [copyIterAndCheckNoOverlapAt, bind_apply, assertThat_apply, hzero] at hcopy

/-- A pop or skip that throws leaves the position as it was exactly when it checks first what it is asked for,
or there is nothing ahead. The position is the one in the data, and for the pop into a buffer the memory is
looked at as well. -/
theorem eq_iff_of_throws {dataBegin : ℕ} {pop : AnyPop} {c c' : Cursor UInt8} {m m' : Accessed} {e : Exn}
    (hthrow : pop.run dataBegin (c, m) = .error (.throw e) (c', m')) :
    c' = c ↔ pop.ChecksFirst c ∨ c.ahead = [] := by
  cases pop with
  | operation op =>
    cases hrun : op.run c with
    | ok u c₁ => simp [run, onFst, hrun] at hthrow
    | error e₁ c₁ =>
      simp only [run, onFst, hrun, EStateM.Result.error.injEq, Prod.mk.injEq] at hthrow
      obtain ⟨rfl, rfl, -⟩ := hthrow
      exact PopOperation.eq_iff_of_run hrun
  | popBytesNIntoBuff size buff =>
    obtain ⟨hsame, hrefused⟩ | ⟨hpos, hle, rfl⟩ := popBytesNIntoBuffAt_of_throws hthrow
    · exact iff_of_true hsame hrefused
    · refine iff_of_false (fun heq => ?_) ?_
      · have hnow : c.now + size = c.now := congrArg Cursor.now heq
        omega
      · rintro (hlt | hnil)
        · exact absurd hle (not_le.mpr hlt)
        · rw [hnil] at hle
          exact absurd hpos (not_lt.mpr hle)

/-- A string of five octets of which there are two, and two octets that should be copied to where they are. -/
theorem eq_iff_of_throws_varstring :
    ((⟨[5, 97, 98], 1⟩ : Cursor UInt8) = .start [5, 97, 98] ↔
      (operation .popVarstring).ChecksFirst (.start [5, 97, 98]) ∨
        (Cursor.start ([5, 97, 98] : Bytes)).ahead = []) ∧
    ((⟨[97, 98], 2⟩ : Cursor UInt8) = .start [97, 98] ↔
      (popBytesNIntoBuff 2 100).ChecksFirst (.start [97, 98]) ∨ (Cursor.start ([97, 98] : Bytes)).ahead = []) :=
  ⟨@eq_iff_of_throws 100 (operation .popVarstring) (.start [5, 97, 98]) ⟨[5, 97, 98], 1⟩ (.start fun _ => 0)
      (.start fun _ => 0) .formatErrorRead rfl,
    @eq_iff_of_throws 100 (popBytesNIntoBuff 2 100) (.start [97, 98]) ⟨[97, 98], 2⟩ (.start fun _ => 0)
      (.start fun _ => 0)
      (.errCheckInput "! test_ranges_overlap_inclusive_noempty(first, last, d_first, d_first+size-1)") rfl⟩

/-- The length of a string that is cut off has been read. -/
theorem not_eq_of_throws :
    ¬ ∀ (pop : AnyPop) (c c' : Cursor UInt8) (m m' : Accessed) (e : Exn),
      pop.run 100 (c, m) = .error (.throw e) (c', m') → c' = c := by
  intro h
  have heq := h (operation .popVarstring) (.start [5, 97, 98]) ⟨[5, 97, 98], 1⟩ (.start fun _ => 0)
    (.start fun _ => 0) .formatErrorRead rfl
  exact absurd heq (by decide)

end AnyPop

/-! ### The generator -/

/-- However it ends, the push appends something. -/
def Appends (push : Generator Unit) : Prop :=
  ∀ str, ∃ b, str ++ [b] <+: finalState push str

namespace Appends

/-- What begins by appending appends. -/
theorem bind {push : Generator Unit} {f : Unit → Generator Unit} (h : Appends push)
    (hf : ∀ str u, Preserves (str <+: ·) (f u)) : Appends (push >>= f) := by
  intro str
  obtain ⟨b, hb⟩ := h str
  exact ⟨b, Preserves.finalState_bind hb (hf (str ++ [b]))⟩

private theorem pushByteU (c : UInt8) : Appends (pushByteU c) :=
  fun _ => ⟨c, List.prefix_rfl⟩

/-- A number of a variable width is written, or its mark is. -/
private theorem pushIntegerUvarint (val : ℕ) : Appends (pushIntegerUvarint val) := by
  have hmarked : ∀ c S, Appends (do TrivialSerialize.pushByteU c; pushIntegerU S val) :=
    fun c S => (pushByteU c).bind fun _ _ => preserves_pushIntegerU _ S val
  unfold TrivialSerialize.pushIntegerUvarint
  split_ifs with h1 h2 h3
  · -- one octet always fits
    intro str
    have hone := (emits_pushIntegerU OctetCount.one val str (str ++ bigEndian 1 val)).mpr
      ⟨h1.trans (by decide), rfl⟩
    exact ⟨_, by rw [finalState_of_ok hone]; exact List.prefix_rfl⟩
  · exact hmarked _ _
  · exact hmarked _ _
  · exact hmarked _ _

end Appends

/-- The push checks what it is given before it writes. -/
def BasicPush.ChecksFirst : BasicPush → Prop
  | pushIntegerUvarint _ | pushVarstring _ | pushVectorString _ => False
  | _ => True

/-- A sized string is written whole, or refused before anything is written. -/
theorem eq_of_pushBytesSizeoctets {S : OctetCount 4} {data str str' : Bytes} {e : Exn}
    (hthrow : pushBytesSizeoctets S data str = .error (.throw e) str') : str' = str := by
  rcases lt_or_ge data.length (256 ^ S.val - 1) with hlt | hge
  · exact nomatch ((emits_pushBytesSizeoctets S data str _).mpr ⟨hlt, rfl⟩).symm.trans hthrow
  · rw [← maxOfOctets_eq] at hge
    exact (EStateM.Result.error.inj (hthrow.symm.trans (pushBytesSizeoctets_of_le S hge str))).2

/-- A push that checks first leaves the string as it was when it throws. -/
theorem BasicPush.eq_of_checksFirst {op : BasicPush} (h : op.ChecksFirst) {str str' : Bytes}
    {e : Exn} (hthrow : op.run str = .error (.throw e) str') : str' = str := by
  cases op with
  | pushByteU c => exact nomatch hthrow
  | pushByteS c => exact nomatch hthrow
  | pushBytesN size data =>
    by_cases hsize : size = data.length
    · exact nomatch ((emits_pushBytesN size data str _).mpr ⟨hsize, rfl⟩).symm.trans hthrow
    · have habort : assertThat (size = data.length) str = .error (.abort : Fault Exn) str := by
        rw [assertThat_apply, if_neg hsize]
      exact nomatch (bind_of_error habort).symm.trans hthrow
  | pushIntegerU S value =>
    rcases lt_or_ge value (256 ^ S.val - 1) with hlt | hge
    · exact nomatch ((emits_pushIntegerU S value str _).mpr ⟨hlt, rfl⟩).symm.trans hthrow
    · rw [← maxOfOctets_eq] at hge
      exact (EStateM.Result.error.inj (hthrow.symm.trans (pushIntegerU_of_le S hge str))).2
  | pushIntegerS value => exact (EStateM.Result.error.inj hthrow).2.symm
  | pushBytesSizeoctets S data => exact eq_of_pushBytesSizeoctets hthrow
  | pushBytesSizeoctetsMax S data maxSizeForAssert =>
    by_cases hmax : data.length ≤ maxSizeForAssert
    · have hassert : assertThat (data.length ≤ maxSizeForAssert) str =
          (.ok () str : EStateM.Result (Fault Exn) Bytes Unit) := by
        rw [assertThat_apply, if_pos hmax]
      exact eq_of_pushBytesSizeoctets ((bind_of_ok hassert).symm.trans hthrow)
    · have habort : assertThat (data.length ≤ maxSizeForAssert) str =
          .error (.abort : Fault Exn) str := by
        rw [assertThat_apply, if_neg hmax]
      exact nomatch (bind_of_error habort).symm.trans hthrow
  | pushIntegerUvarint _ | pushVarstring _ | pushVectorString _ => exact absurd h id

namespace PushOperation

/-- A push of objects does not check the objects first. -/
def ChecksFirst : PushOperation → Prop
  | basic op => op.ChecksFirst
  | _ => False

/-- A push that does not check first appends something, however it ends. -/
private theorem appends_of_not_checksFirst {op : PushOperation} (h : ¬ op.ChecksFirst) : Appends op.run := by
  cases op with
  | basic op =>
    cases op with
    | pushIntegerUvarint val => exact Appends.pushIntegerUvarint val
    | pushVarstring data =>
      exact (Appends.pushIntegerUvarint _).bind fun str _ => preserves_pushBytesN str _ _
    | pushVectorString data =>
      exact (Appends.pushIntegerUvarint _).bind fun str _ =>
        .forM fun x _ => preserves_pushVarstring str x
    | pushByteU _ | pushByteS _ | pushBytesN _ _ | pushIntegerU _ _ | pushIntegerS _
    | pushBytesSizeoctets _ _ | pushBytesSizeoctetsMax _ _ _ => exact absurd trivial h
  | pushVectorObject object data =>
    exact (Appends.pushIntegerUvarint _).bind fun str _ =>
      .forM fun x _ => (object x).preserves_run str
  | pushMapObject objectKey objectVal data =>
    exact (Appends.pushIntegerUvarint _).bind fun str _ => .forM fun pair _ =>
      .bind ((objectKey pair.1).preserves_run str) fun _ => (objectVal pair.2).preserves_run str

/-- A push that throws leaves the string as it was exactly when it checks first. A push that writes a length
of a variable width, or that is made of such pushes, has written something before whatever it is that makes it
throw. -/
theorem unchanged_iff_of_throws {op : PushOperation} {str str' : Bytes} {e : Exn}
    (hthrow : op.run str = .error (.throw e) str') : str' = str ↔ op.ChecksFirst := by
  constructor
  · rintro rfl
    by_contra hnot
    obtain ⟨b, hb⟩ := appends_of_not_checksFirst hnot str'
    rw [finalState_of_error hthrow] at hb
    have hlen := hb.length_le
    rw [List.length_append, List.length_singleton] at hlen
    omega
  · intro hchecks
    cases op with
    | basic op => exact op.eq_of_checksFirst hchecks hthrow
    | _ => exact absurd hchecks id

/-- 255 does not fit into one octet, as the generator sees it. -/
theorem unchanged_iff_of_throws_integer :
    ([7] : Bytes) = [7] ↔ (basic (.pushIntegerU OctetCount.one 255)).ChecksFirst :=
  @unchanged_iff_of_throws (basic (.pushIntegerU OctetCount.one 255)) [7] [7]
    .formatErrorWriteValueTooBig rfl

/-- The mark of nine octets is written before the largest number of all is refused. -/
theorem not_eq_of_throws_uvarint :
    ¬ ∀ (op : PushOperation) (str str' : Bytes) (e : Exn),
      op.run str = .error (.throw e) str' → str' = str := by
  intro h
  have heq := h (basic (.pushIntegerUvarint 0xFFFFFFFFFFFFFFFF)) [7] [7, 0xFF]
    .formatErrorWriteValueTooBig rfl
  exact absurd heq (by decide)

end PushOperation

end TrivialSerialize

end Galaxy42
