import Galaxy42.TrivialSerialize.Encoding

/-!
# Malformed data

Which data make a parser abort. Reading past the end, a wrong delimiter, a repeated key: all of these
are answered by an exception. The one assertion of the parser is about the announced length of a
variable string, and `LengthSane` says that it holds at a read position. A pop that reads strings is
safe exactly when every string it comes to has a sane length.

A generator asserts only that a size is the length of the string it belongs to, and no push of the
program gives another one.

Most of the lemmas have one of two forms. `NoAbort` says of a program that it never aborts, wherever it is run;
`Safe` says it of one run of it, from one state. The first follows by the structure of the program, with one
lemma for each operator, and the second is needed where it depends on the data whether there is an abort.
There a sane length is stated by what can be read: *when* a number can be read at the position, it is
not too large. When none can be read there is an exception, and that is safe.

The same form carries over to the vectors, one string after the other, and to keys and signatures in the
modules that use these pops.
-/

namespace Galaxy42

open Toolkit Program

namespace TrivialSerialize

variable {σ : Type}

/-! ### Generating -/

theorem noAbort_pushByteU (c : UInt8) : NoAbort (pushByteU c) := .modify _

theorem noAbort_pushBytesN {size : ℕ} {data : Bytes} (h : size = data.length) :
    NoAbort (pushBytesN size data) :=
  .bind (.assertThat h) fun _ => .modify _

private theorem noAbort_pushIntegerU (S : OctetCount 8) (value : ℕ) : NoAbort (pushIntegerU S value) := by
  have hloop : ∀ n divider, NoAbort (pushIntegerULoop value divider n) := by
    intro n
    induction n with
    | zero => exact fun _ => .pure ()
    | succ n ih => exact fun _ => .bind (noAbort_pushByteU _) fun _ => ih _
  unfold pushIntegerU
  exact .ite (.bind (.checkThat _ _) fun _ => hloop _ _) (.bind (.checkThat _ _) fun _ => hloop _ _)

theorem noAbort_pushIntegerUvarint (val : ℕ) : NoAbort (pushIntegerUvarint val) := by
  unfold pushIntegerUvarint
  refine .ite (noAbort_pushIntegerU _ _) (.ite ?_ (.ite ?_ ?_)) <;>
    exact .bind (noAbort_pushByteU _) fun _ => noAbort_pushIntegerU _ _

theorem noAbort_pushVarstring (data : Bytes) : NoAbort (pushVarstring data) :=
  .bind (noAbort_pushIntegerUvarint _) fun _ => noAbort_pushBytesN rfl

theorem noAbort_pushVectorObject {τ : Type} [ObjSerialize τ]
    (h : ∀ x : τ, NoAbort (objSerialize x)) (data : List τ) : NoAbort (pushVectorObject data) :=
  .bind (noAbort_pushIntegerUvarint _) fun _ => .forM fun x _ => h x

theorem noAbort_pushMapObject {κ ν : Type} [ObjSerialize κ] [ObjSerialize ν] [Ord κ]
    [Std.TransOrd κ] (hk : ∀ k : κ, NoAbort (objSerialize k)) (hv : ∀ v : ν, NoAbort (objSerialize v))
    (data : Std.ExtTreeMap κ ν) : NoAbort (pushMapObject data) :=
  .bind (noAbort_pushIntegerUvarint _) fun _ => .forM fun pair _ =>
    .bind (hk pair.1) fun _ => hv pair.2

theorem noAbort_generate {gen : Generator Unit} (h : NoAbort gen) :
    NoAbort (generate gen : Program Exn σ Bytes) :=
  .bind (h.withinState []) fun _ => .pure _

/-! ### Parsing -/

@[simp] theorem safe_parserOfString {dataStr : Bytes} {s : σ} {Q : Cursor UInt8 → σ → Prop} :
    Safe (parserOfString dataStr) s Q ↔ (dataStr ≠ [] → Q (.start dataStr) s) := by
  simp [parserOfString]

theorem noAbort_isEnd : NoAbort isEnd := .bind .get fun _ => .pure _

theorem noAbort_popByteU : NoAbort popByteU := by
  refine .bind .get fun c => ?_
  split
  · exact .raise _
  · exact .bind (.set _) fun _ => .pure _

theorem noAbort_popByteSkip (c : Int8) : NoAbort (popByteSkip c) := by
  refine .bind noAbort_popByteU fun was => ?_
  split
  · exact .bind (.modify _) fun _ => .raise _
  · exact .pure _

theorem noAbort_popBytesN (size : ℕ) : NoAbort (popBytesN size) := by
  unfold popBytesN
  refine .ite (.pure _) (.bind .get fun c => ?_)
  exact .bind (.checkThat _ _) fun _ => .bind (.checkThat _ _) fun _ => .bind (.set _) fun _ => .pure _

theorem noAbort_skipBytesN (size : ℕ) : NoAbort (skipBytesN size) := by
  unfold skipBytesN
  refine .ite (.pure _) (.bind .get fun c => ?_)
  exact .bind (.checkThat _ _) fun _ => .bind (.checkThat _ _) fun _ => .set _

private theorem noAbort_popIntegerU (S : OctetCount 8) (T : UIntType) : NoAbort (popIntegerU S T) := by
  have hloop : ∀ n value multiplier, NoAbort (popIntegerULoop T value multiplier n) := by
    intro n
    induction n with
    | zero => exact fun _ _ => .pure _
    | succ n ih => exact fun _ _ => .bind noAbort_popByteU fun _ => ih _ _
  exact hloop _ _ _

theorem noAbort_popIntegerUvarint : NoAbort popIntegerUvarint := by
  refine .bind noAbort_popByteU fun first => ?_
  exact .ite (.pure _) (.ite (noAbort_popIntegerU _ _) (.ite (noAbort_popIntegerU _ _)
    (noAbort_popIntegerU _ _)))

/-- What one octet is read from. -/
theorem popByteU_between_eq_ok_iff {pre suf : Bytes} {b : UInt8} {c : Cursor UInt8} :
    popByteU (.between pre suf) = .ok b c ↔
      ∃ rest, suf = b :: rest ∧ c = .between (pre ++ [b]) rest := by
  constructor
  · intro h
    cases suf with
    | nil => simp [popByteU, bind_apply] at h
    | cons b' rest =>
      have hread := reads_popByteU b' pre rest
      obtain ⟨rfl, rfl⟩ := EStateM.Result.ok.inj (hread.symm.trans h)
      exact ⟨rest, rfl, rfl⟩
  · rintro ⟨rest, rfl, rfl⟩
    exact reads_popByteU b pre rest

/-- What a fixed number of octets is read from. -/
theorem popBytesN_between_eq_ok_iff {size : ℕ} {pre suf data : Bytes} {c : Cursor UInt8} :
    popBytesN size (.between pre suf) = .ok data c ↔
      data.length = size ∧ ∃ rest, suf = data ++ rest ∧ c = .between (pre ++ data) rest := by
  constructor
  · intro h
    by_cases hlen : size ≤ suf.length
    · have htake : (suf.take size).length = size := List.length_take_of_le hlen
      have hread := reads_popBytesN (suf.take size) pre (suf.drop size)
      rw [List.take_append_drop, htake] at hread
      obtain ⟨rfl, rfl⟩ := EStateM.Result.ok.inj (hread.symm.trans h)
      exact ⟨htake, suf.drop size, (List.take_append_drop _ _).symm, rfl⟩
    · have hpos : size ≠ 0 := by omega
      have hshort : ¬ suf.length ≥ size := hlen
      by_cases hnil : suf = [] <;>
        simp [popBytesN, bind_apply, checkThat_apply, hpos, hshort, hnil] at h
  · rintro ⟨rfl, rest, rfl, rfl⟩
    exact reads_popBytesN data pre rest

/-- The length of the string that begins at the read position, when it can be read, is one that the
parser accepts. -/
def LengthSane (c : Cursor UInt8) : Prop :=
  ∀ size c', popIntegerUvarint c = .ok size c' → size ≤ saneMaxSizeForString

/-- A string is read safely exactly when its announced length is sane. -/
theorem safe_popVarstring_iff {c : Cursor UInt8} {Q : Bytes → Cursor UInt8 → Prop} :
    Safe popVarstring c Q ↔
      LengthSane c ∧ ∀ data c', popVarstring c = .ok data c' → Q data c' := by
  have habort : (∀ c', popVarstring c ≠ .error .abort c') ↔ LengthSane c := by
    rw [← safe_true_iff]
    simp only [popVarstring, safe_bind, safe_assertThat]
    rw [noAbort_popIntegerUvarint.safe_iff]
    exact forall₃_congr fun size c' _ =>
      and_iff_left ((noAbort_popBytesN size).safe c')
  rw [safe_iff, habort]

/-- The strings of the vector that begins at the read position have sane lengths, as far as they can
be read. -/
def VectorSane (c : Cursor UInt8) : Prop :=
  ∀ size c', popIntegerUvarint c = .ok size c' → Rounds LengthSane popVarstring size c'

/-- A vector of strings is read safely exactly when the announced lengths of its strings are sane. -/
theorem safe_popVectorString_iff {c : Cursor UInt8} {Q : List Bytes → Cursor UInt8 → Prop} :
    Safe popVectorString c Q ↔
      VectorSane c ∧ ∀ data c', popVectorString c = .ok data c' → Q data c' := by
  have hstring : ∀ c, Safe popVarstring c (fun _ _ => True) ↔ LengthSane c := fun c => by
    rw [safe_popVarstring_iff]
    exact and_iff_left fun _ _ _ => trivial
  have habort : (∀ c', popVectorString c ≠ .error .abort c') ↔ VectorSane c := by
    rw [← safe_true_iff]
    simp only [popVectorString, safe_bind, safe_replicateM_iff hstring]
    exact noAbort_popIntegerUvarint.safe_iff
  rw [safe_iff, habort]

/-- A vector of strings as objects is the same. -/
theorem safe_popVectorObject_iff {c : Cursor UInt8} {Q : List Bytes → Cursor UInt8 → Prop} :
    Safe (popVectorObject (τ := Bytes)) c Q ↔
      VectorSane c ∧ ∀ data c', popVectorObject (τ := Bytes) c = .ok data c' → Q data c' :=
  safe_popVectorString_iff

end TrivialSerialize

end Galaxy42
