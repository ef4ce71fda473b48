import Galaxy42.Tunserver.PeerReferences

/-!
# The syntax of references

What `parse_peer_reference` makes of a text is told from what is left behind the groups that it has read
(`parsePeerReference_cases`). Behind the last group there may be nothing; then the text is a reference, and
it is written as it was read. Everything else should be refused, but the loop ends as soon as there is no
more than one character left behind the beginning of a group. So such an end is dropped, whatever the
character is. And a separator at the end makes `at` look behind the text, which throws another exception.

`parsesExactly_iff` says that these are the only texts that are not treated as they should be
(`CutOff`). All references are read, of a hip that is not empty and cables that are not empty
(`parsePeerReference_complete`).

To be read exactly is to be written by what was returned (`ReadAs`): the hip, or the id that stands for any peer,
and the groups of the cables. So the syntax needs no grammar of its own, and what is refused is told by the
exception: the checks of the input throw one kind (`Refused`), which composes as programs do.

The texts that are cut off are described by themselves (`EndsCutOff`): a reference that is not too long, and
behind it the beginning of another group with at most one character, or a separator alone. For each such text
it is shown what becomes of it, and for each other text that it is refused or read exactly, so the condition
is neither too wide nor too narrow.
-/

namespace Galaxy42

open Toolkit StdString

/-! ### Refused texts -/

/-- A check of the input has failed. -/
def Refused {α : Type} (r : Except Exn α) : Prop := ∃ cond, r = .error (.errCheckInput cond)

section Refused

variable {α β : Type} {f : α → Except Exn β} {condition : Prop} [Decidable condition] {cond : String}

private theorem Refused.bind {r : Except Exn α} (h : Refused r) : Refused (r >>= f) := by
  obtain ⟨cond, rfl⟩ := h
  exact ⟨cond, rfl⟩

/-- A check is passed, or the text is refused. -/
theorem refused_checkInput_bind {f : Unit → Except Exn β} (h : condition → Refused (f ())) :
    Refused (checkInput condition cond >>= f) := by
  by_cases hcondition : condition
  · rw [bindExcept_of_ok (checkInput_of hcondition cond)]
    exact h hcondition
  · exact Refused.bind ⟨cond, if_neg hcondition⟩

private theorem refused_bind_of_ok {r : Except Exn α} {a : α} (h : r = .ok a) (hf : Refused (f a)) :
    Refused (r >>= f) := by
  rwa [bindExcept_of_ok h]

end Refused

private theorem find_eq_none_iff {s : Bytes} {c : UInt8} : find s c 0 = none ↔ c ∉ s := by
  refine ⟨fun h hmem => ?_, fun h => find_eq_none_of_not_mem h 0⟩
  rw [find, Option.map_eq_none_iff, List.drop_zero, List.findIdx?_eq_none_iff] at h
  exact absurd (h c hmem) (by simp)

private theorem find_append_eq_none {c : UInt8} {rest : Bytes} (skipped : Bytes) (h : c ∉ rest) :
    find (skipped ++ rest) c skipped.length = none := by
  have hnone := find_eq_none_of_not_mem h 0
  rw [find, List.drop_zero, Option.map_eq_none_iff] at hnone
  rw [find, List.drop_left, hnone]
  rfl

/-! ### What the loop makes of a rest -/

/-- What is behind the beginning of a group is refused, unless it begins with a cable and the end of its
group, or is too short to be looked at. -/
private theorem refused_readFrom {rest : Bytes} (hlen : 2 ≤ rest.length)
    (h : ∀ cable more, IsCable cable → rest ≠ cable ++ groupClose :: more) (skipped : Bytes) :
    Refused (readFrom skipped rest) := by
  have hlt : skipped.length < (skipped ++ rest).length - 1 := by
    rw [List.length_append]
    omega
  suffices hcable : Refused (readCable (skipped ++ rest) skipped.length) by
    obtain ⟨cond, hcond⟩ := hcable
    refine ⟨cond, ?_⟩
    rw [readFrom, readCables, dif_pos hlt]
    split
    next e herror =>
      obtain rfl := Except.error.inj (herror.symm.trans hcond)
      rfl
    next hread => exact absurd (hcond.symm.trans hread) (by simp)
  rw [readCable]
  by_cases hclose : groupClose ∈ rest
  · obtain ⟨part, more, rfl, hpart⟩ := List.eq_append_cons_of_mem hclose
    simp only [find_append skipped more hpart, Option.getD_some, Nat.add_sub_cancel_left]
    refine refused_bind_of_ok (substr_append _ _ _) ?_
    refine refused_checkInput_bind fun hopen => refused_checkInput_bind fun _ =>
      refused_checkInput_bind fun hpos => ?_
    exact absurd rfl (h part more ⟨List.length_pos_iff.mp hpos, find_eq_none_iff.mp hopen, hpart⟩)
  · -- without the end of a group, the last character is not the one that is checked for
    simp only [find_append_eq_none skipped hclose, Option.getD_none]
    have hsubstr : ∃ partX, StdString.substr (skipped ++ rest) skipped.length
        ((skipped ++ rest).length - 1 - skipped.length) = .ok partX := by
      rw [StdString.substr, if_pos (by simp)]
      exact ⟨_, rfl⟩
    obtain ⟨partX, hsubstr⟩ := hsubstr
    refine refused_bind_of_ok hsubstr ?_
    refine refused_checkInput_bind fun _ => refused_checkInput_bind fun _ =>
      refused_checkInput_bind fun _ => ?_
    have hlast : (skipped ++ rest).length - 1 < (skipped ++ rest).length := by
      omega
    have hchar : charAt (skipped ++ rest) ((skipped ++ rest).length - 1) =
        .ok (skipped ++ rest)[(skipped ++ rest).length - 1] := by
      rw [charAt, List.getElem?_eq_getElem hlast]
    refine refused_bind_of_ok hchar (refused_checkInput_bind fun heq => absurd ?_ hclose)
    rw [← heq, List.getElem_append_right (by omega)]
    exact List.getElem_mem _

/-- What is too short is not looked at. -/
private theorem readFrom_of_length_le {rest : Bytes} (h : rest.length ≤ 1) (skipped : Bytes) :
    readFrom skipped rest = .ok [] := by
  rw [readFrom, readCables, dif_neg]
  rw [List.length_append]
  omega

/-- A group that is cut off behind its beginning, or behind one character more. -/
def CutOff (left : Bytes) : Prop :=
  ∃ rest : Bytes, rest.length ≤ 1 ∧ left = separator :: groupOpen :: rest

private theorem continueFrom_of_cutOff {left : Bytes} (h : CutOff left) (skipped : Bytes) :
    continueFrom skipped left = .ok [] := by
  obtain ⟨rest, hlen, rfl⟩ := h
  rw [continueFrom_open, readFrom_of_length_le hlen]

/-- Behind a separator at the end, the text is over. -/
theorem continueFrom_separator (skipped : Bytes) :
    continueFrom skipped [separator] = .error .outOfRange := by
  have hnone : charAt (skipped ++ [separator]) (skipped.length + 1) = .error .outOfRange := by
    simp [charAt]
  rw [continueFrom, continueCables, if_pos (by simp), openCable, bindExcept_of_ok (charAt_append _ _ _),
    bindExcept_of_ok (checkInput_of rfl _), hnone]
  rfl

/-- What is behind a group is refused, unless it begins another one. -/
private theorem refused_continueFrom {rest : Bytes} (hne : rest ≠ []) (hsep : rest ≠ [separator])
    (h : ∀ more, rest ≠ separator :: groupOpen :: more) (skipped : Bytes) :
    Refused (continueFrom skipped rest) := by
  have hlt : skipped.length < (skipped ++ rest).length := by
    rw [List.length_append]
    exact Nat.lt_add_of_pos_right (List.length_pos_iff.mpr hne)
  rw [continueFrom, continueCables, if_pos hlt, openCable]
  refine Refused.bind ?_
  cases rest with
  | nil => exact absurd rfl hne
  | cons c rest =>
    refine refused_bind_of_ok (charAt_append _ _ _) (refused_checkInput_bind ?_)
    rintro rfl
    cases rest with
    | nil => exact absurd rfl hsep
    | cons d rest =>
      have hchar : charAt (skipped ++ separator :: d :: rest) (skipped.length + 1) = .ok d := by
        simp [charAt]
      refine refused_bind_of_ok hchar (refused_checkInput_bind ?_)
      rintro rfl
      exact absurd rfl (h rest)

/-- The groups in front of what is left are read, whatever is made of the rest. -/
private theorem continueFrom_cases (rest : Bytes) : ∀ skipped : Bytes,
    (∃ cables left, (∀ cable ∈ cables, IsCable cable) ∧ rest = groups cables ++ left ∧
      ((left = [] ∨ CutOff left) ∧ continueFrom skipped rest = .ok cables ∨
        left = [separator] ∧ continueFrom skipped rest = .error .outOfRange)) ∨
    Refused (continueFrom skipped rest) := by
  induction hn : rest.length using Nat.strongRecOn generalizing rest with
  | ind n ih =>
    subst hn
    intro skipped
    by_cases hne : rest = []
    · subst hne
      exact .inl ⟨[], [], fun _ h => absurd h List.not_mem_nil, rfl,
        .inl ⟨.inl rfl, continueFrom_nil skipped⟩⟩
    by_cases hsep : rest = [separator]
    · subst hsep
      exact .inl ⟨[], [separator], fun _ h => absurd h List.not_mem_nil, rfl,
        .inr ⟨rfl, continueFrom_separator skipped⟩⟩
    by_cases hopen : ∃ more, rest = separator :: groupOpen :: more
    · obtain ⟨more, rfl⟩ := hopen
      by_cases hlen : more.length ≤ 1
      · have hcut : CutOff (separator :: groupOpen :: more) := ⟨more, hlen, rfl⟩
        exact .inl ⟨[], _, fun _ h => absurd h List.not_mem_nil, rfl,
          .inl ⟨.inr hcut, continueFrom_of_cutOff hcut skipped⟩⟩
      rw [continueFrom_open]
      by_cases hcable : ∃ cable rest, IsCable cable ∧ more = cable ++ groupClose :: rest
      · -- a group, and the rest is shorter
        obtain ⟨cable, rest, hcable, rfl⟩ := hcable
        rw [readFrom_of_isCable hcable]
        have hshorter : rest.length < (separator :: groupOpen :: (cable ++ groupClose :: rest)).length := by
          simp only [List.length_cons, List.length_append]
          omega
        rcases ih _ hshorter rest rfl (skipped ++ [separator, groupOpen] ++ (cable ++ [groupClose])) with
          ⟨cables, left, hcables, rfl, hrun⟩ | hrefused
        · refine .inl ⟨cable :: cables, left, List.forall_mem_cons.mpr ⟨hcable, hcables⟩, ?_, ?_⟩
          · simp [groups_cons]
          · refine hrun.imp (And.imp_right fun hok => ?_) (And.imp_right fun herror => ?_)
            · rw [hok]
              rfl
            · rw [herror]
              rfl
        · exact .inr hrefused.bind
      · push Not at hcable
        exact .inr (refused_readFrom (by omega) (fun cable rest h => hcable cable rest h) _)
    · push Not at hopen
      exact .inr (refused_continueFrom hne hsep hopen skipped)

/-! ### What is made of a text -/

/-- What is returned for a hip. -/
def Names (ids : List Bytes) (id : Bytes) : Prop := ids = [id] ∨ ids = [] ∧ id = ascii "anyone"

private theorem names_retIds (id : Bytes) : Names (retIds id) id := by
  rw [retIds]
  split
  · exact .inl rfl
  next h => exact .inr ⟨rfl, not_not.mp h⟩

/-- The text is a hip with groups, and it is written as it was read. -/
def ReadAs (simple : Bytes) (ids cables : List Bytes) : Prop :=
  ∃ id, IsPart id ∧ Names ids id ∧ (∀ cable ∈ cables, IsCable cable) ∧ peerReference id cables = simple

/-- What is returned is the text, and nothing is thrown but what the checks of the input throw. It is asked of
one text, which may be anything. -/
structure ParsesExactly (simple : Bytes) : Prop where
  readAs : ∀ ids cables, parsePeerReference simple = .ok (ids, cables) → ReadAs simple ids cables
  refuses : ∀ e, parsePeerReference simple = .error e → ∃ cond, e = .errCheckInput cond

/-- A reference that is not too long and goes on with the beginning of another group and one character, or,
behind a group, with the beginning or with its separator alone. In front of what is cut off there may be any
number of cables. -/
def EndsCutOff (simple : Bytes) : Prop :=
  simple.length ≤ reasonableSizeLimitElementsDividedMax ∧
    ∃ id cables left, IsPart id ∧ (∀ cable ∈ cables, IsCable cable) ∧
      simple = peerReference id cables ++ left ∧
      ((∃ c, left = [separator, groupOpen, c]) ∨
        cables ≠ [] ∧ (left = [separator, groupOpen] ∨ left = [separator]))

variable {simple : Bytes}

/-- A text whose first part is a hip is refused, unless a group begins behind it. -/
theorem refused_of_separator {id rest : Bytes} (hid : separator ∉ id)
    (h : ∀ more, IsPart id → more ≠ [] → rest ≠ groupOpen :: more) :
    Refused (parsePeerReference (id ++ separator :: rest)) := by
  have hfind : find (id ++ separator :: rest) separator 0 = some id.length := by
    have hfound := find_append [] rest hid
    simpa using hfound
  rw [parsePeerReference]
  refine refused_checkInput_bind fun _ => refused_checkInput_bind fun _ => ?_
  rw [hfind]
  refine refused_bind_of_ok (substr_append [] id _) ?_
  refine refused_checkInput_bind fun hopen => refused_checkInput_bind fun hclose =>
    refused_checkInput_bind fun hpos => refused_checkInput_bind fun hlen => ?_
  refine refused_bind_of_ok (charAt_append _ _ _) (refused_checkInput_bind fun _ => ?_)
  have hpart : IsPart id :=
    ⟨List.length_pos_iff.mp hpos, hid, find_eq_none_iff.mp hopen, find_eq_none_iff.mp hclose⟩
  cases rest with
  | nil => simp at hlen
  | cons d more =>
    have hchar : charAt (id ++ separator :: d :: more) (id.length + 1) = .ok d := by
      simp [charAt]
    refine refused_bind_of_ok hchar (refused_checkInput_bind ?_)
    rintro rfl
    refine absurd rfl (h more hpart ?_)
    rintro rfl
    simp at hlen

/-- A hip without cables is returned, also the one that stands for any peer. -/
theorem parsePeerReference_of_isPart (hpart : IsPart simple) (hlen : 3 ≤ simple.length)
    (hsize : simple.length ≤ reasonableSizeLimitElementsDividedMax) :
    parsePeerReference simple = .ok ([simple], []) := by
  rw [parsePeerReference, bindExcept_of_ok (checkInput_of hsize _),
    bindExcept_of_ok (checkInput_of hlen _), find_eq_none_of_not_mem hpart.separator]
  dsimp only
  rw [bindExcept_of_ok (checkInput_of (find_eq_none_of_not_mem hpart.groupOpen 0) _),
    bindExcept_of_ok (checkInput_of (find_eq_none_of_not_mem hpart.groupClose 0) _),
    bindExcept_of_ok (checkInput_of (by omega) _)]
  rfl

/-- A text without a separator is refused, unless it is a hip that is neither too short nor too long. -/
private theorem refused_of_not_mem (hsep : separator ∉ simple)
    (h : IsPart simple → 3 ≤ simple.length → ¬ simple.length ≤ reasonableSizeLimitElementsDividedMax) :
    Refused (parsePeerReference simple) := by
  rw [parsePeerReference]
  refine refused_checkInput_bind fun hsize => refused_checkInput_bind fun hlen => ?_
  rw [find_eq_none_of_not_mem hsep]
  refine refused_checkInput_bind fun hopen => refused_checkInput_bind fun hclose => ?_
  have hne : simple ≠ [] := List.ne_nil_of_length_pos (by omega)
  exact absurd hsize (h ⟨hne, hsep, find_eq_none_iff.mp hopen, find_eq_none_iff.mp hclose⟩ hlen)

/-- A text is refused, or it is read as it is written, or it ends with a group that is cut off. These are all
texts, so the result on the parser is a matter of telling which case a text is in. -/
theorem parsePeerReference_cases (simple : Bytes) :
    Refused (parsePeerReference simple) ∨
      (∃ ids cables, parsePeerReference simple = .ok (ids, cables) ∧ ReadAs simple ids cables) ∨
      EndsCutOff simple := by
  by_cases hsize : simple.length ≤ reasonableSizeLimitElementsDividedMax
  swap
  · exact .inl ⟨_, parsePeerReference_of_lt (Nat.not_le.mp hsize)⟩
  by_cases hsep : separator ∈ simple
  swap
  · by_cases hpart : IsPart simple ∧ 3 ≤ simple.length
    · exact .inr (.inl ⟨[simple], [], parsePeerReference_of_isPart hpart.1 hpart.2 hsize, simple, hpart.1,
        .inl rfl, fun _ h => absurd h List.not_mem_nil, List.append_nil simple⟩)
    · exact .inl (refused_of_not_mem hsep fun hid hlen => absurd ⟨hid, hlen⟩ hpart)
  obtain ⟨id, rest, rfl, hid⟩ := List.eq_append_cons_of_mem hsep
  by_cases hgroup : ∃ more, IsPart id ∧ more ≠ [] ∧ rest = groupOpen :: more
  swap
  · push Not at hgroup
    exact .inl (refused_of_separator hid fun more hpart hne => hgroup more hpart hne)
  obtain ⟨more, hpart, hne, rfl⟩ := hgroup
  have hparse := parsePeerReference_open hpart hne hsize
  rcases continueFrom_cases (separator :: groupOpen :: more) id with
    ⟨cables, left, hcables, heq, (⟨hleft, hok⟩ | ⟨rfl, -⟩)⟩ | hrefused
  · have htext : id ++ separator :: groupOpen :: more = peerReference id cables ++ left := by
      rw [heq, peerReference, List.append_assoc]
    refine .inr ?_
    rcases hleft with rfl | ⟨rest, hlen, rfl⟩
    · refine .inl ⟨retIds id, cables, ?_, id, hpart, names_retIds id, hcables, ?_⟩
      · rw [hparse, hok]
        rfl
      · rw [htext, List.append_nil]
    · refine .inr ⟨hsize, id, cables, _, hpart, hcables, htext, ?_⟩
      cases rest with
      | cons c rest =>
        obtain rfl : rest = [] := List.length_eq_zero_iff.mp (by simpa using hlen)
        exact .inl ⟨c, rfl⟩
      | nil =>
        refine .inr ⟨?_, .inl rfl⟩
        rintro rfl
        simp [groups] at heq
        exact hne heq
  · refine .inr (.inr ⟨hsize, id, cables, [separator], hpart, hcables, ?_, .inr ⟨?_, .inr rfl⟩⟩)
    · rw [heq, peerReference, List.append_assoc]
    · rintro rfl
      simp [groups] at heq
  · exact .inl (hparse ▸ hrefused.bind)

/-- A group that is cut off is dropped, or makes `at` throw. -/
theorem not_parsesExactly_of_endsCutOff (h : EndsCutOff simple) : ¬ ParsesExactly simple := by
  obtain ⟨hsize, id, cables, left, hpart, hcables, rfl, hleft⟩ := h
  obtain ⟨rest, hne, hrest⟩ : ∃ rest, rest ≠ [] ∧ groups cables ++ left = separator :: groupOpen :: rest := by
    cases cables with
    | nil =>
      obtain ⟨c, rfl⟩ := hleft.resolve_right fun h => h.1 rfl
      exact ⟨[c], List.cons_ne_nil _ _, rfl⟩
    | cons cable cables =>
      refine ⟨cable ++ groupClose :: (groups cables ++ left), by simp, ?_⟩
      rw [groups_cons]
      simp
  have hparse : parsePeerReference (peerReference id cables ++ left) = (do
      let more ← continueFrom (id ++ groups cables) left
      return (retIds id, cables ++ more)) := by
    rw [peerReference, List.append_assoc, hrest] at hsize ⊢
    rw [parsePeerReference_open hpart hne hsize, ← hrest, continueFrom_groups hcables, bind_assoc]
    simp
  intro hexact
  by_cases hsep : left = [separator]
  · subst hsep
    rw [continueFrom_separator] at hparse
    obtain ⟨cond, hcond⟩ := hexact.refuses _ hparse
    cases hcond
  · have hcut : CutOff left := by
      rcases hleft with ⟨c, rfl⟩ | ⟨-, rfl | rfl⟩
      · exact ⟨[c], Nat.le_refl 1, rfl⟩
      · exact ⟨[], Nat.zero_le _, rfl⟩
      · exact absurd rfl hsep
    rw [continueFrom_of_cutOff hcut] at hparse
    obtain ⟨id', -, hnames, -, heq⟩ := hexact.readAs _ (cables ++ []) hparse
    have hid : id' = id := by
      rw [retIds] at hnames
      split at hnames
      · rcases hnames with h | ⟨h, -⟩
        · exact (List.cons.inj h).1.symm
        · cases h
      next hanyone =>
        rcases hnames with h | ⟨-, h⟩
        · cases h
        · exact h.trans (not_not.mp hanyone).symm
    rw [hid, List.append_nil, List.self_eq_append_right] at heq
    obtain ⟨rest, -, rfl⟩ := hcut
    cases heq

/-- The parser returns what is written, and throws the exception of the checks otherwise, exactly when the
text does not end with a group that is cut off. In such a text the beginning of a group that is not finished
is dropped without an error, or `at` throws. -/
theorem parsesExactly_iff (simple : Bytes) : ParsesExactly simple ↔ ¬ EndsCutOff simple := by
  refine ⟨fun hexact hcut => not_parsesExactly_of_endsCutOff hcut hexact, fun hnot => ?_⟩
  rcases parsePeerReference_cases simple with ⟨cond, hrefused⟩ | ⟨ids, cables, hok, hread⟩ | hcut
  · refine ⟨fun ids cables hok => ?_, fun e herror => ⟨cond, ?_⟩⟩
    · cases hrefused.symm.trans hok
    · exact Except.error.inj (herror.symm.trans hrefused)
  · refine ⟨fun ids' cables' hok' => ?_, fun e herror => ?_⟩
    · obtain ⟨rfl, rfl⟩ := Prod.mk.inj (Except.ok.inj (hok.symm.trans hok'))
      exact hread
    · cases hok.symm.trans herror
  · exact absurd hcut hnot

/-- An empty group at the end is dropped. -/
theorem not_parsesExactly_empty_group : ¬ ParsesExactly (ascii "VIRTUAL@()") := by
  refine not_parsesExactly_of_endsCutOff
    ⟨by decide, ascii "VIRTUAL", [], ascii "@()", ?_, fun _ h => absurd h List.not_mem_nil, by decide,
      .inl ⟨groupClose, by decide⟩⟩
  exact ⟨by decide, by decide, by decide, by decide⟩

/-! ### Completeness -/

/-- A hip that is not empty, with cables that are not empty, is read as it was written. Without cables, also
the hip that stands for any peer is returned. The text has at least three characters, and is not longer than
the limit of the parser. -/
theorem parsePeerReference_complete {id : Bytes} {cables : List Bytes} (hid : IsPart id)
    (hcables : ∀ cable ∈ cables, IsCable cable) (hlen : 3 ≤ (peerReference id cables).length)
    (hsize : (peerReference id cables).length ≤ reasonableSizeLimitElementsDividedMax) :
    parsePeerReference (peerReference id cables) =
      .ok (if id = ascii "anyone" ∧ cables ≠ [] then [] else [id], cables) := by
  cases cables with
  | nil =>
    rw [peerReference, groups, List.flatMap_nil, List.append_nil] at hlen hsize ⊢
    rw [parsePeerReference_of_isPart hid hlen hsize, if_neg (by simp)]
  | cons cable cables =>
    rw [parsePeerReference_groups hid hcables hsize, retIds]
    simp [ite_not]

/-- The name of any peer, and a cable with a separator in it. -/
theorem parsePeerReference_complete_example :
    parsePeerReference (peerReference (ascii "anyone") [ascii "email:tx@test.com"]) =
      .ok (if ascii "anyone" = ascii "anyone" ∧ [ascii "email:tx@test.com"] ≠ [] then []
        else [ascii "anyone"], [ascii "email:tx@test.com"]) :=
  parsePeerReference_complete ⟨by decide, by decide, by decide, by decide⟩
    (List.forall_mem_singleton.mpr ⟨by decide, by decide, by decide⟩) (by decide) (by decide)

/-- Without a hip, a reference is refused. -/
theorem not_parsePeerReference_complete_nil :
    ¬ ∀ (id : Bytes) (cables : List Bytes), separator ∉ id → groupOpen ∉ id → groupClose ∉ id →
      (∀ cable ∈ cables, IsCable cable) → 3 ≤ (peerReference id cables).length →
      (peerReference id cables).length ≤ reasonableSizeLimitElementsDividedMax →
      parsePeerReference (peerReference id cables) =
        .ok (if id = ascii "anyone" ∧ cables ≠ [] then [] else [id], cables) := by
  intro h
  have hok := h [] [[99]] List.not_mem_nil List.not_mem_nil List.not_mem_nil
    (List.forall_mem_singleton.mpr ⟨by decide, by decide, by decide⟩) (by decide) (by decide)
  obtain ⟨cond, hrefused⟩ : Refused (parsePeerReference (peerReference [] [[99]])) :=
    refused_of_separator List.not_mem_nil fun _ hid => absurd rfl hid.ne_nil
  cases hrefused.symm.trans hok

end Galaxy42
