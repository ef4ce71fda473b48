import Galaxy42.Utils.Texts

/-!
# References of peers

A reference of a peer is a text `VIRTUAL@(CABLE)@(CABLE)`: the hip of the peer, and the ways to reach
it. `c_galaxysrv_peers::parse_peer_reference` takes such a text apart. What is written in this form, of
parts that contain none of the characters that separate them, is read as it was written
(`parsePeerReference_peerReference`).

The loop of the parser is over positions in the text: it looks for the end of a group, takes the part out, and
then looks at the characters behind it, which begin another group or are the end. It is a recursion here, whose
measure is what is left of the text (`readCables`), and its checks are in the order of the source, because the
exceptions and `at` depend on it.

For proofs the positions are a burden. So the loop is also described by what was skipped and what is left
(`readFrom`, `continueFrom`), with one lemma for each way in which a rest can begin. These lemmas do not
assume that the text is a reference, and `ReferenceSyntax` uses them for all texts.

A hip must not have the separator in it (`IsPart`). A cable may, since the end of its group is looked for and
the separator is not (`IsCable`); so the text of a cable may itself have the form of an address with an `@`.
The id of a hip that stands for any peer is read as no id at all.
-/

namespace Galaxy42

open Toolkit

open StdString

/-! ### Taking a reference apart -/

/-- `reasonable_size_limit_elements_divided_max` -/
def reasonableSizeLimitElementsDividedMax : ℕ := 1000000

/-- `separator`, the character `'@'` -/
def separator : UInt8 := 64

/-- `group_open`, the character `'('` -/
def groupOpen : UInt8 := 40

/-- `group_close`, the character `')'` -/
def groupClose : UInt8 := 41

/-- The part of the loop up to the end of a group: the text of the group, and the position behind it. When
there is no end of a group, the last character is taken for it, which is then refused. -/
def readCable (simple : Bytes) (posB : ℕ) : Except Exn (Bytes × ℕ) := do
  let sizeBefore := simple.length - 1
  let posX := (find simple groupClose posB).getD sizeBefore
  let partX ← StdString.substr simple posB (posX - posB)
  checkInput (find partX groupOpen 0 = none) "string::npos == partX.find(group_open)"
  checkInput (find partX groupClose 0 = none) "string::npos == partX.find(group_close)"
  checkInput (partX.length > 0) "partX.size()>0"
  let close ← charAt simple posX
  checkInput (close = groupClose) "simple.at(posB)==group_close"
  return (partX, posX + 1)

/-- The end of the loop: the beginning of another group. Both characters are read with `at`, which throws at
the end. -/
def openCable (simple : Bytes) (posB : ℕ) : Except Exn ℕ := do
  let sep ← charAt simple posB
  checkInput (sep = separator) "simple.at(posB)==separator"
  let opened ← charAt simple (posB + 1)
  checkInput (opened = groupOpen) "simple.at(posB)==group_open"
  return posB + 2

/-- The group ends behind its beginning. -/
private theorem lt_of_readCable {simple partX : Bytes} {posB posX : ℕ} (hlt : posB < simple.length - 1)
    (h : readCable simple posB = .ok (partX, posX)) : posB < posX := by
  simp only [readCable, bindExcept_eq_ok_iff, pure, Except.pure, Except.ok.injEq, Prod.mk.injEq] at h
  obtain ⟨_, -, _, -, _, -, _, -, _, -, _, -, -, rfl⟩ := h
  cases hfind : find simple groupClose posB with
  | none => exact Nat.lt_succ_of_lt hlt
  | some i => exact Nat.lt_succ_of_le (le_of_find_eq_some hfind)

private theorem eq_add_two_of_openCable {simple : Bytes} {posB next : ℕ}
    (h : openCable simple posB = .ok next) :
    next = posB + 2 := by
  simp only [openCable, bindExcept_eq_ok_iff, pure, Except.pure, Except.ok.injEq] at h
  obtain ⟨_, -, _, -, _, -, _, -, rfl⟩ := h
  rfl

/-- The loop over the groups. It ends where less than two characters are left behind the beginning of a group. -/
def readCables (simple : Bytes) (posB : ℕ) : Except Exn (List Bytes) :=
  if _hbefore : posB < simple.length - 1 then
    match _hread : readCable simple posB with
    | .error e => .error e
    | .ok (partX, posX) =>
      if posX < simple.length then
        match _hopen : openCable simple posX with
        | .error e => .error e
        | .ok next => do
          let cables ← readCables simple next
          return partX :: cables
      else .ok [partX]
  else .ok []
termination_by simple.length - posB
decreasing_by
  have hlt := lt_of_readCable _hbefore _hread
  have hnext := eq_add_two_of_openCable _hopen
  omega

/-- `c_galaxysrv_peers::parse_peer_reference`: the hip, when there is one, and the cables. The check that
the size is not zero is left out behind the one that it is 3 or more. -/
def parsePeerReference (simple : Bytes) : Except Exn (List Bytes × List Bytes) := do
  checkInput (simple.length ≤ reasonableSizeLimitElementsDividedMax)
    "elements <= reasonable_size_limit_elements_divided_max"
  checkInput (simple.length ≥ 3) "simple.size()>=3"
  match find simple separator 0 with
  | none =>
    checkInput (find simple groupOpen 0 = none) "string::npos == simple.find(group_open)"
    checkInput (find simple groupClose 0 = none) "string::npos == simple.find(group_close)"
    checkInput (simple.length > 0) "simple.size()>0"
    return ([simple], [])
  | some pos1 =>
    let part1 ← StdString.substr simple 0 pos1
    checkInput (find part1 groupOpen 0 = none) "string::npos == part1.find(group_open)"
    checkInput (find part1 groupClose 0 = none) "string::npos == part1.find(group_close)"
    checkInput (part1.length > 0) "part1.size()>0"
    let retId := if part1 ≠ ascii "anyone" then [part1] else []
    checkInput (pos1 + 2 < simple.length) "pos1+2 < size"
    let sep ← charAt simple pos1
    checkInput (sep = separator) "simple.at(pos1+0)==separator"
    let opened ← charAt simple (pos1 + 1)
    checkInput (opened = groupOpen) "simple.at(pos1+1)==group_open"
    let retCable ← readCables simple (pos1 + 2)
    return (retId, retCable)

/-! ### What is read -/

/-- The groups of some cables. -/
def groups (cables : List Bytes) : Bytes :=
  cables.flatMap fun cable => separator :: groupOpen :: (cable ++ [groupClose])

/-- The reference of a peer with a hip and some cables. Each cable is in a group of its own. -/
def peerReference (id : Bytes) (cables : List Bytes) : Bytes :=
  id ++ groups cables

/-- A part of a reference that is not empty, and does not contain the characters around it. The hip is one,
and so is an address or a port as a text. -/
structure IsPart (part : Bytes) : Prop where
  ne_nil : part ≠ []
  separator : separator ∉ part
  groupOpen : groupOpen ∉ part
  groupClose : groupClose ∉ part

/-- A cable that is not empty, and does not contain the characters around it. A separator may be in it, as the
end of a group is what is looked for. -/
structure IsCable (cable : Bytes) : Prop where
  ne_nil : cable ≠ []
  groupOpen : groupOpen ∉ cable
  groupClose : groupClose ∉ cable

theorem IsPart.isCable {part : Bytes} (h : IsPart part) : IsCable part :=
  ⟨h.ne_nil, h.groupOpen, h.groupClose⟩

theorem groups_cons (cable : Bytes) (cables : List Bytes) :
    groups (cable :: cables) = separator :: groupOpen :: (cable ++ groupClose :: groups cables) := by
  simp [groups]

/-- A group is read up to its end. -/
private theorem readCable_of_isCable {cable : Bytes} (h : IsCable cable) (skipped rest : Bytes) :
    readCable (skipped ++ (cable ++ groupClose :: rest)) skipped.length =
      .ok (cable, skipped.length + cable.length + 1) := by
  have hclose : charAt (skipped ++ (cable ++ groupClose :: rest)) (skipped.length + cable.length) =
      .ok groupClose := by
    rw [← List.append_assoc, ← List.length_append]
    exact charAt_append _ _ _
  rw [readCable]
  simp only [find_append skipped rest h.groupClose, Option.getD_some, Nat.add_sub_cancel_left]
  rw [bindExcept_of_ok (substr_append _ _ _),
    bindExcept_of_ok (checkInput_of (find_eq_none_of_not_mem h.groupOpen 0) _),
    bindExcept_of_ok (checkInput_of (find_eq_none_of_not_mem h.groupClose 0) _),
    bindExcept_of_ok (checkInput_of (List.length_pos_iff.mpr h.ne_nil) _),
    bindExcept_of_ok hclose, bindExcept_of_ok (checkInput_of rfl _)]
  rfl

private theorem openCable_append (skipped rest : Bytes) :
    openCable (skipped ++ separator :: groupOpen :: rest) skipped.length = .ok (skipped.length + 2) := by
  have hopen : charAt (skipped ++ separator :: groupOpen :: rest) (skipped.length + 1) =
      .ok groupOpen := by
    simp [charAt]
  rw [openCable, bindExcept_of_ok (charAt_append _ _ _), bindExcept_of_ok (checkInput_of rfl _),
    bindExcept_of_ok hopen, bindExcept_of_ok (checkInput_of rfl _)]
  rfl

/-- A round of the loop. -/
private theorem readCables_of_readCable {simple partX : Bytes} {posB posX : ℕ}
    (hlt : posB < simple.length - 1)
    (h : readCable simple posB = .ok (partX, posX)) :
    readCables simple posB =
      if posX < simple.length then do
        let next ← openCable simple posX
        let cables ← readCables simple next
        return partX :: cables
      else .ok [partX] := by
  rw [readCables, dif_pos hlt]
  split
  next e herror => exact absurd (h.symm.trans herror) (by simp)
  next partX' posX' hread =>
    obtain ⟨rfl, rfl⟩ := Prod.mk.inj (Except.ok.inj (h.symm.trans hread))
    split
    next =>
      split
      next e herror => rw [herror]; rfl
      next next hopen => rw [bindExcept_of_ok hopen]
    next => rfl

/-- What comes behind a group: the end, or another group. -/
def continueCables (simple : Bytes) (posX : ℕ) : Except Exn (List Bytes) :=
  if posX < simple.length then do
    let next ← openCable simple posX
    readCables simple next
  else .ok []

/-- The loop, with what was skipped and what is left. -/
def readFrom (skipped rest : Bytes) : Except Exn (List Bytes) :=
  readCables (skipped ++ rest) skipped.length

/-- What comes behind a group, with what was skipped and what is left. -/
def continueFrom (skipped rest : Bytes) : Except Exn (List Bytes) :=
  continueCables (skipped ++ rest) skipped.length

/-- A cable is read, and what comes behind its group. -/
theorem readFrom_of_isCable {cable : Bytes} (h : IsCable cable) (skipped rest : Bytes) :
    readFrom skipped (cable ++ groupClose :: rest) = (do
      let cables ← continueFrom (skipped ++ (cable ++ [groupClose])) rest
      return cable :: cables) := by
  have hlt : skipped.length < (skipped ++ (cable ++ groupClose :: rest)).length - 1 := by
    have hpos := List.length_pos_iff.mpr h.ne_nil
    simp only [List.length_append, List.length_cons]
    omega
  have htext : skipped ++ (cable ++ [groupClose]) ++ rest = skipped ++ (cable ++ groupClose :: rest) := by
    simp
  have hpos : (skipped ++ (cable ++ [groupClose])).length = skipped.length + cable.length + 1 := by
    simp [Nat.add_assoc]
  rw [readFrom, readCables_of_readCable hlt (readCable_of_isCable h skipped rest), continueFrom,
    continueCables, htext, hpos]
  split
  · cases openCable (skipped ++ (cable ++ groupClose :: rest)) (skipped.length + cable.length + 1) <;> rfl
  · rfl

theorem continueFrom_nil (skipped : Bytes) : continueFrom skipped [] = .ok [] := by
  rw [continueFrom, continueCables, List.append_nil, if_neg (Nat.lt_irrefl _)]

/-- Another group is read from behind its beginning on. -/
theorem continueFrom_open (skipped rest : Bytes) :
    continueFrom skipped (separator :: groupOpen :: rest) =
      readFrom (skipped ++ [separator, groupOpen]) rest := by
  rw [continueFrom, continueCables, if_pos (by simp), bindExcept_of_ok (openCable_append _ _), readFrom,
    List.append_assoc, List.length_append]
  rfl

/-- All cables are read, and what comes behind their groups. -/
theorem continueFrom_groups {cables : List Bytes} (h : ∀ cable ∈ cables, IsCable cable)
    (skipped rest : Bytes) :
    continueFrom skipped (groups cables ++ rest) = (do
      let more ← continueFrom (skipped ++ groups cables) rest
      return cables ++ more) := by
  induction cables generalizing skipped with
  | nil =>
    rw [groups, List.flatMap_nil, List.nil_append, List.append_nil]
    exact (bind_pure _).symm
  | cons cable cables ih =>
    obtain ⟨hcable, hcables⟩ := List.forall_mem_cons.mp h
    rw [groups_cons, List.cons_append, List.cons_append, List.append_assoc, List.cons_append,
      continueFrom_open, readFrom_of_isCable hcable, ih hcables, bind_assoc]
    simp

/-- The hip that is returned: none, when it is the one that stands for any peer. The list has at most one
element. -/
def retIds (part1 : Bytes) : List Bytes := if part1 ≠ ascii "anyone" then [part1] else []

/-- Behind a hip the groups are read. -/
theorem parsePeerReference_open {id : Bytes} (hid : IsPart id) {rest : Bytes} (hne : rest ≠ [])
    (hsize : (id ++ separator :: groupOpen :: rest).length ≤ reasonableSizeLimitElementsDividedMax) :
    parsePeerReference (id ++ separator :: groupOpen :: rest) = (do
      let cables ← continueFrom id (separator :: groupOpen :: rest)
      return (retIds id, cables)) := by
  have hpos := List.length_pos_iff.mpr hid.ne_nil
  have hpos' := List.length_pos_iff.mpr hne
  have hfind : find (id ++ separator :: groupOpen :: rest) separator 0 = some id.length := by
    have hfound := find_append [] (groupOpen :: rest) hid.separator
    simpa using hfound
  have hlength : (id ++ separator :: groupOpen :: rest).length = id.length + rest.length + 2 := by
    simp [Nat.add_assoc]
  have hpart : StdString.substr (id ++ separator :: groupOpen :: rest) 0 id.length = .ok id :=
    substr_append [] id _
  have hopen : charAt (id ++ separator :: groupOpen :: rest) (id.length + 1) = .ok groupOpen := by
    simp [charAt]
  rw [parsePeerReference, bindExcept_of_ok (checkInput_of hsize _),
    bindExcept_of_ok (checkInput_of (by omega) _), hfind]
  dsimp only
  rw [bindExcept_of_ok hpart, bindExcept_of_ok (checkInput_of (find_eq_none_of_not_mem hid.groupOpen 0) _),
    bindExcept_of_ok (checkInput_of (find_eq_none_of_not_mem hid.groupClose 0) _),
    bindExcept_of_ok (checkInput_of hpos _), bindExcept_of_ok (checkInput_of (by omega) _),
    bindExcept_of_ok (charAt_append _ _ _), bindExcept_of_ok (checkInput_of rfl _),
    bindExcept_of_ok hopen, bindExcept_of_ok (checkInput_of rfl _), continueFrom_open, readFrom,
    List.append_assoc, List.length_append]
  rfl

/-- A reference with cables is read as it was written. -/
theorem parsePeerReference_groups {id cable : Bytes} {cables : List Bytes} (hid : IsPart id)
    (hcables : ∀ c ∈ cable :: cables, IsCable c)
    (hsize : (peerReference id (cable :: cables)).length ≤ reasonableSizeLimitElementsDividedMax) :
    parsePeerReference (peerReference id (cable :: cables)) = .ok (retIds id, cable :: cables) := by
  have hread := continueFrom_groups hcables id []
  rw [continueFrom_nil, List.append_nil] at hread
  rw [peerReference, groups_cons] at hsize ⊢
  rw [parsePeerReference_open hid (by simp) hsize, ← groups_cons, hread]
  simp [bind, Except.bind, pure, Except.pure]

/-- A reference is read as it was written, unless the hip is the one that stands for any peer. The cables may
be any number, with any text in each that has no brackets. -/
theorem parsePeerReference_peerReference {id cable : Bytes} {cables : List Bytes} (hid : IsPart id)
    (hanyone : id ≠ ascii "anyone") (hcables : ∀ c ∈ cable :: cables, IsCable c)
    (hsize : (peerReference id (cable :: cables)).length ≤ reasonableSizeLimitElementsDividedMax) :
    parsePeerReference (peerReference id (cable :: cables)) = .ok ([id], cable :: cables) := by
  rw [parsePeerReference_groups hid hcables hsize, retIds, if_pos hanyone]

/-- A reference that is too long is refused. Nothing else of it is looked at. -/
theorem parsePeerReference_of_lt {simple : Bytes}
    (h : reasonableSizeLimitElementsDividedMax < simple.length) :
    parsePeerReference simple =
      .error (.errCheckInput "elements <= reasonable_size_limit_elements_divided_max") := by
  rw [parsePeerReference, checkInput, if_neg (Nat.not_le.mpr h)]
  rfl

end Galaxy42
