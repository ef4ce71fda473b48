import Galaxy42.Exceptions
import Galaxy42.Lib.JsonLexer

/-!
# Comments in configuration files

`remove_comments` leaves of each line what is before the first `//`, and puts the lines together. It does not
know about strings, so it also takes away a part of a string that has `//` in it, and all that follows in the
line.

A text that does not have `//` in it has the same value with comments behind its lines. A text that has it,
and has all its strings in its value, gets another value, or none: the solidi that are taken away are missing
(`keepsValue_iff_no_mark`).

The parser behind it is not in the repository. What is known of it is that a text has a value by its tokens,
and that how many solidi there are in a value is counted from the tokens (`JsonLib`); which tokens make up
which value is left open. So the two directions are about tokens. In the first one line feeds and comments go,
and the tokens stay, because a line feed stands between two tokens or is not needed. In the second one solidi
are counted in the text before and behind the removal: a line with a comment mark loses some, and no line
gains any.

Where a name occurs twice in an object, one of the two values is not in the result, so the second direction
asks for all strings to be there (`KeepsStrings`).
-/

namespace Galaxy42

open Toolkit Json

namespace JsonFileParser

/-! ### Removing comments -/

/-- `"//"` -/
def commentMark : Bytes := [solidus, solidus]

/-- `std::string::find` -/
def find (what : Bytes) : Bytes → Option ℕ
  | [] => if what = [] then some 0 else none
  | c :: line => if what <+: c :: line then some 0 else (find what line).map (· + 1)

/-- The lines that `std::getline` reads one after another, when it has read this of the first one. At the end
of the stream there is no line, unless something has been read of it. -/
def getlines (line : Bytes) : Bytes → List Bytes
  | [] => if line = [] then [] else [line]
  | c :: istr => if c = lineFeed then line :: getlines [] istr else getlines (line ++ [c]) istr

/-- What is left of a line. -/
def uncommented (line : Bytes) : Bytes :=
  match find commentMark line with
  | some position => line.take position
  | none => line

/-- `remove_comments` -/
def removeComments (istr : Bytes) : Bytes :=
  (getlines [] istr).foldl (fun ss line =>
    let line := uncommented line
    if line.length = 0 then ss else ss ++ line) []

end JsonFileParser

/-- `json::parse`, which makes a value of the tokens of a text, or throws. -/
structure JsonLib (V : Type) where
  fromTokens : List Token → Option V
  /-- How many solidi are in the strings of a value. -/
  solidi : V → ℕ
  /-- In a JSON text there is something between two words. -/
  separated : ∀ {tokens v}, fromTokens tokens = some v → Separated tokens
  /-- The strings of a value are strings of the text. -/
  solidi_le : ∀ {tokens v}, fromTokens tokens = some v → solidi v ≤ Json.solidi tokens

namespace JsonLib

variable {V : Type} (lib : JsonLib V)

/-- `json::parse` -/
def parse (text : Bytes) : Option V := (tokens text).bind lib.fromTokens

/-- `parse_file`. A file that cannot be opened is like an empty one. -/
def parseFile (file : Option Bytes) : Option V := lib.parse (JsonFileParser.removeComments (file.getD []))

/-- No string of the text is missing in the value. Where a name is repeated, one of the values is. It is told
by the solidi that are in the strings. -/
def KeepsStrings (text : Bytes) (v : V) : Prop :=
  ∀ out, tokens text = some out → lib.solidi v = Json.solidi out

end JsonLib

namespace JsonFileParser

/-- A comment, or nothing. -/
def IsComment (comment : Bytes) : Prop :=
  lineFeed ∉ comment ∧ (comment = [] ∨ commentMark <+: comment)

/-- The text with comments behind some of its lines. In a JSON text, no line ends in a string. -/
inductive Commented : Bytes → Bytes → Prop
  | last {line comment : Bytes} (hline : lineFeed ∉ line) (hcomment : IsComment comment) :
      Commented line (line ++ comment)
  | line {line comment text commented : Bytes} (hline : lineFeed ∉ line) (hcomment : IsComment comment)
      (hrest : Commented text commented) :
      Commented (line ++ lineFeed :: text) (line ++ comment ++ lineFeed :: commented)

/-! ### Lines -/

/-- A text is a line, or a line with a text behind it. -/
theorem line_induction {P : Bytes → Prop} (last : ∀ line, lineFeed ∉ line → P line)
    (line : ∀ line text, lineFeed ∉ line → P text → P (line ++ lineFeed :: text)) (text : Bytes) :
    P text := by
  induction hlength : text.length using Nat.strong_induction_on generalizing text with
  | _ n ih =>
    by_cases hfeed : lineFeed ∈ text
    · obtain ⟨first, rest, rfl, hfirst⟩ := List.eq_append_cons_of_mem hfeed
      refine line first rest hfirst (ih rest.length ?_ rest rfl)
      rw [← hlength, List.length_append, List.length_cons]
      omega
    · exact last text hfeed

private theorem isComment_nil : IsComment [] := ⟨List.not_mem_nil, .inl rfl⟩

/-- Without comments, a text is itself. -/
theorem Commented.refl (text : Bytes) : Commented text text := by
  induction text using line_induction with
  | last line hline => simpa using Commented.last hline isComment_nil
  | line line text hline ih => simpa using Commented.line hline isComment_nil ih

private theorem getlines_last {line : Bytes} (hline : lineFeed ∉ line) (first : Bytes) :
    getlines first line = if first ++ line = [] then [] else [first ++ line] := by
  induction line generalizing first with
  | nil => simp [getlines]
  | cons c line ih =>
    obtain ⟨hc, hline⟩ := not_or.mp (List.mem_cons.not.mp hline)
    rw [getlines, if_neg (Ne.symm hc), ih hline, List.append_assoc, List.singleton_append]

private theorem getlines_line {line : Bytes} (hline : lineFeed ∉ line) (first text : Bytes) :
    getlines first (line ++ lineFeed :: text) = (first ++ line) :: getlines [] text := by
  induction line generalizing first with
  | nil => simp [getlines]
  | cons c line ih =>
    obtain ⟨hc, hline⟩ := not_or.mp (List.mem_cons.not.mp hline)
    rw [List.cons_append, getlines, if_neg (Ne.symm hc), ih hline, List.append_assoc, List.singleton_append]

/-- `remove_comments` puts together what is left of the lines. -/
theorem removeComments_eq (istr : Bytes) : removeComments istr = (getlines [] istr).flatMap uncommented := by
  have hfold : ∀ (lines : List Bytes) (ss : Bytes), lines.foldl (fun ss line =>
      let line := uncommented line
      if line.length = 0 then ss else ss ++ line) ss = ss ++ lines.flatMap uncommented := by
    intro lines
    induction lines with
    | nil => simp
    | cons line lines ih =>
      intro ss
      rw [List.foldl_cons, ih, List.flatMap_cons, ← List.append_assoc]
      by_cases hempty : uncommented line = [] <;> simp [hempty]
  exact (hfold _ []).trans (List.nil_append _)

private theorem removeComments_last {line : Bytes} (hline : lineFeed ∉ line) :
    removeComments line = uncommented line := by
  rw [removeComments_eq, getlines_last hline, List.nil_append]
  split
  next hempty =>
    rw [hempty]
    rfl
  next => exact List.flatMap_singleton ..

private theorem removeComments_line {line : Bytes} (hline : lineFeed ∉ line) (text : Bytes) :
    removeComments (line ++ lineFeed :: text) = uncommented line ++ removeComments text := by
  rw [removeComments_eq, getlines_line hline, List.nil_append, List.flatMap_cons, ← removeComments_eq]

/-! ### What is left of a line -/

private theorem find_eq_none_iff {what line : Bytes} : find what line = none ↔ ¬ what <:+: line := by
  induction line with
  | nil => simp [find]
  | cons c line ih =>
    rw [find, List.infix_cons_iff, not_or, ← ih]
    split
    next hat => simp [hat]
    next hat => simp [hat]

private theorem exists_of_find {what line : Bytes} {position : ℕ} (h : find what line = some position) :
    ∃ rest, line = line.take position ++ (what ++ rest) := by
  induction line generalizing position with
  | nil =>
    simp only [find, Option.ite_none_right_eq_some] at h
    exact ⟨[], by simp [h.1]⟩
  | cons c line ih =>
    simp only [find] at h
    split_ifs at h with hat
    · obtain rfl := Option.some.inj h
      obtain ⟨rest, hrest⟩ := hat
      exact ⟨rest, hrest.symm⟩
    · obtain ⟨position, hfind, rfl⟩ := Option.map_eq_some_iff.mp h
      obtain ⟨rest, hrest⟩ := ih hfind
      exact ⟨rest, by rw [List.take_succ_cons, List.cons_append, ← hrest]⟩

/-- A line stays, or its comment is taken away. -/
private theorem uncommented_cases (line : Bytes) : ¬ commentMark <:+: line ∧ uncommented line = line ∨
    commentMark <:+: line ∧ ∃ rest, line = uncommented line ++ (commentMark ++ rest) := by
  unfold uncommented
  cases hfind : find commentMark line with
  | none => exact .inl ⟨find_eq_none_iff.mp hfind, rfl⟩
  | some position =>
    have hin : commentMark <:+: line := by
      by_contra hnot
      rw [find_eq_none_iff.mpr hnot] at hfind
      cases hfind
    exact .inr ⟨hin, exists_of_find hfind⟩

/-- Two solidi are not made of one that ends a line and a comment behind it. -/
private theorem find_append {line : Bytes} (hmark : ¬ commentMark <:+: line)
    (hlast : line.getLast? ≠ some solidus)
    (rest : Bytes) : find commentMark (line ++ (commentMark ++ rest)) = some line.length := by
  induction line with
  | nil => simp [find, commentMark]
  | cons c line ih =>
    rw [List.infix_cons_iff, not_or] at hmark
    have hat : ¬ commentMark <+: c :: (line ++ (commentMark ++ rest)) := by
      intro hat
      obtain ⟨hc, hat⟩ := List.cons_prefix_cons.mp hat
      cases line with
      | nil =>
        subst hc
        exact hlast rfl
      | cons d line =>
        obtain ⟨hd, -⟩ := List.cons_prefix_cons.mp hat
        subst hc hd
        exact hmark.1 ⟨line, rfl⟩
    have hlast' : line.getLast? ≠ some solidus := by
      cases line with
      | nil => simp
      | cons d line => rwa [List.getLast?_cons_cons] at hlast
    rw [List.cons_append, find, if_neg hat, ih hmark.2 hlast']
    rfl

/-- The comment behind a line is taken away. -/
private theorem uncommented_append {line comment : Bytes} (hmark : ¬ commentMark <:+: line)
    (hlast : line.getLast? ≠ some solidus) (hcomment : IsComment comment) :
    uncommented (line ++ comment) = line := by
  rcases hcomment.2 with rfl | ⟨rest, rfl⟩
  · rw [List.append_nil, uncommented, find_eq_none_iff.mpr hmark]
  · rw [uncommented, find_append hmark hlast]
    exact List.take_left

/-- A comment mark is in one line. -/
theorem mark_infix_line_iff {line text : Bytes} : commentMark <:+: line ++ lineFeed :: text ↔
    commentMark <:+: line ∨ commentMark <:+: text := by
  induction line with
  | nil =>
    have hat : ¬ commentMark <+: lineFeed :: text := by
      intro hat
      exact absurd (List.cons_prefix_cons.mp hat).1 (by decide)
    have hnil : ¬ commentMark <:+: [] := by decide
    rw [List.nil_append, List.infix_cons_iff]
    simp [hat, hnil]
  | cons c line ih =>
    have hat : commentMark <+: c :: (line ++ lineFeed :: text) ↔ commentMark <+: c :: line := by
      cases line with
      | nil => simp [commentMark, lineFeed, solidus]
      | cons d line => simp [commentMark]
    rw [List.cons_append, List.infix_cons_iff, List.infix_cons_iff, hat, ih, or_assoc]

/-! ### Texts without a comment mark -/

variable {s f : Lexer} {text commented : Bytes}

/-- Of a text without a comment mark, all but comments and line feeds is left. -/
private theorem removeComments_of_commented (h : Commented text commented) (hrun : s.run text = some f)
    (hfinish : f.finish ≠ none) (hmark : ¬ commentMark <:+: text) :
    removeComments commented = text.filter (· ≠ lineFeed) := by
  have hfilter : ∀ line : Bytes, lineFeed ∉ line → line.filter (· ≠ lineFeed) = line := by
    intro line hline
    refine List.filter_eq_self.mpr fun c hc => decide_eq_true ?_
    rintro rfl
    exact hline hc
  have hcommented : ∀ line comment : Bytes, lineFeed ∉ line → IsComment comment →
      lineFeed ∉ line ++ comment := by
    intro line comment hline hcomment
    exact fun hmem => (List.mem_append.mp hmem).elim hline hcomment.1
  induction h generalizing s with
  | @last line comment hline hcomment =>
    rw [removeComments_last (hcommented line comment hline hcomment), hfilter line hline]
    exact uncommented_append hmark (Lexer.getLast?_ne_solidus hrun hfinish) hcomment
  | @line line comment text commented hline hcomment hrest ih =>
    obtain ⟨hmarkLine, hmarkText⟩ := not_or.mp (mark_infix_line_iff.not.mp hmark)
    obtain ⟨s₁, hrunLine, hfinishLine, hrunText⟩ := Lexer.run_line hrun
    rw [removeComments_line (hcommented line comment hline hcomment), ih hrunText hmarkText,
      uncommented_append hmarkLine (Lexer.getLast?_ne_solidus hrunLine hfinishLine) hcomment,
      List.filter_append, List.filter_cons_of_neg (by simp), hfilter line hline]

/-! ### Texts with a comment mark -/

/-- What is left of a line has no more solidi than the line, and less when there is a comment mark in it. -/
private theorem gains_uncommented {e : Escape} {line : Bytes} (hmode : s.mode = .between)
    (he : ∀ count value, e ≠ .unicode count value) (hrun : s.run line = some f) (hfinish : f.finish ≠ none) :
    e.gains (uncommented line) ≤ Escape.none.gains line ∧
      (commentMark <:+: line → e.gains (uncommented line) < Escape.none.gains line) ∧
      ∀ count value, e.after (uncommented line) ≠ .unicode count value := by
  have hafter : ∀ {left : Bytes} {s₁ : Lexer}, s.run left = some s₁ →
      s₁.mode.seen = Escape.none.after left := by
    intro left s₁ hleft
    rw [(Lexer.seen_run hleft).1, hmode]
    rfl
  rcases uncommented_cases line with ⟨hmark, hleft⟩ | ⟨hmark, rest, hline⟩
  · rw [hleft]
    obtain ⟨hgains, hsame⟩ := Lexer.gains_of_between hmode he hrun
    refine ⟨hgains.le, fun h => absurd h hmark, ?_⟩
    rcases hsame with rfl | hsame
    · exact he
    · rw [hsame, ← hafter hrun, Lexer.seen_of_finish hfinish]
      exact fun _ _ => Escape.noConfusion
  · generalize uncommented line = left at hline ⊢
    subst hline
    obtain ⟨s₁, hrunLeft, hrunRest⟩ := Lexer.run_append_eq_some_iff.mp hrun
    obtain ⟨s₂, hstep, -⟩ := Lexer.run_cons_eq_some_iff.mp hrunRest
    obtain ⟨hgains, hsame⟩ := Lexer.gains_of_between hmode he hrunLeft
    have hseen : ∀ count value, Escape.none.after left ≠ .unicode count value := by
      rw [← hafter hrunLeft]
      exact Lexer.seen_of_step_solidus hstep
    have hless : e.gains left < Escape.none.gains (left ++ (commentMark ++ rest)) := by
      have hgain : 0 < (Escape.none.after left).gains (commentMark ++ rest) := by
        rw [commentMark, List.cons_append, Escape.gains, Escape.gain_solidus hseen]
        omega
      rw [Escape.gains_append, hgains]
      omega
    refine ⟨hless.le, fun _ => hless, ?_⟩
    rcases hsame with rfl | hsame
    · exact he
    · rw [hsame]
      exact hseen

/-- What is left of a text has no more solidi than the text, and less when there is a comment mark in it. -/
private theorem gains_removeComments {e : Escape} (hmode : s.mode = .between)
    (he : ∀ count value, e ≠ .unicode count value) (hrun : s.run text = some f) (hfinish : f.finish ≠ none) :
    e.gains (removeComments text) ≤ Escape.none.gains text ∧
      (commentMark <:+: text → e.gains (removeComments text) < Escape.none.gains text) := by
  induction text using line_induction generalizing s e with
  | last line hline =>
    rw [removeComments_last hline]
    obtain ⟨hle, hless, -⟩ := gains_uncommented hmode he hrun hfinish
    exact ⟨hle, hless⟩
  | line line text hline ih =>
    obtain ⟨s₁, hrunLine, hfinishLine, hrunText⟩ := Lexer.run_line hrun
    obtain ⟨hle, hless, he'⟩ := gains_uncommented hmode he hrunLine hfinishLine
    obtain ⟨hleText, hlessText⟩ := ih (Lexer.mode_settled hfinishLine) he' hrunText
    have hafter : Escape.none.after line = .none := by
      have hseen := (Lexer.seen_run hrunLine).1
      rw [Lexer.seen_of_finish hfinishLine, hmode] at hseen
      exact hseen.symm
    have htext : Escape.none.gains (line ++ lineFeed :: text) =
        Escape.none.gains line + Escape.none.gains text := by
      rw [Escape.gains_append, hafter, Escape.gains]
      exact congrArg _ (Nat.zero_add _)
    rw [removeComments_line hline, Escape.gains_append, htext, mark_infix_line_iff]
    refine ⟨Nat.add_le_add hle hleText, ?_⟩
    rintro (hmark | hmark)
    · exact Nat.add_lt_add_of_lt_of_le (hless hmark) hleText
    · exact Nat.add_lt_add_of_le_of_lt hle (hlessText hmark)

end JsonFileParser

/-! ### Values -/

namespace JsonLib

open JsonFileParser

variable {V : Type} {lib : JsonLib V} {text : Bytes} {v : V}

/-- The text has this value, with comments behind its lines and without. The comments may be any, behind any
of its lines. -/
def KeepsValue (lib : JsonLib V) (text : Bytes) (v : V) : Prop :=
  ∀ commented, Commented text commented → lib.parseFile (some commented) = some v

/-- A text without a comment mark keeps its value. -/
private theorem keepsValue_of_no_mark (hparse : lib.parse text = some v) (hmark : ¬ commentMark <:+: text) :
    lib.KeepsValue text v := by
  intro commented hcommented
  obtain ⟨out, htokens, hvalue⟩ := Option.bind_eq_some_iff.mp hparse
  obtain ⟨f, hrun, hfinish⟩ := Option.bind_eq_some_iff.mp htokens
  have hleft : removeComments commented = text.filter (· ≠ lineFeed) :=
    removeComments_of_commented hcommented hrun (Option.ne_none_iff_exists'.mpr ⟨out, hfinish⟩) hmark
  rw [parseFile, Option.getD_some, hleft, parse, tokens_filter htokens (lib.separated hvalue)]
  exact hvalue

/-- A text that has all its strings in its value loses it by a comment mark. -/
private theorem no_mark_of_parseFile (hparse : lib.parse text = some v) (hkeeps : lib.KeepsStrings text v)
    (hsame : lib.parseFile (some text) = some v) : ¬ commentMark <:+: text := by
  intro hmark
  obtain ⟨out, htokens, hvalue⟩ := Option.bind_eq_some_iff.mp hparse
  obtain ⟨f, hrun, hfinish⟩ := Option.bind_eq_some_iff.mp htokens
  obtain ⟨left, hleft, hvalueLeft⟩ := Option.bind_eq_some_iff.mp hsame
  have hless : Escape.none.gains (removeComments text) < Escape.none.gains text :=
    (gains_removeComments rfl (fun _ _ => Escape.noConfusion) hrun
      (Option.ne_none_iff_exists'.mpr ⟨out, hfinish⟩)).2 hmark
  have hle := lib.solidi_le hvalueLeft
  rw [hkeeps out htokens, solidi_eq_gains htokens, solidi_eq_gains hleft] at hle
  exact absurd hless (not_lt.mpr hle)

/-- A JSON text without a comment mark keeps its value. A text that has all its strings in its value keeps it
in no other case, with comments behind its lines or without. A mark inside of a string is one too, since
comments are taken out before the text is parsed. -/
theorem keepsValue_iff_no_mark (hparse : lib.parse text = some v) :
    (¬ commentMark <:+: text → lib.KeepsValue text v) ∧
      (lib.KeepsStrings text v → (lib.KeepsValue text v ↔ ¬ commentMark <:+: text) ∧
        (lib.parseFile (some text) = some v ↔ ¬ commentMark <:+: text)) := by
  refine ⟨keepsValue_of_no_mark hparse, fun hkeeps => ⟨⟨fun h => ?_, keepsValue_of_no_mark hparse⟩,
    fun h => ?_, fun h => ?_⟩⟩
  · exact no_mark_of_parseFile hparse hkeeps (h text (.refl text))
  · exact no_mark_of_parseFile hparse hkeeps h
  · exact keepsValue_of_no_mark hparse h text (.refl text)

/-! ### A text with one member -/

/-- `json::parse`, of an object with one member, which is a string. -/
def sampleFromTokens : List Token → Option (List StringChar × List StringChar)
  | [.structural 123, .string name, .structural 58, .string value, .structural 125] => some (name, value)
  | _ => none

private theorem sampleFromTokens_eq_some {tokens : List Token} {v : List StringChar × List StringChar}
    (h : sampleFromTokens tokens = some v) :
    tokens = [.structural 123, .string v.1, .structural 58, .string v.2, .structural 125] := by
  unfold sampleFromTokens at h
  split at h
  next =>
    obtain rfl := Option.some.inj h
    rfl
  next => cases h

/-- The library, for objects with one member. -/
def sampleJson : JsonLib (List StringChar × List StringChar) where
  fromTokens := sampleFromTokens
  solidi v := (v.1.map StringChar.solidi).sum + (v.2.map StringChar.solidi).sum
  separated h := by
    rw [sampleFromTokens_eq_some h]
    simp [Separated]
  solidi_le h := by
    rw [sampleFromTokens_eq_some h]
    simp [Json.solidi, Token.solidi]

/-- An object with the member `"a"`, whose value is `"b"`. -/
def sampleText : Bytes := ascii "\x7b\n\"a\": \"b\"\n\x7d"

/-- An object with the member `"a"`, whose value is `"//b"`. -/
def sampleAddress : Bytes := ascii "\x7b\"a\":\"//b\"\x7d"

private theorem parse_sampleAddress :
    sampleJson.parse sampleAddress = some ([.plain 97], [.plain 47, .plain 47, .plain 98]) := by
  decide +kernel

private theorem keepsStrings_sampleAddress :
    sampleJson.KeepsStrings sampleAddress ([.plain 97], [.plain 47, .plain 47, .plain 98]) := by
  intro out hout
  obtain ⟨out', hout', hvalue⟩ := Option.bind_eq_some_iff.mp parse_sampleAddress
  obtain rfl := Option.some.inj (hout.symm.trans hout')
  rw [sampleFromTokens_eq_some hvalue]
  decide

/-- The first of the two objects keeps its value, and the second does not. -/
theorem keepsValue_iff_no_mark_example : sampleJson.KeepsValue sampleText ([.plain 97], [.plain 98]) ∧
    ¬ sampleJson.KeepsValue sampleAddress ([.plain 97], [.plain 47, .plain 47, .plain 98]) := by
  constructor
  · exact (keepsValue_iff_no_mark (by decide +kernel)).1 (by decide +kernel)
  · intro h
    have hmark := ((keepsValue_iff_no_mark parse_sampleAddress).2 keepsStrings_sampleAddress).1.mp h
    exact absurd hmark (by decide +kernel)

/-- Without comments, the second object is not even an object any more. -/
theorem not_keepsValue : ¬ ∀ {V : Type} (lib : JsonLib V) (text : Bytes) (v : V),
    lib.parse text = some v → lib.KeepsValue text v := by
  intro h
  have hsame := h sampleJson sampleAddress _ parse_sampleAddress _ (.refl _)
  have hleft : sampleJson.parseFile (some sampleAddress) = none := by decide +kernel
  exact absurd (hleft.symm.trans hsame) (by simp)

end JsonLib

end Galaxy42
