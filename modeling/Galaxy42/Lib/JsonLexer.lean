import Mathlib.Algebra.GroupWithZero.Nat
import Mathlib.Data.List.Chain
import Mathlib.Tactic.Common

/-!
# The tokens of a JSON text

A JSON text is a sequence of tokens: structural characters, words (the literal names and the numbers), and
strings. White space can stand between them, and separates words. `Lexer.run` reads a text octet by octet;
it fails where no JSON text goes on like that. What the words are, and how tokens make up a value, is left
to a parser.

In a text where words never follow each other, the line feeds can be left out: the tokens stay the same
(`tokens_filter`). Strings can have the solidus in them, as itself, escaped, or as a code unit. How many there
are in the tokens can be counted in the text, by a scanner that knows only escapes, and nothing of where
strings begin and end (`solidi_eq_gains`).

The two results are about what can be done to a text before it is parsed. A program that reads a text line by
line loses the line feeds, and a program that looks for a mark of comments in a line does not know whether it
stands in a string. The proofs follow the reading of one octet. For the first one a lexer that is still
reading a word is related to one that has read it (`settled`), since a line feed ends a word; for the second
one each state of the lexer says what the scanner has seen of an escape (`seen_step`), and the only place where
the two could disagree, a reverse solidus between tokens, is one where no text goes on.

Characters are octets here. Those above 127 can stand in strings only, and nothing is said of whether they
are valid UTF-8.
-/

namespace Toolkit

namespace Json

/-! ### Tokens -/

/-- A character of a string, as it is written. -/
inductive StringChar where
  /-- An octet that stands for itself. -/
  | plain (c : UInt8)
  /-- An octet behind a reverse solidus. -/
  | escaped (c : UInt8)
  /-- A code unit, written with four digits. -/
  | unicode (codeUnit : ℕ)
  deriving DecidableEq

/-- A token. -/
inductive Token where
  /-- One of `{`, `}`, `[`, `]`, `:` and `,` -/
  | structural (c : UInt8)
  /-- A literal name, or a number. -/
  | word (chars : List UInt8)
  /-- A string. -/
  | string (chars : List StringChar)
  deriving DecidableEq

def lineFeed : UInt8 := 10

def solidus : UInt8 := 47

def quotationMark : UInt8 := 34

def reverseSolidus : UInt8 := 92

/-- White space. -/
def IsSpace (c : UInt8) : Prop := c = 32 ∨ c = 9 ∨ c = lineFeed ∨ c = 13

/-- The characters `{`, `}`, `[`, `]`, `:` and `,`. -/
def IsStructural (c : UInt8) : Prop := c = 123 ∨ c = 125 ∨ c = 91 ∨ c = 93 ∨ c = 58 ∨ c = 44

/-- The beginning of `true`, `false`, `null`, or of a number. -/
def StartsWord (c : UInt8) : Prop := c = 116 ∨ c = 102 ∨ c = 110 ∨ c = 45 ∨ 48 ≤ c ∧ c ≤ 57

/-- A character inside of a literal name or a number. -/
def ContinuesWord (c : UInt8) : Prop :=
  97 ≤ c ∧ c ≤ 122 ∨ c = 69 ∨ c = 43 ∨ c = 45 ∨ c = 46 ∨ 48 ≤ c ∧ c ≤ 57

/-- What can stand behind a reverse solidus, `u` apart. -/
def IsEscape (c : UInt8) : Prop :=
  c = quotationMark ∨ c = reverseSolidus ∨ c = solidus ∨ c = 98 ∨ c = 102 ∨ c = 110 ∨ c = 114 ∨ c = 116

/-- The value of a hexadecimal digit. -/
def hexDigit (c : UInt8) : Option ℕ :=
  if 48 ≤ c ∧ c ≤ 57 then some (c.toNat - 48)
  else if 97 ≤ c ∧ c ≤ 102 then some (c.toNat - 87)
  else if 65 ≤ c ∧ c ≤ 70 then some (c.toNat - 55)
  else none

instance (c : UInt8) : Decidable (IsSpace c) := by unfold IsSpace; infer_instance
instance (c : UInt8) : Decidable (IsStructural c) := by unfold IsStructural; infer_instance
instance (c : UInt8) : Decidable (StartsWord c) := by unfold StartsWord; infer_instance
instance (c : UInt8) : Decidable (ContinuesWord c) := by unfold ContinuesWord; infer_instance
instance (c : UInt8) : Decidable (IsEscape c) := by unfold IsEscape; infer_instance

/-! ### Reading -/

/-- What is being read. -/
inductive Mode where
  | between
  | word (chars : List UInt8)
  | string (chars : List StringChar)
  /-- A string, behind a reverse solidus. -/
  | escape (chars : List StringChar)
  /-- A string, in a code unit. -/
  | unicode (chars : List StringChar) (count value : ℕ)
  deriving DecidableEq

/-- The tokens that have been read, and what is being read. -/
structure Lexer where
  tokens : List Token
  mode : Mode
  deriving DecidableEq

namespace Lexer

/-- The next octet, where no token is being read. -/
def start (tokens : List Token) (c : UInt8) : Option Lexer :=
  if IsSpace c then some ⟨tokens, .between⟩
  else if IsStructural c then some ⟨tokens ++ [.structural c], .between⟩
  else if c = quotationMark then some ⟨tokens, .string []⟩
  else if StartsWord c then some ⟨tokens, .word [c]⟩
  else none

/-- The next octet. -/
def step (s : Lexer) (c : UInt8) : Option Lexer :=
  match s.mode with
  | .between => start s.tokens c
  | .word chars =>
    if ContinuesWord c then some ⟨s.tokens, .word (chars ++ [c])⟩
    else start (s.tokens ++ [.word chars]) c
  | .string chars =>
    if c = quotationMark then some ⟨s.tokens ++ [.string chars], .between⟩
    else if c = reverseSolidus then some ⟨s.tokens, .escape chars⟩
    else if 32 ≤ c then some ⟨s.tokens, .string (chars ++ [.plain c])⟩
    else none
  | .escape chars =>
    if c = 117 then some ⟨s.tokens, .unicode chars 0 0⟩
    else if IsEscape c then some ⟨s.tokens, .string (chars ++ [.escaped c])⟩
    else none
  | .unicode chars count value =>
    match hexDigit c with
    | none => none
    | some digit =>
      if count < 3 then some ⟨s.tokens, .unicode chars (count + 1) (16 * value + digit)⟩
      else some ⟨s.tokens, .string (chars ++ [.unicode (16 * value + digit)])⟩

/-- Reads a text. -/
def run (s : Lexer) (text : List UInt8) : Option Lexer := text.foldlM step s

/-- The tokens, where a text can end. -/
def finish (s : Lexer) : Option (List Token) :=
  match s.mode with
  | .between => some s.tokens
  | .word chars => some (s.tokens ++ [.word chars])
  | _ => none

/-- With the word that is being read as a token. -/
def settled (s : Lexer) : Lexer :=
  match s.mode with
  | .word chars => ⟨s.tokens ++ [.word chars], .between⟩
  | _ => s

end Lexer

/-- The tokens of a text. -/
def tokens (text : List UInt8) : Option (List Token) :=
  ((⟨[], .between⟩ : Lexer).run text).bind Lexer.finish

/-- Words do not follow each other. -/
def Separated (tokens : List Token) : Prop :=
  tokens.IsChain fun token token' => ¬ ∃ chars chars', token = .word chars ∧ token' = .word chars'

namespace Lexer

variable {s s' s₁ f : Lexer} {c : UInt8} {text : List UInt8} {out : List Token}

theorem run_cons_eq_some_iff :
    s.run (c :: text) = some f ↔ ∃ s₁, s.step c = some s₁ ∧ s₁.run text = some f := by
  rw [run, List.foldlM_cons, Option.bind_eq_bind, Option.bind_eq_some_iff]
  rfl

theorem run_append_eq_some_iff {text' : List UInt8} :
    s.run (text ++ text') = some f ↔ ∃ s₁, s.run text = some s₁ ∧ s₁.run text' = some f := by
  rw [run, List.foldlM_append, Option.bind_eq_bind, Option.bind_eq_some_iff]
  rfl

theorem finish_settled (s : Lexer) : s.settled.finish = s.finish := by
  obtain ⟨tokens, mode⟩ := s
  cases mode <;> rfl

theorem settled_settled (s : Lexer) : s.settled.settled = s.settled := by
  obtain ⟨tokens, mode⟩ := s
  cases mode <;> rfl

theorem mode_settled (hfinish : f.finish ≠ none) : f.settled.mode = .between := by
  obtain ⟨tokens, mode⟩ := f
  cases mode with
  | between => rfl
  | word chars => rfl
  | _ => exact absurd rfl hfinish

/-- A line feed ends a word, and cannot stand in a string. -/
theorem step_lineFeed_eq_some_iff : s.step lineFeed = some s₁ ↔ s.finish ≠ none ∧ s₁ = s.settled := by
  obtain ⟨tokens, mode⟩ := s
  cases mode with
  | between => simp [step, start, finish, settled, IsSpace, eq_comm]
  | word chars =>
    have hword : ¬ ContinuesWord lineFeed := by decide
    simp [step, start, finish, settled, IsSpace, hword, eq_comm]
  | string chars =>
    have hchars : ¬ lineFeed = quotationMark ∧ ¬ lineFeed = reverseSolidus ∧ ¬ 32 ≤ lineFeed := by decide
    simp [step, finish, hchars]
  | escape chars =>
    have hescape : ¬ lineFeed = 117 ∧ ¬ IsEscape lineFeed := by decide
    simp [step, finish, hescape]
  | unicode chars count value =>
    have hdigit : hexDigit lineFeed = none := by decide
    simp [step, finish, hdigit]

/-- The run of a text that begins with a line. -/
theorem run_line {line : List UInt8} (hrun : s.run (line ++ lineFeed :: text) = some f) :
    ∃ s₁, s.run line = some s₁ ∧ s₁.finish ≠ none ∧ s₁.settled.run text = some f := by
  obtain ⟨s₁, hline, hrest⟩ := run_append_eq_some_iff.mp hrun
  obtain ⟨s₂, hstep, htext⟩ := run_cons_eq_some_iff.mp hrest
  obtain ⟨hfinish, rfl⟩ := step_lineFeed_eq_some_iff.mp hstep
  exact ⟨s₁, hline, hfinish, htext⟩

/-- A solidus can only stand in a string. -/
theorem finish_of_step_solidus (h : s.step solidus = some s₁) : s.finish = none ∧ s₁.finish = none := by
  obtain ⟨tokens, mode⟩ := s
  have hstart : ∀ tokens, start tokens solidus = none := fun tokens => rfl
  cases mode with
  | between => exact absurd ((hstart tokens).symm.trans h) (by simp)
  | word chars => exact absurd ((hstart (tokens ++ [.word chars])).symm.trans h) (by simp)
  | string chars =>
    obtain rfl := Option.some.inj h
    exact ⟨rfl, rfl⟩
  | escape chars =>
    obtain rfl := Option.some.inj h
    exact ⟨rfl, rfl⟩
  | unicode chars count value => cases h

/-- A text does not end with a solidus. -/
theorem getLast?_ne_solidus (hrun : s.run text = some f) (hfinish : f.finish ≠ none) :
    text.getLast? ≠ some solidus := by
  intro hlast
  obtain ⟨init, rfl⟩ := List.getLast?_eq_some_iff.mp hlast
  obtain ⟨s₁, -, hrun⟩ := run_append_eq_some_iff.mp hrun
  obtain ⟨s₂, hstep, hrun⟩ := run_cons_eq_some_iff.mp hrun
  obtain rfl := Option.some.inj hrun
  exact hfinish (finish_of_step_solidus hstep).2

/-- What can stand where no token is being read. -/
theorem start_cases {tokens : List Token} (h : start tokens c = some s₁) :
    IsSpace c ∧ s₁ = ⟨tokens, .between⟩ ∨
      IsStructural c ∧ s₁ = ⟨tokens ++ [.structural c], .between⟩ ∨
      c = quotationMark ∧ s₁ = ⟨tokens, .string []⟩ ∨ StartsWord c ∧ s₁ = ⟨tokens, .word [c]⟩ := by
  unfold start at h
  split_ifs at h with hspace hstructural hquote hword
  · exact .inl ⟨hspace, (Option.some.inj h).symm⟩
  · exact .inr (.inl ⟨hstructural, (Option.some.inj h).symm⟩)
  · exact .inr (.inr (.inl ⟨hquote, (Option.some.inj h).symm⟩))
  · exact .inr (.inr (.inr ⟨hword, (Option.some.inj h).symm⟩))

/-! ### Line feeds between words -/

/-- Tokens that have been read stay. -/
theorem tokens_start {tokens : List Token} (h : start tokens c = some s₁) :
    ∃ more, s₁.tokens = tokens ++ more := by
  rcases start_cases h with ⟨-, rfl⟩ | ⟨-, rfl⟩ | ⟨-, rfl⟩ | ⟨-, rfl⟩
  · exact ⟨[], (List.append_nil _).symm⟩
  · exact ⟨_, rfl⟩
  · exact ⟨[], (List.append_nil _).symm⟩
  · exact ⟨[], (List.append_nil _).symm⟩

theorem tokens_step (h : s.step c = some s₁) : ∃ more, s₁.tokens = s.tokens ++ more := by
  obtain ⟨tokens, mode⟩ := s
  have hsame : ∃ more, tokens = tokens ++ more := ⟨[], (List.append_nil _).symm⟩
  cases mode with
  | between => exact tokens_start h
  | word chars =>
    simp only [step] at h
    split_ifs at h
    · obtain rfl := Option.some.inj h
      exact hsame
    · obtain ⟨more, hmore⟩ := tokens_start h
      exact ⟨[.word chars] ++ more, hmore.trans (List.append_assoc ..)⟩
  | string chars =>
    simp only [step] at h
    split_ifs at h <;> obtain rfl := Option.some.inj h
    · exact ⟨_, rfl⟩
    · exact hsame
    · exact hsame
  | escape chars =>
    simp only [step] at h
    split_ifs at h <;> obtain rfl := Option.some.inj h <;> exact hsame
  | unicode chars count value =>
    simp only [step] at h
    split at h
    next => cases h
    next => split_ifs at h <;> obtain rfl := Option.some.inj h <;> exact hsame

theorem tokens_run (h : s.run text = some f) : ∃ more, f.tokens = s.tokens ++ more := by
  induction text generalizing s with
  | nil =>
    obtain rfl := Option.some.inj h
    exact ⟨[], (List.append_nil _).symm⟩
  | cons c text ih =>
    obtain ⟨s₁, hstep, hrun⟩ := run_cons_eq_some_iff.mp h
    obtain ⟨more₁, hmore₁⟩ := tokens_step hstep
    obtain ⟨more, hmore⟩ := ih hrun
    exact ⟨more₁ ++ more, by rw [hmore, hmore₁, List.append_assoc]⟩

theorem tokens_finish (h : s.finish = some out) : ∃ more, out = s.tokens ++ more := by
  obtain ⟨tokens, mode⟩ := s
  cases mode with
  | between =>
    obtain rfl := Option.some.inj h
    exact ⟨[], (List.append_nil _).symm⟩
  | word chars =>
    obtain rfl := Option.some.inj h
    exact ⟨_, rfl⟩
  | string chars => cases h
  | escape chars => cases h
  | unicode chars count value => cases h

/-- A word that is being read becomes the next token. -/
theorem next_of_word {tokens : List Token} {chars : List UInt8}
    (hrun : (⟨tokens, .word chars⟩ : Lexer).run text = some f) (hfinish : f.finish = some out) :
    ∃ word more, out = tokens ++ .word word :: more := by
  induction text generalizing chars with
  | nil =>
    obtain rfl := Option.some.inj hrun
    obtain rfl := Option.some.inj hfinish
    exact ⟨chars, [], rfl⟩
  | cons c text ih =>
    obtain ⟨s₁, hstep, hrun⟩ := run_cons_eq_some_iff.mp hrun
    simp only [step] at hstep
    split_ifs at hstep
    · obtain rfl := Option.some.inj hstep
      exact ih hrun
    · obtain ⟨more₁, hmore₁⟩ := tokens_start hstep
      obtain ⟨more₂, hmore₂⟩ := tokens_run hrun
      obtain ⟨more, hmore⟩ := tokens_finish hfinish
      refine ⟨chars, more₁ ++ more₂ ++ more, ?_⟩
      rw [hmore, hmore₂, hmore₁]
      simp

/-- What continues a word can begin with nothing but a word. -/
theorem start_of_continuesWord {tokens : List Token} (h : start tokens c = some s₁)
    (hword : ContinuesWord c) : s₁ = ⟨tokens, .word [c]⟩ := by
  have hnot : ¬ IsSpace c ∧ ¬ IsStructural c ∧ c ≠ quotationMark := by
    unfold IsSpace IsStructural
    refine ⟨?_, ?_, ?_⟩
    · rintro (rfl | rfl | rfl | rfl) <;> exact absurd hword (by decide)
    · rintro (rfl | rfl | rfl | rfl | rfl | rfl) <;> exact absurd hword (by decide)
    · rintro rfl
      exact absurd hword (by decide)
  rcases start_cases h with ⟨hspace, -⟩ | ⟨hstructural, -⟩ | ⟨hquote, -⟩ | ⟨-, hs₁⟩
  · exact absurd hspace hnot.1
  · exact absurd hstructural hnot.2.1
  · exact absurd hquote hnot.2.2
  · exact hs₁

/-- A lexer that still reads a word goes on like one that has read it, unless another word follows. -/
theorem step_of_settled (hstep : s.settled.step c = some s₁) (hrun : s₁.run text = some f)
    (hfinish : f.finish = some out) (hsep : Separated out) : s.step c = some s₁ := by
  obtain ⟨tokens, mode⟩ := s
  cases mode with
  | word chars =>
    have hstart : start (tokens ++ [.word chars]) c = some s₁ := hstep
    by_cases hword : ContinuesWord c
    · obtain rfl := start_of_continuesWord hstart hword
      obtain ⟨word, more, rfl⟩ := next_of_word hrun hfinish
      rw [Separated, List.append_assoc, List.singleton_append, List.isChain_append_cons_cons] at hsep
      exact absurd ⟨chars, word, rfl, rfl⟩ hsep.2.1
    · simp only [step, if_neg hword]
      exact hstart
  | between => exact hstep
  | string chars => exact hstep
  | escape chars => exact hstep
  | unicode chars count value => exact hstep

/-- Without its line feeds, a text leads to the same tokens. -/
theorem run_filter (h : s' = s ∨ s.settled = s') (hrun : s'.run text = some f)
    (hfinish : f.finish = some out) (hsep : Separated out) :
    ((s.run (text.filter (· ≠ lineFeed))).bind finish) = some out := by
  induction text generalizing s s' with
  | nil =>
    obtain rfl := Option.some.inj hrun
    rcases h with rfl | rfl
    · exact hfinish
    · rw [finish_settled] at hfinish
      exact hfinish
  | cons c text ih =>
    obtain ⟨s₁, hstep, hrest⟩ := run_cons_eq_some_iff.mp hrun
    by_cases hfeed : c = lineFeed
    · subst hfeed
      rw [List.filter_cons_of_neg (by simp)]
      refine ih ?_ hrest
      obtain ⟨-, rfl⟩ := step_lineFeed_eq_some_iff.mp hstep
      rcases h with rfl | rfl
      · exact .inr rfl
      · exact .inr (settled_settled s).symm
    · rw [List.filter_cons_of_pos (by simpa using hfeed)]
      have hstep' : s.step c = some s₁ := by
        rcases h with rfl | rfl
        · exact hstep
        · exact step_of_settled hstep hrest hfinish hsep
      rw [run, List.foldlM_cons, Option.bind_eq_bind, hstep']
      exact ih (.inl rfl) hrest

end Lexer

/-- Where words do not follow each other, line feeds do not matter. -/
theorem tokens_filter {text : List UInt8} {out : List Token} (h : tokens text = some out)
    (hsep : Separated out) : tokens (text.filter (· ≠ lineFeed)) = some out := by
  obtain ⟨f, hrun, hfinish⟩ := Option.bind_eq_some_iff.mp h
  exact Lexer.run_filter (.inl rfl) hrun hfinish hsep

/-! ### Solidi -/

/-- Whether it stands for the solidus. -/
def StringChar.solidi : StringChar → ℕ
  | plain c => if c = solidus then 1 else 0
  | escaped c => if c = solidus then 1 else 0
  | unicode codeUnit => if codeUnit = 47 then 1 else 0

/-- How many solidi a token stands for. -/
def Token.solidi : Token → ℕ
  | string chars => (chars.map StringChar.solidi).sum
  | _ => 0

/-- How many solidi tokens stand for. -/
def solidi (tokens : List Token) : ℕ := (tokens.map Token.solidi).sum

/-- What a scanner has seen of an escape. -/
inductive Escape where
  | none
  | reverseSolidus
  | unicode (count value : ℕ)
  deriving DecidableEq

namespace Escape

/-- The next octet. -/
def next : Escape → UInt8 → Escape
  | none, c => if c = Json.reverseSolidus then reverseSolidus else none
  | reverseSolidus, c => if c = 117 then unicode 0 0 else none
  | unicode count value, c =>
    if count < 3 then unicode (count + 1) (16 * value + (hexDigit c).getD 0) else none

/-- The solidi that the next octet completes. -/
def gain : Escape → UInt8 → ℕ
  | unicode count value, c => if count < 3 then 0 else if 16 * value + (hexDigit c).getD 0 = 47 then 1 else 0
  | _, c => if c = solidus then 1 else 0

/-- What has been seen after a text. -/
def after (e : Escape) (text : List UInt8) : Escape := text.foldl next e

/-- The solidi in a text. -/
def gains : Escape → List UInt8 → ℕ
  | _, [] => 0
  | e, c :: text => e.gain c + gains (e.next c) text

theorem gains_append (e : Escape) (text text' : List UInt8) :
    e.gains (text ++ text') = e.gains text + (e.after text).gains text' := by
  induction text generalizing e with
  | nil => exact (Nat.zero_add _).symm
  | cons c text ih =>
    rw [List.cons_append, gains, gains, ih, Nat.add_assoc]
    rfl

theorem gain_solidus {e : Escape} (he : ∀ count value, e ≠ .unicode count value) : e.gain solidus = 1 := by
  cases e with
  | none => rfl
  | reverseSolidus => rfl
  | unicode count value => exact absurd rfl (he count value)

end Escape

/-- What a scanner sees of an escape that is being read. -/
def Mode.seen : Mode → Escape
  | escape _ => .reverseSolidus
  | unicode _ count value => .unicode count value
  | _ => .none

namespace Lexer

/-- The solidi that have been read. -/
def solidi (s : Lexer) : ℕ :=
  Json.solidi s.tokens + match s.mode with
    | .string chars => (chars.map StringChar.solidi).sum
    | .escape chars => (chars.map StringChar.solidi).sum
    | .unicode chars _ _ => (chars.map StringChar.solidi).sum
    | _ => 0

variable {s s₁ f : Lexer} {c : UInt8} {text : List UInt8} {out : List Token}

/-- What begins a token is no part of an escape, and no solidus. -/
theorem seen_start {tokens : List Token} (h : start tokens c = some s₁) :
    s₁.mode.seen = Escape.next .none c ∧ s₁.solidi = Json.solidi tokens + Escape.gain .none c := by
  have hnext : Escape.next .none c = .none := by
    refine if_neg ?_
    rintro rfl
    cases h
  have hgain : Escape.gain .none c = 0 := by
    refine if_neg ?_
    rintro rfl
    cases h
  rw [hnext, hgain]
  rcases start_cases h with ⟨-, rfl⟩ | ⟨-, rfl⟩ | ⟨-, rfl⟩ | ⟨-, rfl⟩ <;>
    simp [Mode.seen, solidi, Json.solidi, Token.solidi]

/-- The scanner sees all solidi. -/
theorem seen_step (h : s.step c = some s₁) :
    s₁.mode.seen = s.mode.seen.next c ∧ s₁.solidi = s.solidi + s.mode.seen.gain c := by
  obtain ⟨tokens, mode⟩ := s
  cases mode with
  | between => exact seen_start h
  | word chars =>
    simp only [step] at h
    split_ifs at h with hword
    · obtain rfl := Option.some.inj h
      have hnot : c ≠ reverseSolidus ∧ c ≠ solidus := by
        constructor <;> rintro rfl <;> exact absurd hword (by decide)
      simp [Mode.seen, Escape.next, Escape.gain, solidi, hnot]
    · have hseen := seen_start h
      simpa [Mode.seen, solidi, Json.solidi, Token.solidi] using hseen
  | string chars =>
    simp only [step] at h
    split_ifs at h with hquote hreverse hplain <;> obtain rfl := Option.some.inj h
    · subst hquote
      simp [Mode.seen, Escape.next, Escape.gain, solidi, Json.solidi, Token.solidi, quotationMark,
        Json.reverseSolidus, solidus]
    · subst hreverse
      simp [Mode.seen, Escape.next, Escape.gain, solidi, Json.reverseSolidus, solidus]
    · simp [Mode.seen, Escape.next, Escape.gain, solidi, hreverse, StringChar.solidi, Nat.add_assoc]
  | escape chars =>
    simp only [step] at h
    split_ifs at h with hunicode hescape <;> obtain rfl := Option.some.inj h
    · subst hunicode
      simp [Mode.seen, Escape.next, Escape.gain, solidi, solidus]
    · simp [Mode.seen, Escape.next, Escape.gain, solidi, hunicode, StringChar.solidi, Nat.add_assoc]
  | unicode chars count value =>
    simp only [step] at h
    split at h
    next => cases h
    next digit hdigit =>
      split_ifs at h with hcount <;> obtain rfl := Option.some.inj h
      · simp [Mode.seen, Escape.next, Escape.gain, solidi, hcount, hdigit]
      · simp [Mode.seen, Escape.next, Escape.gain, solidi, hcount, hdigit, StringChar.solidi, Nat.add_assoc]

theorem seen_run (h : s.run text = some f) :
    f.mode.seen = s.mode.seen.after text ∧ f.solidi = s.solidi + s.mode.seen.gains text := by
  induction text generalizing s with
  | nil =>
    obtain rfl := Option.some.inj h
    exact ⟨rfl, rfl⟩
  | cons c text ih =>
    obtain ⟨s₁, hstep, hrun⟩ := run_cons_eq_some_iff.mp h
    obtain ⟨hseen, hgain⟩ := seen_step hstep
    obtain ⟨hafter, hgains⟩ := ih hrun
    refine ⟨by rw [hafter, hseen]; rfl, ?_⟩
    rw [hgains, hgain, hseen, Escape.gains, Nat.add_assoc]

/-- Where a text can end, no escape is being read. -/
theorem seen_of_finish (hfinish : f.finish ≠ none) : f.mode.seen = .none := by
  obtain ⟨tokens, mode⟩ := f
  cases mode with
  | between => rfl
  | word chars => rfl
  | _ => exact absurd rfl hfinish

/-- Where a solidus can stand, no code unit is being read. -/
theorem seen_of_step_solidus (h : s.step solidus = some s₁) (count value : ℕ) :
    s.mode.seen ≠ .unicode count value := by
  obtain ⟨tokens, mode⟩ := s
  intro hseen
  cases mode with
  | unicode chars count' value' => cases h
  | _ => cases hseen

/-- Behind a reverse solidus that is out of place, the beginning of a token is scanned like any other. -/
theorem gains_of_between {e : Escape} (hmode : s.mode = .between)
    (he : ∀ count value, e ≠ .unicode count value) (h : s.run text = some f) :
    e.gains text = Escape.none.gains text ∧
      (text = [] ∨ e.after text = Escape.none.after text) := by
  cases e with
  | none => exact ⟨rfl, .inr rfl⟩
  | unicode count value => exact absurd rfl (he count value)
  | reverseSolidus =>
    cases text with
    | nil => exact ⟨rfl, .inl rfl⟩
    | cons c text =>
      obtain ⟨s₁, hstep, -⟩ := run_cons_eq_some_iff.mp h
      rw [step, hmode] at hstep
      have hnext : Escape.next .reverseSolidus c = Escape.next .none c := by
        have hnot : c ≠ 117 ∧ c ≠ reverseSolidus := by
          constructor <;> rintro rfl <;> cases hstep
        exact (if_neg hnot.1).trans (if_neg hnot.2).symm
      refine ⟨?_, .inr ?_⟩
      · rw [Escape.gains, Escape.gains, hnext]
        rfl
      · rw [Escape.after, Escape.after, List.foldl_cons, List.foldl_cons, hnext]

theorem solidi_of_finish (h : s.finish = some out) : Json.solidi out = s.solidi := by
  obtain ⟨tokens, mode⟩ := s
  cases mode with
  | between =>
    obtain rfl := Option.some.inj h
    rfl
  | word chars =>
    obtain rfl := Option.some.inj h
    simp [solidi, Json.solidi, Token.solidi]
  | string chars => cases h
  | escape chars => cases h
  | unicode chars count value => cases h

end Lexer

/-- The solidi in the tokens are those that the scanner counts in the text. -/
theorem solidi_eq_gains {text : List UInt8} {out : List Token} (h : tokens text = some out) :
    solidi out = Escape.none.gains text := by
  obtain ⟨f, hrun, hfinish⟩ := Option.bind_eq_some_iff.mp h
  rw [Lexer.solidi_of_finish hfinish, (Lexer.seen_run hrun).2]
  exact Nat.zero_add _

end Json

end Toolkit
