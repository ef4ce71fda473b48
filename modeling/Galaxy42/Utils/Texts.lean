import Mathlib.Data.List.TakeWhile
import Galaxy42.Exceptions
import Galaxy42.Lib.XorSum

/-!
# Strings, and numbers and addresses as texts

What the sources use of `std::string`, of the C library and of `std::stoi`, on strings of octets: looking
for a character, taking a part out, and numbers and IPv4 addresses as texts. A number that is written is
read back (`stoi_decimal`), and so is an address (`readIpv4Text_ipv4Text`).

The functions of the library are defined as they are documented, with their bounds and their exceptions:
`substr` throws when it begins behind the end and takes less when there is less, `at` throws behind the end,
and `stoi` skips blanks, takes a sign, stops at the first octet that is no digit, and throws when there is none
or the number is no `int`.

The lemmas about strings are those by which a text that was put together is taken apart again: where a character
is found that occurs for the first time behind a part without it, and what the parts in front of it and behind
it are. That the parts of a text do not have the characters that divide it is proved with the parts
(`colon_not_mem_ipv4Text`, `of_mem_printInt`).
-/

namespace Galaxy42

open Toolkit

/-! ### Strings -/

namespace StdString

/-- `std::string::find`, from a position on -/
def find (s : Bytes) (c : UInt8) (pos : ℕ) : Option ℕ :=
  ((s.drop pos).findIdx? fun b => b = c).map (pos + ·)

/-- `std::string::substr` -/
def substr (s : Bytes) (pos count : ℕ) : Except Exn Bytes :=
  if pos ≤ s.length then .ok ((s.drop pos).take count) else .error .outOfRange

/-- `std::string::at` -/
def charAt (s : Bytes) (pos : ℕ) : Except Exn UInt8 :=
  match s[pos]? with
  | some c => .ok c
  | none => .error .outOfRange

variable {c : UInt8}

theorem find_eq_none_of_not_mem {s : Bytes} (h : c ∉ s) (pos : ℕ) : find s c pos = none := by
  rw [find, Option.map_eq_none_iff, List.findIdx?_eq_none_iff]
  intro b hb
  rw [decide_eq_false_iff_not]
  rintro rfl
  exact h (List.mem_of_mem_drop hb)

/-- The character is found behind a part without it. -/
theorem find_append (skipped : Bytes) {part : Bytes} (rest : Bytes) (h : c ∉ part) :
    find (skipped ++ (part ++ c :: rest)) c skipped.length = some (skipped.length + part.length) := by
  have hpart : part.findIdx? (fun b => decide (b = c)) = none := by
    rw [List.findIdx?_eq_none_iff]
    intro b hb
    rw [decide_eq_false_iff_not]
    rintro rfl
    exact h hb
  rw [find, List.drop_left, List.findIdx?_append, hpart, List.findIdx?_cons, if_pos (decide_eq_true rfl)]
  simp

theorem substr_append (skipped part rest : Bytes) :
    substr (skipped ++ (part ++ rest)) skipped.length part.length = .ok part := by
  rw [substr, if_pos (by simp), List.drop_left, List.take_left]

theorem charAt_append (skipped rest : Bytes) (c : UInt8) :
    charAt (skipped ++ c :: rest) skipped.length = .ok c := by
  simp [charAt]

theorem le_of_find_eq_some {s : Bytes} {pos i : ℕ} (h : find s c pos = some i) : pos ≤ i := by
  obtain ⟨j, -, rfl⟩ := Option.map_eq_some_iff.mp h
  exact Nat.le_add_right pos j

/-- A string with the character in it, as the part in front of its first place, and the rest. -/
theorem exists_eq_append_of_mem {s : Bytes} (h : c ∈ s) : ∃ part rest, s = part ++ c :: rest ∧ c ∉ part := by
  obtain ⟨part, rest, hs, hpart⟩ := List.eq_append_cons_of_mem h
  exact ⟨part, rest, hs, hpart⟩

theorem find_append_zero {part : Bytes} (rest : Bytes) (h : c ∉ part) :
    find (part ++ c :: rest) c 0 = some part.length := by
  simpa using find_append [] rest h

/-- The first place of a character divides a string in one way only. -/
theorem append_cons_inj {part part' rest rest' : Bytes} (h : c ∉ part) (h' : c ∉ part')
    (heq : part ++ c :: rest = part' ++ c :: rest') : part = part' ∧ rest = rest' := by
  have hlength : part.length = part'.length := by
    have hfind := find_append_zero rest h
    rw [heq, find_append_zero rest' h'] at hfind
    exact (Option.some.inj hfind).symm
  obtain ⟨hpart, hrest⟩ := List.append_inj heq hlength
  exact ⟨hpart, (List.cons.inj hrest).2⟩

theorem substr_zero_append (part rest : Bytes) : substr (part ++ rest) 0 part.length = .ok part := by
  simpa using substr_append [] part rest

theorem substr_append_cons (part rest : Bytes) (c : UInt8) :
    substr (part ++ c :: rest) (part.length + 1) (part ++ c :: rest).length = .ok rest := by
  have hsplit : part ++ c :: rest = (part ++ [c]) ++ rest := by simp
  have hlength : part.length + 1 = (part ++ [c]).length := by simp
  rw [hsplit, hlength, substr, if_pos (by simp), List.drop_left]
  refine congrArg Except.ok (List.take_of_length_le ?_)
  rw [List.length_append]
  omega

end StdString

/-! ### Numbers and addresses -/

/-- `isspace` -/
def isSpace (c : UInt8) : Bool := c == 32 || (decide (9 ≤ c) && decide (c ≤ 13))

/-- `isdigit` -/
def isDigit (c : UInt8) : Bool := decide (48 ≤ c) && decide (c ≤ 57)

/-- `isalnum` -/
def isAlnum (c : UInt8) : Bool :=
  isDigit c || (decide (65 ≤ c) && decide (c ≤ 90)) || (decide (97 ≤ c) && decide (c ≤ 122))

/-- What `<<` writes for a number that is not negative. -/
def decimal (n : ℕ) : Bytes :=
  (Nat.toDigits 10 n).map fun c => UInt8.ofNat c.toNat

/-- What `<<` writes for an `int`. -/
def printInt : ℤ → Bytes
  | .ofNat n => decimal n
  | .negSucc n => 45 :: decimal (n + 1)

/-- An IPv4 address as a text: four numbers with dots between them. -/
def ipv4Text (addr : Block 4) : Bytes :=
  [46].intercalate (addr.octets.map fun b => decimal b.toNat)

/-- What a C function sees of a string. -/
def cStr (s : Bytes) : Bytes := s.takeWhile fun c => c ≠ 0

theorem isDigit_of_mem_decimal {n : ℕ} {c : UInt8} (h : c ∈ decimal n) : 48 ≤ c ∧ c ≤ 57 := by
  obtain ⟨d, hd, rfl⟩ := List.mem_map.mp h
  obtain ⟨hle, hge⟩ := Char.isDigit_iff_toNat.mp (Nat.isDigit_of_mem_toDigits (by decide) le_rfl hd)
  have hle' : 48 ≤ d.toNat := hle
  have hge' : d.toNat ≤ 57 := hge
  rw [UInt8.le_iff_toNat_le, UInt8.le_iff_toNat_le, UInt8.toNat_ofNat', Nat.mod_eq_of_lt (by omega)]
  exact ⟨hle', hge'⟩

/-- A character of a number, or the sign. -/
theorem of_mem_printInt {n : ℤ} {c : UInt8} (h : c ∈ printInt n) : c = 45 ∨ 48 ≤ c ∧ c ≤ 57 := by
  cases n with
  | ofNat n => exact .inr (isDigit_of_mem_decimal h)
  | negSucc n => exact (List.mem_cons.mp h).imp_right isDigit_of_mem_decimal

private theorem of_mem_intercalate {α : Type} {sep c : α} {parts : List (List α)}
    (h : c ∈ [sep].intercalate parts) : c = sep ∨ ∃ part ∈ parts, c ∈ part := by
  induction parts with
  | nil => exact absurd h List.not_mem_nil
  | cons part parts ih =>
    by_cases hnil : parts = []
    · subst hnil
      rw [List.intercalate_singleton] at h
      exact .inr ⟨part, List.mem_cons_self, h⟩
    · rw [List.intercalate_cons_of_ne_nil hnil, List.mem_append, List.mem_append,
        List.mem_singleton] at h
      rcases h with (h | h) | h
      · exact .inr ⟨part, List.mem_cons_self, h⟩
      · exact .inl h
      · refine (ih h).imp_right ?_
        rintro ⟨part', hpart', hc⟩
        exact ⟨part', List.mem_cons_of_mem _ hpart', hc⟩

theorem of_mem_ipv4Text {addr : Block 4} {c : UInt8} (h : c ∈ ipv4Text addr) :
    c = 46 ∨ 48 ≤ c ∧ c ≤ 57 := by
  refine (of_mem_intercalate h).imp_right ?_
  rintro ⟨part, hpart, hc⟩
  obtain ⟨b, -, rfl⟩ := List.mem_map.mp hpart
  exact isDigit_of_mem_decimal hc

theorem length_ipv4Text (addr : Block 4) :
    7 ≤ (ipv4Text addr).length ∧ (ipv4Text addr).length ≤ 15 := by
  have hoctet : ∀ b : UInt8, 1 ≤ (decimal b.toNat).length ∧ (decimal b.toNat).length ≤ 3 := by
    intro b
    have hle := (Nat.length_toDigits_le_iff (n := b.toNat) (b := 10) (by decide) (by decide : 0 < 3)).mpr
      (by have := b.toNat_lt; omega)
    rw [decimal, List.length_map]
    exact ⟨Nat.length_toDigits_pos, hle⟩
  have hlength := addr.length_octets
  rw [ipv4Text]
  match hoctets : addr.octets, hlength with
  | [a, b, c, d], _ =>
    have ha := hoctet a
    have hb := hoctet b
    have hc := hoctet c
    have hd := hoctet d
    simp only [List.map_cons, List.map_nil, List.intercalate_cons_cons, List.intercalate_singleton,
      List.length_append, List.length_singleton]
    omega

theorem cStr_of_forall {s : Bytes} (h : ∀ c ∈ s, c ≠ 0) : cStr s = s := by
  rw [cStr, List.takeWhile_eq_self_iff]
  simpa using h

theorem cStr_ipv4Text (addr : Block 4) : cStr (ipv4Text addr) = ipv4Text addr := by
  refine cStr_of_forall fun c hc => ?_
  rcases of_mem_ipv4Text hc with rfl | hc
  · decide
  · rintro rfl
    revert hc
    decide

theorem colon_not_mem_ipv4Text (addr : Block 4) : 58 ∉ ipv4Text addr := by
  intro h
  rcases of_mem_ipv4Text h with h | h
  · exact absurd h (by decide)
  · exact absurd h (by decide)

/-- A text of digits as a number. -/
def readDecimal (text : Bytes) : ℕ := text.foldl (fun n c => 10 * n + (c.toNat - 48)) 0

private theorem readDecimal_decimal (n : ℕ) : readDecimal (decimal n) = n := by
  have hdigit : ∀ c ∈ Nat.toDigits 10 n, (UInt8.ofNat c.toNat).toNat = c.toNat := by
    intro c hc
    obtain ⟨-, hge⟩ := Char.isDigit_iff_toNat.mp (Nat.isDigit_of_mem_toDigits (by decide) le_rfl hc)
    have hge' : c.toNat ≤ 57 := hge
    rw [UInt8.toNat_ofNat', Nat.mod_eq_of_lt (by omega)]
  have hfold := @Nat.ofDigitChars_ten_toDigits n
  rw [Nat.ofDigitChars_eq_foldl] at hfold
  rw [readDecimal, decimal, List.foldl_map]
  refine Eq.trans (List.foldl_ext _ _ _ fun acc c hc => ?_) hfold
  rw [hdigit c hc]
  rfl

/-- The sign in front of a number, and what follows it. -/
def readSign : Bytes → Bool × Bytes
  | 45 :: rest => (true, rest)
  | 43 :: rest => (false, rest)
  | text => (false, text)

/-- `std::stoi`: blanks, a sign and digits. What follows the digits does not matter. -/
def stoi (text : Bytes) : Except Exn ℤ :=
  let signed := readSign (text.dropWhile isSpace)
  let digits := signed.2.takeWhile isDigit
  let value : ℤ := if signed.1 then -readDecimal digits else readDecimal digits
  if digits = [] then .error (.invalidArgument "stoi")
  else if value < -2 ^ 31 ∨ 2 ^ 31 ≤ value then .error .outOfRange
  else .ok value

private theorem decimal_ne_nil (n : ℕ) : decimal n ≠ [] := by
  simp [decimal, Nat.toDigits_ne_nil]

theorem stoi_decimal {n : ℕ} (h : n < 2 ^ 31) : stoi (decimal n) = .ok n := by
  have hall : ∀ c ∈ decimal n, isDigit c = true := fun c hc => by
    simpa [isDigit] using isDigit_of_mem_decimal hc
  obtain ⟨c, rest, htext⟩ := List.exists_cons_of_ne_nil (decimal_ne_nil n)
  have hfirst : 48 ≤ c ∧ c ≤ 57 := isDigit_of_mem_decimal (htext ▸ List.mem_cons_self)
  have hspace : (decimal n).dropWhile isSpace = decimal n := by
    rw [htext]
    refine List.dropWhile_cons_of_neg ?_
    intro hc
    simp only [isSpace, Bool.or_eq_true, beq_iff_eq, Bool.and_eq_true, decide_eq_true_eq] at hc
    grind
  have hsign : readSign (decimal n) = (false, decimal n) := by
    rw [htext, readSign.eq_def]
    split
    next h => simp_all
    next h => simp_all
    next h => rfl
  have hdigits : (decimal n).takeWhile isDigit = decimal n := List.takeWhile_eq_self_iff.mpr hall
  simp only [stoi, hspace, hsign, hdigits, readDecimal_decimal, if_neg (decimal_ne_nil n)]
  rw [if_neg (by norm_cast; omega)]
  rfl

/-- Numbers with dots between them, as octets. -/
def readIpv4Text (text : Bytes) : Option (Block 4) :=
  let octets := (text.splitOn 46).map fun part => UInt8.ofNat (readDecimal part)
  if h : octets.length = 4 then some ⟨octets, h⟩ else none

theorem readIpv4Text_ipv4Text (addr : Block 4) : readIpv4Text (ipv4Text addr) = some addr := by
  have hdecimal : ∀ n : Fin 256, UInt8.ofNat (readDecimal (decimal n)) = UInt8.ofNat n := by
    decide +kernel
  have hsplit : (ipv4Text addr).splitOn 46 = addr.octets.map fun b => decimal b.toNat := by
    refine List.splitOn_intercalate 46 (List.forall_mem_map.mpr fun b _ hdot => ?_) ?_
    · obtain ⟨hle, -⟩ := isDigit_of_mem_decimal hdot
      revert hle
      decide
    · exact List.ne_nil_of_length_pos (by simp [addr.length_octets])
  have hoctets : ((ipv4Text addr).splitOn 46).map (fun part => UInt8.ofNat (readDecimal part)) =
      addr.octets := by
    rw [hsplit, List.map_map]
    refine List.map_id'' (fun b => ?_) _
    exact (hdecimal ⟨b.toNat, b.toNat_lt⟩).trans UInt8.ofNat_toNat
  simp only [readIpv4Text, hoctets]
  exact dif_pos addr.length_octets

end Galaxy42
