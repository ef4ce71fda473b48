import Galaxy42.Lib.Program

/-!
# Byte strings and exceptions

The sources hold binary data in `std::string`, and report errors by exceptions derived from
`std::exception`. `Exn` lists the exceptions the modelled code throws or lets through, with the
texts it gives them. A failed `assert`, `_assert` or `UsePtr` is not among them: assertions are
compiled in (the build removes `-DNDEBUG`), so they end the process and nothing catches them.

An exception keeps its class, because handlers are chosen by it (`isInvalidArgument`), and its text, where
some caller passes it on. Classes that no handler tells apart are one constructor with the text as its
argument. Texts that quote data of the user are given without what they quote.

Code without a state of its own returns an `Except Exn`. For it there are the rules by which a chain of
checks is gone through (`bindExcept_of_ok`, `bindExcept_of_error`, `bindExcept_eq_ok_iff`), next to the two
forms in which the sources write a check: `_throw_error` behind an `if`, and `_check_input`.
-/

namespace Galaxy42

open Toolkit

/-- The bytes of a `std::string` that holds binary data, or of a locked string. -/
abbrev Bytes := List UInt8

/-- The octets of a text that has only ASCII characters. -/
def ascii (text : String) : Bytes := text.toList.map fun c => UInt8.ofNat c.toNat

/-- The exceptions of the modelled code. Where a handler looks at the class of an exception only, its text is
left out. -/
inductive Exn where
  /-- `trivialserialize::format_error_read` -/
  | formatErrorRead
  /-- `trivialserialize::format_error_read_badformat` -/
  | formatErrorReadBadformat
  /-- `trivialserialize::format_error_read_delimiter` -/
  | formatErrorReadDelimiter
  /-- `trivialserialize::format_error_read_invalid_version` -/
  | formatErrorReadInvalidVersion
  /-- `trivialserialize::format_error_write_value_too_big` -/
  | formatErrorWriteValueTooBig
  /-- `std::invalid_argument` -/
  | invalidArgument (msg : String)
  /-- `invalid_argument_in_version`, derived from `std::invalid_argument` -/
  | invalidArgumentInVersion (msg : String)
  /-- `std::runtime_error` -/
  | runtimeError (msg : String)
  /-- `std::out_of_range`, as `at()` throws it -/
  | outOfRange
  /-- `boost::numeric::bad_numeric_cast` -/
  | badNumericCast
  /-- `sodiumpp::crypto_error` -/
  | cryptoError (msg : String)
  /-- `expected_not_found` -/
  | expectedNotFound
  /-- `expected_not_found_missing_pubkey` -/
  | expectedNotFoundMissingPubkey
  /-- `overwrite_error`, derived from `std::runtime_error` -/
  | overwriteError
  /-- `err_check_input`, as `_check_input` throws it, derived from `std::runtime_error` -/
  | errCheckInput (cond : String)
  /-- `boost::system::system_error`, derived from `std::runtime_error` -/
  | systemError (msg : String)
  deriving DecidableEq, Repr

/-- The text of an exception, where the sources give it one. -/
def Exn.what : Exn → String
  | formatErrorRead => "format-error in trivialserialize while reading, input data is invalid"
  | formatErrorReadBadformat => "format-error in trivialserialize while reading, but it seems the " ++
      "format definition in the program is wrong"
  | formatErrorReadDelimiter => "format-error in trivialserialize while reading, input data is " ++
      "invalid, the delimiter was wrong."
  | formatErrorReadInvalidVersion => "format-error in trivialserialize while reading - the given " ++
      "version/magic number is not allowed"
  | formatErrorWriteValueTooBig => "format-error in trivialserialize while writing - value was too " ++
      "big over limit"
  | invalidArgument msg => msg
  | invalidArgumentInVersion msg =>
      "This argument is not supported in this version of program; " ++ msg
  | runtimeError msg => msg
  | outOfRange => "out_of_range"
  | badNumericCast => "bad numeric conversion: overflow"
  | cryptoError msg => msg
  | expectedNotFound => "expected_not_found"
  | expectedNotFoundMissingPubkey => "expected_not_found_missing_pubkey"
  | overwriteError => "overwrite_error"
  | errCheckInput cond => "Check detected input ERROR: " ++ cond
  | systemError msg => msg

/-- Whether a `catch (std::invalid_argument &)` takes the exception. -/
def Exn.isInvalidArgument : Exn → Bool
  | invalidArgument _ => true
  | invalidArgumentInVersion _ => true
  | _ => false

/-! ### Results -/

/-- `if (condition) _throw_error(e)` -/
def throwIf (condition : Prop) [Decidable condition] (e : Exn) : Except Exn Unit :=
  if condition then .error e else .ok ()

theorem throwIf_eq_ok_iff {condition : Prop} [Decidable condition] {e : Exn} {u : Unit} :
    throwIf condition e = .ok u ↔ ¬ condition := by
  unfold throwIf
  split <;> simp_all

/-- `_check_input` -/
def checkInput (condition : Prop) [Decidable condition] (cond : String) : Except Exn Unit :=
  if condition then .ok () else .error (.errCheckInput cond)

theorem checkInput_of {condition : Prop} [Decidable condition] (h : condition) (cond : String) :
    checkInput condition cond = .ok () := if_pos h

theorem bindExcept_ok {ε α β : Type} (a : α) (f : α → Except ε β) : Except.ok a >>= f = f a := rfl

theorem bindExcept_of_ok {ε α β : Type} {r : Except ε α} {f : α → Except ε β} {a : α}
    (h : r = .ok a) : r >>= f = f a := by
  rw [h]
  rfl

theorem bindExcept_eq_ok_iff {ε α β : Type} {r : Except ε α} {f : α → Except ε β} {b : β} :
    r >>= f = .ok b ↔ ∃ a, r = .ok a ∧ f a = .ok b := by
  cases r <;> simp [bind, Except.bind]

theorem bindExcept_of_error {ε α β : Type} {r : Except ε α} {f : α → Except ε β} {e : ε}
    (h : r = .error e) : r >>= f = .error e := by
  rw [h]
  rfl

end Galaxy42
