import FungiTransport.Lib.Text
import Mathlib.Tactic.Common

/-!
# Unsigned numbers in decimal

Reading and printing an unsigned machine integer, as the standard library does it: the reader
takes an optional plus sign and any number of leading zeros, and fails on an overflow; what is
printed is read back.  `Denotes` is the grammar of what is read.  This file names nothing of the
repository.
-/

namespace FungiTransport.Lib

/-- `char::to_digit` for base ten. -/
def toDigit (c : Char) : Option ℕ := if c.isDigit then some (c.toNat - '0'.toNat) else none

/-- The digits of a number up to `max`, behind those that make `acc`; it fails on a character that
is no digit and on an overflow. -/
def parseDigits (max : ℕ) : ℕ → Text → Option ℕ
  | acc, [] => some acc
  | acc, c :: cs =>
    match toDigit c with
    | none => none
    | some d => if max < 10 * acc + d then none else parseDigits max (10 * acc + d) cs

/-- `from_str` of an unsigned integer with values up to `max`. -/
def parseUnsigned (max : ℕ) : Text → Option ℕ
  | [] => none
  | ['+'] => none
  | '+' :: digits => parseDigits max 0 digits
  | digits => parseDigits max 0 digits

/-- Why `from_str` fails. -/
inductive IntErrorKind where
  | empty
  | invalidDigit
  | posOverflow
deriving DecidableEq, Repr

/-- The `Display` of a `ParseIntError`. -/
def IntErrorKind.toString : IntErrorKind → String
  | .empty => "cannot parse integer from empty string"
  | .invalidDigit => "invalid digit found in string"
  | .posOverflow => "number too large to fit in target type"

/-- Why the loop of `parseDigits` fails. -/
def digitsError (max : ℕ) : ℕ → Text → IntErrorKind
  | _, [] => .invalidDigit
  | acc, c :: cs =>
    match toDigit c with
    | none => .invalidDigit
    | some d => if max < 10 * acc + d then .posOverflow else digitsError max (10 * acc + d) cs

/-- Why `parseUnsigned` fails. -/
def unsignedError (max : ℕ) : Text → IntErrorKind
  | [] => .empty
  | ['+'] => .invalidDigit
  | '+' :: digits => digitsError max 0 digits
  | digits => digitsError max 0 digits

/-- The `Display` text of an unsigned integer. -/
def printUnsigned (n : ℕ) : Text := Nat.toDigits 10 n

/-- The texts that mean the number `n`: digits in base ten, with or without a plus sign. -/
def Denotes (text : Text) (n : ℕ) : Prop :=
  ∃ digits : Text, (text = digits ∨ text = '+' :: digits) ∧ digits ≠ [] ∧
    (∀ c ∈ digits, c.isDigit = true) ∧ Nat.ofDigitChars 10 digits 0 = n

/-! ## Digits -/

lemma le_ofDigitChars (digits : Text) (acc : ℕ) : acc ≤ Nat.ofDigitChars 10 digits acc := by
  induction digits generalizing acc with
  | nil => simp
  | cons c digits ih =>
    rw [Nat.ofDigitChars_cons]
    refine Nat.le_trans ?_ (ih _)
    omega

/-- The loop reads digits only, and gives their value unless it is over the limit. -/
lemma parseDigits_eq_some {max acc n : ℕ} {digits : Text} (hacc : acc ≤ max) :
    parseDigits max acc digits = some n ↔
      (∀ c ∈ digits, c.isDigit = true) ∧ Nat.ofDigitChars 10 digits acc = n ∧ n ≤ max := by
  induction digits generalizing acc with
  | nil =>
    simp only [parseDigits, Nat.ofDigitChars_nil, Option.some.injEq, List.not_mem_nil]
    constructor
    · rintro rfl
      exact ⟨fun c hc => hc.elim, rfl, hacc⟩
    · exact fun h => h.2.1
  | cons c digits ih =>
    rw [parseDigits, toDigit]
    by_cases hc : c.isDigit = true
    · rw [if_pos hc, Nat.ofDigitChars_cons]
      simp only
      by_cases hmax : max < 10 * acc + (c.toNat - '0'.toNat)
      · rw [if_pos hmax]
        -- the value only grows with the digits that follow
        refine iff_of_false (by simp) fun h => ?_
        have hle := le_ofDigitChars digits (10 * acc + (c.toNat - '0'.toNat))
        omega
      · rw [if_neg hmax, ih (by omega)]
        simp [hc]
    · rw [if_neg hc]
      exact iff_of_false (by simp) fun h => hc (h.1 c List.mem_cons_self)

lemma not_isDigit_plus : '+'.isDigit = false := by decide

/-- **The reader reads the grammar**, up to the limit. -/
theorem parseUnsigned_eq_some {max n : ℕ} {text : Text} :
    parseUnsigned max text = some n ↔ Denotes text n ∧ n ≤ max := by
  have hloop : ∀ digits : Text, parseDigits max 0 digits = some n ↔
      (∀ c ∈ digits, c.isDigit = true) ∧ Nat.ofDigitChars 10 digits 0 = n ∧ n ≤ max :=
    fun digits => parseDigits_eq_some (Nat.zero_le max)
  unfold parseUnsigned
  split
  case h_1 =>
    refine iff_of_false (by simp) ?_
    rintro ⟨⟨digits, rfl | hplus, hne, -⟩, -⟩
    · exact hne rfl
    · exact absurd hplus (by simp)
  case h_2 =>
    refine iff_of_false (by simp) ?_
    rintro ⟨⟨digits, rfl | hplus, hne, hdigits, -⟩, -⟩
    · exact absurd (hdigits '+' List.mem_cons_self) (by simp [not_isDigit_plus])
    · exact hne (List.cons.inj hplus).2.symm
  case h_3 digits hne =>
    rw [hloop]
    constructor
    · rintro ⟨hdigits, hval, hmax⟩
      refine ⟨⟨digits, .inr rfl, ?_, hdigits, hval⟩, hmax⟩
      rintro rfl
      exact hne rfl
    · rintro ⟨⟨digits', rfl | hplus, -, hdigits, hval⟩, hmax⟩
      · exact absurd (hdigits '+' List.mem_cons_self) (by simp [not_isDigit_plus])
      · obtain rfl := (List.cons.inj hplus).2
        exact ⟨hdigits, hval, hmax⟩
  case h_4 hnil hplus hsigned =>
    rw [hloop]
    constructor
    · rintro ⟨hdigits, hval, hmax⟩
      exact ⟨⟨text, .inl rfl, hnil, hdigits, hval⟩, hmax⟩
    · rintro ⟨⟨digits, rfl | rfl, hne, hdigits, hval⟩, hmax⟩
      · exact ⟨hdigits, hval, hmax⟩
      · exact absurd rfl (hsigned digits)

/-! ## Printing -/

lemma isDigit_of_mem_printUnsigned {n : ℕ} {c : Char} (hc : c ∈ printUnsigned n) :
    c.isDigit = true :=
  Nat.isDigit_of_mem_toDigits (by decide) (by decide) hc

/-- What is printed means the number. -/
lemma denotes_printUnsigned (n : ℕ) : Denotes (printUnsigned n) n :=
  ⟨_, .inl rfl, Nat.toDigits_ne_nil, fun _ => isDigit_of_mem_printUnsigned,
    Nat.ofDigitChars_ten_toDigits⟩

end FungiTransport.Lib
