import Mathlib.Tactic.IntervalCases

/-!
# Decimal — positive numbers as digit strings

`Decimal.positive` reads a positive number written without a leading zero.  The standard library
has the digits of a number and their value; the facts here are that those digits are accepted and
give the number back, and how a reader that stops at the first separator finds them.
-/

namespace Decimal

/-- The value of a digit string that is not empty and has no leading zero. -/
def positive (digits : List Char) : Option Nat :=
  if digits = [] ∨ digits.head? = some '0' ∨ !digits.all Char.isDigit then none
  else some (Nat.ofDigitChars 10 digits 0)

theorem all_isDigit_toDigits (n : Nat) : (Nat.toDigits 10 n).all Char.isDigit = true :=
  List.all_eq_true.2 fun _ h => Nat.isDigit_of_mem_toDigits (by decide) (by decide) h

theorem head?_toDigits_ne_zero {n : Nat} (h : 0 < n) : (Nat.toDigits 10 n).head? ≠ some '0' := by
  induction n using Nat.strong_induction_on with
  | _ n ih =>
    rcases Nat.lt_or_ge n 10 with hlt | hge
    · interval_cases n <;> decide
    · -- The leading digit is that of the quotient, which is still positive.
      rw [Nat.toDigits_of_base_le (by decide) hge,
        List.head?_append, List.head?_eq_some_head Nat.toDigits_ne_nil, Option.some_or,
        ← List.head?_eq_some_head]
      exact ih (n / 10) (by omega) (by omega)

theorem positive_toDigits (n : Nat) :
    positive (Nat.toDigits 10 n) = if n = 0 then none else some n := by
  split
  · next h => rw [h]; decide
  · next h =>
    unfold positive
    rw [if_neg, Nat.ofDigitChars_ten_toDigits]
    rintro (hnil | hzero | hdigit)
    · exact Nat.toDigits_ne_nil hnil
    · exact head?_toDigits_ne_zero (Nat.pos_of_ne_zero h) hzero
    · rw [all_isDigit_toDigits] at hdigit
      cases hdigit

/-! ## Digits up to a separator -/

section Span

variable {p : Char → Bool} {separator : Char} (hp : ∀ c : Char, c.isDigit → p c)
  (hsep : p separator = false) (n : Nat) (rest : List Char)

include hp hsep

theorem takeWhile_toDigits :
    (Nat.toDigits 10 n ++ separator :: rest).takeWhile p = Nat.toDigits 10 n := by
  rw [List.takeWhile_append_of_pos fun c hc =>
      hp c (List.all_eq_true.1 (all_isDigit_toDigits n) c hc),
    List.takeWhile_cons_of_neg (by rw [hsep]; decide), List.append_nil]

theorem dropWhile_toDigits :
    (Nat.toDigits 10 n ++ separator :: rest).dropWhile p = separator :: rest := by
  rw [List.dropWhile_append_of_pos fun c hc =>
      hp c (List.all_eq_true.1 (all_isDigit_toDigits n) c hc),
    List.dropWhile_cons_of_neg (by rw [hsep]; decide)]

end Span

end Decimal
