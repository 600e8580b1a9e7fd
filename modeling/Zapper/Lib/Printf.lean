import Mathlib.Data.Nat.Init
import Mathlib.Tactic.SplitIfs

/-!
# Formatted output of C

`sprintf` with the conversions `%u` and `%s`, on strings as lists of characters without the
terminating zero. Any other character of the format is written as it stands.

What is written is as long as its parts: the format without its conversions, the strings, and the
decimal digits of the numbers (`length_toDigits_of_lt`). With the terminating zero it must fit the
buffer (`Fits`).
-/

namespace CString

/-- An argument of `sprintf`, for `%u` or for `%s`. -/
inductive Arg
  | num (n : ℕ)
  | str (s : List Char)

/-- `sprintf`: what is written for a format and its arguments. -/
def sprintf : List Char → List Arg → List Char
  | '%' :: 'u' :: fmt, .num n :: args => Nat.toDigits 10 n ++ sprintf fmt args
  | '%' :: 's' :: fmt, .str s :: args => s ++ sprintf fmt args
  | c :: fmt, args => c :: sprintf fmt args
  | [], _ => []

/-- The string fits a buffer of this size, together with the terminating zero. -/
def Fits (s : List Char) (size : ℕ) : Prop := s.length + 1 ≤ size

instance (s : List Char) (size : ℕ) : Decidable (Fits s size) :=
  inferInstanceAs (Decidable (_ ≤ _))

/-- The digits of a number below 1000 behind its first one. -/
def moreDigits (n : ℕ) : ℕ := (if 10 ≤ n then 1 else 0) + if 100 ≤ n then 1 else 0

theorem length_toDigits_of_lt {n : ℕ} (h : n < 1000) :
    (Nat.toDigits 10 n).length = 1 + moreDigits n := by
  have hpos : 0 < (Nat.toDigits 10 n).length := Nat.length_toDigits_pos
  have hone := @Nat.length_toDigits_le_iff 10 n 1 (by decide) (by decide)
  have htwo := @Nat.length_toDigits_le_iff 10 n 2 (by decide) (by decide)
  have hthree := @Nat.length_toDigits_le_iff 10 n 3 (by decide) (by decide)
  unfold moreDigits
  split_ifs <;> omega

end CString
