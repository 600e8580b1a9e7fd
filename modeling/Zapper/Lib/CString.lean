import Mathlib.Data.Int.Basic
import Mathlib.Data.List.TakeWhile

/-!
# Strings of C

Strings as lists of characters, without the terminating zero, and two functions of the C library:
`strtok` with a single delimiter, and `atoi`. Both are lenient. `strtok` skips delimiters in front
of a field (`strtok_of_takeWhile` is the case in which there are none), and `atoi` takes a sign and
stops at the first character that is no digit (`atoi_of_isDecimal` is the case of a plain decimal
number).
-/

namespace CString

variable {d : Char} {s t : List Char}

/-! ### Fields -/

/-- `strtok` with the delimiter `d`: the first field, and where the next call goes on. -/
def strtok (d : Char) (s : List Char) : Option (List Char × List Char) :=
  match s.dropWhile (· == d) with
  | [] => none
  | t => some (t.takeWhile (· != d), (t.dropWhile (· != d)).drop 1)

theorem strtok_of_dropWhile (h : s.dropWhile (· == d) ≠ []) :
    strtok d s = some ((s.dropWhile (· == d)).takeWhile (· != d),
      ((s.dropWhile (· == d)).dropWhile (· != d)).drop 1) := by
  unfold strtok
  split
  · next heq => exact absurd heq h
  · rfl

/-- There is a field in a string that does not begin with a delimiter: all in front of the first
delimiter. -/
theorem strtok_of_takeWhile (h : s.takeWhile (· != d) ≠ []) :
    strtok d s = some (s.takeWhile (· != d), (s.dropWhile (· != d)).drop 1) := by
  have hdrop : s.dropWhile (· == d) = s := by
    cases s with
    | nil => rfl
    | cons c s =>
      by_cases hc : c = d
      · simp [hc] at h
      · simp [hc]
  have hne : s ≠ [] := by
    rintro rfl
    exact h rfl
  rw [strtok_of_dropWhile (by rwa [hdrop]), hdrop]

/-- A string without a delimiter is a field. -/
theorem strtok_of_not_mem (hs : s ≠ []) (h : d ∉ s) : strtok d s = some (s, []) := by
  have hne : ∀ c ∈ s, (c != d) = true := by
    intro c hc
    rw [bne_iff_ne]
    rintro rfl
    exact h hc
  have htake : s.takeWhile (· != d) = s := List.takeWhile_eq_self_iff.mpr hne
  have hdrop : s.dropWhile (· != d) = [] := List.dropWhile_eq_nil_iff.mpr hne
  rw [strtok_of_takeWhile (by rwa [htake]), htake, hdrop]
  rfl

/-- A delimiter in front is skipped. -/
theorem strtok_cons_self : strtok d (d :: s) = strtok d s := by
  simp [strtok]

/-- The string from its first delimiter on. -/
theorem dropWhile_eq_cons (h : d ∈ s) :
    s.dropWhile (· != d) = d :: (s.dropWhile (· != d)).drop 1 := by
  induction s with
  | nil => cases h
  | cons c s ih =>
    by_cases hc : c = d
    · simp [hc]
    · have hs : d ∈ s := by simpa [Ne.symm hc] using h
      simpa [hc] using ih hs

/-! ### Numbers -/

/-- `isspace`. -/
def isSpace (c : Char) : Bool := c.toNat = 32 || (9 ≤ c.toNat && c.toNat ≤ 13)

/-- The value of a string of digits. -/
def decimal (s : List Char) : ℕ := s.foldl (fun n c => 10 * n + (c.toNat - 48)) 0

/-- `atoi`, without the limits of `int`. -/
def atoi (s : List Char) : ℤ :=
  match s.dropWhile isSpace with
  | '-' :: t => -(decimal (t.takeWhile Char.isDigit) : ℤ)
  | '+' :: t => decimal (t.takeWhile Char.isDigit)
  | t => decimal (t.takeWhile Char.isDigit)

/-- A decimal number: digits only, and at least one. -/
def IsDecimal (s : List Char) : Prop := s ≠ [] ∧ ∀ c ∈ s, c.isDigit = true

instance (s : List Char) : Decidable (IsDecimal s) :=
  decidable_of_iff (s ≠ [] ∧ s.all Char.isDigit = true) (by simp [IsDecimal])

/-- A digit is neither a space nor a sign. -/
theorem isSpace_of_isDigit {c : Char} (h : c.isDigit = true) : isSpace c = false := by
  rw [Char.isDigit_iff_toNat] at h
  have h₀ : 48 ≤ c.toNat := h.1
  simp only [isSpace, Bool.or_eq_false_iff, Bool.and_eq_false_iff, decide_eq_false_iff_not]
  omega

/-- **`atoi` of a decimal number is its value.** -/
theorem atoi_of_isDecimal (h : IsDecimal s) : atoi s = decimal s := by
  obtain ⟨hne, hdigits⟩ := h
  have htake : s.takeWhile Char.isDigit = s := List.takeWhile_eq_self_iff.mpr hdigits
  cases s with
  | nil => exact absurd rfl hne
  | cons c t =>
    have hc : c.isDigit = true := hdigits c (by simp)
    have hdrop : (c :: t).dropWhile isSpace = c :: t := by
      simp [isSpace_of_isDigit hc]
    unfold atoi
    rw [hdrop]
    split
    · next heq =>
      obtain ⟨rfl, -⟩ := List.cons.inj heq
      exact absurd hc (by decide)
    · next heq =>
      obtain ⟨rfl, -⟩ := List.cons.inj heq
      exact absurd hc (by decide)
    · rw [htake]

/-- The usual way to write a number is a decimal number. -/
theorem isDecimal_toDigits (n : ℕ) : IsDecimal (Nat.toDigits 10 n) :=
  ⟨List.ne_nil_of_length_pos Nat.length_toDigits_pos,
    fun _ hc => Nat.isDigit_of_mem_toDigits (by decide) (by decide) hc⟩

/-- **A number that is written is read back.** -/
theorem decimal_toDigits (n : ℕ) : decimal (Nat.toDigits 10 n) = n :=
  Nat.ofDigitChars_toDigits (by decide) (by decide)

end CString
