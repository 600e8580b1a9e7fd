import Mathlib.Data.List.Basic
import Mathlib.Data.UInt
import Mathlib.Logic.Function.Basic
import Mathlib.Tactic

/-!
# Raw memory

What a C program sees of the heap: byte buffers read through a pointer, and `malloc`ed blocks of
slots.

A buffer is a function from offsets to bytes, defined at every offset, so that reading past the
end of the data is reading whatever lies there. `HoldsAt buf pos l` says that the list `l` lies
at offset `pos`, and `withTail l rest` is the buffer holding `l` with `rest` behind it.

A `Block` knows how many slots were allocated, what lies in every slot (`malloc` leaves junk)
and which slots have been stored to. Stores outside the block are representable, and
`Block.InBounds` says that there was none.
-/

namespace Memory

variable {α : Type*}

/-! ### Buffers -/

/-- The list `l` lies in the buffer at offset `pos`. -/
def HoldsAt (buf : ℕ → α) (pos : ℕ) (l : List α) : Prop :=
  ∀ i, (hi : i < l.length) → buf (pos + i) = l[i]

@[simp]
theorem holdsAt_nil {buf : ℕ → α} {pos : ℕ} : HoldsAt buf pos [] := fun _ hi => by simp at hi

@[simp]
theorem holdsAt_cons {buf : ℕ → α} {pos : ℕ} {a : α} {l : List α} :
    HoldsAt buf pos (a :: l) ↔ buf pos = a ∧ HoldsAt buf (pos + 1) l := by
  constructor
  · intro h
    refine ⟨h 0 (by simp), fun i hi => ?_⟩
    have := h (i + 1) (by simpa using hi)
    rwa [List.getElem_cons_succ, show pos + (i + 1) = pos + 1 + i by omega] at this
  · rintro ⟨ha, hl⟩ i hi
    cases i with
    | zero => exact ha
    | succ i =>
      rw [List.getElem_cons_succ, show pos + (i + 1) = pos + 1 + i by omega]
      exact hl i (by simpa using hi)

theorem holdsAt_append {buf : ℕ → α} {pos : ℕ} {l m : List α} :
    HoldsAt buf pos (l ++ m) ↔ HoldsAt buf pos l ∧ HoldsAt buf (pos + l.length) m := by
  induction l generalizing pos with
  | nil => simp
  | cons a l ih =>
    rw [List.cons_append, holdsAt_cons, ih, holdsAt_cons, and_assoc, List.length_cons,
      show pos + 1 + l.length = pos + (l.length + 1) by omega]

/-- The buffer that holds `l` at offset `0`, with `rest` behind it. -/
def withTail (l : List α) (rest : ℕ → α) (i : ℕ) : α :=
  if h : i < l.length then l[i] else rest i

theorem holdsAt_withTail (l : List α) (rest : ℕ → α) : HoldsAt (withTail l rest) 0 l :=
  fun i hi => by simp [withTail, hi]

theorem withTail_of_le {l : List α} {rest : ℕ → α} {i : ℕ} (h : l.length ≤ i) :
    withTail l rest i = rest i := by
  simp [withTail, Nat.not_lt.mpr h]

/-! ### Big-endian fields -/

/-- The 16-bit value of two consecutive bytes, high byte first. -/
def be16 (hi lo : UInt8) : ℕ := (hi.toNat <<< 8) + lo.toNat

theorem be16_eq (hi lo : UInt8) : be16 hi lo = 256 * hi.toNat + lo.toNat := by
  rw [be16, Nat.shiftLeft_eq]
  omega

/-- A field of `8 + k` bits in two bytes, the upper `8 - k` bits of the first byte being `r`. -/
def packed (k r n : ℕ) : List UInt8 := [UInt8.ofNat (r * 2 ^ k + n / 256), UInt8.ofNat n]

@[simp]
theorem length_packed (k r n : ℕ) : (packed k r n).length = 2 := rfl

/-- Masking with `2 ^ (8 + k) - 1` recovers a packed field from its two bytes. -/
theorem be16_and_packed {k r n : ℕ} (hk : k ≤ 8) (hr : r < 2 ^ (8 - k)) (hn : n < 2 ^ (8 + k)) :
    be16 (UInt8.ofNat (r * 2 ^ k + n / 256)) (UInt8.ofNat n) &&& (2 ^ (8 + k) - 1) = n := by
  have hpow : 2 ^ k * 2 ^ (8 - k) = 256 := by
    rw [← pow_add, show k + (8 - k) = 8 by omega]
    norm_num
  have hdiv : n / 256 < 2 ^ k := by
    rw [Nat.div_lt_iff_lt_mul (by norm_num), mul_comm]
    rwa [pow_add] at hn
  have hhi : r * 2 ^ k + n / 256 < 256 := by
    calc r * 2 ^ k + n / 256 < r * 2 ^ k + 2 ^ k := by omega
      _ = 2 ^ k * (r + 1) := by ring
      _ ≤ 2 ^ k * 2 ^ (8 - k) := Nat.mul_le_mul_left _ hr
      _ = 256 := hpow
  rw [Nat.and_two_pow_sub_one_eq_mod, be16_eq, UInt8.toNat_ofNat', UInt8.toNat_ofNat',
    Nat.mod_eq_of_lt hhi]
  have hval : 256 * (r * 2 ^ k + n / 256) + n % 256 = n + 2 ^ (8 + k) * r := by
    have := Nat.div_add_mod n 256
    rw [pow_add]
    calc 256 * (r * 2 ^ k + n / 256) + n % 256
        = 256 * (n / 256) + n % 256 + 256 * 2 ^ k * r := by ring
      _ = n + 2 ^ 8 * 2 ^ k * r := by rw [this]; norm_num
  rw [hval, Nat.add_mul_mod_self_left, Nat.mod_eq_of_lt hn]

/-- Every two bytes are the packed form of the field they hold. -/
theorem packed_be16 {k : ℕ} (hi lo : UInt8) :
    packed k (hi.toNat / 2 ^ k) (be16 hi lo &&& (2 ^ (8 + k) - 1)) = [hi, lo] := by
  have hpow : 2 ^ (8 + k) = 256 * 2 ^ k := by rw [pow_add]; norm_num
  have hdvd : 256 ∣ 2 ^ (8 + k) := ⟨2 ^ k, hpow⟩
  have hlo : lo.toNat < 256 := lo.toNat_lt
  have hdiv : be16 hi lo / 256 = hi.toNat := by
    rw [be16_eq]
    omega
  have hfield : be16 hi lo % 2 ^ (8 + k) / 256 = hi.toNat % 2 ^ k := by
    rw [hpow, Nat.mod_mul, hdiv]
    omega
  have hlow : be16 hi lo % 2 ^ (8 + k) % 256 = lo.toNat := by
    rw [Nat.mod_mod_of_dvd _ hdvd, be16_eq]
    omega
  have hhi : hi.toNat / 2 ^ k * 2 ^ k + hi.toNat % 2 ^ k = hi.toNat := by
    rw [mul_comm]
    exact Nat.div_add_mod _ _
  rw [packed, Nat.and_two_pow_sub_one_eq_mod, hfield, hhi, UInt8.ofNat_toNat]
  refine congrArg₂ _ rfl (congrArg₂ _ ?_ rfl)
  rw [← UInt8.toNat_inj, UInt8.toNat_ofNat', hlow]

/-- A full 16-bit field, high byte first. -/
def bytes16 (n : ℕ) : List UInt8 := [UInt8.ofNat (n / 256), UInt8.ofNat n]

@[simp]
theorem length_bytes16 (n : ℕ) : (bytes16 n).length = 2 := rfl

theorem be16_bytes16 {n : ℕ} (hn : n < 65536) :
    be16 (UInt8.ofNat (n / 256)) (UInt8.ofNat n) = n := by
  rw [be16_eq, UInt8.toNat_ofNat', UInt8.toNat_ofNat']
  omega

/-! ### Heap blocks -/

/-- A `malloc`ed block of slots: its size in slots, what lies in the slots (also behind the
end of the block) and which of them have been stored to since the allocation. -/
structure Block (α : Type*) where
  size : ℕ
  cell : ℕ → α
  written : ℕ → Bool

/-- Allocate `n` slots. The memory is not cleared: it holds `junk`. -/
def malloc (junk : ℕ → α) (n : ℕ) : Block α := ⟨n, junk, fun _ => false⟩

namespace Block

/-- Store through a pointer to slot `i`, inside the block or not. -/
def modify (b : Block α) (i : ℕ) (f : α → α) : Block α :=
  { b with
    cell := Function.update b.cell i (f (b.cell i))
    written := Function.update b.written i true }

/-- No store went outside the block. -/
def InBounds (b : Block α) : Prop := ∀ i, b.written i = true → i < b.size

/-- The first `n` slots have been stored to. -/
def FilledTo (b : Block α) (n : ℕ) : Prop := ∀ i < n, b.written i = true

instance (b : Block α) (n : ℕ) : Decidable (b.FilledTo n) :=
  inferInstanceAs (Decidable (∀ i < n, b.written i = true))

@[simp]
theorem size_modify (b : Block α) (i : ℕ) (f : α → α) : (b.modify i f).size = b.size := rfl

@[simp]
theorem cell_modify_self (b : Block α) (i : ℕ) (f : α → α) :
    (b.modify i f).cell i = f (b.cell i) := by simp [modify]

theorem cell_modify_of_ne (b : Block α) {i k : ℕ} (f : α → α) (h : k ≠ i) :
    (b.modify i f).cell k = b.cell k := by simp [modify, h]

@[simp]
theorem written_modify (b : Block α) (i k : ℕ) (f : α → α) :
    (b.modify i f).written k = true ↔ k = i ∨ b.written k = true := by
  by_cases h : k = i <;> simp [modify, h]

/-- Store a list of updates to consecutive slots, from slot `j` on. -/
def modifyFrom (b : Block α) (j : ℕ) : List (α → α) → Block α
  | [] => b
  | f :: fs => (b.modify j f).modifyFrom (j + 1) fs

@[simp]
theorem size_modifyFrom (b : Block α) (j : ℕ) (fs : List (α → α)) :
    (b.modifyFrom j fs).size = b.size := by
  induction fs generalizing b j with
  | nil => rfl
  | cons f fs ih => rw [modifyFrom, ih, size_modify]

theorem written_modifyFrom (b : Block α) (j k : ℕ) (fs : List (α → α)) :
    (b.modifyFrom j fs).written k = true ↔
      (j ≤ k ∧ k < j + fs.length) ∨ b.written k = true := by
  induction fs generalizing b j with
  | nil => simp [modifyFrom]
  | cons f fs ih =>
    rw [modifyFrom, ih, written_modify, List.length_cons]
    by_cases hw : b.written k = true
    · simp [hw]
    · simp only [hw, Bool.false_eq_true, or_false]
      omega

theorem cell_modifyFrom_of_lt (b : Block α) {j k : ℕ} (fs : List (α → α)) (h : k < j) :
    (b.modifyFrom j fs).cell k = b.cell k := by
  induction fs generalizing b j with
  | nil => rfl
  | cons f fs ih => rw [modifyFrom, ih _ (by omega), cell_modify_of_ne _ _ (by omega)]

theorem cell_modifyFrom_of_le (b : Block α) {j k : ℕ} (fs : List (α → α))
    (h : j + fs.length ≤ k) : (b.modifyFrom j fs).cell k = b.cell k := by
  induction fs generalizing b j with
  | nil => rfl
  | cons f fs ih =>
    rw [List.length_cons] at h
    rw [modifyFrom, ih _ (by omega), cell_modify_of_ne _ _ (by omega)]

/-- The `k`-th update of the list reaches the `k`-th slot from `j`. -/
theorem cell_modifyFrom (b : Block α) (j : ℕ) {k : ℕ} {fs : List (α → α)} (h : k < fs.length) :
    (b.modifyFrom j fs).cell (j + k) = fs[k] (b.cell (j + k)) := by
  induction fs generalizing b j k with
  | nil => simp at h
  | cons f fs ih =>
    rw [modifyFrom]
    cases k with
    | zero =>
      rw [cell_modifyFrom_of_lt _ _ (by omega)]
      simp
    | succ k =>
      rw [show j + (k + 1) = j + 1 + k by omega, ih _ _ (by simpa using h),
        cell_modify_of_ne _ _ (by omega), List.getElem_cons_succ]

end Block

end Memory
