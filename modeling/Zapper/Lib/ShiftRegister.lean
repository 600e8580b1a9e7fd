import Mathlib.Data.List.Basic
import Mathlib.Tactic

/-!
# Feedback shift registers

A register of `w` bits takes in a message bit by bit, most significant bit first. Each bit is added
to the top bit of the register; the register is shifted up by one place, and if the sum was one,
the feedback word `p` is added. Addition is exclusive or.

* `register p c m` is the register behind the message `m`, started at `c`.
* `register_xor`: the register is linear in its start and its message together.
* `register_own`: a register that is fed its own top bits is only shifted.
* `register_chunk`: a chunk of `k` bits can be taken in at once: the register moves up by `k`
  places, and the word for its top `k` bits plus the chunk is added. That word depends on those `k`
  bits only, so it can be read from a table.
* `register_append_own`: behind a message and then the register itself, the register is zero.
-/

namespace ShiftRegister

variable {w : ℕ}

/-- The bits of a word, most significant bit first. -/
def bits (c : BitVec w) : List Bool := (List.range w).map c.getMsbD

@[simp]
theorem length_bits (c : BitVec w) : (bits c).length = w := by simp [bits]

theorem bits_injective : Function.Injective (bits (w := w)) := fun _ _ h =>
  BitVec.eq_of_getMsbD_eq fun i hi => List.map_inj_left.mp h i (List.mem_range.mpr hi)

/-- One message bit is taken in. -/
def step (p c : BitVec w) (b : Bool) : BitVec w :=
  if c.msb ^^ b then (c <<< 1) ^^^ p else c <<< 1

/-- The register behind a message. -/
def register (p c : BitVec w) (m : List Bool) : BitVec w := m.foldl (step p) c

variable {p c d : BitVec w} {m n : List Bool}

@[simp]
theorem register_nil : register p c [] = c := rfl

@[simp]
theorem register_cons (b : Bool) : register p c (b :: m) = register p (step p c b) m := rfl

theorem register_append : register p c (m ++ n) = register p (register p c m) n :=
  List.foldl_append

/-! ### Linearity -/

/-- The sum of two messages, bit by bit. -/
def xor (m n : List Bool) : List Bool := List.zipWith (· ^^ ·) m n

theorem length_xor (h : m.length = n.length) : (xor m n).length = m.length := by
  simp [xor, h]

theorem xor_replicate (m : List Bool) : xor m (List.replicate m.length false) = m := by
  induction m with
  | nil => rfl
  | cons b m ih =>
    show (b ^^ false) :: xor m (List.replicate m.length false) = b :: m
    rw [ih, Bool.xor_false]

theorem step_xor (a b : Bool) : step p (c ^^^ d) (a ^^ b) = step p c a ^^^ step p d b := by
  have hmsb : ((c ^^^ d).msb ^^ (a ^^ b)) = ((c.msb ^^ a) ^^ (d.msb ^^ b)) := by
    rw [BitVec.msb_xor]
    cases c.msb <;> cases d.msb <;> cases a <;> cases b <;> rfl
  unfold step
  rw [hmsb, BitVec.shiftLeft_xor_distrib]
  cases c.msb ^^ a <;> cases d.msb ^^ b
  · rfl
  · exact BitVec.xor_assoc _ _ _
  · show (c <<< 1) ^^^ (d <<< 1) ^^^ p = (c <<< 1) ^^^ p ^^^ (d <<< 1)
    ac_rfl
  · show (c <<< 1) ^^^ (d <<< 1) = (c <<< 1) ^^^ p ^^^ ((d <<< 1) ^^^ p)
    have hp : (c <<< 1) ^^^ p ^^^ ((d <<< 1) ^^^ p) = (c <<< 1) ^^^ (d <<< 1) ^^^ (p ^^^ p) := by
      ac_rfl
    rw [hp, BitVec.xor_self, BitVec.xor_zero]

/-- **The register is linear** in its start and its message together. -/
theorem register_xor (h : m.length = n.length) :
    register p (c ^^^ d) (xor m n) = register p c m ^^^ register p d n := by
  induction m generalizing c d n with
  | nil =>
    obtain rfl : n = [] := List.length_eq_zero_iff.mp h.symm
    rfl
  | cons a m ih =>
    cases n with
    | nil => simp at h
    | cons b n =>
      show register p (step p (c ^^^ d) (a ^^ b)) (xor m n) = _
      rw [step_xor]
      exact ih (by simpa using h)

/-- Messages of one length leave the same register behind exactly when their sum leaves zero. -/
theorem register_eq_iff (h : m.length = n.length) :
    register p c m = register p c n ↔ register p 0#w (xor m n) = 0#w := by
  have hsum := register_xor (p := p) (c := c) (d := c) h
  rw [BitVec.xor_self] at hsum
  rw [hsum]
  constructor
  · intro heq
    rw [heq, BitVec.xor_self]
  · intro hzero
    calc register p c m
        = register p c m ^^^ register p c n ^^^ register p c n := by
          rw [BitVec.xor_assoc, BitVec.xor_self, BitVec.xor_zero]
      _ = register p c n := by rw [hzero, BitVec.zero_xor]

/-! ### Chunks -/

/-- The top `k` bits of a register. -/
def top (k : ℕ) (c : BitVec w) : List Bool := (List.range k).map c.getMsbD

@[simp]
theorem length_top (k : ℕ) (c : BitVec w) : (top k c).length = k := by simp [top]

theorem top_succ (k : ℕ) (c : BitVec w) : top (k + 1) c = c.msb :: top k (c <<< 1) := by
  rw [top, List.range_succ_eq_map, List.map_cons, List.map_map, top]
  refine congrArg₂ _ rfl (List.map_congr_left fun i hi => ?_)
  simp

/-- **A register that is fed its own top bits is only shifted.** -/
theorem register_own (k : ℕ) : register p c (top k c) = c <<< k := by
  induction k generalizing c with
  | zero => simp [top]
  | succ k ih =>
    have hstep : step p c c.msb = c <<< 1 := by simp [step]
    rw [top_succ, register_cons, hstep, ih, ← BitVec.shiftLeft_add, Nat.add_comm]

/-- The word that is added for a chunk. -/
def chunkWord (p : BitVec w) (m : List Bool) : BitVec w := register p 0#w m

/-- **A chunk at a time.** -/
theorem register_chunk : register p c m =
    (c <<< m.length) ^^^ chunkWord p (xor (top m.length c) m) := by
  have hlen : (top m.length c).length = m.length := length_top _ _
  have hsum := register_xor (p := p) (c := c) (d := c) hlen
  rw [BitVec.xor_self, register_own] at hsum
  rw [chunkWord, hsum, ← BitVec.xor_assoc, BitVec.xor_self, BitVec.zero_xor]

/-- **Behind a message and then the register itself, the register is zero.** -/
theorem register_append_own : register p c (m ++ bits (register p c m)) = 0#w := by
  rw [register_append]
  exact (register_own w).trans (by simp)

end ShiftRegister
