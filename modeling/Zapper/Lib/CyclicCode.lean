import Mathlib.Algebra.Polynomial.OfFn
import Mathlib.GroupTheory.OrderOfElement
import Mathlib.RingTheory.AdjoinRoot
import Zapper.Lib.ShiftRegister

/-!
# Cyclic redundancy codes

What a shift register computes, over polynomials with coefficients modulo two. A message is the
polynomial of its bits, the feedback word stands for the `generator` of degree `w`, and the register
holds the remainder of the message, moved up by `w` places, on division by the generator
(`toPoly_register`).

From this come the two bounds on errors that a cyclic code does not see. Both ask for a generator
with constant coefficient one.

* `register_ne_of_burst`: errors within `w` consecutive bits are always seen.
* `register_eq_of_double_iff`: two single errors are seen unless their distance is a multiple of the
  order of the root of the generator, `orderOf_root` computes that order for a given word.
-/

open Polynomial

namespace CyclicCode

open ShiftRegister

variable {w : ℕ}

/-- A bit as a number modulo two. -/
def coeffOf (b : Bool) : ZMod 2 := if b then 1 else 0

@[simp]
theorem coeffOf_false : coeffOf false = 0 := rfl

@[simp]
theorem coeffOf_true : coeffOf true = 1 := rfl

theorem coeffOf_xor (a b : Bool) : coeffOf (a ^^ b) = coeffOf a + coeffOf b := by
  cases a <;> cases b <;> decide

theorem coeffOf_injective : Function.Injective coeffOf := by decide

/-! ### Words and messages as polynomials -/

/-- The polynomial of a word. -/
noncomputable def toPoly (c : BitVec w) : (ZMod 2)[X] := ofFn w fun i => coeffOf (c.getLsbD i)

theorem coeff_toPoly (c : BitVec w) (i : ℕ) : (toPoly c).coeff i = coeffOf (c.getLsbD i) := by
  rcases Nat.lt_or_ge i w with hi | hi
  · exact ofFn_coeff_eq_val_of_lt _ hi
  · rw [BitVec.getLsbD_of_ge _ _ hi]
    exact ofFn_coeff_eq_zero_of_ge _ hi

theorem degree_toPoly_lt (c : BitVec w) : (toPoly c).degree < w := ofFn_degree_lt _

theorem toPoly_injective : Function.Injective (toPoly (w := w)) := by
  intro c d h
  refine BitVec.eq_of_getLsbD_eq fun i _ => coeffOf_injective ?_
  rw [← coeff_toPoly, ← coeff_toPoly, h]

theorem toPoly_xor (c d : BitVec w) : toPoly (c ^^^ d) = toPoly c + toPoly d := by
  ext i
  rw [coeff_add, coeff_toPoly, coeff_toPoly, coeff_toPoly, BitVec.getLsbD_xor, coeffOf_xor]

@[simp]
theorem toPoly_zero : toPoly 0#w = 0 := by
  ext i
  rw [coeff_toPoly, BitVec.getLsbD_zero, coeff_zero, coeffOf_false]

/-- The polynomial of a message, its first bit being the leading coefficient. -/
noncomputable def ofBits : List Bool → (ZMod 2)[X]
  | [] => 0
  | b :: m => C (coeffOf b) * X ^ m.length + ofBits m

theorem coeff_ofBits (m : List Bool) (i : ℕ) :
    (ofBits m).coeff i = coeffOf (m.reverse.getD i false) := by
  induction m with
  | nil => simp [ofBits]
  | cons b m ih =>
    rw [ofBits, coeff_add, coeff_C_mul, coeff_X_pow, ih, List.reverse_cons]
    rcases Nat.lt_trichotomy i m.length with hi | rfl | hi
    · rw [List.getD_append _ _ _ _ (by simpa using hi), if_neg hi.ne, mul_zero, zero_add]
    · rw [List.getD_append_right _ _ _ _ (by simp), List.getD_eq_default _ _ (by simp)]
      simp
    · rw [List.getD_append_right _ _ _ _ (by simpa using hi.le),
        List.getD_eq_default _ _ (by simpa using hi.le), if_neg hi.ne', mul_zero, zero_add,
        List.getD_eq_default _ _ (by simp; omega)]

theorem ofBits_bits (c : BitVec w) : ofBits (bits c) = toPoly c := by
  ext i
  rw [coeff_ofBits, coeff_toPoly]
  congr 1
  rcases Nat.lt_or_ge i w with hi | hi
  · rw [List.getD_eq_getElem _ _ (by simpa using hi), List.getElem_reverse]
    simp only [bits, List.getElem_map, List.getElem_range, List.length_map, List.length_range]
    rw [BitVec.getMsbD_eq_getLsbD, decide_eq_true (by omega), Bool.true_and]
    congr 1
    omega
  · rw [List.getD_eq_default _ _ (by simpa using hi), BitVec.getLsbD_of_ge _ _ hi]

theorem degree_ofBits_lt (m : List Bool) : (ofBits m).degree < m.length := by
  refine (degree_lt_iff_coeff_zero _ _).mpr fun i hi => ?_
  rw [coeff_ofBits, List.getD_eq_default _ _ (by simpa using hi), coeffOf_false]

theorem ofBits_append (m n : List Bool) :
    ofBits (m ++ n) = X ^ n.length * ofBits m + ofBits n := by
  induction m with
  | nil => simp [ofBits]
  | cons b m ih =>
    rw [List.cons_append, ofBits, ofBits, ih, List.length_append, pow_add]
    ring

theorem ofBits_xor {m n : List Bool} (h : m.length = n.length) :
    ofBits (xor m n) = ofBits m + ofBits n := by
  induction m generalizing n with
  | nil =>
    obtain rfl : n = [] := List.length_eq_zero_iff.mp h.symm
    simp [ShiftRegister.xor, ofBits]
  | cons a m ih =>
    cases n with
    | nil => simp at h
    | cons b n =>
      have hlen : m.length = n.length := by simpa using h
      show C (coeffOf (a ^^ b)) * X ^ (xor m n).length + ofBits (xor m n) = _
      rw [ih hlen, length_xor hlen, coeffOf_xor, C_add, ofBits, ofBits, ← hlen]
      ring

/-! ### The generator -/

/-- The generator of a feedback word. -/
noncomputable def generator (p : BitVec w) : (ZMod 2)[X] := X ^ w + toPoly p

theorem generator_monic (p : BitVec w) : (generator p).Monic :=
  monic_X_pow_add (degree_toPoly_lt p)

theorem degree_generator (p : BitVec w) : (generator p).degree = w := by
  rw [generator, degree_add_eq_left_of_degree_lt]
  · exact degree_X_pow w
  · rw [degree_X_pow]
    exact degree_toPoly_lt p

/-- A word as a residue modulo the generator. -/
noncomputable def residue (p c : BitVec w) : AdjoinRoot (generator p) :=
  AdjoinRoot.mk _ (toPoly c)

variable {p c d : BitVec w} {m n : List Bool}

theorem residue_injective : Function.Injective (residue p) := by
  intro c d h
  have hdvd : generator p ∣ toPoly c - toPoly d := AdjoinRoot.mk_eq_mk.mp h
  have hdeg : (toPoly c - toPoly d).degree < (generator p).degree := by
    rw [degree_generator]
    exact (degree_sub_le _ _).trans_lt (max_lt (degree_toPoly_lt c) (degree_toPoly_lt d))
  exact toPoly_injective (sub_eq_zero.mp (eq_zero_of_dvd_of_degree_lt hdvd hdeg))

theorem residue_xor : residue p (c ^^^ d) = residue p c + residue p d := by
  rw [residue, toPoly_xor, map_add, residue, residue]

/-- Two is zero. -/
theorem add_self (a : AdjoinRoot (generator p)) : a + a = 0 := by
  obtain ⟨f, rfl⟩ := AdjoinRoot.mk_surjective a
  rw [← map_add, CharTwo.add_self_eq_zero, map_zero]

theorem eq_of_add_eq_zero {a b : AdjoinRoot (generator p)} (h : a + b = 0) : b = a := by
  calc b = a + a + b := by rw [add_self, zero_add]
    _ = a := by rw [add_assoc, h, add_zero]

/-- The feedback word is what the generator leaves of `X ^ w`. -/
theorem residue_feedback : residue p p = AdjoinRoot.root (generator p) ^ w := by
  refine eq_of_add_eq_zero ?_
  have hzero : AdjoinRoot.mk (generator p) (X ^ w + toPoly p) = 0 := AdjoinRoot.mk_self
  rwa [map_add, map_pow, AdjoinRoot.mk_X] at hzero

theorem toPoly_shiftLeft (c : BitVec w) :
    X * toPoly c = toPoly (c <<< 1) + C (coeffOf c.msb) * X ^ w := by
  ext i
  rw [coeff_add, coeff_C_mul, coeff_X_pow, coeff_toPoly, BitVec.getLsbD_shiftLeft]
  cases i with
  | zero =>
    rw [coeff_X_mul_zero]
    cases w with
    | zero => simp [BitVec.msb_eq_getLsbD_last]
    | succ w => simp
  | succ i =>
    rw [coeff_X_mul, coeff_toPoly]
    rcases Nat.lt_trichotomy (i + 1) w with hi | rfl | hi
    · simp [hi, hi.ne]
    · simp [BitVec.msb_eq_getLsbD_last]
    · rw [BitVec.getLsbD_of_ge _ _ (by omega)]
      simp [hi.ne', show ¬ i + 1 < w by omega]

/-- A shift multiplies by the root, and a message bit comes in at the top. -/
theorem residue_step (b : Bool) : residue p (step p c b) =
    AdjoinRoot.root (generator p) * residue p c +
      AdjoinRoot.mk _ (C (coeffOf b) * X ^ w) := by
  have hshift : AdjoinRoot.root (generator p) * residue p c =
      residue p (c <<< 1) + AdjoinRoot.mk _ (C (coeffOf c.msb) * X ^ w) := by
    rw [residue, residue, ← AdjoinRoot.mk_X, ← map_mul, toPoly_shiftLeft, map_add]
  have hbits : AdjoinRoot.mk (generator p) (C (coeffOf c.msb) * X ^ w) +
      AdjoinRoot.mk _ (C (coeffOf b) * X ^ w) =
        AdjoinRoot.mk _ (C (coeffOf (c.msb ^^ b)) * X ^ w) := by
    rw [← map_add, coeffOf_xor, C_add, add_mul]
  rw [hshift, add_assoc, hbits]
  unfold step
  cases c.msb ^^ b with
  | false => simp
  | true =>
    simp [residue_xor, residue_feedback]

/-- The register, as a residue. -/
theorem residue_register : residue p (register p c m) =
    AdjoinRoot.mk _ (X ^ m.length * toPoly c + X ^ w * ofBits m) := by
  induction m generalizing c with
  | nil => simp [ofBits, residue]
  | cons b m ih =>
    have hstep := residue_step (p := p) (c := c) b
    rw [residue, residue] at hstep
    rw [register_cons, ih, map_add, map_mul, hstep, ← AdjoinRoot.mk_X, ← map_mul, ← map_add,
      ← map_mul, ← map_add, ofBits, List.length_cons]
    congr 1
    ring

/-- **The register holds a remainder**: that of the message, moved up by the width of the register,
plus its start, moved up by the length of the message. -/
theorem toPoly_register : toPoly (register p c m) =
    (X ^ m.length * toPoly c + X ^ w * ofBits m) %ₘ generator p := by
  have hdvd := AdjoinRoot.mk_eq_mk.mp (residue_register (p := p) (c := c) (m := m)).symm
  have hself : toPoly (register p c m) %ₘ generator p = toPoly (register p c m) := by
    rw [modByMonic_eq_self_iff (generator_monic p), degree_generator]
    exact degree_toPoly_lt _
  have hzero := (modByMonic_eq_zero_iff_dvd (generator_monic p)).mpr hdvd
  rw [sub_modByMonic, hself, sub_eq_zero] at hzero
  exact hzero.symm

/-! ### Errors that are seen -/

/-- The generator has no factor `X`. -/
theorem isCoprime_X_pow (hp : p.getLsbD 0 = true) (k : ℕ) :
    IsCoprime (generator p) (X ^ k) := by
  refine (IsCoprime.pow_left ((irreducible_X.coprime_iff_not_dvd).mpr ?_)).symm
  have hw : w ≠ 0 := by
    rintro rfl
    simp at hp
  rw [X_dvd_iff, generator, coeff_add, coeff_X_pow, if_neg hw.symm, coeff_toPoly, hp]
  decide

/-- **What is not seen**: messages of one length leave the same register behind exactly when the
generator divides their difference. -/
theorem register_eq_iff_dvd (hp : p.getLsbD 0 = true) (h : m.length = n.length) :
    register p c m = register p c n ↔ generator p ∣ ofBits m + ofBits n := by
  have hzero : toPoly (register p 0#w (xor m n)) =
      (X ^ w * (ofBits m + ofBits n)) %ₘ generator p := by
    rw [toPoly_register, toPoly_zero, mul_zero, zero_add, ofBits_xor h]
  rw [register_eq_iff h, ← toPoly_injective.eq_iff, toPoly_zero, hzero,
    modByMonic_eq_zero_iff_dvd (generator_monic p)]
  exact ⟨fun hdvd => (isCoprime_X_pow hp w).dvd_of_dvd_mul_left hdvd, fun hdvd => hdvd.mul_left _⟩

theorem ofBits_inj (h : m.length = n.length) (heq : ofBits m = ofBits n) : m = n := by
  refine List.reverse_injective (List.ext_getElem (by simpa using h) fun i hi hi' => ?_)
  have hcoeff := congrArg (fun f => coeff f i) heq
  simp only [coeff_ofBits] at hcoeff
  rw [List.getD_eq_getElem _ _ hi, List.getD_eq_getElem _ _ hi'] at hcoeff
  exact coeffOf_injective hcoeff

variable {front back x y : List Bool}

/-- **Bursts are seen**: messages that differ within `w` consecutive bits only never leave the same
register behind. -/
theorem register_ne_of_burst (hp : p.getLsbD 0 = true) (hlen : x.length = y.length)
    (hw : x.length ≤ w) (hne : x ≠ y) :
    register p c (front ++ x ++ back) ≠ register p c (front ++ y ++ back) := by
  intro heq
  have hdvd := (register_eq_iff_dvd hp (by simp [hlen])).mp heq
  have hsum : ofBits (front ++ x ++ back) + ofBits (front ++ y ++ back) =
      X ^ back.length * (ofBits x + ofBits y) := by
    have hfront : X ^ x.length * ofBits front + X ^ x.length * ofBits front = 0 :=
      CharTwo.add_self_eq_zero _
    have hback : ofBits back + ofBits back = 0 := CharTwo.add_self_eq_zero _
    rw [ofBits_append, ofBits_append, ofBits_append, ofBits_append, ← hlen]
    linear_combination (X ^ back.length) * hfront + hback
  rw [hsum] at hdvd
  have hxy : ofBits x + ofBits y = 0 := by
    refine eq_zero_of_dvd_of_degree_lt
      ((isCoprime_X_pow hp back.length).dvd_of_dvd_mul_left hdvd) ?_
    have hx : (ofBits x).degree < w := (degree_ofBits_lt x).trans_le (by exact_mod_cast hw)
    have hy : (ofBits y).degree < w := (degree_ofBits_lt y).trans_le (by exact_mod_cast hlen ▸ hw)
    rw [degree_generator]
    exact (degree_add_le _ _).trans_lt (max_lt hx hy)
  exact hne (ofBits_inj hlen (CharTwo.add_eq_zero.mp hxy))

/-- **Two single errors** at a distance of `d` places are missed exactly when the order of the root
divides `d`. -/
theorem register_eq_of_double_iff (hp : p.getLsbD 0 = true) (a b : Bool) {mid : List Bool} :
    register p c (front ++ a :: mid ++ b :: back) =
        register p c (front ++ (!a) :: mid ++ (!b) :: back) ↔
      orderOf (AdjoinRoot.root (generator p)) ∣ mid.length + 1 := by
  have hflip : ∀ e : Bool, C (coeffOf e) + C (coeffOf !e) = (1 : (ZMod 2)[X]) := by
    intro e
    rw [← C_add]
    cases e <;> simp
  have hsum : ofBits (front ++ a :: mid ++ b :: back) +
      ofBits (front ++ (!a) :: mid ++ (!b) :: back) =
        X ^ back.length * (X ^ (mid.length + 1) + 1) := by
    have hfront : ofBits front + ofBits front = 0 := CharTwo.add_self_eq_zero _
    have hmid : ofBits mid + ofBits mid = 0 := CharTwo.add_self_eq_zero _
    have hback : ofBits back + ofBits back = 0 := CharTwo.add_self_eq_zero _
    simp only [ofBits_append, ofBits, List.length_cons, List.append_assoc, List.length_append,
      List.cons_append]
    linear_combination (X ^ (mid.length + 1 + back.length + 1)) * hfront +
      X ^ (back.length + 1) * hmid + hback + X ^ (mid.length + back.length + 1) * hflip a +
        X ^ back.length * hflip b
  rw [register_eq_iff_dvd hp (by simp), hsum, orderOf_dvd_iff_pow_eq_one]
  constructor
  · intro hdvd
    have hroot := AdjoinRoot.mk_eq_zero.mpr
      ((isCoprime_X_pow hp back.length).dvd_of_dvd_mul_left hdvd)
    rw [map_add, map_pow, AdjoinRoot.mk_X, map_one] at hroot
    exact (eq_of_add_eq_zero hroot).symm
  · intro hroot
    refine Dvd.dvd.mul_left (AdjoinRoot.mk_eq_zero.mp ?_) _
    rw [map_add, map_pow, AdjoinRoot.mk_X, map_one, hroot, add_self]

/-! ### The order of the root -/

/-- The product of two words modulo the generator. -/
def mul (p c d : BitVec w) : BitVec w :=
  (bits c).foldl (fun acc b => if b then step p acc false ^^^ d else step p acc false) 0#w

theorem residue_shift : residue p (step p c false) =
    AdjoinRoot.root (generator p) * residue p c := by
  rw [residue_step]
  simp

theorem residue_mul : residue p (mul p c d) = residue p c * residue p d := by
  have hfold : ∀ (m : List Bool) (acc : BitVec w),
      residue p (m.foldl
          (fun acc b => if b then step p acc false ^^^ d else step p acc false) acc) =
        AdjoinRoot.root (generator p) ^ m.length * residue p acc +
          AdjoinRoot.mk _ (ofBits m) * residue p d := by
    intro m
    induction m with
    | nil => simp [ofBits]
    | cons b m ih =>
      intro acc
      have hroot : AdjoinRoot.mk (generator p) (X ^ m.length) =
          AdjoinRoot.root (generator p) ^ m.length := by rw [map_pow, AdjoinRoot.mk_X]
      rw [List.foldl_cons, ih, ofBits, map_add, map_mul, hroot, List.length_cons]
      cases b with
      | false =>
        simp only [Bool.false_eq_true, if_false, residue_shift, coeffOf_false, map_zero]
        ring
      | true =>
        simp only [if_true, residue_xor, residue_shift, coeffOf_true, map_one]
        ring
  have hzero : residue p 0#w = 0 := by rw [residue, toPoly_zero, map_zero]
  rw [mul, hfold, ofBits_bits, hzero, mul_zero, zero_add]
  rfl

/-- The number with given binary digits, the leading digit first. -/
def ofDigits (e : List Bool) : ℕ := e.foldl (fun n b => 2 * n + b.toNat) 0

/-- Powers of a word modulo the generator, by repeated squaring along the binary digits of the
exponent. -/
def pow (p c : BitVec w) (e : List Bool) : BitVec w :=
  e.foldl (fun acc b => if b then mul p (mul p acc acc) c else mul p acc acc) 1#w

theorem residue_one (hw : 0 < w) : residue p 1#w = 1 := by
  have hone : toPoly 1#w = 1 := by
    ext i
    rw [coeff_toPoly, BitVec.getLsbD_one, coeff_one]
    rcases eq_or_ne i 0 with rfl | hi
    · simp [hw]
    · simp [hi]
  rw [residue, hone, map_one]

theorem residue_pow (hw : 0 < w) (e : List Bool) :
    residue p (pow p c e) = residue p c ^ ofDigits e := by
  have hfold : ∀ (e : List Bool) (acc : BitVec w) (n : ℕ), residue p acc = residue p c ^ n →
      residue p (e.foldl (fun acc b => if b then mul p (mul p acc acc) c else mul p acc acc) acc) =
        residue p c ^ e.foldl (fun n b => 2 * n + b.toNat) n := by
    intro e
    induction e with
    | nil => exact fun _ _ h => h
    | cons b e ih =>
      intro acc n h
      refine ih _ _ ?_
      cases b with
      | false =>
        simp only [Bool.false_eq_true, if_false, Bool.toNat_false, Nat.add_zero]
        rw [residue_mul, h, ← pow_add, two_mul]
      | true =>
        simp only [if_true, Bool.toNat_true]
        rw [residue_mul, residue_mul, h, ← pow_add, ← pow_succ, two_mul]
  exact hfold e 1#w 0 (by rw [residue_one hw, pow_zero])

/-- **The order of the root**, by powers modulo the generator: it is `n` if the `n`-th power is one,
and none of those that leave out a prime factor of `n` is. -/
theorem orderOf_root (hw : 0 < w) {n : ℕ} (hn : 0 < n)
    (hone : ∃ e, ofDigits e = n ∧ pow p (step p 1#w false) e = 1#w)
    (hprime : ∀ q, q.Prime → q ∣ n →
      ∃ e, ofDigits e = n / q ∧ pow p (step p 1#w false) e ≠ 1#w) :
    orderOf (AdjoinRoot.root (generator p)) = n := by
  have hroot : residue p (step p 1#w false) = AdjoinRoot.root (generator p) := by
    rw [residue_shift, residue_one hw, mul_one]
  refine orderOf_eq_of_pow_and_pow_div_prime hn ?_ fun q hq hdvd => ?_
  · obtain ⟨e, rfl, he⟩ := hone
    rw [← hroot, ← residue_pow hw, he, residue_one hw]
  · obtain ⟨e, he, hne⟩ := hprime q hq hdvd
    rw [← he, ← hroot, ← residue_pow hw, ← residue_one hw]
    exact fun h => hne (residue_injective h)

end CyclicCode
