import Mathlib.Data.Nat.Init

/-!
# While loops with fuel

A C `while` loop need not terminate, so its meaning is a relation: `Exits cond body s t` holds
when the loop `while (cond) body`, entered in state `s`, is left in state `t`. The relation is
carried by `run`, which performs at most `fuel` passes and is executable. The result does not
depend on the fuel (`run_mono`, `Exits.unique`), a pass can be peeled off on either side
(`exits_iff_of_cond`), an invariant of the body holds when the loop is left
(`Exits.invariant`), and a loop that another one simulates pass by pass has the other's result
(`run_map`). What happens on the way is said by `passes`, which counts the passes and is there
for loops that do not end as well.
-/

namespace WhileLoop

variable {σ : Type*} (cond : σ → Bool) (body : σ → σ)

/-- Run the loop for at most `fuel` passes; `none` while it is still running. -/
def run : ℕ → σ → Option σ
  | 0, s => if cond s then none else some s
  | fuel + 1, s => if cond s then run fuel (body s) else some s

/-- The loop entered in `s` terminates, and `t` is the state it leaves behind. -/
def Exits (s t : σ) : Prop := ∃ fuel, run cond body fuel s = some t

variable {cond body} {s t u : σ}

theorem run_of_not_cond (h : cond s = false) (fuel : ℕ) : run cond body fuel s = some s := by
  cases fuel <;> simp [run, h]

theorem run_succ_of_cond (h : cond s = true) (fuel : ℕ) :
    run cond body (fuel + 1) s = run cond body fuel (body s) := by
  simp [run, h]

/-- More fuel never changes a result. -/
theorem run_mono {k m : ℕ} (hkm : k ≤ m) (h : run cond body k s = some t) :
    run cond body m s = some t := by
  induction k generalizing m s with
  | zero =>
    cases hc : cond s with
    | true => simp [run, hc] at h
    | false =>
      rw [run_of_not_cond hc] at h ⊢
      exact h
  | succ k ih =>
    obtain ⟨m, rfl⟩ : ∃ m', m = m' + 1 := ⟨m - 1, by omega⟩
    cases hc : cond s with
    | true =>
      rw [run_succ_of_cond hc] at h ⊢
      exact ih (by omega) h
    | false =>
      rw [run_of_not_cond hc] at h ⊢
      exact h

/-- A loop leaves at most one state behind. -/
theorem Exits.unique (ht : Exits cond body s t) (hu : Exits cond body s u) : t = u := by
  obtain ⟨k, hk⟩ := ht
  obtain ⟨m, hm⟩ := hu
  have hk' := run_mono (Nat.le_max_left k m) hk
  have hm' := run_mono (Nat.le_max_right k m) hm
  exact Option.some.inj (hk'.symm.trans hm')

theorem exits_of_not_cond (h : cond s = false) : Exits cond body s s :=
  ⟨0, run_of_not_cond h 0⟩

/-- While the condition holds, the loop behaves as it does after one pass. -/
theorem exits_iff_of_cond (h : cond s = true) :
    Exits cond body s t ↔ Exits cond body (body s) t := by
  constructor
  · rintro ⟨fuel, hf⟩
    cases fuel with
    | zero => simp [run, h] at hf
    | succ fuel => exact ⟨fuel, by rwa [run_succ_of_cond h] at hf⟩
  · rintro ⟨fuel, hf⟩
    exact ⟨fuel + 1, by rwa [run_succ_of_cond h]⟩

/-- **The invariant rule.** What holds on entry and is kept by every pass holds on exit,
together with the negated condition. -/
theorem Exits.invariant {I : σ → Prop} (h : Exits cond body s t) (hs : I s)
    (hbody : ∀ u, I u → cond u = true → I (body u)) : I t ∧ cond t = false := by
  obtain ⟨fuel, hf⟩ := h
  induction fuel generalizing s with
  | zero =>
    cases hc : cond s with
    | true => simp [run, hc] at hf
    | false =>
      rw [run_of_not_cond hc, Option.some.injEq] at hf
      exact hf ▸ ⟨hs, hc⟩
  | succ fuel ih =>
    cases hc : cond s with
    | true =>
      rw [run_succ_of_cond hc] at hf
      exact ih (hbody s hs hc) hf
    | false =>
      rw [run_of_not_cond hc, Option.some.injEq] at hf
      exact hf ▸ ⟨hs, hc⟩

/-- **The simulation rule.** If `f` takes the passes of one loop to the passes of another, it
takes results to results. -/
theorem run_map {τ : Type*} {cond' : τ → Bool} {body' : τ → τ} {f : σ → τ}
    (hcond : ∀ s, cond' (f s) = cond s) (hbody : ∀ s, body' (f s) = f (body s)) (fuel : ℕ)
    (s : σ) : run cond' body' fuel (f s) = (run cond body fuel s).map f := by
  induction fuel generalizing s with
  | zero => cases hc : cond s <;> simp [run, hcond, hc]
  | succ fuel ih =>
    cases hc : cond s with
    | true => rw [run_succ_of_cond hc, run_succ_of_cond ((hcond s).trans hc), hbody, ih]
    | false =>
      rw [run_of_not_cond hc, run_of_not_cond ((hcond s).trans hc), Option.map_some]

/-! ### Counting the passes -/

variable (cond body) in
/-- The state in which the loop comes to its head behind `n` passes; `none` if it has been left
before. -/
def passes : ℕ → σ → Option σ
  | 0, s => some s
  | n + 1, s => if cond s then passes n (body s) else none

theorem passes_succ_of_cond (h : cond s = true) (n : ℕ) :
    passes cond body (n + 1) s = passes cond body n (body s) := by
  simp [passes, h]

theorem passes_add (m n : ℕ) (s : σ) :
    passes cond body (m + n) s = (passes cond body m s).bind (passes cond body n) := by
  induction m generalizing s with
  | zero => simp [passes]
  | succ m ih =>
    rw [Nat.succ_add, passes, passes]
    split
    · exact ih _
    · rfl

/-- One more pass. -/
theorem passes_succ {n : ℕ} (h : passes cond body n s = some t) (ht : cond t = true) :
    passes cond body (n + 1) s = some (body t) := by
  rw [passes_add, h, Option.bind_some, passes_succ_of_cond ht]
  rfl

/-- The loop is left where the condition fails. -/
theorem run_of_passes {n : ℕ} (h : passes cond body n s = some t) (ht : cond t = false) :
    run cond body n s = some t := by
  induction n generalizing s with
  | zero =>
    obtain rfl := Option.some.inj h
    exact run_of_not_cond ht 0
  | succ n ih =>
    rw [passes] at h
    split at h
    · next hs => rw [run_succ_of_cond hs, ih h]
    · cases h

end WhileLoop
