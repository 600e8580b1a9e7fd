import Zapper.Lib.Transition

/-!
# Progress by a measure

What a system of `Zapper.Lib.Transition` can still do, and for how long.

* `CanReach step Q n s`: some run of at most `n` steps leads from `s` to a state that satisfies `Q`.
  `canReach_of_measure` is the rule for it: if every state of an invariant satisfies `Q`, or leads
  in at most `k` steps to a state of the invariant with a smaller measure, then `Q` is reached from
  everywhere in the invariant, in at most `k` steps for each unit of the measure.
* `count_le_of_measure`: if no step increases a measure, and those of a kind decrease it, then no
  run has more steps of this kind than the measure was at its start.
-/

namespace Transition

variable {σ ℓ : Type*} {step : σ → ℓ → Option σ} {P Q I : σ → Prop} {s t u : σ} {l : ℓ}
  {ls ms : List ℓ} {m n k : ℕ}

theorem exec_append : exec step s (ls ++ ms) = (exec step s ls).bind fun t => exec step t ms := by
  induction ls generalizing s with
  | nil => rfl
  | cons l ls ih =>
    simp only [List.cons_append, exec]
    cases step s l with
    | none => rfl
    | some s' => exact ih

/-- What every step keeps, a run keeps. -/
theorem exec_invariant (hI : ∀ u l u', I u → step u l = some u' → I u') (hs : I s)
    (h : exec step s ls = some t) : I t :=
  (always_of_step hs meets_true fun u l u' hu _ hstep => hI u l u' hu hstep).exec h

/-! ### What can be reached -/

variable (step)

/-- A run of at most `n` steps leads to a state that satisfies `Q`. -/
def CanReach (Q : σ → Prop) (n : ℕ) (s : σ) : Prop :=
  ∃ ls t, ls.length ≤ n ∧ exec step s ls = some t ∧ Q t

variable {step}

theorem canReach_of_holds (h : Q s) : CanReach step Q n s := ⟨[], s, Nat.zero_le n, rfl, h⟩

theorem canReach_of_step (h : step s l = some t) (ht : CanReach step Q n t) :
    CanReach step Q (n + 1) s := by
  obtain ⟨ls, u, hlen, hexec, hu⟩ := ht
  refine ⟨l :: ls, u, Nat.succ_le_succ hlen, ?_, hu⟩
  rw [exec, h]
  exact hexec

theorem CanReach.mono (hmn : m ≤ n) (hPQ : ∀ u, P u → Q u) (h : CanReach step P m s) :
    CanReach step Q n s := by
  obtain ⟨ls, t, hlen, hexec, ht⟩ := h
  exact ⟨ls, t, Nat.le_trans hlen hmn, hexec, hPQ t ht⟩

/-- One run behind another. -/
theorem CanReach.trans (h : CanReach step P m s) (hPQ : ∀ u, P u → CanReach step Q n u) :
    CanReach step Q (m + n) s := by
  obtain ⟨ls, t, hlen, hexec, ht⟩ := h
  obtain ⟨ms, u, hlen', hexec', hu⟩ := hPQ t ht
  refine ⟨ls ++ ms, u, ?_, ?_, hu⟩
  · rw [List.length_append]
    omega
  · rw [exec_append, hexec]
    exact hexec'

/-- **Progress.** If from every state of an invariant one gets to `Q`, or in at most `k` steps to a
state of the invariant with a smaller measure, one gets to `Q`. -/
theorem canReach_of_measure (rank : σ → ℕ)
    (hstep : ∀ u, I u → Q u ∨ CanReach step (fun v => I v ∧ rank v < rank u) k u) (hs : I s) :
    CanReach step Q (k * rank s) s := by
  induction h : rank s using Nat.strongRecOn generalizing s with
  | ind r ih =>
    rcases hstep s hs with hQ | hprogress
    · exact canReach_of_holds hQ
    · obtain ⟨ls, t, hlen, hexec, ht, hrank⟩ := hprogress
      rw [h] at hrank
      have hreach : CanReach step Q (k + k * rank t) s :=
        CanReach.trans (P := fun v => v = t) ⟨ls, t, hlen, hexec, rfl⟩ fun v hv => by
          rw [hv]
          exact ih (rank t) hrank ht rfl
      refine hreach.mono ?_ fun _ hu => hu
      calc k + k * rank t = k * (rank t + 1) := by rw [Nat.mul_succ, Nat.add_comm]
        _ ≤ k * r := Nat.mul_le_mul_left k hrank

/-! ### How long it goes on -/

/-- **Bounded.** If no step of an invariant increases a measure, and the steps that count decrease
it, no more of these are taken than the measure is at the start. -/
theorem count_le_of_measure (counted : ℓ → Bool) (rank : σ → ℕ)
    (hstep : ∀ u l v, I u → step u l = some v →
      I v ∧ rank v + (if counted l then 1 else 0) ≤ rank u) (hs : I s)
    (h : exec step s ls = some t) : (ls.filter counted).length + rank t ≤ rank s := by
  induction ls generalizing s with
  | nil =>
    obtain rfl : s = t := by simpa [exec] using h
    simp
  | cons l ls ih =>
    obtain ⟨u, hu, hexec⟩ := Option.bind_eq_some_iff.mp h
    obtain ⟨hI, hrank⟩ := hstep s l u hs hu
    have hrest := ih hI hexec
    rw [List.filter_cons]
    by_cases hl : counted l = true
    · rw [if_pos hl] at hrank ⊢
      rw [List.length_cons]
      omega
    · rw [if_neg hl] at hrank ⊢
      omega

end Transition
