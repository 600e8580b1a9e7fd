import Mathlib.Data.List.Basic

/-!
# Runs of a labelled transition function

A system is a function `step : σ → ℓ → Option σ`: the label names what happens next, and `none`
says that it cannot happen in this state. A run is a list of labels; it goes on for as long as
its labels are enabled.

* `exec step s ls` is the state at the end of the run.
* `Always step P s ls`: every state the run visits satisfies `P`.
* `Meets step C s ls`: every step the run takes satisfies the condition `C` on the state it is
  taken in and its label.

`always_of_step` is the invariant rule for runs under a condition. `always_iff_meets` is the
rule for *exact* conditions: if, under an invariant, each step keeps `P` exactly when it meets
`C`, a run keeps `P` exactly when all its steps meet `C`. History variables are added to a system
by `withHistory`, which never changes what the system itself does (`exec_withHistory`).

A system with finer steps is taken to one with coarser steps by `Simulates`: seen through an
abstraction, each of its steps is a step of the coarser system or none. What holds throughout the
runs of the coarser system then holds throughout its runs (`Simulates.always`).
-/

namespace Transition

variable {σ ℓ γ : Type*} (step : σ → ℓ → Option σ)

/-- The state at the end of a run, `none` if one of its labels is not enabled. -/
def exec : σ → List ℓ → Option σ
  | s, [] => some s
  | s, l :: ls => (step s l).bind fun s' => exec s' ls

/-- Every state the run visits satisfies `P`. -/
def Always (P : σ → Prop) : σ → List ℓ → Prop
  | s, [] => P s
  | s, l :: ls => P s ∧ ∀ s', step s l = some s' → Always P s' ls

/-- Every step the run takes meets `C`. -/
def Meets (C : σ → ℓ → Prop) : σ → List ℓ → Prop
  | _, [] => True
  | s, l :: ls => ∀ s', step s l = some s' → C s l ∧ Meets C s' ls

variable {step} {P Q : σ → Prop} {C : σ → ℓ → Prop} {s t : σ} {l : ℓ} {ls : List ℓ}

theorem Always.head (h : Always step P s ls) : P s := by
  cases ls with
  | nil => exact h
  | cons l ls => exact h.1

theorem Always.mono (hPQ : ∀ u, P u → Q u) (h : Always step P s ls) : Always step Q s ls := by
  induction ls generalizing s with
  | nil => exact hPQ s h
  | cons l ls ih => exact ⟨hPQ s h.1, fun s' hs' => ih (h.2 s' hs')⟩

/-- The last state of a run is one of the states it visits. -/
theorem Always.exec (h : Always step P s ls) (ht : exec step s ls = some t) : P t := by
  induction ls generalizing s with
  | nil =>
    obtain rfl : s = t := by simpa [Transition.exec] using ht
    exact h
  | cons l ls ih =>
    obtain ⟨s', hs', hls⟩ := Option.bind_eq_some_iff.mp ht
    exact ih (h.2 s' hs') hls

/-- What is observed of the last state of a run is observed of a state that satisfies `P`. -/
theorem Always.observe {β : Type*} {f : σ → β} {b : β} (h : Always step P s ls)
    (hb : (Transition.exec step s ls).map f = some b) : ∃ t, P t ∧ f t = b := by
  obtain ⟨t, ht, htb⟩ := Option.map_eq_some_iff.mp hb
  exact ⟨t, h.exec ht, htb⟩

/-- **The invariant rule for runs.** An invariant kept by every step that meets `C` holds
throughout every run all of whose steps meet `C`. -/
theorem always_of_step (hs : P s) (hC : Meets step C s ls)
    (hstep : ∀ u l u', P u → C u l → step u l = some u' → P u') : Always step P s ls := by
  induction ls generalizing s with
  | nil => exact hs
  | cons l ls ih =>
    refine ⟨hs, fun s' hs' => ?_⟩
    obtain ⟨hl, hls⟩ := hC s' hs'
    exact ih (hstep s l s' hs hl hs') hls

/-- **The rule for exact conditions.** Let `I` be an invariant. If a step taken where `I` and `P`
hold keeps `P` exactly when it meets `C`, then a run keeps `P` exactly when all its steps meet
`C`. -/
theorem always_iff_meets {I : σ → Prop} (hI : I s) (hs : P s)
    (hinv : ∀ u l u', I u → step u l = some u' → I u')
    (hstep : ∀ u l u', I u → P u → step u l = some u' → (P u' ↔ C u l)) :
    Always step P s ls ↔ Meets step C s ls := by
  induction ls generalizing s with
  | nil => exact ⟨fun _ => trivial, fun _ => hs⟩
  | cons l ls ih =>
    constructor
    · rintro ⟨-, h⟩ s' hs'
      have hP : P s' := (h s' hs').head
      exact ⟨(hstep s l s' hI hs hs').mp hP, (ih (hinv s l s' hI hs') hP).mp (h s' hs')⟩
    · refine fun h => ⟨hs, fun s' hs' => ?_⟩
      obtain ⟨hC, hls⟩ := h s' hs'
      exact (ih (hinv s l s' hI hs') ((hstep s l s' hI hs hs').mpr hC)).mpr hls

/-- The rule for exact conditions in the runs that meet `D`, with an invariant that is kept only as
long as `P` holds. -/
theorem always_iff_meets_of_meets {I : σ → Prop} {D : σ → ℓ → Prop} (hD : Meets step D s ls)
    (hI : I s) (hs : P s) (hinv : ∀ u l u', I u → P u → D u l → step u l = some u' → I u')
    (hstep : ∀ u l u', I u → P u → D u l → step u l = some u' → (P u' ↔ C u l)) :
    Always step P s ls ↔ Meets step C s ls := by
  induction ls generalizing s with
  | nil => exact ⟨fun _ => trivial, fun _ => hs⟩
  | cons l ls ih =>
    constructor
    · rintro ⟨-, h⟩ s' hs'
      obtain ⟨hl, hrest⟩ := hD s' hs'
      have hP : P s' := (h s' hs').head
      exact ⟨(hstep s l s' hI hs hl hs').mp hP,
        (ih hrest (hinv s l s' hI hs hl hs') hP).mp (h s' hs')⟩
    · refine fun h => ⟨hs, fun s' hs' => ?_⟩
      obtain ⟨hl, hrest⟩ := hD s' hs'
      obtain ⟨hC, hls⟩ := h s' hs'
      exact (ih hrest (hinv s l s' hI hs hl hs') ((hstep s l s' hI hs hl hs').mpr hC)).mpr hls

theorem meets_true : Meets step (fun _ _ => True) s ls := by
  induction ls generalizing s with
  | nil => trivial
  | cons l ls ih => exact fun _ _ => ⟨trivial, ih⟩

/-- A condition on the labels alone. -/
theorem meets_of_forall {D : ℓ → Prop} (h : ∀ l ∈ ls, D l) : Meets step (fun _ l => D l) s ls := by
  induction ls generalizing s with
  | nil => trivial
  | cons l ls ih => exact fun s' _ => ⟨h l (by simp), ih fun l' hl' => h l' (by simp [hl'])⟩

theorem Meets.and {D : σ → ℓ → Prop} (hC : Meets step C s ls) (hD : Meets step D s ls) :
    Meets step (fun u l => C u l ∧ D u l) s ls := by
  induction ls generalizing s with
  | nil => trivial
  | cons l ls ih =>
    intro s' hs'
    exact ⟨⟨(hC s' hs').1, (hD s' hs').1⟩, ih (hC s' hs').2 (hD s' hs').2⟩

theorem Meets.mono {D : σ → ℓ → Prop} (hCD : ∀ u l, C u l → D u l) (h : Meets step C s ls) :
    Meets step D s ls := by
  induction ls generalizing s with
  | nil => trivial
  | cons l ls ih =>
    intro s' hs'
    exact ⟨hCD s l (h s' hs').1, ih (h s' hs').2⟩

/-! ### Checking runs -/

instance Always.decidable [∀ u, Decidable (P u)] : ∀ s ls, Decidable (Always step P s ls)
  | s, [] => inferInstanceAs (Decidable (P s))
  | s, l :: ls =>
    match h : step s l with
    | none => decidable_of_iff (P s) (by simp [Always, h])
    | some s' =>
      haveI := Always.decidable s' ls
      decidable_of_iff (P s ∧ Always step P s' ls) (by simp [Always, h])

instance Meets.decidable [∀ u l, Decidable (C u l)] : ∀ s ls, Decidable (Meets step C s ls)
  | _, [] => isTrue trivial
  | s, l :: ls =>
    match h : step s l with
    | none => isTrue (by simp [Meets, h])
    | some s' =>
      haveI := Meets.decidable s' ls
      decidable_of_iff (C s l ∧ Meets step C s' ls) (by simp [Meets, h])

/-! ### History variables -/

/-- The system together with a history variable, updated at each step from the states before
and after it and the label. -/
def withHistory (step : σ → ℓ → Option σ) (upd : σ → ℓ → σ → γ → γ) (x : σ × γ) (l : ℓ) :
    Option (σ × γ) :=
  (step x.1 l).map fun s' => (s', upd x.1 l s' x.2)

variable {upd : σ → ℓ → σ → γ → γ} {g : γ}

theorem withHistory_eq_some {x y : σ × γ} :
    withHistory step upd x l = some y ↔ step x.1 l = some y.1 ∧ y.2 = upd x.1 l y.1 x.2 := by
  rw [withHistory, Option.map_eq_some_iff]
  constructor
  · rintro ⟨s', hs', rfl⟩
    exact ⟨hs', rfl⟩
  · rintro ⟨hs', hg⟩
    exact ⟨y.1, hs', Prod.ext rfl hg.symm⟩

/-- The history variable only watches: forgetting it gives back the run of the system. -/
theorem exec_withHistory :
    (exec (withHistory step upd) (s, g) ls).map Prod.fst = exec step s ls := by
  induction ls generalizing s g with
  | nil => rfl
  | cons l ls ih =>
    simp only [exec, withHistory]
    cases hs : step s l with
    | none => rfl
    | some s' =>
      simp only [Option.map_some, Option.bind_some]
      exact ih

/-! ### Simulation -/

variable {τ : Type*} {fine : σ → ℓ → Option σ} {coarse : τ → ℓ → Option τ} {abs : σ → τ}
  {I : σ → Prop} {D : τ → ℓ → Prop} {R : τ → Prop} {x y : σ}

/-- Under the invariant `I`, a step of `fine` that meets `C` is, seen through `abs`, a step of
`coarse` that meets `D`, or none. -/
def Simulates (fine : σ → ℓ → Option σ) (coarse : τ → ℓ → Option τ) (abs : σ → τ) (I : σ → Prop)
    (C : σ → ℓ → Prop) (D : τ → ℓ → Prop) : Prop :=
  ∀ x l y, I x → C x l → fine x l = some y →
    I y ∧ (abs y = abs x ∨ coarse (abs x) l = some (abs y) ∧ D (abs x) l)

/-- **A finer run is a coarser one**, with the steps left out that are none. -/
theorem Simulates.exec (h : Simulates fine coarse abs I C D) (hx : I x) (hC : Meets fine C x ls)
    (hy : Transition.exec fine x ls = some y) :
    I y ∧ ∃ ks, ks.Sublist ls ∧ Transition.exec coarse (abs x) ks = some (abs y) ∧
      Meets coarse D (abs x) ks := by
  induction ls generalizing x with
  | nil =>
    obtain rfl : x = y := by simpa [Transition.exec] using hy
    exact ⟨hx, [], List.Sublist.refl _, rfl, trivial⟩
  | cons l ls ih =>
    obtain ⟨u, hu, hls⟩ := Option.bind_eq_some_iff.mp hy
    obtain ⟨hl, hrest⟩ := hC u hu
    obtain ⟨hIu, habs⟩ := h x l u hx hl hu
    obtain ⟨hIy, ks, hsub, hks, hD⟩ := ih hIu hrest hls
    obtain hsame | ⟨hstep, hDl⟩ := habs
    · rw [hsame] at hks hD
      exact ⟨hIy, ks, hsub.cons l, hks, hD⟩
    · refine ⟨hIy, l :: ks, hsub.cons_cons l, Option.bind_eq_some_iff.mpr ⟨_, hstep, hks⟩, ?_⟩
      intro v hv
      obtain rfl := Option.some.inj (hstep.symm.trans hv)
      exact ⟨hDl, hD⟩

/-- **What holds throughout the coarser runs** holds throughout the finer ones. -/
theorem Simulates.always (h : Simulates fine coarse abs I C D) (hx : I x) (hC : Meets fine C x ls)
    (hR : ∀ ks, Meets coarse D (abs x) ks → Always coarse R (abs x) ks) :
    Always fine (fun y => I y ∧ R (abs y)) x ls := by
  induction ls generalizing x with
  | nil => exact ⟨hx, hR [] trivial⟩
  | cons l ls ih =>
    refine ⟨⟨hx, hR [] trivial⟩, fun u hu => ?_⟩
    obtain ⟨hl, hrest⟩ := hC u hu
    obtain ⟨hIu, habs⟩ := h x l u hx hl hu
    refine ih hIu hrest fun ks hks => ?_
    obtain hsame | ⟨hstep, hDl⟩ := habs
    · rw [hsame] at hks ⊢
      exact hR ks hks
    · refine (hR (l :: ks) fun v hv => ?_).2 _ hstep
      obtain rfl := Option.some.inj (hstep.symm.trans hv)
      exact ⟨hDl, hks⟩

end Transition
