import Mathlib.Data.Multiset.AddSub

/-!
# Handles

A component hands out handles of several kinds and takes them back; in between, its calls name
them. `HandleTable` is what is live on the side of the component, and whether all calls so far
have named live handles only.

* `sound_of_run`: what has once gone wrong stays so.
* `mem_of_mem_run`: uses that acquire nothing leave no more live than before.
* `mem_of_sound`: behind such uses, a handle that is named must have been live at their start.
-/

namespace Handles

variable {κ : Type*}

/-- What a call does with a handle. -/
inductive Use (κ : Type*)
  /-- The call names a handle. -/
  | name (k : κ) (h : ℕ)
  /-- The call returns a new handle. -/
  | acquire (k : κ) (h : ℕ)
  /-- The call names a handle for the last time. -/
  | release (k : κ) (h : ℕ)

/-- The handles that are live, and whether only live ones have been named. -/
@[ext]
structure HandleTable (κ : Type*) where
  live : κ → Multiset ℕ
  sound : Bool

variable [DecidableEq κ] (T : HandleTable κ)

namespace HandleTable

/-- One use. -/
def use : Use κ → HandleTable κ
  | .name k h => { T with sound := T.sound && decide (h ∈ T.live k) }
  | .acquire k h => { T with live := fun j => if j = k then h ::ₘ T.live j else T.live j }
  | .release k h =>
    ⟨fun j => if j = k then (T.live j).erase h else T.live j, T.sound && decide (h ∈ T.live k)⟩

variable (k : κ) (h : ℕ) (j : κ)

@[simp] theorem live_use_name : (T.use (.name k h)).live j = T.live j := rfl

@[simp] theorem sound_use_name :
    (T.use (.name k h)).sound = (T.sound && decide (h ∈ T.live k)) := rfl

@[simp] theorem live_use_acquire :
    (T.use (.acquire k h)).live j = if j = k then h ::ₘ T.live j else T.live j := rfl

@[simp] theorem sound_use_acquire : (T.use (.acquire k h)).sound = T.sound := rfl

@[simp] theorem live_use_release :
    (T.use (.release k h)).live j = if j = k then (T.live j).erase h else T.live j := rfl

@[simp] theorem sound_use_release :
    (T.use (.release k h)).sound = (T.sound && decide (h ∈ T.live k)) := rfl

/-- A sequence of uses. -/
def run (us : List (Use κ)) : HandleTable κ := us.foldl use T

@[simp] theorem run_nil : T.run [] = T := rfl

@[simp] theorem run_cons (u : Use κ) (us : List (Use κ)) : T.run (u :: us) = (T.use u).run us :=
  rfl

theorem run_append (us vs : List (Use κ)) : T.run (us ++ vs) = (T.run us).run vs :=
  List.foldl_append

variable {T}

theorem sound_of_use {u : Use κ} (hu : (T.use u).sound = true) : T.sound = true := by
  cases u with
  | acquire k h => exact hu
  | name k h => exact (Bool.and_eq_true_iff.mp hu).1
  | release k h => exact (Bool.and_eq_true_iff.mp hu).1

/-- **What has once gone wrong stays so.** -/
theorem sound_of_run {us : List (Use κ)} (hus : (T.run us).sound = true) : T.sound = true := by
  induction us generalizing T with
  | nil => exact hus
  | cons u us ih => exact sound_of_use (ih hus)

end HandleTable

namespace Use

/-- The use acquires nothing. -/
def closes : Use κ → Bool
  | acquire _ _ => false
  | _ => true

/-- The kind of the handle. -/
def kind : Use κ → κ
  | name k _ => k
  | acquire k _ => k
  | release k _ => k

/-- The handle. -/
def handle : Use κ → ℕ
  | name _ h => h
  | acquire _ h => h
  | release _ h => h

end Use

namespace HandleTable

variable {T}

theorem mem_of_sound_use {u : Use κ} (hu : u.closes = true) (hsound : (T.use u).sound = true) :
    u.handle ∈ T.live u.kind := by
  cases u with
  | acquire k h => cases hu
  | name k h => exact of_decide_eq_true (Bool.and_eq_true_iff.mp hsound).2
  | release k h => exact of_decide_eq_true (Bool.and_eq_true_iff.mp hsound).2

/-- Without acquisitions nothing comes to life. -/
theorem mem_of_mem_run {us : List (Use κ)} (hus : ∀ u ∈ us, u.closes = true) {k : κ} {h : ℕ}
    (hmem : h ∈ (T.run us).live k) : h ∈ T.live k := by
  induction us generalizing T with
  | nil => exact hmem
  | cons u us ih =>
    have hmem' := ih (fun v hv => hus v (List.mem_cons_of_mem u hv)) hmem
    have hu := hus u List.mem_cons_self
    cases u with
    | acquire j i => cases hu
    | name j i => exact hmem'
    | release j i =>
      simp only [use] at hmem'
      split at hmem'
      · exact Multiset.mem_of_mem_erase hmem'
      · exact hmem'

/-- **A handle that is named behind uses that acquire nothing** was live at their start. -/
theorem mem_of_sound {us vs : List (Use κ)} {u : Use κ} (hus : ∀ v ∈ us, v.closes = true)
    (hu : u.closes = true) (hsound : (T.run (us ++ u :: vs)).sound = true) :
    u.handle ∈ T.live u.kind := by
  rw [run_append, run_cons] at hsound
  exact mem_of_mem_run hus (mem_of_sound_use hu (sound_of_run hsound))

end HandleTable

end Handles
