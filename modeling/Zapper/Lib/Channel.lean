import Mathlib.Data.List.Basic

/-!
# Channels

A channel keeps what is sent in order: `send` puts a message behind those that wait, `receive` takes
the first of them, if there is one.

* `taken_append_pending`: in every run, what has been taken and what still waits are together what
  has been sent, in that order. Nothing is lost, nothing is taken twice.
* `pending_run_receives`: enough receptions leave nothing waiting.
* `simulates`: a system whose steps are operations of a channel, in the states a relation connects,
  runs as the channel does.
-/

namespace Channel

variable {α σ ℓ : Type*}

/-- An operation. -/
inductive Op (α : Type*)
  | send (a : α)
  | receive

/-- The messages that wait, and those that have been taken. -/
structure State (α : Type*) where
  pending : List α
  taken : List α

/-- The channel before any operation. -/
def State.empty : State α := ⟨[], []⟩

/-- One operation. -/
def step (s : State α) : Op α → State α
  | .send a => { s with pending := s.pending ++ [a] }
  | .receive =>
    match s.pending with
    | [] => s
    | a :: rest => ⟨rest, s.taken ++ [a]⟩

/-- A sequence of operations. -/
def run (s : State α) (ops : List (Op α)) : State α := ops.foldl step s

/-- The message an operation sends. -/
def Op.message : Op α → List α
  | send a => [a]
  | receive => []

/-- The messages a sequence of operations sends. -/
def sent (ops : List (Op α)) : List α := ops.flatMap Op.message

theorem taken_append_pending_step (s : State α) (op : Op α) :
    (step s op).taken ++ (step s op).pending = s.taken ++ s.pending ++ op.message := by
  cases op with
  | send a => simp [step, Op.message]
  | receive =>
    obtain ⟨pending, taken⟩ := s
    cases pending with
    | nil => simp [step, Op.message]
    | cons a rest => simp [step, Op.message]

/-- **Nothing is lost and nothing is taken twice.** -/
theorem taken_append_pending (s : State α) (ops : List (Op α)) :
    (run s ops).taken ++ (run s ops).pending = s.taken ++ s.pending ++ sent ops := by
  induction ops generalizing s with
  | nil => simp [run, sent]
  | cons op ops ih =>
    have hcons : sent (op :: ops) = op.message ++ sent ops := rfl
    calc (run s (op :: ops)).taken ++ (run s (op :: ops)).pending
        = (step s op).taken ++ (step s op).pending ++ sent ops := ih (step s op)
      _ = s.taken ++ s.pending ++ sent (op :: ops) := by
        rw [taken_append_pending_step, hcons, List.append_assoc]

theorem run_append (s : State α) (ops ops' : List (Op α)) :
    run s (ops ++ ops') = run (run s ops) ops' := List.foldl_append

/-- Receiving sends nothing. -/
theorem sent_receives (n : ℕ) : sent (List.replicate n (Op.receive : Op α)) = [] := by
  rw [sent, List.flatMap_replicate]
  simp [Op.message]

/-- **Enough receptions leave nothing waiting.** -/
theorem pending_run_receives {s : State α} {n : ℕ} (h : s.pending.length ≤ n) :
    (run s (List.replicate n .receive)).pending = [] := by
  induction n generalizing s with
  | zero => exact List.length_eq_zero_iff.mp (Nat.le_zero.mp h)
  | succ n ih =>
    rw [List.replicate_succ]
    refine ih (s := step s .receive) ?_
    obtain ⟨pending, taken⟩ := s
    cases pending with
    | nil => exact Nat.zero_le n
    | cons a rest => exact Nat.le_of_succ_le_succ h

/-- **Simulation.** If each step of a system does to related states what an operation does to the
channel, so does every run. -/
theorem simulates {R : σ → State α → Prop} {next : σ → ℓ → σ} {op : ℓ → Op α} {ls : List ℓ}
    (hstep : ∀ l ∈ ls, ∀ s c, R s c → R (next s l) (step c (op l))) {s : σ} {c : State α}
    (h : R s c) : R (ls.foldl next s) (run c (ls.map op)) := by
  induction ls generalizing s c with
  | nil => exact h
  | cons l ls ih =>
    exact ih (fun l' hl' => hstep l' (by simp [hl'])) (hstep l (by simp) s c h)

end Channel
