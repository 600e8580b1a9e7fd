import Zapper.Lib.Memory
import Zapper.Lib.WhileLoop

/-!
# Walking a stream of length-prefixed records

Parsers of broadcast tables walk a byte buffer record by record: a cursor holds a pointer `pos`
and a counter `left` of the bytes that remain. One pass reads the record at the pointer, then
moves the pointer over it and takes its size off the counter; the loop ends when the counter is
*exactly* zero. The counter is an unsigned machine word of `w` bits, so a record that claims
more bytes than remain makes it wrap around.

The one fact needed about such a loop is `exits_iff_of_holdsAt`: over whole records it advances
record by record, whatever lies behind them. Two consequences are `exits_of_holdsAt` (a stream
of whole records is walked to its end) and `foldl_starts` (when reading a record depends on the
record only, the result is a fold over the records).

Where a walk goes does not depend on what it reads: over any buffer, its result is a fold over
the `places` it visits (`run_acc`).
-/

namespace RecordWalk

open Memory

variable {α β ρ : Type*}

/-- The state of the walk: bytes that remain, pointer, and what has been read so far. -/
structure Cursor (β : Type*) where
  left : ℕ
  pos : ℕ
  acc : β

/-- The loop condition: bytes remain. -/
def more (c : Cursor β) : Bool := c.left != 0

/-- One pass over the record at the pointer; the counter is a `w`-bit word. -/
def pass (w : ℕ) (size : ℕ → ℕ) (read : ℕ → β → β) (c : Cursor β) : Cursor β where
  left := (((c.left : ℤ) - size c.pos) % 2 ^ w).toNat
  pos := c.pos + size c.pos
  acc := read c.pos c.acc

/-- The offsets at which the records start when they are laid out from `pos` on. -/
def starts (enc : ρ → List α) : ℕ → List ρ → List ℕ
  | _, [] => []
  | pos, r :: rs => pos :: starts enc (pos + (enc r).length) rs

@[simp]
theorem length_starts (enc : ρ → List α) (pos : ℕ) (rs : List ρ) :
    (starts enc pos rs).length = rs.length := by
  induction rs generalizing pos with
  | nil => rfl
  | cons r rs ih => rw [starts, List.length_cons, ih, List.length_cons]

/-- Each record lies at its own start. -/
theorem holdsAt_starts {enc : ρ → List α} {buf : ℕ → α} {pos : ℕ} {rs : List ρ}
    (h : HoldsAt buf pos (rs.flatMap enc)) {k : ℕ} (hs : k < (starts enc pos rs).length)
    (hk : k < rs.length) : HoldsAt buf (starts enc pos rs)[k] (enc rs[k]) := by
  induction rs generalizing pos k with
  | nil => simp at hk
  | cons r rs ih =>
    rw [List.flatMap_cons, holdsAt_append] at h
    cases k with
    | zero => exact h.1
    | succ k => exact ih h.2 (by simpa using hk) (by simpa using hk)

variable {w : ℕ} {size : ℕ → ℕ} {read : ℕ → β → β} {enc : ρ → List α} {buf : ℕ → α}

/-- Taking a record that fits off the counter. -/
theorem pass_of_le {c : Cursor β} {n k : ℕ} (hn : size c.pos = n) (hc : c.left = n + k)
    (hw : c.left < 2 ^ w) :
    pass w size read c = ⟨k, c.pos + n, read c.pos c.acc⟩ := by
  have hk : (((c.left : ℤ) - size c.pos) % 2 ^ w).toNat = k := by
    rw [hn, hc]
    have hlt : (k : ℤ) < 2 ^ w := by
      have : k < 2 ^ w := by omega
      exact_mod_cast this
    rw [show ((n + k : ℕ) : ℤ) - n = k by push_cast; ring,
      Int.emod_eq_of_lt (Int.natCast_nonneg k) hlt, Int.toNat_natCast]
  rw [pass, hk, hn]

/-- **Whole records are walked one by one.** A walk that starts at a sequence of whole records,
with `k` more bytes on its counter, ends as the walk started behind these records does. -/
theorem exits_iff_of_holdsAt {rs : List ρ} {pos k : ℕ} {acc : β} {t : Cursor β}
    (hsize : ∀ r ∈ rs, ∀ p, HoldsAt buf p (enc r) → size p = (enc r).length)
    (hpos : ∀ r ∈ rs, 0 < (enc r).length) (hw : (rs.flatMap enc).length + k < 2 ^ w)
    (h : HoldsAt buf pos (rs.flatMap enc)) :
    WhileLoop.Exits more (pass w size read) ⟨(rs.flatMap enc).length + k, pos, acc⟩ t ↔
      WhileLoop.Exits more (pass w size read)
        ⟨k, pos + (rs.flatMap enc).length, (starts enc pos rs).foldl (fun a p => read p a) acc⟩
        t := by
  induction rs generalizing pos acc with
  | nil => simp [starts]
  | cons r rs ih =>
    rw [List.flatMap_cons, holdsAt_append] at h
    rw [List.flatMap_cons, List.length_append] at hw ⊢
    have hr : 0 < (enc r).length := hpos r (by simp)
    have hmore : more (⟨(enc r).length + (rs.flatMap enc).length + k, pos, acc⟩ : Cursor β)
        = true := by
      simp only [more, bne_iff_ne]
      omega
    rw [WhileLoop.exits_iff_of_cond hmore,
      pass_of_le (hsize r (by simp) pos h.1) (Nat.add_assoc _ _ _) (by simpa using hw),
      ih (fun r' hr' => hsize r' (by simp [hr'])) (fun r' hr' => hpos r' (by simp [hr']))
        (by omega) h.2, starts, List.foldl_cons, Nat.add_assoc pos]

/-- **A stream of whole records is walked to its end.** -/
theorem exits_of_holdsAt {rs : List ρ} {pos : ℕ} {acc : β}
    (hsize : ∀ r ∈ rs, ∀ p, HoldsAt buf p (enc r) → size p = (enc r).length)
    (hpos : ∀ r ∈ rs, 0 < (enc r).length) (hw : (rs.flatMap enc).length < 2 ^ w)
    (h : HoldsAt buf pos (rs.flatMap enc)) :
    WhileLoop.Exits more (pass w size read) ⟨(rs.flatMap enc).length, pos, acc⟩
      ⟨0, pos + (rs.flatMap enc).length,
        (starts enc pos rs).foldl (fun a p => read p a) acc⟩ :=
  (exits_iff_of_holdsAt (k := 0) hsize hpos hw h).mpr (WhileLoop.exits_of_not_cond rfl)

/-- **Over whole records, each pass takes one of them**: behind `n` passes the walk stands in front
of the records that are left. -/
theorem passes_of_holdsAt {rs : List ρ} {pos k n : ℕ} {acc : β}
    (hsize : ∀ r ∈ rs, ∀ p, HoldsAt buf p (enc r) → size p = (enc r).length)
    (hpos : ∀ r ∈ rs, 0 < (enc r).length) (hw : (rs.flatMap enc).length + k < 2 ^ w)
    (h : HoldsAt buf pos (rs.flatMap enc)) (hn : n ≤ rs.length) :
    WhileLoop.passes more (pass w size read) n ⟨(rs.flatMap enc).length + k, pos, acc⟩ =
      some ⟨((rs.drop n).flatMap enc).length + k, pos + ((rs.take n).flatMap enc).length,
        (starts enc pos (rs.take n)).foldl (fun a p => read p a) acc⟩ := by
  induction rs generalizing pos acc n with
  | nil =>
    obtain rfl : n = 0 := by simpa using hn
    simp [WhileLoop.passes, starts]
  | cons r rs ih =>
    cases n with
    | zero => simp [WhileLoop.passes, starts]
    | succ n =>
      rw [List.flatMap_cons, holdsAt_append] at h
      rw [List.flatMap_cons, List.length_append] at hw ⊢
      have hr : 0 < (enc r).length := hpos r (by simp)
      have hmore : more (⟨(enc r).length + (rs.flatMap enc).length + k, pos, acc⟩ : Cursor β)
          = true := by
        simp only [more, bne_iff_ne]
        omega
      rw [WhileLoop.passes_succ_of_cond hmore,
        pass_of_le (hsize r (by simp) pos h.1) (Nat.add_assoc _ _ _) (by simpa using hw),
        ih (fun r' hr' => hsize r' (by simp [hr'])) (fun r' hr' => hpos r' (by simp [hr']))
          (by omega) h.2 (by simpa using hn)]
      simp [starts, Nat.add_assoc]

/-- When reading a record depends on the record only, walking is folding over the records. -/
theorem foldl_starts {upd : β → ρ → β} {rs : List ρ} {pos : ℕ} {acc : β}
    (hread : ∀ r ∈ rs, ∀ p a, HoldsAt buf p (enc r) → read p a = upd a r)
    (h : HoldsAt buf pos (rs.flatMap enc)) :
    (starts enc pos rs).foldl (fun a p => read p a) acc = rs.foldl upd acc := by
  induction rs generalizing pos acc with
  | nil => rfl
  | cons r rs ih =>
    rw [List.flatMap_cons, holdsAt_append] at h
    rw [starts, List.foldl_cons, List.foldl_cons, hread r (by simp) pos acc h.1,
      ih (fun r' hr' => hread r' (by simp [hr'])) h.2]

/-! ### The places of a walk -/

/-- The places at which a walk finds its records. -/
def places (w : ℕ) (size : ℕ → ℕ) (fuel left pos : ℕ) : Option (List ℕ) :=
  (WhileLoop.run more (pass w size fun p ps => ps ++ [p]) fuel ⟨left, pos, []⟩).map Cursor.acc

/-- **A walk reads the records at its places**, one after the other. -/
theorem run_acc (fuel left pos : ℕ) (acc : β) :
    (WhileLoop.run more (pass w size read) fuel ⟨left, pos, acc⟩).map Cursor.acc =
      (places w size fuel left pos).map fun ps => ps.foldl (fun a p => read p a) acc := by
  let f : Cursor (List ℕ) → Cursor β := fun c =>
    ⟨c.left, c.pos, c.acc.foldl (fun a p => read p a) acc⟩
  have hrun : WhileLoop.run more (pass w size read) fuel (f ⟨left, pos, []⟩) =
      (WhileLoop.run more (pass w size fun p ps => ps ++ [p]) fuel ⟨left, pos, []⟩).map f :=
    WhileLoop.run_map (fun _ => rfl) (fun c => by simp [f, pass]) fuel _
  rw [places, Option.map_map]
  exact (congrArg (Option.map Cursor.acc) hrun).trans (by rw [Option.map_map]; rfl)

end RecordWalk
