import Zapper.TableParser

/-!
# The slots that `parse_PAT` writes

What `parse_PAT` stores, for every buffer. It allocates as many slots as it counts programs,
examines one entry more than that, and stores each entry whose first byte is not zero to the next
slot (`parsePAT_eq`). So the slots are filled from the first one on, in the order of the
entries; as there is one entry more than slots, it takes one entry that is skipped to stay inside
the allocation, and two to leave a slot unfilled (`parsePAT_fillsSlots`).

The count is taken modulo 256, so that a section that is too short counts 253 to 255 programs.
With all of 256 entries stored, the index of the next slot wraps around, behind the last store.
-/

namespace Zapper

open Memory

/-! ### The entries -/

/-- The offsets of the entries that `parse_PAT` examines. -/
def examined (buffer : Buffer) : List ℕ :=
  (List.range (progCount (sectionLength buffer) + 1)).map fun i => 8 + i * 4

/-- The offsets of the entries that it stores: the first byte is not zero. -/
def taken (buffer : Buffer) : List ℕ := (examined buffer).filter fun p => buffer p ≠ 0

/-- What it stores for the entry at an offset. -/
def storePATEntry (buffer : Buffer) (p : ℕ) (pmt : PMT) : PMT :=
  { pmt with
    prNum := be16 (buffer p) (buffer (p + 1))
    tableId := be16 (buffer (p + 2)) (buffer (p + 3)) &&& 0x1FFF }

variable {buffer : Buffer}

theorem length_examined (buffer : Buffer) :
    (examined buffer).length = progCount (sectionLength buffer) + 1 := by simp [examined]

theorem progCount_le (n : ℕ) : progCount n ≤ 255 := by
  unfold progCount
  omega

/-- Each entry is stored or skipped. -/
theorem length_taken_add (buffer : Buffer) :
    (taken buffer).length + (examined buffer).countP (fun p => buffer p = 0) =
      progCount (sectionLength buffer) + 1 := by
  rw [← length_examined, (examined buffer).length_eq_length_filter_add fun p => buffer p ≠ 0,
    List.countP_eq_length_filter, taken]
  refine congrArg (_ + ·) (congrArg List.length (List.filter_congr fun p _ => ?_))
  simp

/-! ### The stores -/

/-- The loop stores the entries that it takes to consecutive slots. -/
theorem foldl_parsePATEntry (buffer : Buffer) (ps : List ℕ) (pat : PAT) (j : ℕ)
    (hj : j + ps.length ≤ 256) :
    (ps.foldl (parsePATEntry buffer) (pat, j)).1 =
      { pat with
        pmts := pat.pmts.modifyFrom j
          ((ps.filter fun p => buffer p ≠ 0).map (storePATEntry buffer)) } := by
  induction ps generalizing pat j with
  | nil => rfl
  | cons p ps ih =>
    rw [List.length_cons] at hj
    rw [List.foldl_cons, List.filter_cons]
    by_cases hp : buffer p ≠ 0
    · rw [parsePATEntry, if_pos hp, if_pos (by simpa using hp), List.map_cons, Block.modifyFrom]
      rcases Nat.eq_zero_or_pos ps.length with hnil | hpos
      · -- behind the last entry the index may wrap around, which no store sees
        rw [List.length_eq_zero_iff] at hnil
        subst hnil
        rfl
      · rw [Nat.mod_eq_of_lt (by omega), ih _ _ (by omega)]
        rfl
    · rw [parsePATEntry, if_neg hp, if_neg (by simpa using hp), ih _ _ (by omega)]

/-- **What `parse_PAT` makes of any buffer.** -/
theorem parsePAT_eq (junk : ℕ → PMT) (buffer : Buffer) :
    parsePAT junk buffer =
      { sectionLength := sectionLength buffer
        pmtCount := progCount (sectionLength buffer)
        pmts := (malloc junk (progCount (sectionLength buffer))).modifyFrom 0
          ((taken buffer).map (storePATEntry buffer)) } := by
  have hle := progCount_le (sectionLength buffer)
  have hfold := foldl_parsePATEntry buffer (examined buffer)
    ⟨sectionLength buffer, progCount (sectionLength buffer),
      malloc junk (progCount (sectionLength buffer))⟩ 0 (by rw [length_examined]; omega)
  rw [examined, List.foldl_map] at hfold
  exact hfold

/-- The slots of a parsed PAT: written from the first one on, in the order of the entries that are
taken; inside the allocation if and only if an entry is skipped, all of them filled if and only if
at most one is, and outside of the allocation one slot at most. -/
structure FillsSlots (junk : ℕ → PMT) (buffer : Buffer) (pat : PAT) : Prop where
  count : pat.pmtCount + 1 = (examined buffer).length
  size : pat.pmts.size = pat.pmtCount
  stores : pat.pmts =
    (malloc junk pat.pmtCount).modifyFrom 0 ((taken buffer).map (storePATEntry buffer))
  le : (taken buffer).length ≤ 256
  written : ∀ i, pat.pmts.written i = true ↔ i < (taken buffer).length
  cell : ∀ i, (hi : i < (taken buffer).length) →
    pat.pmts.cell i = storePATEntry buffer (taken buffer)[i] (junk i)
  inBounds : pat.pmts.InBounds ↔ ∃ p ∈ examined buffer, buffer p = 0
  filled : pat.pmts.FilledTo pat.pmtCount ↔ (examined buffer).countP (fun p => buffer p = 0) ≤ 1
  overrun : ¬ pat.pmts.InBounds →
    ∀ i, pat.pmts.size ≤ i ∧ pat.pmts.written i = true ↔ i = pat.pmts.size

/-- **The slots that `parse_PAT` writes**, for every section length and every content. -/
theorem parsePAT_fillsSlots (junk : ℕ → PMT) (buffer : Buffer) :
    FillsSlots junk buffer (parsePAT junk buffer) := by
  have hle := progCount_le (sectionLength buffer)
  have hsum := length_taken_add buffer
  have hwritten : ∀ i, (parsePAT junk buffer).pmts.written i = true ↔
      i < (taken buffer).length := by
    intro i
    rw [parsePAT_eq, Block.written_modifyFrom]
    simp [malloc]
  have hsize : (parsePAT junk buffer).pmts.size = progCount (sectionLength buffer) := by
    rw [parsePAT_eq, Block.size_modifyFrom]
    rfl
  have hcount : (parsePAT junk buffer).pmtCount = progCount (sectionLength buffer) := by
    rw [parsePAT_eq]
  have hbounds : (parsePAT junk buffer).pmts.InBounds ↔
      (taken buffer).length ≤ progCount (sectionLength buffer) := by
    simp only [Block.InBounds, hwritten, hsize]
    exact ⟨fun h => not_lt.mp fun hlt => (h _ hlt).ne rfl, fun h i hi => hi.trans_le h⟩
  refine ⟨by rw [hcount, length_examined], by rw [hsize, hcount], by rw [parsePAT_eq], by omega,
    hwritten, fun i hi => ?_, ?_, ?_, fun hout i => ?_⟩
  · have hi' : i < ((taken buffer).map (storePATEntry buffer)).length := by simpa using hi
    have hcell := Block.cell_modifyFrom (malloc junk (progCount (sectionLength buffer))) 0 hi'
    simp only [Nat.zero_add] at hcell
    rw [parsePAT_eq]
    simpa [malloc] using hcell
  · rw [hbounds]
    have hpos : 0 < (examined buffer).countP (fun p => buffer p = 0) ↔
        ∃ p ∈ examined buffer, buffer p = 0 := by simp [List.countP_pos_iff]
    rw [← hpos]
    omega
  · simp only [Block.FilledTo, hwritten, hcount]
    constructor
    · intro h
      by_contra hgt
      exact (h (taken buffer).length (by omega)).ne rfl
    · intro h i hi
      omega
  · rw [hbounds] at hout
    rw [hwritten, hsize]
    omega

end Zapper
