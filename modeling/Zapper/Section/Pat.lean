import Zapper.Section.Format

/-!
# The program association table

The format of a PAT section, and what `parse_PAT` makes of it. The parser counts the programs
from the section length, taking exactly one entry for the network entry, but decides entry by
entry, on the *high byte* of the program number alone, which entries to store
(`parsePAT_bytes`). The two agree, and agree with the section, exactly when one entry has a
program number below 256 and this number is 0 (`parsePAT_lists_iff`).
-/

namespace Zapper

open Memory

/-- One entry of a PAT section. -/
structure PatEntry where
  programNumber : Fin 65536
  reserved : Fin 8
  pid : Fin 8192
  deriving DecidableEq

/-- The four bytes of an entry. -/
def PatEntry.bytes (e : PatEntry) : List UInt8 :=
  bytes16 e.programNumber ++ packed 5 e.reserved e.pid

@[simp]
theorem PatEntry.length_bytes (e : PatEntry) : e.bytes.length = 4 := rfl

/-- A PAT section with up to 253 entries. -/
structure PatSection where
  flags : Fin 16
  transportStreamId : Fin 65536
  version : UInt8
  sectionNumber : UInt8
  lastSectionNumber : UInt8
  entries : List PatEntry
  entries_le : entries.length ≤ 253
  crc : Crc

namespace PatSection

variable (sec : PatSection)

/-- The bytes in front of the entries. -/
def head : List UInt8 :=
  sectionHead 0x00 sec.flags (9 + 4 * sec.entries.length) ++ bytes16 sec.transportStreamId ++
    [sec.version, sec.sectionNumber, sec.lastSectionNumber]

/-- The section as it is broadcast. -/
def bytes : List UInt8 :=
  sec.head ++ (sec.entries.flatMap PatEntry.bytes ++ sec.crc.bytes)

/-- The programs a section lists: all its entries but the network entries. -/
def programs : List PatEntry := sec.entries.filter fun e => e.programNumber.val ≠ 0

/-- The entries whose program number has a non-zero high byte. -/
def highEntries : List PatEntry := sec.entries.filter fun e => 256 ≤ e.programNumber.val

/-- The entries whose program number has the high byte zero. -/
def lowEntries : List PatEntry := sec.entries.filter fun e => e.programNumber.val < 256

@[simp]
theorem length_head : sec.head.length = 8 := rfl

theorem length_lowEntries_add :
    sec.lowEntries.length + sec.highEntries.length = sec.entries.length := by
  rw [sec.entries.length_eq_length_filter_add fun e => e.programNumber.val < 256, lowEntries,
    highEntries]
  refine congrArg (_ + ·) (congrArg List.length (List.filter_congr fun e _ => ?_))
  rw [← decide_not, decide_eq_decide]
  omega

/-- Exactly one entry has a program number below 256, and this number is 0. -/
def OneNetworkEntry : Prop :=
  sec.lowEntries.map (fun e => e.programNumber.val) = [0]

instance : Decidable sec.OneNetworkEntry := inferInstanceAs (Decidable (_ = _))

/-- With one network entry and no other low program number, the programs are the entries with
a non-zero high byte. -/
theorem programs_eq_highEntries (h : sec.OneNetworkEntry) : sec.programs = sec.highEntries := by
  refine List.filter_congr fun e he => ?_
  have hlow : e.programNumber.val < 256 → e.programNumber.val = 0 := by
    intro hlt
    have hmem : e.programNumber.val ∈ sec.lowEntries.map fun e => e.programNumber.val :=
      List.mem_map_of_mem (List.mem_filter.mpr ⟨he, by simpa using hlt⟩)
    rw [h] at hmem
    simpa using hmem
  rw [decide_eq_decide]
  omega

end PatSection

/-! ### What `parse_PAT` does -/

/-- What `parse_PAT` stores for an entry. -/
def PatEntry.store (e : PatEntry) (pmt : PMT) : PMT :=
  { pmt with prNum := e.programNumber, tableId := e.pid }

/-- One pass of the loop, over an entry of the section. -/
def PatEntry.pass (st : PAT × ℕ) (e : PatEntry) : PAT × ℕ :=
  if 256 ≤ e.programNumber.val then
    ({ st.1 with pmts := st.1.pmts.modify st.2 e.store }, (st.2 + 1) % 256)
  else st

theorem parsePATEntry_of_holdsAt {buffer : Buffer} {e : PatEntry} {p : ℕ} (st : PAT × ℕ)
    (h : HoldsAt buffer p e.bytes) : parsePATEntry buffer st p = e.pass st := by
  simp only [PatEntry.bytes, bytes16, packed, List.cons_append, List.nil_append, holdsAt_cons,
    holdsAt_nil, and_true] at h
  obtain ⟨h₀, h₁, h₂, h₃⟩ := h
  have hpn := e.programNumber.isLt
  have hhigh : buffer p ≠ 0 ↔ 256 ≤ e.programNumber.val := by
    rw [h₀, ne_eq, ← UInt8.toNat_inj, UInt8.toNat_ofNat', UInt8.toNat_zero]
    omega
  have hnum : be16 (buffer p) (buffer (p + 1)) = e.programNumber := by
    rw [h₀, h₁, be16_bytes16 hpn]
  have hpid : be16 (buffer (p + 2)) (buffer (p + 3)) &&& 0x1FFF = e.pid := by
    rw [h₂, h₃]
    exact be16_and_packed (k := 5) (by norm_num) e.reserved.isLt e.pid.isLt
  simp only [parsePATEntry, PatEntry.pass, hhigh, hnum, hpid]
  rfl

/-- The loop stores the entries with a non-zero high byte to consecutive slots. -/
theorem foldl_pass (es : List PatEntry) (pat : PAT) (j : ℕ) (hj : j + es.length ≤ 256) :
    (es.foldl PatEntry.pass (pat, j)).1 =
      { pat with
        pmts := pat.pmts.modifyFrom j
          ((es.filter fun e => 256 ≤ e.programNumber.val).map PatEntry.store) } := by
  induction es generalizing pat j with
  | nil => rfl
  | cons e es ih =>
    rw [List.length_cons] at hj
    rw [List.foldl_cons, List.filter_cons]
    by_cases he : 256 ≤ e.programNumber.val
    · rcases Nat.eq_zero_or_pos es.length with hnil | hpos
      · -- behind the last entry the index may wrap to `0`, which no store sees
        rw [List.length_eq_zero_iff] at hnil
        simp [hnil, PatEntry.pass, he, Block.modifyFrom]
      · rw [PatEntry.pass, if_pos he, Nat.mod_eq_of_lt (by omega), ih _ _ (by omega)]
        simp [he, Block.modifyFrom]
    · rw [PatEntry.pass, if_neg he, ih _ _ (by omega)]
      simp [he]

namespace PatSection

variable (sec : PatSection) (junk : ℕ → PMT) (rest : Buffer)

theorem sectionLength_bytes :
    sectionLength (withTail sec.bytes rest) = 9 + 4 * sec.entries.length := by
  have hle := sec.entries_le
  have h := holdsAt_withTail sec.bytes rest
  rw [bytes, head, List.append_assoc, List.append_assoc, holdsAt_append] at h
  exact sectionLength_of_holdsAt (by omega) h.1

theorem holdsAt_entries :
    HoldsAt (withTail sec.bytes rest) 8 (sec.entries.flatMap PatEntry.bytes) := by
  have h := holdsAt_withTail sec.bytes rest
  rw [bytes, holdsAt_append, holdsAt_append] at h
  exact h.2.1

/-- A section without entries makes the program count wrap around to 255. -/
theorem parsePAT_pmtCount_of_nil (h : sec.entries = []) :
    (parsePAT junk (withTail sec.bytes rest)).pmtCount = 255 := by
  have hcount : ∀ (buffer : Buffer) (is : List ℕ) (st : PAT × ℕ),
      (is.foldl (fun st i => parsePATEntry buffer st (8 + i * 4)) st).1.pmtCount =
        st.1.pmtCount := by
    intro buffer is
    induction is with
    | nil => intro st; rfl
    | cons i is ih =>
      intro st
      rw [List.foldl_cons, ih, parsePATEntry]
      split <;> rfl
  rw [parsePAT, hcount, sectionLength_bytes, h]
  rfl

/-- **What `parse_PAT` makes of a section with at least one entry**: one slot less than there
are entries, and the entries with a non-zero high byte stored from slot 0 on. -/
theorem parsePAT_bytes (h : sec.entries ≠ []) :
    parsePAT junk (withTail sec.bytes rest) =
      { sectionLength := 9 + 4 * sec.entries.length
        pmtCount := sec.entries.length - 1
        pmts := (malloc junk (sec.entries.length - 1)).modifyFrom 0
          (sec.highEntries.map PatEntry.store) } := by
  have hle := sec.entries_le
  have hpos : 0 < sec.entries.length := List.length_pos_iff.mpr h
  have hcount : progCount (9 + 4 * sec.entries.length) = sec.entries.length - 1 := by
    rw [progCount, show ((9 + 4 * sec.entries.length : ℕ) : ℤ) - 9 =
      4 * (sec.entries.length : ℤ) by push_cast; ring, Int.mul_tdiv_cancel_left _ (by norm_num)]
    omega
  have hstarts : ∀ (es : List PatEntry) (p : ℕ),
      (List.range es.length).map (fun i => p + i * 4) =
        RecordWalk.starts PatEntry.bytes p es := by
    intro es
    induction es with
    | nil => intro p; rfl
    | cons e es ih =>
      intro p
      rw [List.length_cons, List.range_succ_eq_map, List.map_cons, List.map_map,
        RecordWalk.starts, PatEntry.length_bytes, ← ih (p + 4)]
      refine congrArg₂ _ (by simp) (List.map_congr_left fun i _ => ?_)
      simp only [Function.comp_apply]
      omega
  have hwalk : ∀ st, (RecordWalk.starts PatEntry.bytes 8 sec.entries).foldl
      (fun st p => parsePATEntry (withTail sec.bytes rest) st p) st =
        sec.entries.foldl PatEntry.pass st := fun st =>
    RecordWalk.foldl_starts (fun e _ p a he => parsePATEntry_of_holdsAt a he)
      (sec.holdsAt_entries rest)
  have hfold : ∀ st, (List.range sec.entries.length).foldl
      (fun st i => parsePATEntry (withTail sec.bytes rest) st (8 + i * 4)) st =
        sec.entries.foldl PatEntry.pass st := by
    intro st
    rw [← hwalk, ← hstarts, List.foldl_map]
  simp only [parsePAT, sectionLength_bytes, hcount]
  rw [Nat.sub_add_cancel hpos, hfold, foldl_pass _ _ _ (by omega)]
  rfl

/-- Filling one slot less than there are entries takes all entries but one. -/
theorem highEntries_of_filledTo
    (h : ((malloc junk (sec.entries.length - 1)).modifyFrom 0
      (sec.highEntries.map PatEntry.store)).FilledTo (sec.entries.length - 1)) :
    sec.entries.length - 1 ≤ sec.highEntries.length := by
  by_contra hlt
  have hw := h sec.highEntries.length (by omega)
  rw [Block.written_modifyFrom] at hw
  simp [malloc] at hw

/-- If one entry is no program and all entries but one have a non-zero high byte, the entry
without one is the network entry. -/
theorem oneNetworkEntry_of_length (hne : sec.entries ≠ [])
    (hcount : sec.entries.length - 1 = sec.programs.length)
    (hhigh : sec.entries.length - 1 ≤ sec.highEntries.length) : sec.OneNetworkEntry := by
  have hpos : 0 < sec.entries.length := List.length_pos_iff.mpr hne
  have hsum := sec.length_lowEntries_add
  -- some entry has program number 0, and it is among the at most one low entries
  obtain ⟨e, he, hzero⟩ : ∃ e ∈ sec.entries, e.programNumber.val = 0 := by
    by_contra hnone
    push Not at hnone
    have : sec.programs = sec.entries :=
      List.filter_eq_self.mpr fun e he => by simpa using hnone e he
    rw [this] at hcount
    omega
  have hmem : e ∈ sec.lowEntries := List.mem_filter.mpr ⟨he, by simp [hzero]⟩
  have hone : sec.lowEntries.length = 1 := by
    have := List.length_pos_of_mem hmem
    omega
  obtain ⟨e', he'⟩ := List.length_eq_one_iff.mp hone
  rw [he', List.mem_singleton] at hmem
  rw [OneNetworkEntry, he', ← hmem, List.map_singleton, hzero]

end PatSection

/-! ### When the table lists the programs of the section -/

/-- The table lists exactly these programs: it counts them, and its slots hold their numbers
and PMT PIDs in this order, with no slot left as `malloc` returned it. -/
def PAT.Lists (pat : PAT) (programs : List PatEntry) : Prop :=
  pat.pmtCount = programs.length ∧ pat.pmts.FilledTo pat.pmtCount ∧
    ∀ k, (hk : k < programs.length) →
      (pat.pmts.cell k).prNum = programs[k].programNumber ∧
        (pat.pmts.cell k).tableId = programs[k].pid

/-- **`parse_PAT` is right exactly for sections with one network entry and no other program
number below 256.** -/
theorem parsePAT_lists_iff (sec : PatSection) (junk : ℕ → PMT) (rest : Buffer) :
    (parsePAT junk (withTail sec.bytes rest)).Lists sec.programs ↔ sec.OneNetworkEntry := by
  rcases eq_or_ne sec.entries [] with hnil | hne
  · have hcount := sec.parsePAT_pmtCount_of_nil junk rest hnil
    refine iff_of_false (fun h => ?_) ?_
    · have := h.1
      simp [hcount, PatSection.programs, hnil] at this
    · simp [PatSection.OneNetworkEntry, PatSection.lowEntries, hnil]
  · have hpos : 0 < sec.entries.length := List.length_pos_iff.mpr hne
    have hsum := sec.length_lowEntries_add
    rw [sec.parsePAT_bytes junk rest hne]
    constructor
    · rintro ⟨hcount, hfilled, -⟩
      exact sec.oneNetworkEntry_of_length hne hcount (sec.highEntries_of_filledTo junk hfilled)
    · intro h
      have hlow : sec.lowEntries.length = 1 := by simpa using congrArg List.length h
      have hlen : sec.highEntries.length = sec.entries.length - 1 := by omega
      rw [sec.programs_eq_highEntries h]
      refine ⟨hlen.symm, fun k hk => ?_, fun k hk => ?_⟩
      · rw [Block.written_modifyFrom]
        left
        simp only at hk
        simp only [List.length_map]
        omega
      · have hk' : k < (sec.highEntries.map PatEntry.store).length := by simpa using hk
        have hcell := Block.cell_modifyFrom (malloc junk (sec.entries.length - 1)) 0 hk'
        simp only [Nat.zero_add] at hcell
        simp only [hcell, List.getElem_map, PatEntry.store, and_self]

/-- A section with the network entry and the given programs. -/
def PatSection.ofPrograms (programs : List PatEntry) (h : programs.length ≤ 252) : PatSection where
  flags := 0xB
  transportStreamId := 1
  version := 0xC1
  sectionNumber := 0
  lastSectionNumber := 0
  entries := ⟨0, 7, 16⟩ :: programs
  entries_le := Nat.succ_le_succ h
  crc := ⟨0, 0, 0, 0⟩

/-- The network entry and one program with the number 5. -/
def lowProgramSection : PatSection := .ofPrograms [⟨5, 7, 256⟩] (by decide)

/-- Program 5 is dropped: its slot is counted, but stays as `malloc` returned it. -/
theorem not_forall_parsePAT_lists : ¬ ∀ (sec : PatSection) (junk : ℕ → PMT) (rest : Buffer),
    (parsePAT junk (withTail sec.bytes rest)).Lists sec.programs := by
  intro h
  obtain ⟨-, hfilled, -⟩ := h lowProgramSection (fun _ => default) fun _ => 0
  have hslot : (parsePAT (fun _ => default)
      (withTail lowProgramSection.bytes fun _ => 0)).pmts.written 0 = false := by decide
  exact absurd (hfilled 0 (by decide)) (by simp [hslot])

end Zapper
