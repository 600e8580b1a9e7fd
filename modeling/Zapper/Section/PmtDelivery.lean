import Zapper.Section.Broadcast
import Zapper.Section.PatSlots
import Zapper.Section.PmtReads
import Zapper.FilterCallback

/-!
# PMT sections and the slots of the PAT

Where `filter_callback` stores a PMT section, and what the PAT holds after several of them.

The search for the slot of a program ends at the first slot that carries the program number, if
there is one (`findSlot_of_first`); nothing else ends it. So a section is stored to one of the
programs of the PAT exactly when its program number occurs among them (`searchSafe_iff`).

Sections of programs of the PAT, delivered one after the other, leave the last one of each program
behind in the program's first slot, and nothing else (`deliverAll_holdsLast`): what a slot held
before plays no part, nor does the order of sections of different programs.
-/

namespace Zapper

open Memory

/-! ### The search -/

/-- The slot is the first one that carries the program number. -/
def FirstSlot (pat : PAT) (prn j : ℕ) : Prop :=
  (pat.pmts.cell j).prNum = prn ∧ ∀ i < j, (pat.pmts.cell i).prNum ≠ prn

/-- The program number occurs among the programs of the PAT. -/
def Occurs (pat : PAT) (prn : ℕ) : Prop :=
  ∃ j < pat.pmtCount, (pat.pmts.cell j).prNum = prn

section Search

variable {pat : PAT} {fuel prn i j : ℕ}

theorem FirstSlot.unique (hi : FirstSlot pat prn i) (hj : FirstSlot pat prn j) : i = j := by
  by_contra hne
  rcases Nat.lt_or_gt_of_ne hne with hlt | hlt
  · exact hj.2 i hlt hi.1
  · exact hi.2 j hlt hj.1

theorem Occurs.firstSlot (h : Occurs pat prn) : ∃ j < pat.pmtCount, FirstSlot pat prn j := by
  classical
  obtain ⟨k, hk, hprn⟩ := h
  have hex : ∃ j, (pat.pmts.cell j).prNum = prn := ⟨k, hprn⟩
  exact ⟨Nat.find hex, (Nat.find_min' hex hprn).trans_lt hk, Nat.find_spec hex,
    fun i hi => Nat.find_min hex hi⟩

/-- The search passes over the slots of other programs. -/
theorem passes_findSlot {n : ℕ} (hn : n < 2 ^ 16)
    (h : ∀ i < n, (pat.pmts.cell i).prNum ≠ prn) :
    WhileLoop.passes (fun j => decide (prn ≠ (pat.pmts.cell j).prNum))
      (fun j => (j + 1) % 2 ^ 16) n 0 = some n := by
  induction n with
  | zero => rfl
  | succ n ih =>
    have hpass := WhileLoop.passes_succ (ih (by omega) fun i hi => h i (by omega))
      (by simpa using (h n (by omega)).symm)
    rwa [Nat.mod_eq_of_lt hn] at hpass

/-- **The search ends at the first slot of the program.** -/
theorem findSlot_of_first (h : FirstSlot pat prn j) (hj : j < 2 ^ 16) (hfuel : j ≤ fuel) :
    findSlot fuel prn pat = some j :=
  WhileLoop.run_mono hfuel
    (WhileLoop.run_of_passes (passes_findSlot hj h.2) (by simpa using h.1.symm))

/-- The search ends within the range of its index. -/
theorem lt_of_findSlot (h : findSlot fuel prn pat = some j) : j < 2 ^ 16 :=
  (WhileLoop.Exits.invariant (I := (· < 2 ^ 16)) ⟨fuel, h⟩ (by norm_num)
    fun i _ _ => Nat.mod_lt _ (by norm_num)).1

/-- A program number that no slot carries is searched for without end. -/
theorem findSlot_eq_none (h : ∀ j < 2 ^ 16, (pat.pmts.cell j).prNum ≠ prn) (fuel : ℕ) :
    findSlot fuel prn pat = none := by
  cases hfind : findSlot fuel prn pat with
  | none => rfl
  | some j => exact absurd (prNum_of_findSlot hfind) (h j (lt_of_findSlot hfind))

end Search

/-- The search for the slot of a section ends at a slot of its program, or the section is ignored
and the tables are left as they are. -/
def SearchSafe (d : Delivery) (t : Tables) : Prop :=
  (∃ fuel j, findSlot fuel (programNumber d.buffer) t.pat = some j ∧ j < t.pat.pmtCount ∧
    (t.pat.pmts.cell j).prNum = programNumber d.buffer) ∨
  ∃ fuel, stored { d with fuel := fuel } t = .nothing ∧
    filterCallback { d with fuel := fuel } t = some t

/-- No PMT section is ignored. -/
theorem SearchSafe.occurs {d : Delivery} {t : Tables}
    (hpmt : Table.ofTableId (d.buffer 0) = some .pmt) (h : SearchSafe d t) :
    Occurs t.pat (programNumber d.buffer) := by
  obtain ⟨fuel, j, -, hj, hprn⟩ | ⟨fuel, hstored, hcall⟩ := h
  · exact ⟨j, hj, hprn⟩
  · simp only [stored, filterCallback, hpmt] at hstored hcall
    obtain ⟨j, hfind, -⟩ := Option.bind_eq_some_iff.mp hcall
    rw [hfind] at hstored
    cases hstored

/-- **The search for the slot of a section is safe** if and only if the program number occurs
among the programs of the PAT. -/
theorem searchSafe_iff {d : Delivery} {t : Tables}
    (hpmt : Table.ofTableId (d.buffer 0) = some .pmt) (hcount : t.pat.pmtCount < 2 ^ 16) :
    SearchSafe d t ↔ Occurs t.pat (programNumber d.buffer) := by
  refine ⟨fun h => h.occurs hpmt, fun h => .inl ?_⟩
  obtain ⟨j, hj, hfirst⟩ := h.firstSlot
  exact ⟨j, j, findSlot_of_first hfirst (hj.trans hcount) le_rfl, hj, hfirst.1⟩

/-- The tables behind the PAT section of the stream of three programs. -/
def sampleTables : Tables :=
  ⟨parsePAT (fun _ => default) (withTail samplePat.bytes fun _ => 0), .zero⟩

/-- The PMT section of a program, delivered. -/
def Program.pmtDelivery (p : Program) : Delivery := .ofBytes (2 ^ 16) p.pmtSection.bytes

theorem searchSafe_secondProgram : SearchSafe secondProgram.pmtDelivery sampleTables ↔
    Occurs sampleTables.pat (programNumber secondProgram.pmtDelivery.buffer) :=
  searchSafe_iff (by decide) (by decide)

/-- A program that shares the PID of its PMT with the first one, and is not in the PAT. -/
def strayProgram : Program := ⟨0x104, 0x100, none, 1007, [0x44], by decide⟩

/-- The search for a program that is not in the PAT does not end. -/
theorem not_searchSafe_strayProgram :
    (∀ fuel, findSlot fuel (programNumber strayProgram.pmtDelivery.buffer) sampleTables.pat =
      none) ∧ ¬ SearchSafe strayProgram.pmtDelivery sampleTables := by
  have hcells : ∀ j, (sampleTables.pat.pmts.cell j).prNum ≠
      programNumber strayProgram.pmtDelivery.buffer := by
    intro j
    rcases Nat.lt_or_ge j 3 with hj | hj
    · interval_cases j <;> decide
    · have hlen : (taken (withTail samplePat.bytes fun _ => 0)).length = 3 := by decide
      have hcell : sampleTables.pat.pmts.cell j = default := by
        rw [sampleTables, parsePAT_eq]
        exact Block.cell_modifyFrom_of_le _ _ (by rw [List.length_map, hlen]; omega)
      rw [hcell]
      decide
  refine ⟨findSlot_eq_none fun j _ => hcells j, fun h => ?_⟩
  obtain ⟨j, -, hj⟩ := h.occurs (by decide)
  exact hcells j hj

/-! ### One section -/

variable {t : Tables} {d : Delivery}

/-- A section of a program of the PAT, whose bytes from offset 12 to the CRC are whole entries,
delivered with enough fuel for the loops of the callback. -/
structure PmtDelivery (pat : PAT) (d : Delivery) : Prop where
  pmt : Table.ofTableId (d.buffer 0) = some .pmt
  occurs : Occurs pat (programNumber d.buffer)
  splits : ∃ es, SplitsInto d.buffer es
  fuel : 2 ^ 16 ≤ d.fuel

theorem length_le_flatMap_bytes (es : List EsEntry) :
    es.length ≤ (es.flatMap EsEntry.bytes).length := by
  induction es with
  | nil => exact le_rfl
  | cons e es ih =>
    rw [List.flatMap_cons, List.length_append, List.length_cons, EsEntry.length_bytes]
    omega

/-- What `parse_PMT` makes of a section of whole entries. -/
theorem SplitsInto.parsePMT {buffer : Buffer} {es : List EsEntry} (hs : SplitsInto buffer es)
    {fuel : ℕ} (hfuel : 2 ^ 16 ≤ fuel) (pmt : PMT) :
    ∃ slot, parsePMT fuel buffer pmt = some slot ∧ slot.Describes es ∧
      slot.sectionLength = sectionLength buffer := by
  obtain ⟨slot, hparse, hslot⟩ := (hs.walksOnce pmt).result
  have hlen := hs.length
  have hlt := sectionLength_lt buffer
  have hle := length_le_flatMap_bytes es
  obtain ⟨c, hc, rfl⟩ := Option.map_eq_some_iff.mp hparse
  exact ⟨c.acc, by rw [Zapper.parsePMT, WhileLoop.run_mono (by omega) hc]; rfl, hslot⟩

/-- **One section** is stored to the first slot of its program. -/
theorem PmtDelivery.filterCallback (h : PmtDelivery t.pat d) (hcount : t.pat.pmtCount < 2 ^ 16) :
    ∃ j slot, FirstSlot t.pat (programNumber d.buffer) j ∧
      parsePMT d.fuel d.buffer (t.pat.pmts.cell j) = some slot ∧
      filterCallback d t =
        some { t with pat := { t.pat with pmts := t.pat.pmts.modify j fun _ => slot } } := by
  obtain ⟨j, hj, hfirst⟩ := h.occurs.firstSlot
  obtain ⟨es, hs⟩ := h.splits
  have hfuel := h.fuel
  obtain ⟨slot, hslot, -⟩ := hs.parsePMT h.fuel (t.pat.pmts.cell j)
  refine ⟨j, slot, hfirst, hslot, ?_⟩
  rw [Zapper.filterCallback, h.pmt]
  simp only [findSlot_of_first hfirst (hj.trans hcount) (by omega : j ≤ d.fuel), Option.bind_some,
    hslot, Option.map_some]

/-! ### Several sections -/

/-- The callback, for one section after the other. -/
def deliverAll (ds : List Delivery) (t : Tables) : Option Tables :=
  ds.foldlM (fun t d => filterCallback d t) t

/-- The last section of a program. -/
def lastFor (prn : ℕ) (ds : List Delivery) : Option Delivery :=
  (ds.filter fun d => programNumber d.buffer = prn).getLast?

/-- The tables behind a sequence of PMT sections: the first slot of a program holds what the
entries of its last section say, and everything else is as it was. -/
structure HoldsLast (t : Tables) (ds : List Delivery) (t' : Tables) : Prop where
  sdt : t'.sdt = t.sdt
  head : t'.pat.sectionLength = t.pat.sectionLength ∧ t'.pat.pmtCount = t.pat.pmtCount ∧
    t'.pat.pmts.size = t.pat.pmts.size
  keys : ∀ i, (t'.pat.pmts.cell i).prNum = (t.pat.pmts.cell i).prNum ∧
    (t'.pat.pmts.cell i).tableId = (t.pat.pmts.cell i).tableId
  filled : ∀ prn d es i, lastFor prn ds = some d → SplitsInto d.buffer es →
    FirstSlot t.pat prn i → (t'.pat.pmts.cell i).sectionLength = sectionLength d.buffer ∧
      (t'.pat.pmts.cell i).Describes es
  others : ∀ i, (∀ d ∈ ds, ¬ FirstSlot t.pat (programNumber d.buffer) i) →
    t'.pat.pmts.cell i = t.pat.pmts.cell i
  written : ∀ i, t'.pat.pmts.written i = true ↔
    (∃ d ∈ ds, FirstSlot t.pat (programNumber d.buffer) i) ∨ t.pat.pmts.written i = true

theorem lastFor_append (prn : ℕ) (ds : List Delivery) (d : Delivery) :
    lastFor prn (ds ++ [d]) = if programNumber d.buffer = prn then some d else lastFor prn ds := by
  rw [lastFor, List.filter_append]
  by_cases h : programNumber d.buffer = prn
  · simp [h]
  · simp [h, lastFor]

/-- A section of the program has been delivered exactly when there is a last one. -/
theorem exists_lastFor {prn : ℕ} {ds : List Delivery} {d : Delivery} (hd : d ∈ ds)
    (hprn : programNumber d.buffer = prn) : ∃ e, lastFor prn ds = some e := by
  have hne : ds.filter (fun d => programNumber d.buffer = prn) ≠ [] :=
    List.ne_nil_of_mem (List.mem_filter.mpr ⟨hd, by simpa using hprn⟩)
  exact ⟨_, List.getLast?_eq_getLast_of_ne_nil hne⟩

theorem mem_of_lastFor {prn : ℕ} {ds : List Delivery} {d : Delivery}
    (h : lastFor prn ds = some d) : d ∈ ds ∧ programNumber d.buffer = prn := by
  have hmem := List.mem_of_getLast? h
  simpa using hmem

theorem HoldsLast.nil (t : Tables) : HoldsLast t [] t where
  sdt := rfl
  head := ⟨rfl, rfl, rfl⟩
  keys := fun _ => ⟨rfl, rfl⟩
  filled := fun _ _ _ _ h => by cases h
  others := fun _ _ => rfl
  written := fun _ => by simp

/-- The first slots are those of the PAT, whatever has been delivered. -/
theorem HoldsLast.firstSlot_iff {ds : List Delivery} {t' : Tables} (h : HoldsLast t ds t')
    {prn i : ℕ} : FirstSlot t'.pat prn i ↔ FirstSlot t.pat prn i := by
  simp only [FirstSlot, fun i => (h.keys i).1]

/-- **One more section.** -/
theorem HoldsLast.snoc {ds : List Delivery} {t₁ : Tables} (h : HoldsLast t ds t₁) {j : ℕ}
    {slot : PMT} (hd : PmtDelivery t.pat d)
    (hfirst : FirstSlot t.pat (programNumber d.buffer) j)
    (hslot : parsePMT d.fuel d.buffer (t₁.pat.pmts.cell j) = some slot) :
    HoldsLast t (ds ++ [d])
      { t₁ with pat := { t₁.pat with pmts := t₁.pat.pmts.modify j fun _ => slot } } where
  sdt := h.sdt
  head := h.head
  keys := by
    intro i
    rcases eq_or_ne i j with rfl | hne
    · obtain ⟨hnum, htable⟩ := parsePMT_prNum hslot
      rw [Block.cell_modify_self]
      exact ⟨hnum.trans (h.keys i).1, htable.trans (h.keys i).2⟩
    · rw [Block.cell_modify_of_ne _ _ hne]
      exact h.keys i
  filled := by
    intro prn e es i hlast hs hi
    rw [lastFor_append] at hlast
    split at hlast
    · next hprn =>
      obtain rfl := Option.some.inj hlast
      obtain rfl := (hprn ▸ hfirst).unique hi
      obtain ⟨u, hu, hdescribes, hlength⟩ := hs.parsePMT hd.fuel (t₁.pat.pmts.cell j)
      obtain rfl := parsePMT_unique hu hslot
      rw [Block.cell_modify_self]
      exact ⟨hlength, hdescribes⟩
    · next hprn =>
      have hne : i ≠ j := by
        rintro rfl
        exact hprn (hfirst.1.symm.trans hi.1)
      rw [Block.cell_modify_of_ne _ _ hne]
      exact h.filled prn e es i hlast hs hi
  others := by
    intro i hi
    have hne : i ≠ j := by
      rintro rfl
      exact hi d (by simp) hfirst
    rw [Block.cell_modify_of_ne _ _ hne]
    exact h.others i fun e he => hi e (by simp [he])
  written := by
    intro i
    rw [Block.written_modify, h.written]
    have hij : i = j ↔ FirstSlot t.pat (programNumber d.buffer) i :=
      ⟨fun hi => hi ▸ hfirst, fun hi => hi.unique hfirst⟩
    simp only [List.mem_append, List.mem_singleton, or_and_right, exists_or, exists_eq_left, hij]
    rw [or_left_comm, or_assoc]

/-- **The sections of a sequence, one after the other.** -/
theorem exists_holdsLast (hcount : t.pat.pmtCount < 2 ^ 16) {ds : List Delivery}
    (h : ∀ d ∈ ds, PmtDelivery t.pat d) :
    ∃ t', deliverAll ds t = some t' ∧ HoldsLast t ds t' := by
  induction ds using List.reverseRecOn with
  | nil => exact ⟨t, rfl, .nil t⟩
  | append_singleton ds d ih =>
    obtain ⟨t₁, hrun, hheld⟩ := ih fun e he => h e (by simp [he])
    have hd : PmtDelivery t.pat d := h d (by simp)
    have hd₁ : PmtDelivery t₁.pat d := by
      refine ⟨hd.pmt, ?_, hd.splits, hd.fuel⟩
      obtain ⟨j, hj, hprn⟩ := hd.occurs
      exact ⟨j, hheld.head.2.1 ▸ hj, (hheld.keys j).1.trans hprn⟩
    obtain ⟨j, slot, hfirst, hslot, hcall⟩ := hd₁.filterCallback (hheld.head.2.1 ▸ hcount)
    refine ⟨_, ?_, hheld.snoc hd (hheld.firstSlot_iff.mp hfirst) hslot⟩
    rw [deliverAll, List.foldlM_append, ← deliverAll, hrun]
    simp [hcall]

/-- Slots with the same streams are the same, but for the two fields from the PAT. -/
theorem PMT.Describes.congr {a b : PMT} {es : List EsEntry} (ha : a.Describes es)
    (hb : b.Describes es) (htable : a.tableId = b.tableId) (hnum : a.prNum = b.prNum)
    (hlength : a.sectionLength = b.sectionLength) : a = b := by
  obtain ⟨hav, haa, hat⟩ := ha
  obtain ⟨hbv, hba, hbt⟩ := hb
  have hteletext : a.hasTeletext = b.hasTeletext := Bool.eq_iff_iff.mpr (hat.trans hbt.symm)
  cases a
  cases b
  simp_all

/-- **The last sections determine the tables.** -/
theorem HoldsLast.congr {ds ds' : List Delivery} {t₁ t₂ : Tables}
    (hds : ∀ d ∈ ds, PmtDelivery t.pat d) (h₁ : HoldsLast t ds t₁) (h₂ : HoldsLast t ds' t₂)
    (hlast : ∀ prn, lastFor prn ds' = lastFor prn ds) : t₁ = t₂ := by
  have hmem : ∀ {l l' : List Delivery}, (∀ prn, lastFor prn l = lastFor prn l') → ∀ i,
      (∃ d ∈ l, FirstSlot t.pat (programNumber d.buffer) i) →
        ∃ d ∈ l', FirstSlot t.pat (programNumber d.buffer) i := by
    rintro l l' hl i ⟨d, hd, hi⟩
    obtain ⟨e, he⟩ := exists_lastFor hd rfl
    obtain ⟨he', hprn⟩ := mem_of_lastFor ((hl _).symm.trans he)
    exact ⟨e, he', hprn.symm ▸ hi⟩
  have hcell : ∀ i, t₁.pat.pmts.cell i = t₂.pat.pmts.cell i := by
    intro i
    by_cases hi : ∃ d ∈ ds, FirstSlot t.pat (programNumber d.buffer) i
    · obtain ⟨d, hd, hfirst⟩ := hi
      obtain ⟨e, he⟩ := exists_lastFor hd rfl
      obtain ⟨es, hs⟩ := (hds e (mem_of_lastFor he).1).splits
      obtain ⟨hlen₁, hd₁⟩ := h₁.filled _ e es i he hs hfirst
      obtain ⟨hlen₂, hd₂⟩ := h₂.filled _ e es i ((hlast _).trans he) hs hfirst
      exact hd₁.congr hd₂ ((h₁.keys i).2.trans (h₂.keys i).2.symm)
        ((h₁.keys i).1.trans (h₂.keys i).1.symm) (hlen₁.trans hlen₂.symm)
    · rw [h₁.others i fun d hd hfirst => hi ⟨d, hd, hfirst⟩,
        h₂.others i fun d hd hfirst => hi (hmem hlast i ⟨d, hd, hfirst⟩)]
  have hwritten : ∀ i, t₁.pat.pmts.written i = t₂.pat.pmts.written i := fun i =>
    Bool.eq_iff_iff.mpr <| (h₁.written i).trans <| (or_congr_left
      ⟨hmem (fun prn => (hlast prn).symm) i, hmem hlast i⟩).trans (h₂.written i).symm
  obtain ⟨hlength, hcount, hsize⟩ := h₁.head
  obtain ⟨hlength', hcount', hsize'⟩ := h₂.head
  have hsdt := h₁.sdt.trans h₂.sdt.symm
  obtain ⟨⟨len₁, count₁, ⟨size₁, cell₁, written₁⟩⟩, sdt₁⟩ := t₁
  obtain ⟨⟨len₂, count₂, ⟨size₂, cell₂, written₂⟩⟩, sdt₂⟩ := t₂
  obtain rfl : cell₁ = cell₂ := funext hcell
  obtain rfl : written₁ = written₂ := funext hwritten
  simp_all

/-- Neighbours that are sections of different programs change places, or a section is repeated. -/
inductive Rearranges : List Delivery → List Delivery → Prop
  | swap (l r : List Delivery) (d e : Delivery)
      (h : programNumber d.buffer ≠ programNumber e.buffer) :
      Rearranges (l ++ d :: e :: r) (l ++ e :: d :: r)
  | again (l r : List Delivery) (d : Delivery) : Rearranges (l ++ d :: r) (l ++ d :: d :: r)

/-- Rearranging keeps the last section of each program. -/
theorem Rearranges.lastFor {ds ds' : List Delivery} (h : Rearranges ds ds') (prn : ℕ) :
    lastFor prn ds' = lastFor prn ds := by
  cases h with
  | swap l r d e hne =>
    rw [Zapper.lastFor, Zapper.lastFor, List.filter_append, List.filter_append]
    by_cases hd : programNumber d.buffer = prn
    · have he : programNumber e.buffer ≠ prn := fun he => hne (hd.trans he.symm)
      simp [hd, he]
    · simp [hd]
  | again l r d =>
    rw [Zapper.lastFor, Zapper.lastFor, List.filter_append, List.filter_append,
      List.getLast?_append, List.getLast?_append]
    by_cases hd : programNumber d.buffer = prn
    · simp [hd, List.getLast?_cons_cons]
    · simp [hd]

theorem Rearranges.mem_iff {ds ds' : List Delivery} (h : Rearranges ds ds') (d : Delivery) :
    d ∈ ds' ↔ d ∈ ds := by
  cases h with
  | swap l r d' e hne => simp [or_left_comm]
  | again l r d' => simp

/-- So does rearranging several times. -/
theorem kept_of_eqvGen {ds ds' : List Delivery} (h : Relation.EqvGen Rearranges ds ds') :
    (∀ d, d ∈ ds' ↔ d ∈ ds) ∧ ∀ prn, lastFor prn ds' = lastFor prn ds := by
  induction h with
  | rel l l' h => exact ⟨h.mem_iff, h.lastFor⟩
  | refl l => exact ⟨fun _ => Iff.rfl, fun _ => rfl⟩
  | symm l l' _ ih => exact ⟨fun d => (ih.1 d).symm, fun prn => (ih.2 prn).symm⟩
  | trans l l' l'' _ _ ih ih' =>
    exact ⟨fun d => (ih'.1 d).trans (ih.1 d), fun prn => (ih'.2 prn).trans (ih.2 prn)⟩

/-- **PMT sections one after the other**: each program's first slot holds what the entries of the
program's last section say, and nothing else has changed. So sequences with the same last sections
leave the same tables behind, and in particular sequences that can be rearranged into each other. -/
theorem deliverAll_holdsLast (hcount : t.pat.pmtCount < 2 ^ 16) {ds : List Delivery}
    (h : ∀ d ∈ ds, PmtDelivery t.pat d) :
    ∃ t', deliverAll ds t = some t' ∧ HoldsLast t ds t' ∧
      (∀ ds', (∀ d ∈ ds', PmtDelivery t.pat d) → (∀ prn, lastFor prn ds' = lastFor prn ds) →
        deliverAll ds' t = some t') ∧
      ∀ ds', Relation.EqvGen Rearranges ds ds' → deliverAll ds' t = some t' := by
  obtain ⟨t', hrun, hheld⟩ := exists_holdsLast hcount h
  have hsame : ∀ ds', (∀ d ∈ ds', PmtDelivery t.pat d) →
      (∀ prn, lastFor prn ds' = lastFor prn ds) → deliverAll ds' t = some t' := by
    intro ds' h' hlast
    obtain ⟨t₂, hrun₂, hheld₂⟩ := exists_holdsLast hcount h'
    rw [hrun₂, hheld.congr h hheld₂ hlast]
  refine ⟨t', hrun, hheld, hsame, fun ds' heqv => ?_⟩
  obtain ⟨hmem, hlast⟩ := kept_of_eqvGen heqv
  exact hsame ds' (fun d hd => h d ((hmem d).mp hd)) hlast

/-- The sections of programs without program descriptors split into whole entries. -/
theorem PmtSection.splitsInto (sec : PmtSection) (h : sec.programInfo = []) (rest : Buffer) :
    SplitsInto (withTail sec.bytes rest) sec.entries where
  length := by
    rw [sec.sectionLength_bytes, PmtSection.length, h]
    rfl
  holds := by
    have hloop := sec.holdsAt_loop rest
    rwa [h, List.nil_append] at hloop

theorem Program.pmtDelivery_of_occurs {pat : PAT} (p : Program)
    (h : Occurs pat (programNumber p.pmtDelivery.buffer)) : PmtDelivery pat p.pmtDelivery where
  pmt := rfl
  occurs := h
  splits := ⟨_, p.pmtSection.splitsInto rfl _⟩
  fuel := le_rfl

/-- The first program is broadcast twice, with the second one in between. -/
theorem deliverAll_holdsLast_sample :
    ∃ t', deliverAll [firstProgram.pmtDelivery, secondProgram.pmtDelivery,
      firstProgram.pmtDelivery] sampleTables = some t' ∧
        (t'.pat.pmts.cell 0).Describes firstProgram.entries := by
  have hfirst : PmtDelivery sampleTables.pat firstProgram.pmtDelivery :=
    firstProgram.pmtDelivery_of_occurs ⟨0, by decide, by decide⟩
  have hsecond : PmtDelivery sampleTables.pat secondProgram.pmtDelivery :=
    secondProgram.pmtDelivery_of_occurs ⟨1, by decide, by decide⟩
  obtain ⟨t', hrun, hheld, -⟩ := deliverAll_holdsLast (t := sampleTables) (by decide)
    (List.forall_mem_cons.mpr ⟨hfirst, List.forall_mem_cons.mpr ⟨hsecond,
      List.forall_mem_singleton.mpr hfirst⟩⟩)
  have hlast : lastFor (programNumber firstProgram.pmtDelivery.buffer)
      [firstProgram.pmtDelivery, secondProgram.pmtDelivery, firstProgram.pmtDelivery] =
        some firstProgram.pmtDelivery := by rfl
  exact ⟨t', hrun, (hheld.filled _ _ _ 0 hlast (firstProgram.pmtSection.splitsInto rfl _)
    ⟨by decide, by simp⟩).2⟩

end Zapper
