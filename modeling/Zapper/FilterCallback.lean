import Zapper.TableParser

/-!
# The section filter callback

`filter_callback` of `stream_controller.c` hands a section from the demultiplexer to the parser
of its table, by table id alone: which filter is set plays no part. A PMT section is stored in
the first slot of the PAT that carries its program number; nothing bounds that search.

Parsing and the signal that follows it are two steps of the system (`Stream/System`); this
module is the parsing.
-/

namespace Zapper

open Memory

/-- The two tables the callback writes. -/
structure Tables where
  pat : PAT
  sdt : SDT

/-- A call of `filter_callback`: the buffer, the fuel for the loops of the call, and what lies in
the memory the parsers allocate. -/
structure Delivery where
  buffer : Buffer
  fuel : ℕ
  patJunk : ℕ → PMT
  sdtJunk : ℕ → ServiceInfo

/-- The delivery of given bytes, into cleared memory. -/
def Delivery.ofBytes (fuel : ℕ) (bytes : List UInt8) : Delivery where
  buffer := withTail bytes fun _ => 0
  fuel := fuel
  patJunk := fun _ => default
  sdtJunk := fun _ => default

/-- The table a section belongs to, by its table id. -/
inductive Table
  | pat
  | sdt
  | pmt
  deriving DecidableEq

namespace Table

/-- The table id carried by the table's sections. -/
def tableId : Table → UInt8
  | pat => 0x00
  | sdt => 0x42
  | pmt => 0x02

/-- The table with a given table id. -/
def ofTableId (b : UInt8) : Option Table :=
  if b = 0x00 then some pat
  else if b = 0x02 then some pmt
  else if b = 0x42 then some sdt
  else none

end Table

/-- The program number of a PMT section. -/
def programNumber (buffer : Buffer) : ℕ := be16 (buffer 3) (buffer 4)

/-- The search for the slot of a program: a `uint16_t` index is increased until the program
number matches. -/
def findSlot (fuel prn : ℕ) (pat : PAT) : Option ℕ :=
  WhileLoop.run (fun j => decide (prn ≠ (pat.pmts.cell j).prNum)) (fun j => (j + 1) % 2 ^ 16)
    fuel 0

/-- `filter_callback`, up to the signal; `none` if a loop has not ended within the fuel. -/
def filterCallback (d : Delivery) (tables : Tables) : Option Tables :=
  match Table.ofTableId (d.buffer 0) with
  | some .pat => some { tables with pat := parsePAT d.patJunk d.buffer }
  | some .pmt =>
    (findSlot d.fuel (programNumber d.buffer) tables.pat).bind fun j =>
      (parsePMT d.fuel d.buffer (tables.pat.pmts.cell j)).map fun pmt =>
        { tables with
          pat := { tables.pat with pmts := tables.pat.pmts.modify j fun _ => pmt } }
  | some .sdt =>
    (parseSDT d.fuel d.sdtJunk d.buffer tables.pat.pmtCount).map fun sdt =>
      { tables with sdt := sdt }
  | none => some tables

/-! ### What a call changes -/

/-- What a call of the callback stored. -/
inductive Stored
  | pat
  | sdt
  | slot (j : ℕ)
  | nothing
  deriving DecidableEq

/-- What a call of the callback stores, from the section and the tables it finds. -/
def stored (d : Delivery) (tables : Tables) : Stored :=
  match Table.ofTableId (d.buffer 0) with
  | some .pat => .pat
  | some .sdt => .sdt
  | some .pmt =>
    match findSlot d.fuel (programNumber d.buffer) tables.pat with
    | some j => .slot j
    | none => .nothing
  | none => .nothing

/-- The section belongs to a table. -/
def Delivery.IsOf (d : Delivery) (t : Table) : Prop := Table.ofTableId (d.buffer 0) = some t

instance (d : Delivery) (t : Table) : Decidable (d.IsOf t) :=
  inferInstanceAs (Decidable (_ = _))

/-- What is stored, read off the section. -/
theorem stored_eq_iff {d : Delivery} {t : Tables} (st : Stored) :
    stored d t = st ↔ match st with
      | .pat => d.IsOf .pat
      | .sdt => d.IsOf .sdt
      | .slot j => d.IsOf .pmt ∧ findSlot d.fuel (programNumber d.buffer) t.pat = some j
      | .nothing => Table.ofTableId (d.buffer 0) = none ∨
          d.IsOf .pmt ∧ findSlot d.fuel (programNumber d.buffer) t.pat = none := by
  unfold stored Delivery.IsOf
  cases hof : Table.ofTableId (d.buffer 0) with
  | none => cases st <;> simp
  | some table =>
    cases table with
    | pmt =>
      cases hfind : findSlot d.fuel (programNumber d.buffer) t.pat with
      | none => cases st <;> simp
      | some j => cases st <;> simp
    | _ => cases st <;> simp

theorem stored_eq_pat_iff {d : Delivery} {t : Tables} : stored d t = .pat ↔ d.IsOf .pat :=
  stored_eq_iff .pat

theorem stored_eq_sdt_iff {d : Delivery} {t : Tables} : stored d t = .sdt ↔ d.IsOf .sdt :=
  stored_eq_iff .sdt

theorem stored_eq_slot_iff {d : Delivery} {t : Tables} {j : ℕ} :
    stored d t = .slot j ↔
      d.IsOf .pmt ∧ findSlot d.fuel (programNumber d.buffer) t.pat = some j :=
  stored_eq_iff (.slot j)

/-- **What one call does**, table by table. -/
theorem filterCallback_cases {d : Delivery} {t t' : Tables} (h : filterCallback d t = some t') :
    (stored d t = .pat ∧ t' = { t with pat := parsePAT d.patJunk d.buffer }) ∨
    (∃ j pmt, stored d t = .slot j ∧ findSlot d.fuel (programNumber d.buffer) t.pat = some j ∧
      parsePMT d.fuel d.buffer (t.pat.pmts.cell j) = some pmt ∧
      t' = { t with pat := { t.pat with pmts := t.pat.pmts.modify j fun _ => pmt } }) ∨
    (∃ sdt, stored d t = .sdt ∧
      parseSDT d.fuel d.sdtJunk d.buffer t.pat.pmtCount = some sdt ∧ t' = { t with sdt := sdt }) ∨
    (stored d t = .nothing ∧ t' = t) := by
  unfold filterCallback at h
  unfold stored
  split at h
  · exact .inl ⟨by simp_all, (Option.some.inj h).symm⟩
  · obtain ⟨j, hj, hpmt⟩ := Option.bind_eq_some_iff.mp h
    obtain ⟨pmt, hparse, rfl⟩ := Option.map_eq_some_iff.mp hpmt
    exact .inr (.inl ⟨j, pmt, by simp_all, hj, hparse, rfl⟩)
  · obtain ⟨sdt, hsdt, rfl⟩ := Option.map_eq_some_iff.mp h
    exact .inr (.inr (.inl ⟨sdt, by simp_all, hsdt, rfl⟩))
  · exact .inr (.inr (.inr ⟨by simp_all, (Option.some.inj h).symm⟩))

/-- The search ends at a slot of the program. -/
theorem prNum_of_findSlot {fuel prn j : ℕ} {pat : PAT} (h : findSlot fuel prn pat = some j) :
    (pat.pmts.cell j).prNum = prn := by
  have hexit := WhileLoop.Exits.invariant (I := fun _ => True) ⟨fuel, h⟩ trivial
    fun _ _ _ => trivial
  exact Eq.symm (by simpa using hexit.2)

/-- What is stored where depends on the program numbers of the slots only. -/
theorem stored_congr (d : Delivery) {t t' : Tables}
    (h : ∀ i, (t'.pat.pmts.cell i).prNum = (t.pat.pmts.cell i).prNum) :
    stored d t' = stored d t := by
  have hfind : findSlot d.fuel (programNumber d.buffer) t'.pat =
      findSlot d.fuel (programNumber d.buffer) t.pat := by
    rw [findSlot, findSlot]
    exact congrArg (fun cond => WhileLoop.run cond _ _ _) (funext fun j => by rw [h j])
  rw [stored, stored, hfind]

/-- Parsing a PMT leaves the slot's program number and PID alone. -/
theorem parsePMT_prNum {fuel : ℕ} {buffer : Buffer} {pmt t : PMT}
    (h : parsePMT fuel buffer pmt = some t) : t.prNum = pmt.prNum ∧ t.tableId = pmt.tableId := by
  obtain ⟨c, hc, rfl⟩ := Option.map_eq_some_iff.mp h
  have hentry : ∀ (p : ℕ) (u : PMT), (parsePMTEntry buffer p u).prNum = u.prNum ∧
      (parsePMTEntry buffer p u).tableId = u.tableId := by
    intro p u
    unfold parsePMTEntry
    dsimp only
    split_ifs <;> exact ⟨rfl, rfl⟩
  have hinv := WhileLoop.Exits.invariant (I := fun c : RecordWalk.Cursor PMT =>
    c.acc.prNum = pmt.prNum ∧ c.acc.tableId = pmt.tableId) ⟨fuel, hc⟩ ⟨rfl, rfl⟩
    fun u hu _ => ?_
  · exact hinv.1
  · obtain ⟨h₁, h₂⟩ := hentry u.pos u.acc
    exact ⟨h₁.trans hu.1, h₂.trans hu.2⟩

/-- **What `parse_PMT` makes of a section** depends on nothing that the slot held before, but for
the two fields it leaves alone. -/
theorem parsePMT_congr (fuel : ℕ) (buffer : Buffer) (pmt pmt' : PMT) :
    parsePMT fuel buffer pmt' = (parsePMT fuel buffer pmt).map fun t =>
      { t with prNum := pmt'.prNum, tableId := pmt'.tableId } := by
  have hentry : ∀ (p : ℕ) (u : PMT), parsePMTEntry buffer p
      { u with prNum := pmt'.prNum, tableId := pmt'.tableId } =
        { parsePMTEntry buffer p u with prNum := pmt'.prNum, tableId := pmt'.tableId } := by
    intro p u
    unfold parsePMTEntry
    dsimp only
    split_ifs <;> rfl
  let f : RecordWalk.Cursor PMT → RecordWalk.Cursor PMT := fun c =>
    { c with acc := { c.acc with prNum := pmt'.prNum, tableId := pmt'.tableId } }
  have hrun : WhileLoop.run RecordWalk.more (parsePMTPass buffer) fuel
      (f (parsePMTStart buffer pmt)) = (WhileLoop.run RecordWalk.more (parsePMTPass buffer) fuel
        (parsePMTStart buffer pmt)).map f :=
    WhileLoop.run_map (fun _ => rfl)
      (fun c => by simp [f, parsePMTPass, RecordWalk.pass, hentry]) fuel _
  rw [parsePMT, parsePMT, Option.map_map, show parsePMTStart buffer pmt' =
    f (parsePMTStart buffer pmt) from rfl, hrun, Option.map_map]
  rfl

/-- The program numbers, PIDs and the number of slots only change with a PAT section. -/
theorem filterCallback_pat {d : Delivery} {t t' : Tables} (h : filterCallback d t = some t')
    (hpat : stored d t ≠ .pat) :
    t'.pat.pmtCount = t.pat.pmtCount ∧ t'.pat.pmts.size = t.pat.pmts.size ∧
      ∀ i, (t'.pat.pmts.cell i).prNum = (t.pat.pmts.cell i).prNum ∧
        (t'.pat.pmts.cell i).tableId = (t.pat.pmts.cell i).tableId := by
  obtain ⟨hs, -⟩ | ⟨j, pmt, -, -, hpmt, rfl⟩ | ⟨sdt, -, -, rfl⟩ | ⟨-, rfl⟩ :=
    filterCallback_cases h
  · exact absurd hs hpat
  · refine ⟨rfl, rfl, fun i => ?_⟩
    by_cases hi : i = j
    · subst hi
      simpa using parsePMT_prNum hpmt
    · simp [Block.cell_modify_of_ne _ _ hi]
  · exact ⟨rfl, rfl, fun _ => ⟨rfl, rfl⟩⟩
  · exact ⟨rfl, rfl, fun _ => ⟨rfl, rfl⟩⟩

end Zapper
