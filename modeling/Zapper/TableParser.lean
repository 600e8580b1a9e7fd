import Zapper.Tables
import Zapper.Lib.RecordWalk

/-!
# The table parsers

The three parsers of `table_parser.c`. Each gets a buffer that starts with the section's table
id and writes the table. What `malloc` leaves in the memory it returns is a parameter (`junk`).

`parsePAT` is a counted loop. The loops of `parsePMT` and `parseSDT` are walks
(`RecordWalk`) that stop when a 16-bit counter is exactly zero, and therefore need fuel; what
one pass reads is `parsePMTEntry` and `parseSDTService`.
-/

namespace Zapper

open Memory

/-- The 12-bit section length behind the table id. -/
def sectionLength (buffer : Buffer) : ℕ :=
  (((buffer 1).toNat &&& 0x0F) <<< 8) + (buffer 2).toNat

/-! ### `parse_PAT` -/

/-- The number of programs, computed from the section length on the assumption that exactly one
entry is the network entry; `int` arithmetic stored to a `uint8_t`. -/
def progCount (sectionLength : ℕ) : ℕ :=
  ((Int.tdiv ((sectionLength : ℤ) - 9) 4 - 1) % 256).toNat

/-- One pass of the loop of `parse_PAT`, with `tmpPtr` at the entry; the state is the table and
the `uint8_t` index `j` of the next slot. -/
def parsePATEntry (buffer : Buffer) (st : PAT × ℕ) (tmpPtr : ℕ) : PAT × ℕ :=
  if buffer tmpPtr ≠ 0 then
    ({ st.1 with
        pmts := st.1.pmts.modify st.2 fun pmt =>
          { pmt with
            prNum := be16 (buffer tmpPtr) (buffer (tmpPtr + 1))
            tableId := be16 (buffer (tmpPtr + 2)) (buffer (tmpPtr + 3)) &&& 0x1FFF } },
      (st.2 + 1) % 256)
  else st

/-- `parse_PAT`. -/
def parsePAT (junk : ℕ → PMT) (buffer : Buffer) : PAT :=
  let count := progCount (sectionLength buffer)
  ((List.range (count + 1)).foldl (fun st i => parsePATEntry buffer st (8 + i * 4))
    (⟨sectionLength buffer, count, malloc junk count⟩, 0)).1

/-! ### `parse_PMT` -/

/-- The length of the descriptors of the elementary stream entry at `tmpPtr`. -/
def esInfoLength (buffer : Buffer) (tmpPtr : ℕ) : ℕ :=
  be16 (buffer (tmpPtr + 3)) (buffer (tmpPtr + 4)) &&& 0x0FFF

/-- The PID of the elementary stream entry at `tmpPtr`. -/
def esPid (buffer : Buffer) (tmpPtr : ℕ) : ℕ :=
  be16 (buffer (tmpPtr + 1)) (buffer (tmpPtr + 2)) &&& 0x1FFF

/-- What one pass of the loop of `parse_PMT` stores. -/
def parsePMTEntry (buffer : Buffer) (tmpPtr : ℕ) (pmt : PMT) : PMT :=
  let pmt := if (buffer tmpPtr = 2 ∨ buffer tmpPtr = 1) ∧ pmt.videoPid = noPid then
    { pmt with videoPid := esPid buffer tmpPtr } else pmt
  let pmt := if (buffer tmpPtr = 3 ∨ buffer tmpPtr = 4) ∧ pmt.audioPid = noPid then
    { pmt with audioPid := esPid buffer tmpPtr } else pmt
  if buffer tmpPtr = 6 then { pmt with hasTeletext := true } else pmt

/-- One pass of the loop of `parse_PMT`. -/
def parsePMTPass (buffer : Buffer) : RecordWalk.Cursor PMT → RecordWalk.Cursor PMT :=
  RecordWalk.pass 16 (fun tmpPtr => esInfoLength buffer tmpPtr + 5) (parsePMTEntry buffer)

/-- The state in which `parse_PMT` enters its loop: `tmp_ptr` is always at offset `12`. -/
def parsePMTStart (buffer : Buffer) (pmt : PMT) : RecordWalk.Cursor PMT where
  left := (((sectionLength buffer : ℤ) - 13) % 2 ^ 16).toNat
  pos := 12
  acc := { pmt with
    sectionLength := sectionLength buffer
    videoPid := noPid
    audioPid := noPid
    hasTeletext := false }

/-- `parse_PMT`, with fuel for its loop. -/
def parsePMT (fuel : ℕ) (buffer : Buffer) (pmt : PMT) : Option PMT :=
  (WhileLoop.run RecordWalk.more (parsePMTPass buffer) fuel (parsePMTStart buffer pmt)).map
    RecordWalk.Cursor.acc

/-! ### `parse_SDT` -/

/-- The length of the descriptor loop of the service at `tmpPtr`. -/
def descriptorsLoopLength (buffer : Buffer) (tmpPtr : ℕ) : ℕ :=
  be16 (buffer (tmpPtr + 3)) (buffer (tmpPtr + 4)) &&& 0x0FFF

/-- What one pass of the loop of `parse_SDT` stores for the service at `tmpPtr`: the service
type, the provider name and the service name are read at fixed places behind the start of the
descriptor loop. -/
def serviceAt (buffer : Buffer) (tmpPtr : ℕ) : ServiceInfo :=
  let providerLen := (buffer (tmpPtr + 8)).toNat
  let serviceNameLen := (buffer (tmpPtr + 9 + providerLen)).toNat
  { serviceId := be16 (buffer tmpPtr) (buffer (tmpPtr + 1))
    serviceType := buffer (tmpPtr + 7)
    descriptorsLoopLength := descriptorsLoopLength buffer tmpPtr
    serviceName :=
      (List.range serviceNameLen).map (fun i => buffer (tmpPtr + 10 + providerLen + i)) ++ [0] }

/-- One pass of the loop of `parse_SDT`: the slot is stored and the `uint16_t` index `j` moves
on. Nothing compares `j` with the number of allocated slots. -/
def parseSDTService (buffer : Buffer) (tmpPtr : ℕ) (st : ℕ × SDT) : ℕ × SDT :=
  ((st.1 + 1) % 2 ^ 16,
    { st.2 with services := st.2.services.modify st.1 fun _ => serviceAt buffer tmpPtr })

/-- One pass of the loop of `parse_SDT`. -/
def parseSDTPass (buffer : Buffer) : RecordWalk.Cursor (ℕ × SDT) → RecordWalk.Cursor (ℕ × SDT) :=
  RecordWalk.pass 16 (fun tmpPtr => descriptorsLoopLength buffer tmpPtr + 5)
    (parseSDTService buffer)

/-- The state in which `parse_SDT` enters its loop, with `count` slots allocated. -/
def parseSDTStart (junk : ℕ → ServiceInfo) (buffer : Buffer) (count : ℕ) :
    RecordWalk.Cursor (ℕ × SDT) where
  left := (((sectionLength buffer : ℤ) - 12) % 2 ^ 16).toNat
  pos := 11
  acc := (0, ⟨sectionLength buffer, malloc junk count⟩)

/-- `parse_SDT`, with fuel for its loop. -/
def parseSDT (fuel : ℕ) (junk : ℕ → ServiceInfo) (buffer : Buffer) (count : ℕ) : Option SDT :=
  (WhileLoop.run RecordWalk.more (parseSDTPass buffer) fuel
    (parseSDTStart junk buffer count)).map fun c => c.acc.2

/-! ### Independence of the fuel -/

theorem parsePMT_unique {k m : ℕ} {buffer : Buffer} {pmt t u : PMT}
    (ht : parsePMT k buffer pmt = some t) (hu : parsePMT m buffer pmt = some u) : t = u := by
  obtain ⟨c, hc, rfl⟩ := Option.map_eq_some_iff.mp ht
  obtain ⟨d, hd, rfl⟩ := Option.map_eq_some_iff.mp hu
  exact congrArg _ (WhileLoop.Exits.unique ⟨k, hc⟩ ⟨m, hd⟩)

theorem parseSDT_unique {k m : ℕ} {junk : ℕ → ServiceInfo} {buffer : Buffer} {count : ℕ}
    {t u : SDT} (ht : parseSDT k junk buffer count = some t)
    (hu : parseSDT m junk buffer count = some u) : t = u := by
  obtain ⟨c, hc, rfl⟩ := Option.map_eq_some_iff.mp ht
  obtain ⟨d, hd, rfl⟩ := Option.map_eq_some_iff.mp hu
  exact congrArg (fun c => c.acc.2) (WhileLoop.Exits.unique ⟨k, hc⟩ ⟨m, hd⟩)

end Zapper
