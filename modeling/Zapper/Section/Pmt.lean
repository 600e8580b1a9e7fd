import Zapper.Section.Format

/-!
# The program map table

The format of a PMT section, and what `parse_PMT` makes of it. The parser walks elementary
stream entries from offset 12 on, which is where the *program descriptors* lie: the program
info length in front of them is never read. Over the elementary stream entries themselves the
walk is right, for every list of entries (`foldl_pass_describes`). So the code is right for all
sections with given program descriptors exactly when these descriptors, read as elementary
stream entries, are whole entries of types the parser ignores (`parsePMT_describes_iff`), in
particular when there are none.
-/

namespace Zapper

open Memory

/-- One entry of the elementary stream loop of a PMT section. -/
structure EsEntry where
  streamType : UInt8
  pidReserved : Fin 8
  pid : Fin 8192
  lengthReserved : Fin 16
  descriptors : List UInt8
  descriptors_lt : descriptors.length < 4096

namespace EsEntry

/-- The bytes of an entry. -/
def bytes (e : EsEntry) : List UInt8 :=
  [e.streamType] ++ packed 5 e.pidReserved e.pid ++
    packed 4 e.lengthReserved e.descriptors.length ++ e.descriptors

@[simp]
theorem length_bytes (e : EsEntry) : e.bytes.length = e.descriptors.length + 5 := by
  simp [bytes]
  omega

/-- The parser takes nothing from an entry of this type. -/
def Inert (e : EsEntry) : Prop := e.streamType ∉ ([1, 2, 3, 4, 6] : List UInt8)

instance (e : EsEntry) : Decidable e.Inert := inferInstanceAs (Decidable (¬ _))

/-- A PID has 13 bits, so none is taken for 65000. -/
theorem pid_ne_noPid (e : EsEntry) : e.pid.val ≠ noPid := by
  have := e.pid.isLt
  simp only [noPid]
  omega

end EsEntry

/-- The PID of the first entry with one of the given stream types, 65000 if there is none. -/
def firstPid (types : List UInt8) (es : List EsEntry) : ℕ :=
  match es.find? fun e => e.streamType ∈ types with
  | some e => e.pid
  | none => noPid

theorem firstPid_nil (types : List UInt8) : firstPid types [] = noPid := rfl

theorem firstPid_cons_of_mem {types : List UInt8} {e : EsEntry} (es : List EsEntry)
    (h : e.streamType ∈ types) : firstPid types (e :: es) = e.pid := by
  rw [firstPid, List.find?_cons_of_pos (by simpa using h)]

theorem firstPid_cons_of_not_mem {types : List UInt8} {e : EsEntry} (es : List EsEntry)
    (h : e.streamType ∉ types) : firstPid types (e :: es) = firstPid types es := by
  rw [firstPid, List.find?_cons_of_neg (by simpa using h), firstPid]

theorem firstPid_eq_noPid_iff {types : List UInt8} {es : List EsEntry} :
    firstPid types es = noPid ↔ ∀ e ∈ es, e.streamType ∉ types := by
  induction es with
  | nil => simp [firstPid_nil]
  | cons e es ih =>
    by_cases h : e.streamType ∈ types
    · simp [firstPid_cons_of_mem es h, e.pid_ne_noPid, h]
    · simp [firstPid_cons_of_not_mem es h, ih, h]

/-- A PMT section. -/
structure PmtSection where
  flags : Fin 16
  programNumber : Fin 65536
  version : UInt8
  sectionNumber : UInt8
  lastSectionNumber : UInt8
  pcrReserved : Fin 8
  pcrPid : Fin 8192
  programInfoReserved : Fin 16
  programInfo : List UInt8
  entries : List EsEntry
  length_lt : 13 + programInfo.length + (entries.flatMap EsEntry.bytes).length < 4096
  crc : Crc

namespace PmtSection

variable (sec : PmtSection)

/-- The value of the section length field. -/
def length : ℕ := 13 + sec.programInfo.length + (sec.entries.flatMap EsEntry.bytes).length

/-- The twelve bytes in front of the program descriptors. -/
def head : List UInt8 :=
  sectionHead 0x02 sec.flags sec.length ++ bytes16 sec.programNumber ++
    [sec.version, sec.sectionNumber, sec.lastSectionNumber] ++
      packed 5 sec.pcrReserved sec.pcrPid ++
        packed 4 sec.programInfoReserved sec.programInfo.length

/-- The section as it is broadcast. -/
def bytes : List UInt8 :=
  sec.head ++ (sec.programInfo ++ (sec.entries.flatMap EsEntry.bytes ++ sec.crc.bytes))

@[simp]
theorem length_head : sec.head.length = 12 := rfl

variable (rest : Buffer)

theorem sectionLength_bytes : sectionLength (withTail sec.bytes rest) = sec.length := by
  have h := holdsAt_withTail sec.bytes rest
  simp only [bytes, head, List.append_assoc] at h
  exact sectionLength_of_holdsAt sec.length_lt (holdsAt_append.mp h).1

theorem holdsAt_loop :
    HoldsAt (withTail sec.bytes rest) 12
      (sec.programInfo ++ sec.entries.flatMap EsEntry.bytes) := by
  have h := holdsAt_withTail sec.bytes rest
  have hbytes : sec.bytes =
      sec.head ++ (sec.programInfo ++ sec.entries.flatMap EsEntry.bytes ++ sec.crc.bytes) := by
    simp [bytes]
  rw [hbytes, holdsAt_append, holdsAt_append] at h
  rw [hbytes]
  exact h.2.1

end PmtSection

/-! ### The walk over elementary stream entries -/

/-- A PID field after an entry: set by an entry of these types unless it was set before. -/
def EsEntry.takeFirst (types : List UInt8) (pid : ℕ) (e : EsEntry) : ℕ :=
  if e.streamType ∈ types ∧ pid = noPid then e.pid else pid

/-- One pass of the loop of `parse_PMT`, over an entry of the section. -/
def EsEntry.pass (pmt : PMT) (e : EsEntry) : PMT where
  tableId := pmt.tableId
  prNum := pmt.prNum
  sectionLength := pmt.sectionLength
  videoPid := takeFirst [1, 2] pmt.videoPid e
  audioPid := takeFirst [3, 4] pmt.audioPid e
  hasTeletext := if e.streamType = 6 then true else pmt.hasTeletext

section Walk

variable {buffer : Buffer} {e : EsEntry} {p : ℕ}

theorem esInfoLength_of_holdsAt (h : HoldsAt buffer p e.bytes) :
    esInfoLength buffer p = e.descriptors.length := by
  simp only [EsEntry.bytes, packed, List.cons_append, List.nil_append, holdsAt_cons] at h
  obtain ⟨-, -, -, h₃, h₄, -⟩ := h
  rw [esInfoLength, h₃, h₄]
  exact be16_and_packed (k := 4) (by norm_num) e.lengthReserved.isLt e.descriptors_lt

theorem esPid_of_holdsAt (h : HoldsAt buffer p e.bytes) : esPid buffer p = e.pid := by
  simp only [EsEntry.bytes, packed, List.cons_append, List.nil_append, holdsAt_cons] at h
  obtain ⟨-, h₁, h₂, -⟩ := h
  rw [esPid, h₁, h₂]
  exact be16_and_packed (k := 5) (by norm_num) e.pidReserved.isLt e.pid.isLt

theorem parsePMTEntry_of_holdsAt (pmt : PMT) (h : HoldsAt buffer p e.bytes) :
    parsePMTEntry buffer p pmt = e.pass pmt := by
  have htype : buffer p = e.streamType := by
    simp only [EsEntry.bytes, List.cons_append, List.nil_append, holdsAt_cons] at h
    exact h.1
  simp only [parsePMTEntry, EsEntry.pass, EsEntry.takeFirst, htype, esPid_of_holdsAt h,
    List.mem_cons, List.not_mem_nil, or_false]
  by_cases hv : (e.streamType = 1 ∨ e.streamType = 2) ∧ pmt.videoPid = noPid <;>
    by_cases ha : (e.streamType = 3 ∨ e.streamType = 4) ∧ pmt.audioPid = noPid <;>
      by_cases ht : e.streamType = 6 <;>
        simp [or_comm, hv, ha, ht]

end Walk

/-- **Whole entries are walked one by one**: the walk over a loop that starts with the entries
`es` goes on behind them, with what they store. -/
theorem exits_parsePMTPass_iff {buffer : Buffer} {es : List EsEntry} {p k : ℕ} {pmt : PMT}
    {t : RecordWalk.Cursor PMT} (hlen : (es.flatMap EsEntry.bytes).length + k < 2 ^ 16)
    (h : HoldsAt buffer p (es.flatMap EsEntry.bytes)) :
    WhileLoop.Exits RecordWalk.more (parsePMTPass buffer)
        ⟨(es.flatMap EsEntry.bytes).length + k, p, pmt⟩ t ↔
      WhileLoop.Exits RecordWalk.more (parsePMTPass buffer)
        ⟨k, p + (es.flatMap EsEntry.bytes).length, es.foldl EsEntry.pass pmt⟩ t := by
  have hfold : (RecordWalk.starts EsEntry.bytes p es).foldl
      (fun a q => parsePMTEntry buffer q a) pmt = es.foldl EsEntry.pass pmt :=
    RecordWalk.foldl_starts (fun e _ q a he => parsePMTEntry_of_holdsAt a he) h
  rw [← hfold]
  refine RecordWalk.exits_iff_of_holdsAt (fun e _ p he => ?_) (fun e _ => ?_) hlen h
  · rw [esInfoLength_of_holdsAt he, EsEntry.length_bytes]
  · simp

/-- A walk over exactly the given entries leaves the fold of what they store. -/
theorem exits_parsePMTPass {buffer : Buffer} {es : List EsEntry} {p : ℕ} (pmt : PMT)
    (hlen : (es.flatMap EsEntry.bytes).length < 2 ^ 16)
    (h : HoldsAt buffer p (es.flatMap EsEntry.bytes)) :
    WhileLoop.Exits RecordWalk.more (parsePMTPass buffer)
      ⟨(es.flatMap EsEntry.bytes).length, p, pmt⟩
      ⟨0, p + (es.flatMap EsEntry.bytes).length, es.foldl EsEntry.pass pmt⟩ :=
  (exits_parsePMTPass_iff (k := 0) hlen h).mpr (WhileLoop.exits_of_not_cond rfl)

/-- The PID kept after some entries: the one there was already, else the first match. -/
theorem foldl_takeFirst (types : List UInt8) (es : List EsEntry) (pid : ℕ) :
    es.foldl (EsEntry.takeFirst types) pid =
      if pid = noPid then firstPid types es else pid := by
  induction es generalizing pid with
  | nil =>
    rw [List.foldl_nil, firstPid_nil]
    split <;> simp_all
  | cons e es ih =>
    have hpid := e.pid_ne_noPid
    rw [List.foldl_cons, ih]
    by_cases hv : pid = noPid
    · by_cases ht : e.streamType ∈ types
      · simp [EsEntry.takeFirst, hv, ht, hpid, firstPid_cons_of_mem es ht]
      · simp [EsEntry.takeFirst, hv, ht, firstPid_cons_of_not_mem es ht]
    · simp [EsEntry.takeFirst, hv]

theorem foldl_pass_videoPid (es : List EsEntry) (pmt : PMT) :
    (es.foldl EsEntry.pass pmt).videoPid =
      if pmt.videoPid = noPid then firstPid [1, 2] es else pmt.videoPid := by
  rw [← foldl_takeFirst]
  exact (List.foldl_hom PMT.videoPid fun _ _ => rfl).symm

theorem foldl_pass_audioPid (es : List EsEntry) (pmt : PMT) :
    (es.foldl EsEntry.pass pmt).audioPid =
      if pmt.audioPid = noPid then firstPid [3, 4] es else pmt.audioPid := by
  rw [← foldl_takeFirst]
  exact (List.foldl_hom PMT.audioPid fun _ _ => rfl).symm

/-- The teletext flag after some entries. -/
theorem foldl_pass_hasTeletext (es : List EsEntry) (pmt : PMT) :
    (es.foldl EsEntry.pass pmt).hasTeletext = true ↔
      (∃ e ∈ es, e.streamType = 6) ∨ pmt.hasTeletext = true := by
  induction es generalizing pmt with
  | nil => simp
  | cons e es ih =>
    rw [List.foldl_cons, ih]
    by_cases ht : e.streamType = 6 <;> simp [EsEntry.pass, ht]

/-- No entry stores to the other fields. -/
theorem foldl_pass_kept (es : List EsEntry) (pmt : PMT) :
    (es.foldl EsEntry.pass pmt).sectionLength = pmt.sectionLength ∧
      (es.foldl EsEntry.pass pmt).prNum = pmt.prNum ∧
        (es.foldl EsEntry.pass pmt).tableId = pmt.tableId := by
  induction es generalizing pmt with
  | nil => exact ⟨rfl, rfl, rfl⟩
  | cons e es ih => exact ih (e.pass pmt)

/-- Entries of other types leave everything as it is. -/
theorem foldl_pass_of_inert {es : List EsEntry} (h : ∀ e ∈ es, e.Inert) (pmt : PMT) :
    es.foldl EsEntry.pass pmt = pmt := by
  induction es with
  | nil => rfl
  | cons e es ih =>
    have he : e.Inert := h e (by simp)
    simp only [EsEntry.Inert, List.mem_cons, List.not_mem_nil, or_false, not_or] at he
    have hpass : e.pass pmt = pmt := by simp [EsEntry.pass, EsEntry.takeFirst, he]
    rw [List.foldl_cons, hpass, ih fun e' he' => h e' (by simp [he'])]

/-! ### When the table describes the section -/

/-- The slot describes a program with these elementary streams. -/
def PMT.Describes (pmt : PMT) (es : List EsEntry) : Prop :=
  pmt.videoPid = firstPid [1, 2] es ∧ pmt.audioPid = firstPid [3, 4] es ∧
    (pmt.hasTeletext = true ↔ ∃ e ∈ es, e.streamType = 6)

/-- From the values `parse_PMT` starts with, the walk over the entries gives the right slot. -/
theorem foldl_pass_describes {pmt : PMT} (hv : pmt.videoPid = noPid) (ha : pmt.audioPid = noPid)
    (ht : pmt.hasTeletext = false) (es : List EsEntry) :
    (es.foldl EsEntry.pass pmt).Describes es := by
  refine ⟨?_, ?_, ?_⟩
  · rw [foldl_pass_videoPid, if_pos hv]
  · rw [foldl_pass_audioPid, if_pos ha]
  · simp [foldl_pass_hasTeletext, ht]

/-- `parse_PMT` terminates on this buffer and leaves a slot behind that describes `es`. -/
def ParsesPMT (buffer : Buffer) (pmt : PMT) (es : List EsEntry) : Prop :=
  ∃ fuel t, parsePMT fuel buffer pmt = some t ∧ t.Describes es

/-- The program descriptors, read as elementary stream entries, are whole entries of types the
parser ignores. -/
def Transparent (info : List UInt8) : Prop :=
  ∃ es : List EsEntry, es.flatMap EsEntry.bytes = info ∧ ∀ e ∈ es, e.Inert

/-- The loop of `parse_PMT` and the loop state it leaves behind. -/
theorem parsesPMT_iff {buffer : Buffer} {pmt : PMT} {es : List EsEntry} :
    ParsesPMT buffer pmt es ↔
      ∃ t, WhileLoop.Exits RecordWalk.more (parsePMTPass buffer) (parsePMTStart buffer pmt) t ∧
        t.acc.Describes es := by
  simp only [ParsesPMT, parsePMT, WhileLoop.Exits, Option.map_eq_some_iff]
  constructor
  · rintro ⟨fuel, -, ⟨t, ht, rfl⟩, hes⟩
    exact ⟨t, ⟨fuel, ht⟩, hes⟩
  · rintro ⟨t, ⟨fuel, ht⟩, hes⟩
    exact ⟨fuel, t.acc, ⟨t, ht, rfl⟩, hes⟩

/-- The slot as `parse_PMT` clears it before its loop. -/
def PMT.cleared (pmt : PMT) (len : ℕ) : PMT :=
  { pmt with sectionLength := len, videoPid := noPid, audioPid := noPid, hasTeletext := false }

theorem PMT.foldl_cleared_describes (pmt : PMT) (len : ℕ) (es : List EsEntry) :
    (es.foldl EsEntry.pass (pmt.cleared len)).Describes es :=
  foldl_pass_describes rfl rfl rfl es

/-- The counter of `parse_PMT` starts at the number of bytes between offset 12 and the CRC. -/
theorem parsePMTStart_eq (sec : PmtSection) (rest : Buffer) (pmt : PMT) :
    parsePMTStart (withTail sec.bytes rest) pmt =
      ⟨(sec.programInfo ++ sec.entries.flatMap EsEntry.bytes).length, 12,
        pmt.cleared sec.length⟩ := by
  have hlt := sec.length_lt
  have hleft : (((sec.length : ℤ) - 13) % 2 ^ 16).toNat =
      (sec.programInfo ++ sec.entries.flatMap EsEntry.bytes).length := by
    rw [PmtSection.length, List.length_append]
    omega
  rw [parsePMTStart, sec.sectionLength_bytes, hleft]
  rfl

/-- Transparent program descriptors do no harm, whatever the entries are. -/
theorem parsesPMT_of_transparent (sec : PmtSection) (rest : Buffer) (pmt : PMT)
    (h : Transparent sec.programInfo) :
    ParsesPMT (withTail sec.bytes rest) pmt sec.entries := by
  obtain ⟨is, his, hinert⟩ := h
  have hlt := sec.length_lt
  have hloop := sec.holdsAt_loop rest
  have hlen : (sec.programInfo ++ sec.entries.flatMap EsEntry.bytes).length < 2 ^ 16 := by
    rw [List.length_append]
    omega
  rw [← his, ← List.flatMap_append] at hloop hlen
  have hstart := parsePMTStart_eq sec rest pmt
  rw [← his, ← List.flatMap_append] at hstart
  have hwalk := exits_parsePMTPass (pmt.cleared sec.length) hlen hloop
  refine parsesPMT_iff.mpr ⟨_, hstart ▸ hwalk, ?_⟩
  simp only [List.foldl_append, foldl_pass_of_inert hinert]
  exact pmt.foldl_cleared_describes _ _

/-! ### Program descriptors that are not transparent -/

/-- A whole entry can be read off any bytes that are long enough for the descriptor length
they carry. -/
theorem exists_entry (b₀ b₁ b₂ b₃ b₄ : UInt8) (l : List UInt8)
    (h : be16 b₃ b₄ &&& 0x0FFF ≤ l.length) :
    ∃ (e : EsEntry) (r : List UInt8), e.bytes ++ r = b₀ :: b₁ :: b₂ :: b₃ :: b₄ :: l := by
  have hand : ∀ n : ℕ, be16 b₃ b₄ &&& (2 ^ n - 1) < 2 ^ n := fun n => by
    rw [Nat.and_two_pow_sub_one_eq_mod]
    exact Nat.mod_lt _ (by positivity)
  have hpid : be16 b₁ b₂ &&& (2 ^ 13 - 1) < 2 ^ 13 := by
    rw [Nat.and_two_pow_sub_one_eq_mod]
    exact Nat.mod_lt _ (by positivity)
  have h₁ := b₁.toNat_lt
  have h₃ := b₃.toNat_lt
  have htake : (l.take (be16 b₃ b₄ &&& 0x0FFF)).length = be16 b₃ b₄ &&& 0x0FFF := by
    simpa using h
  refine ⟨⟨b₀, ⟨b₁.toNat / 2 ^ 5, by omega⟩, ⟨_, hpid⟩, ⟨b₃.toNat / 2 ^ 4, by omega⟩,
    l.take (be16 b₃ b₄ &&& 0x0FFF), ?_⟩, l.drop (be16 b₃ b₄ &&& 0x0FFF), ?_⟩
  · rw [htake]
    exact hand 12
  · have hpidBytes := packed_be16 (k := 5) b₁ b₂
    have hlenBytes : packed 4 (b₃.toNat / 2 ^ 4) (be16 b₃ b₄ &&& 0x0FFF) = [b₃, b₄] :=
      packed_be16 (k := 4) b₃ b₄
    simp only [EsEntry.bytes, htake, hpidBytes, hlenBytes]
    simp

/-- Bytes split into whole entries and a remainder that no whole entry starts. -/
theorem exists_split (l : List UInt8) : ∃ (es : List EsEntry) (r : List UInt8),
    es.flatMap EsEntry.bytes ++ r = l ∧ ∀ (e : EsEntry) (m : List UInt8), e.bytes ++ m ≠ r := by
  induction hn : l.length using Nat.strong_induction_on generalizing l with
  | _ n ih =>
    by_cases hl : ∃ (e : EsEntry) (m : List UInt8), e.bytes ++ m = l
    · obtain ⟨e, m, rfl⟩ := hl
      have hlt : m.length < n := by
        rw [← hn, List.length_append, EsEntry.length_bytes]
        omega
      obtain ⟨es, r, hes, hr⟩ := ih m.length hlt m rfl
      exact ⟨e :: es, r, by simp [← hes], hr⟩
    · push Not at hl
      exact ⟨[], l, rfl, hl⟩

/-- The record read at a remainder reaches beyond it. -/
theorem length_lt_of_stub {buffer : Buffer} {p : ℕ} {r : List UInt8}
    (hr : ∀ (e : EsEntry) (m : List UInt8), e.bytes ++ m ≠ r) (h : HoldsAt buffer p r) :
    r.length < esInfoLength buffer p + 5 := by
  rcases r with _ | ⟨b₀, _ | ⟨b₁, _ | ⟨b₂, _ | ⟨b₃, _ | ⟨b₄, l⟩⟩⟩⟩⟩
  iterate 5 simp
  by_contra hle
  simp only [holdsAt_cons] at h
  obtain ⟨-, -, -, h₃, h₄, -⟩ := h
  rw [esInfoLength, h₃, h₄] at hle
  simp only [List.length_cons] at hle
  obtain ⟨e, m, he⟩ := exists_entry b₀ b₁ b₂ b₃ b₄ l (by omega)
  exact hr e m he

theorem esPid_ne_noPid (buffer : Buffer) (p : ℕ) : esPid buffer p ≠ noPid := by
  have : esPid buffer p < 2 ^ 13 := Nat.and_lt_two_pow _ (by norm_num)
  simp only [noPid]
  omega

/-- A pass stores the video PID of a video entry if there is none so far. -/
theorem videoPid_parsePMTEntry (buffer : Buffer) (p : ℕ) (pmt : PMT) :
    (parsePMTEntry buffer p pmt).videoPid =
      if (buffer p = 2 ∨ buffer p = 1) ∧ pmt.videoPid = noPid then esPid buffer p
      else pmt.videoPid := by
  simp only [parsePMTEntry]
  split_ifs <;> rfl

/-- It stores the audio PID of an audio entry if there is none so far. -/
theorem audioPid_parsePMTEntry (buffer : Buffer) (p : ℕ) (pmt : PMT) :
    (parsePMTEntry buffer p pmt).audioPid =
      if (buffer p = 3 ∨ buffer p = 4) ∧ pmt.audioPid = noPid then esPid buffer p
      else pmt.audioPid := by
  simp only [parsePMTEntry]
  split_ifs <;> rfl

/-- A video PID that has been found is never taken back. -/
theorem parsePMTEntry_videoPid_ne (buffer : Buffer) (p : ℕ) {pmt : PMT}
    (h : pmt.videoPid ≠ noPid ∨ buffer p = 2) :
    (parsePMTEntry buffer p pmt).videoPid ≠ noPid := by
  have hpid := esPid_ne_noPid buffer p
  rw [videoPid_parsePMTEntry]
  split_ifs with hif
  · exact hpid
  · rcases h with h | h
    · exact h
    · exact fun hv => hif ⟨Or.inl h, hv⟩

/-- The section with these program descriptors, no elementary streams and a CRC of bytes 2. -/
def bareSection (info : List UInt8) (h : info.length ≤ 4082) : PmtSection where
  flags := 0xB
  programNumber := 1
  version := 0xC1
  sectionNumber := 0
  lastSectionNumber := 0
  pcrReserved := 7
  pcrPid := 0x1FFF
  programInfoReserved := 0xF
  programInfo := info
  entries := []
  length_lt := by simpa using (by omega : 13 + info.length < 4096)
  crc := ⟨2, 2, 2, 2⟩

theorem bareSection_byte (info : List UInt8) (h : info.length ≤ 4082) {p : ℕ}
    (hp : 12 + info.length ≤ p) : withTail (bareSection info h).bytes (fun _ => 2) p = 2 := by
  set sec := bareSection info h
  have hbytes : sec.bytes = (sec.head ++ info) ++ [2, 2, 2, 2] := by
    simp [PmtSection.bytes, sec, bareSection, Crc.bytes]
  rcases Nat.lt_or_ge p (12 + info.length + 4) with hlt | hge
  · have hcrc := holdsAt_withTail sec.bytes fun _ => 2
    rw [hbytes, holdsAt_append, ← hbytes] at hcrc
    have hi := hcrc.2 (p - (12 + info.length)) (by simpa using (by omega))
    rw [show 0 + (sec.head ++ info).length + (p - (12 + info.length)) = p by simp; omega] at hi
    rw [hi]
    exact (List.forall_mem_iff_getElem.mp (by simp : ∀ x ∈ ([2, 2, 2, 2] : List UInt8), x = 2))
      _ _
  · exact withTail_of_le (by rw [hbytes]; simpa [Nat.add_assoc] using hge)

/-- If the program descriptors leave a remainder, the record read there reaches into the bytes
behind the section, and the loop goes on with whatever lies there. -/
theorem not_parsesPMT_of_stub {es : List EsEntry} {r info : List UInt8} (h : info.length ≤ 4082)
    (hsplit : es.flatMap EsEntry.bytes ++ r = info)
    (hr : ∀ (e : EsEntry) (m : List UInt8), e.bytes ++ m ≠ r) (hne : r ≠ []) (pmt : PMT) :
    ¬ ParsesPMT (withTail (bareSection info h).bytes fun _ => 2) pmt [] := by
  intro hparses
  obtain ⟨t, hexits, hvideo, -⟩ := parsesPMT_iff.mp hparses
  have hstart := parsePMTStart_eq (bareSection info h) (fun _ => 2) pmt
  have hloop := (bareSection info h).holdsAt_loop fun _ => 2
  set buffer : Buffer := withTail (bareSection info h).bytes fun _ => 2 with hbuffer
  have hinfo : (bareSection info h).programInfo ++
      (bareSection info h).entries.flatMap EsEntry.bytes = es.flatMap EsEntry.bytes ++ r := by
    simp [bareSection, hsplit]
  have hlen : (es.flatMap EsEntry.bytes).length + r.length = info.length := by
    rw [← hsplit, List.length_append]
  rw [hinfo, holdsAt_append] at hloop
  rw [hstart, hinfo, List.length_append, exits_parsePMTPass_iff (by omega) hloop.1] at hexits
  have hsize := length_lt_of_stub hr hloop.2
  have hinfoLength : esInfoLength buffer (12 + (es.flatMap EsEntry.bytes).length) < 2 ^ 12 :=
    Nat.and_lt_two_pow _ (by norm_num)
  -- the pass over the remainder makes the counter wrap around and leaves the section
  rw [WhileLoop.exits_iff_of_cond (by simpa [RecordWalk.more] using hne)] at hexits
  set c := parsePMTPass buffer _ with hc
  have hleft : RecordWalk.more c = true := by
    simp only [hc, RecordWalk.more, parsePMTPass, RecordWalk.pass, bne_iff_ne]
    omega
  have htwo : buffer c.pos = 2 := by
    refine bareSection_byte info h ?_
    simp only [hc, parsePMTPass, RecordWalk.pass]
    omega
  -- the next pass takes a byte 2 behind the section for a video stream
  rw [WhileLoop.exits_iff_of_cond hleft] at hexits
  have hkept := hexits.invariant (I := fun d => d.acc.videoPid ≠ noPid)
    (parsePMTEntry_videoPid_ne buffer c.pos (Or.inr htwo))
    fun d hd _ => parsePMTEntry_videoPid_ne buffer d.pos (Or.inl hd)
  exact hkept.1 hvideo

/-- What whole entries in the program descriptors store is taken for the program's streams. -/
theorem inert_of_parsesPMT {es : List EsEntry} {info : List UInt8} (h : info.length ≤ 4082)
    (hinfo : es.flatMap EsEntry.bytes = info) {pmt : PMT} {rest : Buffer}
    (hparses : ParsesPMT (withTail (bareSection info h).bytes rest) pmt []) :
    ∀ e ∈ es, e.Inert := by
  obtain ⟨t, hexits, hvideo, haudio, hteletext⟩ := parsesPMT_iff.mp hparses
  have hstart := parsePMTStart_eq (bareSection info h) rest pmt
  have hloop := (bareSection info h).holdsAt_loop rest
  have hbare : (bareSection info h).programInfo ++
      (bareSection info h).entries.flatMap EsEntry.bytes = es.flatMap EsEntry.bytes := by
    simp [bareSection, hinfo]
  rw [hbare] at hloop hstart
  have hwalk := exits_parsePMTPass (pmt.cleared (bareSection info h).length)
    (by rw [hinfo]; omega) hloop
  have ht := hexits.unique (hstart ▸ hwalk)
  obtain ⟨hv, ha, htt⟩ := pmt.foldl_cleared_describes (bareSection info h).length es
  rw [ht] at hvideo haudio hteletext
  have hnoVideo := firstPid_eq_noPid_iff.mp (hv.symm.trans hvideo)
  have hnoAudio := firstPid_eq_noPid_iff.mp (ha.symm.trans haudio)
  have hnoTeletext : ∀ e ∈ es, e.streamType ≠ 6 := fun e he h6 => by
    simpa using hteletext.mp (htt.mpr ⟨e, he, h6⟩)
  intro e he
  have h12 := hnoVideo e he
  have h34 := hnoAudio e he
  have h6 := hnoTeletext e he
  simp only [List.mem_cons, List.not_mem_nil, or_false, not_or] at h12 h34
  simp [EsEntry.Inert, h12, h34, h6]

/-- **`parse_PMT` is right for every section with given program descriptors exactly when these
are transparent.** -/
theorem parsePMT_describes_iff (info : {l : List UInt8 // l.length ≤ 4082}) :
    (∀ sec : PmtSection, sec.programInfo = info.val → ∀ (rest : Buffer) (pmt : PMT),
      ParsesPMT (withTail sec.bytes rest) pmt sec.entries) ↔ Transparent info.val := by
  constructor
  · intro hall
    have hbare := hall (bareSection info.val info.property) rfl
    obtain ⟨es, r, hsplit, hr⟩ := exists_split info.val
    rcases eq_or_ne r [] with rfl | hne
    · rw [List.append_nil] at hsplit
      exact ⟨es, hsplit, inert_of_parsesPMT info.property hsplit (hbare (fun _ => 0) default)⟩
    · exact absurd (hbare (fun _ => 2) default)
        (not_parsesPMT_of_stub info.property hsplit hr hne default)
  · intro h sec hsec rest pmt
    exact parsesPMT_of_transparent sec rest pmt (hsec ▸ h)

/-- A section with one program descriptor of five bytes, whose tag is 2, and no streams. -/
def describedSection : PmtSection where
  flags := 0xB
  programNumber := 1
  version := 0xC1
  sectionNumber := 0
  lastSectionNumber := 0
  pcrReserved := 7
  pcrPid := 0x1FFF
  programInfoReserved := 0xF
  programInfo := [2, 3, 0x1A, 0, 0]
  entries := []
  length_lt := by decide
  crc := ⟨0, 0, 0, 0⟩

/-- A video stream descriptor of the program is taken for a video stream. -/
theorem not_forall_parsesPMT : ¬ ∀ (sec : PmtSection) (rest : Buffer) (pmt : PMT),
    ParsesPMT (withTail sec.bytes rest) pmt sec.entries := by
  intro h
  obtain ⟨fuel, t, ht, hvideo, -⟩ := h describedSection (fun _ => 0) default
  have hrun : (parsePMT 1 (withTail describedSection.bytes fun _ => 0) default).map
      PMT.videoPid = some 0x31A := by decide
  obtain ⟨u, hu, hpid⟩ := Option.map_eq_some_iff.mp hrun
  rw [parsePMT_unique ht hu, hpid] at hvideo
  exact absurd hvideo (by decide)

end Zapper
