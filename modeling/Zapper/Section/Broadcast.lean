import Zapper.Section.Pat
import Zapper.Section.Pmt
import Zapper.Section.Sdt

/-!
# A transport stream

The sections a broadcaster sends for a list of programs in the plainest case: one network entry
in the PAT, no program descriptors in the PMTs and no descriptors at the elementary streams,
and the service descriptor as the only descriptor of a service.
-/

namespace Zapper

open Memory

/-- A program of the stream. -/
structure Program where
  number : Fin 65536
  pmtPid : Fin 8192
  video : Option (Fin 8192)
  audio : Fin 8192
  name : List UInt8
  name_le : name.length ≤ 200

namespace Program

/-- A section that lists the programs, and the network entry. -/
def patSection (programs : List Program) (h : programs.length ≤ 252) : PatSection :=
  .ofPrograms (programs.map fun p => ⟨p.number, 7, p.pmtPid⟩) (by simpa using h)

/-- The elementary streams of the program: MPEG-2 video, if there is video, and MPEG audio. -/
def entries (p : Program) : List EsEntry :=
  (p.video.map fun pid => ⟨2, 7, pid, 0xF, [], by decide⟩).toList ++
    [⟨3, 7, p.audio, 0xF, [], by decide⟩]

/-- The PMT section of the program. -/
def pmtSection (p : Program) : PmtSection where
  flags := 0xB
  programNumber := p.number
  version := 0xC1
  sectionNumber := 0
  lastSectionNumber := 0
  pcrReserved := 7
  pcrPid := 0x1FFF
  programInfoReserved := 0xF
  programInfo := []
  entries := p.entries
  length_lt := by cases h : p.video <;> simp [entries, h]
  crc := ⟨0, 0, 0, 0⟩

/-- The service of the program. -/
def service (p : Program) : SdtService where
  serviceId := p.number
  eitFlags := 0xFC
  runningStatus := 8
  before := []
  service := ⟨if p.video.isSome then 1 else 2, [], p.name, by have := p.name_le; simp; omega⟩
  after := []
  loop_lt := by
    have := p.name_le
    simp [ServiceDescriptor.bytes]
    omega

/-- The PID `parse_PMT` stores for video. -/
def videoPid (p : Program) : ℕ := p.video.elim noPid Fin.val

/-- The services a section lists. -/
def sdtSection (programs : List Program)
    (h : 12 + ((programs.map service).flatMap SdtService.bytes).length < 4096) : SdtSection where
  flags := 0xF
  transportStreamId := 1
  version := 0xC1
  sectionNumber := 0
  lastSectionNumber := 0
  originalNetworkId := 1
  reserved := 0xFF
  services := programs.map service
  length_lt := h
  crc := ⟨0, 0, 0, 0⟩

end Program

/-! ### A stream of three programs -/

/-- A TV program with the PIDs of the configuration of the repository. -/
def firstProgram : Program := ⟨0x101, 0x100, some 1001, 1003, [0x41], by decide⟩

/-- A radio program. -/
def secondProgram : Program := ⟨0x102, 0x101, none, 1004, [0x42], by decide⟩

/-- Another TV program. -/
def thirdProgram : Program := ⟨0x103, 0x102, some 1005, 1006, [0x43], by decide⟩

/-- The PAT section of the stream. -/
def samplePat : PatSection :=
  Program.patSection [firstProgram, secondProgram, thirdProgram] (by decide)

/-- Its SDT section. -/
def sampleSdt : SdtSection :=
  Program.sdtSection [firstProgram, secondProgram, thirdProgram] (by decide)

end Zapper
