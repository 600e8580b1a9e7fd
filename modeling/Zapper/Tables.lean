import Zapper.Lib.Memory

/-!
# The service information tables

The tables the zapper keeps from the transport stream (`tables.h`): the program association
table with one slot for each program, filled further by the program map tables, and the service
description table. Arrays reached through a pointer are heap blocks (`Memory.Block`); one-bit
`uint8_t` flags are `Bool`. A table's 16-bit fields are natural numbers.
-/

namespace Zapper

open Memory

/-- The bytes behind a `uint8_t*`, by their offset from the pointer. -/
abbrev Buffer := ℕ → UInt8

/-- `service_info`: one service of the service description table. The name is the content of
its `malloc`ed string, terminating `0` included. -/
structure ServiceInfo where
  serviceId : ℕ
  serviceType : UInt8
  descriptorsLoopLength : ℕ
  serviceName : List UInt8
  deriving DecidableEq, Inhabited

/-- `SDT_st`. -/
structure SDT where
  sectionLength : ℕ
  services : Block ServiceInfo

/-- `PMT_st`: one slot of the program association table. The PAT gives `prNum` and `tableId`
(the PID of the program's PMT), the program's own PMT gives the other fields. -/
structure PMT where
  tableId : ℕ
  prNum : ℕ
  sectionLength : ℕ
  audioPid : ℕ
  videoPid : ℕ
  hasTeletext : Bool
  deriving DecidableEq, Inhabited

/-- `PAT_st`. -/
structure PAT where
  sectionLength : ℕ
  pmtCount : ℕ
  pmts : Block PMT

/-- The value of `audio_pid` and `video_pid` of a program without such a stream. -/
def noPid : ℕ := 65000

/-- A PAT as it lies in static memory before the first section has been parsed. -/
def PAT.zero : PAT := ⟨0, 0, malloc (fun _ => default) 0⟩

/-- An SDT as it lies in static memory before the first section has been parsed. -/
def SDT.zero : SDT := ⟨0, malloc (fun _ => default) 0⟩

end Zapper
