import Mathlib.Data.Nat.Init
import Mathlib.Data.List.Basic

/-!
# The TDP API

The functions of `tdp_api.c` the zapper calls, with their handle checks in the source's order,
over the library's globals. Below them is the Marvell player, whose code is not part of the
repository: `Answer` is what it says to the calls a function makes, and `Pe` records what it
was asked to hold. Arguments that cannot be `NULL` here, and the attribute set of a stream apart
from its PID and type, are left out.
-/

namespace Zapper

/-- `t_Error`. -/
inductive TError
  | error
  | noError
  deriving DecidableEq

/-- `t_LockStatus`. -/
inductive LockStatus
  | error
  | locked
  deriving DecidableEq

/-- The answers of the lower layer to the calls of one function: whether the first and the
second of them that can fail succeed, and the handles they return. -/
structure Answer where
  first : Bool
  second : Bool
  handle : ℕ
  buffer : ℕ
  deriving DecidableEq

/-- A stream of the Marvell player. -/
structure PeStream where
  handle : ℕ
  video : Bool
  pid : ℕ
  type : ℕ
  deriving DecidableEq

/-- A section filter of the Marvell player. -/
structure PeFilter where
  handle : ℕ
  pid : ℕ
  tableId : UInt8
  deriving DecidableEq

/-- What the Marvell player holds: the live streams and section filters, and the volume. -/
structure Pe where
  streams : List PeStream
  filters : List PeFilter
  volume : ℕ
  deriving DecidableEq

namespace Pe

/-- `MV_PE_StreamRemove`. -/
def streamRemove (pe : Pe) (handle : ℕ) : Pe :=
  { pe with streams := pe.streams.filter fun st => st.handle ≠ handle }

/-- `MV_PE_SourceRemoveSectionFilter`. -/
def removeSectionFilter (pe : Pe) (handle : ℕ) : Pe :=
  { pe with filters := pe.filters.filter fun f => f.handle ≠ handle }

end Pe

/-- The globals of `tdp_api.c`; a callback pointer is only ever `NULL` or the zapper's own
callback. -/
structure Tdp where
  hPE : ℕ
  hSource : ℕ
  hStreamA : ℕ
  hStreamV : ℕ
  hFilter : ℕ
  hBuffer : ℕ
  initDone : Bool
  tunerStatusCallback : Bool
  demuxSectionFilterCallback : Bool
  pe : Pe
  deriving DecidableEq

namespace Tdp

/-- The globals before any call. -/
def zero : Tdp where
  hPE := 0
  hSource := 0
  hStreamA := 0
  hStreamV := 0
  hFilter := 0
  hBuffer := 0
  initDone := false
  tunerStatusCallback := false
  demuxSectionFilterCallback := false
  pe := ⟨[], [], 0⟩

/-! ### The tuner -/

/-- `Tuner_Init`. -/
def tunerInit (a : Answer) (t : Tdp) : TError × Tdp :=
  if a.first && a.second then (.noError, { t with initDone := true }) else (.error, t)

/-- `Tuner_Register_Status_Callback`. -/
def tunerRegisterStatusCallback (t : Tdp) : TError × Tdp :=
  if t.tunerStatusCallback then (.error, t)
  else (.noError, { t with tunerStatusCallback := true })

/-- `Tuner_Lock_To_Frequency`; on success it has started the thread that reports the lock. -/
def tunerLockToFrequency (a : Answer) (t : Tdp) : TError × Tdp :=
  if a.first && a.second then (.noError, t) else (.error, t)

/-- `Tuner_Deinit`. -/
def tunerDeinit (t : Tdp) : TError × Tdp :=
  if t.initDone then (.noError, t) else (.error, t)

/-! ### The player -/

/-- `Player_Init`; the new value of `*playerHandle` comes second. -/
def playerInit (a : Answer) (playerHandle : ℕ) (t : Tdp) : TError × ℕ × Tdp :=
  if a.first then
    if a.second then (.noError, a.handle, { t with hPE := a.handle })
    else (.error, playerHandle, { t with hPE := a.handle })
  else (.error, playerHandle, t)

/-- `Player_Deinit`. -/
def playerDeinit (playerHandle : ℕ) (t : Tdp) : TError × Tdp :=
  if playerHandle ≠ t.hPE then (.error, t)
  else if t.hPE = 0 then (.error, t)
  else
    let pe := if t.hStreamV ≠ 0 then t.pe.streamRemove t.hStreamV else t.pe
    let pe := if t.hStreamA ≠ 0 then pe.streamRemove t.hStreamA else pe
    let pe := if t.hFilter ≠ 0 then pe.removeSectionFilter t.hFilter else pe
    (.noError,
      { t with
        hPE := 0
        hSource := 0
        hStreamA := 0
        hStreamV := 0
        hFilter := 0
        hBuffer := 0
        pe := pe })

/-- `Player_Source_Open`; the new value of `*sourceHandle` comes second. -/
def playerSourceOpen (a : Answer) (playerHandle sourceHandle : ℕ) (t : Tdp) :
    TError × ℕ × Tdp :=
  if playerHandle ≠ t.hPE then (.error, sourceHandle, t)
  else if t.hPE = 0 then (.error, sourceHandle, t)
  else if a.first then
    if a.second then (.noError, a.handle, { t with hSource := a.handle })
    else (.error, sourceHandle, { t with hSource := a.handle })
  else (.error, sourceHandle, t)

/-- `Player_Source_Close`. -/
def playerSourceClose (a : Answer) (playerHandle sourceHandle : ℕ) (t : Tdp) : TError × Tdp :=
  if playerHandle ≠ t.hPE then (.error, t)
  else if sourceHandle ≠ t.hSource then (.error, t)
  else if t.hSource = 0 then (.error, t)
  else if t.hPE = 0 then (.error, t)
  else if a.first && a.second then (.noError, { t with hSource := 0 })
  else (.error, t)

/-- `Player_Stream_Create`; the new value of `*streamHandle` comes second. A stream type from
`39` on is a video type. -/
def playerStreamCreate (a : Answer) (playerHandle sourceHandle pid streamType streamHandle : ℕ)
    (t : Tdp) : TError × ℕ × Tdp :=
  if playerHandle ≠ t.hPE then (.error, streamHandle, t)
  else if sourceHandle ≠ t.hSource then (.error, streamHandle, t)
  else if t.hPE = 0 then (.error, streamHandle, t)
  else if t.hSource = 0 then (.error, streamHandle, t)
  else if a.first then
    if 39 ≤ streamType then
      let t := { t with
        hStreamV := a.handle
        pe := { t.pe with
          streams := t.pe.streams ++ [⟨a.handle, true, pid, streamType - 38⟩] } }
      -- the stream stays when it cannot be made visible
      (if a.second then .noError else .error, a.handle, t)
    else
      (.noError, a.handle, { t with
        hStreamA := a.handle
        pe := { t.pe with streams := t.pe.streams ++ [⟨a.handle, false, pid, streamType⟩] } })
  else (.error, streamHandle, t)

/-- `Player_Stream_Remove`. -/
def playerStreamRemove (a : Answer) (playerHandle sourceHandle streamHandle : ℕ) (t : Tdp) :
    TError × Tdp :=
  if playerHandle ≠ t.hPE then (.error, t)
  else if sourceHandle ≠ t.hSource then (.error, t)
  else if streamHandle ≠ t.hStreamA ∧ streamHandle ≠ t.hStreamV then (.error, t)
  else if streamHandle = 0 then (.error, t)
  else if t.hPE = 0 then (.error, t)
  else if t.hSource = 0 then (.error, t)
  else if a.first then
    if streamHandle = t.hStreamA then
      (.noError, { t with hStreamA := 0, pe := t.pe.streamRemove t.hStreamA })
    else
      (.noError, { t with hStreamV := 0, pe := t.pe.streamRemove t.hStreamV })
  else (.error, t)

/-- `Player_Volume_Set`. -/
def playerVolumeSet (a : Answer) (playerHandle volume : ℕ) (t : Tdp) : TError × Tdp :=
  if playerHandle ≠ t.hPE then (.error, t)
  else if t.hPE = 0 then (.error, t)
  else if a.first then (.noError, { t with pe := { t.pe with volume := volume } })
  else (.error, t)

/-! ### The demultiplexer -/

/-- `Demux_Register_Section_Filter_Callback`. -/
def demuxRegisterSectionFilterCallback (a : Answer) (t : Tdp) : TError × Tdp :=
  if t.demuxSectionFilterCallback then (.error, t)
  else if a.first then (.noError, { t with demuxSectionFilterCallback := true })
  else (.error, t)

/-- `Demux_Set_Filter`; the new value of `*filterHandle` comes second. -/
def demuxSetFilter (a : Answer) (playerHandle pid : ℕ) (tableId : UInt8) (filterHandle : ℕ)
    (t : Tdp) : TError × ℕ × Tdp :=
  if playerHandle ≠ t.hPE then (.error, filterHandle, t)
  else if t.hPE = 0 then (.error, filterHandle, t)
  else if a.first then
    if a.second then
      (.noError, a.handle, { t with
        hBuffer := a.buffer
        hFilter := a.handle
        pe := { t.pe with filters := t.pe.filters ++ [⟨a.handle, pid, tableId⟩] } })
    else (.error, filterHandle, { t with hBuffer := a.buffer })
  else (.error, filterHandle, t)

/-- `Demux_Free_Filter`: a failure of the player is reported, but not returned. -/
def demuxFreeFilter (a : Answer) (playerHandle filterHandle : ℕ) (t : Tdp) : TError × Tdp :=
  if playerHandle ≠ t.hPE then (.error, t)
  else if filterHandle ≠ t.hFilter then (.error, t)
  else if t.hPE = 0 then (.error, t)
  else if t.hFilter = 0 then (.error, t)
  else
    (.noError, { t with
      hBuffer := 0
      hFilter := 0
      pe := if a.first then t.pe.removeSectionFilter t.hFilter else t.pe })

end Tdp

end Zapper
