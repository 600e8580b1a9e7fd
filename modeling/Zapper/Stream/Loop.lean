import Zapper.Stream.State

/-!
# The stream thread

`stream_loop`: under `stream_params_mutex`, one pass serves the commands `change_program`,
`next_program` and `previous_program` in this order, then the two requests to the graphics
controller. The source has the switch block three times; here it is `switchStep`, with the
command as a parameter. The blocks only differ in the flag they test and reset, and in how they
update `pr_counter` first: `change_program` has done that already.
-/

namespace Zapper

/-- Where the block of a command starts. -/
def Command.entry : Command → SwitchPc
  | .change => .bgd
  | .next => .count
  | .previous => .count

/-- What follows the block of a command. -/
def Command.following : Command → LoopPc
  | .change => .test .next
  | .next => .test .previous
  | .previous => .info

/-- The update of `pr_counter` by a block, in 32 bits: `next_program` only wraps around when it
meets `pmt_count` exactly. -/
def Command.count (c : Command) (prCounter pmtCount : ℕ) : ℕ :=
  match c with
  | .change => prCounter
  | .next => if (prCounter + 1) % 2 ^ 32 = pmtCount then 0 else (prCounter + 1) % 2 ^ 32
  | .previous => if prCounter = 0 then (pmtCount + (2 ^ 32 - 1)) % 2 ^ 32 else prCounter - 1

/-- `ASSERT_TDP_THREAD_RESULT`: go on, or leave the thread. -/
def State.loopAssert (s : State) (r : TError × Player) (pc : LoopPc) : State :=
  { s with
    player := r.2
    loop := match r.1 with
      | .noError => pc
      | .error => .exited .error }

/-- A step of a switch block. -/
def switchStep (params : ConfigParams) (a : Answer) (c : Command) (s : State) :
    SwitchPc → Option State
  | .count => some { s with
      prCounter := c.count s.prCounter s.tables.pat.pmtCount
      loop := .switch c .bgd }
  | .bgd => some { s with
      graphics := s.graphics.printBlackScreen
      loop := .switch c .removeAudio }
  | .removeAudio => some (s.loopAssert (s.player.removeAudio a) (.switch c .removeVideo))
  | .removeVideo => some (s.loopAssert (s.player.removeVideo a) (.switch c .freeFilter))
  | .freeFilter => some (s.loopAssert (s.player.freeFilter a) (.switch c .setFilter))
  | .setFilter => some (s.loopAssert
      (s.player.setFilter a s.selected.tableId Table.pmt.tableId) (.switch c .wait))
  | .wait => if s.statusMutex then none else some { s with loop := .switch c .waiting }
  -- left by a signal only
  | .waiting => none
  | .createVideo => some (s.loopAssert
      (s.player.createVideo a s.selected.videoPid params.videoType) (.switch c .createAudio))
  | .createAudio => some (s.loopAssert
      (s.player.createAudio a s.selected.audioPid params.audioType) (.switch c .announce))
  | .announce =>
    if s.radio then
      some { s with
        graphics := s.graphics.printProgNum s.order true
        loop := .switch c .clear }
    else some { s with loop := .switch c .armSec }
  | .armSec => some { s with
      timer := { s.timer with tvSec := 2 }
      loop := .switch c .armNsec }
  | .armNsec => some { s with
      timer := { s.timer with tvNsec := 400000000 }
      loop := .switch c .armSet }
  | .armSet => some { s with
      timer := s.timer.settime
      loop := .switch c .clear }
  | .clear => some { s with
      strPrm := s.strPrm.clear c
      loop := c.following }

/-- A step of `stream_loop`. -/
def loopStep (params : ConfigParams) (a : Answer) (s : State) : Option State :=
  match s.loop with
  | .notCreated => none
  | .head =>
    if s.streamThreadRunning then some { s with loop := .test .change }
    else some { s with loop := .exited .noError }
  | .test c =>
    if s.strPrm.flag c then some { s with loop := .switch c c.entry }
    else some { s with loop := c.following }
  | .switch c p => switchStep params a c s p
  | .info =>
    if s.strPrm.getProgInfo then
      some { s with
        graphics := s.graphics.printInfoBanner s.selected.prNum s.selected.audioPid
          s.selected.videoPid s.selected.hasTeletext
        strPrm := { s.strPrm with getProgInfo := false }
        loop := .list }
    else some { s with loop := .list }
  | .list =>
    if s.strPrm.getProgList then
      some { s with
        graphics := s.graphics.printProgList s.tables.sdt.services s.tables.pat.pmtCount
        strPrm := { s.strPrm with getProgList := false }
        loop := .head }
    else some { s with loop := .head }
  | .exited _ => none

end Zapper
