import Zapper.Stream.State

/-!
# The main thread

`main` behind the parsing of the configuration: the remote controller, `stream_init`, the wait
for the exit key, and the `goto`-based teardown with `stream_deinit`. Of the remote and the
graphics controller only the order of their calls and their success are kept.
-/

namespace Zapper

/-- The PID on which `stream_init` filters the sections of a table. -/
def Table.pid (s : State) : Table → ℕ
  | .pat => 0x0000
  | .sdt => 0x11
  | .pmt => s.selected.tableId

/-- `stream_init` returns `ERROR`, and `main` goes to `str_deinit`. -/
def State.initFail (s : State) : State :=
  { s with mainError := .error, main := .deinit .stop }

/-- `ASSERT_TDP_RESULT` in `stream_init`. -/
def State.initAssert (s : State) (r : TError × Player) (pc : InitPc) : State :=
  match r.1 with
  | .noError => { s with player := r.2, main := .init pc }
  | .error => { s with player := r.2 }.initFail

/-- A call of the tuner part of the TDP API. -/
def Player.tuner (p : Player) (r : TError × Tdp) : TError × Player := (r.1, { p with tdp := r.2 })

/-- A step of `stream_init`. The deadline of the tuner wait is taken to be a valid time, although
`tv_nsec` is never set. -/
def initStep (params : ConfigParams) (a : Answer) (s : State) : InitPc → Option State
  -- `get_prog_list` is not among the flags that are reset
  | .reset => some { s with
      player := { s.player with status := ⟨false, false⟩ }
      streamThreadRunning := false
      strPrm := ⟨false, false, false, false, s.strPrm.getProgList⟩
      main := .init .loadCounter }
  | .loadCounter => some { s with
      prCounter := (params.programNumber + (2 ^ 32 - 1)) % 2 ^ 32
      main := .init .tunerInit }
  | .tunerInit => some (s.initAssert (s.player.tuner (s.player.tdp.tunerInit a)) .registerTuner)
  | .registerTuner => some (s.initAssert
      (s.player.tuner s.player.tdp.tunerRegisterStatusCallback) .lockTuner)
  | .lockTuner =>
    let r := s.player.tdp.tunerLockToFrequency a
    some { s.initAssert (s.player.tuner r) .waitTuner with tuning := r.1 = .noError }
  | .waitTuner => if s.statusMutex then none else some { s with main := .init .waitingTuner }
  -- left by a signal or by the time-out
  | .waitingTuner => none
  | .playerInit => some (s.initAssert (s.player.init a) .openSource)
  | .openSource => some (s.initAssert (s.player.openSource a) (.setFilter .pat))
  | .setFilter t => some (s.initAssert (s.player.setFilter a (t.pid s) t.tableId)
      (if t = .pat then .registerSections else .wait t))
  | .registerSections => some (s.initAssert
      (s.player.tuner (s.player.tdp.demuxRegisterSectionFilterCallback a)) (.wait .pat))
  | .wait t => if s.statusMutex then none else some { s with main := .init (.waiting t) }
  -- left by a signal only
  | .waiting _ => none
  | .freeFilter t => some (s.initAssert (s.player.freeFilter a) (.setFilter t))
  | .checkAudioPid =>
    if params.audioPid ≠ s.selected.audioPid then some s.initFail
    else some { s with main := .init .checkVideoPid }
  | .checkVideoPid =>
    if params.videoPid ≠ s.selected.videoPid ∧ s.selected.videoPid ≠ noPid then some s.initFail
    else some { s with main := .init .createAudio }
  | .createAudio => some (s.initAssert
      (s.player.createAudio a s.selected.audioPid params.audioType) .createVideo)
  | .createVideo => some (s.initAssert
      (s.player.createVideo a s.selected.videoPid params.videoType) .createThread)
  | .createThread =>
    if a.first then
      some { s with streamThreadRunning := true, loop := .head, main := .init .announce }
    else some { s with streamThreadRunning := false }.initFail
  | .announce => some { s with main := .init (.announcing s.order s.radio) }
  | .announcing progNum radio =>
    let s := { s with graphics := s.graphics.printProgNum progNum radio }
    -- `stream_init` has no `return` here: what `main` reads as its result is undefined
    if a.first then some { s with main := .graphicsInit } else some s.initFail

/-- What `stream_init` does after the wait for a table. -/
def Table.afterWait : Table → InitPc
  | .pat => .freeFilter .sdt
  | .sdt => .freeFilter .pmt
  | .pmt => .checkAudioPid

/-- `ASSERT_TDP_RESULT` in `stream_deinit`: `main` returns `ERROR` as well. -/
def State.deinitAssert (s : State) (r : TError × Player) (pc : MainPc) : State :=
  { s with
    player := r.2
    main := match r.1 with
      | .noError => pc
      | .error => .exited .error }

/-- A step of `stream_deinit`. -/
def deinitStep (a : Answer) (s : State) : DeinitPc → Option State
  | .stop =>
    if s.streamThreadRunning then
      some { s with streamThreadRunning := false, main := .deinit .join }
    else some { s with main := .deinit .removeAudio }
  | .join =>
    match s.loop with
    | .exited .noError => some { s with main := .deinit .removeAudio }
    | .exited .error => some { s with main := .exited .error }
    | _ => none
  | .removeAudio => some (s.deinitAssert (s.player.removeAudio a) (.deinit .removeVideo))
  | .removeVideo => some (s.deinitAssert (s.player.removeVideo a) (.deinit .freeFilter))
  | .freeFilter => some (s.deinitAssert (s.player.freeFilter a) (.deinit .closeSource))
  | .closeSource => some (s.deinitAssert (s.player.closeSource a) (.deinit .deinitPlayer))
  | .deinitPlayer => some (s.deinitAssert s.player.deinit (.deinit .deinitTuner))
  | .deinitTuner => some (s.deinitAssert
      (s.player.tuner s.player.tdp.tunerDeinit) (.deinit .freeTables))
  -- a service name is freed for each program; a slot that `parse_SDT` has not stored holds no
  -- pointer, and to free what it holds ends the process
  | .freeTables =>
    if s.tables.sdt.services.FilledTo s.tables.pat.pmtCount then
      some { s with main := .unregisterRemote }
    else none

/-- A step of `main`. -/
def mainStep (params : ConfigParams) (a : Answer) (s : State) : Option State :=
  match s.main with
  | .remoteInit =>
    if a.first then some { s with main := .registerRemote }
    else some { s with main := .exited .error }
  | .registerRemote => some { s with main := .init .reset }
  | .init p => initStep params a s p
  | .graphicsInit =>
    if a.first then some { s with main := .running }
    else some { s with mainError := .error, main := .graphicsDeinit }
  -- left by the exit key only
  | .running => none
  | .graphicsDeinit =>
    if a.first then some { s with main := .deinit .stop }
    else some { s with main := .exited .error }
  | .deinit p => deinitStep a s p
  | .unregisterRemote => some { s with main := .remoteDeinit }
  | .remoteDeinit =>
    if a.first then some { s with main := .exited s.mainError }
    else some { s with main := .exited .error }
  | .exited _ => none

end Zapper
