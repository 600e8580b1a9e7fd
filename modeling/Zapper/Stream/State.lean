import Zapper.FilterCallback
import Zapper.Graphics
import Zapper.Stream.Player

/-!
# The state of the zapper

The zapper is four threads and a handful of callbacks over shared static memory: the main thread
runs `stream_init`, waits for the exit key and runs `stream_deinit`; the stream thread runs
`stream_loop`; the remote thread runs `callback` for every key; the demultiplexer's thread runs
`filter_callback`, the tuner's `tuner_status_callback`, and every expiry of the program change
timer starts a thread for `pr_change_timer`.

A thread's place in its code is its program counter: a place stands before the piece of code it
is named after, and that piece is one atomic step. `pr_change_timer` and the arming of its timer,
which race, are taken apart store by store. Three pieces are larger than what other threads leave
undisturbed: the parsers store a section at once, the test of `pr_counter` against the number of
programs goes with its store, and a call of the TDP API goes with the check of its result in the
global `error`, which is left out. `Stream/Stores` takes apart the first, for the sections of the
programs, and `Stream/Checks` the last; as to the second, nobody else writes `pr_counter` while the
stream thread holds `stream_params_mutex`, and it reads the number of programs once.
-/

namespace Zapper

/-! ### Program counters -/

/-- The commands served by `stream_loop`, in the order in which it serves them. -/
inductive Command
  | change
  | next
  | previous
  deriving DecidableEq

/-- The places in a switch block of `stream_loop`. -/
inductive SwitchPc
  | count
  | bgd
  | removeAudio
  | removeVideo
  | freeFilter
  | setFilter
  | wait
  | waiting
  | createVideo
  | createAudio
  | announce
  | armSec
  | armNsec
  | armSet
  | clear
  deriving DecidableEq

/-- The places in `stream_loop`. From `test change` on the thread holds `stream_params_mutex`. -/
inductive LoopPc
  /-- The thread has not been created. -/
  | notCreated
  /-- The head of the loop. -/
  | head
  /-- The test of a command's flag. -/
  | test (c : Command)
  /-- Inside the block of a command. -/
  | switch (c : Command) (p : SwitchPc)
  /-- The test of `get_prog_info`. -/
  | info
  /-- The test of `get_prog_list`. -/
  | list
  /-- The thread has returned: `noError` at the head of the loop, `error` from a failed call. -/
  | exited (e : TError)
  deriving DecidableEq

/-- The places in `stream_init`; those with a table are once for each filter. -/
inductive InitPc
  | reset
  | loadCounter
  | tunerInit
  | registerTuner
  | lockTuner
  | waitTuner
  | waitingTuner
  | playerInit
  | openSource
  | setFilter (t : Table)
  | registerSections
  | wait (t : Table)
  | waiting (t : Table)
  | freeFilter (t : Table)
  | checkAudioPid
  | checkVideoPid
  | createAudio
  | createVideo
  | createThread
  | announce
  /-- The arguments of the last `ch_prog_callback` have been evaluated. -/
  | announcing (progNum : ℕ) (radio : Bool)
  deriving DecidableEq

/-- The places in `stream_deinit`. -/
inductive DeinitPc
  | stop
  | join
  | removeAudio
  | removeVideo
  | freeFilter
  | closeSource
  | deinitPlayer
  | deinitTuner
  | freeTables
  deriving DecidableEq

/-- The places in `main`, behind the parsing of the configuration. -/
inductive MainPc
  | remoteInit
  | registerRemote
  | init (p : InitPc)
  | graphicsInit
  /-- Waiting for the exit key. -/
  | running
  | graphicsDeinit
  | deinit (p : DeinitPc)
  | unregisterRemote
  | remoteDeinit
  | exited (e : TError)
  deriving DecidableEq

/-- The places in `pr_change_timer`. -/
inductive HandlerPc
  | start
  | cleared
  | stopped
  /-- The argument of `ch_prog_callback` has been evaluated. -/
  | announcing (progNum : ℕ)
  deriving DecidableEq

/-! ### Shared memory -/

/-- `config_params`. -/
structure ConfigParams where
  frequency : ℕ
  bandwidth : ℕ
  audioPid : ℕ
  videoPid : ℕ
  audioType : ℕ
  videoType : ℕ
  programNumber : ℕ

/-- `stream_params`: the command flags. -/
structure StreamParams where
  nextProgram : Bool
  previousProgram : Bool
  changeProgram : Bool
  getProgInfo : Bool
  getProgList : Bool
  deriving DecidableEq

/-- The flag of a command. -/
def StreamParams.flag (prm : StreamParams) : Command → Bool
  | .change => prm.changeProgram
  | .next => prm.nextProgram
  | .previous => prm.previousProgram

/-- Reset the flag of a command. -/
def StreamParams.clear (prm : StreamParams) : Command → StreamParams
  | .change => { prm with changeProgram := false }
  | .next => { prm with nextProgram := false }
  | .previous => { prm with previousProgram := false }

/-- The program change timer: `pr_change_timer_spec`, whether the timer is armed, and the
handlers that have been started and have not returned. -/
structure ChangeTimer where
  tvSec : ℕ
  tvNsec : ℕ
  armed : Bool
  handlers : List HandlerPc
  deriving DecidableEq

/-- `timer_settime` with the shared specification: a specification of zero disarms the timer. -/
def ChangeTimer.settime (t : ChangeTimer) : ChangeTimer :=
  { t with armed := t.tvSec ≠ 0 || t.tvNsec ≠ 0 }

/-- The whole state. -/
structure State where
  main : MainPc
  /-- The local variable `error` of `main`. -/
  mainError : TError
  loop : LoopPc
  /-- A call of `filter_callback` has done its parsing and not yet sent its signal. -/
  inCallback : Bool
  /-- The tuner's status thread has been started and has not yet reported. -/
  tuning : Bool
  /-- `status_mutex` is locked for good. -/
  statusMutex : Bool
  streamThreadRunning : Bool
  strPrm : StreamParams
  prCounter : ℕ
  tables : Tables
  player : Player
  timer : ChangeTimer
  graphics : Graphics
  volumeLvl : ℕ
  volumeMute : ℕ

namespace State

/-- The slot of the selected program, `PAT.pmts[pr_counter]`. -/
def selected (s : State) : PMT := s.tables.pat.pmts.cell s.prCounter

/-- The number `ch_prog_callback` is called with: `pr_counter + 1` in 32 bits, passed as a
`uint16_t`. -/
def order (s : State) : ℕ := (s.prCounter + 1) % 2 ^ 16

/-- The selected program is a radio program. -/
def radio (s : State) : Bool := s.selected.videoPid = noPid

/-- Static memory when `main` has parsed the configuration. -/
def powerOn : State where
  main := .remoteInit
  mainError := .noError
  loop := .notCreated
  inCallback := false
  tuning := false
  statusMutex := false
  streamThreadRunning := true
  strPrm := ⟨false, false, false, false, false⟩
  prCounter := 0
  tables := ⟨.zero, .zero⟩
  player := .zero
  timer := ⟨0, 0, false, []⟩
  graphics := .zero
  volumeLvl := 5
  volumeMute := 1

end State

/-- The stream thread holds `stream_params_mutex`; it keeps it when it leaves through a failed
call. -/
def LoopPc.holdsParams : LoopPc → Bool
  | .notCreated => false
  | .head => false
  | .exited .noError => false
  | _ => true

/-- The key callback is registered. -/
def MainPc.remoteRegistered : MainPc → Bool
  | .remoteInit => false
  | .registerRemote => false
  | .remoteDeinit => false
  | .exited _ => false
  | _ => true

end Zapper
