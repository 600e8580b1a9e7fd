import Zapper.Lib.Transition
import Zapper.Stream.Loop
import Zapper.Stream.Main

/-!
# The zapper as a transition system

The remaining actors (the key callback, the section filter callback and its signal, the tuner's
status callback, the time-out of the tuner wait, the program change timer and its handlers), and
the transition function `step` over all of them. A label says which actor moves, and with which
input; a run is a list of labels, so every interleaving is a run.

The wait for a condition variable is left by a signal sent while the thread waits, and by nothing
else; a signal that meets no waiting thread is lost.
-/

namespace Zapper

/-! ### Keys -/

/-- The keys `callback` (`main.c`) knows. A digit carries the argument of `change_program`. -/
inductive Key
  | digit (program : ℕ)
  | pPlus
  | pMinus
  | info
  | ok
  | back
  | vPlus
  | vMinus
  | vMute
  | exit
  deriving DecidableEq

/-- The key of a key code. -/
def Key.ofCode : ℕ → Option Key
  | 2 => some (digit 0)
  | 3 => some (digit 1)
  | 4 => some (digit 2)
  | 5 => some (digit 3)
  | 6 => some (digit 4)
  | 7 => some (digit 5)
  | 8 => some (digit 6)
  | 62 => some pPlus
  | 61 => some pMinus
  | 358 => some info
  | 28 => some ok
  | 1 => some back
  | 63 => some vPlus
  | 64 => some vMinus
  | 60 => some vMute
  | 102 => some exit
  | _ => none

/-- The key an input event presses: only events of the value `EV_VALUE_KEYPRESS` count. -/
def Key.ofEvent (code value : ℕ) : Option Key := if value = 1 then ofCode code else none

/-- `change_program`, under `stream_params_mutex`. -/
def changeProgram (program : ℕ) (s : State) : State :=
  if program ≠ s.prCounter then
    { s with strPrm := { s.strPrm with changeProgram := true }, prCounter := program }
  else { s with graphics := s.graphics.printProgNum s.order s.radio }

/-- A change of the volume: `set_volume` and `print_volume`. The result that `set_volume` stores in
the global `error` only matters in `Stream/Checks`. -/
def changeVolume (a : Answer) (volume : ℕ) (s : State) : State :=
  { s with
    player := (s.player.setVolume a volume).2
    graphics := s.graphics.printVolume volume }

/-- `callback` for a key. The functions that lock `stream_params_mutex` cannot go on while the
stream thread holds it. -/
def press (a : Answer) (s : State) : Key → Option State
  | .digit program => if s.loop.holdsParams then none else some (changeProgram program s)
  | .pPlus =>
    if s.loop.holdsParams then none
    else some { s with strPrm := { s.strPrm with nextProgram := true } }
  | .pMinus =>
    if s.loop.holdsParams then none
    else some { s with strPrm := { s.strPrm with previousProgram := true } }
  | .info =>
    if s.loop.holdsParams then none
    else some { s with strPrm := { s.strPrm with getProgInfo := true } }
  | .ok =>
    if s.loop.holdsParams then none
    else some { s with strPrm := { s.strPrm with getProgList := true } }
  | .back => some { s with graphics := s.graphics.removeProgList }
  | .vPlus =>
    let lvl := if s.volumeLvl < 10 then s.volumeLvl + 1 else s.volumeLvl
    some (changeVolume a lvl { s with volumeLvl := lvl })
  | .vMinus =>
    let lvl := if s.volumeLvl > 0 then s.volumeLvl - 1 else s.volumeLvl
    some (changeVolume a lvl { s with volumeLvl := lvl })
  | .vMute =>
    -- `1 - volume_mute`, stored to a `uint8_t`
    let mute := (((1 : ℤ) - s.volumeMute) % 2 ^ 8).toNat
    some (changeVolume a (s.volumeLvl * mute) { s with volumeMute := mute })
  -- a signal to `zapper_exit_condition`, lost unless `main` waits
  | .exit =>
    some (match s.main with
      | .running => { s with main := .graphicsDeinit }
      | _ => s)

/-- `callback` for an input event. -/
def callback (a : Answer) (code value : ℕ) (s : State) : Option State :=
  if s.main.remoteRegistered then
    match Key.ofEvent code value with
    | some k => press a s k
    | none => some s
  else none

/-! ### Signals -/

/-- `pthread_cond_signal` on `status_condition`. -/
def State.wake (s : State) : State :=
  match s.main, s.loop with
  | .init .waitingTuner, _ => { s with main := .init .playerInit }
  | .init (.waiting t), _ => { s with main := .init t.afterWait }
  | _, .switch c .waiting => { s with loop := .switch c .createVideo }
  | _, _ => s

/-- The parsing part of a call of `filter_callback`, which stores a section at once (`Stream/Stores`
does it field by field). There is no step if the call never ends, see `Process.hangStep`. -/
def sectionStep (d : Delivery) (s : State) : Option State :=
  if s.player.registered && !s.inCallback then
    (filterCallback d s.tables).map fun tables =>
      { s with tables := tables, inCallback := true }
  else none

/-- The signal at the end of a call of `filter_callback`. -/
def signalStep (s : State) : Option State :=
  if s.inCallback && !s.statusMutex then some { s with inCallback := false }.wake else none

/-- `tuner_status_callback`. -/
def tunerStep (status : LockStatus) (s : State) : Option State :=
  if s.tuning then
    match status with
    | .locked => if s.statusMutex then none else some { s with tuning := false }.wake
    | .error => some { s with tuning := false }
  else none

/-- The time-out of the tuner wait: `stream_init` returns without unlocking `status_mutex`. -/
def timeoutStep (s : State) : Option State :=
  match s.main with
  | .init .waitingTuner => some { s with statusMutex := true }.initFail
  | _ => none

/-! ### The program change timer -/

/-- The one-shot timer expires, and a handler is started. -/
def expireStep (s : State) : Option State :=
  if s.timer.armed then
    some { s with
      timer := { s.timer with armed := false, handlers := s.timer.handlers ++ [.start] } }
  else none

/-- A step of the `i`-th running `pr_change_timer`. -/
def handlerStep (i : ℕ) (s : State) : Option State :=
  match s.timer.handlers[i]? with
  | none => none
  | some .start => some { s with
      timer := { s.timer with
        tvSec := 0
        tvNsec := 0
        handlers := s.timer.handlers.set i .cleared } }
  | some .cleared => some { s with
      timer := { s.timer.settime with handlers := s.timer.handlers.set i .stopped } }
  | some .stopped => some { s with
      timer := { s.timer with handlers := s.timer.handlers.set i (.announcing s.order) } }
  | some (.announcing progNum) => some { s with
      graphics := s.graphics.printProgNum progNum false
      timer := { s.timer with handlers := s.timer.handlers.eraseIdx i } }

/-! ### The system -/

/-- Which actor moves, with its input. -/
inductive Label
  | main (a : Answer)
  | loop (a : Answer)
  | input (code value : ℕ) (a : Answer)
  | deliver (d : Delivery)
  | signal
  | tuner (status : LockStatus)
  | timeout
  | expire
  | handler (i : ℕ)

/-- The key a label presses. -/
def Label.key : Label → Option Key
  | input code value _ => Key.ofEvent code value
  | _ => none

/-- A step of one actor. -/
def act (params : ConfigParams) (s : State) : Label → Option State
  | .main a => mainStep params a s
  | .loop a => loopStep params a s
  | .input code value a => callback a code value s
  | .deliver d => sectionStep d s
  | .signal => signalStep s
  | .tuner status => tunerStep status s
  | .timeout => timeoutStep s
  | .expire => expireStep s
  | .handler i => handlerStep i s

/-- `main` has not returned. -/
def MainPc.alive : MainPc → Bool
  | .exited _ => false
  | _ => true

/-- The transition function: the process ends when `main` returns. -/
def step (params : ConfigParams) (s : State) (l : Label) : Option State :=
  if s.main.alive then act params s l else none

theorem act_of_step {params : ConfigParams} {s s' : State} {l : Label}
    (h : step params s l = some s') : act params s l = some s' := by
  unfold step at h
  split at h
  · exact h
  · cases h

end Zapper
