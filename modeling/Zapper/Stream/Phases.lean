import Zapper.Stream.System

/-!
# Who writes what, and when

What a step of an actor writes (`mainStep_writes`, `loopStep_writes`, `press_writes`), and the
frame of each: what a step of it leaves alone. The main thread runs straight through its code, so
that its place only ever moves forward (`stage_le_of_step`); a state is past a place when its main
thread is. What the phases of the main thread say about the other threads is `State.Coherent`, an
invariant of every run from power-on.
-/

namespace Zapper

open Transition

variable {params : ConfigParams} {a : Answer} {s s' : State} {l : Label}

/-! ### Signals only move program counters -/

namespace State

/-- A signal moves the two places only. -/
theorem wake_eq (s : State) :
    s.wake = { s with main := s.wake.main, loop := s.wake.loop } := by
  unfold wake
  split <;> rfl

@[simp] theorem wake_mainError (s : State) : s.wake.mainError = s.mainError := by
  rw [wake_eq]

@[simp] theorem wake_inCallback (s : State) : s.wake.inCallback = s.inCallback := by
  rw [wake_eq]

@[simp] theorem wake_tuning (s : State) : s.wake.tuning = s.tuning := by
  rw [wake_eq]

@[simp] theorem wake_statusMutex (s : State) : s.wake.statusMutex = s.statusMutex := by
  rw [wake_eq]

@[simp] theorem wake_streamThreadRunning (s : State) :
    s.wake.streamThreadRunning = s.streamThreadRunning := by
  rw [wake_eq]

@[simp] theorem wake_strPrm (s : State) : s.wake.strPrm = s.strPrm := by
  rw [wake_eq]

@[simp] theorem wake_prCounter (s : State) : s.wake.prCounter = s.prCounter := by
  rw [wake_eq]

@[simp] theorem wake_tables (s : State) : s.wake.tables = s.tables := by
  rw [wake_eq]

@[simp] theorem wake_player (s : State) : s.wake.player = s.player := by
  rw [wake_eq]

@[simp] theorem wake_timer (s : State) : s.wake.timer = s.timer := by
  rw [wake_eq]

@[simp] theorem wake_graphics (s : State) : s.wake.graphics = s.graphics := by
  rw [wake_eq]

end State

/-- **A signal** wakes the main thread, or else the stream thread, or is lost. -/
theorem State.wake_cases (s : State) :
    (s.main = .init .waitingTuner ∧ s.wake.main = .init .playerInit ∧ s.wake.loop = s.loop) ∨
    (∃ t, s.main = .init (.waiting t) ∧ s.wake.main = .init t.afterWait ∧
      s.wake.loop = s.loop) ∨
    (∃ c, s.loop = .switch c .waiting ∧ s.wake.main = s.main ∧
      s.wake.loop = .switch c .createVideo) ∨
    ((∀ t, s.main ≠ .init (.waiting t)) ∧ (∀ c, s.loop ≠ .switch c .waiting) ∧
      s.wake.main = s.main ∧ s.wake.loop = s.loop) := by
  unfold wake
  split
  · next h => exact .inl ⟨h, rfl, rfl⟩
  · next h => exact .inr (.inl ⟨_, h, rfl, rfl⟩)
  · next h => exact .inr (.inr (.inl ⟨_, ‹_›, rfl, rfl⟩))
  · next h₁ h₂ h₃ => exact .inr (.inr (.inr ⟨h₂, h₃, rfl, rfl⟩))

/-! ### The checks of results -/

/-- The outcome of a call of `stream_init`. -/
theorem State.initAssert_cases (s : State) (r : TError × Player) (pc : InitPc) :
    (r.1 = .noError ∧ s.initAssert r pc = { s with player := r.2, main := .init pc }) ∨
    (r.1 = .error ∧ s.initAssert r pc =
      { s with player := r.2, mainError := .error, main := .deinit .stop }) := by
  obtain ⟨_ | _, p⟩ := r
  · exact .inr ⟨rfl, rfl⟩
  · exact .inl ⟨rfl, rfl⟩

@[simp]
theorem State.initAssert_player (s : State) (r : TError × Player) (pc : InitPc) :
    (s.initAssert r pc).player = r.2 := by
  obtain ⟨-, h⟩ | ⟨-, h⟩ := s.initAssert_cases r pc <;> rw [h]

/-- The outcome of a call of `stream_loop`. -/
theorem State.loopAssert_cases (s : State) (r : TError × Player) (pc : LoopPc) :
    (r.1 = .noError ∧ s.loopAssert r pc = { s with player := r.2, loop := pc }) ∨
    (r.1 = .error ∧ s.loopAssert r pc = { s with player := r.2, loop := .exited .error }) := by
  obtain ⟨_ | _, p⟩ := r
  · exact .inr ⟨rfl, rfl⟩
  · exact .inl ⟨rfl, rfl⟩

/-! ### The place of the main thread -/

/-- The position of a table among the filters of `stream_init`. -/
def Table.index : Table → ℕ
  | .pat => 0
  | .sdt => 1
  | .pmt => 2

/-- The position of a place in `stream_init`. -/
def InitPc.stage : InitPc → ℕ
  | reset => 0
  | loadCounter => 1
  | tunerInit => 2
  | registerTuner => 3
  | lockTuner => 4
  | waitTuner => 5
  | waitingTuner => 6
  | playerInit => 7
  | openSource => 8
  | freeFilter t => 9 + 5 * t.index
  | setFilter t => 10 + 5 * t.index
  | registerSections => 11
  | wait t => 12 + 5 * t.index
  | waiting t => 13 + 5 * t.index
  | checkAudioPid => 24
  | checkVideoPid => 25
  | createAudio => 26
  | createVideo => 27
  | createThread => 28
  | announce => 29
  | announcing _ _ => 30

/-- The position of a place in `stream_deinit`. -/
def DeinitPc.stage : DeinitPc → ℕ
  | stop => 0
  | join => 1
  | removeAudio => 2
  | removeVideo => 3
  | freeFilter => 4
  | closeSource => 5
  | deinitPlayer => 6
  | deinitTuner => 7
  | freeTables => 8

/-- The position of a place in `main`. -/
def MainPc.stage : MainPc → ℕ
  | remoteInit => 0
  | registerRemote => 1
  | init p => 2 + p.stage
  | graphicsInit => 33
  | running => 34
  | graphicsDeinit => 35
  | deinit p => 36 + p.stage
  | unregisterRemote => 45
  | remoteDeinit => 46
  | exited _ => 47

theorem InitPc.stage_le (p : InitPc) : p.stage ≤ 30 := by
  cases p with
  | setFilter t | wait t | waiting t | freeFilter t => cases t <;> simp [stage, Table.index]
  | _ => simp [stage]

theorem MainPc.stage_le (m : MainPc) : m.stage ≤ (MainPc.exited .error).stage := by
  cases m with
  | init p =>
    have hle := p.stage_le
    exact show 2 + p.stage ≤ 47 by omega
  | deinit p => cases p <;> decide
  | exited e => exact le_rfl
  | _ => decide

/-- Where `stream_init` goes on behind a place. -/
def InitPc.next (s : State) : InitPc → MainPc
  | reset => .init .loadCounter
  | loadCounter => .init .tunerInit
  | tunerInit => .init .registerTuner
  | registerTuner => .init .lockTuner
  | lockTuner => .init .waitTuner
  | waitTuner => .init .waitingTuner
  | waitingTuner => .init .playerInit
  | playerInit => .init .openSource
  | openSource => .init (.setFilter .pat)
  | setFilter t => .init (if t = .pat then .registerSections else .wait t)
  | registerSections => .init (.wait .pat)
  | wait t => .init (.waiting t)
  | waiting t => .init t.afterWait
  | freeFilter t => .init (.setFilter t)
  | checkAudioPid => .init .checkVideoPid
  | checkVideoPid => .init .createAudio
  | createAudio => .init .createVideo
  | createVideo => .init .createThread
  | createThread => .init .announce
  | announce => .init (.announcing s.order s.radio)
  | announcing _ _ => .graphicsInit

/-- **Where a step of `stream_init` leads to**: it goes on, or gives up. -/
theorem main_of_initStep {p : InitPc} (h : initStep params a s p = some s') :
    s'.main = p.next s ∨ s'.main = .deinit .stop := by
  cases p with
  | reset | loadCounter | announce =>
    obtain rfl := Option.some.inj h
    exact .inl rfl
  | waitTuner | wait t =>
    simp only [initStep] at h
    split at h
    · cases h
    · obtain rfl := Option.some.inj h
      exact .inl rfl
  | waitingTuner | waiting t => cases h
  | checkAudioPid | checkVideoPid =>
    simp only [initStep] at h
    split at h
    · obtain rfl := Option.some.inj h
      exact .inr rfl
    · obtain rfl := Option.some.inj h
      exact .inl rfl
  | createThread | announcing progNum radio =>
    simp only [initStep] at h
    split at h
    · obtain rfl := Option.some.inj h
      exact .inl rfl
    · obtain rfl := Option.some.inj h
      exact .inr rfl
  | _ =>
    -- a call of the player
    obtain rfl := Option.some.inj h
    obtain ⟨-, hr⟩ | ⟨-, hr⟩ := s.initAssert_cases _ _
    · exact .inl (congrArg State.main hr)
    · exact .inr (congrArg State.main hr)

/-- Where `stream_deinit` goes on behind a place. -/
def DeinitPc.next (s : State) : DeinitPc → MainPc
  | stop => .deinit (if s.streamThreadRunning then .join else .removeAudio)
  | join => .deinit .removeAudio
  | removeAudio => .deinit .removeVideo
  | removeVideo => .deinit .freeFilter
  | freeFilter => .deinit .closeSource
  | closeSource => .deinit .deinitPlayer
  | deinitPlayer => .deinit .deinitTuner
  | deinitTuner => .deinit .freeTables
  | freeTables => .unregisterRemote

/-- Behind the tables: the names of the services have been freed. -/
theorem deinitStep_freeTables (h : deinitStep a s .freeTables = some s') :
    s' = { s with main := .unregisterRemote } := by
  simp only [deinitStep] at h
  split at h
  · exact (Option.some.inj h).symm
  · cases h

/-- **Where a step of `stream_deinit` leads to**: it goes on, or `main` returns. -/
theorem main_of_deinitStep {p : DeinitPc} (h : deinitStep a s p = some s') :
    s'.main = p.next s ∨ s'.main = .exited .error := by
  cases p with
  | stop =>
    simp only [deinitStep] at h
    split at h
    · next hrun =>
      obtain rfl := Option.some.inj h
      exact .inl (by simp [DeinitPc.next, hrun])
    · next hrun =>
      obtain rfl := Option.some.inj h
      exact .inl (by simp [DeinitPc.next, hrun])
  | join =>
    simp only [deinitStep] at h
    split at h
    · obtain rfl := Option.some.inj h
      exact .inl rfl
    · obtain rfl := Option.some.inj h
      exact .inr rfl
    · cases h
  | freeTables =>
    obtain rfl := deinitStep_freeTables h
    exact .inl rfl
  | _ =>
    -- a call of the player
    obtain rfl := Option.some.inj h
    simp only [State.deinitAssert]
    split
    · exact .inl rfl
    · exact .inr rfl

/-- `stream_init` never leads back. -/
theorem InitPc.stage_lt_next (p : InitPc) : 2 + p.stage < (p.next s).stage := by
  cases p with
  | setFilter t | wait t | waiting t | freeFilter t =>
    cases t <;> simp [next, MainPc.stage, stage, Table.index, Table.afterWait]
  | _ => simp [next, MainPc.stage, stage, Table.index]

theorem InitPc.stage_next_le (p : InitPc) : (p.next s).stage ≤ 33 := by
  cases p with
  | setFilter t | wait t | waiting t | freeFilter t =>
    cases t <;> simp [next, MainPc.stage, stage, Table.index, Table.afterWait]
  | _ => simp [next, MainPc.stage, stage, Table.index]

theorem DeinitPc.stage_lt_next (p : DeinitPc) : 36 + p.stage < (p.next s).stage := by
  cases p with
  | stop =>
    simp only [next]
    split <;> decide
  | _ => simp [next, MainPc.stage, stage]

/-- Where `main` goes on behind a place. -/
def MainPc.next (s : State) : MainPc → MainPc
  | remoteInit => .registerRemote
  | registerRemote => .init .reset
  | init p => p.next s
  | graphicsInit => .running
  | running => .graphicsDeinit
  | graphicsDeinit => .deinit .stop
  | deinit p => p.next s
  | unregisterRemote => .remoteDeinit
  | remoteDeinit => .exited s.mainError
  | exited e => .exited e

/-- Where `main` goes when a call fails. -/
def MainPc.fail : MainPc → MainPc
  | init _ => .deinit .stop
  | graphicsInit => .graphicsDeinit
  | _ => .exited .error

/-- **Where a step of the main thread leads to.** -/
theorem main_of_mainStep (h : mainStep params a s = some s') :
    s'.main = s.main.next s ∨ s'.main = s.main.fail := by
  cases hm : s.main with
  | init p => exact main_of_initStep (by simpa [mainStep, hm] using h)
  | deinit p => exact main_of_deinitStep (by simpa [mainStep, hm] using h)
  | running | exited e => simp [mainStep, hm] at h
  | registerRemote | unregisterRemote =>
    simp only [mainStep, hm] at h
    obtain rfl := Option.some.inj h
    exact .inl rfl
  | remoteInit | graphicsInit | graphicsDeinit | remoteDeinit =>
    simp only [mainStep, hm] at h
    split at h
    · obtain rfl := Option.some.inj h
      exact .inl rfl
    · obtain rfl := Option.some.inj h
      exact .inr rfl

theorem alive_of_mainStep (h : mainStep params a s = some s') : s.main.alive = true := by
  cases hm : s.main with
  | exited e => simp [mainStep, hm] at h
  | _ => rfl

theorem MainPc.stage_lt_next {m : MainPc} (halive : m.alive = true) (s : State) :
    m.stage < (m.next s).stage := by
  cases m with
  | init p => exact p.stage_lt_next
  | deinit p => exact p.stage_lt_next
  | exited e => cases halive
  | _ => simp [next, stage, InitPc.stage, DeinitPc.stage]

theorem MainPc.stage_lt_fail {m : MainPc} (halive : m.alive = true) : m.stage < m.fail.stage := by
  cases m with
  | init p =>
    have hle := p.stage_le
    exact show 2 + p.stage < 36 by omega
  | deinit p => cases p <;> decide
  | exited e => cases halive
  | _ => decide

/-- The main thread moves forward. -/
theorem stage_lt_of_mainStep (h : mainStep params a s = some s') :
    s.main.stage < s'.main.stage := by
  have halive := alive_of_mainStep h
  obtain hn | hn := main_of_mainStep h
  · exact hn ▸ MainPc.stage_lt_next halive s
  · exact hn ▸ MainPc.stage_lt_fail halive

theorem State.stage_le_wake (s : State) : s.main.stage ≤ s.wake.main.stage := by
  obtain ⟨h, h', -⟩ | ⟨t, h, h', -⟩ | ⟨c, -, h, -⟩ | ⟨-, -, h, -⟩ := s.wake_cases
  · rw [h, h']
    decide
  · rw [h, h']
    cases t <;> decide
  · rw [h]
  · rw [h]

/-! ### The place of the stream thread -/

/-- Where a switch block goes on behind a place. -/
def SwitchPc.next (s : State) (c : Command) : SwitchPc → LoopPc
  | count => .switch c .bgd
  | bgd => .switch c .removeAudio
  | removeAudio => .switch c .removeVideo
  | removeVideo => .switch c .freeFilter
  | freeFilter => .switch c .setFilter
  | setFilter => .switch c .wait
  | wait => .switch c .waiting
  | waiting => .switch c .createVideo
  | createVideo => .switch c .createAudio
  | createAudio => .switch c .announce
  | announce => .switch c (if s.radio then .clear else .armSec)
  | armSec => .switch c .armNsec
  | armNsec => .switch c .armSet
  | armSet => .switch c .clear
  | clear => c.following

/-- Where `stream_loop` goes on behind a place. -/
def LoopPc.next (s : State) : LoopPc → LoopPc
  | notCreated => .notCreated
  | head => if s.streamThreadRunning then .test .change else .exited .noError
  | test c => if s.strPrm.flag c then .switch c c.entry else c.following
  | switch c p => p.next s c
  | info => .list
  | list => .head
  | exited e => .exited e

theorem loop_of_switchStep {c : Command} {p : SwitchPc}
    (h : switchStep params a c s p = some s') :
    s'.loop = p.next s c ∨ s'.loop = .exited .error := by
  cases p with
  | wait =>
    simp only [switchStep] at h
    split at h
    · cases h
    · obtain rfl := Option.some.inj h
      exact .inl rfl
  | waiting => cases h
  | announce =>
    simp only [switchStep] at h
    split at h
    · next hradio =>
      obtain rfl := Option.some.inj h
      exact .inl (by simp [SwitchPc.next, hradio])
    · next hradio =>
      obtain rfl := Option.some.inj h
      exact .inl (by simp [SwitchPc.next, hradio])
  | count | bgd | armSec | armNsec | armSet | clear =>
    obtain rfl := Option.some.inj h
    exact .inl rfl
  | _ =>
    -- a call of the player
    obtain rfl := Option.some.inj h
    obtain ⟨-, hr⟩ | ⟨-, hr⟩ := s.loopAssert_cases _ _
    · exact .inl (congrArg State.loop hr)
    · exact .inr (congrArg State.loop hr)

/-- **Where a step of the stream thread leads to**: it goes on, or gives up in a switch. -/
theorem loop_of_loopStep (h : loopStep params a s = some s') :
    s'.loop = s.loop.next s ∨ (∃ c p, s.loop = .switch c p) ∧ s'.loop = .exited .error := by
  cases hl : s.loop with
  | switch c p =>
    obtain hn | hn := loop_of_switchStep (c := c) (p := p) (by simpa [loopStep, hl] using h)
    · exact .inl hn
    · exact .inr ⟨⟨c, p, rfl⟩, hn⟩
  | head | test c | info | list =>
    refine .inl ?_
    simp only [loopStep, hl] at h
    split at h
    · next hc =>
      obtain rfl := Option.some.inj h
      simp [LoopPc.next, hc]
    · next hc =>
      obtain rfl := Option.some.inj h
      simp [LoopPc.next, hc]
  | notCreated | exited e => simp [loopStep, hl] at h

/-- The stream thread comes to a place in a switch from its entry, or from the place before. -/
theorem switch_of_loopStep {c : Command} {p : SwitchPc} (h : loopStep params a s = some s')
    (hl' : s'.loop = .switch c p) :
    p = c.entry ∨ ∃ q, s.loop = .switch c q ∧ q ≠ .waiting ∧ q.next s c = .switch c p := by
  obtain hn | ⟨-, hn⟩ := loop_of_loopStep h
  · rw [hn] at hl'
    cases hl : s.loop with
    | switch c' q =>
      rw [hl] at hl'
      have hc : c' = c := by
        cases q with
        | clear => cases c' <;> cases hl'
        | _ =>
          cases hl'
          rfl
      subst hc
      refine .inr ⟨q, rfl, fun hq => ?_, hl'⟩
      simp [loopStep, hl, hq, switchStep] at h
    | test c' =>
      rw [hl] at hl'
      simp only [LoopPc.next] at hl'
      split at hl'
      · cases hl'
        exact .inl rfl
      · cases c' <;> cases hl'
    | head =>
      rw [hl] at hl'
      simp only [LoopPc.next] at hl'
      split at hl' <;> cases hl'
    | _ =>
      rw [hl] at hl'
      cases hl'
  · cases hn.symm.trans hl'

/-- Between the wait of a switch and its announcement, each place has one before it. -/
theorem SwitchPc.next_cases {c : Command} {q p : SwitchPc} (h : q.next s c = .switch c p) :
    (p = .createVideo → q = .waiting) ∧ (p = .createAudio → q = .createVideo) ∧
      (p = .announce → q = .createAudio) := by
  cases q with
  | announce =>
    cases h
    split <;> simp
  | clear => cases c <;> cases h
  | _ =>
    cases h
    simp

/-! ### What the main thread writes -/

/-- What a step of the main thread writes: its place and its result, and the player, if it calls
it; and something else at a few places. -/
inductive MainWrites (params : ConfigParams) (s s' : State) : Prop
  | call (h : s' = { s with main := s'.main, mainError := s'.mainError, player := s'.player })
  | reset (hm : s.main = .init .reset)
    (h : s' = { s with
      main := .init .loadCounter
      player := s'.player
      streamThreadRunning := false
      strPrm := ⟨false, false, false, false, s.strPrm.getProgList⟩ })
  | loadCounter (hm : s.main = .init .loadCounter)
    (h : s' = { s with
      main := .init .tunerInit
      prCounter := (params.programNumber + (2 ^ 32 - 1)) % 2 ^ 32 })
  | lockTuner (hm : s.main = .init .lockTuner)
    (h : s' = { s with
      main := s'.main
      mainError := s'.mainError
      player := s'.player
      tuning := s'.tuning })
  | createThread (hm : s.main = .init .createThread)
    (h : s' = { s with main := .init .announce, loop := .head, streamThreadRunning := true })
  | noThread (hm : s.main = .init .createThread)
    (h : s' = { s with
      main := .deinit .stop
      mainError := .error
      streamThreadRunning := false })
  | announce (progNum : ℕ) (radio : Bool) (hm : s.main = .init (.announcing progNum radio))
    (h : s' = { s with
      main := s'.main
      mainError := s'.mainError
      graphics := s.graphics.printProgNum progNum radio })
  | stop (hm : s.main = .deinit .stop)
    (h : s' = { s with main := .deinit .join, streamThreadRunning := false })

theorem initStep_writes {p : InitPc} (hm : s.main = .init p)
    (h : initStep params a s p = some s') : MainWrites params s s' := by
  cases p with
  | reset =>
    obtain rfl := Option.some.inj h
    exact .reset hm rfl
  | loadCounter =>
    obtain rfl := Option.some.inj h
    exact .loadCounter hm rfl
  | lockTuner =>
    obtain rfl := Option.some.inj h
    refine .lockTuner hm ?_
    obtain ⟨-, hr⟩ | ⟨-, hr⟩ := s.initAssert_cases
      (s.player.tuner (s.player.tdp.tunerLockToFrequency a)) .waitTuner <;> rw [hr]
  | waitTuner | wait t =>
    simp only [initStep] at h
    split at h
    · cases h
    · obtain rfl := Option.some.inj h
      exact .call rfl
  | waitingTuner => cases h
  | waiting t => cases h
  | checkAudioPid | checkVideoPid =>
    simp only [initStep] at h
    split at h
    · obtain rfl := Option.some.inj h
      exact .call rfl
    · obtain rfl := Option.some.inj h
      exact .call rfl
  | createThread =>
    simp only [initStep] at h
    split at h
    · obtain rfl := Option.some.inj h
      exact .createThread hm rfl
    · obtain rfl := Option.some.inj h
      exact .noThread hm rfl
  | announce =>
    obtain rfl := Option.some.inj h
    exact .call rfl
  | announcing progNum radio =>
    simp only [initStep] at h
    split at h
    · obtain rfl := Option.some.inj h
      exact .announce progNum radio hm rfl
    · obtain rfl := Option.some.inj h
      exact .announce progNum radio hm rfl
  | _ =>
    -- a call of the player
    obtain rfl := Option.some.inj h
    refine .call ?_
    obtain ⟨-, hr⟩ | ⟨-, hr⟩ := s.initAssert_cases _ _ <;> rw [hr]

theorem deinitStep_writes {p : DeinitPc} (hm : s.main = .deinit p)
    (h : deinitStep a s p = some s') : MainWrites params s s' := by
  cases p with
  | stop =>
    simp only [deinitStep] at h
    split at h
    · obtain rfl := Option.some.inj h
      exact .stop hm rfl
    · obtain rfl := Option.some.inj h
      exact .call rfl
  | join =>
    simp only [deinitStep] at h
    split at h
    · obtain rfl := Option.some.inj h
      exact .call rfl
    · obtain rfl := Option.some.inj h
      exact .call rfl
    · cases h
  | freeTables =>
    obtain rfl := deinitStep_freeTables h
    exact .call rfl
  | _ =>
    obtain rfl := Option.some.inj h
    exact .call rfl

/-- **What a step of the main thread writes.** -/
theorem mainStep_writes (h : mainStep params a s = some s') : MainWrites params s s' := by
  cases hm : s.main with
  | init p => exact initStep_writes hm (by simpa [mainStep, hm] using h)
  | deinit p => exact deinitStep_writes hm (by simpa [mainStep, hm] using h)
  | running => simp [mainStep, hm] at h
  | exited e => simp [mainStep, hm] at h
  | registerRemote | unregisterRemote =>
    simp only [mainStep, hm] at h
    obtain rfl := Option.some.inj h
    exact .call rfl
  | _ =>
    simp only [mainStep, hm] at h
    split at h
    · obtain rfl := Option.some.inj h
      exact .call rfl
    · obtain rfl := Option.some.inj h
      exact .call rfl

/-! ### What the stream thread writes -/

/-- What a step of the stream thread writes: `pr_counter` and the flag of a command at the two
ends of its block, the player, the screen and the timer in between, and the screen and the flags
of the requests outside the blocks. -/
inductive LoopWrites (s s' : State) : Prop
  | count (c : Command) (hl : s.loop = .switch c .count)
    (h : s' = { s with
      loop := .switch c .bgd
      prCounter := c.count s.prCounter s.tables.pat.pmtCount })
  | block (c : Command) (p : SwitchPc) (hl : s.loop = .switch c p) (hcount : p ≠ .count)
    (hclear : p ≠ .clear)
    (h : s' = { s with
      loop := s'.loop
      player := s'.player
      graphics := s'.graphics
      timer := { s'.timer with handlers := s.timer.handlers } })
  | clear (c : Command) (hl : s.loop = .switch c .clear)
    (h : s' = { s with loop := c.following, strPrm := s.strPrm.clear c })
  | outside (hl : ∀ c p, s.loop ≠ .switch c p)
    (h : s' = { s with
      loop := s'.loop
      graphics := s'.graphics
      strPrm := { s.strPrm with
        getProgInfo := s'.strPrm.getProgInfo
        getProgList := s'.strPrm.getProgList } })

theorem switchStep_writes {c : Command} {p : SwitchPc} (hl : s.loop = .switch c p)
    (h : switchStep params a c s p = some s') : LoopWrites s s' := by
  cases p with
  | count =>
    obtain rfl := Option.some.inj h
    exact .count c hl rfl
  | clear =>
    obtain rfl := Option.some.inj h
    exact .clear c hl rfl
  | wait | announce =>
    simp only [switchStep] at h
    split at h <;> cases h <;> exact .block c _ hl (by simp) (by simp) rfl
  | waiting => cases h
  | _ =>
    obtain rfl := Option.some.inj h
    exact .block c _ hl (by simp) (by simp) rfl

/-- **What a step of the stream thread writes.** -/
theorem loopStep_writes (h : loopStep params a s = some s') : LoopWrites s s' := by
  cases hl : s.loop with
  | switch c p => exact switchStep_writes hl (by simpa [loopStep, hl] using h)
  | head | test c | info | list =>
    simp only [loopStep, hl] at h
    split at h <;> cases h <;> exact .outside (by simp [hl]) rfl
  | notCreated | exited e => simp [loopStep, hl] at h

/-! ### What a key writes -/

/-- What a key writes. -/
inductive PressWrites (a : Answer) (s s' : State) : Key → Prop
  | digit (program : ℕ) (h : s' = changeProgram program s) : PressWrites a s s' (.digit program)
  | pPlus (h : s' = { s with strPrm := { s.strPrm with nextProgram := true } }) :
    PressWrites a s s' .pPlus
  | pMinus (h : s' = { s with strPrm := { s.strPrm with previousProgram := true } }) :
    PressWrites a s s' .pMinus
  | request {k : Key} (hk : k = .info ∨ k = .ok)
    (h : s' = { s with
      strPrm := { s.strPrm with
        getProgInfo := s'.strPrm.getProgInfo
        getProgList := s'.strPrm.getProgList } }) : PressWrites a s s' k
  | back (h : s' = { s with graphics := s.graphics.removeProgList }) : PressWrites a s s' .back
  | volume {k : Key} (hk : k = .vPlus ∨ k = .vMinus ∨ k = .vMute) (volume volumeLvl volumeMute : ℕ)
    (h : s' = changeVolume a volume
      { s with volumeLvl := volumeLvl, volumeMute := volumeMute }) : PressWrites a s s' k
  | exit (hm : s'.main = s.main ∨ s.main = .running ∧ s'.main = .graphicsDeinit)
    (h : s' = { s with main := s'.main }) : PressWrites a s s' .exit

/-- **What a key writes.** -/
theorem press_writes {k : Key} (h : press a s k = some s') : PressWrites a s s' k := by
  cases k with
  | digit program =>
    simp only [press] at h
    split at h
    · cases h
    · exact .digit program (Option.some.inj h).symm
  | pPlus =>
    simp only [press] at h
    split at h
    · cases h
    · exact .pPlus (Option.some.inj h).symm
  | pMinus =>
    simp only [press] at h
    split at h
    · cases h
    · exact .pMinus (Option.some.inj h).symm
  | info | ok =>
    simp only [press] at h
    split at h
    · cases h
    · obtain rfl := Option.some.inj h
      exact .request (by simp) rfl
  | back => exact .back (Option.some.inj h).symm
  | vPlus | vMinus | vMute => exact .volume (by simp) _ _ _ (Option.some.inj h).symm
  | exit =>
    obtain rfl := Option.some.inj h
    split
    · next hm => exact .exit (.inr ⟨hm, rfl⟩) rfl
    · exact .exit (.inl rfl) rfl

/-! ### Frames -/

/-- What the stream thread leaves alone. -/
structure LoopFrame (s s' : State) : Prop where
  main : s'.main = s.main
  mainError : s'.mainError = s.mainError
  inCallback : s'.inCallback = s.inCallback
  tuning : s'.tuning = s.tuning
  statusMutex : s'.statusMutex = s.statusMutex
  running : s'.streamThreadRunning = s.streamThreadRunning
  tables : s'.tables = s.tables
  handlers : s'.timer.handlers = s.timer.handlers

/-- What the main thread leaves alone. -/
structure MainFrame (s s' : State) : Prop where
  inCallback : s'.inCallback = s.inCallback
  statusMutex : s'.statusMutex = s.statusMutex
  tables : s'.tables = s.tables
  timer : s'.timer = s.timer

/-- What a key leaves alone. -/
structure PressFrame (s s' : State) : Prop where
  main : s'.main = s.main ∨ s.main = .running ∧ s'.main = .graphicsDeinit
  mainError : s'.mainError = s.mainError
  loop : s'.loop = s.loop
  inCallback : s'.inCallback = s.inCallback
  tuning : s'.tuning = s.tuning
  statusMutex : s'.statusMutex = s.statusMutex
  running : s'.streamThreadRunning = s.streamThreadRunning
  tables : s'.tables = s.tables
  timer : s'.timer = s.timer

theorem loopStep_frame (h : loopStep params a s = some s') : LoopFrame s s' := by
  rcases loopStep_writes h with ⟨_, -, h⟩ | ⟨_, _, -, -, -, h⟩ | ⟨_, -, h⟩ | ⟨-, h⟩
  all_goals constructor <;> rw [h]

theorem mainStep_frame (h : mainStep params a s = some s') : MainFrame s s' := by
  rcases mainStep_writes h with h | ⟨-, h⟩ | ⟨-, h⟩ | ⟨-, h⟩ | ⟨-, h⟩ | ⟨-, h⟩ | ⟨_, _, -, h⟩ |
    ⟨-, h⟩
  all_goals constructor <;> rw [h]

theorem press_frame {k : Key} (h : press a s k = some s') : PressFrame s s' := by
  cases press_writes h with
  | digit program hw =>
    rw [hw, changeProgram]
    split <;> exact ⟨.inl rfl, rfl, rfl, rfl, rfl, rfl, rfl, rfl, rfl⟩
  | exit hm hw =>
    refine ⟨hm, ?_, ?_, ?_, ?_, ?_, ?_, ?_, ?_⟩ <;> rw [hw]
  | pPlus hw | pMinus hw | request _ hw | back hw | volume _ _ _ _ hw =>
    rw [hw]
    exact ⟨.inl rfl, rfl, rfl, rfl, rfl, rfl, rfl, rfl, rfl⟩

/-- A key asks the player for a volume at most. -/
theorem player_of_press {k : Key} (h : press a s k = some s') :
    s'.player = s.player ∨ ∃ volume, s'.player = (s.player.setVolume a volume).2 := by
  cases press_writes h with
  | digit program hw =>
    rw [hw, changeProgram]
    split <;> exact .inl rfl
  | volume _ volume _ _ hw => exact .inr ⟨volume, by rw [hw]; rfl⟩
  | pPlus hw | pMinus hw | request _ hw | back hw | exit _ hw => exact .inl (by rw [hw])

/-- An input event presses a key, or does nothing. -/
theorem callback_cases {code value : ℕ} (h : callback a code value s = some s') :
    (∃ k, Key.ofEvent code value = some k ∧ press a s k = some s') ∨
      (Key.ofEvent code value = none ∧ s' = s) := by
  unfold callback at h
  split at h
  · split at h
    · next k hk => exact .inl ⟨k, hk, h⟩
    · next hk => exact .inr ⟨hk, (Option.some.inj h).symm⟩
  · cases h

theorem callback_frame {code value : ℕ} (h : callback a code value s = some s') :
    PressFrame s s' := by
  obtain ⟨k, -, hk⟩ | ⟨-, rfl⟩ := callback_cases h
  · exact press_frame hk
  · exact ⟨.inl rfl, rfl, rfl, rfl, rfl, rfl, rfl, rfl, rfl⟩

/-! ### The callbacks and the timer -/

theorem sectionStep_eq_some {d : Delivery} (h : sectionStep d s = some s') :
    s.player.registered = true ∧ s.inCallback = false ∧
      ∃ tables, filterCallback d s.tables = some tables ∧
        s' = { s with tables := tables, inCallback := true } := by
  unfold sectionStep at h
  split at h
  · next hc =>
    obtain ⟨tables, ht, rfl⟩ := Option.map_eq_some_iff.mp h
    simp only [Bool.and_eq_true, Bool.not_eq_true'] at hc
    exact ⟨hc.1, hc.2, tables, ht, rfl⟩
  · cases h

theorem signalStep_eq_some (h : signalStep s = some s') :
    s.inCallback = true ∧ s.statusMutex = false ∧ s' = { s with inCallback := false }.wake := by
  unfold signalStep at h
  split at h
  · next hc =>
    simp only [Bool.and_eq_true, Bool.not_eq_true'] at hc
    exact ⟨hc.1, hc.2, (Option.some.inj h).symm⟩
  · cases h

theorem tunerStep_locked (h : tunerStep .locked s = some s') :
    s.tuning = true ∧ s' = { s with tuning := false }.wake := by
  simp only [tunerStep] at h
  split at h
  · next ht =>
    split at h
    · cases h
    · exact ⟨ht, (Option.some.inj h).symm⟩
  · cases h

theorem tunerStep_eq_some {status : LockStatus} (h : tunerStep status s = some s') :
    s.tuning = true ∧
      (s' = { s with tuning := false }.wake ∨ s' = { s with tuning := false }) := by
  cases status with
  | locked =>
    obtain ⟨ht, hs'⟩ := tunerStep_locked h
    exact ⟨ht, .inl hs'⟩
  | error =>
    simp only [tunerStep] at h
    split at h
    · next ht => exact ⟨ht, .inr (Option.some.inj h).symm⟩
    · cases h

theorem timeoutStep_eq_some (h : timeoutStep s = some s') :
    s.main = .init .waitingTuner ∧ s' = { s with statusMutex := true }.initFail := by
  unfold timeoutStep at h
  split at h
  · next hm => exact ⟨hm, (Option.some.inj h).symm⟩
  · cases h

theorem expireStep_eq_some (h : expireStep s = some s') :
    s.timer.armed = true ∧ s' = { s with
      timer := { s.timer with armed := false, handlers := s.timer.handlers ++ [.start] } } := by
  unfold expireStep at h
  split at h
  · next harmed => exact ⟨harmed, (Option.some.inj h).symm⟩
  · cases h

/-- What a handler of the program change timer leaves alone. -/
structure HandlerFrame (s s' : State) : Prop where
  main : s'.main = s.main
  mainError : s'.mainError = s.mainError
  loop : s'.loop = s.loop
  inCallback : s'.inCallback = s.inCallback
  tuning : s'.tuning = s.tuning
  statusMutex : s'.statusMutex = s.statusMutex
  running : s'.streamThreadRunning = s.streamThreadRunning
  strPrm : s'.strPrm = s.strPrm
  prCounter : s'.prCounter = s.prCounter
  tables : s'.tables = s.tables
  player : s'.player = s.player

theorem handlerStep_frame {i : ℕ} (h : handlerStep i s = some s') : HandlerFrame s s' := by
  unfold handlerStep at h
  split at h <;> cases h <;> exact ⟨rfl, rfl, rfl, rfl, rfl, rfl, rfl, rfl, rfl, rfl, rfl⟩

/-- Neither thread moves, no key is pressed, and no handler runs. -/
def Label.event : Label → Bool
  | deliver _ => true
  | signal => true
  | tuner _ => true
  | timeout => true
  | expire => true
  | _ => false

/-- What sections, signals, the tuner and the timers leave alone. -/
structure EventFrame (s s' : State) (l : Label) : Prop where
  running : s'.streamThreadRunning = s.streamThreadRunning
  strPrm : s'.strPrm = s.strPrm
  prCounter : s'.prCounter = s.prCounter
  player : s'.player = s.player
  graphics : s'.graphics = s.graphics
  mainError : l ≠ .timeout → s'.mainError = s.mainError
  statusMutex : l ≠ .timeout → s'.statusMutex = s.statusMutex
  tables : (∀ d, l ≠ .deliver d) → s'.tables = s.tables
  timer : l ≠ .expire → s'.timer = s.timer

/-- A signal. -/
private theorem EventFrame.wake {t : State} (h : EventFrame s t l) : EventFrame s t.wake l where
  running := (t.wake_streamThreadRunning).trans h.running
  strPrm := (t.wake_strPrm).trans h.strPrm
  prCounter := (t.wake_prCounter).trans h.prCounter
  player := (t.wake_player).trans h.player
  graphics := (t.wake_graphics).trans h.graphics
  mainError hl := (t.wake_mainError).trans (h.mainError hl)
  statusMutex hl := (t.wake_statusMutex).trans (h.statusMutex hl)
  tables hl := (t.wake_tables).trans (h.tables hl)
  timer hl := (t.wake_timer).trans (h.timer hl)

theorem event_frame (h : step params s l = some s') (hl : l.event = true) :
    EventFrame s s' l := by
  have hact := act_of_step h
  cases l with
  | deliver d =>
    obtain ⟨-, -, tables, -, rfl⟩ := sectionStep_eq_some hact
    exact ⟨rfl, rfl, rfl, rfl, rfl, fun _ => rfl, fun _ => rfl, fun h => absurd rfl (h d),
      fun _ => rfl⟩
  | signal =>
    obtain ⟨-, -, rfl⟩ := signalStep_eq_some hact
    exact EventFrame.wake ⟨rfl, rfl, rfl, rfl, rfl, fun _ => rfl, fun _ => rfl, fun _ => rfl,
      fun _ => rfl⟩
  | tuner status =>
    have hsame : EventFrame s { s with tuning := false } (.tuner status) :=
      ⟨rfl, rfl, rfl, rfl, rfl, fun _ => rfl, fun _ => rfl, fun _ => rfl, fun _ => rfl⟩
    obtain ⟨-, rfl | rfl⟩ := tunerStep_eq_some hact
    · exact hsame.wake
    · exact hsame
  | timeout =>
    obtain ⟨-, rfl⟩ := timeoutStep_eq_some hact
    exact ⟨rfl, rfl, rfl, rfl, rfl, fun h => absurd rfl h, fun h => absurd rfl h, fun _ => rfl,
      fun _ => rfl⟩
  | expire =>
    obtain ⟨-, rfl⟩ := expireStep_eq_some hact
    exact ⟨rfl, rfl, rfl, rfl, rfl, fun _ => rfl, fun _ => rfl, fun _ => rfl,
      fun h => absurd rfl h⟩
  | main a | loop a | input code value a | handler i => cases hl

theorem alive_of_step (h : step params s l = some s') : s.main.alive = true := by
  unfold step at h
  split at h
  · assumption
  · cases h

/-- Only a section begins a call of `filter_callback`, and only the signal ends it. -/
theorem inCallback_of_act (hd : ∀ d, l ≠ .deliver d) (hsignal : l ≠ .signal)
    (h : act params s l = some s') : s'.inCallback = s.inCallback := by
  cases l with
  | main a => exact (mainStep_frame h).inCallback
  | loop a => exact (loopStep_frame h).inCallback
  | input code value a => exact (callback_frame h).inCallback
  | deliver d => exact absurd rfl (hd d)
  | signal => exact absurd rfl hsignal
  | tuner status =>
    obtain ⟨-, rfl | rfl⟩ := tunerStep_eq_some h
    · exact State.wake_inCallback _
    · rfl
  | timeout =>
    obtain ⟨-, rfl⟩ := timeoutStep_eq_some h
    rfl
  | expire =>
    obtain ⟨-, rfl⟩ := expireStep_eq_some h
    rfl
  | handler i => exact (handlerStep_frame h).inCallback

/-- **The main thread never goes back**, whoever moves. -/
theorem stage_le_of_step (h : step params s l = some s') : s.main.stage ≤ s'.main.stage := by
  have hact := act_of_step h
  cases l with
  | main a => exact (stage_lt_of_mainStep hact).le
  | loop a => rw [(loopStep_frame hact).main]
  | input code value a =>
    obtain h | ⟨h, h'⟩ := (callback_frame hact).main
    · rw [h]
    · rw [h, h']
      decide
  | deliver d =>
    obtain ⟨-, -, tables, -, rfl⟩ := sectionStep_eq_some hact
    exact le_rfl
  | signal =>
    obtain ⟨-, -, rfl⟩ := signalStep_eq_some hact
    exact State.stage_le_wake { s with inCallback := false }
  | tuner status =>
    obtain ⟨-, rfl | rfl⟩ := tunerStep_eq_some hact
    · exact State.stage_le_wake { s with tuning := false }
    · exact le_rfl
  | timeout =>
    obtain ⟨hmain, rfl⟩ := timeoutStep_eq_some hact
    rw [hmain]
    exact show (MainPc.init .waitingTuner).stage ≤ (MainPc.deinit .stop).stage by decide
  | expire =>
    obtain ⟨-, rfl⟩ := expireStep_eq_some hact
    exact le_rfl
  | handler i => rw [(handlerStep_frame hact).main]

/-! ### Phases -/

/-- A place of the main thread has been left behind. -/
def State.Past (s : State) (m : MainPc) : Prop := m.stage < s.main.stage

theorem State.past_iff {m m' : MainPc} (hm : s.main = m) : s.Past m' ↔ m'.stage < m.stage := by
  rw [State.Past, hm]

theorem State.Past.step {m : MainPc} (hm : s.Past m) (h : step params s l = some s') :
    s'.Past m :=
  lt_of_lt_of_le hm (stage_le_of_step h)

/-- What the phase of the main thread says about the other threads. -/
structure State.Coherent (s : State) : Prop where
  registered : s.player.registered = true → s.Past (.init .registerSections)
  inCallback : s.inCallback = true → s.Past (.init .registerSections)
  created : s.loop ≠ .notCreated → s.Past (.init .createThread)
  running : s.loop ≠ .notCreated → ¬ s.Past (.deinit .stop) → s.streamThreadRunning = true
  joined : s.Past (.deinit .join) → s.main.alive = true →
    s.loop = .notCreated ∨ s.loop = .exited .noError
  tuning : s.tuning = true → ¬ s.Past (.init .waitingTuner) ∨
    s.Past .graphicsDeinit ∧ s.loop = .notCreated

/-- There is no stream thread before it is created. -/
theorem State.Coherent.notCreated (hs : s.Coherent)
    (h : s.main.stage ≤ (MainPc.init .createThread).stage) : s.loop = .notCreated := by
  by_contra hc
  exact absurd (hs.created hc) (not_lt.mpr h)

theorem coherent_powerOn : State.powerOn.Coherent := by
  constructor <;> simp [State.powerOn, State.Past, MainPc.stage, Player.zero, Player.registered,
    Tdp.zero]

theorem tunerSide_of_loopStep (h : loopStep params a s = some s') :
    s'.player.tunerSide = s.player.tunerSide := by
  cases hl : s.loop with
  | switch c p =>
    have h : switchStep params a c s p = some s' := by simpa [loopStep, hl] using h
    cases p with
    | wait | announce =>
      simp only [switchStep] at h
      split at h <;> cases h <;> rfl
    | waiting => cases h
    | _ =>
      obtain rfl := Option.some.inj h
      simp [State.loopAssert]
  | head | test c | info | list =>
    simp only [loopStep, hl] at h
    split at h <;> cases h <;> rfl
  | notCreated | exited e => simp [loopStep, hl] at h

theorem tunerSide_of_callback {code value : ℕ} (h : callback a code value s = some s') :
    s'.player.tunerSide = s.player.tunerSide := by
  obtain ⟨k, -, hk⟩ | ⟨-, rfl⟩ := callback_cases h
  · obtain hp | ⟨volume, hp⟩ := player_of_press hk
    · rw [hp]
    · rw [hp, Player.tunerSide_setVolume]
  · rfl

/-- Outside `stream_init` and `stream_deinit`, the main thread leaves the player alone. -/
theorem player_of_mainStep_outside (h : mainStep params a s = some s')
    (hinit : ∀ p, s.main ≠ .init p) (hdeinit : ∀ p, s.main ≠ .deinit p) :
    s'.player = s.player := by
  cases hm : s.main with
  | init p => exact absurd hm (hinit p)
  | deinit p => exact absurd hm (hdeinit p)
  | running | exited e => simp [mainStep, hm] at h
  | registerRemote | unregisterRemote =>
    simp only [mainStep, hm] at h
    obtain rfl := Option.some.inj h
    rfl
  | remoteInit | graphicsInit | graphicsDeinit | remoteDeinit =>
    simp only [mainStep, hm] at h
    split at h <;> cases h <;> rfl

theorem tunerSide_of_initStep {p : InitPc} (h : initStep params a s p = some s') :
    s'.player.tunerSide = s.player.tunerSide ∨ p = .tunerInit ∨ p = .registerTuner ∨
      p = .registerSections := by
  cases p with
  | tunerInit => exact .inr (.inl rfl)
  | registerTuner => exact .inr (.inr (.inl rfl))
  | registerSections => exact .inr (.inr (.inr rfl))
  | reset | loadCounter | announce =>
    obtain rfl := Option.some.inj h
    exact .inl rfl
  | lockTuner =>
    obtain rfl := Option.some.inj h
    refine .inl ?_
    simp only [State.initAssert_player, Player.tuner, Tdp.tunerLockToFrequency]
    split <;> rfl
  | waitTuner | wait t | checkAudioPid | checkVideoPid | createThread | announcing progNum radio =>
    simp only [initStep] at h
    split at h <;> cases h <;> exact .inl rfl
  | waitingTuner | waiting t => cases h
  | _ =>
    -- a call of the player
    obtain rfl := Option.some.inj h
    exact .inl (by simp)

theorem tunerSide_of_deinitStep {p : DeinitPc} (h : deinitStep a s p = some s') :
    s'.player.tunerSide = s.player.tunerSide := by
  cases p with
  | stop | join =>
    simp only [deinitStep] at h
    split at h <;> cases h <;> rfl
  | freeTables =>
    obtain rfl := deinitStep_freeTables h
    rfl
  | deinitTuner =>
    obtain rfl := Option.some.inj h
    simp only [State.deinitAssert, Player.tuner, Tdp.tunerDeinit]
    split <;> rfl
  | _ =>
    -- a call of the player
    obtain rfl := Option.some.inj h
    simp [State.deinitAssert]

/-- The side of the tuner changes in its initialisation and in the registration of the callbacks
only. -/
theorem tunerSide_of_mainStep (h : mainStep params a s = some s') :
    s'.player.tunerSide = s.player.tunerSide ∨ s.main = .init .tunerInit ∨
      s.main = .init .registerTuner ∨ s.main = .init .registerSections := by
  cases hm : s.main with
  | init p => exact (tunerSide_of_initStep (by simpa [mainStep, hm] using h)).imp_right (by simp)
  | deinit p => exact .inl (tunerSide_of_deinitStep (by simpa [mainStep, hm] using h))
  | _ =>
    have hplayer := player_of_mainStep_outside h (by simp [hm]) (by simp [hm])
    exact .inl (congrArg Player.tunerSide hplayer)

theorem registered_of_tunerSide {p p' : Player} (h : p'.tunerSide = p.tunerSide) :
    p'.registered = p.registered := congrArg (fun x => x.2.2) h

theorem registered_of_mainStep (h : mainStep params a s = some s') :
    s'.player.registered = s.player.registered ∨ s.main = .init .registerSections := by
  obtain hside | hm | hm | hm := tunerSide_of_mainStep h
  · exact .inl (registered_of_tunerSide hside)
  · refine .inl ?_
    simp only [mainStep, hm, initStep] at h
    obtain rfl := Option.some.inj h
    simp only [State.initAssert_player, Player.tuner, Tdp.tunerInit]
    split <;> rfl
  · refine .inl ?_
    simp only [mainStep, hm, initStep] at h
    obtain rfl := Option.some.inj h
    simp only [State.initAssert_player, Player.tuner, Tdp.tunerRegisterStatusCallback]
    split <;> rfl
  · exact .inr hm

/-- The main thread creates the stream thread. -/
theorem loop_of_mainStep (h : mainStep params a s = some s') :
    s'.loop = s.loop ∨
      s.main = .init .createThread ∧ s'.main = .init .announce ∧ s'.loop = .head ∧
        s'.streamThreadRunning = true := by
  rcases mainStep_writes h with h | ⟨-, h⟩ | ⟨-, h⟩ | ⟨-, h⟩ | ⟨hm, h⟩ | ⟨-, h⟩ | ⟨_, _, -, h⟩ |
    ⟨-, h⟩
  case createThread => exact .inr ⟨hm, by rw [h], by rw [h], by rw [h]⟩
  all_goals exact .inl (by rw [h])

/-- The main thread starts and stops the stream thread. -/
theorem running_of_mainStep (h : mainStep params a s = some s') :
    s'.streamThreadRunning = s.streamThreadRunning ∨ s.main = .init .reset ∨
      s.main = .init .createThread ∨ s.main = .deinit .stop := by
  rcases mainStep_writes h with h | ⟨hm, -⟩ | ⟨-, h⟩ | ⟨-, h⟩ | ⟨hm, -⟩ | ⟨hm, -⟩ | ⟨_, _, -, h⟩ |
    ⟨hm, -⟩
  case reset => exact .inr (.inl hm)
  case createThread => exact .inr (.inr (.inl hm))
  case noThread => exact .inr (.inr (.inl hm))
  case stop => exact .inr (.inr (.inr hm))
  all_goals exact .inl (by rw [h])

/-- The main thread goes past the join when the stream thread has returned, or was never
running. -/
theorem join_of_mainStep (h : mainStep params a s = some s') (hs : ¬ s.Past (.deinit .join))
    (hs' : s'.Past (.deinit .join)) (halive : s'.main.alive = true) :
    s.loop = .exited .noError ∨ s.main = .deinit .stop ∧ s.streamThreadRunning = false := by
  have hn := main_of_mainStep h
  rw [State.Past] at hs hs'
  cases hm : s.main with
  | deinit p =>
    have h : deinitStep a s p = some s' := by simpa [mainStep, hm] using h
    cases p with
    | stop =>
      simp only [deinitStep] at h
      split at h
      · obtain rfl := Option.some.inj h
        exact absurd hs' (lt_irrefl _)
      · next hrun => exact .inr ⟨rfl, by simpa using hrun⟩
    | join =>
      simp only [deinitStep] at h
      split at h
      · next hl => exact .inl hl
      · obtain rfl := Option.some.inj h
        cases halive
      · cases h
    | _ =>
      rw [hm] at hs
      exact absurd (by decide) hs
  | unregisterRemote | remoteDeinit | exited e =>
    rw [hm] at hs
    exact absurd (show 37 < _ by simp [MainPc.stage]) hs
  | init p =>
    -- it gets no further than to the teardown
    rw [hm] at hn
    obtain hn | hn := hn
    · rw [hn] at hs'
      exact absurd (hs'.trans_le p.stage_next_le) (by decide)
    · rw [hn] at hs'
      exact absurd hs' (show ¬ 37 < 36 by decide)
  | graphicsInit =>
    rw [hm] at hn
    obtain hn | hn := hn
    · rw [hn] at hs'
      exact absurd hs' (show ¬ 37 < 34 by decide)
    · rw [hn] at hs'
      exact absurd hs' (show ¬ 37 < 35 by decide)
  | _ =>
    rw [hm] at hn
    obtain hn | hn := hn
    · rw [hn] at hs'
      exact absurd hs' (by simp [MainPc.next, MainPc.stage, InitPc.stage, DeinitPc.stage])
    · rw [hn] at halive
      cases halive

/-- The main thread leaves the tuner wait by a signal only, or gives up. -/
theorem tuner_of_mainStep (h : mainStep params a s = some s')
    (hs : ¬ s.Past (.init .waitingTuner)) (hs' : s'.Past (.init .waitingTuner)) :
    s'.Past .graphicsDeinit := by
  have hn := main_of_mainStep h
  rw [State.Past] at hs hs' ⊢
  cases hm : s.main with
  | init p =>
    rw [hm] at hs hn
    obtain hn | hn := hn
    · rw [hn] at hs'
      cases p with
      | waitingTuner => simp [mainStep, hm, initStep] at h
      | reset | loadCounter | tunerInit | registerTuner | lockTuner | waitTuner =>
        exact absurd hs' (by simp [MainPc.next, InitPc.next, MainPc.stage, InitPc.stage])
      | _ =>
        simp only [MainPc.stage, InitPc.stage] at hs
        omega
    · rw [hn]
      exact show 35 < 36 by decide
  | remoteInit | registerRemote =>
    rw [hm] at hn
    obtain hn | hn := hn
    · rw [hn] at hs'
      exact absurd hs' (by simp [MainPc.next, MainPc.stage, InitPc.stage])
    · rw [hn]
      decide
  | _ =>
    rw [hm] at hs
    simp only [MainPc.stage, InitPc.stage] at hs
    omega

/-- The status thread of the tuner is started by `lockTuner`. -/
theorem tuning_of_mainStep (h : mainStep params a s = some s') (hs' : s'.tuning = true) :
    s.tuning = true ∨ s.main = .init .lockTuner := by
  rcases mainStep_writes h with h | ⟨-, h⟩ | ⟨-, h⟩ | ⟨hm, -⟩ | ⟨-, h⟩ | ⟨-, h⟩ | ⟨_, _, -, h⟩ |
    ⟨-, h⟩
  case lockTuner => exact .inr hm
  all_goals exact .inl (by rwa [h] at hs')

/-- The main thread keeps the phases coherent. -/
theorem State.Coherent.mainStep (hs : s.Coherent) (h : mainStep params a s = some s') :
    s'.Coherent := by
  have hlt := stage_lt_of_mainStep h
  have hpast : ∀ m, s.Past m → s'.Past m := fun m hm => hm.trans hlt
  have hframe := mainStep_frame h
  have hcreate := loop_of_mainStep h
  constructor
  · intro hr
    obtain hr' | hr' := registered_of_mainStep h
    · exact hpast _ (hs.registered (hr' ▸ hr))
    · exact hr' ▸ hlt
  · intro hc
    exact hpast _ (hs.inCallback (hframe.inCallback ▸ hc))
  · intro hc
    obtain hl | ⟨hm, -⟩ := hcreate
    · exact hpast _ (hs.created (hl ▸ hc))
    · exact hm ▸ hlt
  · intro hc hstop
    obtain hl | ⟨-, -, -, hrun⟩ := hcreate
    · have hpc := hs.created (hl ▸ hc)
      have hrun := hs.running (hl ▸ hc) fun hp => hstop (hpast _ hp)
      obtain hr | hr | hr | hr := running_of_mainStep h
      · exact hr ▸ hrun
      · rw [State.Past, hr] at hpc
        exact absurd hpc (by decide)
      · rw [State.Past, hr] at hpc
        exact absurd hpc (by decide)
      · exact absurd (hr ▸ hlt) hstop
    · exact hrun
  · intro hjoin halive
    obtain hl | ⟨-, hm, -⟩ := hcreate
    · rw [hl]
      by_cases hp : s.Past (.deinit .join)
      · exact hs.joined hp (alive_of_mainStep h)
      obtain he | ⟨hm, hrun⟩ := join_of_mainStep h hp hjoin halive
      · exact .inr he
      · -- a thread that exists is running until the main thread stops it
        refine .inl (by_contra fun hc => ?_)
        have := hs.running hc ((State.past_iff hm).not.mpr (by decide))
        simp [this] at hrun
    · rw [State.Past, hm] at hjoin
      exact absurd hjoin (by decide)
  · intro ht
    have hnot : ¬ s.Past (.init .waitingTuner) ∨ s.Past .graphicsDeinit ∧ s.loop = .notCreated := by
      obtain ht | hm := tuning_of_mainStep h ht
      · exact hs.tuning ht
      · exact .inl ((State.past_iff hm).not.mpr (by decide))
    obtain hnot | ⟨hp, hl⟩ := hnot
    · by_cases hp : s'.Past (.init .waitingTuner)
      · refine .inr ⟨tuner_of_mainStep h hnot hp, ?_⟩
        obtain hl | ⟨hm, -⟩ := hcreate
        · rw [hl]
          exact by_contra fun hc => hnot ((show _ < _ by decide).trans (hs.created hc))
        · rw [State.Past, hm] at hnot
          exact absurd (by decide) hnot
      · exact .inl hp
    · refine .inr ⟨hpast _ hp, ?_⟩
      obtain hl' | ⟨hm, -⟩ := hcreate
      · exact hl'.trans hl
      · rw [State.Past, hm] at hp
        exact absurd hp (by decide)

/-- A thread that runs has been created. -/
theorem created_of_loopStep (h : loopStep params a s = some s') :
    s.loop ≠ .notCreated ∧ s'.loop ≠ .notCreated := by
  have hs : s.loop ≠ .notCreated := fun hl => by simp [loopStep, hl] at h
  refine ⟨hs, ?_⟩
  obtain hn | ⟨-, hn⟩ := loop_of_loopStep h
  · rw [hn]
    cases hl : s.loop with
    | notCreated => exact absurd hl hs
    | head =>
      simp only [LoopPc.next]
      split <;> simp
    | test c =>
      simp only [LoopPc.next]
      split
      · simp
      · cases c <;> simp [Command.following]
    | switch c p => cases p <;> cases c <;> simp [LoopPc.next, SwitchPc.next, Command.following]
    | _ => simp [LoopPc.next]
  · simp [hn]

theorem not_exited_of_loopStep (h : loopStep params a s = some s') (e : TError) :
    s.loop ≠ .exited e := by
  intro hl
  simp [loopStep, hl] at h

/-- Steps in which the stream thread moves. -/
theorem State.Coherent.of_loop (hs : s.Coherent) (halive : s.main.alive = true)
    (hc : s.loop ≠ .notCreated) (he : s.loop ≠ .exited .noError) (hmain : s'.main = s.main)
    (hrun : s'.streamThreadRunning = s.streamThreadRunning)
    (hreg : s'.player.registered = s.player.registered)
    (hcall : s'.inCallback = true → s.inCallback = true)
    (htuning : s'.tuning = s.tuning) : s'.Coherent := by
  have hpast : ∀ m, s'.Past m ↔ s.Past m := fun m => by rw [State.Past, hmain, State.Past]
  refine ⟨fun hr => ?_, fun hi => ?_, fun _ => ?_, fun _ hp => ?_, fun hp _ => ?_, fun ht => ?_⟩
  · exact (hpast _).mpr (hs.registered (hreg ▸ hr))
  · exact (hpast _).mpr (hs.inCallback (hcall hi))
  · exact (hpast _).mpr (hs.created hc)
  · exact hrun ▸ hs.running hc fun hp' => hp ((hpast _).mpr hp')
  · -- past the join there is no stream thread left that could move
    obtain hl | hl := hs.joined ((hpast _).mp hp) halive
    · exact absurd hl hc
    · exact absurd hl he
  · obtain hp | ⟨-, hl⟩ := hs.tuning (htuning ▸ ht)
    · exact .inl fun hp' => hp ((hpast _).mp hp')
    · exact absurd hl hc

/-- Steps in which the main thread moves, if at all, by a signal or by giving up. -/
theorem State.Coherent.of_main (hs : s.Coherent) (halive : s.main.alive = true)
    (hmain : s.main.stage ≤ s'.main.stage)
    (hjoin : s'.Past (.deinit .join) → s.Past (.deinit .join)) (hloop : s'.loop = s.loop)
    (hrun : s'.streamThreadRunning = s.streamThreadRunning)
    (hreg : s'.player.registered = s.player.registered)
    (hcall : s'.inCallback = true → s.inCallback = true ∨ s.player.registered = true)
    (htuning : s'.tuning = true → s.tuning = true ∧
      (s'.Past (.init .waitingTuner) → s.Past (.init .waitingTuner) ∨
        s'.Past .graphicsDeinit ∧ s.loop = .notCreated)) : s'.Coherent := by
  have hpast : ∀ m, s.Past m → s'.Past m := fun m hm => lt_of_lt_of_le hm hmain
  refine ⟨fun hr => ?_, fun hi => ?_, fun hc => ?_, fun hc hp => ?_, fun hp _ => ?_, fun ht => ?_⟩
  · exact hpast _ (hs.registered (hreg ▸ hr))
  · exact hpast _ ((hcall hi).elim hs.inCallback hs.registered)
  · exact hpast _ (hs.created (hloop ▸ hc))
  · exact hrun ▸ hs.running (hloop ▸ hc) fun hp' => hp (hpast _ hp')
  · exact hloop ▸ hs.joined (hjoin hp) halive
  · obtain ⟨ht, himp⟩ := htuning ht
    by_cases hp : s'.Past (.init .waitingTuner)
    · refine .inr ?_
      obtain hp | ⟨hp, hl⟩ := himp hp
      · obtain hnot | ⟨hp', hl⟩ := hs.tuning ht
        · exact absurd hp hnot
        · exact ⟨hpast _ hp', hloop.trans hl⟩
      · exact ⟨hp, hloop.trans hl⟩
    · exact .inl hp

/-- Steps in which neither thread moves. -/
theorem State.Coherent.of_same (hs : s.Coherent) (halive : s.main.alive = true)
    (hmain : s'.main = s.main) (hloop : s'.loop = s.loop)
    (hrun : s'.streamThreadRunning = s.streamThreadRunning)
    (hreg : s'.player.registered = s.player.registered)
    (hcall : s'.inCallback = true → s.inCallback = true ∨ s.player.registered = true)
    (htuning : s'.tuning = true → s.tuning = true) : s'.Coherent := by
  have hpast : ∀ m, s'.Past m ↔ s.Past m := fun m => by rw [State.Past, hmain, State.Past]
  exact hs.of_main halive (by rw [hmain]) (hpast _).mp hloop hrun hreg hcall
    fun ht => ⟨htuning ht, fun hp => .inl ((hpast _).mp hp)⟩

/-- A signal keeps the phases coherent: when the main thread goes on behind the tuner wait, the
tuner's status thread has reported. -/
theorem State.Coherent.wake (hs : s.Coherent) (halive : s.main.alive = true)
    (ht : s.main = .init .waitingTuner → s.tuning = false) : s.wake.Coherent := by
  have hle := s.stage_le_wake
  obtain ⟨h, h', hl⟩ | ⟨t, h, h', hl⟩ | ⟨c, h, h', hl⟩ | ⟨-, -, h', hl⟩ := s.wake_cases
  · refine hs.of_main halive hle (fun hp => ?_) hl (by simp) (by simp)
      (fun hc => .inl (by simpa using hc)) fun ht' => ?_
    · rw [State.Past, h'] at hp
      exact absurd hp (by decide)
    · rw [State.wake_tuning, ht h] at ht'
      cases ht'
  · refine hs.of_main halive hle (fun hp => ?_) hl (by simp) (by simp)
      (fun hc => .inl (by simpa using hc)) fun ht' => ?_
    · rw [State.Past, h'] at hp
      cases t <;> exact absurd hp (by decide)
    · refine ⟨by simpa using ht', fun _ => .inl ?_⟩
      rw [State.Past, h]
      cases t <;> decide
  · exact hs.of_loop halive (by simp [h]) (by simp [h]) h' (by simp) (by simp) (by simp) (by simp)
  · exact hs.of_same halive h' hl (by simp) (by simp) (fun hc => .inl (by simpa using hc)) (by simp)

/-- **The phases stay coherent.** -/
theorem State.Coherent.step (hs : s.Coherent) (h : step params s l = some s') : s'.Coherent := by
  have hact := act_of_step h
  have halive := alive_of_step h
  cases l with
  | main a => exact hs.mainStep hact
  | loop a =>
    have hframe := loopStep_frame hact
    exact hs.of_loop halive (created_of_loopStep hact).1 (not_exited_of_loopStep hact _)
      hframe.main hframe.running (registered_of_tunerSide (tunerSide_of_loopStep hact))
      (fun hc => hframe.inCallback ▸ hc)
      hframe.tuning
  | input code value a =>
    have hframe := callback_frame hact
    -- the exit key only takes the main thread from one place to the next
    have hpast : ∀ m : MainPc, m.stage ≠ MainPc.running.stage → s'.Past m → s.Past m := by
      intro m hne hp
      obtain hm | ⟨hm, hm'⟩ := hframe.main
      · rwa [State.Past, hm] at hp
      · rw [State.Past, hm', show MainPc.graphicsDeinit.stage = MainPc.running.stage + 1 from rfl]
          at hp
        rw [State.Past, hm]
        omega
    exact hs.of_main halive (stage_le_of_step h) (hpast _ (by decide)) hframe.loop hframe.running
      (registered_of_tunerSide (tunerSide_of_callback hact))
      (fun hc => .inl (hframe.inCallback ▸ hc))
      fun ht => ⟨hframe.tuning ▸ ht, fun hp => .inl (hpast _ (by decide) hp)⟩
  | deliver d =>
    obtain ⟨hr, -, tables, -, rfl⟩ := sectionStep_eq_some hact
    exact hs.of_same halive rfl rfl rfl rfl (fun _ => .inr hr) id
  | signal =>
    obtain ⟨hc, -, rfl⟩ := signalStep_eq_some hact
    refine State.Coherent.wake (s := { s with inCallback := false })
      (hs.of_same halive rfl rfl rfl rfl (by simp) id) halive fun hm => ?_
    have hp := hs.inCallback hc
    rw [State.Past, show s.main = _ from hm] at hp
    exact absurd hp (by decide)
  | tuner status =>
    obtain ⟨-, rfl | rfl⟩ := tunerStep_eq_some hact
    · exact State.Coherent.wake (s := { s with tuning := false })
        (hs.of_same halive rfl rfl rfl rfl .inl (by simp)) halive fun _ => rfl
    · exact hs.of_same halive rfl rfl rfl rfl .inl (by simp)
  | timeout =>
    obtain ⟨hm, rfl⟩ := timeoutStep_eq_some hact
    have hl : s.loop = .notCreated := by
      by_contra hc
      have hp := hs.created hc
      rw [State.Past, hm] at hp
      exact absurd hp (by decide)
    refine hs.of_main halive (stage_le_of_step h) (fun hp => ?_) rfl rfl rfl .inl
      fun ht => ⟨ht, fun _ => .inr ⟨?_, hl⟩⟩
    · exact absurd hp (show ¬ (MainPc.deinit .join).stage < (MainPc.deinit .stop).stage by decide)
    · exact show MainPc.graphicsDeinit.stage < (MainPc.deinit .stop).stage by decide
  | expire =>
    obtain ⟨-, rfl⟩ := expireStep_eq_some hact
    exact hs.of_same halive rfl rfl rfl rfl .inl id
  | handler i =>
    have hframe := handlerStep_frame hact
    exact hs.of_same halive hframe.main hframe.loop hframe.running (by rw [hframe.player])
      (fun hc => .inl (hframe.inCallback ▸ hc)) fun ht => hframe.tuning ▸ ht

/-- **Who moves the stream thread**: itself, the main thread by creating it, or a signal. -/
theorem loop_of_step (h : step params s l = some s') :
    (∃ a, l = .loop a ∧ loopStep params a s = some s') ∨ s'.loop = s.loop ∨
      (∃ a, l = .main a ∧ s.main = .init .createThread ∧ s'.main = .init .announce ∧
        s'.loop = .head) ∨
      ∃ c, s.loop = .switch c .waiting ∧ s'.loop = .switch c .createVideo := by
  have hact := act_of_step h
  have hwake : ∀ t : State, t.loop = s.loop → t.wake.loop = s.loop ∨
      ∃ c, s.loop = .switch c .waiting ∧ t.wake.loop = .switch c .createVideo := by
    intro t ht
    obtain ⟨-, -, hl⟩ | ⟨_, -, -, hl⟩ | ⟨c, hl, -, hl'⟩ | ⟨-, -, -, hl⟩ := t.wake_cases
    · exact .inl (hl.trans ht)
    · exact .inl (hl.trans ht)
    · exact .inr ⟨c, ht.symm.trans hl, hl'⟩
    · exact .inl (hl.trans ht)
  cases l with
  | main a =>
    obtain hl | ⟨hm, hm', hl, -⟩ := loop_of_mainStep hact
    · exact .inr (.inl hl)
    · exact .inr (.inr (.inl ⟨a, rfl, hm, hm', hl⟩))
  | loop a => exact .inl ⟨a, rfl, hact⟩
  | input code value a => exact .inr (.inl (callback_frame hact).loop)
  | deliver d =>
    obtain ⟨-, -, tables, -, rfl⟩ := sectionStep_eq_some hact
    exact .inr (.inl rfl)
  | signal =>
    obtain ⟨-, -, rfl⟩ := signalStep_eq_some hact
    exact .inr ((hwake { s with inCallback := false } rfl).imp id .inr)
  | tuner status =>
    obtain ⟨-, rfl | rfl⟩ := tunerStep_eq_some hact
    · exact .inr ((hwake { s with tuning := false } rfl).imp id .inr)
    · exact .inr (.inl rfl)
  | timeout =>
    obtain ⟨-, rfl⟩ := timeoutStep_eq_some hact
    exact .inr (.inl rfl)
  | expire =>
    obtain ⟨-, rfl⟩ := expireStep_eq_some hact
    exact .inr (.inl rfl)
  | handler i => exact .inr (.inl (handlerStep_frame hact).loop)

/-- Who moves the main thread, and where to. -/
inductive MovesMain (params : ConfigParams) (s s' : State) : Label → Prop
  | main (a : Answer) (h : mainStep params a s = some s') : MovesMain params s s' (.main a)
  | timeout (hm : s.main = .init .waitingTuner) (hm' : s'.main = .deinit .stop) :
      MovesMain params s s' .timeout
  | same (l : Label) (h : s'.main = s.main) : MovesMain params s s' l
  | exit (l : Label) (hm : s.main = .running) (hm' : s'.main = .graphicsDeinit) :
      MovesMain params s s' l
  | locked (l : Label) (hm : s.main = .init .waitingTuner) (hm' : s'.main = .init .playerInit) :
      MovesMain params s s' l
  | table (l : Label) (t : Table) (hm : s.main = .init (.waiting t))
      (hm' : s'.main = .init t.afterWait) : MovesMain params s s' l

/-- A signal. -/
private theorem MovesMain.wake (t : State) (ht : t.main = s.main) (l : Label) :
    MovesMain params s t.wake l := by
  obtain ⟨hm, hm', -⟩ | ⟨table, hm, hm', -⟩ | ⟨_, -, hm, -⟩ | ⟨-, -, hm, -⟩ := t.wake_cases
  · exact .locked l (ht.symm.trans hm) hm'
  · exact .table l table (ht.symm.trans hm) hm'
  · exact .same l (hm.trans ht)
  · exact .same l (hm.trans ht)

/-- **Who moves the main thread**: itself, the exit key, a signal, or the time-out. -/
theorem main_of_step (h : step params s l = some s') : MovesMain params s s' l := by
  have hact := act_of_step h
  cases l with
  | main a => exact .main a hact
  | loop a => exact .same _ (loopStep_frame hact).main
  | input code value a =>
    obtain hm | ⟨hm, hm'⟩ := (callback_frame hact).main
    · exact .same _ hm
    · exact .exit _ hm hm'
  | deliver d =>
    obtain ⟨-, -, tables, -, rfl⟩ := sectionStep_eq_some hact
    exact .same _ rfl
  | signal =>
    obtain ⟨-, -, rfl⟩ := signalStep_eq_some hact
    exact MovesMain.wake (s := s) { s with inCallback := false } rfl _
  | tuner status =>
    obtain ⟨-, rfl | rfl⟩ := tunerStep_eq_some hact
    · exact MovesMain.wake (s := s) { s with tuning := false } rfl _
    · exact .same _ rfl
  | timeout =>
    obtain ⟨hm, rfl⟩ := timeoutStep_eq_some hact
    exact .timeout hm rfl
  | expire =>
    obtain ⟨-, rfl⟩ := expireStep_eq_some hact
    exact .same _ rfl
  | handler i => exact .same _ (handlerStep_frame hact).main

/-! ### Reachable states -/

/-- The state occurs in some run from power-on. -/
def Reachable (params : ConfigParams) (s : State) : Prop :=
  ∃ ls, exec (step params) .powerOn ls = some s

/-- What holds at power-on and is kept by every step holds of every reachable state. -/
theorem Reachable.induction {P : State → Prop} (h : Reachable params s) (h₀ : P .powerOn)
    (hstep : ∀ s l s', P s → Zapper.step params s l = some s' → P s') : P s := by
  obtain ⟨ls, hls⟩ := h
  exact (always_of_step h₀ meets_true fun s l s' hs _ h => hstep s l s' hs h).exec hls

theorem Reachable.coherent (h : Reachable params s) : s.Coherent :=
  h.induction coherent_powerOn fun _ _ _ hs hstep => hs.step hstep

end Zapper
