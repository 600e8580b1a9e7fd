import Zapper.Stream.Locks
import Zapper.Stream.Process
import Zapper.Stream.Teardown

/-!
# How the waits end

What the waits of the zapper rely on. A signal gets through to whoever waits, as long as sections
are delivered (`exec_signalling`); each step of the stream thread brings it nearer to the end of its
round (`rank_of_loopStep`); and the main thread can always go on where it does not wait
(`mainStep_isSome`). It can be hindered for good while it waits for a table or for the stream
thread, and where `stream_deinit` frees the service names of the SDT (`MainPc.exposed`,
`State.DueToFree`).
-/

namespace Zapper

open Transition

variable {params : ConfigParams} {a : Answer} {s s' : State} {l : Label}

/-! ### Signals get through -/

/-- What a wait relies on: no mutex is kept while somebody needs it, and sections are delivered
while somebody waits for one. -/
structure State.Lively (s : State) : Prop where
  coherent : s.Coherent
  /-- `status_mutex` is only kept by a `stream_init` that has given up. -/
  locked : s.statusMutex = true → s.LeftInit ∧ s.loop = .notCreated
  registered : s.Past (.init .registerSections) → ¬ s.LeftInit → s.player.registered = true
  thread : s.loop ≠ .notCreated → s.player.registered = true
  flag : s.loop = .notCreated → s.Past (.init .reset) → s.main.alive = true →
    s.streamThreadRunning = false
  stopped : s.Past (.deinit .stop) → s.main.alive = true → s.streamThreadRunning = false
  joins : s.main = .deinit .join → s.loop ≠ .notCreated

theorem lively_powerOn : State.powerOn.Lively := by
  refine ⟨coherent_powerOn, ?_, ?_, ?_, ?_, ?_, ?_⟩ <;>
    simp [State.powerOn, State.Past, MainPc.stage]

/-- The stream thread is created by a `stream_init` that has registered the section filter
callback. -/
theorem notCreated_iff_of_step (h : step params s l = some s') :
    (s'.loop = .notCreated ↔ s.loop = .notCreated) ∨
      s.main = .init .createThread ∧ s'.main = .init .announce ∧ s'.loop = .head := by
  obtain ⟨a, -, hact⟩ | hl | ⟨a, -, hm, hm', hl⟩ | ⟨c, hl, hl'⟩ := loop_of_step h
  · have hcreated := created_of_loopStep hact
    exact .inl (by simp [hcreated.1, hcreated.2])
  · exact .inl (by rw [hl])
  · exact .inr ⟨hm, hm', hl⟩
  · exact .inl (by simp [hl, hl'])

/-- Who registers the section filter callback. -/
theorem registered_of_step (h : step params s l = some s') :
    s'.player.registered = s.player.registered ∨
      s.main = .init .registerSections ∧ ∃ a, l = .main a ∧ mainStep params a s = some s' := by
  have hact := act_of_step h
  cases l with
  | main a =>
    obtain hr | hm := registered_of_mainStep hact
    · exact .inl hr
    · exact .inr ⟨hm, a, rfl, hact⟩
  | loop a => exact .inl (registered_of_tunerSide (tunerSide_of_loopStep hact))
  | input code value a => exact .inl (registered_of_tunerSide (tunerSide_of_callback hact))
  | handler i => rw [(handlerStep_frame hact).player]; exact .inl rfl
  | _ => rw [(event_frame h rfl).player]; exact .inl rfl

/-- A registration that succeeds. -/
theorem registered_of_registerSections (hm : s.main = .init .registerSections)
    (h : mainStep params a s = some s') (hm' : ¬ s'.LeftInit) : s'.player.registered = true := by
  simp only [mainStep, hm, initStep] at h
  obtain rfl := Option.some.inj h
  obtain ⟨hok, he⟩ | ⟨-, he⟩ := s.initAssert_cases
    (s.player.tuner (s.player.tdp.demuxRegisterSectionFilterCallback a)) (.wait .pat)
  · rw [State.initAssert_player]
    revert hok
    unfold Player.tuner Tdp.demuxRegisterSectionFilterCallback
    split_ifs <;> simp [Player.registered]
  · rw [he] at hm'
    exact absurd (show 32 < 36 by decide) hm'

/-- `stream_init` gets past the registration by it, or gives up. -/
theorem past_registerSections_of_step (h : step params s l = some s')
    (hp : s'.Past (.init .registerSections)) (hinit : ¬ s'.LeftInit) :
    s.Past (.init .registerSections) ∨ s.main = .init .registerSections := by
  rw [State.Past] at hp ⊢
  rw [State.LeftInit, State.Past] at hinit
  cases main_of_step h with
  | main a hact =>
    obtain hn | hn := main_of_mainStep hact
    · rw [hn] at hp hinit
      cases hm : s.main with
      | init q =>
        rw [hm] at hp
        cases q with
        | registerSections => exact .inr rfl
        | setFilter t | freeFilter t =>
          cases t
          · exact absurd hp (by
              simp [MainPc.next, InitPc.next, MainPc.stage, InitPc.stage, Table.index])
          · exact .inl (by decide)
          · exact .inl (by decide)
        | wait t | waiting t => cases t <;> exact .inl (by decide)
        | reset | loadCounter | tunerInit | registerTuner | lockTuner | waitTuner | waitingTuner |
            playerInit | openSource =>
          exact absurd hp (by
            simp [MainPc.next, InitPc.next, MainPc.stage, InitPc.stage, Table.index])
        | _ => exact .inl (by simp [MainPc.stage, InitPc.stage])
      | remoteInit | registerRemote =>
        rw [hm] at hp
        exact absurd hp (by simp [MainPc.next, MainPc.stage, InitPc.stage])
      | deinit q => exact .inl (show 13 < 36 + q.stage by omega)
      | _ => exact .inl (by simp [MainPc.stage, InitPc.stage])
    · rw [hn] at hinit
      exact absurd (by cases s.main <;> simp [MainPc.fail, MainPc.stage, InitPc.stage,
        DeinitPc.stage]) hinit
  | timeout hm hm' =>
    rw [hm'] at hinit
    exact absurd (by decide) hinit
  | same l hm => exact .inl (hm ▸ hp)
  | exit l hm hm' => exact .inl (by rw [hm]; decide)
  | locked l hm hm' =>
    rw [hm'] at hp
    exact absurd hp (by decide)
  | table l t hm hm' => exact .inl (by rw [hm]; cases t <;> decide)

/-- The flag of the stream thread is set by the thread's creation only. -/
theorem flag_of_mainStep (h : mainStep params a s = some s') :
    (s'.streamThreadRunning = s.streamThreadRunning ∧ s.main ≠ .init .reset) ∨
      s'.streamThreadRunning = false ∨ s.main = .init .createThread ∧ s'.loop = .head := by
  by_cases hreset : s.main = .init .reset
  · simp only [mainStep, hreset, initStep] at h
    obtain rfl := Option.some.inj h
    exact .inr (.inl rfl)
  · cases mainStep_writes h with
    | reset hm _ => exact absurd hm hreset
    | createThread hm hw => exact .inr (.inr ⟨hm, by rw [hw]⟩)
    | noThread _ hw | stop _ hw => exact .inr (.inl (by rw [hw]))
    | call hw | loadCounter _ hw | lockTuner _ hw | announce _ _ _ hw =>
      exact .inl ⟨by rw [hw], hreset⟩

theorem running_of_step (h : step params s l = some s') :
    s'.streamThreadRunning = s.streamThreadRunning ∨ ∃ a, mainStep params a s = some s' := by
  have hact := act_of_step h
  cases l with
  | main a => exact .inr ⟨a, hact⟩
  | loop a => exact .inl (loopStep_frame hact).running
  | input code value a => exact .inl (callback_frame hact).running
  | handler i => exact .inl (handlerStep_frame hact).running
  | _ => exact .inl (event_frame h rfl).running

/-- Who gets past the reset of `stream_init`. -/
theorem past_reset_of_step (h : step params s l = some s') (hp : s'.Past (.init .reset))
    (halive : s'.main.alive = true) :
    s.Past (.init .reset) ∨ ∃ a, s.main = .init .reset ∧ mainStep params a s = some s' := by
  cases main_of_step h with
  | main a hact => exact (past_reset_of_mainStep hact hp halive).imp id fun hm => ⟨a, hm, hact⟩
  | same l hm => exact .inl (by rwa [State.Past, hm] at hp)
  | timeout hm | exit l hm | locked l hm => exact .inl (by rw [State.Past, hm]; decide)
  | table l t hm => exact .inl (by rw [State.Past, hm]; cases t <;> decide)

/-- Who gets past the first step of `stream_deinit`. -/
theorem past_stop_of_mainStep (h : mainStep params a s = some s') (hp : s'.Past (.deinit .stop))
    (halive : s'.main.alive = true) : s.Past (.deinit .stop) ∨ s.main = .deinit .stop := by
  have hn := main_of_mainStep h
  rw [State.Past] at hp ⊢
  cases hm : s.main with
  | init q =>
    have hle := InitPc.stage_next_le (s := s) q
    rw [hm] at hn
    obtain hn | hn := hn
    · rw [hn] at hp
      exact absurd hp (not_lt.mpr (Nat.le_trans hle (by decide)))
    · rw [hn] at hp
      exact absurd hp (lt_irrefl _)
  | deinit q => cases q <;> simp [MainPc.stage, DeinitPc.stage]
  | unregisterRemote | remoteDeinit | exited e =>
    exact .inl (by simp [MainPc.stage, DeinitPc.stage])
  | graphicsInit =>
    rw [hm] at hn
    obtain hn | hn := hn <;> rw [hn] at hp <;> exact absurd hp (by
      simp [MainPc.next, MainPc.fail, MainPc.stage, DeinitPc.stage])
  | remoteInit | registerRemote | running | graphicsDeinit =>
    rw [hm] at hn
    obtain hn | hn := hn
    · rw [hn] at hp
      exact absurd hp (by simp [MainPc.next, MainPc.stage, InitPc.stage, DeinitPc.stage])
    · rw [hn] at halive
      cases halive

theorem past_stop_of_step (h : step params s l = some s') (hp : s'.Past (.deinit .stop))
    (halive : s'.main.alive = true) :
    s.Past (.deinit .stop) ∨ ∃ a, s.main = .deinit .stop ∧ mainStep params a s = some s' := by
  cases main_of_step h with
  | main a hact => exact (past_stop_of_mainStep hact hp halive).imp id fun hm => ⟨a, hm, hact⟩
  | same l hm => exact .inl (by rwa [State.Past, hm] at hp)
  | timeout hm hm' | exit l hm hm' | locked l hm hm' =>
    rw [State.Past, hm'] at hp
    exact absurd hp (by decide)
  | table l t hm hm' =>
    rw [State.Past, hm'] at hp
    cases t <;> exact absurd hp (by decide)

/-- The registration is behind everybody who relies on it. -/
theorem State.Lively.registered_step (hs : s.Lively) (h : step params s l = some s')
    (hp : s'.Past (.init .registerSections)) (hinit : ¬ s'.LeftInit) :
    s'.player.registered = true := by
  have hinit' : ¬ s.LeftInit := fun hleft => hinit (State.Past.step hleft h)
  obtain hpast | hm := past_registerSections_of_step h hp hinit
  · obtain hr | ⟨hm, -⟩ := registered_of_step h
    · rw [hr]
      exact hs.registered hpast hinit'
    · rw [State.Past, hm] at hpast
      exact absurd hpast (lt_irrefl _)
  · cases main_of_step h with
    | main a hact => exact registered_of_registerSections hm hact hinit
    | same l hm' =>
      rw [State.Past, hm', hm] at hp
      exact absurd hp (lt_irrefl _)
    | timeout hm' | exit l hm' | locked l hm' | table l t hm' => cases hm.symm.trans hm'

/-- **Signals keep getting through.** -/
theorem State.Lively.step (hs : s.Lively) (h : Zapper.step params s l = some s') : s'.Lively := by
  have hcreated := notCreated_iff_of_step h
  have halive := alive_of_step h
  refine ⟨hs.coherent.step h, fun hlocked => ?_, hs.registered_step h, fun hl => ?_,
    fun hl hp ha => ?_, fun hp ha => ?_, fun hm hl => ?_⟩
  · obtain ⟨rfl, -, hm⟩ | ⟨-, hsame⟩ := statusMutex_of_step h
    · have hnone : s.loop = .notCreated := by
        obtain ⟨hw, -⟩ := timeoutStep_eq_some (act_of_step h)
        exact hs.coherent.notCreated (by rw [hw]; decide)
      refine ⟨by rw [State.LeftInit, State.Past, hm]; decide, ?_⟩
      obtain hl | ⟨-, hm', -⟩ := hcreated
      · exact hl.mpr hnone
      · cases hm.symm.trans hm'
    · obtain ⟨hleft, hnone⟩ := hs.locked (hsame ▸ hlocked)
      refine ⟨State.Past.step hleft h, ?_⟩
      obtain hl | ⟨hm, -⟩ := hcreated
      · exact hl.mpr hnone
      · rw [State.LeftInit, State.Past, hm] at hleft
        exact absurd hleft (by decide)
  · have hr : s.player.registered = true ∧ s.main ≠ .init .registerSections := by
      obtain hl' | ⟨hm, -⟩ := hcreated
      · have hc := mt hl'.mpr hl
        refine ⟨hs.thread hc, fun hm => ?_⟩
        have hp := hs.coherent.created hc
        rw [State.Past, hm] at hp
        exact absurd hp (by decide)
      · refine ⟨hs.registered ?_ ?_, by simp [hm]⟩
        · rw [State.Past, hm]; decide
        · rw [State.LeftInit, State.Past, hm]; decide
    obtain hsame | ⟨hm, -⟩ := registered_of_step h
    · rw [hsame]
      exact hr.1
    · exact absurd hm hr.2
  · have hnone : s.loop = .notCreated := by
      obtain hl' | ⟨-, -, hl'⟩ := hcreated
      · exact hl'.mp hl
      · cases hl.symm.trans hl'
    obtain hpast | ⟨a, hm, hact⟩ := past_reset_of_step h hp ha
    · have hflag := hs.flag hnone hpast halive
      obtain hsame | ⟨a, hact⟩ := running_of_step h
      · exact hsame.trans hflag
      · obtain ⟨hsame, -⟩ | hstop | ⟨-, hl'⟩ := flag_of_mainStep hact
        · exact hsame.trans hflag
        · exact hstop
        · cases hl.symm.trans hl'
    · obtain ⟨-, hne⟩ | hstop | ⟨hm', -⟩ := flag_of_mainStep hact
      · exact absurd hm hne
      · exact hstop
      · cases hm.symm.trans hm'
  · obtain hpast | ⟨a, hm, hact⟩ := past_stop_of_step h hp ha
    · have hstopped := hs.stopped hpast halive
      obtain hsame | ⟨a, hact⟩ := running_of_step h
      · exact hsame.trans hstopped
      · obtain ⟨hsame, -⟩ | hstop | ⟨hm, -⟩ := flag_of_mainStep hact
        · exact hsame.trans hstopped
        · exact hstop
        · rw [State.Past, hm] at hpast
          exact absurd hpast (by decide)
    · simp only [mainStep, hm, deinitStep] at hact
      split at hact
      · obtain rfl := Option.some.inj hact
        rfl
      · next hrun =>
        obtain rfl := Option.some.inj hact
        simpa using hrun
  · have hnone : s.loop = .notCreated := by
      obtain hl' | ⟨-, -, hl'⟩ := hcreated
      · exact hl'.mp hl
      · cases hl.symm.trans hl'
    cases main_of_step h with
    | main a hact =>
      obtain hpast | hm' := past_stop_of_mainStep hact (by rw [State.Past, hm]; decide)
        (by rw [hm]; rfl)
      · have hlt := stage_lt_of_mainStep hact
        rw [hm] at hlt
        exact absurd hlt (not_lt.mpr hpast)
      · have hflag := hs.flag hnone (by rw [State.Past, hm']; decide) halive
        simp only [mainStep, hm', deinitStep, hflag, Bool.false_eq_true, if_false] at hact
        obtain rfl := Option.some.inj hact
        cases hm
    | same l hm' => exact hs.joins (hm'.symm.trans hm) hnone
    | timeout _ hm' | exit _ _ hm' | locked _ _ hm' | table _ _ _ hm' => cases hm.symm.trans hm'

/-- Steps that touch none of this. -/
theorem State.Lively.of_same (hs : s.Lively) (halive : s.main.alive = true)
    (hmain : s'.main = s.main) (hloop : s'.loop = s.loop)
    (hrun : s'.streamThreadRunning = s.streamThreadRunning)
    (hlocked : s'.statusMutex = s.statusMutex)
    (hreg : s'.player.registered = s.player.registered)
    (hcall : s'.inCallback = s.inCallback) (htuning : s'.tuning = s.tuning) : s'.Lively := by
  have hpast : ∀ m, s'.Past m ↔ s.Past m := fun m => by rw [State.Past, hmain, State.Past]
  refine ⟨hs.coherent.of_same halive hmain hloop hrun hreg (fun hc => .inl (hcall ▸ hc))
    fun ht => htuning ▸ ht, ?_, ?_, ?_, ?_, ?_, ?_⟩
  · rw [hlocked, State.LeftInit, hpast, hloop]
    exact hs.locked
  · rw [State.LeftInit, hpast, hpast, hreg]
    exact hs.registered
  · rw [hloop, hreg]
    exact hs.thread
  · rw [hloop, hpast, hmain, hrun]
    exact hs.flag
  · rw [hpast, hmain, hrun]
    exact hs.stopped
  · rw [hmain, hloop]
    exact hs.joins

/-! ### The stream thread gets on -/

/-- How far a place of a switch block is from its end. -/
def SwitchPc.rank : SwitchPc → ℕ
  | count => 15
  | bgd => 14
  | removeAudio => 13
  | removeVideo => 12
  | freeFilter => 11
  | setFilter => 10
  | wait => 9
  | waiting => 8
  | createVideo => 7
  | createAudio => 6
  | announce => 5
  | armSec => 4
  | armNsec => 3
  | armSet => 2
  | clear => 1

/-- How far the end of a command's block is from the end of the thread. -/
def Command.rank : Command → ℕ
  | change => 35
  | next => 19
  | previous => 3

/-- How far the stream thread is from its end, if it does not begin another pass. -/
def LoopPc.rank : LoopPc → ℕ
  | notCreated => 0
  | head => 1
  | test c => c.rank + 16
  | switch c p => c.rank + p.rank
  | info => 3
  | list => 2
  | exited _ => 0

theorem LoopPc.rank_le (pc : LoopPc) : pc.rank ≤ 51 := by
  cases pc with
  | test c => cases c <;> decide
  | switch c p => cases c <;> cases p <;> decide
  | exited e => exact Nat.zero_le 51
  | _ => decide

/-- The stream thread gets closer to its end in every step that does not begin a pass. -/
theorem rank_of_loopStep (h : loopStep params a s = some s')
    (hhead : s.loop = .head → s.streamThreadRunning = false) : s'.loop.rank < s.loop.rank := by
  obtain hn | ⟨⟨c, p, hl⟩, hn⟩ := loop_of_loopStep h
  · rw [hn]
    cases hl : s.loop with
    | notCreated => exact absurd hl (created_of_loopStep h).1
    | exited e => exact absurd hl (not_exited_of_loopStep h e)
    | head => simp [LoopPc.next, hhead hl, LoopPc.rank]
    | test c =>
      simp only [LoopPc.next]
      split
      · cases c <;> decide
      · cases c <;> decide
    | switch c p =>
      cases p with
      | announce =>
        simp only [LoopPc.next, SwitchPc.next]
        split <;> simp [LoopPc.rank, SwitchPc.rank]
      | clear =>
        cases c <;> simp [LoopPc.next, SwitchPc.next, Command.following, LoopPc.rank,
          SwitchPc.rank, Command.rank]
      | _ => simp [LoopPc.next, SwitchPc.next, LoopPc.rank, SwitchPc.rank]
    | info | list => simp [LoopPc.next, LoopPc.rank]
  · rw [hn, hl]
    exact show 0 < c.rank + p.rank from Nat.add_pos_left (by cases c <;> decide) _

/-- The stream thread can move, unless it waits for a table or for `status_mutex`. -/
theorem loopStep_isSome (params : ConfigParams) (a : Answer) (hc : s.loop ≠ .notCreated)
    (he : ∀ e, s.loop ≠ .exited e) (hw : ∀ c, s.loop ≠ .switch c .waiting)
    (hlocked : s.statusMutex = false) : ∃ s', loopStep params a s = some s' := by
  cases hl : s.loop with
  | notCreated => exact absurd hl hc
  | exited e => exact absurd hl (he e)
  | head | test c | info | list =>
    simp only [loopStep, hl]
    split <;> exact ⟨_, rfl⟩
  | switch c p =>
    simp only [loopStep, hl]
    cases p with
    | waiting => exact absurd hl (hw c)
    | wait => exact ⟨_, by simp only [switchStep, hlocked]; rfl⟩
    | announce =>
      simp only [switchStep]
      split <;> exact ⟨_, rfl⟩
    | _ => exact ⟨_, rfl⟩

/-- The answer when everything fails. -/
def Answer.refused : Answer := ⟨false, false, 0, 0⟩

/-- The answer with which the main thread gets to its end: everything fails, but for `stream_init`
behind the creation of the stream thread. -/
def MainPc.wayOut : MainPc → Answer
  | .init (.announcing _ _) => .ok 0
  | _ => .refused

/-- The main thread can move, unless it waits for somebody or cannot free the tables; and it need
not come to wait for the exit key. -/
theorem mainStep_isSome (params : ConfigParams) (halive : s.main.alive = true)
    (hr : s.main ≠ .running) (hw : s.main ≠ .init .waitingTuner)
    (ht : ∀ t, s.main ≠ .init (.waiting t))
    (hjoin : s.main = .deinit .join → ∃ e, s.loop = .exited e)
    (hfree : s.main = .deinit .freeTables → s.tables.sdt.services.FilledTo s.tables.pat.pmtCount)
    (hlocked : ¬ s.LeftInit → s.statusMutex = false) :
    ∃ s', mainStep params s.main.wayOut s = some s' ∧ s'.main ≠ .running := by
  cases hm : s.main with
  | running => exact absurd hm hr
  | exited e =>
    rw [hm] at halive
    cases halive
  | init q =>
    have hlocked' : s.statusMutex = false := hlocked (by
      rw [State.LeftInit, State.Past, hm]
      exact not_lt.mpr (Nat.add_le_add_left q.stage_le 2))
    have hsome : ∃ s', initStep params (MainPc.init q).wayOut s q = some s' := by
      cases q with
      | waitingTuner => exact absurd hm hw
      | waiting t => exact absurd hm (ht t)
      | waitTuner | wait t => exact ⟨_, by simp only [initStep, hlocked']; rfl⟩
      | checkAudioPid | checkVideoPid | createThread =>
        simp only [initStep]
        split <;> exact ⟨_, rfl⟩
      | _ => exact ⟨_, rfl⟩
    obtain ⟨s', hs'⟩ := hsome
    refine ⟨s', by simpa [mainStep, hm] using hs', fun hrunning => ?_⟩
    obtain hn | hn := main_of_initStep hs'
    · rw [hn] at hrunning
      cases q <;> cases hrunning
    · cases hn.symm.trans hrunning
  | deinit q =>
    have hsome : ∃ s', deinitStep (MainPc.deinit q).wayOut s q = some s' := by
      cases q with
      | stop =>
        simp only [deinitStep]
        split <;> exact ⟨_, rfl⟩
      | join =>
        obtain ⟨e, he⟩ := hjoin hm
        cases e <;> exact ⟨_, by simp only [deinitStep, he]; rfl⟩
      | freeTables => exact ⟨_, by simp only [deinitStep, hfree hm]; rfl⟩
      | _ => exact ⟨_, rfl⟩
    obtain ⟨s', hs'⟩ := hsome
    refine ⟨s', by simpa [mainStep, hm] using hs', fun hrunning => ?_⟩
    obtain hn | hn := main_of_deinitStep hs'
    · rw [hn] at hrunning
      cases q <;> cases hrunning
    · cases hn.symm.trans hrunning
  | _ => exact ⟨_, by simp only [mainStep, hm]; rfl, by simp⟩

/-! ### Places at which the main thread can be hindered -/

/-- The main thread waits for a table or for the stream thread, or is about to free the tables
whatever its calls return. -/
def MainPc.exposed : MainPc → Bool
  | .init (.wait _) => true
  | .init (.waiting _) => true
  | .deinit .stop => true
  | .deinit .join => true
  | .deinit .deinitPlayer => true
  | .deinit .deinitTuner => true
  | .deinit .freeTables => true
  | _ => false

/-- The calls before an exposed place fail when the player refuses. -/
theorem error_of_refused (p : Player) (pid : ℕ) (tableId : UInt8) :
    (p.setFilter .refused pid tableId).1 = .error ∧
      (p.tuner (p.tdp.demuxRegisterSectionFilterCallback .refused)).1 = .error ∧
      (p.closeSource .refused).1 = .error := by
  refine ⟨?_, ?_, ?_⟩
  · simp only [Player.setFilter, Tdp.demuxSetFilter, Answer.refused, Bool.false_eq_true, if_false]
    split_ifs <;> rfl
  · simp only [Player.tuner, Tdp.demuxRegisterSectionFilterCallback, Answer.refused,
      Bool.false_eq_true, if_false]
    split_ifs <;> rfl
  · simp only [Player.closeSource, Tdp.playerSourceClose, Answer.refused, Bool.and_self,
      Bool.false_eq_true, if_false]
    split_ifs <;> rfl

/-- From one such place to the next. -/
theorem exposed_of_mainStep (h : mainStep params a s = some s') (he : s.main.exposed = true)
    (he' : s'.main.exposed = true) :
    (∃ t, s.main = .init (.wait t) ∧ s'.main = .init (.waiting t)) ∨
      (s.main = .deinit .stop ∧ s'.main = .deinit .join) ∨
      (s.main = .deinit .deinitPlayer ∧ s'.main = .deinit .deinitTuner) ∨
      (s.main = .deinit .deinitTuner ∧ s'.main = .deinit .freeTables) := by
  cases hm : s.main with
  | init q =>
    simp only [mainStep, hm] at h
    cases q with
    | wait t =>
      simp only [initStep] at h
      split at h
      · cases h
      · exact .inl ⟨t, rfl, by rw [← Option.some.inj h]⟩
    | waiting t => cases h
    | _ => rw [hm] at he; cases he
  | deinit q =>
    simp only [mainStep, hm] at h
    obtain hn | hn := main_of_deinitStep h
    · cases q with
      | stop =>
        cases hr : s.streamThreadRunning with
        | true => exact .inr (.inl ⟨rfl, by simp [hn, DeinitPc.next, hr]⟩)
        | false => simp [hn, DeinitPc.next, hr, MainPc.exposed] at he'
      | deinitPlayer => exact .inr (.inr (.inl ⟨rfl, hn⟩))
      | deinitTuner => exact .inr (.inr (.inr ⟨rfl, hn⟩))
      | freeTables | join => rw [hn] at he'; cases he'
      | _ => rw [hm] at he; cases he
    · rw [hn] at he'
      cases he'
  | _ => rw [hm] at he; cases he

/-- A call of `stream_init` that fails. -/
theorem main_of_initAssert {r : TError × Player} {pc : InitPc} (hr : r.1 = .error)
    (h : some (s.initAssert r pc) = some s') : s'.main = .deinit .stop := by
  obtain rfl := Option.some.inj h
  obtain ⟨hok, -⟩ | ⟨-, hfail⟩ := s.initAssert_cases r pc
  · cases hr.symm.trans hok
  · rw [hfail]

/-- **The way out leads around the places at which the main thread can be hindered**, unless it is
at one already, or there is no stream thread yet. -/
theorem exposed_of_wayOut (h : mainStep params s.main.wayOut s = some s')
    (he : s'.main.exposed = true) : s.main.exposed = true ∨
      (s'.main = .deinit .stop ∧ s.main.stage ≤ (MainPc.init .createThread).stage) := by
  cases hm : s.main with
  | running | exited e => simp [mainStep, hm] at h
  | remoteInit | registerRemote | unregisterRemote | remoteDeinit | graphicsInit
  | graphicsDeinit =>
    simp only [mainStep, hm] at h
    obtain rfl := Option.some.inj h
    cases he
  | init q =>
    have hq : initStep params (MainPc.init q).wayOut s q = some s' := by
      simpa [mainStep, hm] using h
    cases q with
    | wait t | waiting t => exact .inl rfl
    | announce | announcing k r =>
      obtain rfl := Option.some.inj hq
      cases he
    | setFilter t =>
      exact .inr ⟨main_of_initAssert (error_of_refused _ _ _).1 hq, by cases t <;> decide⟩
    | registerSections =>
      exact .inr ⟨main_of_initAssert (error_of_refused s.player 0 0).2.1 hq, by decide⟩
    | freeFilter t =>
      obtain hn | hn := main_of_initStep hq
      · rw [hn] at he
        cases he
      · exact .inr ⟨hn, by cases t <;> decide⟩
    | _ =>
      obtain hn | hn := main_of_initStep hq
      · rw [hn] at he
        cases he
      · exact .inr ⟨hn, by decide⟩
  | deinit q =>
    have hq : deinitStep (MainPc.deinit q).wayOut s q = some s' := by
      simpa [mainStep, hm] using h
    cases q with
    | stop | join | deinitPlayer | deinitTuner | freeTables => exact .inl rfl
    | closeSource =>
      obtain rfl := Option.some.inj hq
      have herror := (error_of_refused s.player 0 0).2.2
      simp only [MainPc.wayOut, State.deinitAssert, herror] at he
      cases he
    | removeAudio | removeVideo | freeFilter =>
      obtain hn | hn := main_of_deinitStep hq
      · rw [hn] at he
        cases he
      · rw [hn] at he
        cases he

/-- As long as there is no signal, the waits for the tables go on. -/
theorem frozen_of_step (hl : Process.Label.other l = true) (hc : s.inCallback = false)
    (ht : s.tuning = false) (hw : s.main ≠ .init .waitingTuner) (h : step params s l = some s') :
    s'.main = s.main ∧ (s'.loop = s.loop ∨ ∃ a, loopStep params a s = some s') := by
  have hact := act_of_step h
  cases l with
  | main a | input c v a => cases hl
  | loop a => exact ⟨(loopStep_frame hact).main, .inr ⟨a, hact⟩⟩
  | deliver d =>
    obtain ⟨-, -, tables, -, rfl⟩ := sectionStep_eq_some hact
    exact ⟨rfl, .inl rfl⟩
  | signal => cases hc.symm.trans (signalStep_eq_some hact).1
  | tuner status => cases ht.symm.trans (tunerStep_eq_some hact).1
  | timeout => exact absurd (timeoutStep_eq_some hact).1 hw
  | expire =>
    obtain ⟨-, rfl⟩ := expireStep_eq_some hact
    exact ⟨rfl, .inl rfl⟩
  | handler i =>
    have hframe := handlerStep_frame hact
    exact ⟨hframe.main, .inl hframe.loop⟩

/-- Behind the wait for the tuner there is no report of it, unless `stream_init` has failed. -/
theorem State.Coherent.tuning_eq_false (hs : s.Coherent) (hp : s.Past (.init .waitingTuner))
    (h : ¬ s.Past .graphicsDeinit ∨ s.loop ≠ .notCreated) : s.tuning = false := by
  by_contra ht
  obtain hw | ⟨hd, hl⟩ := hs.tuning (by simpa using ht)
  · exact hw hp
  · exact h.elim (fun hn => hn hd) fun hn => hn hl

/-! ### The end of `stream_deinit` -/

/-- The main thread will come to free the service names, whatever its calls return. -/
def State.DueToFree (s : State) : Prop :=
  match s.main with
  | .deinit .deinitPlayer => s.player.deinit.1 = .noError ∧ s.player.tdp.initDone = true
  | .deinit .deinitTuner => s.player.tdp.initDone = true
  | .deinit .freeTables => True
  | _ => False

/-- When the player can be deinitialised. -/
theorem fst_deinit (p : Player) : p.deinit.1 =
    if p.playerHandle ≠ p.tdp.hPE ∨ p.tdp.hPE = 0 then .error else .noError := by
  by_cases hne : p.playerHandle = p.tdp.hPE
  · by_cases hz : p.tdp.hPE = 0 <;> simp [Player.deinit, Tdp.playerDeinit, hne, hz]
  · simp [Player.deinit, Tdp.playerDeinit, hne]

theorem initDone_deinit (p : Player) : p.deinit.2.tdp.initDone = p.tdp.initDone := by
  simp only [Player.deinit, Tdp.playerDeinit]
  split_ifs <;> rfl

theorem tunerDeinit_eq_noError {p : Player} :
    (p.tuner p.tdp.tunerDeinit).1 = .noError ↔ p.tdp.initDone = true := by
  simp only [Player.tuner, Tdp.tunerDeinit]
  split <;> simp_all

/-- **It does not get around them**, once it has closed the source. -/
theorem dueToFree_of_mainStep (h : mainStep params a s = some s') (hd : s.DueToFree)
    (hne : s.main ≠ .deinit .freeTables) : s'.DueToFree := by
  unfold State.DueToFree at hd
  split at hd
  · next hm =>
    simp only [mainStep, hm, deinitStep] at h
    obtain rfl := Option.some.inj h
    simp only [State.DueToFree, State.deinitAssert, hd.1, initDone_deinit, hd.2]
  · next hm =>
    simp only [mainStep, hm, deinitStep] at h
    obtain rfl := Option.some.inj h
    simp only [State.DueToFree, State.deinitAssert, tunerDeinit_eq_noError.mpr hd]
  · next hm => exact absurd hm hne
  · exact hd.elim

/-- Nor does it come to them in any other way. -/
theorem dueToFree_of_exposed (h : mainStep params a s = some s') (he : s.main.exposed = true)
    (hd : s'.DueToFree) : s.DueToFree := by
  cases hm : s.main with
  | deinit q =>
    simp only [mainStep, hm] at h
    cases q with
    | deinitPlayer =>
      obtain rfl := Option.some.inj h
      cases hr : s.player.deinit.1 with
      | noError =>
        simp only [State.DueToFree, State.deinitAssert, hr, initDone_deinit] at hd
        simp only [State.DueToFree, hm, hr, hd, and_self]
      | error => simp [State.DueToFree, State.deinitAssert, hr] at hd
    | deinitTuner =>
      obtain rfl := Option.some.inj h
      cases hr : (s.player.tuner s.player.tdp.tunerDeinit).1 with
      | noError => simp only [State.DueToFree, hm, tunerDeinit_eq_noError.mp hr]
      | error => simp [State.DueToFree, State.deinitAssert, hr] at hd
    | freeTables => simp only [State.DueToFree, hm]
    | stop =>
      obtain hn | hn := main_of_deinitStep h
      · cases hr : s.streamThreadRunning <;>
          simp [State.DueToFree, hn, DeinitPc.next, hr] at hd
      · simp [State.DueToFree, hn] at hd
    | join =>
      obtain hn | hn := main_of_deinitStep h <;> simp [State.DueToFree, hn, DeinitPc.next] at hd
    | removeAudio | removeVideo | freeFilter | closeSource =>
      rw [hm] at he
      cases he
  | init q =>
    simp only [mainStep, hm] at h
    obtain hn | hn := main_of_initStep h
    · cases q <;> simp [State.DueToFree, hn, InitPc.next] at hd
    · simp [State.DueToFree, hn] at hd
  | _ =>
    rw [hm] at he
    cases he

/-! ### A section and its signal -/

/-- A section of a table the callback does not know. -/
def unknownSection : Delivery := .ofBytes 0 [0xFF]

/-- The steps that get a signal through. -/
def signalling (s : State) : List Label :=
  if s.inCallback then [.signal] else [.deliver unknownSection, .signal]

theorem length_signalling (s : State) : (signalling s).length ≤ 2 := by
  unfold signalling
  split <;> decide

/-- **A signal gets through** to whoever waits, as long as sections are delivered. -/
theorem exec_signalling (params : ConfigParams) (halive : s.main.alive = true)
    (hreg : s.player.registered = true) (hlocked : s.statusMutex = false) :
    exec (step params) s (signalling s) = some { s with inCallback := false }.wake := by
  have hsignal : ∀ t : State, t.main.alive = true → t.inCallback = true →
      t.statusMutex = false → step params t .signal = some { t with inCallback := false }.wake := by
    intro t ht hc hm
    rw [step, if_pos ht]
    simp [act, signalStep, hc, hm]
  unfold signalling
  split
  · next hc =>
    rw [exec, hsignal s halive hc hlocked]
    rfl
  · next hc =>
    have hdeliver : step params s (.deliver unknownSection) =
        some { s with inCallback := true } := by
      rw [step, if_pos halive]
      rw [Bool.not_eq_true] at hc
      simp only [act, sectionStep, hreg, hc]
      rfl
    rw [exec, hdeliver, Option.bind_some, exec,
      hsignal { s with inCallback := true } halive rfl hlocked]
    rfl

end Zapper
