import Zapper.Stream.Bookkeeping
import Zapper.Stream.Volume

/-!
# The global `error`

Every function of `stream_controller.c` stores what a call of the TDP API has returned in the static
variable `error`, and checks `error`, not the result. `stream_init`, `stream_loop` and
`stream_deinit` run on two threads that never make calls at the same time; `set_volume` runs on the
remote thread, without a mutex, and its store can come between a call of the others and the check.
The check then reads the result of `set_volume`: a call that has succeeded fails its thread, or a
call that has failed is taken to have succeeded.

`Stream/System` takes a call and its check as one step. Here they are two (`ErrorState.step`). As
long as every check reads the result of its own call, a run is one of `Stream/System` in which the
checks that are due have been made (`ErrorState.settled_of_step`).
-/

namespace Zapper

open Transition

variable {params : ConfigParams} {a : Answer} {s s' : State} {r : TError × Player}

/-! ### Calls -/

/-- The call that the main thread makes at its place, if it makes one, with its result. -/
def mainCall (params : ConfigParams) (a : Answer) (s : State) : Option (TError × Player) :=
  match s.main with
  | .init .tunerInit => some (s.player.tuner (s.player.tdp.tunerInit a))
  | .init .registerTuner => some (s.player.tuner s.player.tdp.tunerRegisterStatusCallback)
  | .init .lockTuner => some (s.player.tuner (s.player.tdp.tunerLockToFrequency a))
  | .init .playerInit => some (s.player.init a)
  | .init .openSource => some (s.player.openSource a)
  | .init (.setFilter t) => some (s.player.setFilter a (t.pid s) t.tableId)
  | .init .registerSections =>
    some (s.player.tuner (s.player.tdp.demuxRegisterSectionFilterCallback a))
  | .init (.freeFilter _) => some (s.player.freeFilter a)
  | .init .createAudio =>
    if s.selected.audioPid ≠ noPid then
      some (s.player.createAudio a s.selected.audioPid params.audioType)
    else none
  | .init .createVideo =>
    if s.selected.videoPid ≠ noPid then
      some (s.player.createVideo a s.selected.videoPid params.videoType)
    else none
  | .deinit .removeAudio => if s.player.status.audioOn then some (s.player.removeAudio a) else none
  | .deinit .removeVideo => if s.player.status.videoOn then some (s.player.removeVideo a) else none
  | .deinit .freeFilter => some (s.player.freeFilter a)
  | .deinit .closeSource => some (s.player.closeSource a)
  | .deinit .deinitPlayer => some s.player.deinit
  | .deinit .deinitTuner => some (s.player.tuner s.player.tdp.tunerDeinit)
  | _ => none

/-- The call that the stream thread makes at its place. -/
def loopCall (params : ConfigParams) (a : Answer) (s : State) : Option (TError × Player) :=
  match s.loop with
  | .switch _ .removeAudio =>
    if s.player.status.audioOn then some (s.player.removeAudio a) else none
  | .switch _ .removeVideo =>
    if s.player.status.videoOn then some (s.player.removeVideo a) else none
  | .switch _ .freeFilter => some (s.player.freeFilter a)
  | .switch _ .setFilter =>
    some (s.player.setFilter a s.selected.tableId Table.pmt.tableId)
  | .switch _ .createVideo =>
    if s.selected.videoPid ≠ noPid then
      some (s.player.createVideo a s.selected.videoPid params.videoType)
    else none
  | .switch _ .createAudio =>
    if s.selected.audioPid ≠ noPid then
      some (s.player.createAudio a s.selected.audioPid params.audioType)
    else none
  | _ => none

/-- `status`, updated behind the check of a call of the main thread. -/
def MainPc.noted (st : StreamStatus) : MainPc → StreamStatus
  | .init .createAudio => { st with audioOn := true }
  | .init .createVideo => { st with videoOn := true }
  | .deinit .removeAudio => { st with audioOn := false }
  | .deinit .removeVideo => { st with videoOn := false }
  | _ => st

/-- `status`, updated behind the check of a call of the stream thread. -/
def LoopPc.noted (st : StreamStatus) : LoopPc → StreamStatus
  | .switch _ .removeAudio => { st with audioOn := false }
  | .switch _ .removeVideo => { st with videoOn := false }
  | .switch _ .createVideo => { st with videoOn := true }
  | .switch _ .createAudio => { st with audioOn := true }
  | _ => st

/-- A call has returned: what it does by itself, before the check. -/
def State.called (s : State) (r : TError × Player) : State :=
  { s with player := { r.2 with status := s.player.status } }

/-- `Tuner_Lock_To_Frequency` has started the thread that reports the lock. -/
def State.mainCalled (s : State) (r : TError × Player) : State :=
  if s.main = .init .lockTuner then { s.called r with tuning := r.1 = .noError } else s.called r

/-- `ASSERT_TDP_RESULT` of the main thread, on the value of `error`. -/
def State.mainCheck (s : State) : TError → State
  | .noError => { s with
      player := { s.player with status := s.main.noted s.player.status }
      main := s.main.next s }
  | .error =>
    match s.main with
    | .init _ => s.initFail
    | _ => { s with main := .exited .error }

/-- `ASSERT_TDP_THREAD_RESULT`, on the value of `error`. -/
def State.loopCheck (s : State) : TError → State
  | .noError => { s with
      player := { s.player with status := s.loop.noted s.player.status }
      loop := s.loop.next s }
  | .error => { s with loop := .exited .error }

/-! ### What a check leaves alone -/

/-- What a check does not touch. -/
structure State.CheckFrame (s s' : State) : Prop where
  statusMutex : s'.statusMutex = s.statusMutex
  tables : s'.tables = s.tables
  tdp : s'.player.tdp = s.player.tdp

theorem State.mainCheck_frame (s : State) (e : TError) :
    s.CheckFrame (s.mainCheck e) ∧ (s.mainCheck e).loop = s.loop := by
  cases e with
  | noError => exact ⟨⟨rfl, rfl, rfl⟩, rfl⟩
  | error =>
    simp only [mainCheck]
    split <;> exact ⟨⟨rfl, rfl, rfl⟩, rfl⟩

theorem State.loopCheck_frame (s : State) (e : TError) :
    s.CheckFrame (s.loopCheck e) ∧ (s.loopCheck e).main = s.main := by
  cases e <;> exact ⟨⟨rfl, rfl, rfl⟩, rfl⟩

theorem State.mainCalled_frame (s : State) (r : TError × Player) :
    (s.mainCalled r).main = s.main ∧ (s.mainCalled r).loop = s.loop ∧
      (s.mainCalled r).statusMutex = s.statusMutex := by
  unfold mainCalled
  split <;> exact ⟨rfl, rfl, rfl⟩

/-- A check moves the main thread forward. -/
theorem State.stage_le_mainCheck (halive : s.main.alive = true) (e : TError) :
    s.main.stage ≤ (s.mainCheck e).main.stage := by
  cases e with
  | noError => exact (MainPc.stage_lt_next halive s).le
  | error =>
    simp only [mainCheck]
    split
    · next p hm => exact hm ▸ (MainPc.stage_lt_fail (m := .init p) rfl).le
    · exact s.main.stage_le

/-! ### A call and its check are one step -/

/-- `status` behind the calls that create and remove streams. -/
theorem Player.status_createVideo {p : Player} {pid type : ℕ} (hpid : pid ≠ noPid) :
    (p.createVideo a pid type).2.status =
      if (p.createVideo a pid type).1 = .noError then { p.status with videoOn := true }
      else p.status := by
  unfold Player.createVideo
  rw [if_pos hpid]
  rcases p.tdp.playerStreamCreate a p.playerHandle p.sourceHandle pid type p.videoStreamHandle
    with ⟨_ | _, h, tdp⟩ <;> rfl

theorem Player.status_createAudio {p : Player} {pid type : ℕ} (hpid : pid ≠ noPid) :
    (p.createAudio a pid type).2.status =
      if (p.createAudio a pid type).1 = .noError then { p.status with audioOn := true }
      else p.status := by
  unfold Player.createAudio
  rw [if_pos hpid]
  rcases p.tdp.playerStreamCreate a p.playerHandle p.sourceHandle pid type p.audioStreamHandle
    with ⟨_ | _, h, tdp⟩ <;> rfl

theorem Player.status_removeAudio {p : Player} (hon : p.status.audioOn = true) :
    (p.removeAudio a).2.status =
      if (p.removeAudio a).1 = .noError then { p.status with audioOn := false }
      else p.status := by
  unfold Player.removeAudio
  rw [if_pos hon]
  rcases p.tdp.playerStreamRemove a p.playerHandle p.sourceHandle p.audioStreamHandle
    with ⟨_ | _, tdp⟩ <;> rfl

theorem Player.status_removeVideo {p : Player} (hon : p.status.videoOn = true) :
    (p.removeVideo a).2.status =
      if (p.removeVideo a).1 = .noError then { p.status with videoOn := false }
      else p.status := by
  unfold Player.removeVideo
  rw [if_pos hon]
  rcases p.tdp.playerStreamRemove a p.playerHandle p.sourceHandle p.videoStreamHandle
    with ⟨_ | _, tdp⟩ <;> rfl

/-- A checked call in `stream_init`. -/
theorem initAssert_eq_check {q pc : InitPc} (hm : s.main = .init q)
    (hpc : q.next (s.called r) = .init pc) (hq : q ≠ .lockTuner)
    (hstatus : r.2.status =
      if r.1 = .noError then s.main.noted s.player.status else s.player.status) :
    s.initAssert r pc = (s.mainCalled r).mainCheck r.1 := by
  have hcalled : s.mainCalled r = s.called r := if_neg (by simp [hm, hq])
  have hmain : (s.called r).main = .init q := hm
  obtain ⟨hr, he⟩ | ⟨hr, he⟩ := s.initAssert_cases r pc
  · rw [if_pos hr] at hstatus
    rw [he, hcalled, hr, State.mainCheck, hmain, MainPc.next, hpc, ← hm]
    exact congrArg (fun st => { s with player := { r.2 with status := st }, main := .init pc })
      hstatus
  · rw [if_neg (by simp [hr])] at hstatus
    rw [he, hcalled, hr, State.mainCheck, hmain]
    exact congrArg (fun st => { s with player := { r.2 with status := st } }.initFail) hstatus

/-- A checked call in `stream_deinit`. -/
theorem deinitAssert_eq_check {q : DeinitPc} (hm : s.main = .deinit q)
    (hstatus : r.2.status =
      if r.1 = .noError then s.main.noted s.player.status else s.player.status) :
    s.deinitAssert r (q.next (s.called r)) = (s.mainCalled r).mainCheck r.1 := by
  have hcalled : s.mainCalled r = s.called r := if_neg (by simp [hm])
  have hmain : (s.called r).main = .deinit q := hm
  rw [hcalled]
  rcases r with ⟨_ | _, p⟩
  · rw [if_neg (by simp)] at hstatus
    rw [State.mainCheck, hmain]
    exact congrArg (fun st => { s with player := { p with status := st }, main := .exited .error })
      hstatus
  · rw [if_pos rfl] at hstatus
    rw [State.mainCheck, hmain, MainPc.next, ← hm]
    exact congrArg (fun st => { s with
      player := { p with status := st }
      main := q.next (s.called (.noError, p)) }) hstatus

/-- A checked call in `stream_loop`. -/
theorem loopAssert_eq_check (hstatus : r.2.status =
      if r.1 = .noError then s.loop.noted s.player.status else s.player.status) :
    s.loopAssert r (s.loop.next (s.called r)) = (s.called r).loopCheck r.1 := by
  rcases r with ⟨_ | _, p⟩
  · rw [if_neg (by simp)] at hstatus
    exact congrArg (fun st => { s with player := { p with status := st }, loop := .exited .error })
      hstatus
  · rw [if_pos rfl] at hstatus
    exact congrArg (fun st => { s with
      player := { p with status := st }
      loop := s.loop.next (s.called (.noError, p)) }) hstatus

/-- **A call of the main thread and its check** are the step of `Stream/System`. -/
theorem mainStep_of_mainCall (h : mainCall params a s = some r) :
    mainStep params a s = some ((s.mainCalled r).mainCheck r.1) := by
  cases hm : s.main with
  | init q =>
    -- a call that does not touch `status`
    have hquiet : ∀ {r' : TError × Player} {pc : InitPc}, mainCall params a s = some r' →
        initStep params a s q = some (s.initAssert r' pc) → q.next (s.called r') = .init pc →
          q ≠ .lockTuner → (MainPc.init q).noted s.player.status = s.player.status →
            r'.2.status = s.player.status →
              mainStep params a s = some ((s.mainCalled r).mainCheck r.1) := by
      intro r' pc hr hstep hpc hq hnoted hstatus
      obtain rfl := Option.some.inj (h.symm.trans hr)
      rw [mainStep, hm]
      rw [← hm] at hnoted
      exact hstep.trans (congrArg some (initAssert_eq_check hm hpc hq (by
        rw [hnoted, ite_self, hstatus])))
    cases q with
    | tunerInit | registerTuner | playerInit | openSource | setFilter t | registerSections
    | freeFilter t =>
      exact hquiet (by simp only [mainCall, hm]) rfl rfl (by simp) rfl rfl
    | lockTuner =>
      simp only [mainCall, hm, Option.some.injEq] at h
      subst h
      rcases hr : s.player.tdp.tunerLockToFrequency a with ⟨_ | _, tdp⟩ <;>
        simp [mainStep, hm, initStep, hr, Player.tuner, State.initAssert, State.mainCalled,
          State.called, State.mainCheck, State.initFail, MainPc.next, InitPc.next, MainPc.noted]
    | createAudio =>
      simp only [mainCall, hm] at h
      split at h
      · next hpid =>
        obtain rfl := Option.some.inj h
        rw [mainStep, hm]
        refine congrArg some (initAssert_eq_check hm rfl (by simp) ?_)
        rw [hm]
        exact Player.status_createAudio hpid
      · cases h
    | createVideo =>
      simp only [mainCall, hm] at h
      split at h
      · next hpid =>
        obtain rfl := Option.some.inj h
        rw [mainStep, hm]
        refine congrArg some (initAssert_eq_check hm rfl (by simp) ?_)
        rw [hm]
        exact Player.status_createVideo hpid
      · cases h
    | _ => simp [mainCall, hm] at h
  | deinit q =>
    have hquiet : ∀ {r' : TError × Player}, mainCall params a s = some r' →
        deinitStep a s q = some (s.deinitAssert r' (q.next (s.called r'))) →
          (MainPc.deinit q).noted s.player.status = s.player.status →
            r'.2.status = s.player.status →
              mainStep params a s = some ((s.mainCalled r).mainCheck r.1) := by
      intro r' hr hstep hnoted hstatus
      obtain rfl := Option.some.inj (h.symm.trans hr)
      rw [mainStep, hm]
      rw [← hm] at hnoted
      exact hstep.trans (congrArg some (deinitAssert_eq_check hm (by
        rw [hnoted, ite_self, hstatus])))
    cases q with
    | freeFilter | closeSource | deinitPlayer | deinitTuner =>
      exact hquiet (by simp only [mainCall, hm]) rfl rfl rfl
    | removeAudio =>
      simp only [mainCall, hm] at h
      split at h
      · next hon =>
        obtain rfl := Option.some.inj h
        rw [mainStep, hm]
        refine congrArg some (deinitAssert_eq_check hm ?_)
        rw [hm]
        exact Player.status_removeAudio hon
      · cases h
    | removeVideo =>
      simp only [mainCall, hm] at h
      split at h
      · next hon =>
        obtain rfl := Option.some.inj h
        rw [mainStep, hm]
        refine congrArg some (deinitAssert_eq_check hm ?_)
        rw [hm]
        exact Player.status_removeVideo hon
      · cases h
    | _ => simp [mainCall, hm] at h
  | _ => simp [mainCall, hm] at h

/-- **A call of the stream thread and its check** are the step of `Stream/System`. -/
theorem loopStep_of_loopCall (h : loopCall params a s = some r) :
    loopStep params a s = some ((s.called r).loopCheck r.1) := by
  cases hl : s.loop with
  | switch c q =>
    have hcall : ∀ {r' : TError × Player}, r = r' →
        switchStep params a c s q = some (s.loopAssert r' (s.loop.next (s.called r'))) →
          (r'.2.status = if r'.1 = .noError then s.loop.noted s.player.status
            else s.player.status) →
            loopStep params a s = some ((s.called r).loopCheck r.1) := by
      intro r' hr hstep hstatus
      subst hr
      rw [loopStep, hl]
      exact hstep.trans (congrArg some (loopAssert_eq_check hstatus))
    cases q with
    | freeFilter | setFilter =>
      simp only [loopCall, hl] at h
      exact hcall (Option.some.inj h).symm (by rw [hl]; rfl) (by rw [hl]; exact (ite_self _).symm)
    | removeAudio =>
      simp only [loopCall, hl] at h
      split at h
      · next hon =>
        exact hcall (Option.some.inj h).symm (by rw [hl]; rfl) (by
          rw [hl]
          exact Player.status_removeAudio hon)
      · cases h
    | removeVideo =>
      simp only [loopCall, hl] at h
      split at h
      · next hon =>
        exact hcall (Option.some.inj h).symm (by rw [hl]; rfl) (by
          rw [hl]
          exact Player.status_removeVideo hon)
      · cases h
    | createVideo =>
      simp only [loopCall, hl] at h
      split at h
      · next hpid =>
        exact hcall (Option.some.inj h).symm (by rw [hl]; rfl) (by
          rw [hl]
          exact Player.status_createVideo hpid)
      · cases h
    | createAudio =>
      simp only [loopCall, hl] at h
      split at h
      · next hpid =>
        exact hcall (Option.some.inj h).symm (by rw [hl]; rfl) (by
          rw [hl]
          exact Player.status_createAudio hpid)
      · cases h
    | _ => simp [loopCall, hl] at h
  | _ => simp [loopCall, hl] at h

/-! ### The system -/

/-- The zapper, with the global `error` and the checks that are due. -/
structure ErrorState where
  zapper : State
  /-- The global `error`. -/
  error : TError
  /-- What the call of the main thread has returned, until the thread checks `error`. -/
  mainDue : Option TError
  /-- The same for the stream thread. -/
  loopDue : Option TError

namespace ErrorState

/-- Static memory. -/
def powerOn : ErrorState where
  zapper := .powerOn
  error := .noError
  mainDue := none
  loopDue := none

/-- A step of the main thread. -/
def mainStep (params : ConfigParams) (a : Answer) (x : ErrorState) : Option ErrorState :=
  match x.mainDue with
  | some _ => some { x with zapper := x.zapper.mainCheck x.error, mainDue := none }
  | none =>
    match mainCall params a x.zapper with
    | some r => some { x with zapper := x.zapper.mainCalled r, error := r.1, mainDue := some r.1 }
    | none => (Zapper.mainStep params a x.zapper).map fun s => { x with zapper := s }

/-- A step of the stream thread. -/
def loopStep (params : ConfigParams) (a : Answer) (x : ErrorState) : Option ErrorState :=
  match x.loopDue with
  | some _ => some { x with zapper := x.zapper.loopCheck x.error, loopDue := none }
  | none =>
    match loopCall params a x.zapper with
    | some r => some { x with zapper := x.zapper.called r, error := r.1, loopDue := some r.1 }
    | none => (Zapper.loopStep params a x.zapper).map fun s => { x with zapper := s }

/-- `error` behind an input event: `set_volume` stores what `Player_Volume_Set` returns. -/
def errorBehind (a : Answer) (code value : ℕ) (x : ErrorState) : TError :=
  match (Key.ofEvent code value).bind (Key.passes x.zapper) with
  | some volume => (x.zapper.player.setVolume a volume).1
  | none => x.error

/-- A step of one actor. -/
def act (params : ConfigParams) (x : ErrorState) : Label → Option ErrorState
  | .main a => mainStep params a x
  | .loop a => loopStep params a x
  | .input code value a => (callback a code value x.zapper).map fun s =>
      { x with zapper := s, error := x.errorBehind a code value }
  | l => (Zapper.act params x.zapper l).map fun s => { x with zapper := s }

/-- The transition function. -/
def step (params : ConfigParams) (x : ErrorState) (l : Label) : Option ErrorState :=
  if x.zapper.main.alive then act params x l else none

/-- The step is a check. -/
def checks (x : ErrorState) : Label → Bool
  | .main _ => x.mainDue.isSome
  | .loop _ => x.loopDue.isSome
  | _ => false

/-- A check reads the result of its own call. -/
def ReadsOwn (x : ErrorState) : Label → Prop
  | .main _ => ∀ e ∈ x.mainDue, x.error = e
  | .loop _ => ∀ e ∈ x.loopDue, x.error = e
  | _ => True

instance (x : ErrorState) : ∀ l, Decidable (x.ReadsOwn l)
  | .main _ => inferInstanceAs (Decidable (∀ e ∈ x.mainDue, x.error = e))
  | .loop _ => inferInstanceAs (Decidable (∀ e ∈ x.loopDue, x.error = e))
  | .input _ _ _ => isTrue trivial
  | .deliver _ => isTrue trivial
  | .signal => isTrue trivial
  | .tuner _ => isTrue trivial
  | .timeout => isTrue trivial
  | .expire => isTrue trivial
  | .handler _ => isTrue trivial

/-- The zapper when the checks that are due have been made, each on the result of its call. -/
def settled (x : ErrorState) : State :=
  let s := match x.loopDue with
    | some e => x.zapper.loopCheck e
    | none => x.zapper
  match x.mainDue with
  | some e => s.mainCheck e
  | none => s

end ErrorState

/-! ### A due check and the others -/

/-- The check of the stream thread has been made. -/
def State.withLoop (s : State) (st : StreamStatus) (pc : LoopPc) : State :=
  { s with player := { s.player with status := st }, loop := pc }

/-- The check of the main thread has been made. -/
def State.withMain (s : State) (st : StreamStatus) (e : TError) (pc : MainPc) : State :=
  { s with player := { s.player with status := st }, mainError := e, main := pc }

/-- Both at once. -/
def State.moved (s : State) (st : StreamStatus) (e : TError) (m : MainPc) (pc : LoopPc) : State :=
  { s with player := { s.player with status := st }, mainError := e, main := m, loop := pc }

/-- The sections and the timer do not care for the places of the threads. -/
theorem act_moved {l : Label} (st : StreamStatus) (e : TError) (m : MainPc) (pc : LoopPc)
    (hl : (∃ d, l = .deliver d) ∨ l = .expire ∨ ∃ i, l = .handler i)
    (h : act params s l = some s') :
    act params (s.moved st e m pc) l = some (s'.moved st e m pc) ∧ s'.main = s.main ∧
      s'.mainError = s.mainError ∧ s'.loop = s.loop ∧ s'.player = s.player := by
  obtain ⟨d, rfl⟩ | rfl | ⟨i, rfl⟩ := hl
  · obtain ⟨hreg, hc, tables, ht, rfl⟩ := sectionStep_eq_some h
    refine ⟨?_, rfl, rfl, rfl, rfl⟩
    have hreg' : (s.moved st e m pc).player.registered = true := hreg
    have hc' : (s.moved st e m pc).inCallback = false := hc
    have ht' : filterCallback d (s.moved st e m pc).tables = some tables := ht
    rw [act, sectionStep, if_pos (by rw [hreg', hc']; rfl), ht']
    rfl
  · obtain ⟨harmed, rfl⟩ := expireStep_eq_some h
    refine ⟨?_, rfl, rfl, rfl, rfl⟩
    simp only [act, expireStep, State.moved, harmed, if_true]
  · have hframe := handlerStep_frame h
    refine ⟨?_, hframe.main, hframe.mainError, hframe.loop, hframe.player⟩
    simp only [act, handlerStep] at h
    split at h
    · cases h
    all_goals
      next hi =>
      obtain rfl := Option.some.inj h
      simp only [act, handlerStep, State.moved, State.order, hi]

/-- The place behind a call does not depend on the state. -/
theorem LoopPc.next_of_callsPlayer {pc : LoopPc} (h : pc.callsPlayer = true) (s s' : State) :
    pc.next s' = pc.next s := by
  cases pc with
  | switch c q => cases q <;> first | rfl | cases h
  | _ => cases h

/-- The check of the stream thread. -/
theorem State.loopCheck_eq (hl : s.loop.callsPlayer = true) (e : TError) : ∃ st pc,
    pc.holdsParams = true ∧ (∀ c, pc ≠ .switch c .waiting) ∧ ∀ s' : State, s'.loop = s.loop →
      s'.player.status = s.player.status → s'.loopCheck e = s'.withLoop st pc := by
  cases e with
  | error =>
    refine ⟨s.player.status, .exited .error, rfl, by simp, fun s' hl' hst => ?_⟩
    rw [withLoop, ← hst]
    rfl
  | noError =>
    refine ⟨s.loop.noted s.player.status, s.loop.next s, ?_, ?_, fun s' hl' hst => ?_⟩
    · cases hl' : s.loop with
      | switch c q => rw [hl'] at hl; cases q <;> first | rfl | cases hl
      | _ => rw [hl'] at hl; cases hl
    · cases hl' : s.loop with
      | switch c q =>
        rw [hl'] at hl
        cases q with
        | removeAudio | removeVideo | freeFilter | setFilter | createVideo | createAudio =>
          simp [LoopPc.next, SwitchPc.next]
        | _ => cases hl
      | _ => rw [hl'] at hl; cases hl
    · rw [loopCheck, hl', hst, LoopPc.next_of_callsPlayer hl s s']
      rfl

/-- A key does not care for a due check of the stream thread. -/
theorem press_withLoop {k : Key} {st : StreamStatus} {pc : LoopPc}
    (hheld : s.loop.holdsParams = true) (hpc : pc.holdsParams = true)
    (h : press a s k = some s') : press a (s.withLoop st pc) k = some (s'.withLoop st pc) := by
  have hpc' : (s.withLoop st pc).loop.holdsParams = true := hpc
  cases k with
  | digit program | pPlus | pMinus | info | ok => simp [press, hheld] at h
  | back | vPlus | vMinus | vMute =>
    obtain rfl := Option.some.inj h
    rfl
  | exit =>
    obtain rfl := Option.some.inj h
    simp only [press, State.withLoop]
    split <;> rfl

/-- Where a signal finds the main thread at the end of its wait. -/
def MainPc.woken : MainPc → MainPc
  | .init .waitingTuner => .init .playerInit
  | .init (.waiting t) => .init t.afterWait
  | m => m

/-- A signal while the stream thread does not wait. -/
theorem State.wake_eq_woken (hl : ∀ c, s.loop ≠ .switch c .waiting) :
    s.wake = { s with main := s.main.woken } := by
  unfold wake
  split
  · next hm => rw [hm]; rfl
  · next t hm => rw [hm]; rfl
  · next hl' _ _ => exact absurd hl' (hl _)
  · next hne hne' _ =>
    have hm : s.main.woken = s.main := by
      unfold MainPc.woken
      split
      · next hm => exact absurd hm hne
      · next t hm => exact absurd hm (hne' t)
      · rfl
    rw [hm]

/-- The wake of a waiting thread does not either. -/
theorem State.wake_withLoop {st : StreamStatus} {pc : LoopPc}
    (hl : ∀ c, s.loop ≠ .switch c .waiting) (hpc : ∀ c, pc ≠ .switch c .waiting) :
    (s.withLoop st pc).wake = s.wake.withLoop st pc := by
  rw [wake_eq_woken hl, wake_eq_woken (s := s.withLoop st pc) hpc]
  rfl

/-- The main thread, while the stream thread has a check to make. -/
theorem mainStep_withLoop {st : StreamStatus} {pc : LoopPc} (hl : ∀ e, s.loop ≠ .exited e)
    (hcreated : s.Past (.init .createThread)) (hjoin : ¬ s.Past (.deinit .join))
    (h : mainStep params a s = some s') :
    mainStep params a (s.withLoop st pc) = some (s'.withLoop st pc) ∧ s'.loop = s.loop ∧
      s'.player.status = s.player.status := by
  rw [State.Past] at hcreated hjoin
  cases hm : s.main with
  | init q =>
    rw [hm] at hcreated
    cases q with
    | announce =>
      simp only [mainStep, hm, initStep] at h
      obtain rfl := Option.some.inj h
      exact ⟨by simp only [mainStep, State.withLoop, hm, initStep]; rfl, rfl, rfl⟩
    | announcing progNum radio =>
      simp only [mainStep, hm, initStep] at h
      split at h
      · next hfirst =>
        obtain rfl := Option.some.inj h
        exact ⟨by simp only [mainStep, State.withLoop, hm, initStep, hfirst, if_true], rfl, rfl⟩
      · next hfirst =>
        obtain rfl := Option.some.inj h
        refine ⟨?_, rfl, rfl⟩
        simp only [mainStep, State.withLoop, hm, initStep, hfirst]
        rfl
    | wait t | waiting t | setFilter t | freeFilter t =>
      cases t <;> exact absurd hcreated (by decide)
    | _ => exact absurd hcreated (by decide)
  | deinit q =>
    rw [hm] at hjoin
    cases q with
    | stop =>
      simp only [mainStep, hm, deinitStep] at h
      split at h
      · next hrun =>
        obtain rfl := Option.some.inj h
        exact ⟨by simp only [mainStep, State.withLoop, hm, deinitStep, hrun, if_true], rfl, rfl⟩
      · next hrun =>
        obtain rfl := Option.some.inj h
        refine ⟨?_, rfl, rfl⟩
        simp only [mainStep, State.withLoop, hm, deinitStep, hrun]
        rfl
    | join =>
      simp only [mainStep, hm, deinitStep] at h
      split at h
      · next hl' => exact absurd hl' (hl _)
      · next hl' => exact absurd hl' (hl _)
      · cases h
    | _ => exact absurd (by decide) hjoin
  | graphicsInit | graphicsDeinit =>
    simp only [mainStep, hm] at h
    split at h
    · next hfirst =>
      obtain rfl := Option.some.inj h
      exact ⟨by simp only [mainStep, State.withLoop, hm, hfirst, if_true], rfl, rfl⟩
    · next hfirst =>
      obtain rfl := Option.some.inj h
      refine ⟨?_, rfl, rfl⟩
      simp only [mainStep, State.withLoop, hm, hfirst]
      rfl
  | running => simp [mainStep, hm] at h
  | remoteInit | registerRemote =>
    rw [hm] at hcreated
    exact absurd hcreated (by decide)
  | unregisterRemote | remoteDeinit =>
    rw [hm] at hjoin
    exact absurd (by decide) hjoin
  | exited e => simp [mainStep, hm] at h

/-- A key leaves `status` alone. -/
theorem status_of_press {k : Key} (h : press a s k = some s') :
    s'.player.status = s.player.status := by
  obtain hp | ⟨volume, hp⟩ := player_of_press h <;> rw [hp]
  rfl

/-- **The others do not care for a due check of the stream thread.** -/
theorem act_withLoop {l : Label} (st : StreamStatus) {pc : LoopPc}
    (hcalls : s.loop.callsPlayer = true) (hheld : pc.holdsParams = true)
    (hpc : ∀ c, pc ≠ .switch c .waiting) (hcreated : s.Past (.init .createThread))
    (hjoin : ¬ s.Past (.deinit .join)) (hl : ∀ a, l ≠ .loop a) (h : act params s l = some s') :
    act params (s.withLoop st pc) l = some (s'.withLoop st pc) ∧ s'.loop = s.loop ∧
      s'.player.status = s.player.status := by
  have hswitch : (∀ e, s.loop ≠ .exited e) ∧ (∀ c, s.loop ≠ .switch c .waiting) ∧
      s.loop.holdsParams = true := by
    cases hl' : s.loop with
    | switch c q =>
      rw [hl'] at hcalls
      refine ⟨by simp, fun c' hw => ?_, rfl⟩
      cases hw
      cases hcalls
    | _ => rw [hl'] at hcalls; cases hcalls
  obtain ⟨hexited, hwaiting, hholds⟩ := hswitch
  have hmoved : ((∃ d, l = .deliver d) ∨ l = .expire ∨ ∃ i, l = .handler i) →
      act params (s.withLoop st pc) l = some (s'.withLoop st pc) ∧ s'.loop = s.loop ∧
        s'.player.status = s.player.status := by
    intro hl
    obtain ⟨hact, hmain, herror, hloop, hplayer⟩ :=
      act_moved st s.mainError s.main pc hl h
    have hs' : s'.moved st s.mainError s.main pc = s'.withLoop st pc := by
      rw [← hmain, ← herror]
      rfl
    exact ⟨hact.trans (congrArg some hs'), hloop, by rw [hplayer]⟩
  cases l with
  | main a => exact mainStep_withLoop hexited hcreated hjoin h
  | loop a => exact absurd rfl (hl a)
  | input code value a =>
    simp only [act, callback] at h ⊢
    split at h
    · next hreg =>
      rw [if_pos (show (s.withLoop st pc).main.remoteRegistered = true from hreg)]
      split at h
      · exact ⟨press_withLoop hholds hheld h, (press_frame h).loop, status_of_press h⟩
      · obtain rfl := Option.some.inj h
        exact ⟨rfl, rfl, rfl⟩
    · cases h
  | signal =>
    obtain ⟨hc, hm, rfl⟩ := signalStep_eq_some h
    have hc' : (s.withLoop st pc).inCallback = true := hc
    have hm' : (s.withLoop st pc).statusMutex = false := hm
    refine ⟨?_, ?_, by simp⟩
    · rw [act, signalStep, if_pos (by rw [hc', hm']; rfl)]
      exact congrArg some (State.wake_withLoop (s := { s with inCallback := false }) hwaiting hpc)
    · rw [State.wake_eq_woken (s := { s with inCallback := false }) hwaiting]
  | tuner status =>
    have htuning : s.tuning = true := (tunerStep_eq_some h).1
    have htuning' : (s.withLoop st pc).tuning = true := htuning
    cases status with
    | locked =>
      simp only [act, tunerStep, htuning, htuning', if_true] at h ⊢
      split at h
      · cases h
      · next hm =>
        rw [if_neg (show ¬ (s.withLoop st pc).statusMutex = true from hm)]
        obtain rfl := Option.some.inj h
        refine ⟨congrArg some (State.wake_withLoop (s := { s with tuning := false }) hwaiting hpc),
          ?_, by simp⟩
        rw [State.wake_eq_woken (s := { s with tuning := false }) hwaiting]
    | error =>
      simp only [act, tunerStep, htuning, htuning', if_true] at h ⊢
      obtain rfl := Option.some.inj h
      exact ⟨rfl, rfl, rfl⟩
  | timeout =>
    obtain ⟨hm, -⟩ := timeoutStep_eq_some h
    rw [State.Past, hm] at hcreated
    exact absurd hcreated (by decide)
  | deliver d => exact hmoved (.inl ⟨d, rfl⟩)
  | expire => exact hmoved (.inr (.inl rfl))
  | handler i => exact hmoved (.inr (.inr ⟨i, rfl⟩))

/-! ### The check of the main thread -/

/-- The main thread is at a call whose result is checked, or might be. -/
def MainPc.calls (m : MainPc) : Bool :=
  m.callsPlayer || m = .init .tunerInit || m = .init .registerTuner || m = .init .lockTuner ||
    m = .deinit .deinitTuner

theorem MainPc.calls_of_mainCall (h : mainCall params a s = some r) : s.main.calls = true := by
  unfold mainCall at h
  split at h
  case h_17 => cases h
  all_goals
    next hm =>
    rw [hm]
    rfl

/-- A place of the main thread at which it waits for no signal. -/
structure MainPc.Settles (m : MainPc) : Prop where
  running : m ≠ .running
  woken : m.woken = m

/-- The main thread waits for no signal at a call, nor right behind one. -/
theorem MainPc.settles_of_calls {m : MainPc} (h : m.calls = true) :
    m.Settles ∧ (m.next s).Settles := by
  cases m with
  | init q =>
    cases q with
    | reset | loadCounter | waitTuner | waitingTuner | wait t | waiting t | checkAudioPid
    | checkVideoPid | createThread | announce | announcing progNum radio => cases h
    | setFilter t => cases t <;> exact ⟨⟨by simp, rfl⟩, ⟨by simp [next, InitPc.next], rfl⟩⟩
    | _ => exact ⟨⟨by simp, rfl⟩, ⟨by simp [next, InitPc.next], rfl⟩⟩
  | deinit q =>
    cases q with
    | stop | join | freeTables => cases h
    | _ => exact ⟨⟨by simp, rfl⟩, ⟨by simp [next, DeinitPc.next], rfl⟩⟩
  | _ => cases h

/-- The place behind a call does not depend on the state. -/
theorem MainPc.next_of_calls {m : MainPc} (h : m.calls = true) (s s' : State) :
    m.next s' = m.next s := by
  cases m with
  | init q =>
    cases q with
    | announce => cases h
    | _ => rfl
  | deinit q =>
    cases q with
    | stop => cases h
    | _ => rfl
  | _ => cases h

/-- The check of the main thread. -/
theorem State.mainCheck_eq (hm : s.main.calls = true) (e : TError) : ∃ st me pc,
    pc.Settles ∧ (pc.alive = true → pc.remoteRegistered = true) ∧
      ∀ s' : State, s'.main = s.main → s'.mainError = s.mainError →
        s'.player.status = s.player.status → s'.mainCheck e = s'.withMain st me pc := by
  obtain ⟨-, hnext⟩ := MainPc.settles_of_calls (s := s) hm
  cases e with
  | error =>
    cases hm' : s.main with
    | init q =>
      refine ⟨s.player.status, .error, .deinit .stop, ⟨by simp, rfl⟩, fun _ => rfl,
        fun s' hmain _ hst => ?_⟩
      rw [mainCheck, hmain, withMain, ← hst]
      rfl
    | deinit q =>
      refine ⟨s.player.status, s.mainError, .exited .error, ⟨by simp, rfl⟩, (fun h => by cases h),
        fun s' hmain herror hst => ?_⟩
      rw [mainCheck, hmain, withMain, ← hst, ← herror]
    | _ => rw [hm'] at hm; cases hm
  | noError =>
    refine ⟨s.main.noted s.player.status, s.mainError, s.main.next s, hnext, fun _ => ?_,
      fun s' hmain herror hst => ?_⟩
    · cases hm' : s.main with
      | init q => cases q <;> rfl
      | deinit q => cases q <;> rfl
      | _ => rw [hm'] at hm; cases hm
    · rw [mainCheck, hmain, hst, MainPc.next_of_calls hm s s', withMain, ← herror]

/-- A key does not care for a due check of the main thread. -/
theorem press_withMain {k : Key} {st : StreamStatus} {e : TError} {pc : MainPc}
    (hm : s.main ≠ .running) (hpc : pc ≠ .running) (h : press a s k = some s') :
    press a (s.withMain st e pc) k = some (s'.withMain st e pc) := by
  cases k with
  | digit program =>
    simp only [press] at h ⊢
    split at h
    · cases h
    · next hheld =>
      obtain rfl := Option.some.inj h
      rw [if_neg (show ¬ (s.withMain st e pc).loop.holdsParams = true from hheld)]
      by_cases hprogram : program ≠ s.prCounter
      · rw [changeProgram, changeProgram, if_pos hprogram,
          if_pos (show program ≠ (s.withMain st e pc).prCounter from hprogram)]
        rfl
      · rw [changeProgram, changeProgram, if_neg hprogram,
          if_neg (show ¬ program ≠ (s.withMain st e pc).prCounter from hprogram)]
        rfl
  | pPlus | pMinus | info | ok =>
    simp only [press] at h ⊢
    split at h
    · cases h
    · next hheld =>
      obtain rfl := Option.some.inj h
      exact if_neg hheld
  | back | vPlus | vMinus | vMute =>
    obtain rfl := Option.some.inj h
    rfl
  | exit =>
    have hs' : s' = s := by
      obtain rfl := Option.some.inj h
      split
      · next hrun => exact absurd hrun hm
      · rfl
    rw [hs', press]
    split
    · next hrun => exact absurd hrun hpc
    · rfl

/-- **The others do not care for a due check of the main thread.** -/
theorem act_withMain {l : Label} (st : StreamStatus) (e : TError) {pc : MainPc}
    (hcalls : s.main.calls = true) (hpc : pc.Settles) (hreg : pc.remoteRegistered = true)
    (hidle : s.loop = .notCreated ∨ ∃ e, s.loop = .exited e) (hl : ∀ a, l ≠ .main a)
    (h : act params s l = some s') :
    act params (s.withMain st e pc) l = some (s'.withMain st e pc) ∧ s'.main = s.main ∧
      s'.mainError = s.mainError ∧ s'.loop = s.loop ∧ s'.player.status = s.player.status := by
  obtain ⟨hsettles, -⟩ := MainPc.settles_of_calls (s := s) hcalls
  have hwaiting : ∀ c, s.loop ≠ .switch c .waiting := by
    intro c hl'
    obtain hnone | ⟨e, he⟩ := hidle
    · cases hnone.symm.trans hl'
    · cases he.symm.trans hl'
  have hmoved : ((∃ d, l = .deliver d) ∨ l = .expire ∨ ∃ i, l = .handler i) →
      act params (s.withMain st e pc) l = some (s'.withMain st e pc) ∧ s'.main = s.main ∧
        s'.mainError = s.mainError ∧ s'.loop = s.loop ∧ s'.player.status = s.player.status := by
    intro hl
    obtain ⟨hact, hmain, herror, hloop, hplayer⟩ :=
      act_moved st e pc s.loop hl h
    have hs' : s'.moved st e pc s.loop = s'.withMain st e pc := by
      rw [← hloop]
      rfl
    exact ⟨hact.trans (congrArg some hs'), hmain, herror, hloop, by rw [hplayer]⟩
  have hwake : ∀ u : State, u.main = s.main → u.loop = s.loop →
      (u.withMain st e pc).wake = u.wake.withMain st e pc ∧ u.wake = u := by
    intro u hm hloop
    have hu : u.wake = u := by
      rw [State.wake_eq_woken (by rw [hloop]; exact hwaiting), hm, hsettles.woken, ← hm]
    rw [State.wake_eq_woken (s := u.withMain st e pc) (by
      rw [show (u.withMain st e pc).loop = s.loop from hloop]
      exact hwaiting), hu]
    refine ⟨?_, rfl⟩
    rw [show (u.withMain st e pc).main.woken = pc from hpc.woken]
    rfl
  cases l with
  | main a => exact absurd rfl (hl a)
  | loop a =>
    obtain hnone | ⟨e, he⟩ := hidle
    · simp [act, loopStep, hnone] at h
    · simp [act, loopStep, he] at h
  | input code value a =>
    simp only [act, callback] at h ⊢
    split at h
    · rw [if_pos (show (s.withMain st e pc).main.remoteRegistered = true from hreg)]
      split at h
      · next k hk =>
        have hframe := press_frame h
        obtain hmain | ⟨hm, -⟩ := hframe.main
        · refine ⟨?_, hmain, hframe.mainError, hframe.loop, status_of_press h⟩
          exact press_withMain hsettles.running hpc.running h
        · exact absurd hm hsettles.running
      · obtain rfl := Option.some.inj h
        exact ⟨rfl, rfl, rfl, rfl, rfl⟩
    · cases h
  | deliver d => exact hmoved (.inl ⟨d, rfl⟩)
  | signal =>
    obtain ⟨hc, hm, rfl⟩ := signalStep_eq_some h
    obtain ⟨hw, hu⟩ := hwake { s with inCallback := false } rfl rfl
    have hc' : (s.withMain st e pc).inCallback = true := hc
    have hm' : (s.withMain st e pc).statusMutex = false := hm
    rw [act, signalStep, if_pos (by rw [hc', hm']; rfl)]
    refine ⟨congrArg some hw, ?_⟩
    rw [hu]
    exact ⟨rfl, rfl, rfl, rfl⟩
  | tuner status =>
    have htuning : s.tuning = true := (tunerStep_eq_some h).1
    have htuning' : (s.withMain st e pc).tuning = true := htuning
    obtain ⟨hw, hu⟩ := hwake { s with tuning := false } rfl rfl
    cases status with
    | locked =>
      simp only [act, tunerStep, htuning, htuning', if_true] at h ⊢
      split at h
      · cases h
      · next hm =>
        rw [if_neg (show ¬ (s.withMain st e pc).statusMutex = true from hm)]
        obtain rfl := Option.some.inj h
        refine ⟨congrArg some hw, ?_⟩
        rw [hu]
        exact ⟨rfl, rfl, rfl, rfl⟩
    | error =>
      simp only [act, tunerStep, htuning, htuning', if_true] at h ⊢
      obtain rfl := Option.some.inj h
      exact ⟨rfl, rfl, rfl, rfl, rfl⟩
  | timeout =>
    obtain ⟨hm, -⟩ := timeoutStep_eq_some h
    rw [hm] at hcalls
    cases hcalls
  | expire => exact hmoved (.inr (.inl rfl))
  | handler i => exact hmoved (.inr (.inr ⟨i, rfl⟩))

/-! ### Runs in which every check reads the result of its own call -/

/-- The main thread makes no calls while there is a stream thread. -/
theorem MainPc.stage_of_calls {m : MainPc} (h : m.calls = true) :
    m.stage ≤ (MainPc.init .createThread).stage ∨ (MainPc.deinit .join).stage < m.stage := by
  cases m with
  | init q =>
    cases q with
    | setFilter t | freeFilter t => cases t <;> exact .inl (by decide)
    | reset | loadCounter | waitTuner | waitingTuner | wait t | waiting t | checkAudioPid
    | checkVideoPid | createThread | announce | announcing progNum radio => cases h
    | _ => exact .inl (by decide)
  | deinit q =>
    cases q with
    | stop | join | freeTables => cases h
    | _ => exact .inr (by decide)
  | _ => cases h

theorem LoopPc.callsPlayer_of_loopCall (h : loopCall params a s = some r) :
    s.loop.callsPlayer = true := by
  unfold loopCall at h
  split at h
  case h_7 => cases h
  all_goals
    next hl =>
    rw [hl]
    rfl

namespace ErrorState

variable {x y : ErrorState} {l : Label}

/-- A check is due behind a call only, and for one of the threads. -/
structure Sane (x : ErrorState) : Prop where
  main : x.mainDue ≠ none → x.zapper.main.calls = true ∧
    (x.zapper.loop = .notCreated ∨ ∃ e, x.zapper.loop = .exited e)
  loop : x.loopDue ≠ none → x.zapper.loop.callsPlayer = true

theorem sane_powerOn : powerOn.Sane := ⟨by simp [powerOn], by simp [powerOn]⟩

/-- **What a step does**: a check, a call, or a step of `Stream/System` that makes no call. -/
inductive Moves (params : ConfigParams) (x : ErrorState) : Label → ErrorState → Prop
  | mainCheck (a : Answer) (e : TError) (hdue : x.mainDue = some e) :
      Moves params x (.main a) { x with zapper := x.zapper.mainCheck x.error, mainDue := none }
  | mainCall (a : Answer) (r : TError × Player) (hdue : x.mainDue = none)
      (hcall : mainCall params a x.zapper = some r) :
      Moves params x (.main a)
        { x with zapper := x.zapper.mainCalled r, error := r.1, mainDue := some r.1 }
  | loopCheck (a : Answer) (e : TError) (hdue : x.loopDue = some e) :
      Moves params x (.loop a) { x with zapper := x.zapper.loopCheck x.error, loopDue := none }
  | loopCall (a : Answer) (r : TError × Player) (hdue : x.loopDue = none)
      (hcall : loopCall params a x.zapper = some r) :
      Moves params x (.loop a)
        { x with zapper := x.zapper.called r, error := r.1, loopDue := some r.1 }
  | zapper (l : Label) (s : State) (e : TError) (h : Zapper.step params x.zapper l = some s)
      (hchecks : x.checks l = false) (hloop : ∀ a, l = .loop a → loopCall params a x.zapper = none)
      (hmain : ∀ a, l = .main a → mainCall params a x.zapper = none) :
      Moves params x l { x with zapper := s, error := e }

theorem alive_of_step (h : x.step params l = some y) : x.zapper.main.alive = true := by
  rw [step] at h
  split at h
  · next ha => exact ha
  · cases h

theorem step_moves (h : x.step params l = some y) : Moves params x l y := by
  unfold step at h
  split at h
  · next halive =>
    have hstep : ∀ {s : State}, Zapper.act params x.zapper l = some s →
        Zapper.step params x.zapper l = some s := fun hs => by rw [Zapper.step, if_pos halive, hs]
    cases l with
    | main a =>
      simp only [act, mainStep] at h
      split at h
      · next e hdue =>
        obtain rfl := Option.some.inj h
        exact .mainCheck a e hdue
      · next hdue =>
        split at h
        · next r hcall =>
          obtain rfl := Option.some.inj h
          exact .mainCall a r hdue hcall
        · next hcall =>
          obtain ⟨s, hs, rfl⟩ := Option.map_eq_some_iff.mp h
          exact .zapper _ s _ (hstep hs) (by simp [checks, hdue]) (fun _ h => by cases h)
            fun _ h => by
              cases h
              exact hcall
    | loop a =>
      simp only [act, loopStep] at h
      split at h
      · next e hdue =>
        obtain rfl := Option.some.inj h
        exact .loopCheck a e hdue
      · next hdue =>
        split at h
        · next r hcall =>
          obtain rfl := Option.some.inj h
          exact .loopCall a r hdue hcall
        · next hcall =>
          obtain ⟨s, hs, rfl⟩ := Option.map_eq_some_iff.mp h
          refine .zapper _ s _ (hstep hs) (by simp [checks, hdue]) (fun _ h => ?_)
            fun _ h => by cases h
          cases h
          exact hcall
    | _ =>
      obtain ⟨s, hs, rfl⟩ := Option.map_eq_some_iff.mp h
      exact .zapper _ s _ (hstep hs) rfl (fun _ h => by cases h) fun _ h => by cases h
  · cases h

/-- With no check due, the zapper is settled. -/
theorem settled_eq (hmain : x.mainDue = none) (hloop : x.loopDue = none) :
    x.settled = x.zapper := by
  simp only [settled, hmain, hloop]

/-- Checks leave the tables and the player alone. -/
theorem settled_frame (x : ErrorState) : x.zapper.CheckFrame x.settled := by
  have hloop : x.zapper.CheckFrame
      (match x.loopDue with
        | some e => x.zapper.loopCheck e
        | none => x.zapper) := by
    cases x.loopDue with
    | some e => exact (x.zapper.loopCheck_frame e).1
    | none => exact ⟨rfl, rfl, rfl⟩
  unfold settled
  cases x.mainDue with
  | some e =>
    obtain ⟨hframe, -⟩ := State.mainCheck_frame
      (match x.loopDue with
        | some e => x.zapper.loopCheck e
        | none => x.zapper) e
    exact ⟨hframe.statusMutex.trans hloop.statusMutex, hframe.tables.trans hloop.tables,
      hframe.tdp.trans hloop.tdp⟩
  | none => exact hloop

/-- With no check of the main thread due, its place is settled. -/
theorem settled_main (hmain : x.mainDue = none) : x.settled.main = x.zapper.main := by
  simp only [settled, hmain]
  cases x.loopDue with
  | some e => exact (x.zapper.loopCheck_frame e).2
  | none => rfl

/-- While a check of the main thread is due, none is due of the stream thread. -/
theorem Sane.loopDue_eq (hx : x.Sane) (hdue : x.mainDue ≠ none) : x.loopDue = none := by
  by_contra hne
  have hcalls := hx.loop hne
  obtain hnone | ⟨e, he⟩ := (hx.main hdue).2
  · rw [hnone] at hcalls
    cases hcalls
  · rw [he] at hcalls
    cases hcalls

/-- While a check of the stream thread is due, the thread is running. -/
theorem Sane.running (hx : x.Sane) (hc : x.settled.Coherent) (halive : x.zapper.main.alive = true)
    (hdue : x.loopDue ≠ none) :
    x.mainDue = none ∧ x.zapper.Past (.init .createThread) ∧ ¬ x.zapper.Past (.deinit .join) := by
  have hmainDue : x.mainDue = none := by
    by_contra hne
    exact hdue (hx.loopDue_eq hne)
  obtain ⟨e, he⟩ := Option.ne_none_iff_exists'.mp hdue
  obtain ⟨st, pc, hheld, -, hcheck⟩ := State.loopCheck_eq (hx.loop hdue) e
  have hsettled : x.settled = x.zapper.withLoop st pc := by
    simp only [settled, he, hmainDue]
    exact hcheck _ rfl rfl
  rw [hsettled] at hc
  refine ⟨hmainDue, hc.created fun hnone => ?_, fun hpast => ?_⟩
  · rw [show pc = .notCreated from hnone] at hheld
    cases hheld
  · obtain hl | hl := hc.joined hpast halive
    · rw [show pc = .notCreated from hl] at hheld
      cases hheld
    · rw [show pc = .exited .noError from hl] at hheld
      cases hheld

/-- A step of `Stream/System` that makes no call. -/
private theorem settled_of_zapper {s : State} {e : TError} (hx : x.Sane) (hc : x.settled.Coherent)
    (halive : x.settled.main.alive = true) (h : Zapper.step params x.zapper l = some s)
    (hchecks : x.checks l = false) :
    { x with zapper := s, error := e }.Sane ∧
      Zapper.step params x.settled l = some { x with zapper := s, error := e }.settled := by
  have halive' := Zapper.alive_of_step h
  have hact := act_of_step h
  cases hloopDue : x.loopDue with
  | some r =>
    have hcalls := hx.loop (by simp [hloopDue])
    obtain ⟨hmainDue, hcreated, hjoin⟩ := hx.running hc halive' (by simp [hloopDue])
    obtain ⟨st, pc, hheld, hpc, hcheck⟩ := State.loopCheck_eq hcalls r
    have hl : ∀ a, l ≠ .loop a := by
      rintro a rfl
      simp [checks, hloopDue] at hchecks
    obtain ⟨hact', hloop, hst⟩ := act_withLoop st hcalls hheld hpc hcreated hjoin hl hact
    refine ⟨⟨fun hne => absurd hmainDue hne, fun _ => hloop ▸ hcalls⟩, ?_⟩
    simp only [settled, hloopDue, hmainDue]
    rw [hcheck _ rfl rfl, hcheck s hloop hst, Zapper.step,
      if_pos (show (x.zapper.withLoop st pc).main.alive = true from halive'), hact']
  | none =>
    cases hmainDue : x.mainDue with
    | some r =>
      obtain ⟨hcalls, hidle⟩ := hx.main (by simp [hmainDue])
      obtain ⟨st, me, pc, hpc, hreg, hcheck⟩ := State.mainCheck_eq hcalls r
      have hl : ∀ a, l ≠ .main a := by
        rintro a rfl
        simp [checks, hmainDue] at hchecks
      have hsettled : x.settled = x.zapper.withMain st me pc := by
        simp only [settled, hmainDue, hloopDue]
        exact hcheck _ rfl rfl rfl
      rw [hsettled] at halive
      obtain ⟨hact', hmain, herror, hloop, hst⟩ :=
        act_withMain st me hcalls hpc (hreg halive) hidle hl hact
      refine ⟨⟨fun _ => ⟨hmain ▸ hcalls, hloop ▸ hidle⟩, fun hne => absurd rfl hne⟩, ?_⟩
      rw [hsettled, Zapper.step, if_pos halive, hact']
      simp only [settled]
      exact congrArg some (hcheck s hmain herror hst).symm
    | none =>
      refine ⟨⟨fun hne => absurd rfl hne, fun hne => absurd rfl hne⟩, ?_⟩
      rw [settled_eq hmainDue hloopDue, h]
      rfl

/-- **A run in which every check reads the result of its own call** is a run of `Stream/System`,
with the checks that are due made at once. -/
theorem settled_of_step (hx : x.Sane) (hc : x.settled.Coherent)
    (halive : x.settled.main.alive = true) (hown : x.ReadsOwn l) (h : x.step params l = some y) :
    y.Sane ∧ if x.checks l then y.settled = x.settled
      else Zapper.step params x.settled l = some y.settled := by
  have halive' := alive_of_step h
  cases step_moves h with
  | mainCheck a e hdue =>
    have he : x.error = e := hown e (by simp [hdue])
    have hloopDue := hx.loopDue_eq (by simp [hdue])
    refine ⟨⟨fun hne => absurd rfl hne, fun hne => absurd hloopDue hne⟩, ?_⟩
    rw [if_pos (by simp [checks, hdue])]
    simp only [settled, hdue, hloopDue, he]
  | loopCheck a e hdue =>
    have he : x.error = e := hown e (by simp [hdue])
    obtain ⟨hmainDue, -, -⟩ := hx.running hc halive' (by simp [hdue])
    refine ⟨⟨fun hne => absurd hmainDue hne, fun hne => absurd rfl hne⟩, ?_⟩
    rw [if_pos (by simp [checks, hdue])]
    simp only [settled, hdue, hmainDue, he]
  | mainCall a r hdue hcall =>
    have hcalls := MainPc.calls_of_mainCall hcall
    have hloopDue : x.loopDue = none := by
      by_contra hne
      obtain ⟨-, hcreated, hjoin⟩ := hx.running hc halive' hne
      obtain hle | hlt := MainPc.stage_of_calls hcalls
      · exact absurd hcreated (not_lt_of_ge hle)
      · exact hjoin hlt
    rw [settled_eq hdue hloopDue] at hc halive ⊢
    have hidle : x.zapper.loop = .notCreated ∨ ∃ e, x.zapper.loop = .exited e := by
      obtain hle | hlt := MainPc.stage_of_calls hcalls
      · exact .inl (hc.notCreated hle)
      · exact (hc.joined hlt halive).imp_right fun hl => ⟨_, hl⟩
    obtain ⟨hmain, hloop, -⟩ := x.zapper.mainCalled_frame r
    refine ⟨⟨fun _ => by rw [hmain, hloop]; exact ⟨hcalls, hidle⟩,
      fun hne => absurd hloopDue hne⟩, ?_⟩
    rw [if_neg (by simp [checks, hdue]), Zapper.step, if_pos halive]
    simp only [settled, hloopDue]
    exact mainStep_of_mainCall hcall
  | loopCall a r hdue hcall =>
    have hcalls := LoopPc.callsPlayer_of_loopCall hcall
    have hmainDue : x.mainDue = none := by
      by_contra hne
      obtain hl | ⟨e, hl⟩ := (hx.main hne).2 <;> rw [hl] at hcalls <;> cases hcalls
    rw [settled_eq hmainDue hdue] at hc halive ⊢
    refine ⟨⟨fun hne => absurd hmainDue hne, fun _ => hcalls⟩, ?_⟩
    rw [if_neg (by simp [checks, hdue]), Zapper.step, if_pos halive]
    simp only [settled, hmainDue]
    exact loopStep_of_loopCall hcall
  | zapper l s e hstep hchecks hloop hmain =>
    obtain ⟨hsane, hsettled⟩ := settled_of_zapper (e := e) hx hc halive hstep hchecks
    exact ⟨hsane, by rw [if_neg (by simp [hchecks])]; exact hsettled⟩

end ErrorState

/-! ### Runs with the checks written out -/

/-- The step makes a call. -/
def makesCall (params : ConfigParams) (s : State) : Label → Bool
  | .main a => (mainCall params a s).isSome
  | .loop a => (loopCall params a s).isSome
  | _ => false

/-- A run of `Stream/System`, with each check right behind its call. -/
def checkedRun (params : ConfigParams) (s : State) : List Label → List Label
  | [] => []
  | l :: ls =>
    match step params s l with
    | some s' =>
      if makesCall params s l then l :: l :: checkedRun params s' ls
      else l :: checkedRun params s' ls
    | none => l :: ls

/-- A step of `Stream/System`, and the check behind it. -/
private theorem exec_checkedStep (h : step params s l = some s') (e : TError) (ls : List Label) :
    ∃ e', exec (ErrorState.step params) ⟨s, e, none, none⟩
      (if makesCall params s l then l :: l :: ls else l :: ls) =
        exec (ErrorState.step params) ⟨s', e', none, none⟩ ls := by
  have halive := alive_of_step h
  have hact := act_of_step h
  -- a step without a call
  have hquiet : ∀ e', makesCall params s l = false →
      ErrorState.act params ⟨s, e, none, none⟩ l = some ⟨s', e', none, none⟩ →
        ∃ e', exec (ErrorState.step params) ⟨s, e, none, none⟩
          (if makesCall params s l then l :: l :: ls else l :: ls) =
            exec (ErrorState.step params) ⟨s', e', none, none⟩ ls := by
    intro e' hcalls hstep
    refine ⟨e', ?_⟩
    rw [if_neg (by simp [hcalls]), exec, ErrorState.step, if_pos halive, hstep, Option.bind_some]
  cases l with
  | main a =>
    cases hcall : mainCall params a s with
    | none =>
      refine hquiet e (by simp [makesCall, hcall]) ?_
      simp only [ErrorState.act, ErrorState.mainStep, hcall]
      rw [show mainStep params a s = some s' from hact, Option.map_some]
    | some r =>
      obtain rfl := Option.some.inj ((mainStep_of_mainCall hcall).symm.trans hact)
      have hmain := (s.mainCalled_frame r).1
      refine ⟨r.1, ?_⟩
      rw [if_pos (by simp [makesCall, hcall]), exec, ErrorState.step, if_pos halive,
        ErrorState.act, ErrorState.mainStep, hcall, Option.bind_some, exec, ErrorState.step,
        if_pos (show (s.mainCalled r).main.alive = true from hmain ▸ halive), ErrorState.act,
        ErrorState.mainStep, Option.bind_some]
  | loop a =>
    cases hcall : loopCall params a s with
    | none =>
      refine hquiet e (by simp [makesCall, hcall]) ?_
      simp only [ErrorState.act, ErrorState.loopStep, hcall]
      rw [show loopStep params a s = some s' from hact, Option.map_some]
    | some r =>
      obtain rfl := Option.some.inj ((loopStep_of_loopCall hcall).symm.trans hact)
      refine ⟨r.1, ?_⟩
      rw [if_pos (by simp [makesCall, hcall]), exec, ErrorState.step, if_pos halive,
        ErrorState.act, ErrorState.loopStep, hcall, Option.bind_some, exec, ErrorState.step,
        if_pos (show (s.called r).main.alive = true from halive), ErrorState.act,
        ErrorState.loopStep, Option.bind_some]
  | input code value a =>
    refine hquiet (ErrorState.errorBehind a code value ⟨s, e, none, none⟩) rfl ?_
    simp only [ErrorState.act]
    rw [show callback a code value s = some s' from hact, Option.map_some]
  | _ =>
    refine hquiet e rfl ?_
    simp only [ErrorState.act]
    rw [hact, Option.map_some]

/-- **Every run of `Stream/System`** is one of the system of calls and checks. -/
theorem exec_checkedRun {ls : List Label} (h : exec (step params) s ls = some s') (e : TError) :
    ∃ e', exec (ErrorState.step params) ⟨s, e, none, none⟩ (checkedRun params s ls) =
      some ⟨s', e', none, none⟩ := by
  induction ls generalizing s e with
  | nil =>
    obtain rfl := Option.some.inj h
    exact ⟨e, rfl⟩
  | cons l ls ih =>
    obtain ⟨u, hu, hls⟩ := Option.bind_eq_some_iff.mp h
    obtain ⟨e', he'⟩ := exec_checkedStep hu e (checkedRun params u ls)
    obtain ⟨e'', he''⟩ := ih hls e'
    refine ⟨e'', ?_⟩
    rw [checkedRun, hu]
    exact he'.trans he''

end Zapper
