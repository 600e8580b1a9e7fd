import Zapper.Stream.Bookkeeping

/-!
# Notifications that come once

The tuner reports its lock once, and `main` waits for one press of the exit key. Both are
signalled on condition variables, and no variable records that the event has happened: a signal
that comes before the wait is lost. The tuner's thread is started before `stream_init` begins to
wait, and keys are served from the moment their callback is registered.

If the tuner reports only once `stream_init` waits, and the exit key is pressed only once `main`
waits, nothing is lost (`notLost`). After an earlier report only the time-out is left
(`timesOut_of_early`).
-/

namespace Zapper

open Transition

variable {params : ConfigParams} {a : Answer} {s s' : State} {l : Label}

/-! ### What has been notified -/

/-- The notifications of a run. -/
structure Notified where
  /-- The tuner has reported its lock. -/
  locked : Bool
  /-- `stream_init` has reported a time-out although the tuner had reported its lock before. -/
  lost : Bool
  /-- The exit key has been pressed. -/
  exit : Bool

/-- The label reports the lock. -/
def Label.reportsLock : Label → Bool
  | tuner .locked => true
  | _ => false

/-- The label is the time-out of the tuner wait. -/
def Label.isTimeout : Label → Bool
  | timeout => true
  | _ => false

/-- What has been notified, behind a step. -/
def notify (_ : State) (l : Label) (_ : State) (n : Notified) : Notified where
  locked := n.locked || l.reportsLock
  lost := n.lost || (l.isTimeout && n.locked)
  exit := n.exit || l.key = some .exit

/-- The zapper, with its notifications. -/
def stepNotified (params : ConfigParams) : State × Notified → Label → Option (State × Notified) :=
  withHistory (step params) notify

/-- No time-out was reported after a lock, and `main` does not wait for a key that has been
pressed. -/
structure NotLost (x : State × Notified) : Prop where
  lock : x.2.lost = false
  exit : x.1.main = .running → x.2.exit = false

/-- The condition on a step: the tuner reports its lock once `stream_init` waits for it, and the
exit key is pressed once `main` waits for it. -/
def Timely (x : State × Notified) (l : Label) : Prop :=
  (l.reportsLock = true → x.1.Past (.init .waitTuner)) ∧
    (l.key = some .exit → x.1.Past .graphicsInit)

instance (x : State × Notified) (l : Label) : Decidable (Timely x l) := by
  unfold Timely State.Past
  infer_instance

/-! ### Nothing is lost -/

/-- Behind the place before the tuner wait comes the wait. -/
theorem State.Past.waitTuner (h : s.Past (.init .waitTuner)) :
    s.main = .init .waitingTuner ∨ s.Past (.init .waitingTuner) := by
  unfold Past at *
  generalize s.main = m at *
  cases m with
  | init p => cases p <;> simp_all [MainPc.stage, InitPc.stage] <;> omega
  | _ => simp_all [MainPc.stage, InitPc.stage] <;> omega

/-- Behind `graphics_init` comes the wait for the exit key. -/
theorem State.Past.graphicsInit (h : s.Past .graphicsInit) :
    s.main = .running ∨ s.Past .running := by
  unfold Past at *
  generalize s.main = m at *
  cases m with
  | init p =>
    have hle : p.stage ≤ 30 := p.stage_le
    have hlt : 33 < 2 + p.stage := h
    omega
  | _ => simp_all [MainPc.stage] <;> omega

/-- A lock that is reported while `stream_init` waits ends the wait. -/
theorem past_of_reportsLock (h : step params s l = some s') (hl : l.reportsLock = true)
    (hs : s.Past (.init .waitTuner)) : s'.Past (.init .waitingTuner) := by
  obtain hm | hpast := hs.waitTuner
  · obtain rfl : l = .tuner .locked := by
      cases l with
      | tuner status => cases status <;> simp [Label.reportsLock] at hl ⊢
      | _ => cases hl
    obtain ⟨-, rfl⟩ := tunerStep_locked (act_of_step h)
    have hm' : ({ s with tuning := false }.wake).main = .init .playerInit := by
      simp [State.wake, hm]
    rw [State.Past, hm']
    decide
  · exact hpast.step h

/-- A press of the exit key while `main` waits for it ends the wait. -/
theorem past_of_exit (h : step params s l = some s') (hl : l.key = some .exit)
    (hs : s.Past .graphicsInit) : s'.Past .running := by
  obtain hm | hpast := hs.graphicsInit
  · cases l with
    | input code value a =>
      obtain ⟨k, hk, hpress⟩ | ⟨hk, -⟩ := callback_cases (act_of_step h)
      · obtain rfl : k = .exit := Option.some.inj (hk.symm.trans hl)
        obtain rfl : { s with main := .graphicsDeinit } = s' := by simpa [press, hm] using hpress
        exact show MainPc.running.stage < MainPc.graphicsDeinit.stage by decide
      · cases hk.symm.trans hl
    | _ => cases hl
  · exact hpast.step h

/-- What has been notified has ended its wait. -/
private structure NotifiedInv (x : State × Notified) : Prop where
  lost : x.2.lost = false
  locked : x.2.locked = true → x.1.Past (.init .waitingTuner)
  exit : x.2.exit = true → x.1.Past .running

/-- **No notification is lost** in a run in which the tuner reports its lock once `stream_init`
waits for it, and the exit key is pressed once `main` waits for it. -/
theorem notLost (params : ConfigParams) (ls : List Label)
    (htimely : Meets (stepNotified params) Timely (.powerOn, ⟨false, false, false⟩) ls) :
    Always (stepNotified params) NotLost (.powerOn, ⟨false, false, false⟩) ls := by
  refine (always_of_step (P := NotifiedInv) ⟨rfl, by simp, by simp⟩ htimely
    fun x l y hx hC h => ?_).mono fun x hx => ⟨hx.lost, fun hm => ?_⟩
  · obtain ⟨hstep, hy⟩ := withHistory_eq_some.mp h
    obtain ⟨hlock, hexit⟩ := hC
    refine ⟨?_, fun hl => ?_, fun he => ?_⟩
    · -- the time-out meets a `stream_init` that waits, so that nothing has been reported
      have htimeout : l.isTimeout = true → x.2.locked = false := by
        intro hl
        obtain rfl : l = .timeout := by
          cases l <;> first | rfl | cases hl
        obtain ⟨hm, -⟩ := timeoutStep_eq_some (act_of_step hstep)
        by_contra hlocked
        have hpast := hx.locked (by simpa using hlocked)
        rw [State.Past, hm] at hpast
        exact absurd hpast (lt_irrefl _)
      cases hl : l.isTimeout with
      | false => simp [hy, notify, hl, hx.lost]
      | true => simp [hy, notify, hx.lost, htimeout hl]
    · obtain hl | hl : x.2.locked = true ∨ l.reportsLock = true := by simpa [hy, notify] using hl
      · exact (hx.locked hl).step hstep
      · exact past_of_reportsLock hstep hl (hlock hl)
    · obtain he | he : x.2.exit = true ∨ l.key = some .exit := by simpa [hy, notify] using he
      · exact (hx.exit he).step hstep
      · exact past_of_exit hstep he (hexit he)
  · by_contra he
    have hpast := hx.exit (by simpa using he)
    rw [State.Past, hm] at hpast
    exact absurd hpast (lt_irrefl _)

/-- The lock and the exit key are both notified, and both noticed. -/
theorem notLost_wholeRun : ∃ x, x.1.main = .unregisterRemote ∧ x.2.locked = true ∧
    x.2.exit = true ∧ NotLost x ∧
    exec (stepNotified (configIni 1)) (.powerOn, ⟨false, false, false⟩) wholeRun = some x := by
  have hrun : (exec (stepNotified (configIni 1)) (.powerOn, ⟨false, false, false⟩) wholeRun).map
      (fun x => (x.1.main, x.2.locked, x.2.exit)) = some (.unregisterRemote, true, true) := by
    decide +kernel
  obtain ⟨x, hx, hobs⟩ := Option.map_eq_some_iff.mp hrun
  simp only [Prod.mk.injEq] at hobs
  exact ⟨x, hobs.1, hobs.2.1, hobs.2.2,
    (notLost (configIni 1) wholeRun (by decide +kernel)).exec hx, hx⟩

/-- The tuner locks at once: its report comes before `stream_init` waits, which then reports a
time-out. -/
theorem not_forall_always_notLost : ¬ ∀ (params : ConfigParams) (ls : List Label),
    Always (stepNotified params) NotLost (.powerOn, ⟨false, false, false⟩) ls := by
  intro h
  have hrun : (exec (stepNotified (configIni 1)) (.powerOn, ⟨false, false, false⟩)
      (List.replicate 7 (Label.main (.ok 1)) ++ [Label.tuner .locked, .main (.ok 1), .timeout])).map
        (fun x => x.2.lost) = some true := by decide +kernel
  obtain ⟨x, hx, hlost⟩ := (h (configIni 1) _).observe hrun
  rw [hx.lock] at hlost
  cases hlost

/-! ### What an early report costs -/

/-- `stream_init` is about to wait for the tuner, or waits, and nobody will signal. -/
structure State.Deaf (s : State) : Prop where
  coherent : s.Coherent
  main : s.main = .init .waitTuner ∨ s.main = .init .waitingTuner
  tuning : s.tuning = false

/-- Nobody reports anything any more: only the time-out ends the wait. -/
theorem State.Deaf.step (hs : s.Deaf) (h : step params s l = some s') :
    s'.Deaf ∨ s'.mainError = .error := by
  have hcoherent : s'.Coherent := hs.coherent.step h
  have hstage : s.main.stage ≤ (MainPc.init .waitingTuner).stage := by
    obtain hm | hm := hs.main
    · rw [hm]
      decide
    · rw [hm]
  have hsame : s'.main = s.main → s'.tuning = s.tuning → s'.Deaf ∨ s'.mainError = .error :=
    fun hm ht => .inl ⟨hcoherent, hm ▸ hs.main, ht.trans hs.tuning⟩
  have hact := act_of_step h
  cases l with
  | main a =>
    have hact : mainStep params a s = some s' := hact
    obtain hm | hm := hs.main
    · obtain ⟨-, rfl⟩ : s.statusMutex = false ∧ { s with main := .init .waitingTuner } = s' := by
        simpa [mainStep, hm, initStep] using hact
      exact .inl ⟨hcoherent, .inr rfl, hs.tuning⟩
    · simp [mainStep, hm, initStep] at hact
  | loop a => exact hsame (loopStep_frame hact).main (loopStep_frame hact).tuning
  | input code value a =>
    obtain hm | ⟨hm, -⟩ := (callback_frame hact).main
    · exact hsame hm (callback_frame hact).tuning
    · obtain hm' | hm' := hs.main <;> cases hm.symm.trans hm'
  | deliver d =>
    obtain ⟨-, -, tables, -, rfl⟩ := sectionStep_eq_some hact
    exact hsame rfl rfl
  | signal =>
    obtain ⟨hcallback, -⟩ := signalStep_eq_some hact
    exact absurd (lt_of_lt_of_le (hs.coherent.inCallback hcallback) hstage) (by decide)
  | tuner status =>
    obtain ⟨htuning, -⟩ := tunerStep_eq_some hact
    rw [hs.tuning] at htuning
    cases htuning
  | timeout =>
    obtain ⟨-, rfl⟩ := timeoutStep_eq_some hact
    exact .inr rfl
  | expire =>
    obtain ⟨-, rfl⟩ := expireStep_eq_some hact
    exact hsame rfl rfl
  | handler i => exact hsame (handlerStep_frame hact).main (handlerStep_frame hact).tuning

theorem mainError_of_initStep {p : InitPc} (h : initStep params a s p = some s') :
    s'.mainError = s.mainError ∨ s'.mainError = .error := by
  cases p with
  | reset | loadCounter | announce =>
    obtain rfl := Option.some.inj h
    exact .inl rfl
  | waitTuner | wait t | checkAudioPid | checkVideoPid | createThread | announcing progNum radio =>
    simp only [initStep] at h
    split at h <;> cases h <;> first | exact .inl rfl | exact .inr rfl
  | waitingTuner | waiting t => cases h
  | _ =>
    -- a call of the player
    obtain rfl := Option.some.inj h
    obtain ⟨-, hr⟩ | ⟨-, hr⟩ := s.initAssert_cases _ _
    · exact .inl ((congrArg State.mainError hr).trans rfl)
    · exact .inr ((congrArg State.mainError hr).trans rfl)

theorem mainError_of_deinitStep {p : DeinitPc} (h : deinitStep a s p = some s') :
    s'.mainError = s.mainError := by
  cases p with
  | stop | join | freeTables =>
    simp only [deinitStep] at h
    split at h <;> cases h <;> rfl
  | _ =>
    obtain rfl := Option.some.inj h
    rfl

/-- The result of `main` only ever becomes an error. -/
theorem mainError_of_mainStep (h : mainStep params a s = some s') :
    s'.mainError = s.mainError ∨ s'.mainError = .error := by
  unfold mainStep at h
  split at h
  · split at h <;> obtain rfl := Option.some.inj h <;> exact .inl rfl
  · obtain rfl := Option.some.inj h
    exact .inl rfl
  · exact mainError_of_initStep h
  · split at h <;> obtain rfl := Option.some.inj h
    · exact .inl rfl
    · exact .inr rfl
  · cases h
  · split at h <;> obtain rfl := Option.some.inj h <;> exact .inl rfl
  · exact .inl (mainError_of_deinitStep h)
  · obtain rfl := Option.some.inj h
    exact .inl rfl
  · split at h <;> obtain rfl := Option.some.inj h <;> exact .inl rfl
  · cases h

/-- An error of `main` is for good. -/
theorem mainError_of_step (h : step params s l = some s') (hs : s.mainError = .error) :
    s'.mainError = .error := by
  have hact := act_of_step h
  cases l with
  | main a =>
    obtain he | he := mainError_of_mainStep hact
    · exact he.trans hs
    · exact he
  | loop a => exact (loopStep_frame hact).mainError.trans hs
  | input code value a => exact (callback_frame hact).mainError.trans hs
  | timeout =>
    obtain ⟨-, rfl⟩ := timeoutStep_eq_some hact
    rfl
  | handler i => exact (handlerStep_frame hact).mainError.trans hs
  | _ => exact ((event_frame h rfl).mainError (by simp)).trans hs

/-- **A report that comes too early is lost**: whatever happens then, `stream_init` does not get
any further, or has given up. -/
theorem timesOut_of_early (hs : Reachable params s) (hm : s.main = .init .waitTuner)
    (h : step params s (.tuner .locked) = some s') (ls : List Label) :
    Always (step params) (fun t => t.main = .init .waitTuner ∨ t.main = .init .waitingTuner ∨
      t.mainError = .error) s' ls := by
  have hdeaf : s'.Deaf := by
    obtain ⟨-, rfl⟩ := tunerStep_locked (act_of_step h)
    have hloop : s.loop = .notCreated := hs.coherent.notCreated (by rw [hm]; decide)
    have hwake : ({ s with tuning := false }.wake).main = s.main := by
      simp [State.wake, hm, hloop]
    exact ⟨hs.coherent.step h, .inl (hwake.trans hm), by simp⟩
  refine (always_of_step (P := fun t => t.Deaf ∨ t.mainError = .error) (.inl hdeaf) meets_true
    fun t l t' ht _ hstep => ?_).mono fun t ht => ?_
  · obtain ht | ht := ht
    · exact ht.step hstep
    · exact .inr (mainError_of_step hstep ht)
  · obtain ht | ht := ht
    · exact or_assoc.mp (.inl ht.main)
    · exact .inr (.inr ht)

end Zapper
