import Zapper.Stream.Lively

/-!
# Deadlocks

Which waits of the process can last for ever. The main thread waits for the tuner, for tables, for
the exit key, and for the two threads it joins; the stream thread waits for a table under
`stream_params_mutex`; the remote thread waits for the mutex; and a call of `filter_callback` need
not return.

`Lost` lists the states out of which `main` never returns: it waits for the exit key while the
remote thread has ended with a failed read, or is kept by a mutex that the stream thread took along;
it waits for a table that `filter_callback` never brings, or for the stream thread, which waits for
such a table (`Hindered`); it comes to free service names that the SDT has not given; or the remote
thread calls through `NULL`. There are no others: from every reachable state a run of bounded length
leads to the end of `main` or to such a state (`canExit_or_lost`), and unless a key waits for the
stream thread it leads to the end of `main` exactly when the state is not lost (`canExit_iff`).
`graphics_init` and `graphics_deinit` are taken to return, the player to report some section while a
filter is set, each check of `error` to read the result of its own call, and the deadline of the
wait for the tuner to be a valid time.
-/

namespace Zapper

open Transition

variable {params : ConfigParams} {a : Answer} {s s' : State} {l : Label}

/-! ### The process -/

/-- The key asks for `stream_params_mutex`. -/
def InputEvent.asks (ev : InputEvent) : Bool :=
  match ev.key with
  | some (.digit _) => true
  | some .pPlus => true
  | some .pMinus => true
  | some .info => true
  | some .ok => true
  | _ => false

namespace Process

variable {p p' : Process} {pl : Label}

/-- A key is served, unless it asks for a mutex that is held. -/
theorem serve_isSome (a : Answer) (ev : InputEvent) (s : State)
    (h : ¬ (ev.asks = true ∧ s.loop.holdsParams = true)) : ∃ s', serve a ev s = some s' := by
  unfold serve
  cases hk : ev.key with
  | none => exact ⟨s, rfl⟩
  | some k =>
    cases k with
    | digit program | pPlus | pMinus | info | ok =>
      have hfree : s.loop.holdsParams = false := by
        by_contra hheld
        exact h ⟨by simp [InputEvent.asks, hk], by simpa using hheld⟩
      simp only [press, hfree]
      exact ⟨_, rfl⟩
    | _ => exact ⟨_, rfl⟩

theorem serve_eq_none (a : Answer) {ev : InputEvent} {s : State} (hasks : ev.asks = true)
    (hheld : s.loop.holdsParams = true) : serve a ev s = none := by
  unfold serve
  unfold InputEvent.asks at hasks
  cases hk : ev.key with
  | none => simp [hk] at hasks
  | some k => cases k <;> simp_all [press]

/-- What a key does to the player. -/
theorem player_of_serve {ev : InputEvent} {s s' : State} (h : serve a ev s = some s') :
    s'.player = s.player ∨ ∃ a volume, s'.player = (s.player.setVolume a volume).2 := by
  unfold serve at h
  split at h
  · exact (player_of_press h).imp id fun ⟨volume, hp⟩ => ⟨a, volume, hp⟩
  · exact .inl (by rw [Option.some.inj h])

/-- A key leaves the registered callbacks alone. -/
theorem registered_of_serve {ev : InputEvent} {s s' : State} (h : serve a ev s = some s') :
    s'.player.registered = s.player.registered := by
  obtain hp | ⟨a, volume, hp⟩ := player_of_serve h
  · rw [hp]
  · rw [hp]
    exact registered_of_tunerSide (s.player.tunerSide_setVolume a volume)

/-- What every state of the process satisfies. -/
structure Sound (p : Process) : Prop where
  tidy : p.Tidy
  lively : p.zapper.Lively
  /-- A call has begun while the callback was registered. -/
  calling : p.remote.calling = true → p.zapper.main.alive = true →
    p.callbackSet = true ∨ p.zapper.main = .remoteDeinit
  /-- A call of `filter_callback` that does not return does not come to its signal. -/
  silent : p.spinning = true → p.zapper.inCallback = false

theorem sound_powerOn : powerOn.Sound :=
  ⟨tidy_powerOn, lively_powerOn, (fun hc => by cases hc), fun hs => by cases hs⟩

/-- What the remote thread serves. -/
theorem lively_of_remoteStep (hs : p.Sound) (halive : p.zapper.main.alive = true)
    (h : remoteStep a p = some p') : p'.zapper.Lively := by
  obtain ⟨ev, -, hserve⟩ | ⟨-, hsame⟩ := (remoteStep_moves h).zapper
  · by_cases hm : p.zapper.main.remoteRegistered = true
    · have hstep : Zapper.step (configIni 1) p.zapper (.input ev.code ev.value a) =
          some p'.zapper := by
        rw [Zapper.step, if_pos halive]
        exact (callback_of_serve hm).trans hserve
      exact hs.lively.step hstep
    · have hframe := serve_frame hserve
      have hmain : p'.zapper.main = p.zapper.main := by
        obtain hmain | ⟨hrunning, -⟩ := hframe.main
        · exact hmain
        · rw [hrunning] at hm
          exact absurd rfl hm
      exact hs.lively.of_same halive hmain hframe.loop hframe.running hframe.statusMutex
        (registered_of_serve hserve) hframe.inCallback hframe.tuning
  · rw [hsame]
    exact hs.lively

theorem calling_of_step (hs : p.Sound) (h : step params p pl = some p')
    (hc : p'.remote.calling = true) (halive' : p'.zapper.main.alive = true) :
    p'.callbackSet = true ∨ p'.zapper.main = .remoteDeinit := by
  obtain ⟨halive, -, hl⟩ := step_eq_some h
  obtain ⟨a, -, hact⟩ | ⟨a, -, hact⟩ | ⟨ev, -, hact⟩ | ⟨d, -, hact⟩ | ⟨k, s, -, hk, hz, rfl⟩ := hl
  · cases mainStep_moves hs.tidy hact with
    | remoteInit s _ _ hp' =>
      subst hp'
      dsimp only at hc
      split at hc <;> cases hc
    | register s _ _ hp' =>
      subst hp'
      exact .inl rfl
    | unregister s hm hz hp' =>
      subst hp'
      simp only [Zapper.mainStep, hm] at hz
      obtain rfl := Option.some.inj hz
      exact .inr rfl
    | stop _ _ hp' =>
      subst hp'
      exact hs.calling hc halive
    | join _ s hm _ _ hz hp' =>
      -- the process has ended
      have hn := main_of_mainStep hz
      subst hp'
      rw [hm] at hn
      obtain hn | hn := hn <;> simp only [hn] at halive' <;> cases halive'
    | zapper s hm _ hp' =>
      subst hp'
      exact .inl ((hs.calling hc halive).resolve_right hm.2.2.2)
  · have hset := calling_of_remoteStep hact hc
    have hsame : p'.callbackSet = p.callbackSet := by rw [(remoteStep_moves hact).rest]
    exact .inl (hsame.trans hset)
  · obtain ⟨-, ⟨_, -, rfl⟩ | ⟨-, rfl⟩⟩ := readStep_eq_some hact <;> cases hc
  · obtain ⟨-, rfl⟩ := hangStep_eq_some hact
    exact hs.calling hc halive
  · obtain hset | hm := hs.calling hc halive
    · exact .inl hset
    · obtain hsame | ⟨q, hm', -⟩ := main_of_other hk hz
      · exact .inr (hsame.trans hm)
      · cases hm.symm.trans hm'

/-- A call of `filter_callback` that does not return is the last one. -/
theorem spinning_of_step (hs : p.Sound) (h : step params p pl = some p')
    (hspin : p.spinning = true) :
    p'.spinning = true ∧ ∀ d, pl ≠ .actor (.deliver d) := by
  refine ⟨?_, ?_⟩
  · obtain ⟨-, -, hl⟩ := step_eq_some h
    obtain ⟨a, -, hact⟩ | ⟨a, -, hact⟩ | ⟨ev, -, hact⟩ | ⟨d, -, hact⟩ | ⟨k, s, -, -, -, rfl⟩ := hl
    · exact (mainStep_moves hs.tidy hact).spinning.trans hspin
    · rw [(remoteStep_moves hact).rest]
      exact hspin
    · obtain ⟨-, ⟨_, -, rfl⟩ | ⟨-, rfl⟩⟩ := readStep_eq_some hact <;> exact hspin
    · obtain ⟨-, rfl⟩ := hangStep_eq_some hact
      rfl
    · exact hspin
  · rintro d rfl
    have hadmits := admits_of_step h
    simp [admits, hspin] at hadmits

/-- What happens to the zapper. -/
theorem zapper_of_step (hs : p.Sound) (h : step params p pl = some p') :
    (∃ a, Zapper.mainStep params a p.zapper = some p'.zapper) ∨
      (∃ ev a, p.remote = .inCallback ev ∧ serve a ev p.zapper = some p'.zapper) ∨
      (∃ k, pl = .actor k ∧ Label.other k = true ∧
        Zapper.step params p.zapper k = some p'.zapper) ∨ p'.zapper = p.zapper := by
  obtain ⟨-, -, hl⟩ := step_eq_some h
  obtain ⟨a, -, hact⟩ | ⟨a, -, hact⟩ | ⟨ev, -, hact⟩ | ⟨d, -, hact⟩ |
    ⟨k, s, rfl, hk, hz, rfl⟩ := hl
  · obtain hz | hz := (mainStep_moves hs.tidy hact).zapper_eq
    · exact .inl hz
    · exact .inr (.inr (.inr hz))
  · obtain ⟨ev, hr, hserve⟩ | ⟨-, hz⟩ := (remoteStep_moves hact).zapper
    · exact .inr (.inl ⟨ev, a, hr, hserve⟩)
    · exact .inr (.inr (.inr hz))
  · obtain ⟨-, ⟨_, -, rfl⟩ | ⟨-, rfl⟩⟩ := readStep_eq_some hact <;> exact .inr (.inr (.inr rfl))
  · obtain ⟨-, rfl⟩ := hangStep_eq_some hact
    exact .inr (.inr (.inr rfl))
  · exact .inr (.inr (.inl ⟨k, rfl, hk, hz⟩))

theorem silent_of_step (hs : p.Sound) (h : step params p pl = some p')
    (hspin : p'.spinning = true) : p'.zapper.inCallback = false := by
  by_cases hold : p.spinning = true
  · have hc := hs.silent hold
    obtain ⟨a, hz⟩ | ⟨ev, a, -, hserve⟩ | ⟨k, rfl, -, hz⟩ | hz := zapper_of_step hs h
    · exact (mainStep_frame hz).inCallback.trans hc
    · exact (serve_frame hserve).inCallback.trans hc
    · have hd := (spinning_of_step hs h hold).2
      refine (inCallback_of_act (fun d hk => hd d (congrArg _ hk)) ?_ (act_of_step hz)).trans hc
      rintro rfl
      cases hc.symm.trans (signalStep_eq_some (act_of_step hz)).1
    · rw [hz, hc]
  · -- the call has just begun
    obtain ⟨-, -, hl⟩ := step_eq_some h
    obtain ⟨a, -, hact⟩ | ⟨a, -, hact⟩ | ⟨ev, -, hact⟩ | ⟨d, -, hact⟩ | ⟨k, s, -, -, -, rfl⟩ := hl
    · exact absurd ((mainStep_moves hs.tidy hact).spinning.symm.trans hspin) hold
    · rw [(remoteStep_moves hact).rest] at hspin
      exact absurd hspin hold
    · obtain ⟨-, ⟨_, -, rfl⟩ | ⟨-, rfl⟩⟩ := readStep_eq_some hact <;> exact absurd hspin hold
    · obtain ⟨hc, rfl⟩ := hangStep_eq_some hact
      exact hc
    · exact absurd hspin hold

theorem Sound.step (hs : p.Sound) (h : Process.step params p pl = some p') : p'.Sound := by
  refine ⟨hs.tidy.step h, ?_, calling_of_step hs h, silent_of_step hs h⟩
  obtain ⟨halive, -, hl⟩ := step_eq_some h
  obtain ⟨a, -, hact⟩ | ⟨a, -, hact⟩ | ⟨ev, -, hact⟩ | ⟨d, -, hact⟩ | ⟨k, s, -, -, hk, rfl⟩ := hl
  · obtain ⟨a, hz⟩ | hz := (mainStep_moves hs.tidy hact).zapper_eq
    · exact hs.lively.step (zapperStep_of_mainStep halive hz)
    · rw [hz]
      exact hs.lively
  · exact lively_of_remoteStep hs halive hact
  · obtain ⟨-, ⟨_, -, rfl⟩ | ⟨-, rfl⟩⟩ := readStep_eq_some hact
    · exact hs.lively
    · exact hs.lively
  · obtain ⟨-, rfl⟩ := hangStep_eq_some hact
    exact hs.lively
  · exact hs.lively.step hk

/-! ### Lost states -/

/-- `main` has returned. -/
def Exited (p : Process) : Prop := ∃ e, p.zapper.main = .exited e

/-- The stream thread waits for a table, or is about to, and `filter_callback` never brings it. -/
def Starved (p : Process) : Prop :=
  p.spinning = true ∧ ∃ c, p.zapper.loop = .switch c .wait ∨ p.zapper.loop = .switch c .waiting

/-- The main thread cannot get past its place. -/
inductive Hindered (p : Process) : Prop
  /-- It waits for a table that `filter_callback` never brings. -/
  | noTable (t : Table) (hm : p.zapper.main = .init (.wait t) ∨ p.zapper.main = .init (.waiting t))
    (hspin : p.spinning = true)
  /-- It waits for the stream thread, which waits for such a table. -/
  | noThread (hm : p.zapper.main = .deinit .stop ∨ p.zapper.main = .deinit .join)
    (hl : p.Starved)
  /-- It frees service names that the SDT has not given. -/
  | noNames (hm : p.zapper.DueToFree)
    (hf : ¬ p.zapper.tables.sdt.services.FilledTo p.zapper.tables.pat.pmtCount)

/-- `main` can no longer return. -/
inductive Lost (p : Process) : Prop
  | crashed (halive : p.zapper.main.alive = true) (hr : p.remote = .crashed)
  /-- The callback has been unregistered before it is called. -/
  | callsNull (ev : InputEvent) (halive : p.zapper.main.alive = true) (hr : p.remote = .call ev)
    (hset : p.callbackSet = false)
  /-- Nobody reads the exit key. -/
  | noReader (e : TError) (hm : p.zapper.main = .running) (hr : p.remote = .exited e)
  /-- A key waits for a mutex that the stream thread has taken along, or keeps while it waits. -/
  | kept (ev : InputEvent) (hm : p.zapper.main = .running) (hr : ev ∈ p.remote.pending)
    (hasks : ev.asks = true) (hl : p.zapper.loop = .exited .error ∨ p.Starved)
  | hindered (hh : p.Hindered)

/-- A key waits, or will wait, for the stream thread. -/
def Waits (p : Process) : Prop :=
  p.zapper.main = .running ∧ (∃ ev ∈ p.remote.pending, ev.asks = true) ∧
    p.zapper.loop.holdsParams = true ∧ p.zapper.loop ≠ .exited .error ∧ ¬ p.Starved

theorem Starved.holdsParams (h : p.Starved) : p.zapper.loop.holdsParams = true := by
  obtain ⟨-, c, hl | hl⟩ := h <;> rw [hl] <;> rfl

theorem Starved.created (h : p.Starved) : p.zapper.loop ≠ .notCreated := by
  obtain ⟨-, c, hl | hl⟩ := h <;> rw [hl] <;> simp

/-- Where the main thread is hindered. -/
theorem Hindered.exposed (h : p.Hindered) : p.zapper.main.exposed = true := by
  cases h with
  | noTable t hm => obtain hm | hm := hm <;> rw [hm] <;> rfl
  | noThread hm => obtain hm | hm := hm <;> rw [hm] <;> rfl
  | noNames hm =>
    unfold State.DueToFree at hm
    split at hm
    · next hm' => rw [hm']; rfl
    · next hm' => rw [hm']; rfl
    · next hm' => rw [hm']; rfl
    · exact hm.elim

theorem not_alive_of_exited (h : p.Exited) : p.zapper.main.alive = false := by
  obtain ⟨e, he⟩ := h
  rw [he]
  rfl

theorem Lost.not_exited (h : p.Lost) : ¬ p.Exited := by
  intro hexited
  have hdead := not_alive_of_exited hexited
  obtain ⟨e, he⟩ := hexited
  cases h with
  | crashed halive | callsNull ev halive => cases hdead.symm.trans halive
  | noReader e' hm | kept ev hm => cases he.symm.trans hm
  | hindered hh =>
    have hexposed := hh.exposed
    rw [he] at hexposed
    cases hexposed

/-- Outside of the wait for the exit key, only a call through `NULL` is lost, or a main thread that
is hindered. -/
theorem not_lost_of_not_running (hm : p.zapper.main ≠ .running) (hc : p.remote ≠ .crashed)
    (hcall : ∀ ev, p.remote = .call ev → p.zapper.main.alive = true → p.callbackSet = true)
    (hh : ¬ p.Hindered) : ¬ p.Lost ∧ ¬ p.Waits := by
  refine ⟨fun hlost => ?_, fun hw => hm hw.1⟩
  cases hlost with
  | crashed _ hr => exact hc hr
  | callsNull ev halive hr hset =>
    rw [hcall ev hr halive] at hset
    cases hset
  | noReader e hm' | kept ev hm' => exact hm hm'
  | hindered hh' => exact hh hh'

/-- The main thread only leaves the wait for the exit key when a key is served. -/
theorem running_of_step (hs : p.Sound) (h : step params p pl = some p')
    (hm : p.zapper.main = .running)
    (hserve : ∀ ev a s, p.remote = .inCallback ev → serve a ev p.zapper ≠ some s) :
    p'.zapper.main = .running := by
  obtain ⟨a, hz⟩ | ⟨ev, a, hr, hz⟩ | ⟨k, rfl, hk, hz⟩ | hz := zapper_of_step hs h
  · simp [Zapper.mainStep, hm] at hz
  · exact absurd hz (hserve ev a _ hr)
  · obtain hsame | ⟨q, hm', -⟩ := main_of_other hk hz
    · exact hsame.trans hm
    · cases hm.symm.trans hm'
  · rw [hz, hm]

/-- A stream thread that has returned stays where it is. -/
theorem loop_of_step_of_exited {e : TError} (hs : p.Sound) (h : step params p pl = some p')
    (hl : p.zapper.loop = .exited e) : p'.zapper.loop = .exited e := by
  obtain ⟨a, hz⟩ | ⟨ev, a, hr, hz⟩ | ⟨k, rfl, hk, hz⟩ | hz := zapper_of_step hs h
  · obtain hl' | ⟨hm, -⟩ := loop_of_mainStep hz
    · exact hl'.trans hl
    · have hnone := hs.lively.coherent.notCreated (by rw [hm])
      cases hnone.symm.trans hl
  · exact (serve_frame hz).loop.trans hl
  · obtain ⟨a, -, hloop⟩ | hsame | ⟨a, rfl, -⟩ | ⟨c, hl', -⟩ := loop_of_step hz
    · exact absurd hl (not_exited_of_loopStep hloop e)
    · exact hsame.trans hl
    · cases hk
    · cases hl.symm.trans hl'
  · rw [hz, hl]

/-- **Starved for ever.** -/
theorem Starved.step (hs : p.Sound) (hst : p.Starved) (h : Process.step params p pl = some p') :
    p'.Starved := by
  have hcreated := hst.created
  obtain ⟨hspin, c, hl⟩ := hst
  refine ⟨(spinning_of_step hs h hspin).1, c, ?_⟩
  have hpast := hs.lively.coherent.created hcreated
  have hafter : p.zapper.Past (.init .waitingTuner) := lt_trans (by decide) hpast
  obtain ⟨a, hz⟩ | ⟨ev, a, hr, hz⟩ | ⟨k, rfl, hk, hz⟩ | hz := zapper_of_step hs h
  · obtain hl' | ⟨hm, -⟩ := loop_of_mainStep hz
    · rwa [hl']
    · rw [State.Past, hm] at hpast
      exact absurd hpast (lt_irrefl _)
  · rwa [(serve_frame hz).loop]
  · have htuning := hs.lively.coherent.tuning_eq_false hafter (.inr hcreated)
    have hw : p.zapper.main ≠ .init .waitingTuner := fun hm => by
      rw [State.Past, hm] at hafter
      exact absurd hafter (lt_irrefl _)
    obtain ⟨-, hl' | ⟨a, hloop⟩⟩ :=
      frozen_of_step hk (hs.silent hspin) htuning hw hz
    · rwa [hl']
    · obtain hl | hl := hl
      · simp only [Zapper.loopStep, hl, switchStep] at hloop
        split at hloop
        · cases hloop
        · obtain hz' := Option.some.inj hloop
          exact .inr (by rw [← hz'])
      · simp [Zapper.loopStep, hl, switchStep] at hloop
  · rwa [hz]

/-- A key changes nothing about the end of `stream_deinit`. -/
theorem dueToFree_of_player {s s' : State} (hd : s.DueToFree) (hm : s'.main = s.main)
    (hp : s'.player = s.player ∨ ∃ a volume, s'.player = (s.player.setVolume a volume).2) :
    s'.DueToFree := by
  have hsame : s'.player.deinit.1 = s.player.deinit.1 ∧
      s'.player.tdp.initDone = s.player.tdp.initDone := by
    obtain hp | ⟨a, volume, hp⟩ := hp
    · rw [hp]
      exact ⟨rfl, rfl⟩
    · rw [hp]
      obtain hv | ⟨v, hv⟩ := s.player.setVolume_cases a volume
      · rw [hv]
        exact ⟨rfl, rfl⟩
      · rw [hv, fst_deinit, fst_deinit]
        exact ⟨rfl, rfl⟩
  unfold State.DueToFree at hd ⊢
  rw [hm, hsame.1, hsame.2]
  exact hd

/-- Behind the last filter, there is neither a stream thread nor a section. -/
theorem same_of_filterFreed {k : Zapper.Label} (hs : p.Sound)
    (hpast : p.zapper.Past (.deinit .freeFilter)) (hk : Label.other k = true)
    (h : step params p (.actor k) = some p')
    (hz : Zapper.step params p.zapper k = some p'.zapper) :
    p'.zapper.main = p.zapper.main ∧ p'.zapper.player = p.zapper.player ∧
      p'.zapper.tables = p.zapper.tables := by
  have hmain : p'.zapper.main = p.zapper.main := by
    obtain hsame | ⟨q, hm, -⟩ := main_of_other hk hz
    · exact hsame
    · have hle := q.stage_le
      rw [State.Past, hm] at hpast
      exact absurd hpast (not_lt.mpr (le_trans (Nat.add_le_add_left hle 2) (by decide)))
  have hact := act_of_step hz
  refine ⟨hmain, ?_⟩
  cases k with
  | main a | input c v a => cases hk
  | loop a =>
    obtain hl | hl := hs.lively.coherent.joined (lt_trans (by decide) hpast) (alive_of_step hz)
    · exact absurd hl (created_of_loopStep hact).1
    · exact absurd hl (not_exited_of_loopStep hact _)
  | deliver d =>
    have hadmits := admits_of_step h
    have hfreed : p.filterFreed = true := decide_eq_true hpast
    simp [admits, hfreed] at hadmits
  | handler i =>
    have hframe := handlerStep_frame hact
    exact ⟨hframe.player, hframe.tables⟩
  | _ =>
    have hframe := event_frame hz rfl
    exact ⟨hframe.player, hframe.tables (by simp)⟩

/-- **Hindered for ever.** -/
theorem Hindered.step (hs : p.Sound) (hh : p.Hindered) (h : Process.step params p pl = some p') :
    p'.Hindered := by
  have hexposed := hh.exposed
  have hrunning : p.zapper.main ≠ .running := fun hm => by rw [hm] at hexposed; cases hexposed
  have hw : p.zapper.main ≠ .init .waitingTuner := fun hm => by
    rw [hm] at hexposed
    cases hexposed
  -- all others leave the main thread where it is
  have hserved : ∀ {ev a}, serve a ev p.zapper = some p'.zapper →
      p'.zapper.main = p.zapper.main := fun hz =>
    (serve_frame hz).main.resolve_right fun ⟨hm, _⟩ => hrunning hm
  cases hh with
  | noTable t hm hspin =>
    refine .noTable t ?_ (spinning_of_step hs h hspin).1
    have hafter : p.zapper.Past (.init .waitingTuner) ∧ ¬ p.zapper.Past .graphicsDeinit := by
      rw [State.Past, State.Past]
      obtain hm | hm := hm <;> rw [hm] <;> cases t <;> decide
    obtain ⟨a, hz⟩ | ⟨ev, a, hr, hz⟩ | ⟨k, rfl, hk, hz⟩ | hz := zapper_of_step hs h
    · obtain hm | hm := hm
      · simp only [Zapper.mainStep, hm, initStep] at hz
        split at hz
        · cases hz
        · exact .inr (by rw [← Option.some.inj hz])
      · simp [Zapper.mainStep, hm, initStep] at hz
    · rwa [hserved hz]
    · have htuning := hs.lively.coherent.tuning_eq_false hafter.1 (.inl hafter.2)
      rwa [(frozen_of_step hk (hs.silent hspin) htuning hw hz).1]
    · rwa [hz]
  | noThread hm hst =>
    have hst' := hst.step hs h
    refine .noThread ?_ hst'
    have hafter : p.zapper.Past (.init .waitingTuner) := by
      rw [State.Past]
      obtain hm | hm := hm <;> rw [hm] <;> decide
    obtain ⟨a, hz⟩ | ⟨ev, a, hr, hz⟩ | ⟨k, rfl, hk, hz⟩ | hz := zapper_of_step hs h
    · obtain hm | hm := hm
      · have hrun := hs.lively.coherent.running hst.created (by rw [State.Past, hm]; decide)
        simp only [Zapper.mainStep, hm, deinitStep, hrun, if_true] at hz
        exact .inr (by rw [← Option.some.inj hz])
      · obtain ⟨-, c, hl | hl⟩ := hst <;> simp [Zapper.mainStep, hm, deinitStep, hl] at hz
    · rwa [hserved hz]
    · have htuning := hs.lively.coherent.tuning_eq_false hafter (.inr hst.created)
      rwa [(frozen_of_step hk (hs.silent hst.1) htuning hw hz).1]
    · rwa [hz]
  | noNames hd hf =>
    have hpast : p.zapper.Past (.deinit .freeFilter) := by
      unfold State.DueToFree at hd
      rw [State.Past]
      split at hd
      · next hm => rw [hm]; decide
      · next hm => rw [hm]; decide
      · next hm => rw [hm]; decide
      · exact hd.elim
    obtain ⟨a, hz⟩ | ⟨ev, a, hr, hz⟩ | ⟨k, rfl, hk, hz⟩ | hz := zapper_of_step hs h
    · refine .noNames (dueToFree_of_mainStep hz hd fun hm => ?_) ?_
      · simp [Zapper.mainStep, hm, deinitStep, hf] at hz
      · rwa [(mainStep_frame hz).tables]
    · refine .noNames (dueToFree_of_player hd (hserved hz) (player_of_serve hz)) ?_
      rwa [(serve_frame hz).tables]
    · obtain ⟨hmain, hplayer, htables⟩ := same_of_filterFreed hs hpast hk h hz
      exact .noNames (dueToFree_of_player hd hmain (.inl hplayer)) (by rwa [htables])
    · exact .noNames (by rwa [hz]) (by rwa [hz])

/-- **Lost for ever.** -/
theorem Lost.step (hs : p.Sound) (hlost : p.Lost) (h : Process.step params p pl = some p') :
    p'.Lost := by
  obtain ⟨halive, hcrashed, hcases⟩ := step_eq_some h
  cases hlost with
  | hindered hh => exact .hindered (hh.step hs h)
  | crashed _ hr => exact absurd hr hcrashed
  | callsNull ev _ hr hset =>
    have hm : p.zapper.main = .remoteDeinit :=
      (hs.calling (by rw [hr]; rfl) halive).resolve_left (by simp [hset])
    obtain ⟨a, -, hact⟩ | ⟨a, -, hact⟩ | ⟨ev, -, hact⟩ | ⟨d, -, hact⟩ |
      ⟨k, s, -, hk, hz, rfl⟩ := hcases
    · cases mainStep_moves hs.tidy hact with
      | stop _ _ hp' =>
        subst hp'
        exact .callsNull ev halive hr hset
      | join _ _ _ _ hr' => cases hr.symm.trans hr'
      | remoteInit _ hm' | register _ hm' | unregister _ hm' => cases hm.symm.trans hm'
      | zapper _ hm' => exact absurd hm hm'.2.2.2
    · have hmoves := remoteStep_moves hact
      obtain ⟨ev', hr', -⟩ | ⟨-, hsame⟩ := hmoves.zapper
      · cases hr.symm.trans hr'
      · exact .crashed (by rw [hsame]; exact halive) (by rw [hmoves.remote, hr]; simp [next, hset])
    · cases hr.symm.trans (readStep_eq_some hact).1
    · obtain ⟨-, rfl⟩ := hangStep_eq_some hact
      exact .callsNull ev halive hr hset
    · obtain hsame | ⟨q, hm', -⟩ := main_of_other hk hz
      · exact .callsNull ev (by rw [hsame]; exact halive) hr hset
      · cases hm.symm.trans hm'
  | noReader e hm hr =>
    have hrunning := running_of_step hs h hm fun ev _ _ hr' => by cases hr.symm.trans hr'
    refine .noReader e hrunning ?_
    obtain ⟨a, -, hact⟩ | ⟨a, -, hact⟩ | ⟨ev, -, hact⟩ | ⟨d, -, hact⟩ |
      ⟨k, s, -, hk, hz, rfl⟩ := hcases
    · simp [mainStep, hm, Zapper.mainStep] at hact
    · rw [(remoteStep_moves hact).remote, hr]
      rfl
    · cases hr.symm.trans (readStep_eq_some hact).1
    · obtain ⟨-, rfl⟩ := hangStep_eq_some hact
      exact hr
    · exact hr
  | kept ev hm hr hasks hl =>
    have hheld : p.zapper.loop.holdsParams = true := by
      obtain hl | hst := hl
      · rw [hl]
        rfl
      · exact hst.holdsParams
    have hrefused : ∀ ev' a s, p.remote = .inCallback ev' → serve a ev' p.zapper ≠ some s := by
      intro ev' a s hr'
      rw [hr', RemotePc.pending, List.mem_singleton] at hr
      rw [serve_eq_none a (hr ▸ hasks) hheld]
      simp
    refine .kept ev (running_of_step hs h hm hrefused) ?_ hasks
      (hl.imp (loop_of_step_of_exited hs h) fun hst => hst.step hs h)
    have hset : p.callbackSet = true := by rw [hs.tidy.callbackSet halive, hm]; rfl
    obtain ⟨a, -, hact⟩ | ⟨a, -, hact⟩ | ⟨ev', -, hact⟩ | ⟨d, -, hact⟩ |
      ⟨k, s, -, hk, hz, rfl⟩ := hcases
    · simp [mainStep, hm, Zapper.mainStep] at hact
    · have hmoves := remoteStep_moves hact
      rw [hmoves.remote]
      cases hr' : p.remote with
      | test ev' | call ev' =>
        rw [hr'] at hr
        simp only [next, hset, if_true]
        exact hr
      | inCallback ev' =>
        obtain ⟨ev'', hr'', hserve⟩ | ⟨hne, -⟩ := hmoves.zapper
        · exact absurd hserve (hrefused ev'' a _ hr'')
        · exact absurd hr' (hne ev')
      | _ => simp [hr', RemotePc.pending] at hr
    · simp [(readStep_eq_some hact).1, RemotePc.pending] at hr
    · obtain ⟨-, rfl⟩ := hangStep_eq_some hact
      exact hr
    · exact hr

/-! ### The way out -/

/-- How far the remote thread is from the exit key. -/
def runningRank : RemotePc → ℕ
  | .inCallback ev => if ev.key = some .exit then 1 else 6
  | .call ev => if ev.key = some .exit then 2 else 7
  | .test ev => if ev.key = some .exit then 3 else 8
  | .reading => 4
  | .head => 5
  | _ => 0

/-- How far the remote thread is from its end, when its flag has been cleared. -/
def closingRank : RemotePc → ℕ
  | .inCallback _ => 2
  | .call _ => 2
  | .test _ => 2
  | .reading => 3
  | .head => 1
  | _ => 0

/-- What is left for the remote thread at a place of the main thread. -/
def remoteRank : MainPc → RemotePc → ℕ
  | .running, r => runningRank r
  -- the callback is not unregistered before a call that is about to begin
  | .unregisterRemote, .call _ => 1
  | .remoteDeinit, r => closingRank r
  | _, _ => 0

theorem remoteRank_le (m : MainPc) (r : RemotePc) : remoteRank m r ≤ 8 := by
  unfold remoteRank
  split
  · unfold runningRank
    split <;> try split
    all_goals decide
  · decide
  · unfold closingRank
    split <;> decide
  · decide

/-- How far the process is from its end. -/
def rank (p : Process) : ℕ :=
  64 * (47 - p.zapper.main.stage) +
    ((if p.joining then 0 else 1) + p.zapper.loop.rank + remoteRank p.zapper.main p.remote)

/-- Nothing counts as much as a step of the main thread. -/
theorem rank_lt_of_stage (h : p.zapper.main.stage < p'.zapper.main.stage) :
    p'.rank < p.rank := by
  have hle : p'.zapper.main.stage ≤ 47 := p'.zapper.main.stage_le
  have hloop := p'.zapper.loop.rank_le
  have hremote := remoteRank_le p'.zapper.main p'.remote
  have hjoin : (if p'.joining then 0 else 1) ≤ 1 := by split <;> decide
  unfold rank
  omega

theorem rank_le (p : Process) : p.rank ≤ 3068 := by
  have hloop := p.zapper.loop.rank_le
  have hremote := remoteRank_le p.zapper.main p.remote
  have hjoin : (if p.joining then 0 else 1) ≤ 1 := by split <;> decide
  unfold rank
  omega

/-- A state that is on the way out. -/
structure OnWay (p : Process) : Prop where
  sound : p.Sound
  not_lost : ¬ p.Lost
  not_waits : ¬ p.Waits

/-- The way out gets shorter. -/
def Progress (params : ConfigParams) (p : Process) : Prop :=
  CanReach (step params) (fun q => q.OnWay ∧ q.rank < p.rank) 2 p

variable {q : Process}

theorem progress_of_step (hs : p.Sound) (h : step params p pl = some q)
    (hq : ¬ q.Lost ∧ ¬ q.Waits) (hrank : q.rank < p.rank) : Progress params p :=
  canReach_of_step h (canReach_of_holds ⟨⟨hs.step h, hq.1, hq.2⟩, hrank⟩)

theorem step_main (halive : p.zapper.main.alive = true) (hc : p.remote ≠ .crashed) :
    step params p (.main a) = mainStep params a p := by
  rw [step, halive, decide_eq_true hc]
  rfl

theorem step_remote (halive : p.zapper.main.alive = true) (hc : p.remote ≠ .crashed) :
    step params p (.remote a) = remoteStep a p := by
  rw [step, halive, decide_eq_true hc]
  rfl

theorem step_read {ev : Option InputEvent} (halive : p.zapper.main.alive = true)
    (hr : p.remote = .reading) : step params p (.read ev) = readStep ev p := by
  rw [step, halive, hr]
  rfl

/-- The steps of the other actors. -/
theorem exec_actors {ks : List Zapper.Label} (hks : ∀ k ∈ ks, Label.other k = true)
    (hadmits : Meets (Zapper.step params) (fun s k => admits { p with zapper := s } k = true)
      p.zapper ks)
    (hc : p.remote ≠ .crashed) (h : exec (Zapper.step params) p.zapper ks = some s) :
    exec (step params) p (ks.map .actor) = some { p with zapper := s } := by
  induction ks generalizing p with
  | nil =>
    obtain rfl : p.zapper = s := by simpa [exec] using h
    rfl
  | cons k ks ih =>
    obtain ⟨t, ht, hexec⟩ := Option.bind_eq_some_iff.mp h
    obtain ⟨hk, hrest⟩ := hadmits t ht
    have hstep : step params p (.actor k) = some { p with zapper := t } := by
      rw [step, alive_of_step ht, decide_eq_true hc]
      simp [hks k (by simp), ht, show p.admits k = true from hk]
    rw [List.map_cons, exec, hstep]
    exact ih (p := { p with zapper := t }) (fun k hk => hks k (by simp [hk])) hrest hc hexec

/-- A signal, with the section it needs. -/
theorem canReach_wake (params : ConfigParams) (hc : p.remote ≠ .crashed)
    (halive : p.zapper.main.alive = true) (hreg : p.zapper.player.registered = true)
    (hlocked : p.zapper.statusMutex = false) (hspin : p.spinning = false)
    (hfreed : p.filterFreed = false) :
    CanReach (step params)
      (fun q => q = { p with zapper := { p.zapper with inCallback := false }.wake }) 2 p := by
  have hadmits : Meets (Zapper.step params) (fun s k => admits { p with zapper := s } k = true)
      p.zapper (signalling p.zapper) := by
    unfold signalling
    split
    · exact fun t _ => ⟨rfl, trivial⟩
    · refine fun t _ => ⟨?_, fun u _ => ⟨rfl, trivial⟩⟩
      show (!p.spinning && !p.filterFreed) = true
      rw [hspin, hfreed]
      rfl
  refine ⟨_, _, ?_, exec_actors (fun k hk => ?_) hadmits hc
    (exec_signalling params halive hreg hlocked), rfl⟩
  · rw [List.length_map]
    exact length_signalling _
  · unfold signalling at hk
    split at hk
    · rw [List.mem_singleton] at hk
      rw [hk]
      rfl
    · simp only [List.mem_cons, List.not_mem_nil, or_false] at hk
      obtain rfl | rfl := hk <;> rfl

theorem progress_of_wake (hp : p.OnWay) (hc : p.remote ≠ .crashed)
    (halive : p.zapper.main.alive = true) (hreg : p.zapper.player.registered = true)
    (hlocked : p.zapper.statusMutex = false) (hspin : p.spinning = false)
    (hfreed : p.filterFreed = false)
    (hq : ¬ { p with zapper := { p.zapper with inCallback := false }.wake }.Lost ∧
      ¬ { p with zapper := { p.zapper with inCallback := false }.wake }.Waits)
    (hrank : { p with zapper := { p.zapper with inCallback := false }.wake }.rank < p.rank) :
    Progress params p := by
  obtain ⟨ls, q, hlen, hrun, rfl⟩ := canReach_wake params hc halive hreg hlocked hspin hfreed
  have hsound := exec_invariant (fun _ _ _ hu h => Sound.step hu h) hp.sound hrun
  exact ⟨ls, _, hlen, hrun, ⟨hsound, hq.1, hq.2⟩, hrank⟩

/-- Where the main thread cannot be hindered. -/
theorem not_hindered_of_place (hm : p.zapper.main.exposed = false) : ¬ p.Hindered := fun hh => by
  rw [hh.exposed] at hm
  cases hm

/-- **On its way out the main thread is not hindered**, if it is not hindered already. -/
theorem not_hindered_of_wayOut (hs : p.Sound) (hh : ¬ p.Hindered)
    (h : Zapper.mainStep params p.zapper.main.wayOut p.zapper = some q.zapper)
    (hspin : q.spinning = p.spinning) : ¬ q.Hindered := by
  intro hq
  obtain he | ⟨hstop, hstage⟩ := exposed_of_wayOut h hq.exposed
  · have hplaces := exposed_of_mainStep h he hq.exposed
    cases hq with
    | noTable t hm hspin' =>
      obtain ⟨t', hw, hw'⟩ | ⟨-, hm'⟩ | ⟨-, hm'⟩ | ⟨-, hm'⟩ := hplaces
      · exact hh (.noTable t' (.inl hw) (hspin ▸ hspin'))
      all_goals rw [hm'] at hm; simp at hm
    | noThread hm hst =>
      obtain ⟨t', -, hm'⟩ | ⟨hstop, -⟩ | ⟨-, hm'⟩ | ⟨-, hm'⟩ := hplaces
      · rw [hm'] at hm
        simp at hm
      · obtain hl | ⟨hm', -⟩ := loop_of_mainStep h
        · exact hh (.noThread (.inl hstop) ⟨hspin ▸ hst.1, hl ▸ hst.2⟩)
        · cases hstop.symm.trans hm'
      all_goals rw [hm'] at hm; simp at hm
    | noNames hd hf =>
      refine hh (.noNames (dueToFree_of_exposed h he hd) ?_)
      rwa [(mainStep_frame h).tables] at hf
  · -- there is no stream thread yet
    have hnone : q.zapper.loop = .notCreated := by
      obtain hl | ⟨-, hm, -⟩ := loop_of_mainStep h
      · exact hl.trans (hs.lively.coherent.notCreated hstage)
      · cases hm.symm.trans hstop
    cases hq with
    | noTable t hm => rw [hstop] at hm; simp at hm
    | noThread hm hst => exact hst.created hnone
    | noNames hd => simp [State.DueToFree, hstop] at hd

/-- **The main thread moves**, or waits for somebody. -/
theorem progress_of_mainStep (hp : p.OnWay) (halive : p.zapper.main.alive = true)
    (hc : p.remote ≠ .crashed) (hr : p.zapper.main ≠ .running)
    (hw : p.zapper.main ≠ .init .waitingTuner) (ht : ∀ t, p.zapper.main ≠ .init (.waiting t))
    (hjoin : p.zapper.main = .deinit .join → ∃ e, p.zapper.loop = .exited e)
    (hdeinit : p.zapper.main ≠ .remoteDeinit)
    (hcall : p.zapper.main = .unregisterRemote → ∀ ev, p.remote ≠ .call ev) :
    Progress params p := by
  have hlively := hp.sound.lively
  have hh : ¬ p.Hindered := fun hh => hp.not_lost (.hindered hh)
  have hfree : p.zapper.main = .deinit .freeTables →
      p.zapper.tables.sdt.services.FilledTo p.zapper.tables.pat.pmtCount := fun hm => by
    by_contra hf
    exact hh (.noNames (by simp only [State.DueToFree, hm]) hf)
  obtain ⟨s, hs, hs'⟩ := mainStep_isSome params halive hr hw ht hjoin hfree fun hleft => by
    by_contra hlocked
    exact hleft (hlively.locked (by simpa using hlocked)).1
  have hlt := stage_lt_of_mainStep hs
  have hset := hp.sound.tidy.callbackSet halive
  -- what the step does to the remote controller does not matter
  have hprogress : ∀ q, mainStep params p.zapper.main.wayOut p = some q → q.zapper = s →
      q.spinning = p.spinning → q.remote ≠ .crashed → (∀ ev, q.remote = .call ev →
        q.zapper.main.alive = true → q.callbackSet = true) → Progress params p := by
    rintro q hq rfl hspin hqc hqcall
    exact progress_of_step hp.sound ((step_main halive hc).trans hq)
      (not_lost_of_not_running hs' hqc hqcall (not_hindered_of_wayOut hp.sound hh hs hspin))
      (rank_lt_of_stage hlt)
  cases hm : p.zapper.main with
  | remoteInit =>
    rw [hm] at hs hprogress
    have hq : mainStep params MainPc.remoteInit.wayOut p = some { p with
        zapper := s
        remote := .notCreated
        rcThreadRunning := false } := by
      simp only [mainStep, hm, hs]
      rfl
    exact hprogress _ hq rfl rfl (by simp) (by simp)
  | registerRemote =>
    rw [hm] at hs hprogress
    have hq : mainStep params MainPc.registerRemote.wayOut p =
        some { p with zapper := s, callbackSet := true } := by
      simp only [mainStep, hm, hset, hs]
      rfl
    exact hprogress _ hq rfl rfl hc fun _ _ _ => rfl
  | unregisterRemote =>
    rw [hm] at hs hprogress
    have hq : mainStep params MainPc.unregisterRemote.wayOut p =
        some { p with zapper := s, callbackSet := false } := by
      simp only [mainStep, hm, hset, hs]
      rfl
    exact hprogress _ hq rfl rfl hc fun ev hr _ => absurd hr (hcall hm ev)
  | remoteDeinit => exact absurd hm hdeinit
  | running => exact absurd hm hr
  | exited e =>
    rw [hm] at halive
    cases halive
  | init q | graphicsInit | graphicsDeinit | deinit q =>
    rw [hm] at hs hprogress
    refine hprogress { p with zapper := s } ?_ rfl rfl hc fun _ _ _ => ?_
    · simp only [mainStep, hm, hs]
      rfl
    · rw [hset, hm]
      rfl

/-- Steps in which the main thread stays where it is. -/
theorem rank_lt_of_same (hm : q.zapper.main = p.zapper.main)
    (h : (if q.joining then 0 else 1) + q.zapper.loop.rank + remoteRank p.zapper.main q.remote <
      (if p.joining then 0 else 1) + p.zapper.loop.rank + remoteRank p.zapper.main p.remote) :
    q.rank < p.rank := by
  unfold rank
  rw [hm]
  omega

/-- **The exit key gets through**: the remote thread serves the event it has, and reads the key. -/
theorem progress_of_running (hp : p.OnWay) (hm : p.zapper.main = .running) :
    Progress params p := by
  have htidy := hp.sound.tidy
  have halive : p.zapper.main.alive = true := by rw [hm]; rfl
  have hset : p.callbackSet = true := by rw [htidy.callbackSet halive, hm]; rfl
  have hrun : p.rcThreadRunning = true := by
    rw [htidy.running halive (by simp [hm]), htidy.joining_eq_false halive (by simp [hm])]
    rfl
  have hc : p.remote ≠ .crashed := fun hr => hp.not_lost (.crashed halive hr)
  -- steps of the remote thread between its events
  have hmove : ∀ {r : RemotePc} {l : Label}, step params p l = some { p with remote := r } →
      r ≠ .crashed → (∀ e, r ≠ .exited e) → (∀ ev ∈ r.pending, ev.asks = true →
        ev ∈ p.remote.pending) → runningRank r < runningRank p.remote → Progress params p := by
    intro r l h hcr her hpending hrank
    refine progress_of_step hp.sound h ⟨fun hlost => ?_, fun hw => ?_⟩
      (rank_lt_of_same rfl (by simpa [remoteRank, hm] using hrank))
    · cases hlost with
      | crashed _ hr => exact hcr hr
      | callsNull ev _ _ hset' => exact absurd hset' (by simp [hset])
      | noReader e _ hr => exact her e hr
      | kept ev hm' hr hasks hl =>
        exact hp.not_lost (.kept ev hm' (hpending ev hr hasks) hasks hl)
      | hindered hh => exact not_hindered_of_place (by rw [hm]; rfl) hh
    · obtain ⟨hm', ⟨ev, hr, hasks⟩, hheld, hne⟩ := hw
      exact hp.not_waits ⟨hm', ⟨ev, hpending ev hr hasks, hasks⟩, hheld, hne⟩
  cases hr : p.remote with
  | notCreated => cases hm.symm.trans ((htidy.created halive).mp hr)
  | crashed => exact absurd hr hc
  | exited e => exact absurd (.noReader e hm hr) hp.not_lost
  | head =>
    refine hmove (r := .reading) (l := .remote .refused) ?_ (by simp) (by simp)
      (by simp [RemotePc.pending]) (by rw [hr]; decide)
    rw [step_remote halive hc]
    simp [remoteStep, hr, hrun]
  | reading =>
    refine hmove (r := .test ⟨102, 1⟩) (l := .read (some ⟨102, 1⟩)) ?_ (by simp) (by simp) ?_
      (by rw [hr]; decide)
    · rw [step_read halive hr]
      simp [readStep, hr]
    · intro ev hev hasks
      rw [RemotePc.pending, List.mem_singleton] at hev
      rw [hev] at hasks
      cases hasks
  | test ev =>
    refine hmove (r := .call ev) (l := .remote .refused) ?_ (by simp) (by simp)
      (fun ev' hev' _ => by rw [hr]; exact hev') ?_
    · rw [step_remote halive hc]
      simp [remoteStep, hr, hset]
    · rw [hr]
      simp only [runningRank]
      split <;> decide
  | call ev =>
    refine hmove (r := .inCallback ev) (l := .remote .refused) ?_ (by simp) (by simp)
      (fun ev' hev' _ => by rw [hr]; exact hev') ?_
    · rw [step_remote halive hc]
      simp [remoteStep, hr, hset]
    · rw [hr]
      simp only [runningRank]
      split <;> decide
  | inCallback ev =>
    have hmem : ev ∈ p.remote.pending := by rw [hr]; exact List.mem_singleton_self ev
    have hfree : ¬ (ev.asks = true ∧ p.zapper.loop.holdsParams = true) := by
      rintro ⟨hasks, hheld⟩
      by_cases hl : p.zapper.loop = .exited .error ∨ p.Starved
      · exact hp.not_lost (.kept ev hm hmem hasks hl)
      · exact hp.not_waits ⟨hm, ⟨ev, hmem, hasks⟩, hheld, not_or.mp hl⟩
    obtain ⟨s, hs⟩ := serve_isSome .refused ev p.zapper hfree
    have hstep : step params p (.remote .refused) =
        some { p with zapper := s, remote := .head } := by
      rw [step_remote halive hc]
      simp [remoteStep, hr, hs]
    refine progress_of_step hp.sound hstep ⟨fun hlost => ?_, fun hw => ?_⟩ ?_
    · cases hlost with
      | crashed _ hr' | callsNull _ _ hr' | noReader _ _ hr' => cases hr'
      | kept ev' _ hr' => cases hr'
      | hindered hh =>
        have hexposed := hh.exposed
        obtain hmain | ⟨-, hmain⟩ := (serve_frame hs).main
        · rw [show s.main = .running from hmain.trans hm] at hexposed
          cases hexposed
        · rw [hmain] at hexposed
          cases hexposed
    · obtain ⟨-, ⟨ev', hr', -⟩, -⟩ := hw
      cases hr'
    · have hframe := serve_frame hs
      obtain hmain | ⟨-, hmain⟩ := hframe.main
      · refine rank_lt_of_same hmain ?_
        have hkey : ev.key ≠ some .exit := by
          intro hk
          simp only [serve, hk, press, hm] at hs
          obtain rfl := Option.some.inj hs
          cases hmain.trans hm
        simp [remoteRank, runningRank, hm, hr, hkey, hframe.loop]
      · refine rank_lt_of_stage ?_
        rw [hm]
        exact show (34 : ℕ) < s.main.stage by rw [hmain]; decide

/-- Somewhere else than in the wait for the exit key, while the callback is registered. -/
theorem not_lost_of_registered (hp : p.OnWay) (halive : p.zapper.main.alive = true)
    (hreg : p.zapper.main.remoteRegistered = true) (hm : s.main ≠ .running)
    (hh : ¬ { p with zapper := s }.Hindered) :
    ¬ { p with zapper := s }.Lost ∧ ¬ { p with zapper := s }.Waits :=
  not_lost_of_not_running hm (fun hr => hp.not_lost (.crashed halive hr))
    (fun _ _ _ => (hp.sound.tidy.callbackSet halive).trans hreg) hh

/-- What comes before the wait for a table. -/
theorem LoopPc.waits_of_next {pc : LoopPc} {c : Command}
    (h : pc.next s = .switch c .wait ∨ pc.next s = .switch c .waiting) :
    ∃ c', pc = .switch c' .setFilter ∨ pc = .switch c' .wait := by
  cases pc with
  | switch c' q =>
    cases q with
    | setFilter => exact ⟨c', .inl rfl⟩
    | wait => exact ⟨c', .inr rfl⟩
    | announce =>
      simp only [LoopPc.next, SwitchPc.next] at h
      split at h <;> simp at h
    | clear => cases c' <;> simp [LoopPc.next, SwitchPc.next, Command.following] at h
    | _ => simp [LoopPc.next, SwitchPc.next] at h
  | head =>
    simp only [LoopPc.next] at h
    split at h <;> simp at h
  | test c' =>
    simp only [LoopPc.next] at h
    split at h <;> cases c' <;> simp [Command.entry, Command.following] at h
  | notCreated | exited e | info | list => simp [LoopPc.next] at h

/-- The stream thread does not come to wait for a table when the player refuses. -/
theorem not_starved_of_loopStep (hst : ¬ p.Starved)
    (h : Zapper.loopStep params .refused p.zapper = some s) :
    ¬ { p with zapper := s }.Starved := by
  rintro ⟨hspin, c, hl⟩
  dsimp only at hl
  obtain hn | ⟨-, hn⟩ := loop_of_loopStep h
  · rw [hn] at hl
    obtain ⟨c', hl' | hl'⟩ := LoopPc.waits_of_next hl
    · -- the filter cannot be set
      simp only [Zapper.loopStep, hl', switchStep] at h
      obtain ⟨hok, -⟩ | ⟨-, hfail⟩ := p.zapper.loopAssert_cases
        (p.zapper.player.setFilter .refused p.zapper.selected.tableId Table.pmt.tableId)
        (.switch c' .wait)
      · cases (error_of_refused _ _ _).1.symm.trans hok
      · rw [← hn, ← Option.some.inj h, hfail] at hl
        simp at hl
    · exact hst ⟨hspin, c', .inl hl'⟩
  · rw [hn] at hl
    simp at hl

/-- A main thread that joins the stream thread gets on if that does. -/
theorem not_hindered_of_join (hm : p.zapper.main = .deinit .join) (hst : ¬ p.Starved) :
    ¬ p.Hindered := by
  rintro (⟨t, hm', -⟩ | ⟨-, hst'⟩ | ⟨hd, -⟩)
  · rw [hm] at hm'
    simp at hm'
  · exact hst hst'
  · simp [State.DueToFree, hm] at hd

/-- **The stream thread is joined**: it gets to its end, or fails. -/
theorem progress_of_join (hp : p.OnWay) (hm : p.zapper.main = .deinit .join) :
    Progress params p := by
  have hlively := hp.sound.lively
  have halive : p.zapper.main.alive = true := by rw [hm]; rfl
  have hreg : p.zapper.main.remoteRegistered = true := by rw [hm]; rfl
  have hc : p.remote ≠ .crashed := fun hr => hp.not_lost (.crashed halive hr)
  have hcreated := hlively.joins hm
  have hlocked : p.zapper.statusMutex = false := by
    by_contra hlocked
    exact hcreated (hlively.locked (by simpa using hlocked)).2
  by_cases he : ∃ e, p.zapper.loop = .exited e
  · exact progress_of_mainStep hp halive hc (by simp [hm]) (by simp [hm]) (by simp [hm])
      (fun _ => he) (by simp [hm]) (by simp [hm])
  have hst : ¬ p.Starved := fun hst => hp.not_lost (.hindered (.noThread (.inr hm) hst))
  by_cases hw : ∃ c, p.zapper.loop = .switch c .waiting
  · obtain ⟨c, hl⟩ := hw
    have hspin : p.spinning = false := by
      by_contra hspin
      exact hst ⟨by simpa using hspin, c, .inr hl⟩
    have hfreed : p.filterFreed = false := by
      rw [filterFreed, hm]
      decide
    have hwake : { p.zapper with inCallback := false }.wake =
        { p.zapper with inCallback := false, loop := .switch c .createVideo } := by
      simp [State.wake, hm, hl]
    refine progress_of_wake hp hc halive (hlively.thread hcreated) hlocked hspin hfreed ?_ ?_
    · rw [hwake]
      refine not_lost_of_registered hp halive hreg (by simp [hm]) (not_hindered_of_join hm ?_)
      rintro ⟨hspin', -⟩
      cases hspin.symm.trans hspin'
    · rw [hwake]
      exact rank_lt_of_same rfl (by simp [remoteRank, hm, hl, LoopPc.rank, SwitchPc.rank])
  · push Not at he hw
    obtain ⟨s, hs⟩ := loopStep_isSome params .refused hcreated he hw hlocked
    have hstep : step params p (.actor (.loop .refused)) = some { p with zapper := s } := by
      rw [step, halive, decide_eq_true hc]
      simp [Label.other, admits, Zapper.step, halive, act, hs]
    have hmain := (loopStep_frame hs).main
    refine progress_of_step hp.sound hstep (not_lost_of_registered hp halive hreg
      (by simp [hmain, hm]) (not_hindered_of_join (hmain.trans hm)
        (not_starved_of_loopStep hst hs))) (rank_lt_of_same hmain ?_)
    have hrank := rank_of_loopStep hs fun _ =>
      hlively.stopped (by rw [State.Past, hm]; decide) halive
    simp only [remoteRank, hm]
    omega

/-- **The tuner and the tables** report, or the wait for the tuner times out. -/
theorem progress_of_waiting (hp : p.OnWay)
    (hm : p.zapper.main = .init .waitingTuner ∨ ∃ t, p.zapper.main = .init (.waiting t)) :
    Progress params p := by
  have hlively := hp.sound.lively
  have halive : p.zapper.main.alive = true := by obtain hm | ⟨t, hm⟩ := hm <;> rw [hm] <;> rfl
  have hreg : p.zapper.main.remoteRegistered = true := by
    obtain hm | ⟨t, hm⟩ := hm <;> rw [hm] <;> rfl
  have hc : p.remote ≠ .crashed := fun hr => hp.not_lost (.crashed halive hr)
  obtain hm | ⟨t, hm⟩ := hm
  · have hstep : step params p (.actor .timeout) =
        some { p with zapper := { p.zapper with statusMutex := true }.initFail } := by
      rw [step, halive, decide_eq_true hc]
      simp [Label.other, admits, Zapper.step, act, timeoutStep, hm, MainPc.alive]
    have hnone : p.zapper.loop = .notCreated := hlively.coherent.notCreated (by rw [hm]; decide)
    refine progress_of_step hp.sound hstep (not_lost_of_registered hp halive hreg
      (by simp [State.initFail]) ?_) (rank_lt_of_stage ?_)
    · rintro (⟨t, hm', -⟩ | ⟨-, hst⟩ | ⟨hd, -⟩)
      · simp [State.initFail] at hm'
      · exact hst.created hnone
      · simp [State.DueToFree, State.initFail] at hd
    · rw [hm]
      exact show (8 : ℕ) < 36 by decide
  · have hleft : ¬ p.zapper.LeftInit := by
      rw [State.LeftInit, State.Past, hm]
      cases t <;> decide
    have hlocked : p.zapper.statusMutex = false := by
      by_contra hlocked
      exact hleft (hlively.locked (by simpa using hlocked)).1
    have hspin : p.spinning = false := by
      by_contra hspin
      exact hp.not_lost (.hindered (.noTable t (.inr hm) (by simpa using hspin)))
    have hfreed : p.filterFreed = false := by
      rw [filterFreed, hm]
      cases t <;> decide
    have hwake : { p.zapper with inCallback := false }.wake =
        { p.zapper with inCallback := false, main := .init t.afterWait } := by
      simp [State.wake, hm]
    refine progress_of_wake hp hc halive
      (hlively.registered (by rw [State.Past, hm]; cases t <;> decide) hleft) hlocked hspin hfreed
      ?_ ?_
    · rw [hwake]
      exact not_lost_of_registered hp halive hreg (by simp)
        (not_hindered_of_place (by cases t <;> rfl))
    · rw [hwake]
      refine rank_lt_of_stage ?_
      rw [hm]
      cases t <;> exact Nat.lt_of_sub_eq_succ rfl

/-- **The remote thread is joined**: it reads one more event at most. -/
theorem progress_of_remoteDeinit (hp : p.OnWay) (hm : p.zapper.main = .remoteDeinit) :
    Progress params p := by
  have htidy := hp.sound.tidy
  have halive : p.zapper.main.alive = true := by rw [hm]; rfl
  have hc : p.remote ≠ .crashed := fun hr => hp.not_lost (.crashed halive hr)
  have hset : p.callbackSet = false := by rw [htidy.callbackSet halive, hm]; rfl
  have hrun := htidy.running halive (by simp [hm])
  have hcall : ∀ ev, p.remote ≠ .call ev := fun ev hr =>
    hp.not_lost (.callsNull ev halive hr hset)
  cases hj : p.joining with
  | false =>
    rw [hj] at hrun
    have hstep : step params p (.main .refused) =
        some { p with rcThreadRunning := false, joining := true } := by
      rw [step_main halive hc]
      simp [mainStep, hm, hj, hrun]
    refine progress_of_step hp.sound hstep (not_lost_of_not_running (by simp [hm]) hc
      (fun ev hr _ => absurd hr (hcall ev)) (not_hindered_of_place (by rw [hm]; rfl)))
      (rank_lt_of_same rfl ?_)
    simp [hj]
  | true =>
    rw [hj] at hrun
    -- steps of the remote thread
    have hmove : ∀ {s : State} {r : RemotePc} {l : Label},
        step params p l = some { p with zapper := s, remote := r } → s.main = .remoteDeinit →
          s.loop = p.zapper.loop → r ≠ .crashed → (∀ ev, r ≠ .call ev) →
            closingRank r < closingRank p.remote → Progress params p := by
      intro s r l h hm' hl hcr hcall' hrank
      refine progress_of_step hp.sound h (not_lost_of_not_running (by simp [hm']) hcr
        (fun ev hr _ => absurd hr (hcall' ev)) (not_hindered_of_place (by rw [hm']; rfl)))
        (rank_lt_of_same (hm'.trans hm.symm) ?_)
      simpa [remoteRank, hm, hl] using hrank
    cases hr : p.remote with
    | notCreated => cases hm.symm.trans ((htidy.created halive).mp hr)
    | crashed => exact absurd hr hc
    | call ev => exact absurd hr (hcall ev)
    | exited e =>
      have hs : Zapper.mainStep params { Answer.refused with
          first := Answer.refused.first && decide (e = .noError) } p.zapper =
            some { p.zapper with main := .exited .error } := by
        simp [Zapper.mainStep, hm, Answer.refused]
      have hstep : step params p (.main .refused) =
          some { p with zapper := { p.zapper with main := .exited .error } } := by
        rw [step_main halive hc]
        simp only [mainStep, hm, hj, hr, hs]
        rfl
      refine progress_of_step hp.sound hstep (not_lost_of_not_running (by simp) hc
        (fun _ _ ha => by cases ha) (not_hindered_of_place rfl)) (rank_lt_of_stage ?_)
      rw [hm]
      exact show (46 : ℕ) < 47 by decide
    | head =>
      refine hmove (s := p.zapper) (r := .exited .noError) (l := .remote .refused) ?_ hm rfl
        (by simp) (by simp) (by rw [hr]; decide)
      rw [step_remote halive hc]
      simp [remoteStep, hr, hrun]
    | reading =>
      refine hmove (s := p.zapper) (r := .test ⟨102, 1⟩) (l := .read (some ⟨102, 1⟩)) ?_ hm rfl
        (by simp) (by simp) (by rw [hr]; decide)
      rw [step_read halive hr]
      simp [readStep, hr]
    | test ev =>
      refine hmove (s := p.zapper) (r := .head) (l := .remote .refused) ?_ hm rfl
        (by simp) (by simp) (by rw [hr]; exact Nat.lt_succ_self 1)
      rw [step_remote halive hc]
      simp [remoteStep, hr, hset]
    | inCallback ev =>
      -- the stream thread holds no mutex any more
      have hheld : p.zapper.loop.holdsParams = false := by
        obtain hl | hl := hp.sound.lively.coherent.joined (by rw [State.Past, hm]; decide) halive
          <;> rw [hl] <;> rfl
      obtain ⟨s, hs⟩ := serve_isSome .refused ev p.zapper (by simp [hheld])
      have hframe := serve_frame hs
      have hmain : s.main = .remoteDeinit := by
        obtain hmain | ⟨hrunning, -⟩ := hframe.main
        · exact hmain.trans hm
        · cases hm.symm.trans hrunning
      refine hmove (s := s) (r := .head) (l := .remote .refused) ?_ hmain hframe.loop
        (by simp) (by simp) (by rw [hr]; exact Nat.lt_succ_self 1)
      rw [step_remote halive hc]
      simp [remoteStep, hr, hs]

/-- **There is always a way on**, except from a lost state. -/
theorem OnWay.progress (hp : p.OnWay) : p.Exited ∨ Progress params p := by
  have hcall : p.zapper.main = .unregisterRemote → (∃ ev, p.remote = .call ev) →
      Progress params p := by
    rintro hm ⟨ev, hr⟩
    have halive : p.zapper.main.alive = true := by rw [hm]; rfl
    have hset : p.callbackSet = true := by rw [hp.sound.tidy.callbackSet halive, hm]; rfl
    have hstep : step params p (.remote .refused) = some { p with remote := .inCallback ev } := by
      rw [step_remote halive (by simp [hr])]
      simp [remoteStep, hr, hset]
    refine progress_of_step hp.sound hstep (not_lost_of_not_running (by simp [hm]) (by simp)
      (by simp) (not_hindered_of_place (by rw [hm]; rfl))) (rank_lt_of_same rfl ?_)
    simp [remoteRank, hm, hr]
  by_cases halive : p.zapper.main.alive = true
  · refine .inr ?_
    have hc : p.remote ≠ .crashed := fun hr => hp.not_lost (.crashed halive hr)
    by_cases hrunning : p.zapper.main = .running
    · exact progress_of_running hp hrunning
    by_cases hjoin : p.zapper.main = .deinit .join
    · exact progress_of_join hp hjoin
    by_cases hdeinit : p.zapper.main = .remoteDeinit
    · exact progress_of_remoteDeinit hp hdeinit
    by_cases hw : p.zapper.main = .init .waitingTuner ∨ ∃ t, p.zapper.main = .init (.waiting t)
    · exact progress_of_waiting hp hw
    push Not at hw
    by_cases hnull : p.zapper.main = .unregisterRemote ∧ ∃ ev, p.remote = .call ev
    · exact hcall hnull.1 hnull.2
    · push Not at hnull
      exact progress_of_mainStep hp halive hc hrunning hw.1 hw.2 (fun h => absurd h hjoin) hdeinit
        hnull
  · refine .inl ?_
    cases hm : p.zapper.main with
    | exited e => exact ⟨e, hm⟩
    | _ =>
      rw [hm] at halive
      exact absurd rfl halive

/-- From a state on its way, `main` returns after a bounded number of steps. -/
theorem OnWay.canExit (hp : p.OnWay) : CanReach (step params) Exited 6136 p := by
  have hreach : CanReach (step params) Exited (2 * p.rank) p :=
    canReach_of_measure (I := OnWay) rank (fun _ hq => hq.progress) hp
  have hrank := p.rank_le
  exact hreach.mono (by omega) fun _ h => h

/-- A lost state stays lost. -/
theorem lost_of_run {ls : List Label} (hs : p.Sound) (hlost : p.Lost)
    (h : exec (step params) p ls = some p') : p'.Lost :=
  (exec_invariant (I := fun q => q.Sound ∧ q.Lost)
    (fun _ _ _ hq hstep => ⟨hq.1.step hstep, hq.2.step hq.1 hstep⟩) ⟨hs, hlost⟩ h).2

/-- The state occurs in some run from power-on. -/
def Reachable (params : ConfigParams) (p : Process) : Prop :=
  ∃ ls, exec (step params) powerOn ls = some p

theorem Reachable.sound (h : Reachable params p) : p.Sound := by
  obtain ⟨ls, hls⟩ := h
  exact exec_invariant (fun _ _ _ hq hstep => hq.step hstep) sound_powerOn hls

/-- The zapper of the sample stream, until `main` waits for the exit key. -/
def startUp : List Label :=
  (wholeRun.takeWhile fun l => l.key.isNone).map fun l =>
    match l with
    | .main a => .main a
    | k => .actor k

/-- The stream thread gets on while a key waits for it. -/
theorem loop_progress (hs : p.Sound) (hw : p.Waits) :
    CanReach (step params) (fun q => (q.Sound ∧ q.zapper.main = .running) ∧
      q.zapper.loop.rank < p.zapper.loop.rank) 2 p := by
  obtain ⟨hm, ⟨ev, hev, -⟩, hheld, hne, hst⟩ := hw
  have halive : p.zapper.main.alive = true := by rw [hm]; rfl
  have hc : p.remote ≠ .crashed := fun hr => by
    rw [hr] at hev
    cases hev
  have hcreated : p.zapper.loop ≠ .notCreated := fun hl => by
    rw [hl] at hheld
    cases hheld
  have hlocked : p.zapper.statusMutex = false := by
    by_contra hlocked
    exact hcreated (hs.lively.locked (by simpa using hlocked)).2
  by_cases hw : ∃ c, p.zapper.loop = .switch c .waiting
  · obtain ⟨c, hl⟩ := hw
    have hspin : p.spinning = false := by
      by_contra hspin
      exact hst ⟨by simpa using hspin, c, .inr hl⟩
    have hfreed : p.filterFreed = false := by
      rw [filterFreed, hm]
      decide
    have hwake : { p.zapper with inCallback := false }.wake =
        { p.zapper with inCallback := false, loop := .switch c .createVideo } := by
      simp [State.wake, hm, hl]
    obtain ⟨ls, q, hlen, hrun, rfl⟩ :=
      canReach_wake params hc halive (hs.lively.thread hcreated) hlocked hspin hfreed
    have hsound := exec_invariant (fun _ _ _ hu h => Sound.step hu h) hs hrun
    refine ⟨ls, _, hlen, hrun, ⟨hsound, ?_⟩, ?_⟩
    · rw [hwake]
      exact hm
    · rw [hwake, hl]
      exact Nat.lt_succ_self _
  · push Not at hw
    have he : ∀ e, p.zapper.loop ≠ .exited e := by
      rintro (_ | _) hl
      · exact hne hl
      · rw [hl] at hheld
        cases hheld
    obtain ⟨s, hs'⟩ := loopStep_isSome params .refused hcreated he hw hlocked
    have hstep : step params p (.actor (.loop .refused)) = some { p with zapper := s } := by
      rw [step, halive, decide_eq_true hc]
      simp [Label.other, admits, Zapper.step, halive, act, hs']
    refine canReach_of_step hstep (canReach_of_holds
      ⟨⟨hs.step hstep, (loopStep_frame hs').main.trans hm⟩, rank_of_loopStep hs' fun hl => ?_⟩)
    rw [hl] at hheld
    cases hheld

/-- The stream thread gives back its mutex, or fails. -/
theorem not_waits_of_sound (hs : p.Sound) :
    CanReach (step params) (fun q => q.Sound ∧ ¬ q.Waits) 102 p := by
  by_cases hw : p.Waits
  · have hreach : CanReach (step params) (fun q => q.Sound ∧ ¬ q.Waits)
        (2 * p.zapper.loop.rank) p :=
      canReach_of_measure (I := fun q : Process => q.Sound ∧ q.zapper.main = .running)
        (fun q => q.zapper.loop.rank) (fun q hq => by
          by_cases hw : q.Waits
          · exact .inr (loop_progress hq.1 hw)
          · exact .inl ⟨hq.1, hw⟩) ⟨hs, hw.1⟩
    exact hreach.mono (Nat.mul_le_mul_left 2 p.zapper.loop.rank_le) fun _ h => h
  · exact canReach_of_holds ⟨hs, hw⟩

end Process

end Zapper
