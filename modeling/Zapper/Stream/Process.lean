import Zapper.Lib.Progress
import Zapper.Stream.Counter

/-!
# The process with its remote thread

In `Stream/System` a key event is one step. Here the thread that brings the events is taken apart
(`remote_loop` of `remote_controller.c`): it tests `rc_thread_running`, waits in `get_keys` for an
event, tests whether a callback is registered, calls it, and is inside the call until the key has
been served; a key that needs `stream_params_mutex` keeps it there while the stream thread holds
the mutex. `remote_deinit` clears the flag and then waits for the thread to return.

The thread reads the pointer `callback` twice, once to test it and once to call it. A call through
`NULL` ends the process.

The thread of the demultiplexer is here more than its calls of `filter_callback` that return: the
search for a slot and the loops of the parsers need not end, and a call that does not return keeps
the thread for good. Behind the `Demux_Free_Filter` of `stream_deinit` the player reports no
section.

A run of the process in which no call runs on behind `remote_callback_unregister` is a run of the
zapper (`exec_zapper`): what holds of all of these holds of the process.
-/

namespace Zapper

open Transition

/-! ### The remote thread -/

/-- What `callback` gets of an input event; it does not look at the type. -/
structure InputEvent where
  code : ℕ
  value : ℕ
  deriving DecidableEq

/-- The key the event presses. -/
def InputEvent.key (ev : InputEvent) : Option Key := Key.ofEvent ev.code ev.value

/-- The places in `remote_loop`. -/
inductive RemotePc
  /-- The thread has not been created. -/
  | notCreated
  /-- The head of the loop. -/
  | head
  /-- In `get_keys`. -/
  | reading
  /-- The test whether a callback is registered. -/
  | test (ev : InputEvent)
  /-- The callback is about to be called. -/
  | call (ev : InputEvent)
  /-- In the callback. -/
  | inCallback (ev : InputEvent)
  | exited (e : TError)
  /-- The pointer was `NULL` when it was called. -/
  | crashed
  deriving DecidableEq

/-- The callback is about to be called, or runs. -/
def RemotePc.calling : RemotePc → Bool
  | .call _ => true
  | .inCallback _ => true
  | _ => false

/-- The event that has been read and not yet been served. -/
def RemotePc.pending : RemotePc → List InputEvent
  | .test ev => [ev]
  | .call ev => [ev]
  | .inCallback ev => [ev]
  | _ => []

/-- The zapper, its remote thread, and the globals of `remote_controller.c`. -/
structure Process where
  zapper : State
  remote : RemotePc
  rcThreadRunning : Bool
  /-- `callback` is not `NULL`. -/
  callbackSet : Bool
  /-- The main thread waits for the remote thread to return. -/
  joining : Bool
  /-- A call of `filter_callback` does not return. -/
  spinning : Bool

namespace Process

/-- The start of `main`. -/
def powerOn : Process where
  zapper := .powerOn
  remote := .notCreated
  rcThreadRunning := false
  callbackSet := false
  joining := false
  spinning := false

/-! ### Steps -/

/-- `remote_callback_register`, on whether a callback is registered. -/
def remoteCallbackRegister (callbackSet : Bool) : TError × Bool :=
  if callbackSet then (.error, callbackSet) else (.noError, true)

/-- `remote_callback_unregister`. -/
def remoteCallbackUnregister (callbackSet : Bool) : TError × Bool :=
  if callbackSet then (.noError, false) else (.error, callbackSet)

/-- A step of the main thread: what it does to the remote controller, besides what it does to the
zapper. -/
def mainStep (params : ConfigParams) (a : Answer) (p : Process) : Option Process :=
  match p.zapper.main with
  | .remoteInit => (Zapper.mainStep params a p.zapper).map fun s =>
      { p with
        zapper := s
        remote := if a.first then .head else .notCreated
        rcThreadRunning := a.first }
  | .registerRemote =>
    match remoteCallbackRegister p.callbackSet with
    | (.noError, callbackSet) => (Zapper.mainStep params a p.zapper).map fun s =>
        { p with zapper := s, callbackSet := callbackSet }
    | (.error, _) => some { p with
        zapper := { p.zapper with mainError := .error, main := .remoteDeinit } }
  | .unregisterRemote =>
    match remoteCallbackUnregister p.callbackSet with
    | (.noError, callbackSet) => (Zapper.mainStep params a p.zapper).map fun s =>
        { p with zapper := s, callbackSet := callbackSet }
    | (.error, _) => some { p with zapper := { p.zapper with main := .exited .error } }
  | .remoteDeinit =>
    if p.joining then
      -- `pthread_join`; what the thread has returned decides as well
      match p.remote with
      | .exited e =>
        (Zapper.mainStep params { a with first := a.first && decide (e = .noError) } p.zapper).map
          fun s => { p with zapper := s }
      | _ => none
    else if p.rcThreadRunning then some { p with rcThreadRunning := false, joining := true }
    else (Zapper.mainStep params { a with first := true } p.zapper).map fun s =>
      { p with zapper := s }
  | _ => (Zapper.mainStep params a p.zapper).map fun s => { p with zapper := s }

/-- The callback runs: `callback` of `main.c`, from its entry to its return. -/
def serve (a : Answer) (ev : InputEvent) (s : State) : Option State :=
  match ev.key with
  | some k => press a s k
  | none => some s

/-- A step of `remote_loop`, but for the return of `get_keys`. -/
def remoteStep (a : Answer) (p : Process) : Option Process :=
  match p.remote with
  | .notCreated => none
  | .head =>
    if p.rcThreadRunning then some { p with remote := .reading }
    else some { p with remote := .exited .noError }
  | .reading => none
  | .test ev =>
    if p.callbackSet then some { p with remote := .call ev } else some { p with remote := .head }
  | .call ev =>
    if p.callbackSet then some { p with remote := .inCallback ev }
    else some { p with remote := .crashed }
  | .inCallback ev => (serve a ev p.zapper).map fun s => { p with zapper := s, remote := .head }
  | .exited _ => none
  | .crashed => none

/-- `get_keys` returns: with an event, or with an error. -/
def readStep (ev : Option InputEvent) (p : Process) : Option Process :=
  match p.remote with
  | .reading =>
    match ev with
    | some ev => some { p with remote := .test ev }
    | none => some { p with remote := .exited .error }
  | _ => none

/-- The section filter of the last table has been freed. -/
def filterFreed (p : Process) : Bool :=
  decide ((MainPc.deinit .freeFilter).stage < p.zapper.main.stage)

/-- A call of `filter_callback` for a section on which a loop does not end. In `2 ^ 16` passes the
search has been to all slots that its index can name, and a parser is far behind any section. -/
def hangStep (d : Delivery) (p : Process) : Option Process :=
  if p.zapper.player.registered && !p.zapper.inCallback && !p.filterFreed &&
      decide (2 ^ 16 ≤ d.fuel) && (filterCallback d p.zapper.tables).isNone then
    some { p with spinning := true }
  else none

/-- Who moves. -/
inductive Label
  | main (a : Answer)
  /-- The remote thread. -/
  | remote (a : Answer)
  | read (ev : Option InputEvent)
  | hang (d : Delivery)
  /-- Any other actor of the zapper. -/
  | actor (l : Zapper.Label)

/-- The actors of the zapper that are neither its main thread nor its remote thread. -/
def Label.other : Zapper.Label → Bool
  | .main _ => false
  | .input _ _ _ => false
  | _ => true

/-- A section is delivered while the filter is set and no call of `filter_callback` is stuck. -/
def admits (p : Process) : Zapper.Label → Bool
  | .deliver _ => !p.spinning && !p.filterFreed
  | _ => true

/-- The transition function. -/
def step (params : ConfigParams) (p : Process) (l : Label) : Option Process :=
  if p.zapper.main.alive && decide (p.remote ≠ .crashed) then
    match l with
    | .main a => mainStep params a p
    | .remote a => remoteStep a p
    | .read ev => readStep ev p
    | .hang d => hangStep d p
    | .actor l =>
      if Label.other l && p.admits l then
        (Zapper.step params p.zapper l).map fun s => { p with zapper := s }
      else none
  else none

/-! ### The remote controller follows the main thread -/

/-- What the place of the main thread says about the remote controller. -/
structure Tidy (p : Process) : Prop where
  callbackSet : p.zapper.main.alive = true → p.callbackSet = p.zapper.main.remoteRegistered
  created : p.zapper.main.alive = true → (p.remote = .notCreated ↔ p.zapper.main = .remoteInit)
  running : p.zapper.main.alive = true → p.zapper.main ≠ .remoteInit →
    p.rcThreadRunning = !p.joining
  joining : p.joining = true → p.zapper.main.alive = true → p.zapper.main = .remoteDeinit
  returned : p.remote = .exited .noError → p.rcThreadRunning = false

theorem tidy_powerOn : powerOn.Tidy := by
  constructor <;> simp [powerOn, State.powerOn, MainPc.remoteRegistered]

variable {params : ConfigParams} {a : Answer} {p p' : Process} {l : Label}

theorem step_eq_some (h : step params p l = some p') :
    p.zapper.main.alive = true ∧ p.remote ≠ .crashed ∧
      ((∃ a, l = .main a ∧ mainStep params a p = some p') ∨
        (∃ a, l = .remote a ∧ remoteStep a p = some p') ∨
        (∃ ev, l = .read ev ∧ readStep ev p = some p') ∨
        (∃ d, l = .hang d ∧ hangStep d p = some p') ∨
        ∃ k s, l = .actor k ∧ Label.other k = true ∧ Zapper.step params p.zapper k = some s ∧
          p' = { p with zapper := s }) := by
  unfold step at h
  split at h
  · next hc =>
    simp only [Bool.and_eq_true, decide_eq_true_eq] at hc
    refine ⟨hc.1, hc.2, ?_⟩
    cases l with
    | main a => exact .inl ⟨a, rfl, h⟩
    | remote a => exact .inr (.inl ⟨a, rfl, h⟩)
    | read ev => exact .inr (.inr (.inl ⟨ev, rfl, h⟩))
    | hang d => exact .inr (.inr (.inr (.inl ⟨d, rfl, h⟩)))
    | actor k =>
      simp only at h
      split at h
      · next hk =>
        obtain ⟨s, hs, rfl⟩ := Option.map_eq_some_iff.mp h
        rw [Bool.and_eq_true] at hk
        exact .inr (.inr (.inr (.inr ⟨k, s, rfl, hk.1, hs, rfl⟩)))
      · cases h
  · cases h

/-- What an actor of the zapper does, the process admits. -/
theorem admits_of_step {k : Zapper.Label} (h : step params p (.actor k) = some p') :
    p.admits k = true := by
  unfold step at h
  split at h
  · simp only at h
    split at h
    · next hk => exact (Bool.and_eq_true _ _ ▸ hk).2
    · cases h
  · cases h

/-- A call that does not return changes nothing else. -/
theorem hangStep_eq_some {d : Delivery} (h : hangStep d p = some p') :
    p.zapper.inCallback = false ∧ p' = { p with spinning := true } := by
  unfold hangStep at h
  split at h
  · next hc =>
    simp only [Bool.and_eq_true, Bool.not_eq_true'] at hc
    exact ⟨hc.1.1.1.2, (Option.some.inj h).symm⟩
  · cases h

/-- **What a step of the main thread does.** -/
inductive MainMoves (params : ConfigParams) (a : Answer) (p p' : Process) : Prop
  | remoteInit (s : State) (hm : p.zapper.main = .remoteInit)
      (h : Zapper.mainStep params a p.zapper = some s)
      (hp' : p' = { p with
        zapper := s
        remote := if a.first then .head else .notCreated
        rcThreadRunning := a.first })
  | register (s : State) (hm : p.zapper.main = .registerRemote)
      (h : Zapper.mainStep params a p.zapper = some s)
      (hp' : p' = { p with zapper := s, callbackSet := true })
  | unregister (s : State) (hm : p.zapper.main = .unregisterRemote)
      (h : Zapper.mainStep params a p.zapper = some s)
      (hp' : p' = { p with zapper := s, callbackSet := false })
  | stop (hm : p.zapper.main = .remoteDeinit) (hj : p.joining = false)
      (hp' : p' = { p with rcThreadRunning := false, joining := true })
  | join (e : TError) (s : State) (hm : p.zapper.main = .remoteDeinit) (hj : p.joining = true)
      (hr : p.remote = .exited e)
      (h : Zapper.mainStep params { a with first := a.first && decide (e = .noError) } p.zapper =
        some s)
      (hp' : p' = { p with zapper := s })
  | zapper (s : State) (hm : p.zapper.main ≠ .remoteInit ∧ p.zapper.main ≠ .registerRemote ∧
        p.zapper.main ≠ .unregisterRemote ∧ p.zapper.main ≠ .remoteDeinit)
      (h : Zapper.mainStep params a p.zapper = some s) (hp' : p' = { p with zapper := s })

theorem mainStep_moves (hp : p.Tidy) (h : mainStep params a p = some p') :
    MainMoves params a p p' := by
  unfold mainStep at h
  split at h
  · next hm =>
    obtain ⟨s, hs, rfl⟩ := Option.map_eq_some_iff.mp h
    exact .remoteInit s hm hs rfl
  · next hm =>
    have hset : p.callbackSet = false := by
      rw [hp.callbackSet (by rw [hm]; rfl), hm]
      rfl
    rw [hset] at h
    obtain ⟨s, hs, rfl⟩ := Option.map_eq_some_iff.mp h
    exact .register s hm hs rfl
  · next hm =>
    have hset : p.callbackSet = true := by
      rw [hp.callbackSet (by rw [hm]; rfl), hm]
      rfl
    rw [hset] at h
    obtain ⟨s, hs, rfl⟩ := Option.map_eq_some_iff.mp h
    exact .unregister s hm hs rfl
  · next hm =>
    split at h
    · next hj =>
      split at h
      · next e hr =>
        obtain ⟨s, hs, rfl⟩ := Option.map_eq_some_iff.mp h
        exact .join e s hm hj hr hs rfl
      · cases h
    · next hj =>
      have hrun := hp.running (by rw [hm]; rfl) (by simp [hm])
      rw [Bool.not_eq_true] at hj
      rw [hj] at hrun
      rw [hrun, if_pos (by rfl)] at h
      exact .stop hm hj (Option.some.inj h).symm
  · next h₁ h₂ h₃ h₄ =>
    obtain ⟨s, hs, rfl⟩ := Option.map_eq_some_iff.mp h
    exact .zapper s ⟨h₁, h₂, h₃, h₄⟩ hs rfl

/-- The main thread of the zapper moves, or nothing of the zapper does. -/
theorem MainMoves.zapper_eq (h : MainMoves params a p p') :
    (∃ a, Zapper.mainStep params a p.zapper = some p'.zapper) ∨ p'.zapper = p.zapper := by
  cases h with
  | stop _ _ hp' => exact .inr (by rw [hp'])
  | remoteInit s _ h hp' | register s _ h hp' | unregister s _ h hp' | join _ s _ _ _ h hp'
  | zapper s _ h hp' => exact .inl ⟨_, by rw [h, hp']⟩

theorem MainMoves.spinning (h : MainMoves params a p p') : p'.spinning = p.spinning := by
  cases h with
  | stop _ _ hp' | remoteInit _ _ _ hp' | register _ _ _ hp' | unregister _ _ _ hp'
  | join _ _ _ _ _ _ hp' | zapper _ _ _ hp' => rw [hp']

/-- Where `remote_loop` goes on behind a place. -/
def next (p : Process) : RemotePc → RemotePc
  | .head => if p.rcThreadRunning then .reading else .exited .noError
  | .test ev => if p.callbackSet then .call ev else .head
  | .call ev => if p.callbackSet then .inCallback ev else .crashed
  | .inCallback _ => .head
  | r => r

/-- **What a step of the remote thread does.** -/
structure RemoteMoves (a : Answer) (p p' : Process) : Prop where
  remote : p'.remote = p.next p.remote
  rest : p' = { p with zapper := p'.zapper, remote := p'.remote }
  zapper : (∃ ev, p.remote = .inCallback ev ∧ serve a ev p.zapper = some p'.zapper) ∨
    (∀ ev, p.remote ≠ .inCallback ev) ∧ p'.zapper = p.zapper
  created : p.remote ≠ .notCreated

theorem remoteStep_moves (h : remoteStep a p = some p') : RemoteMoves a p p' := by
  cases hr : p.remote with
  | notCreated | reading | exited e | crashed => simp [remoteStep, hr] at h
  | head | test ev | call ev =>
    simp only [remoteStep, hr] at h
    split at h
    · next hc =>
      obtain rfl := Option.some.inj h
      exact ⟨by simp [next, hr, hc], rfl, .inr ⟨by simp [hr], rfl⟩, by simp [hr]⟩
    · next hc =>
      obtain rfl := Option.some.inj h
      exact ⟨by simp [next, hr, hc], rfl, .inr ⟨by simp [hr], rfl⟩, by simp [hr]⟩
  | inCallback ev =>
    simp only [remoteStep, hr] at h
    obtain ⟨s, hs, rfl⟩ := Option.map_eq_some_iff.mp h
    exact ⟨by simp [next, hr], rfl, .inl ⟨ev, hr, hs⟩, by simp [hr]⟩

theorem readStep_eq_some {ev : Option InputEvent} (h : readStep ev p = some p') :
    p.remote = .reading ∧
      ((∃ e, ev = some e ∧ p' = { p with remote := .test e }) ∨
        (ev = none ∧ p' = { p with remote := .exited .error })) := by
  unfold readStep at h
  split at h
  · next hr =>
    refine ⟨hr, ?_⟩
    split at h
    · exact .inl ⟨_, rfl, (Option.some.inj h).symm⟩
    · exact .inr ⟨rfl, (Option.some.inj h).symm⟩
  · cases h

/-- A served event presses its key, or does nothing. -/
theorem serve_frame {ev : InputEvent} {s s' : State} (h : serve a ev s = some s') :
    PressFrame s s' := by
  unfold serve at h
  split at h
  · exact press_frame h
  · obtain rfl := Option.some.inj h
    exact ⟨.inl rfl, rfl, rfl, rfl, rfl, rfl, rfl, rfl, rfl⟩

/-- As long as the key callback is registered, a served event is a key event of the zapper. -/
theorem callback_of_serve {ev : InputEvent} {s : State} (hm : s.main.remoteRegistered = true) :
    callback a ev.code ev.value s = serve a ev s := by
  rw [callback, if_pos hm]
  rfl

/-! ### The phases of the remote controller -/

/-- The main thread leaves the phase in which the callback is registered by its unregistration, or
ends. -/
theorem remoteRegistered_of_mainStep {s s' : State} (h : Zapper.mainStep params a s = some s')
    (hm : s.main.remoteRegistered = true) (hne : s.main ≠ .unregisterRemote)
    (halive : s'.main.alive = true) : s'.main.remoteRegistered = true := by
  obtain hn | hn := main_of_mainStep h
  · rw [hn]
    cases hm' : s.main with
    | init q => cases q <;> rfl
    | deinit q => cases q <;> rfl
    | unregisterRemote => exact absurd hm' hne
    | exited e => simp [hm', MainPc.remoteRegistered] at hm
    | remoteInit | registerRemote | remoteDeinit => simp [hm', MainPc.remoteRegistered] at hm
    | _ => rfl
  · rw [hn] at halive ⊢
    cases hm' : s.main with
    | init q => rfl
    | graphicsInit => rfl
    | _ =>
      rw [hm'] at halive
      cases halive

/-- A signal only moves the main thread inside `stream_init`. -/
theorem main_of_wake (s : State) :
    s.wake.main = s.main ∨ ∃ q q', s.main = .init q ∧ s.wake.main = .init q' := by
  obtain ⟨hm, hm', -⟩ | ⟨t, hm, hm', -⟩ | ⟨_, -, hm, -⟩ | ⟨-, -, hm, -⟩ := s.wake_cases
  · exact .inr ⟨_, _, hm, hm'⟩
  · exact .inr ⟨_, _, hm, hm'⟩
  · exact .inl hm
  · exact .inl hm

/-- The other actors only move the main thread inside `stream_init`, or out of it. -/
theorem main_of_other {s s' : State} {k : Zapper.Label} (hk : Label.other k = true)
    (h : Zapper.step params s k = some s') : s'.main = s.main ∨
      ∃ q, s.main = .init q ∧ ((∃ q', s'.main = .init q') ∨ s'.main = .deinit .stop) := by
  have hact := act_of_step h
  have hwake : ∀ t : State, t.main = s.main → t.wake.main = s.main ∨
      ∃ q, s.main = .init q ∧ ((∃ q', t.wake.main = .init q') ∨ t.wake.main = .deinit .stop) := by
    intro t ht
    obtain hm | ⟨q, q', hm, hm'⟩ := main_of_wake t
    · exact .inl (hm.trans ht)
    · exact .inr ⟨q, ht.symm.trans hm, .inl ⟨q', hm'⟩⟩
  cases k with
  | main a | input code value a => cases hk
  | loop a => exact .inl (loopStep_frame hact).main
  | deliver d =>
    obtain ⟨-, -, tables, -, rfl⟩ := sectionStep_eq_some hact
    exact .inl rfl
  | signal =>
    obtain ⟨-, -, rfl⟩ := signalStep_eq_some hact
    exact hwake _ rfl
  | tuner status =>
    obtain ⟨-, rfl | rfl⟩ := tunerStep_eq_some hact
    · exact hwake _ rfl
    · exact .inl rfl
  | timeout =>
    obtain ⟨hm, rfl⟩ := timeoutStep_eq_some hact
    exact .inr ⟨_, hm, .inr rfl⟩
  | expire =>
    obtain ⟨-, rfl⟩ := expireStep_eq_some hact
    exact .inl rfl
  | handler i => exact .inl (handlerStep_frame hact).main

theorem remoteInit_of_registered {m : MainPc} (h : m.remoteRegistered = true) :
    m ≠ .remoteInit ∧ m ≠ .registerRemote ∧ m ≠ .remoteDeinit ∧ m.alive = true := by
  cases m <;> simp_all [MainPc.remoteRegistered, MainPc.alive]

/-- Nobody is waited for before `remote_deinit`. -/
theorem Tidy.joining_eq_false (hp : p.Tidy) (halive : p.zapper.main.alive = true)
    (hm : p.zapper.main ≠ .remoteDeinit) : p.joining = false := by
  by_contra hj
  exact hm (hp.joining (by simpa using hj) halive)

/-- What changes of the main thread do not matter to the remote controller. -/
theorem Tidy.of_registered (hp : p.Tidy) (hset : p'.callbackSet = p.callbackSet)
    (hremote : p'.remote = .notCreated ↔ p.remote = .notCreated)
    (hreturned : p'.remote = .exited .noError → p.rcThreadRunning = false)
    (hrun : p'.rcThreadRunning = p.rcThreadRunning) (hjoin : p'.joining = p.joining)
    (halive : p.zapper.main.alive = true)
    (hmain : p'.zapper.main = p.zapper.main ∨ p.zapper.main.remoteRegistered = true ∧
      (p'.zapper.main.alive = true → p'.zapper.main.remoteRegistered = true)) : p'.Tidy := by
  obtain hm | ⟨hm, hm'⟩ := hmain
  · exact ⟨by rw [hm, hset]; exact hp.callbackSet, by rw [hm, hremote]; exact hp.created,
      by rw [hm, hrun, hjoin]; exact hp.running, by rw [hm, hjoin]; exact hp.joining,
      by rw [hrun]; exact hreturned⟩
  · obtain ⟨hinit, -, hdeinit, -⟩ := remoteInit_of_registered hm
    have hnot := hp.joining_eq_false halive hdeinit
    refine ⟨fun ha => ?_, fun ha => ?_, fun _ _ => ?_, fun hj => ?_, by rw [hrun]; exact hreturned⟩
    · rw [hset, hp.callbackSet halive, hm, hm' ha]
    · rw [hremote, hp.created halive]
      simp [hinit, (remoteInit_of_registered (hm' ha)).1]
    · rw [hrun, hjoin]
      exact hp.running halive hinit
    · rw [hjoin, hnot] at hj
      cases hj

/-- **The remote controller follows the main thread** in every step. -/
theorem Tidy.step (hp : p.Tidy) (h : Process.step params p l = some p') : p'.Tidy := by
  obtain ⟨halive, -, hl⟩ := step_eq_some h
  obtain ⟨a, -, h⟩ | ⟨a, -, h⟩ | ⟨ev, -, h⟩ | ⟨d, -, h⟩ | ⟨k, s, -, hk, hs, rfl⟩ := hl
  · cases mainStep_moves hp h with
    | remoteInit s hm hs hp' =>
      have hn := main_of_mainStep hs
      have hnot := hp.joining_eq_false halive (by simp [hm])
      have hset : p.callbackSet = false := by rw [hp.callbackSet halive, hm]; rfl
      rw [hm] at hn
      simp only [Zapper.mainStep, hm] at hs
      subst hp'
      split at hs
      · next hfirst =>
        obtain rfl := Option.some.inj hs
        constructor <;> simp [MainPc.remoteRegistered, hset, hnot, hfirst]
      · next hfirst =>
        obtain rfl := Option.some.inj hs
        constructor <;> simp [MainPc.remoteRegistered, MainPc.alive, hnot, hfirst]
    | register s hm hs hp' =>
      have hrun := hp.running halive (by simp [hm])
      have hnot := hp.joining_eq_false halive (by simp [hm])
      have hcreated : p.remote ≠ .notCreated := fun hr => by
        cases hm.symm.trans ((hp.created halive).mp hr)
      simp only [Zapper.mainStep, hm] at hs
      obtain rfl := Option.some.inj hs
      subst hp'
      exact ⟨fun _ => rfl, by simp [hcreated], fun _ _ => hrun, by simp [hnot], hp.returned⟩
    | unregister s hm hs hp' =>
      have hrun := hp.running halive (by simp [hm])
      have hnot := hp.joining_eq_false halive (by simp [hm])
      have hcreated : p.remote ≠ .notCreated := fun hr => by
        cases hm.symm.trans ((hp.created halive).mp hr)
      simp only [Zapper.mainStep, hm] at hs
      obtain rfl := Option.some.inj hs
      subst hp'
      exact ⟨fun _ => rfl, by simp [hcreated], fun _ _ => hrun, by simp [hnot], hp.returned⟩
    | stop hm hj hp' =>
      subst hp'
      exact ⟨hp.callbackSet, hp.created, fun _ _ => rfl, fun _ _ => hm, fun _ => rfl⟩
    | join e s hm hj hr hs hp' =>
      -- the process has ended
      have hdead : s.main.alive = false := by
        have hn := main_of_mainStep hs
        rw [hm] at hn
        obtain hn | hn := hn <;> rw [hn] <;> rfl
      subst hp'
      exact ⟨by simp [hdead], by simp [hdead], by simp [hdead], by simp [hdead], hp.returned⟩
    | zapper s hm hs hp' =>
      have hregistered : p.zapper.main.remoteRegistered = true := by
        cases hm' : p.zapper.main <;> simp_all [MainPc.remoteRegistered, MainPc.alive]
      subst hp'
      exact hp.of_registered rfl Iff.rfl hp.returned rfl rfl halive (.inr ⟨hregistered,
        remoteRegistered_of_mainStep hs hregistered hm.2.2.1⟩)
  · have hmoves := remoteStep_moves h
    have hcreated := hmoves.created
    have hnext : p'.remote ≠ .notCreated := by
      rw [hmoves.remote]
      unfold next
      split <;> try split
      all_goals simp_all
    have hreturned : p'.remote = .exited .noError → p.rcThreadRunning = false := by
      rw [hmoves.remote]
      intro hr
      unfold next at hr
      split at hr
      · split at hr
        · cases hr
        · next hrun => simpa using hrun
      · split at hr <;> cases hr
      · split at hr <;> cases hr
      · cases hr
      · exact hp.returned hr
    have hmain : p'.zapper.main = p.zapper.main ∨
        p.zapper.main = .running ∧ p'.zapper.main = .graphicsDeinit := by
      obtain ⟨ev, -, hs⟩ | ⟨-, hs⟩ := hmoves.zapper
      · exact (serve_frame hs).main
      · exact .inl (by rw [hs])
    have hregistered : p'.zapper.main = p.zapper.main ∨
        p.zapper.main.remoteRegistered = true ∧
          (p'.zapper.main.alive = true → p'.zapper.main.remoteRegistered = true) := by
      obtain hm | ⟨hm, hm'⟩ := hmain
      · exact .inl hm
      · exact .inr ⟨by rw [hm]; rfl, fun _ => by rw [hm']; rfl⟩
    refine hp.of_registered ?_ (by simp [hcreated, hnext]) hreturned ?_ ?_ halive hregistered
    all_goals rw [hmoves.rest]
  · obtain ⟨hr, ⟨e, -, rfl⟩ | ⟨-, rfl⟩⟩ := readStep_eq_some h
    · exact hp.of_registered rfl (by simp [hr]) (by simp) rfl rfl halive (.inl rfl)
    · exact hp.of_registered rfl (by simp [hr]) (by simp) rfl rfl halive (.inl rfl)
  · obtain ⟨-, rfl⟩ := hangStep_eq_some h
    exact hp.of_registered rfl Iff.rfl hp.returned rfl rfl halive (.inl rfl)
  · refine hp.of_registered rfl Iff.rfl hp.returned rfl rfl halive ?_
    obtain hm | ⟨q, hm, hm'⟩ := main_of_other hk hs
    · exact .inl hm
    · refine .inr ⟨by rw [hm]; rfl, fun _ => ?_⟩
      obtain ⟨q', hm'⟩ | hm' := hm' <;> simp only [hm'] <;> rfl

/-! ### Calls and the unregistration -/

/-- The step unregisters the callback while it is about to be called, or runs. -/
def interrupts (p : Process) : Label → Bool
  | .main _ => decide (p.zapper.main = .unregisterRemote) && p.remote.calling
  | _ => false

/-- While no callback is registered, none is about to be called, and none runs. -/
def Withdrawn (p : Process) : Prop := p.callbackSet = false → p.remote.calling = false

/-- A call begins while the callback is registered. -/
theorem calling_of_remoteStep (h : remoteStep a p = some p') (hc : p'.remote.calling = true) :
    p.callbackSet = true := by
  have hmoves := remoteStep_moves h
  rw [hmoves.remote] at hc
  cases hset : p.callbackSet with
  | true => rfl
  | false =>
    cases hr : p.remote with
    | head =>
      simp only [hr, next] at hc
      split at hc <;> cases hc
    | test ev | call ev | inCallback ev => simp [hr, next, hset, RemotePc.calling] at hc
    | notCreated | reading | exited e | crashed => simp [hr, next, RemotePc.calling] at hc

/-- **The callback is withdrawn safely** in a step, unless it unregisters the callback in the middle
of a call. -/
theorem withdrawn_of_step (hp : p.Tidy) (hw : p.Withdrawn) (h : step params p l = some p') :
    p'.Withdrawn ↔ p.interrupts l = false := by
  obtain ⟨halive, -, hl⟩ := step_eq_some h
  obtain ⟨a, rfl, hact⟩ | ⟨a, rfl, hact⟩ | ⟨ev, rfl, hact⟩ | ⟨d, rfl, hact⟩ |
    ⟨k, s, rfl, hk, -, rfl⟩ := hl
  · have hnot : p.zapper.main ≠ .unregisterRemote → p.interrupts (.main a) = false := fun hm => by
      simp [interrupts, hm]
    cases mainStep_moves hp hact with
    | remoteInit s hm hs hp' =>
      subst hp'
      rw [hnot (by simp [hm])]
      refine iff_of_true (fun _ => ?_) rfl
      dsimp only
      split <;> rfl
    | register s hm hs hp' =>
      subst hp'
      rw [hnot (by simp [hm])]
      exact iff_of_true (fun hset => by cases hset) rfl
    | unregister s hm hs hp' =>
      subst hp'
      simp [Withdrawn, interrupts, hm]
    | stop hm hj hp' =>
      subst hp'
      rw [hnot (by simp [hm])]
      exact iff_of_true hw rfl
    | join e s hm hj hr hs hp' =>
      subst hp'
      rw [hnot (by simp [hm])]
      exact iff_of_true hw rfl
    | zapper s hm hs hp' =>
      subst hp'
      rw [hnot hm.2.2.1]
      exact iff_of_true hw rfl
  · refine iff_of_true (fun hset => ?_) rfl
    have hsame : p'.callbackSet = p.callbackSet := by rw [(remoteStep_moves hact).rest]
    by_contra hc
    rw [Bool.not_eq_false] at hc
    rw [hsame, calling_of_remoteStep hact hc] at hset
    cases hset
  · obtain ⟨-, ⟨e, -, rfl⟩ | ⟨-, rfl⟩⟩ := readStep_eq_some hact
    · exact iff_of_true (fun _ => rfl) rfl
    · exact iff_of_true (fun _ => rfl) rfl
  · obtain ⟨-, rfl⟩ := hangStep_eq_some hact
    exact iff_of_true hw rfl
  · exact iff_of_true hw rfl

/-- **No call through `NULL` and no late call**: throughout a run, no callback is about to be called
and none runs while none is registered, exactly when the callback is never unregistered in the
middle of a call. -/
theorem withdrawn_iff (params : ConfigParams) (ls : List Label) :
    Always (step params) Withdrawn powerOn ls ↔
      Meets (step params) (fun p l => p.interrupts l = false) powerOn ls :=
  always_iff_meets (I := Tidy) tidy_powerOn (fun _ => rfl) (fun _ _ _ hp h => hp.step h)
    fun _ _ _ hp hw h => withdrawn_of_step hp hw h

/-! ### Runs of the zapper -/

/-- What the zapper sees of a step. -/
def visible (p : Process) : Label → List Zapper.Label
  | .main a =>
    match p.zapper.main, p.remote with
    | .remoteDeinit, .exited e =>
      if p.joining then [.main { a with first := a.first && decide (e = .noError) }] else []
    | .remoteDeinit, _ => []
    | _, _ => [.main a]
  | .remote a =>
    match p.remote with
    | .inCallback ev => [.input ev.code ev.value a]
    | _ => []
  | .read _ => []
  | .hang _ => []
  | .actor k => [k]

/-- What the zapper sees of a run. -/
def trace (params : ConfigParams) : Process → List Label → List Zapper.Label
  | _, [] => []
  | p, l :: ls =>
    match step params p l with
    | some p' => p.visible l ++ trace params p' ls
    | none => []

theorem exec_singleton {s s' : State} {k : Zapper.Label} (h : Zapper.step params s k = some s') :
    exec (Zapper.step params) s [k] = some s' := by
  rw [exec, h]
  rfl

theorem zapperStep_of_mainStep {s s' : State} (halive : s.main.alive = true)
    (h : Zapper.mainStep params a s = some s') : Zapper.step params s (.main a) = some s' := by
  rw [Zapper.step, if_pos halive]
  exact h

/-- A step of the process is what the zapper sees of it. -/
theorem exec_visible (hp : p.Tidy) (hw : p.Withdrawn) (h : step params p l = some p') :
    exec (Zapper.step params) p.zapper (p.visible l) = some p'.zapper := by
  obtain ⟨halive, -, hl⟩ := step_eq_some h
  obtain ⟨a, rfl, hact⟩ | ⟨a, rfl, hact⟩ | ⟨ev, rfl, hact⟩ | ⟨d, rfl, hact⟩ |
    ⟨k, s, rfl, hk, hs, rfl⟩ := hl
  · have hone : p.zapper.main ≠ .remoteDeinit → p.visible (.main a) = [.main a] := fun hm => by
      simp only [visible]
      split
      · next hm' _ => exact absurd hm' hm
      · next hm' _ => exact absurd hm' hm
      · rfl
    cases mainStep_moves hp hact with
    | remoteInit s hm hs hp' | register s hm hs hp' | unregister s hm hs hp' =>
      subst hp'
      rw [hone (by simp [hm])]
      exact exec_singleton (zapperStep_of_mainStep halive hs)
    | stop hm hj hp' =>
      subst hp'
      have hnone : p.visible (.main a) = [] := by
        simp only [visible, hm]
        split <;> simp_all
      rw [hnone]
      rfl
    | join e s hm hj hr hs hp' =>
      subst hp'
      simp only [visible, hm, hr, hj, if_true]
      exact exec_singleton (zapperStep_of_mainStep halive hs)
    | zapper s hm hs hp' =>
      subst hp'
      rw [hone hm.2.2.2]
      exact exec_singleton (zapperStep_of_mainStep halive hs)
  · have hmoves := remoteStep_moves hact
    obtain ⟨ev, hr, hs⟩ | ⟨hr, hs⟩ := hmoves.zapper
    · -- the callback is registered: the event is one of the zapper's
      have hset : p.callbackSet = true := by
        by_contra hset
        have hc := hw (by simpa using hset)
        rw [hr] at hc
        cases hc
      rw [hp.callbackSet halive] at hset
      have hevent : Zapper.step params p.zapper (.input ev.code ev.value a) = some p'.zapper := by
        rw [Zapper.step, if_pos halive]
        exact (callback_of_serve hset).trans hs
      rw [visible, hr]
      exact exec_singleton hevent
    · have hnone : p.visible (.remote a) = [] := by
        simp only [visible]
      rw [hnone, hs]
      rfl
  · obtain ⟨-, ⟨e, -, rfl⟩ | ⟨-, rfl⟩⟩ := readStep_eq_some hact <;> rfl
  · obtain ⟨-, rfl⟩ := hangStep_eq_some hact
    rfl
  · exact exec_singleton hs

/-- **A run of the process is a run of the zapper**, with the events served as its key events, as
long as the callback is not unregistered in the middle of a call. -/
theorem exec_zapper {ls : List Label} (hp : p.Tidy) (hw : p.Withdrawn)
    (hquiet : Meets (step params) (fun p l => p.interrupts l = false) p ls)
    (h : exec (step params) p ls = some p') :
    exec (Zapper.step params) p.zapper (trace params p ls) = some p'.zapper := by
  induction ls generalizing p with
  | nil =>
    obtain rfl : p = p' := by simpa [exec] using h
    rfl
  | cons l ls ih =>
    obtain ⟨q, hq, hexec⟩ := Option.bind_eq_some_iff.mp h
    obtain ⟨hl, hls⟩ := hquiet q hq
    simp only [trace, hq]
    rw [exec_append, exec_visible hp hw hq]
    exact ih (hp.step hq) ((withdrawn_of_step hp hw hq).mpr hl) hls hexec

/-- A key that is pressed while the zapper starts. -/
def earlyVolume : List Label :=
  [.main (.ok 1), .main (.ok 1), .remote (.ok 1), .read (some ⟨63, 1⟩), .remote (.ok 1),
    .remote (.ok 1), .remote (.ok 1)]

theorem exec_zapper_earlyVolume : ∃ s, exec (Zapper.step (configIni 1)) .powerOn
    (trace (configIni 1) powerOn earlyVolume) = some s ∧ s.volumeLvl = 6 := by
  have hrun : (exec (step (configIni 1)) powerOn earlyVolume).map (fun p => p.zapper.volumeLvl) =
      some 6 := by decide +kernel
  obtain ⟨p, hp, hvolume⟩ := Option.map_eq_some_iff.mp hrun
  exact ⟨p.zapper, exec_zapper tidy_powerOn (fun _ => rfl) (by decide +kernel) hp, hvolume⟩

/-! ### Events -/

/-- The events read and the events served, in order. -/
structure Events where
  read : List InputEvent
  served : List InputEvent

/-- The event a step reads. -/
def reads : Label → List InputEvent
  | .read (some ev) => [ev]
  | _ => []

/-- The event a step serves. -/
def serves (p : Process) : Label → List InputEvent
  | .remote _ =>
    match p.remote with
    | .inCallback ev => [ev]
    | _ => []
  | _ => []

/-- The process with the events of its run. -/
def eventStep (params : ConfigParams) : Process × Events → Label → Option (Process × Events) :=
  withHistory (step params) fun p l _ es => ⟨es.read ++ reads l, es.served ++ p.serves l⟩

/-- The step drops the event that has been read: no callback is registered. -/
def drops (p : Process) : Label → Bool
  | .remote _ =>
    match p.remote with
    | .test _ => !p.callbackSet
    | .call _ => !p.callbackSet
    | _ => false
  | _ => false

/-- What becomes of the event that has been read, and of the event that is read, in a step. -/
theorem pending_of_step (hp : p.Tidy) (h : step params p l = some p') :
    p.serves l ++ p'.remote.pending =
      (if p.drops l then [] else p.remote.pending) ++ reads l := by
  obtain ⟨halive, -, hl⟩ := step_eq_some h
  obtain ⟨a, rfl, hact⟩ | ⟨a, rfl, hact⟩ | ⟨ev, rfl, hact⟩ | ⟨d, rfl, hact⟩ |
    ⟨k, s, rfl, -, -, rfl⟩ := hl
  · cases mainStep_moves hp hact with
    | remoteInit s hm hs hp' =>
      have hr := (hp.created halive).mpr hm
      subst hp'
      cases a.first <;> simp [serves, drops, reads, hr, RemotePc.pending]
    | register _ _ _ hp' | unregister _ _ _ hp' | stop _ _ hp' | join _ _ _ _ _ _ hp'
    | zapper _ _ _ hp' =>
      subst hp'
      simp [serves, drops, reads]
  · have hmoves := remoteStep_moves hact
    rw [hmoves.remote]
    cases hr : p.remote with
    | head =>
      simp only [serves, drops, reads, hr, next]
      split <;> rfl
    | test ev | call ev =>
      simp only [serves, drops, reads, hr, next]
      cases p.callbackSet <;> rfl
    | _ => simp [serves, drops, reads, hr, next, RemotePc.pending]
  · obtain ⟨hr, ⟨e, rfl, rfl⟩ | ⟨rfl, rfl⟩⟩ := readStep_eq_some hact
    · simp [serves, drops, reads, hr, RemotePc.pending]
    · simp [serves, drops, reads, hr, RemotePc.pending]
  · obtain ⟨-, rfl⟩ := hangStep_eq_some hact
    simp [serves, drops, reads]
  · simp [serves, drops, reads]

/-- **Every event is served once, and in order**: what has been served, and the event in between,
come in this order among the events read; they are all of these exactly as long as a callback was
registered whenever an event had been read. -/
theorem served_iff (params : ConfigParams) (ls : List Label) :
    Always (eventStep params) (fun x => (x.2.served ++ x.1.remote.pending).Sublist x.2.read)
        (powerOn, ⟨[], []⟩) ls ∧
      (Always (eventStep params) (fun x => x.2.read = x.2.served ++ x.1.remote.pending)
          (powerOn, ⟨[], []⟩) ls ↔
        Meets (eventStep params) (fun x l => x.1.drops l = false) (powerOn, ⟨[], []⟩) ls) := by
  have htidy : ∀ (x : Process × Events) l y, x.1.Tidy → eventStep params x l = some y → y.1.Tidy :=
    fun x l y hx h => hx.step (withHistory_eq_some.mp h).1
  constructor
  · refine (always_of_step (P := fun x => x.1.Tidy ∧
      (x.2.served ++ x.1.remote.pending).Sublist x.2.read) ⟨tidy_powerOn, List.Sublist.refl _⟩
        meets_true fun x l y ⟨hx, hsub⟩ _ h => ⟨htidy x l y hx h, ?_⟩).mono fun x hx => hx.2
    obtain ⟨hstep, hes⟩ := withHistory_eq_some.mp h
    rw [hes, List.append_assoc, pending_of_step hx hstep, ← List.append_assoc]
    refine List.Sublist.append ?_ (List.Sublist.refl _)
    split
    · exact (List.sublist_append_left _ _).trans (by simpa using hsub)
    · exact hsub
  · refine always_iff_meets (I := fun x => x.1.Tidy) tidy_powerOn rfl htidy
      fun x l y hx hall h => ?_
    obtain ⟨hstep, hes⟩ := withHistory_eq_some.mp h
    rw [hes, List.append_assoc, pending_of_step hx hstep, ← List.append_assoc, hall,
      List.append_left_inj]
    cases hd : x.1.drops l with
    | false => simp
    | true =>
      have hpending : x.1.remote.pending ≠ [] := by
        intro hnil
        unfold drops at hd
        split at hd
        · split at hd
          · next hr => rw [hr] at hnil; cases hnil
          · next hr => rw [hr] at hnil; cases hnil
          · cases hd
        · cases hd
      simpa using hpending

end Process

end Zapper
