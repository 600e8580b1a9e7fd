import Zapper.Stream.Checks

/-!
# The two mutexes

`stream_init` and `stream_loop` have exits in the middle of their critical sections: the time-out
of the tuner wait returns with `status_mutex`, and a failed call in a switch block returns, inside
a macro, with `stream_params_mutex`. Nobody releases a mutex that a function has kept, so that the
callbacks, or the keys that ask for a program, wait for ever from then on.

Which check fails is decided by the global `error`, that is by the last call that has been made when
the check reads it: the call of the thread itself, or one of `set_volume` in between. Where a call
and its check are two steps, a run keeps both mutexes free behind the two functions exactly when the
tuner reports its lock in time and every check of `stream_loop` reads `NO_ERROR` (`locksFree_iff`).
-/

namespace Zapper

open Transition

variable {params : ConfigParams} {a : Answer} {s s' : State} {l : Label}

/-! ### Calls of the stream thread -/

/-- The call that is made at a place of a switch block. -/
def switchCall (params : ConfigParams) (a : Answer) (s : State) :
    SwitchPc → Option (TError × Player)
  | .removeAudio => some (s.player.removeAudio a)
  | .removeVideo => some (s.player.removeVideo a)
  | .freeFilter => some (s.player.freeFilter a)
  | .setFilter => some (s.player.setFilter a s.selected.tableId Table.pmt.tableId)
  | .createVideo => some (s.player.createVideo a s.selected.videoPid params.videoType)
  | .createAudio => some (s.player.createAudio a s.selected.audioPid params.audioType)
  | _ => none

/-- The call that a step of the stream thread makes, if it makes one, succeeds. -/
def CallSucceeds (params : ConfigParams) (s : State) : Label → Prop
  | .loop a =>
    match s.loop with
    | .switch _ p => ∀ r ∈ switchCall params a s p, r.1 = .noError
    | _ => True
  | _ => True

instance (params : ConfigParams) (s : State) : ∀ l, Decidable (CallSucceeds params s l)
  | .loop a =>
    match h : s.loop with
    | .switch _ p => decidable_of_iff (∀ r ∈ switchCall params a s p, r.1 = .noError)
        (by simp [CallSucceeds, h])
    | .notCreated => isTrue (by simp [CallSucceeds, h])
    | .head => isTrue (by simp [CallSucceeds, h])
    | .test _ => isTrue (by simp [CallSucceeds, h])
    | .info => isTrue (by simp [CallSucceeds, h])
    | .list => isTrue (by simp [CallSucceeds, h])
    | .exited _ => isTrue (by simp [CallSucceeds, h])
  | .main _ => isTrue trivial
  | .input _ _ _ => isTrue trivial
  | .deliver _ => isTrue trivial
  | .signal => isTrue trivial
  | .tuner _ => isTrue trivial
  | .timeout => isTrue trivial
  | .expire => isTrue trivial
  | .handler _ => isTrue trivial

/-- A switch block is left before its end by a failed call only. -/
theorem exited_of_switchStep {c : Command} {p : SwitchPc}
    (h : switchStep params a c s p = some s') :
    s'.loop = .exited .error ↔ ∃ r ∈ switchCall params a s p, r.1 = .error := by
  have hcall : ∀ {r : TError × Player} {pc : LoopPc}, pc ≠ .exited .error →
      some (s.loopAssert r pc) = some s' → (s'.loop = .exited .error ↔ r.1 = .error) := by
    intro r pc hpc h
    obtain rfl := Option.some.inj h
    obtain ⟨hr, he⟩ | ⟨hr, he⟩ := s.loopAssert_cases r pc <;> simp [he, hr, hpc]
  cases p with
  | removeAudio | removeVideo | freeFilter | setFilter | createVideo | createAudio =>
    simpa [switchCall] using hcall (by simp) h
  | waiting => cases h
  | clear =>
    obtain rfl := Option.some.inj h
    cases c <;> simp [switchCall, Command.following]
  | wait | announce =>
    simp only [switchStep] at h
    split at h <;> cases h <;> simp [switchCall]
  | _ =>
    obtain rfl := Option.some.inj h
    simp [switchCall]

/-- **The stream thread gives up** in a step whose call fails, and in no other. -/
theorem gaveUp_of_step (hs : s.Coherent) (h : step params s l = some s') :
    s'.loop = .exited .error ↔ s.loop = .exited .error ∨ ¬ CallSucceeds params s l := by
  by_cases hl : ∃ a, l = .loop a
  · obtain ⟨a, rfl⟩ := hl
    have hact : loopStep params a s = some s' := act_of_step h
    have hne := not_exited_of_loopStep hact .error
    simp only [hne, false_or, CallSucceeds]
    split
    · next c p hl =>
      rw [exited_of_switchStep (by simpa [loopStep, hl] using hact)]
      push Not
      refine exists_congr fun r => and_congr_right fun _ => ?_
      cases r.1 <;> simp
    · next hout =>
      obtain ⟨c, -, -, hl', -⟩ | ⟨c, hl', -⟩ | ⟨c, p, p', hl', -⟩ | ⟨c, hl', -⟩ | ⟨c, p, hl', -⟩ |
        ⟨-, -, hne', -⟩ := loopStep_commands hact
      · simp [hl']
      · exact absurd hl' (hout _ _)
      · exact absurd hl' (hout _ _)
      · exact absurd hl' (hout _ _)
      · exact absurd hl' (hout _ _)
      · simp [hne']
  · have hcall : CallSucceeds params s l := by
      cases l with
      | loop a => exact absurd ⟨a, rfl⟩ hl
      | _ => trivial
    simp only [hcall, not_true_eq_false, or_false]
    obtain ⟨a, rfl, -⟩ | hl' | ⟨a, -, hm, -, hl'⟩ | ⟨c, hl', hl''⟩ := loop_of_step h
    · exact absurd ⟨a, rfl⟩ hl
    · rw [hl']
    · simp [hl', hs.notCreated (by rw [hm])]
    · simp [hl', hl'']

/-! ### Mutexes behind the functions -/

/-- `stream_init` has returned. -/
def State.LeftInit (s : State) : Prop := s.Past (.init (.announcing 0 false))

/-- No mutex is kept by a function that has been left, and whoever needs one can take it. -/
structure LocksFree (s : State) : Prop where
  status : s.LeftInit → s.statusMutex = false
  params : ∀ e, s.loop = .exited e → s.loop.holdsParams = false
  /-- The calls that a key makes. -/
  press : ∀ e a key, s.loop = .exited e → (press a s key).isSome = true
  /-- The end of `filter_callback`. -/
  filter : s.LeftInit → s.inCallback = true → (signalStep s).isSome = true
  /-- `tuner_status_callback`. -/
  tuner : s.LeftInit → s.tuning = true → ∀ status, (tunerStep status s).isSome = true

theorem locksFree_iff_status :
    LocksFree s ↔ (s.LeftInit → s.statusMutex = false) ∧ s.loop ≠ .exited .error := by
  constructor
  · intro h
    refine ⟨h.status, fun hl => ?_⟩
    have hheld := h.params .error hl
    rw [hl] at hheld
    cases hheld
  · rintro ⟨hstatus, hne⟩
    have hfree : ∀ e, s.loop = .exited e → s.loop.holdsParams = false := by
      intro e hl
      rw [hl]
      cases e with
      | error => exact absurd hl hne
      | noError => rfl
    refine ⟨hstatus, hfree, fun e a key hl => ?_, fun hp hc => ?_, fun hp ht status => ?_⟩
    · cases key <;> simp [Zapper.press, hfree e hl]
    · simp [signalStep, hc, hstatus hp]
    · cases status <;> simp [tunerStep, ht, hstatus hp]

/-- **`status_mutex` is kept** by the time-out of the tuner wait, and by nothing else. -/
theorem statusMutex_of_step (h : step params s l = some s') :
    (l = .timeout ∧ s'.statusMutex = true ∧ s'.main = .deinit .stop) ∨
      l ≠ .timeout ∧ s'.statusMutex = s.statusMutex := by
  have hact := act_of_step h
  cases l with
  | main a => exact .inr ⟨by simp, (mainStep_frame hact).statusMutex⟩
  | loop a => exact .inr ⟨by simp, (loopStep_frame hact).statusMutex⟩
  | input code value a => exact .inr ⟨by simp, (callback_frame hact).statusMutex⟩
  | timeout =>
    obtain ⟨-, rfl⟩ := timeoutStep_eq_some hact
    exact .inl ⟨rfl, rfl, rfl⟩
  | handler i => exact .inr ⟨by simp, (handlerStep_frame hact).statusMutex⟩
  | _ => exact .inr ⟨by simp, (event_frame h rfl).statusMutex (by simp)⟩

/-! ### The mutexes over runs of calls and checks -/

/-- A step of the stream thread that makes no call does not give up. -/
theorem not_exited_of_loopCall (hcall : loopCall params a s = none)
    (h : loopStep params a s = some s') : s'.loop ≠ .exited .error := by
  intro hexited
  obtain hl | ⟨c, p, hl⟩ : (∀ c p, s.loop ≠ .switch c p) ∨ ∃ c p, s.loop = .switch c p := by
    by_cases hl : ∃ c p, s.loop = .switch c p
    · exact .inr hl
    · exact .inl fun c p hcp => hl ⟨c, p, hcp⟩
  · obtain ⟨c, -, -, hs', -⟩ | ⟨c, hl', -⟩ | ⟨c, p, p', hl', -⟩ | ⟨c, hl', -⟩ | ⟨c, p, hl', -⟩ |
      ⟨-, -, hne, -⟩ := loopStep_commands h
    · rw [hs'] at hexited
      cases hexited
    · exact hl _ _ hl'
    · exact hl _ _ hl'
    · exact hl _ _ hl'
    · exact hl _ _ hl'
    · exact hne hexited
  · obtain ⟨r, hr, herror⟩ := (exited_of_switchStep (by simpa [loopStep, hl] using h)).mp hexited
    -- a call that is left out because there is nothing to remove, or to create, returns `NO_ERROR`
    cases p with
    | removeAudio =>
      obtain rfl := Option.some.inj hr
      by_cases hon : s.player.status.audioOn = true
      · simp [loopCall, hl, hon] at hcall
      · simp [Player.removeAudio, hon] at herror
    | removeVideo =>
      obtain rfl := Option.some.inj hr
      by_cases hon : s.player.status.videoOn = true
      · simp [loopCall, hl, hon] at hcall
      · simp [Player.removeVideo, hon] at herror
    | createVideo =>
      obtain rfl := Option.some.inj hr
      by_cases hpid : s.selected.videoPid = noPid
      · simp [Player.createVideo, hpid] at herror
      · simp [loopCall, hl, hpid] at hcall
    | createAudio =>
      obtain rfl := Option.some.inj hr
      by_cases hpid : s.selected.audioPid = noPid
      · simp [Player.createAudio, hpid] at herror
      · simp [loopCall, hl, hpid] at hcall
    | freeFilter | setFilter => simp [loopCall, hl] at hcall
    | _ => cases hr

/-- The stream thread gives up at a call only. -/
theorem not_exited_of_step (hne : s.loop ≠ .exited .error)
    (hcall : ∀ a, l = .loop a → loopCall params a s = none) (h : step params s l = some s') :
    s'.loop ≠ .exited .error := by
  obtain ⟨a, rfl, hstep⟩ | hl | ⟨a, -, -, -, hl⟩ | ⟨c, -, hl⟩ := loop_of_step h
  · exact not_exited_of_loopCall (hcall a rfl) hstep
  · rwa [hl]
  · simp [hl]
  · simp [hl]

/-- The stream thread gives up when the check does not read `NO_ERROR`. -/
theorem State.loopCheck_exited {e : TError} (hne : s.loop ≠ .exited .error) :
    (s.loopCheck e).loop ≠ .exited .error ↔ e = .noError := by
  cases e with
  | error => simp [loopCheck]
  | noError =>
    simp only [loopCheck, iff_true]
    cases hl : s.loop with
    | switch c p =>
      by_cases hp : p = .clear
      · subst hp
        cases c <;> simp [LoopPc.next, SwitchPc.next, Command.following]
      · obtain ⟨p', hp', -⟩ := p.next_of_ne_clear s c hp
        simp [LoopPc.next, hp']
    | _ =>
      have houtside : s.loop.Outside := by simp [LoopPc.Outside, hl]
      obtain ⟨c, -, -, hnext⟩ | ⟨-, hnext⟩ := LoopPc.next_of_outside (s := s) houtside
      · simp [← hl, hnext]
      · exact hl ▸ hnext hne

/-- The condition on a step: the tuner wait does not time out, and a check of `stream_loop` reads
`NO_ERROR`. -/
def KeepsLocksFree (x : ErrorState) : Label → Prop
  | .timeout => False
  | .loop _ => x.loopDue ≠ none → x.error = .noError
  | _ => True

/-- **The mutexes are free behind `stream_init` and `stream_loop` throughout a run exactly when
the tuner wait does not time out, and every check of a switch reads `NO_ERROR`.** -/
theorem locksFree_iff (params : ConfigParams) (ls : List Label) :
    Always (ErrorState.step params) (fun x => LocksFree x.zapper) .powerOn ls ↔
      Meets (ErrorState.step params) KeepsLocksFree .powerOn ls := by
  -- `status_mutex` is only kept by a `stream_init` that has returned
  refine always_iff_meets
    (I := fun x : ErrorState => x.zapper.statusMutex = true → x.zapper.LeftInit)
    (by simp [ErrorState.powerOn, State.powerOn])
    (locksFree_iff_status.mpr ⟨fun _ => rfl, by simp [ErrorState.powerOn, State.powerOn]⟩)
    (fun x l y hx h hm => ?_) fun x l y hx hfree h => ?_
  · cases ErrorState.step_moves h with
    | mainCheck a e hdue =>
      have hmutex := (x.zapper.mainCheck_frame x.error).1.statusMutex
      exact lt_of_lt_of_le (hx (hmutex ▸ hm))
        (State.stage_le_mainCheck (ErrorState.alive_of_step h) _)
    | mainCall a r hdue hcall =>
      obtain ⟨hmain, -, hmutex⟩ := x.zapper.mainCalled_frame r
      rw [State.LeftInit, State.Past, hmain]
      exact hx (hmutex ▸ hm)
    | loopCheck a e hdue =>
      obtain ⟨hframe, hmain⟩ := x.zapper.loopCheck_frame x.error
      rw [State.LeftInit, State.Past, hmain]
      exact hx (hframe.statusMutex ▸ hm)
    | loopCall a r hdue hcall => exact hx hm
    | zapper l s e hstep hchecks hloop hmain =>
      obtain ⟨-, -, hmain⟩ | ⟨-, hsame⟩ := statusMutex_of_step hstep
      · rw [State.LeftInit, State.Past, hmain]
        decide
      · exact State.Past.step (hx (hsame ▸ hm)) hstep
  · obtain ⟨hstatus, hne⟩ := locksFree_iff_status.mp hfree
    have hunlocked : x.zapper.statusMutex = false := by
      by_contra hm
      exact hm (hstatus (hx (by simpa using hm)))
    rw [locksFree_iff_status]
    cases ErrorState.step_moves h with
    | mainCheck a e hdue =>
      obtain ⟨hframe, hloop⟩ := x.zapper.mainCheck_frame x.error
      simp [KeepsLocksFree, hframe.statusMutex, hloop, hunlocked, hne]
    | mainCall a r hdue hcall =>
      obtain ⟨-, hloop, hmutex⟩ := x.zapper.mainCalled_frame r
      simp [KeepsLocksFree, hmutex, hloop, hunlocked, hne]
    | loopCheck a e hdue =>
      obtain ⟨hframe, -⟩ := x.zapper.loopCheck_frame x.error
      simp [KeepsLocksFree, hframe.statusMutex, hunlocked, hdue, State.loopCheck_exited hne]
    | loopCall a r hdue hcall =>
      simp [KeepsLocksFree, hdue, State.called, hunlocked, hne]
    | zapper l s e hstep hchecks hloop hmain =>
      obtain ⟨rfl, hm, hmain⟩ | ⟨hl, hsame⟩ := statusMutex_of_step hstep
      · have hleft : s.LeftInit := by
          rw [State.LeftInit, State.Past, hmain]
          decide
        simp [KeepsLocksFree, hm, hleft]
      · have hkeeps : KeepsLocksFree x l := by
          cases l with
          | timeout => exact absurd rfl hl
          | loop a =>
            refine fun hdue => absurd ?_ hdue
            simpa [ErrorState.checks] using hchecks
          | _ => trivial
        simp only [hkeeps, iff_true]
        exact ⟨fun _ => hsame.trans hunlocked, not_exited_of_step hne hloop hstep⟩

/-- The tuner does not report its lock in time. -/
theorem not_forall_always_locksFree : ¬ ∀ (params : ConfigParams) (ls : List Label),
    Always (ErrorState.step params) (fun x => LocksFree x.zapper) .powerOn ls := by
  intro h
  have hrun : (exec (ErrorState.step (configIni 1)) .powerOn
      (List.replicate 11 (Label.main (.ok 1)) ++ [.timeout])).map
        (fun x => (x.zapper.main, x.zapper.statusMutex)) = some (.deinit .stop, true) := by
    decide +kernel
  obtain ⟨x, hx, hobs⟩ := (h (configIni 1) _).observe hrun
  simp only [Prod.mk.injEq] at hobs
  obtain ⟨hmain, hlocked⟩ := hobs
  have hfree := hx.status (by rw [State.LeftInit, State.Past, hmain]; decide)
  rw [hlocked] at hfree
  cases hfree

end Zapper
