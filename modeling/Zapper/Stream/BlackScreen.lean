import Zapper.Stream.Drawing
import Zapper.Stream.Locks
import Zapper.Stream.Screen

/-!
# The black screen of a switch

A switch starts with `print_black_screen`, which sets `wait`, and every announcement of a program
clears it: the switch's own, for a radio program, and for a TV program that of the handler which
the program change timer starts. The timer is one for all switches. A handler that an older switch
has left behind can disarm what a newer one has armed, but then it has still to make its own
announcement, so that the screen does not stay black for ever (`neverStuck`). But its
announcement comes at any time, and the screen does not stay black for as long as it should:
`staysBlack_iff` says in which runs it does.
-/

namespace Zapper

open Transition

variable {params : ConfigParams} {a : Answer} {s s' : State} {l : Label}

/-! ### What a step does to the flag -/

/-- `render_fnp.wait`. -/
def State.black (s : State) : Bool := s.graphics.renderFnp.wait

/-- A step clears the flag by an announcement: the number and the kind do not matter. -/
def clears (s : State) : Label → Bool
  | .main _ => s.main.announces.isSome
  | .loop _ =>
    match s.loop with
    | .switch _ .announce => s.radio
    | _ => false
  | .input code value _ =>
    match Key.ofEvent code value with
    | some (.digit program) => program = s.prCounter
    | _ => false
  | .handler i => ((s.timer.handlers[i]?).bind HandlerPc.announces).isSome
  | _ => false

/-- A step starts a switch. -/
def blackens (s : State) : Label → Bool
  | .loop _ =>
    match s.loop with
    | .switch _ .bgd => true
    | _ => false
  | _ => false

/-- The announcement at the end of `stream_init` clears the flag. -/
private theorem wait_of_announces (h : mainStep params a s = some s')
    (hm : s.main.announces.isSome = true) : s'.graphics.renderFnp.wait = false := by
  cases hp : s.main with
  | init p =>
    cases p with
    | announcing progNum radio =>
      simp only [mainStep, hp, initStep] at h
      split at h <;> obtain rfl := Option.some.inj h <;> rfl
    | _ => simp [hp, MainPc.announces] at hm
  | _ => simp [hp, MainPc.announces] at hm

/-- **What a step does to the flag.** -/
theorem black_of_step (h : step params s l = some s') :
    s'.black = if clears s l then false else if blackens s l then true else s.black := by
  have hact := act_of_step h
  unfold State.black
  cases l with
  | main a =>
    have hblackens : blackens s (.main a) = false := rfl
    rw [hblackens, clears, if_neg Bool.false_ne_true]
    by_cases hm : s.main.announces.isSome = true
    · rw [if_pos hm]
      exact wait_of_announces hact hm
    · rw [if_neg hm]
      obtain hg | ⟨progNum, radio, hp, -⟩ := graphics_of_mainStep hact
      · rw [hg]
      · rw [hp] at hm
        exact absurd rfl hm
  | loop a =>
    cases loopStep_draws hact with
    | black c hl hg => simp [clears, blackens, hl, hg, Graphics.printBlackScreen]
    | number c hl hradio hg => simp [clears, hl, hradio, hg, Graphics.printProgNum]
    | info hl hg => simp [clears, blackens, hl, hg, Graphics.printInfoBanner]
    | list hl _ hg => simp [clears, blackens, hl, hg, Graphics.printProgList]
    | nothing hblack hnumber _ hg =>
      have hclears : clears s (.loop a) = false := by
        simp only [clears]
        split
        · next c hl => exact hnumber c hl
        · rfl
      have hblackens : blackens s (.loop a) = false := by simp only [blackens]
      rw [hclears, hblackens, hg]
      rfl
  | input code value a =>
    obtain ⟨key, hkey, hpress⟩ | ⟨hkey, rfl⟩ := callback_cases hact
    · have hblackens : blackens s (.input code value a) = false := rfl
      rw [hblackens, if_neg Bool.false_ne_true]
      cases press_draws hpress with
      | number hk hg => simp [clears, hkey, hk, hg, Graphics.printProgNum]
      | volume v hk hg =>
        have hclears : clears s (.input code value a) = false := by
          simp only [clears, hkey]
          split
          · next program hk' => exact absurd (Option.some.inj hk') (hk program)
          · rfl
        rw [hclears, hg]
        rfl
      | back hk hg =>
        rw [clears, hkey, hk, hg]
        rfl
      | nothing hk hg =>
        have hclears : clears s (.input code value a) = false := by
          simp only [clears, hkey]
          split
          · next program hk' =>
            obtain rfl := Option.some.inj hk'
            simpa using hk
          · rfl
        rw [hclears, hg]
        rfl
    · simp [clears, blackens, hkey]
  | deliver d | signal | tuner status | timeout | expire =>
    have hgraphics := (event_frame h rfl).graphics
    simp [clears, blackens, hgraphics]
  | handler i =>
    obtain ⟨progNum, hi, hg⟩ | ⟨hi, hg⟩ := handlerStep_draws hact
    · simp [clears, hi, HandlerPc.announces, hg, Graphics.printProgNum]
    · have hclears : clears s (.handler i) = false := by
        cases hpc : s.timer.handlers[i]? with
        | none => simp [clears, hpc]
        | some pc =>
          cases pc with
          | announcing progNum => exact absurd hpc (hi progNum)
          | _ => simp [clears, hpc, HandlerPc.announces]
      have hblackens : blackens s (.handler i) = false := rfl
      rw [hclears, hblackens, hg]
      rfl

/-- A switch starts with the black screen. -/
theorem switch_of_blackens (h : step params s l = some s') (hb : blackens s l = true) :
    ∃ c, s.loop = .switch c .bgd ∧ s'.loop = .switch c .removeAudio := by
  have hact := act_of_step h
  unfold blackens at hb
  split at hb
  · next a =>
    split at hb
    · next c hl =>
      simp only [act, loopStep, hl, switchStep] at hact
      obtain rfl := Option.some.inj hact
      exact ⟨c, hl, rfl⟩
    · cases hb
  · cases hb

/-! ### The screen never stays black for ever -/

/-- A switch is in progress, and has still to announce its program or to arm the timer. -/
def LoopPc.unannounced : LoopPc → Bool
  | .switch c p => (LoopPc.switch c p).announced = none
  | _ => false

/-- While the screen is black, a switch is in progress, or the timer is armed, or a handler has
not yet made its announcement. -/
def NeverStuck (s : State) : Prop :=
  s.black = true →
    (∃ c p, s.loop = .switch c p) ∨ s.timer.armed = true ∨ s.timer.handlers ≠ []

/-- What clears the flag is still to come: the announcement of a switch, the timer that it is
about to arm or has armed, or a handler. -/
def State.Clearing (s : State) : Prop :=
  s.loop.unannounced = true ∨ s.arming = true ∨ s.timer.handlers ≠ []

theorem State.Clearing.notStuck (h : s.black = true → s.Clearing) : NeverStuck s := by
  intro hblack
  cases hl : s.loop with
  | switch c p => exact .inl ⟨c, p, rfl⟩
  | _ =>
    obtain hu | harming | hh := h hblack
    · rw [hl] at hu
      cases hu
    · rw [State.arming, hl] at harming
      exact .inr (.inl harming)
    · exact .inr (.inr hh)

/-- A checked call in a switch leads on to the next place of the switch. -/
private theorem State.Clearing.of_loopAssert {r : TError × Player} {pc : LoopPc}
    (hne : (s.loopAssert r pc).loop ≠ .exited .error) (hpc : pc.unannounced = true) :
    (s.loopAssert r pc).Clearing := by
  obtain ⟨-, he⟩ | ⟨-, he⟩ := s.loopAssert_cases r pc
  · rw [he]
    exact .inl hpc
  · rw [he] at hne
    exact absurd rfl hne

/-- A switch keeps what is to come, unless it makes the announcement, or gives up. -/
private theorem State.Clearing.switchStep {c : Command} {p : SwitchPc}
    (hl : s.loop = .switch c p) (hs : s.loop.unannounced = true ∨ s.arming = true)
    (h : Zapper.switchStep params a c s p = some s') (hclears : clears s (.loop a) = false)
    (hne : s'.loop ≠ .exited .error) : s'.Clearing := by
  cases p with
  | count | bgd =>
    obtain rfl := Option.some.inj h
    exact .inl rfl
  | removeAudio | removeVideo | freeFilter | setFilter | createVideo | createAudio =>
    obtain rfl := Option.some.inj h
    exact .of_loopAssert hne rfl
  | wait =>
    simp only [Zapper.switchStep] at h
    split at h
    · cases h
    · obtain rfl := Option.some.inj h
      exact .inl rfl
  | waiting => cases h
  | announce =>
    -- a TV program is announced by the timer, which the switch goes on to arm
    have hradio : s.radio = false := by simpa [clears, hl] using hclears
    simp only [Zapper.switchStep, hradio, if_false, Bool.false_eq_true] at h
    obtain rfl := Option.some.inj h
    exact .inr (.inl rfl)
  | armSec =>
    obtain rfl := Option.some.inj h
    exact .inr (.inl rfl)
  | armNsec =>
    obtain rfl := Option.some.inj h
    refine .inr (.inl ?_)
    simp [State.arming]
  | armSet =>
    obtain rfl := Option.some.inj h
    have harming : s.arming = true := by simpa [LoopPc.unannounced, LoopPc.announced, hl] using hs
    refine .inr (.inl ?_)
    simpa [State.arming, hl, ChangeTimer.settime] using harming
  | clear =>
    obtain rfl := Option.some.inj h
    have harming : s.arming = true := by simpa [LoopPc.unannounced, LoopPc.announced, hl] using hs
    have harmed : s.timer.armed = true := by simpa [State.arming, hl] using harming
    cases c <;> exact .inr (.inl harmed)

/-- The stream thread keeps what is to come, unless it makes the announcement, or gives up. -/
private theorem State.Clearing.loopStep (hs : s.Clearing) (h : Zapper.loopStep params a s = some s')
    (hclears : clears s (.loop a) = false) (hne : s'.loop ≠ .exited .error) : s'.Clearing := by
  have hhandlers := (loopStep_frame h).handlers
  obtain hu | harming | hh := hs
  · cases hl : s.loop with
    | switch c p =>
      exact .switchStep hl (.inl hu) (by simpa [Zapper.loopStep, hl] using h) hclears hne
    | _ =>
      rw [hl] at hu
      cases hu
  · cases hl : s.loop with
    | switch c p =>
      exact .switchStep hl (.inr harming) (by simpa [Zapper.loopStep, hl] using h) hclears hne
    | test c =>
      simp only [Zapper.loopStep, hl] at h
      have harmed : s.timer.armed = true := by simpa [State.arming, hl] using harming
      split at h
      · obtain rfl := Option.some.inj h
        exact .inl (by cases c <;> rfl)
      · obtain rfl := Option.some.inj h
        cases c <;> exact .inr (.inl harmed)
    | head | info | list =>
      simp only [Zapper.loopStep, hl] at h
      have harmed : s.timer.armed = true := by simpa [State.arming, hl] using harming
      split at h
      · obtain rfl := Option.some.inj h
        exact .inr (.inl harmed)
      · obtain rfl := Option.some.inj h
        exact .inr (.inl harmed)
    | notCreated | exited e => simp [Zapper.loopStep, hl] at h
  · exact .inr (.inr (hhandlers ▸ hh))

/-- A handler is there until it has made its announcement. -/
theorem handlers_of_handlerStep {i : ℕ} (h : handlerStep i s = some s')
    (hclears : clears s (.handler i) = false) : s'.timer.handlers ≠ [] := by
  have hset : ∀ pc, (s.timer.handlers[i]?).isSome = true → s.timer.handlers.set i pc ≠ [] := by
    intro pc hi hnil
    rw [List.set_eq_nil_iff] at hnil
    simp [hnil] at hi
  unfold handlerStep at h
  split at h
  · cases h
  · next hi =>
    obtain rfl := Option.some.inj h
    exact hset _ (by simp [hi])
  · next hi =>
    obtain rfl := Option.some.inj h
    exact hset _ (by simp [hi])
  · next hi =>
    obtain rfl := Option.some.inj h
    exact hset _ (by simp [hi])
  · next hi => simp [clears, hi, HandlerPc.announces] at hclears

/-- The other actors keep what is to come, unless they make an announcement. -/
private theorem State.Clearing.other (hs : s.Clearing) (hcoherent : s.Coherent)
    (h : step params s l = some s') (hl : ∀ a, l ≠ .loop a) (hclears : clears s l = false) :
    s'.Clearing := by
  have hunannounced : s.loop.unannounced = true → s'.loop.unannounced = true := by
    intro hu
    obtain ⟨a, ha, -⟩ | hl' | ⟨a, -, hm, -⟩ | ⟨c, -, hl'⟩ := loop_of_step h
    · exact absurd ha (hl a)
    · rwa [hl']
    · rw [hcoherent.notCreated (by rw [hm])] at hu
      cases hu
    · rw [hl']
      rfl
  have hsame : s'.timer = s.timer → s'.Clearing := by
    intro htimer
    obtain hu | harming | hh := hs
    · exact .inl (hunannounced hu)
    · exact .inr (.inl ((arming_of_step hcoherent h hl htimer).trans harming))
    · exact .inr (.inr (htimer ▸ hh))
  have hact := act_of_step h
  cases l with
  | main a => exact hsame (mainStep_frame hact).timer
  | loop a => exact absurd rfl (hl a)
  | input code value a => exact hsame (callback_frame hact).timer
  | expire =>
    obtain ⟨-, rfl⟩ := expireStep_eq_some hact
    exact .inr (.inr (by simp))
  | handler i =>
    exact .inr (.inr (handlers_of_handlerStep hact hclears))
  | _ => exact hsame ((event_frame h rfl).timer (by simp))

/-- **The screen never stays black for ever**: in every run in which the calls of the stream thread
succeed. -/
theorem neverStuck (params : ConfigParams) (ls : List Label)
    (hcalls : Meets (step params) (CallSucceeds params) .powerOn ls) :
    Always (step params) NeverStuck .powerOn ls := by
  refine (always_of_step (P := fun s => s.Coherent ∧ s.loop ≠ .exited .error ∧
    (s.black = true → s.Clearing)) ⟨coherent_powerOn, by simp [State.powerOn],
      by simp [State.powerOn, State.black, Graphics.zero]⟩ hcalls
    fun s l s' hs hC h => ?_).mono fun s hs => State.Clearing.notStuck hs.2.2
  obtain ⟨hcoherent, hne, hs⟩ := hs
  have hne' : s'.loop ≠ .exited .error := by simp [gaveUp_of_step hcoherent h, hne, hC]
  refine ⟨hcoherent.step h, hne', fun hblack => ?_⟩
  rw [black_of_step h] at hblack
  have hclears : clears s l = false := by
    by_contra hc
    simp [hc] at hblack
  by_cases hb : blackens s l = true
  · -- a switch starts
    obtain ⟨c, -, hl⟩ := switch_of_blackens h hb
    exact .inl (by rw [hl]; rfl)
  · have hclearing : s.Clearing := hs (by simpa [hclears, hb] using hblack)
    by_cases hl : ∀ a, l ≠ .loop a
    · exact hclearing.other hcoherent h hl hclears
    · obtain ⟨a, rfl⟩ : ∃ a, l = .loop a := by simpa using hl
      exact hclearing.loopStep (act_of_step h) hclears hne'

/-- Behind a switch to a TV program, before its timer expires. -/
theorem neverStuck_thirdProgram : ∃ s : State, s.black = true ∧ s.loop = .head ∧
    s.timer.handlers = [] ∧ s.timer.armed = true := by
  have hrun : (exec (step (configIni 1)) .powerOn (startUp ++ switchBack thirdProgram 9)).map
      (fun s => (s.black, s.loop, s.timer.handlers)) = some (true, .head, []) := by
    decide +kernel
  obtain ⟨s, hs, hobs⟩ := (neverStuck (configIni 1) _ (by decide +kernel)).observe hrun
  simp only [Prod.mk.injEq] at hobs
  obtain ⟨hblack, hloop, hhandlers⟩ := hobs
  refine ⟨s, hblack, hloop, hhandlers, ?_⟩
  obtain ⟨c, p, hl⟩ | harmed | hh := hs hblack
  · rw [hloop] at hl
    cases hl
  · exact harmed
  · exact absurd hhandlers hh

/-! ### The screen stays black for the whole switch -/

/-- A history variable: a switch has started and not reached its end, and one has armed the timer
at its end, which has not expired since. -/
structure SwitchOn where
  switching : Bool
  timed : Bool

/-- A switch is on. -/
def SwitchOn.on (g : SwitchOn) : Bool := g.switching || g.timed

/-- The update of the history variable. -/
def SwitchOn.next (s : State) (l : Label) (g : SwitchOn) : SwitchOn :=
  match l with
  | .loop _ =>
    match s.loop with
    | .switch _ .bgd => { g with switching := true }
    | .switch _ .announce => if s.radio then { g with switching := false } else g
    | .switch _ .armSet => ⟨false, true⟩
    | _ => g
  | .expire => { g with timed := false }
  | _ => g

/-- The system with the history variable. -/
def stepSwitchOn (params : ConfigParams) : State × SwitchOn → Label → Option (State × SwitchOn) :=
  withHistory (step params) fun s l _ g => g.next s l

/-- While a switch is on, the screen is black. -/
def StaysBlack (x : State × SwitchOn) : Prop := x.2.on = true → x.1.black = true

/-- The condition on a step: no announcement is made while a switch is on behind it. The switch
itself announces a radio program at its end, and is not on behind that. -/
def KeepsBlack (x : State × SwitchOn) (l : Label) : Prop :=
  clears x.1 l = true → (x.2.next x.1 l).on = false

/-- The stream thread is in a switch, behind the black screen and before the end. -/
def LoopPc.switching : LoopPc → Bool
  | .switch _ .count => false
  | .switch _ .bgd => false
  | .switch _ .clear => false
  | .switch _ _ => true
  | _ => false

/-- Behind its black screen, a switch is on. -/
private def SwitchInv (x : State × SwitchOn) : Prop :=
  x.1.Coherent ∧ (x.1.loop.switching = true → x.2.switching = true)

/-- The stream thread gets behind the black screen by its start of a switch only. -/
private theorem switching_of_loopStep {g : SwitchOn} (h : loopStep params a s = some s')
    (hg : s.loop.switching = true → g.switching = true) (hl' : s'.loop.switching = true) :
    (g.next s (.loop a)).switching = true := by
  cases hpc : s'.loop with
  | switch c p =>
    rw [hpc] at hl'
    obtain rfl | ⟨q, hl, -, hq⟩ := switch_of_loopStep h hpc
    · cases c <;> cases hl'
    · cases q with
      | bgd => simp [SwitchOn.next, hl]
      | count | armSet =>
        cases hq
        cases hl'
      | clear => cases c <;> cases hq
      | announce =>
        cases hradio : s.radio with
        | true =>
          rw [SwitchPc.next, hradio] at hq
          cases hq
          cases hl'
        | false => simpa [SwitchOn.next, hl, hradio] using hg (by rw [hl]; rfl)
      | _ => simpa [SwitchOn.next, hl] using hg (by rw [hl]; rfl)
  | _ =>
    rw [hpc] at hl'
    cases hl'

private theorem SwitchInv.step {x y : State × SwitchOn} (hx : SwitchInv x)
    (h : stepSwitchOn params x l = some y) : SwitchInv y := by
  obtain ⟨h, hy⟩ := withHistory_eq_some.mp h
  obtain ⟨hcoherent, hx⟩ := hx
  refine ⟨hcoherent.step h, fun hl' => ?_⟩
  rw [hy]
  by_cases hl : ∃ a, l = .loop a
  · obtain ⟨a, rfl⟩ := hl
    exact switching_of_loopStep (act_of_step h) hx hl'
  · have hsame : (x.2.next x.1 l).switching = x.2.switching := by
      cases l with
      | loop a => exact absurd ⟨a, rfl⟩ hl
      | _ => rfl
    rw [hsame]
    refine hx ?_
    obtain ⟨a, rfl, -⟩ | hl'' | ⟨a, -, -, -, hl''⟩ | ⟨c, hl'', -⟩ := loop_of_step h
    · exact absurd ⟨a, rfl⟩ hl
    · rwa [← hl'']
    · rw [hl''] at hl'
      cases hl'
    · rw [hl'']
      rfl

/-- A switch gets on by its black screen only. -/
private theorem SwitchOn.on_of_next {x : State × SwitchOn} (hx : SwitchInv x)
    (hb : blackens x.1 l = false) (hon : (x.2.next x.1 l).on = true) : x.2.on = true := by
  cases l with
  | loop a =>
    cases hl : x.1.loop with
    | switch c p =>
      have hswitching := hx.2
      rw [hl] at hswitching
      cases p with
      | count => simpa [SwitchOn.next, hl] using hon
      | bgd => simp [blackens, hl] at hb
      | clear => simpa [SwitchOn.next, hl] using hon
      | _ => simp [SwitchOn.on, hswitching rfl]
    | _ => simpa [SwitchOn.next, hl] using hon
  | expire =>
    simp only [SwitchOn.next, SwitchOn.on, Bool.or_false] at hon
    simp [SwitchOn.on, hon]
  | _ => exact hon

/-- **The screen stays black for the whole of every switch of a run exactly when no announcement
is made while a switch is on**: none of a handler that an older switch has left behind, none of a
digit key or of `stream_init`, and none of a switch to a radio program while the timer of an older
one is still to expire. -/
theorem staysBlack_iff (params : ConfigParams) (ls : List Label) :
    Always (stepSwitchOn params) StaysBlack (.powerOn, ⟨false, false⟩) ls ↔
      Meets (stepSwitchOn params) KeepsBlack (.powerOn, ⟨false, false⟩) ls := by
  refine always_iff_meets (I := SwitchInv)
    ⟨coherent_powerOn, by simp [State.powerOn, LoopPc.switching]⟩
    (by simp [StaysBlack, SwitchOn.on]) (fun _ _ _ hx h => hx.step h) fun x l y hx hblack h => ?_
  obtain ⟨h, hy⟩ := withHistory_eq_some.mp h
  rw [StaysBlack, hy, black_of_step h, KeepsBlack]
  by_cases hc : clears x.1 l = true
  · simp [hc]
  · refine iff_of_true (fun hon => ?_) fun hc' => absurd hc' hc
    rw [if_neg hc]
    by_cases hb : blackens x.1 l = true
    · rw [if_pos hb]
    · rw [if_neg hb]
      exact hblack (SwitchOn.on_of_next hx (by simpa using hb) hon)

/-- A switch to the third program is followed by one back to the second before the timer of the
first has expired: its handler clears the screen in the middle of the second switch. -/
theorem not_forall_always_staysBlack : ¬ ∀ (params : ConfigParams) (ls : List Label),
    Always (stepSwitchOn params) StaysBlack (.powerOn, ⟨false, false⟩) ls := by
  intro h
  have hrun : (exec (stepSwitchOn (configIni 1)) (.powerOn, ⟨false, false⟩)
      (startUp ++ switchBack thirdProgram 9 ++
        Label.input 61 1 (.ok 0) :: List.replicate 11 (Label.loop (.ok 8)) ++ timerRun)).map
          (fun x => (x.2.switching, x.1.black)) = some (true, false) := by decide +kernel
  obtain ⟨x, hx, hobs⟩ := (h (configIni 1) _).observe hrun
  simp only [Prod.mk.injEq] at hobs
  obtain ⟨hon, hblack⟩ := hobs
  have hstays := hx (by simp [SwitchOn.on, hon])
  rw [hblack] at hstays
  cases hstays

end Zapper
