import Zapper.Stream.Drawing
import Zapper.Stream.Screen

/-!
# The timed overlays

The volume indicator, the info banner and the program number are shown for three seconds. A
request sets an overlay's print flag and its key press flag; the render loop draws what has its
print flag set, and restarts the overlay's timer in the first frame behind a key press; and when
the timer expires, its handler stops the timer and resets the print flag.

The flags are protected by `render_fnp_mutex`, which the render loop holds for all of a frame but
for the picture of a radio program. The timer's specification is not protected: a handler clears
it, and stops the timer, while a frame may be restarting it. The block of the program number even
clears the specification of another timer. Here these accesses are taken apart store by store.

A handler that comes between can stop a timer that has just been restarted, but then it has still
to reset the print flag, so that no overlay is shown for ever (`neverForever`). A handler that
comes late resets the flag of a request that no frame has drawn yet: `shown_iff` says when. The
requests are those of the zapper (`exec_display`).
-/

namespace Zapper

open Transition

/-! ### The render loop and its timers -/

/-- The overlays that have a timer. -/
inductive Overlay
  | volume
  | infoBanner
  | progNum
  deriving DecidableEq

/-- The places in the block that restarts an overlay's timer. -/
inductive RestartPc
  | clearSpec
  | stop
  | setSec
  | setNsec
  | start
  | clearKeypress
  deriving DecidableEq

/-- The places in `render_loop`. -/
inductive RenderPc
  /-- The head of the loop. -/
  | frame
  /-- Drawing the picture of a radio program, without the mutex. -/
  | radio
  | list
  | draw (o : Overlay)
  | restart (o : Overlay) (p : RestartPc)
  | black
  deriving DecidableEq

/-- The places in `volume_timer`, `info_timer` and `pr_num_timer`. -/
inductive TimerPc
  | start
  | cleared
  | stopped
  deriving DecidableEq

/-- The timer of an overlay: its `itimerspec`, whether it is armed, and the handlers that have
been started and have not returned. -/
structure OverlayTimer where
  tvSec : ℕ
  tvNsec : ℕ
  armed : Bool
  handlers : List TimerPc
  deriving DecidableEq

namespace OverlayTimer

/-- `memset` of the specification. -/
def clearSpec (t : OverlayTimer) : OverlayTimer := { t with tvSec := 0, tvNsec := 0 }

/-- `timer_settime` with the specification as it is. -/
def settime (t : OverlayTimer) : OverlayTimer :=
  { t with armed := t.tvSec ≠ 0 || t.tvNsec ≠ 0 }

end OverlayTimer

/-- The print flag of an overlay. -/
def FlagsAndParams.print (f : FlagsAndParams) : Overlay → Bool
  | .volume => f.printVolume
  | .infoBanner => f.printInfoBanner
  | .progNum => f.printProgNum

/-- The key press flag of an overlay. -/
def FlagsAndParams.keypress (f : FlagsAndParams) : Overlay → Bool
  | .volume => f.volumeKeypress
  | .infoBanner => f.infoBannerKeypress
  | .progNum => f.progNumKeypress

/-- Reset the print flag of an overlay. -/
def Graphics.clearPrint (g : Graphics) : Overlay → Graphics
  | .volume => { g with renderFnp := { g.renderFnp with printVolume := false } }
  | .infoBanner => { g with renderFnp := { g.renderFnp with printInfoBanner := false } }
  | .progNum => { g with renderFnp := { g.renderFnp with printProgNum := false } }

/-- Reset the key press flag of an overlay. -/
def Graphics.clearKeypress (g : Graphics) : Overlay → Graphics
  | .volume => { g with renderFnp := { g.renderFnp with volumeKeypress := false } }
  | .infoBanner => { g with renderFnp := { g.renderFnp with infoBannerKeypress := false } }
  | .progNum => { g with renderFnp := { g.renderFnp with progNumKeypress := false } }

/-- The specification that the block of an overlay clears: the block of the program number clears
that of the info banner. -/
def Overlay.clears : Overlay → Overlay
  | volume => volume
  | infoBanner => infoBanner
  | progNum => infoBanner

/-- What follows the block of an overlay. -/
def Overlay.following : Overlay → RenderPc
  | progNum => .draw volume
  | volume => .draw infoBanner
  | infoBanner => .black

/-- The graphics controller. -/
structure Display where
  graphics : Graphics
  timers : Overlay → OverlayTimer
  render : RenderPc

namespace Display

/-- Static memory, and the render loop at its head. -/
def start : Display where
  graphics := .zero
  timers := fun _ => ⟨0, 0, false, []⟩
  render := .frame

/-- The render loop holds `render_fnp_mutex`. -/
def locked (d : Display) : Bool :=
  match d.render with
  | .frame => false
  | .radio => false
  | _ => true

/-- Change the timer of an overlay. -/
def setTimer (d : Display) (o : Overlay) (t : OverlayTimer) : Display :=
  { d with timers := fun o' => if o' = o then t else d.timers o' }

/-- A step of the restart of a timer. -/
def restartStep (d : Display) (o : Overlay) : RestartPc → Display
  | .clearSpec =>
    { d.setTimer o.clears (d.timers o.clears).clearSpec with render := .restart o .stop }
  | .stop => { d.setTimer o (d.timers o).settime with render := .restart o .setSec }
  | .setSec => { d.setTimer o { d.timers o with tvSec := 3 } with render := .restart o .setNsec }
  | .setNsec => { d.setTimer o { d.timers o with tvNsec := 0 } with render := .restart o .start }
  | .start => { d.setTimer o (d.timers o).settime with render := .restart o .clearKeypress }
  | .clearKeypress =>
    { d with graphics := d.graphics.clearKeypress o, render := o.following }

/-- A step of `render_loop`. -/
def renderStep (d : Display) : Display :=
  match d.render with
  | .frame => { d with render := if d.graphics.renderFnp.radioProgram then .radio else .list }
  | .radio => { d with render := .list }
  | .list => { d with render := .draw .progNum }
  | .draw o =>
    if d.graphics.renderFnp.print o then
      -- a key press flag that is not set can be reset, as the info banner does, or be left alone
      if d.graphics.renderFnp.keypress o then { d with render := .restart o .clearSpec }
      else { d with render := o.following }
    else { d with render := o.following }
  | .restart o p => d.restartStep o p
  | .black => { d with render := .frame }

/-- A timer expires, and a handler is started. -/
def expireStep (d : Display) (o : Overlay) : Option Display :=
  if (d.timers o).armed then
    some (d.setTimer o { d.timers o with
      armed := false
      handlers := (d.timers o).handlers ++ [.start] })
  else none

/-- A step of the `i`-th running handler of a timer. It resets the flag under the mutex. -/
def handlerStep (d : Display) (o : Overlay) (i : ℕ) : Option Display :=
  let t := d.timers o
  match t.handlers[i]? with
  | none => none
  | some .start =>
    some (d.setTimer o { t.clearSpec with handlers := t.handlers.set i .cleared })
  | some .cleared =>
    some (d.setTimer o { t.settime with handlers := t.handlers.set i .stopped })
  | some .stopped =>
    if d.locked then none
    else some { d.setTimer o { t with handlers := t.handlers.eraseIdx i } with
      graphics := d.graphics.clearPrint o }

end Display

/-- A request to the graphics controller. -/
inductive GraphicsRequest
  | printVolume (volume : ℕ)
  | printProgNum (progNum : ℕ) (radio : Bool)
  | printInfoBanner (progNum audioPid videoPid : ℕ) (ttx : Bool)
  | printBlackScreen
  | printProgList (serviceList : Memory.Block ServiceInfo) (count : ℕ)
  | removeProgList

namespace GraphicsRequest

/-- The function of a request. -/
def apply (g : Graphics) : GraphicsRequest → Graphics
  | printVolume volume => g.printVolume volume
  | printProgNum progNum radio => g.printProgNum progNum radio
  | printInfoBanner progNum audioPid videoPid ttx =>
    g.printInfoBanner progNum audioPid videoPid ttx
  | printBlackScreen => g.printBlackScreen
  | printProgList serviceList count => g.printProgList serviceList count
  | removeProgList => g.removeProgList

/-- The request is for an overlay: with the info banner, the program number is shown as well. -/
def asks : GraphicsRequest → Overlay → Bool
  | printVolume _, .volume => true
  | printProgNum _ _, .progNum => true
  | printInfoBanner _ _ _ _, .infoBanner => true
  | printInfoBanner _ _ _ _, .progNum => true
  | _, _ => false

/-- The request hides all overlays. -/
def hides : GraphicsRequest → Bool
  | printBlackScreen => true
  | _ => false

/-- The print flags behind a request. -/
theorem print_apply (r : GraphicsRequest) (g : Graphics) (o : Overlay) :
    (r.apply g).renderFnp.print o =
      if r.asks o then true else if r.hides then false else g.renderFnp.print o := by
  cases r <;> cases o <;> rfl

/-- The key press flags behind a request: the black screen leaves them alone. -/
theorem keypress_apply (r : GraphicsRequest) (g : Graphics) (o : Overlay) :
    (r.apply g).renderFnp.keypress o = if r.asks o then true else g.renderFnp.keypress o := by
  cases r <;> cases o <;> rfl

end GraphicsRequest

/-- Who moves: the render loop, a thread with a request, a timer, or a handler. -/
inductive DisplayLabel
  | render
  | request (r : GraphicsRequest)
  | expire (o : Overlay)
  | handler (o : Overlay) (i : ℕ)

/-- The transition function of the graphics controller. -/
def displayStep (d : Display) : DisplayLabel → Option Display
  | .render => some d.renderStep
  | .request r => if d.locked then none else some { d with graphics := r.apply d.graphics }
  | .expire o => d.expireStep o
  | .handler o i => d.handlerStep o i

variable {d d' : Display} {o o' : Overlay} {t : OverlayTimer} {l : DisplayLabel}
  {i : ℕ}

namespace Display

@[simp] theorem setTimer_graphics : (d.setTimer o t).graphics = d.graphics := rfl

@[simp] theorem setTimer_render : (d.setTimer o t).render = d.render := rfl

@[simp] theorem setTimer_timers :
    (d.setTimer o t).timers o' = if o' = o then t else d.timers o' := rfl

end Display

@[simp] theorem Graphics.clearPrint_print {g : Graphics} :
    (g.clearPrint o).renderFnp.print o' = (g.renderFnp.print o' && o' ≠ o) := by
  cases o <;> cases o' <;> simp [clearPrint, FlagsAndParams.print]

@[simp] theorem Graphics.clearPrint_keypress {g : Graphics} :
    (g.clearPrint o).renderFnp.keypress o' = g.renderFnp.keypress o' := by
  cases o <;> rfl

@[simp] theorem Graphics.clearKeypress_print {g : Graphics} :
    (g.clearKeypress o).renderFnp.print o' = g.renderFnp.print o' := by
  cases o <;> rfl

@[simp] theorem Graphics.clearKeypress_keypress {g : Graphics} :
    (g.clearKeypress o).renderFnp.keypress o' = (g.renderFnp.keypress o' && o' ≠ o) := by
  cases o <;> cases o' <;> simp [clearKeypress, FlagsAndParams.keypress]

/-- Behind the block of an overlay, the render loop is not in the block of another. -/
theorem Overlay.following_ne_restart {q : RestartPc} : o.following ≠ .restart o' q := by
  cases o <;> simp [following]

/-- What a step of a handler does: it changes its timer, outside the mutex, or it resets the print
flag, under it, and returns. -/
theorem Display.handlerStep_cases (h : d.handlerStep o i = some d') :
    ((d.timers o).handlers[i]? ≠ some .stopped ∧ ∃ t : OverlayTimer, t.handlers ≠ [] ∧
        d' = d.setTimer o t) ∨
      ((d.timers o).handlers[i]? = some .stopped ∧ d.locked = false ∧
        d' = { d.setTimer o { d.timers o with
            handlers := (d.timers o).handlers.eraseIdx i } with
          graphics := d.graphics.clearPrint o }) := by
  simp only [handlerStep] at h
  split at h
  · cases h
  · next hi =>
    refine .inl ⟨by simp [hi], _, ?_, (Option.some.inj h).symm⟩
    rw [ne_eq, List.set_eq_nil_iff]
    exact List.ne_nil_of_mem (List.mem_of_getElem? hi)
  · next hi =>
    refine .inl ⟨by simp [hi], _, ?_, (Option.some.inj h).symm⟩
    rw [ne_eq, List.set_eq_nil_iff]
    exact List.ne_nil_of_mem (List.mem_of_getElem? hi)
  · next hi =>
    split at h
    · cases h
    · next hlocked => exact .inr ⟨hi, by simpa using hlocked, (Option.some.inj h).symm⟩

/-! ### The requests of the zapper -/

/-- A step makes one request, or none. -/
def Requests (g g' : Graphics) : Prop := g' = g ∨ ∃ r : GraphicsRequest, g' = r.apply g

section

variable {params : ConfigParams} {a : Answer} {s s' : State} {c : Command}

theorem requests_of_loopStep (h : loopStep params a s = some s') :
    Requests s.graphics s'.graphics := by
  cases loopStep_draws h with
  | black c _ hg => exact .inr ⟨.printBlackScreen, hg⟩
  | number c _ _ hg => exact .inr ⟨.printProgNum s.order true, hg⟩
  | info _ hg => exact .inr ⟨.printInfoBanner _ _ _ _, hg⟩
  | list _ _ hg => exact .inr ⟨.printProgList _ _, hg⟩
  | nothing _ _ _ hg => exact .inl hg

theorem requests_of_press {k : Key} (h : press a s k = some s') :
    Requests s.graphics s'.graphics := by
  cases press_draws h with
  | number _ hg => exact .inr ⟨.printProgNum s.order s.radio, hg⟩
  | volume v _ hg => exact .inr ⟨.printVolume v, hg⟩
  | back _ hg => exact .inr ⟨.removeProgList, hg⟩
  | nothing _ hg => exact .inl hg

/-- **The zapper changes what the render loop reads only by requests**, one in a step. -/
theorem requests_of_step {l : Label} (h : step params s l = some s') :
    Requests s.graphics s'.graphics := by
  have hact := act_of_step h
  cases l with
  | main a =>
    exact (graphics_of_mainStep hact).imp_right fun ⟨n, r, _, hg⟩ => ⟨.printProgNum n r, hg⟩
  | loop a => exact requests_of_loopStep hact
  | input code value a =>
    obtain ⟨k, -, hk⟩ | ⟨-, rfl⟩ := callback_cases hact
    · exact requests_of_press hk
    · exact .inl rfl
  | handler i =>
    obtain ⟨n, -, hg⟩ | ⟨-, hg⟩ := handlerStep_draws hact
    · exact .inr ⟨.printProgNum n false, hg⟩
    · exact .inl hg
  | _ => exact .inl (event_frame h rfl).graphics

/-- **The graphics controller follows the zapper**: whatever the zapper does, the controller, at
the head of its loop, comes to the same flags by the requests alone. -/
theorem exec_display {ls : List Label} {t : State} (h : exec (step params) s ls = some t)
    (hd : d.graphics = s.graphics) (hlocked : d.locked = false) :
    ∃ rs : List GraphicsRequest,
      (exec displayStep d (rs.map .request)).map Display.graphics = some t.graphics := by
  induction ls generalizing s d with
  | nil =>
    obtain rfl : s = t := by simpa [exec] using h
    exact ⟨[], by simp [exec, hd]⟩
  | cons l ls ih =>
    obtain ⟨s', hs', hls⟩ := Option.bind_eq_some_iff.mp h
    obtain hg | ⟨r, hg⟩ := requests_of_step hs'
    · exact ih hls (hd.trans hg.symm) hlocked
    · obtain ⟨rs, hrs⟩ := ih (d := { d with graphics := r.apply d.graphics }) hls
        (by simp [hg, hd]) hlocked
      exact ⟨r :: rs, by simpa [exec, displayStep, hlocked] using hrs⟩

end

/-! ### No overlay is shown for ever -/

/-- The timer will start a handler, or a handler of it has not returned. -/
def OverlayTimer.Live (t : OverlayTimer) : Prop := t.armed = true ∨ t.handlers ≠ []

/-- The specification is not zero, unless a handler has cleared it that has not returned. -/
def OverlayTimer.Loaded (t : OverlayTimer) : Prop := t.tvSec ≠ 0 ∨ t.handlers ≠ []

/-- What the restart of a timer relies on at each of its places. -/
def RestartPc.Relies : RestartPc → OverlayTimer → Prop
  | .setNsec => OverlayTimer.Loaded
  | .start => OverlayTimer.Loaded
  | .clearKeypress => OverlayTimer.Live
  | _ => fun _ => True

/-- The invariant behind `neverForever`. -/
structure Display.Inv (d : Display) : Prop where
  bounded : ∀ o, d.graphics.renderFnp.print o = true →
    d.graphics.renderFnp.keypress o = true ∨ (d.timers o).Live
  keypress : ∀ o p, d.render = .restart o p → d.graphics.renderFnp.keypress o = true
  relies : ∀ o p, d.render = .restart o p → p.Relies (d.timers o)

theorem Display.inv_start : start.Inv where
  bounded o h := by cases o <;> cases h
  keypress o p h := by cases h
  relies o p h := by cases h

/-- A handler of the timer has not returned: whatever is relied on, it is there. -/
theorem RestartPc.relies_of_handlers {q : RestartPc} (h : t.handlers ≠ []) : q.Relies t := by
  cases q with
  | setNsec => exact .inr h
  | start => exact .inr h
  | clearKeypress => exact .inr h
  | _ => trivial

/-- Where the render loop does not hold the mutex, it restarts no timer. -/
theorem Display.render_ne_restart {q : RestartPc} (h : d.locked = false) :
    d.render ≠ .restart o q := by
  intro hr
  simp [locked, hr] at h

/-- Inside the block of an overlay, its key press flag is set, and no other timer is stopped. -/
theorem Display.Inv.setTimer {q q' : RestartPc} (hd : d.Inv) (hr : d.render = .restart o q)
    (hlive : o' ≠ o → (d.timers o').Live → t.Live)
    (hrel : q'.Relies ((d.setTimer o' t).timers o)) :
    Inv { d.setTimer o' t with render := .restart o q' } := by
  have hkey : d.graphics.renderFnp.keypress o = true := hd.keypress o q hr
  refine ⟨fun o₁ hp => ?_, ?_, ?_⟩
  · by_cases ho : o₁ = o
    · exact .inl (ho ▸ hkey)
    · refine (hd.bounded o₁ hp).imp_right fun hl => ?_
      simp only [setTimer_timers]
      split
      · next he => exact hlive (he ▸ ho) (he ▸ hl)
      · exact hl
  · rintro o₁ p ⟨⟩
    exact hkey
  · rintro o₁ p ⟨⟩
    exact hrel

/-- **A step of the block that restarts a timer.** A handler may have cleared the specification
at any moment, but then it has not returned. -/
theorem Display.Inv.restartStep {q : RestartPc} (hd : d.Inv) (hr : d.render = .restart o q) :
    (d.restartStep o q).Inv := by
  have hrel : q.Relies (d.timers o) := hd.relies o q hr
  cases q with
  | clearSpec => exact hd.setTimer hr (fun _ hl => hl) trivial
  | stop => exact hd.setTimer hr (fun ho => absurd rfl ho) trivial
  | setSec => exact hd.setTimer hr (fun ho => absurd rfl ho) (.inl (by simp))
  | setNsec =>
    refine hd.setTimer hr (fun ho => absurd rfl ho) ?_
    simpa [RestartPc.Relies, OverlayTimer.Loaded] using hrel
  | start =>
    refine hd.setTimer hr (fun ho => absurd rfl ho) ?_
    simp only [setTimer_timers, if_pos]
    exact hrel.imp_left fun hsec => by simp [OverlayTimer.settime, hsec]
  | clearKeypress =>
    refine ⟨fun o₁ hp => ?_, fun o₁ p h => ?_, fun o₁ p h => ?_⟩
    · by_cases ho : o₁ = o
      · exact .inr (ho ▸ hrel)
      · have hbounded := hd.bounded o₁ (by simpa [Display.restartStep] using hp)
        simpa [Display.restartStep, ho] using hbounded
    · exact absurd h Overlay.following_ne_restart
    · exact absurd h Overlay.following_ne_restart

/-- A step of the render loop that only moves on. -/
theorem Display.Inv.move {pc : RenderPc} (hd : d.Inv)
    (hpc : ∀ o q, pc = .restart o q → q = .clearSpec ∧ d.graphics.renderFnp.keypress o = true) :
    Inv { d with render := pc } := by
  refine ⟨hd.bounded, fun o q h => (hpc o q h).2, fun o q h => ?_⟩
  obtain ⟨rfl, -⟩ := hpc o q h
  trivial

theorem Display.Inv.renderStep (hd : d.Inv) : d.renderStep.Inv := by
  unfold Display.renderStep
  split
  · refine hd.move fun o q h => ?_
    split at h <;> cases h
  · exact hd.move fun o q h => by cases h
  · exact hd.move fun o q h => by cases h
  · next o hr =>
    split
    · split
      · next hkey =>
        refine hd.move ?_
        rintro o₁ q ⟨⟩
        exact ⟨rfl, hkey⟩
      · exact hd.move fun o₁ q h => absurd h Overlay.following_ne_restart
    · exact hd.move fun o₁ q h => absurd h Overlay.following_ne_restart
  · next o q hr => exact hd.restartStep hr
  · exact hd.move fun o q h => by cases h

/-- A step outside the render loop that leaves a timer with a handler. -/
theorem Display.Inv.setTimer_handlers (hd : d.Inv) (ht : t.handlers ≠ []) :
    (d.setTimer o t).Inv := by
  refine ⟨fun o₁ hp => ?_, hd.keypress, fun o₁ q hr => ?_⟩
  · refine (hd.bounded o₁ hp).imp_right fun hl => ?_
    simp only [setTimer_timers]
    split
    · exact .inr ht
    · exact hl
  · simp only [setTimer_timers]
    split
    · exact RestartPc.relies_of_handlers ht
    · exact hd.relies o₁ q hr

theorem Display.Inv.handlerStep (hd : d.Inv) (h : d.handlerStep o i = some d') : d'.Inv := by
  obtain ⟨-, t, ht, rfl⟩ | ⟨-, hlocked, rfl⟩ := handlerStep_cases h
  · exact hd.setTimer_handlers ht
  · refine ⟨fun o₁ hp => ?_, fun o₁ q hr => absurd hr (render_ne_restart hlocked),
      fun o₁ q hr => absurd hr (render_ne_restart hlocked)⟩
    obtain ⟨hp, ho⟩ : d.graphics.renderFnp.print o₁ = true ∧ o₁ ≠ o := by simpa using hp
    simpa [ho] using hd.bounded o₁ hp

theorem Display.Inv.step (hd : d.Inv) (h : displayStep d l = some d') : d'.Inv := by
  cases l with
  | render =>
    obtain rfl := Option.some.inj h
    exact hd.renderStep
  | request r =>
    obtain ⟨hlocked, rfl⟩ : d.locked = false ∧ { d with graphics := r.apply d.graphics } = d' := by
      simpa [displayStep] using h
    refine ⟨fun o hp => ?_, fun o q hr => absurd hr (render_ne_restart hlocked),
      fun o q hr => absurd hr (render_ne_restart hlocked)⟩
    rw [GraphicsRequest.print_apply] at hp
    rw [GraphicsRequest.keypress_apply]
    -- a request sets the key press flag whenever it sets the print flag
    split at hp
    · next hask => exact .inl (by simp [hask])
    · next hask =>
      split at hp
      · cases hp
      · simpa [hask] using hd.bounded o hp
  | expire o =>
    obtain ⟨-, rfl⟩ := by simpa [displayStep, expireStep] using h
    exact hd.setTimer_handlers (by simp)
  | handler o i => exact hd.handlerStep h

/-- **No overlay stays on the screen for ever**: wherever `render_fnp_mutex` is free, an overlay
whose print flag is set has its key press flag set, its timer armed, or a handler on its way. -/
theorem neverForever (ls : List DisplayLabel) :
    Always displayStep (fun d => d.locked = false → ∀ o, d.graphics.renderFnp.print o = true →
      d.graphics.renderFnp.keypress o = true ∨ (d.timers o).armed = true ∨
        (d.timers o).handlers ≠ []) .start ls := by
  have hinv : Always displayStep Display.Inv .start ls :=
    always_of_step Display.inv_start meets_true fun _ _ _ hd _ h => hd.step h
  exact hinv.mono fun d hd _ o hp => hd.bounded o hp

/-! ### When no request is swallowed -/

/-- The overlays that have been requested, and not hidden since, before the render loop has drawn
them and restarted their timers. -/
def waiting (d : Display) (l : DisplayLabel) (_ : Display) (w : Overlay → Bool) : Overlay → Bool :=
  match l with
  | .request r => fun o => r.asks o || (w o && !r.hides)
  | .render =>
    match d.render with
    | .restart o .clearKeypress => fun o' => w o' && o' ≠ o
    | _ => w
  | _ => w

/-- The condition on a step: a handler that comes to reset the print flag does not meet an
overlay that waits to be drawn. -/
def MeetsNoWaiting (x : Display × (Overlay → Bool)) : DisplayLabel → Prop
  | .handler o i => (x.1.timers o).handlers[i]? = some .stopped → x.2 o = false
  | _ => True

/-- The print flag of every waiting overlay is set. -/
def WaitingShown (x : Display × (Overlay → Bool)) : Prop :=
  ∀ o, x.2 o = true → x.1.graphics.renderFnp.print o = true

/-- A step of the render loop sets and resets no print flag. -/
theorem Display.renderStep_print :
    d.renderStep.graphics.renderFnp.print o = d.graphics.renderFnp.print o := by
  cases hr : d.render with
  | draw o' =>
    simp only [renderStep, hr]
    split
    · split <;> rfl
    · rfl
  | restart o' q =>
    simp only [renderStep, hr]
    cases q <;> simp [restartStep]
  | _ => simp [renderStep, hr]

/-- The render loop only ends the waiting of an overlay. -/
theorem waiting_render {w : Overlay → Bool}
    (h : waiting d .render d.renderStep w o = true) : w o = true := by
  cases hr : d.render with
  | restart o' q =>
    cases q with
    | clearKeypress =>
      simp only [waiting, hr] at h
      exact (Bool.and_eq_true_iff.mp h).1
    | _ => simpa [waiting, hr] using h
  | _ => simpa [waiting, hr] using h

/-- **No request is swallowed throughout a run exactly when no handler of an earlier expiry comes
to reset the print flag between a request and the frame that draws it.** -/
theorem shown_iff (ls : List DisplayLabel) :
    Always (withHistory displayStep waiting) WaitingShown (.start, fun _ => false) ls ↔
      Meets (withHistory displayStep waiting) MeetsNoWaiting (.start, fun _ => false) ls := by
  refine always_iff_meets (I := fun _ => True) trivial (fun o h => by cases h)
    (fun _ _ _ _ _ => trivial) ?_
  rintro ⟨d, w⟩ l ⟨d', w'⟩ - hshown h
  obtain ⟨hstep, rfl⟩ : displayStep d l = some d' ∧ w' = waiting d l d' w :=
    withHistory_eq_some.mp h
  cases l with
  | render =>
    obtain rfl := Option.some.inj hstep
    refine iff_of_true (fun o ho => ?_) trivial
    rw [Display.renderStep_print]
    exact hshown o (waiting_render ho)
  | request r =>
    obtain ⟨-, rfl⟩ : d.locked = false ∧ { d with graphics := r.apply d.graphics } = d' := by
      simpa [displayStep] using hstep
    refine iff_of_true (fun o ho => ?_) trivial
    rw [GraphicsRequest.print_apply]
    obtain hask | ⟨hw, hhides⟩ : r.asks o = true ∨ w o = true ∧ r.hides = false := by
      simpa [waiting] using ho
    · rw [if_pos hask]
    · simp [hhides, hshown o hw]
  | expire o =>
    obtain ⟨-, rfl⟩ := by simpa [displayStep, Display.expireStep] using hstep
    exact iff_of_true hshown trivial
  | handler o i =>
    obtain ⟨hi, t, -, rfl⟩ | ⟨hi, -, rfl⟩ := Display.handlerStep_cases hstep
    · exact iff_of_true hshown fun hi' => absurd hi' hi
    · have hothers : ∀ o', o' ≠ o → w o' = true → d.graphics.renderFnp.print o' = true :=
        fun o' _ => hshown o'
      constructor
      · intro hall _
        by_contra hw
        simpa using hall o (by simpa [waiting] using hw)
      · intro hmeets o' hw
        have hw' : w o' = true := hw
        have ho : o' ≠ o := by
          rintro rfl
          rw [show w o' = false from hmeets hi] at hw'
          cases hw'
        simp [ho, hothers o' ho hw']

/-- The volume is changed while the timer of the last change expires. -/
theorem not_forall_always_waitingShown : ¬ ∀ ls : List DisplayLabel,
    Always (withHistory displayStep waiting) WaitingShown (.start, fun _ => false) ls := by
  intro h
  have hrun : (exec (withHistory displayStep waiting) (.start, fun _ => false)
      ([DisplayLabel.request (.printVolume 6)] ++ List.replicate 12 DisplayLabel.render ++
        [DisplayLabel.expire .volume, .handler .volume 0, .handler .volume 0,
          .request (.printVolume 7), .handler .volume 0])).map
      (fun x => (x.2 .volume, x.1.graphics.renderFnp.printVolume)) = some (true, false) := by
    decide +kernel
  obtain ⟨x, hx, hobs⟩ := (h _).observe hrun
  simp only [Prod.mk.injEq] at hobs
  have hprint : x.1.graphics.renderFnp.printVolume = true := hx .volume hobs.1
  rw [hobs.2] at hprint
  cases hprint

end Zapper
