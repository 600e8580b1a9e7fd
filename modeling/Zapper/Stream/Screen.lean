import Zapper.Stream.Commands
import Zapper.Stream.Drawing
import Zapper.Stream.Stores

/-!
# The program on the screen

Three actors announce a program to the graphics controller: the switch itself, for a radio
program; the handler of the program change timer, which the switch to a TV program arms, and
which always announces a TV program, whatever `pr_counter` is by then; and a digit key for the
selected program. Behind them all comes the announcement that `stream_init` makes at its end.

An announcement is right when it is for the selected program. One that is wrong does no lasting
harm as long as another one is due (`State.due`): a command is pending, or a TV program is
selected and the timer will print it yet. `screen_agrees` is the result: if no print step makes
a wrong announcement as the last one that is due, and nobody reads a program in the middle of its
section, the screen agrees with the selected program whenever everything has come to rest.
-/

namespace Zapper

open Memory Transition

variable {params : ConfigParams} {a : Answer} {s s' : State} {l : Label}

/-! ### What is due -/

/-- The command whose switch has announced its program, or is arming the timer for it. -/
def LoopPc.announced : LoopPc → Option Command
  | .switch c .armSec => some c
  | .switch c .armNsec => some c
  | .switch c .armSet => some c
  | .switch c .clear => some c
  | _ => none

/-- A switch to a radio or a TV program has still to announce it. -/
def State.switchDue (s : State) : Bool :=
  (s.strPrm.flag .change && s.loop.announced ≠ some .change) ||
    (s.strPrm.flag .next && s.loop.announced ≠ some .next) ||
      (s.strPrm.flag .previous && s.loop.announced ≠ some .previous)

/-- The timer is armed, or the switch is going to arm it: a specification of zero will not. -/
def State.arming (s : State) : Bool :=
  match s.loop with
  | .switch _ .armSec => true
  | .switch _ .armNsec => true
  | .switch _ .armSet => s.timer.tvSec ≠ 0 || s.timer.tvNsec ≠ 0
  | _ => s.timer.armed

/-- The handler will announce this number: it has read it, or has not read any. -/
def HandlerPc.due (order : ℕ) : HandlerPc → Bool
  | .announcing progNum => progNum = order
  | _ => true

/-- The timer will announce the selected program, as a TV program. -/
def State.printDue (s : State) : Bool :=
  s.arming || s.timer.handlers.any (HandlerPc.due s.order)

/-- A right announcement is still to come. -/
def State.due (s : State) : Bool := s.switchDue || (!s.radio && s.printDue)

/-- The screen shows the selected program. -/
structure State.Agrees (s : State) : Prop where
  order : s.graphics.renderFnp.orderProgNum = s.order
  wait : s.graphics.renderFnp.wait = false
  radio : s.graphics.renderFnp.radioProgram = s.radio

theorem State.switchDue_iff :
    s.switchDue = true ↔ ∃ c, s.strPrm.flag c = true ∧ s.loop.announced ≠ some c := by
  simp only [switchDue, Bool.or_eq_true, Bool.and_eq_true, decide_eq_true_eq]
  constructor
  · rintro ((h | h) | h) <;> exact ⟨_, h⟩
  · rintro ⟨c, h⟩
    cases c
    · exact .inl (.inl h)
    · exact .inl (.inr h)
    · exact .inr h

theorem State.switchDue_congr (hflag : ∀ c, s'.strPrm.flag c = s.strPrm.flag c)
    (hannounced : s'.loop.announced = s.loop.announced) : s'.switchDue = s.switchDue := by
  simp only [switchDue, hflag, hannounced]

theorem State.due_of_switchDue (h : s.switchDue = true) : s.due = true := by simp [due, h]

theorem State.due_of_printDue (hradio : s.radio = false) (h : s.printDue = true) :
    s.due = true := by
  simp [due, hradio, h]

/-- What is due depends on the command flags, the stream thread, the selected program and the
timer. -/
theorem State.due_congr (hflag : ∀ c, s'.strPrm.flag c = s.strPrm.flag c)
    (hloop : s'.loop = s.loop) (hcounter : s'.prCounter = s.prCounter)
    (htables : s'.tables = s.tables) (htimer : s'.timer = s.timer) : s'.due = s.due := by
  have harming : s'.arming = s.arming := by rw [arming, arming, hloop, htimer]
  have hswitch : s'.switchDue = s.switchDue := switchDue_congr hflag (by rw [hloop])
  have hradio : s'.radio = s.radio := by rw [radio, radio, selected, selected, htables, hcounter]
  have horder : s'.order = s.order := by rw [order, order, hcounter]
  rw [due, due, hswitch, hradio, printDue, printDue, harming, htimer, horder]

theorem State.arming_of_not_announced (h : s.loop.announced = none) :
    s.arming = s.timer.armed := by
  unfold arming
  split <;> simp_all [LoopPc.announced]

/-- What the screen shows of the program is the same. -/
structure SameScreen (s s' : State) : Prop where
  order : s'.graphics.renderFnp.orderProgNum = s.graphics.renderFnp.orderProgNum
  wait : s'.graphics.renderFnp.wait = s.graphics.renderFnp.wait
  radio : s'.graphics.renderFnp.radioProgram = s.graphics.renderFnp.radioProgram

/-- A step that announces nothing keeps a right screen, or what is due. -/
theorem screen_of_same (h : s.Agrees ∨ s.due = true) (hscreen : SameScreen s s')
    (hswitch : s.switchDue = true → s'.switchDue = true)
    (hcounter : s.switchDue = false → s'.switchDue = false →
      s'.prCounter = s.prCounter ∧ s'.radio = s.radio)
    (hprint : s.radio = false → s'.order = s.order → s.printDue = true → s'.printDue = true) :
    s'.Agrees ∨ s'.due = true := by
  cases hd : s.switchDue with
  | true => exact .inr (State.due_of_switchDue (hswitch hd))
  | false =>
    cases hd' : s'.switchDue with
    | true => exact .inr (State.due_of_switchDue hd')
    | false =>
      obtain ⟨hcounter, hradio⟩ := hcounter hd hd'
      have horder : s'.order = s.order := by rw [State.order, hcounter, State.order]
      obtain hs | hs := h
      · exact .inl ⟨by rw [hscreen.order, horder, hs.order], by rw [hscreen.wait, hs.wait],
          by rw [hscreen.radio, hradio, hs.radio]⟩
      · have hs : s.radio = false ∧ s.printDue = true := by simpa [State.due, hd] using hs
        exact .inr (State.due_of_printDue (hradio.trans hs.1) (hprint hs.1 horder hs.2))

/-! ### The run and its conditions -/

/-- A history variable: whether a switch has been done. -/
def switchDone (s : State) (l : Label) (_ : State) (done : Bool) : Bool :=
  match l, s.loop with
  | .loop _, .switch _ .clear => true
  | _, _ => done

/-- A switch has got as far as its announcement. -/
def announced (x : State × Bool) : Bool := x.2 || x.1.loop.announced.isSome

/-- The stream thread waits for a signal. -/
def LoopPc.waits : LoopPc → Bool
  | .switch _ .waiting => true
  | _ => false

/-- The section that has been stored does not replace the PAT, and gives its program the video
PID that is broadcast for it. -/
def Stored.keeps (bcast : ℕ → ℕ) (t : Tables) : Stored → Bool
  | .pat => false
  | .slot j => (t.pat.pmts.cell j).videoPid = bcast j
  | _ => true

/-- What is assumed of the steps of a run. The configured program exists, and so do the programs
of the digit keys. From the start of the stream thread on, no other PAT arrives, the video PIDs
are those that are broadcast, and a wait of the stream thread returns when the PMT of the selected
program has been parsed. -/
def Assumed (bcast : ℕ → ℕ) (x : State × Bool) : Label → Prop
  | .main _ => x.1.main = .init .createThread → x.1.prCounter < x.1.tables.pat.pmtCount
  | .input code value _ => x.1.loop ≠ .notCreated →
      ∀ program ∈ (Key.ofEvent code value).bind Key.program, program < x.1.tables.pat.pmtCount
  | .deliver d => x.1.loop ≠ .notCreated →
      ∀ t ∈ filterCallback d x.1.tables, (stored d x.1.tables).keeps bcast t = true
  | .signal => x.1.loop.waits = true → x.1.selected.videoPid = bcast x.1.prCounter
  | _ => True

/-- The number and the kind that the main thread is about to announce. -/
def MainPc.announces : MainPc → Option (ℕ × Bool)
  | .init (.announcing progNum radio) => some (progNum, radio)
  | _ => none

/-- The number that a handler is about to announce. -/
def HandlerPc.announces : HandlerPc → Option ℕ
  | .announcing progNum => some progNum
  | _ => none

/-- The state without one of the handlers. -/
def State.dropHandler (s : State) (i : ℕ) : State :=
  { s with timer := { s.timer with handlers := s.timer.handlers.eraseIdx i } }

/-- The condition on a step: a handler of the timer only announces the selected program, and
while it is a TV program, unless a right announcement is still due behind it; and so does
`stream_init`, if a switch has been that fast. -/
def KeepsScreen (x : State × Bool) : Label → Prop
  | .main _ => announced x = true → ∀ p ∈ x.1.main.announces,
      (p.1 = x.1.order ∧ p.2 = x.1.radio) ∨ x.1.due = true
  | .handler i => announced x = true →
      ∀ progNum ∈ (x.1.timer.handlers[i]?).bind HandlerPc.announces,
        (progNum = x.1.order ∧ x.1.radio = false) ∨ (x.1.dropHandler i).due = true
  | _ => True

/-- Everything has come to rest behind a switch: no command is pending, no switch in progress,
the timer is not armed and no handler of it running. -/
structure Quiescent (x : State × Bool) : Prop where
  done : x.2 = true
  idle : x.1.Consumed
  outside : x.1.loop.Outside
  armed : x.1.timer.armed = false
  handlers : x.1.timer.handlers = []

/-- The screen agrees with the tuned program. -/
structure ScreenAgrees (s : State) : Prop where
  order : s.graphics.renderFnp.orderProgNum = s.prCounter + 1
  wait : s.graphics.renderFnp.wait = false
  radio : s.graphics.renderFnp.radioProgram = true ↔ s.selected.videoPid = noPid

/-! ### The steps of the stream thread -/

/-- Behind the wait of a switch, up to its announcement. -/
def LoopPc.behindWait : LoopPc → Bool
  | .switch _ .createVideo => true
  | .switch _ .createAudio => true
  | .switch _ .announce => true
  | _ => false

/-- The stream thread gets behind the wait by a signal only. -/
theorem behindWait_of_loopStep (h : loopStep params a s = some s')
    (hb : s'.loop.behindWait = true) :
    s.loop.behindWait = true ∧ s'.prCounter = s.prCounter := by
  have hcounter := prCounter_of_loopStep h
  unfold LoopPc.behindWait at hb
  split at hb
  · next c hl' =>
    obtain he | ⟨q, -, hne, hq⟩ := switch_of_loopStep h hl'
    · cases c <;> cases he
    · exact absurd ((SwitchPc.next_cases hq).1 rfl) hne
  · next c hl' =>
    obtain he | ⟨q, hl, -, hq⟩ := switch_of_loopStep h hl'
    · cases c <;> cases he
    · obtain rfl := (SwitchPc.next_cases hq).2.1 rfl
      exact ⟨by rw [hl]; rfl, by simpa [nextCounter, hl] using hcounter⟩
  · next c hl' =>
    obtain he | ⟨q, hl, -, hq⟩ := switch_of_loopStep h hl'
    · cases c <;> cases he
    · obtain rfl := (SwitchPc.next_cases hq).2.2 rfl
      exact ⟨by rw [hl]; rfl, by simpa [nextCounter, hl] using hcounter⟩
  · cases hb

/-- A step of the stream thread that announces the selected program: at once, or by the timer. -/
structure Announces (s s' : State) : Prop where
  behindWait : s.loop.behindWait = true
  prCounter : s'.prCounter = s.prCounter
  radio : s.radio = true → s'.graphics = s.graphics.printProgNum s.order true
  arming : s.radio = false → s'.arming = true

/-- A step of the stream thread that does not matter to the screen. -/
structure Quiet (s s' : State) : Prop where
  announced : s'.loop.announced.isSome = true → s.loop.announced.isSome = true
  switchDue : s'.switchDue = s.switchDue
  prCounter : s'.prCounter = s.prCounter
  screen : SameScreen s s'
  arming : s.arming = true → s'.arming = true

/-- The banner and the list leave the program on the screen. -/
theorem sameScreen_of_outside (h : loopStep params a s = some s') (hl : s.loop.Outside) :
    SameScreen s s' := by
  cases loopStep_draws h with
  | black c hp | number c hp => exact absurd hp (hl c _)
  | info _ hg | list _ _ hg => constructor <;> rw [hg] <;> rfl
  | nothing _ _ _ hg => constructor <;> rw [hg]

/-- **What a step of the stream thread means for the screen**: it announces the program of a
switch, or a switch is due behind it, or it does not matter. -/
theorem screen_of_loopStep (hs : Serving s) (h : loopStep params a s = some s') :
    Announces s s' ∨ s'.switchDue = true ∨ Quiet s s' := by
  cases hl : s.loop with
  | switch c p =>
    have h : switchStep params a c s p = some s' := by simpa [loopStep, hl] using h
    have hflag := hs c p hl
    cases p with
    | announce =>
      simp only [switchStep] at h
      split at h
      · next hradio =>
        obtain rfl := Option.some.inj h
        exact .inl ⟨by rw [hl]; rfl, rfl, fun _ => rfl, fun hr => by simp [hradio] at hr⟩
      · next hradio =>
        obtain rfl := Option.some.inj h
        exact .inl ⟨by rw [hl]; rfl, rfl, fun hr => absurd hr hradio, fun _ => rfl⟩
    | clear =>
      -- the flag that goes down is the one whose announcement has been made
      have hs' : s' = { s with strPrm := s.strPrm.clear c, loop := c.following } := by
        simpa [switchStep] using h.symm
      have hnone : s'.loop.announced = none := by
        subst hs'
        cases c <;> rfl
      refine .inr (.inr ⟨by simp [hnone], ?_, by rw [hs'], by rw [hs']; exact ⟨rfl, rfl, rfl⟩, ?_⟩)
      · rw [Bool.eq_iff_iff, State.switchDue_iff, State.switchDue_iff, hnone, hl, hs']
        refine exists_congr fun c' => ?_
        rcases eq_or_ne c' c with rfl | hne
        · simp [LoopPc.announced]
        · simp [LoopPc.announced, StreamParams.flag_clear_of_ne _ hne, hne.symm]
      · rw [State.arming_of_not_announced hnone, hs', State.arming, hl]
        exact id
    | armSec | armNsec | armSet =>
      obtain rfl := Option.some.inj h
      refine .inr (.inr ⟨by simp [hl, LoopPc.announced],
        State.switchDue_congr (fun _ => rfl) (by rw [hl]; rfl), rfl, ⟨rfl, rfl, rfl⟩, ?_⟩)
      simp [State.arming, hl, ChangeTimer.settime]
    | waiting => cases h
    | _ =>
      -- the flag of the block is up, and nothing has been announced for it
      refine .inr (.inl (State.switchDue_iff.mpr ⟨c, ?_, ?_⟩))
      · rw [strPrm_of_switchStep hl h (by simp)]
        exact hflag
      · obtain hn | hn := loop_of_switchStep h <;> rw [hn] <;>
          simp [SwitchPc.next, LoopPc.announced]
  | test c =>
    by_cases hf : s.strPrm.flag c = true
    · have hs' : s' = { s with loop := .switch c c.entry } := by
        simpa [loopStep, hl, hf] using h.symm
      subst hs'
      refine .inr (.inl (State.switchDue_iff.mpr ⟨c, hf, ?_⟩))
      cases c <;> simp [LoopPc.announced, Command.entry]
    · have hs' : s' = { s with loop := c.following } := by simpa [loopStep, hl, hf] using h.symm
      subst hs'
      have hnone : c.following.announced = none := by cases c <;> rfl
      refine .inr (.inr ⟨by simp [hnone], State.switchDue_congr (fun _ => rfl) ?_, rfl,
        ⟨rfl, rfl, rfl⟩, ?_⟩)
      · rw [hl]
        exact hnone
      · rw [State.arming_of_not_announced (s := { s with loop := c.following }) hnone, State.arming,
          hl]
        exact id
  | _ =>
    rcases loopStep_writes h with ⟨c, hp, -⟩ | ⟨c, q, hp, -, -, -⟩ | ⟨c, hp, -⟩ | ⟨-, hw⟩
    case outside =>
      have hnone : s'.loop.announced = none := by
        obtain hn | ⟨⟨c, p, hp⟩, -⟩ := loop_of_loopStep h
        · rw [hn, hl, LoopPc.next]
          first | rfl | (split <;> rfl)
        · cases hl.symm.trans hp
      refine .inr (.inr ⟨by simp [hnone],
        State.switchDue_congr (fun c => by rw [hw]; cases c <;> rfl) ?_, by rw [hw],
        sameScreen_of_outside h (by rw [hl]; simp [LoopPc.Outside]), ?_⟩)
      · rw [hl]
        exact hnone
      · rw [State.arming_of_not_announced hnone, hw, State.arming, hl]
        exact id
    all_goals cases hl.symm.trans hp

/-! ### The steps of the other actors -/

/-- The main thread announces the program at the end of `stream_init`. -/
theorem graphics_of_mainStep (h : mainStep params a s = some s') :
    s'.graphics = s.graphics ∨ ∃ progNum radio,
      s.main.announces = some (progNum, radio) ∧
        s'.graphics = s.graphics.printProgNum progNum radio := by
  rcases mainStep_writes h with h | ⟨-, h⟩ | ⟨-, h⟩ | ⟨-, h⟩ | ⟨-, h⟩ | ⟨-, h⟩ |
    ⟨progNum, radio, hm, h⟩ | ⟨-, h⟩
  case announce => exact .inr ⟨progNum, radio, by rw [hm]; rfl, by rw [h]⟩
  all_goals exact .inl (by rw [h])

/-- A key leaves a switch due, or announces the selected program, or does not matter to the
screen. -/
theorem screen_of_press {key : Key} (h : press a s key = some s') :
    s'.switchDue = true ∨ s'.prCounter = s.prCounter ∧ (s'.Agrees ∨ SameScreen s s') := by
  have hnone : s.loop.holdsParams = false → s.loop.announced = none := by
    intro hfree
    unfold LoopPc.announced
    split <;> simp_all [LoopPc.holdsParams]
  cases press_writes h with
  | digit program hw =>
    have hfree := holdsParams_of_press h not_false
    subst hw
    by_cases hprogram : program = s.prCounter
    · rw [changeProgram, if_neg (not_not.mpr hprogram)]
      exact .inr ⟨rfl, .inl ⟨rfl, rfl, rfl⟩⟩
    · rw [changeProgram, if_pos hprogram]
      exact .inl (State.switchDue_iff.mpr ⟨.change, rfl, by simp [hnone hfree]⟩)
  | pPlus hw =>
    have hfree := holdsParams_of_press h not_false
    subst hw
    exact .inl (State.switchDue_iff.mpr ⟨.next, rfl, by simp [hnone hfree]⟩)
  | pMinus hw =>
    have hfree := holdsParams_of_press h not_false
    subst hw
    exact .inl (State.switchDue_iff.mpr ⟨.previous, rfl, by simp [hnone hfree]⟩)
  | request _ hw | exit _ hw => exact .inr ⟨by rw [hw], .inr (by constructor <;> rw [hw])⟩
  | back hw | volume _ _ _ _ hw =>
    rw [hw]
    exact .inr ⟨rfl, .inr ⟨rfl, rfl, rfl⟩⟩

/-- The other actors take the stream thread to no announcement, and from none. -/
theorem announced_of_step (hs : s.Coherent) (h : step params s l = some s')
    (hl : ∀ a, l ≠ .loop a) : s'.loop.announced = s.loop.announced := by
  obtain ⟨a, rfl, -⟩ | hl' | ⟨a, -, hm, -, hl'⟩ | ⟨c, hl', hl''⟩ := loop_of_step h
  · exact absurd rfl (hl a)
  · rw [hl']
  · have hnone : s.loop = .notCreated := hs.notCreated (by rw [hm])
    rw [hl', hnone]
    rfl
  · rw [hl', hl'']
    rfl

/-- Nor do they take it to the arming of the timer. -/
theorem arming_of_step (hs : s.Coherent) (h : step params s l = some s')
    (hl : ∀ a, l ≠ .loop a) (htimer : s'.timer = s.timer) : s'.arming = s.arming := by
  obtain ⟨a, rfl, -⟩ | hl' | ⟨a, -, hm, -, hl'⟩ | ⟨c, hl', hl''⟩ := loop_of_step h
  · exact absurd rfl (hl a)
  · simp only [State.arming, hl', htimer]
  · have hnone : s.loop = .notCreated := hs.notCreated (by rw [hm])
    simp only [State.arming, hl', hnone, htimer]
  · simp only [State.arming, hl', hl'', htimer]

/-- While the stream thread holds the mutex, nobody else selects a program. -/
theorem prCounter_of_held (hs : s.Coherent) (hheld : s.loop.holdsParams = true)
    (h : step params s l = some s') (hl : ∀ a, l ≠ .loop a) : s'.prCounter = s.prCounter := by
  have hact := act_of_step h
  cases l with
  | main a =>
    have hp := hs.created (by rintro hnone; rw [hnone] at hheld; cases hheld)
    exact (sameCommands_of_mainStep hact ((show _ < _ by decide).trans hp)).prCounter
  | loop a => exact absurd rfl (hl a)
  | input code value a =>
    obtain ⟨key, -, hpress⟩ | ⟨-, rfl⟩ := callback_cases hact
    · cases key with
      | digit program => simp [press, hheld] at hpress
      | _ => exact prCounter_of_press hpress
    · rfl
  | _ => exact (sameCommands_of_step h (by simp) (by simp) (by simp)).prCounter

/-- The wait of a switch is ended by a signal of `filter_callback`. -/
theorem signal_of_woken (hs : s.Coherent) (h : step params s l = some s') {c : Command}
    (hl : s.loop = .switch c .waiting) (hl' : s'.loop = .switch c .createVideo) :
    l = .signal := by
  have hact := act_of_step h
  have hne : s'.loop ≠ s.loop := by simp [hl, hl']
  have hcreated : s.loop ≠ .notCreated := by simp [hl]
  cases l with
  | main a =>
    obtain hsame | ⟨-, -, hhead, -⟩ := loop_of_mainStep hact
    · exact absurd hsame hne
    · cases hl'.symm.trans hhead
  | loop a => simp [act, loopStep, hl, switchStep] at hact
  | input code value a => exact absurd (callback_frame hact).loop hne
  | deliver d =>
    obtain ⟨-, -, tables, -, rfl⟩ := sectionStep_eq_some hact
    exact absurd rfl hne
  | signal => rfl
  | tuner status =>
    -- the tuner has reported before there is a stream thread
    obtain hp | ⟨-, hnone⟩ := hs.tuning (tunerStep_eq_some hact).1
    · exact absurd ((show _ < _ by decide).trans (hs.created hcreated)) hp
    · exact absurd hnone hcreated
  | timeout =>
    obtain ⟨-, rfl⟩ := timeoutStep_eq_some hact
    exact absurd rfl hne
  | expire =>
    obtain ⟨-, rfl⟩ := expireStep_eq_some hact
    exact absurd rfl hne
  | handler i => exact absurd (handlerStep_frame hact).loop hne

/-- A step of a handler: it announces the number it has read, or its announcement is still to
come. -/
theorem screen_of_handlerStep {i : ℕ} (h : handlerStep i s = some s') :
    (∃ progNum, (s.timer.handlers[i]?).bind HandlerPc.announces = some progNum ∧
      s'.graphics = s.graphics.printProgNum progNum false ∧
        s'.timer = (s.dropHandler i).timer) ∨
    (s'.graphics = s.graphics ∧ s'.printDue = true) := by
  unfold handlerStep at h
  have hset : ∀ pc : HandlerPc, pc.due s.order = true → (s.timer.handlers[i]?).isSome = true →
      (s.timer.handlers.set i pc).any (HandlerPc.due s.order) = true := by
    intro pc hpc hi
    have hlt : i < s.timer.handlers.length := by simpa using hi
    exact List.any_eq_true.mpr ⟨pc, List.mem_set hlt pc, hpc⟩
  split at h
  · cases h
  · next hi =>
    obtain rfl := Option.some.inj h
    exact .inr ⟨rfl, (Bool.or_eq_true _ _).mpr (.inr (hset .cleared rfl (by simp [hi])))⟩
  · next hi =>
    obtain rfl := Option.some.inj h
    exact .inr ⟨rfl, (Bool.or_eq_true _ _).mpr (.inr (hset .stopped rfl (by simp [hi])))⟩
  · next hi =>
    obtain rfl := Option.some.inj h
    exact .inr ⟨rfl, (Bool.or_eq_true _ _).mpr
      (.inr (hset (.announcing s.order) (by simp [HandlerPc.due]) (by simp [hi])))⟩
  · next progNum hi =>
    obtain rfl := Option.some.inj h
    exact .inl ⟨progNum, by rw [hi]; rfl, rfl, rfl⟩

/-! ### The invariant -/

/-- The screen is right or a right announcement is due, from the first announcement on. -/
private structure ScreenInv (bcast : ℕ → ℕ) (x : State × Bool) : Prop where
  coherent : x.1.Coherent
  created : x.2 = true → x.1.loop ≠ .notCreated
  inRange : x.1.loop ≠ .notCreated → x.1.prCounter < x.1.tables.pat.pmtCount
  pmtCount : x.1.tables.pat.pmtCount < 256
  serving : Serving x.1
  parsed : x.1.loop.behindWait = true → x.1.selected.videoPid = bcast x.1.prCounter
  tuned : announced x = true → x.1.switchDue = false →
    x.1.selected.videoPid = bcast x.1.prCounter
  screen : announced x = true → x.1.Agrees ∨ x.1.due = true

namespace ScreenInv

variable {bcast : ℕ → ℕ} {x y : State × Bool}

/-- The number of programs stays, once the stream thread is running. -/
private theorem tables_of_step (h : step params x.1 l = some s) (hA : Assumed bcast x l)
    (hcreated : x.1.loop ≠ .notCreated) :
    s.tables.pat.pmtCount = x.1.tables.pat.pmtCount ∧
      ∀ j, (x.1.tables.pat.pmts.cell j).videoPid = bcast j →
        (s.tables.pat.pmts.cell j).videoPid = bcast j := by
  obtain ⟨d, rfl, hd⟩ | ⟨-, ht⟩ := Zapper.tables_of_step h
  · have hkeeps := hA hcreated _ hd
    obtain ⟨hst, -⟩ | ⟨i, pmt, hst, -, -, ht⟩ | ⟨sdt, -, -, ht⟩ | ⟨-, ht⟩ :=
      filterCallback_cases hd
    · rw [hst] at hkeeps
      cases hkeeps
    · rw [hst] at hkeeps
      refine ⟨by rw [ht], fun j hj => ?_⟩
      rcases eq_or_ne j i with rfl | hne
      · exact of_decide_eq_true hkeeps
      · rw [ht]
        simpa only [Block.cell_modify_of_ne _ _ hne] using hj
    · rw [ht]
      exact ⟨rfl, fun _ hj => hj⟩
    · rw [ht]
      exact ⟨rfl, fun _ hj => hj⟩
  · rw [ht]
    exact ⟨rfl, fun _ hj => hj⟩

/-- The selected program exists. -/
private theorem inRange_step (hx : ScreenInv bcast x) (h : step params x.1 l = some s)
    (hA : Assumed bcast x l) (hcreated' : s.loop ≠ .notCreated) :
    s.prCounter < s.tables.pat.pmtCount := by
  by_cases hcreated : x.1.loop = .notCreated
  · -- the stream thread is started
    obtain ⟨a, rfl, hstep⟩ | hl | ⟨a, rfl, hm, -, -⟩ | ⟨c, hl, -⟩ := loop_of_step h
    · exact absurd hcreated (created_of_loopStep hstep).1
    · exact absurd (hl.trans hcreated) hcreated'
    · have hact : mainStep params a x.1 = some s := act_of_step h
      rw [prCounter_of_mainStep hact, if_neg (by rw [hm]; simp), (mainStep_frame hact).tables]
      exact hA hm
    · cases hcreated.symm.trans hl
  · have hlt := hx.inRange hcreated
    have hcount := hx.pmtCount
    rw [(tables_of_step h hA hcreated).1, prCounter_of_step h]
    cases l with
    | main a =>
      have hp := hx.coherent.created hcreated
      rw [nextCounter, if_neg]
      · exact hlt
      · intro hm
        rw [State.Past, hm] at hp
        exact absurd hp (by decide)
    | loop a =>
      simp only [nextCounter]
      split
      · exact Command.count_lt _ hlt (by omega)
      · exact hlt
    | input code value a =>
      cases hkey : Key.ofEvent code value with
      | none => simpa [nextCounter, hkey] using hlt
      | some key =>
        cases key with
        | digit program =>
          simpa [nextCounter, hkey] using hA hcreated program (by simp [hkey, Key.program])
        | _ => simpa [nextCounter, hkey] using hlt
    | _ => exact hlt

private theorem created_step (hx : ScreenInv bcast x) (h : step params x.1 l = some s)
    (hdone : switchDone x.1 l s x.2 = true) : s.loop ≠ .notCreated := by
  obtain ⟨a, -, hstep⟩ | hl | ⟨a, -, -, -, hl⟩ | ⟨c, -, hl⟩ := loop_of_step h
  · exact (created_of_loopStep hstep).2
  · rw [hl]
    simp only [switchDone] at hdone
    split at hdone
    · next hswitch =>
      rw [hswitch]
      simp
    · exact hx.created hdone
  · simp [hl]
  · simp [hl]

/-- Behind the wait of a switch, the PMT of the selected program has been parsed. -/
private theorem parsed_step (hx : ScreenInv bcast x) (h : step params x.1 l = some s)
    (hA : Assumed bcast x l) (hb : s.loop.behindWait = true) :
    s.selected.videoPid = bcast s.prCounter := by
  by_cases hne : ∀ a, l ≠ .loop a
  · obtain ⟨a, rfl, -⟩ | hl | ⟨a, -, -, -, hl⟩ | ⟨c, hl, hl'⟩ := loop_of_step h
    · exact absurd rfl (hne a)
    · have hb' : x.1.loop.behindWait = true := hl ▸ hb
      obtain ⟨hheld, hcreated⟩ : x.1.loop.holdsParams = true ∧ x.1.loop ≠ .notCreated := by
        revert hb'
        unfold LoopPc.behindWait
        split <;> simp [LoopPc.holdsParams, *]
      rw [State.selected, prCounter_of_held hx.coherent hheld h hne]
      exact (tables_of_step h hA hcreated).2 _ (hx.parsed hb')
    · rw [hl] at hb
      cases hb
    · obtain rfl := signal_of_woken hx.coherent h hl hl'
      have hparsed := hA (by rw [hl]; rfl)
      obtain ⟨-, -, rfl⟩ := signalStep_eq_some (act_of_step h)
      simpa [State.selected] using hparsed
  · obtain ⟨a, rfl⟩ : ∃ a, l = .loop a := by simpa using hne
    have hstep : loopStep params a x.1 = some s := act_of_step h
    obtain ⟨hb', hcounter⟩ := behindWait_of_loopStep hstep hb
    rw [State.selected, (loopStep_frame hstep).tables, hcounter]
    exact hx.parsed hb'

/-- The other actors make no switch, and no wait for one, forgotten. -/
private theorem switchDue_of_step (hx : ScreenInv bcast x) (h : step params x.1 l = some s)
    (hcreated : x.1.loop ≠ .notCreated) (hl : ∀ a, l ≠ .loop a)
    (hd : x.1.switchDue = true) : s.switchDue = true := by
  obtain ⟨c, hflag, hnot⟩ := State.switchDue_iff.mp hd
  refine State.switchDue_iff.mpr ⟨c, flag_of_step hx.coherent hcreated h hl c hflag, ?_⟩
  rwa [announced_of_step hx.coherent h hl]

/-- When they select another program, a switch is due. -/
private theorem prCounter_of_step (hx : ScreenInv bcast x) (h : step params x.1 l = some s)
    (hcreated : x.1.loop ≠ .notCreated) (hl : ∀ a, l ≠ .loop a)
    (hd : s.switchDue = false) : s.prCounter = x.1.prCounter := by
  have hact := act_of_step h
  cases l with
  | main a =>
    have hp := hx.coherent.created hcreated
    exact (sameCommands_of_mainStep hact ((show _ < _ by decide).trans hp)).prCounter
  | loop a => exact absurd rfl (hl a)
  | input code value a =>
    obtain ⟨key, -, hpress⟩ | ⟨-, rfl⟩ := callback_cases hact
    · obtain hd' | ⟨hcounter, -⟩ := screen_of_press hpress
      · rw [hd] at hd'
        cases hd'
      · exact hcounter
    · rfl
  | _ => exact (sameCommands_of_step h (by simp) (by simp) (by simp)).prCounter

private theorem created_of_announced (hx : ScreenInv bcast x) (h : announced x = true) :
    x.1.loop ≠ .notCreated := by
  intro hnone
  obtain hdone | hloop := (Bool.or_eq_true _ _).mp h
  · exact hx.created hdone hnone
  · rw [hnone] at hloop
    cases hloop

/-- The other actors make no announcement of a switch. -/
private theorem announced_step (hx : ScreenInv bcast x) (h : step params x.1 l = some s)
    (hl : ∀ a, l ≠ .loop a) : announced (s, switchDone x.1 l s x.2) = announced x := by
  have hdone : switchDone x.1 l s x.2 = x.2 := by
    cases l with
    | loop a => exact absurd rfl (hl a)
    | _ => rfl
  rw [announced, announced, hdone, announced_of_step hx.coherent h hl]

/-- Nor does the stream thread, in a step that does not matter to the screen. -/
private theorem announced_of_quiet (hq : Quiet x.1 s)
    (h : announced (s, switchDone x.1 (.loop a) s x.2) = true) : announced x = true := by
  obtain hdone | hloop := (Bool.or_eq_true _ _).mp h
  · simp only [switchDone] at hdone
    split at hdone
    · next hl => simp [announced, hl, LoopPc.announced]
    · simp [announced, hdone]
  · simp [announced, hq.announced hloop]

/-- The tables agree with the broadcast behind every switch. -/
private theorem tuned_step (hx : ScreenInv bcast x) (h : step params x.1 l = some s)
    (hA : Assumed bcast x l) (hannounced : announced (s, switchDone x.1 l s x.2) = true)
    (hd : s.switchDue = false) : s.selected.videoPid = bcast s.prCounter := by
  by_cases hl : ∀ a, l ≠ .loop a
  · have hannounced' : announced x = true := hx.announced_step h hl ▸ hannounced
    have hcreated := hx.created_of_announced hannounced'
    have hd' : x.1.switchDue = false := by
      by_contra hd'
      simp [hx.switchDue_of_step h hcreated hl (by simpa using hd')] at hd
    rw [State.selected, hx.prCounter_of_step h hcreated hl hd]
    exact (tables_of_step h hA hcreated).2 _ (hx.tuned hannounced' hd')
  · obtain ⟨a, rfl⟩ : ∃ a, l = .loop a := by simpa using hl
    have hstep : loopStep params a x.1 = some s := act_of_step h
    rw [State.selected, (loopStep_frame hstep).tables]
    obtain hloop | hloop | hloop := screen_of_loopStep hx.serving hstep
    · rw [hloop.prCounter]
      exact hx.parsed hloop.behindWait
    · rw [hd] at hloop
      cases hloop
    · rw [hloop.prCounter]
      exact hx.tuned (announced_of_quiet hloop hannounced) (hloop.switchDue ▸ hd)

/-- A step of the stream thread keeps the screen right, or what is due. -/
private theorem screen_loop (hx : ScreenInv bcast x) (h : loopStep params a x.1 = some s)
    (hannounced : announced (s, switchDone x.1 (.loop a) s x.2) = true) :
    s.Agrees ∨ s.due = true := by
  have hframe := loopStep_frame h
  obtain hloop | hloop | hloop := screen_of_loopStep hx.serving h
  · have hradio : s.radio = x.1.radio := by
      rw [State.radio, State.selected, hframe.tables, hloop.prCounter]
      rfl
    have horder : s.order = x.1.order := by rw [State.order, hloop.prCounter, State.order]
    cases hr : x.1.radio with
    | true =>
      have hg := hloop.radio hr
      exact .inl ⟨by rw [hg, horder]; rfl, by rw [hg]; rfl, by rw [hg, hradio, hr]; rfl⟩
    | false =>
      refine .inr (State.due_of_printDue (hradio.trans hr) ?_)
      exact (Bool.or_eq_true _ _).mpr (.inl (hloop.arming hr))
  · exact .inr (State.due_of_switchDue hloop)
  · refine screen_of_same (hx.screen (announced_of_quiet hloop hannounced)) hloop.screen
      (fun hd => hloop.switchDue.trans hd) (fun _ _ => ⟨hloop.prCounter, ?_⟩)
      fun _ horder hprint => ?_
    · rw [State.radio, State.selected, hframe.tables, hloop.prCounter]
      rfl
    · obtain harming | hany := (Bool.or_eq_true _ _).mp hprint
      · exact (Bool.or_eq_true _ _).mpr (.inl (hloop.arming harming))
      · rw [State.printDue, horder, hframe.handlers, hany, Bool.or_true]

/-- A step of another actor keeps the screen right, or what is due. -/
private theorem screen_step (hx : ScreenInv bcast x) (h : step params x.1 l = some s)
    (hA : Assumed bcast x l) (hC : KeepsScreen x l) (hl : ∀ a, l ≠ .loop a)
    (hannounced : announced x = true) : s.Agrees ∨ s.due = true := by
  have hact := act_of_step h
  have hcreated := hx.created_of_announced hannounced
  have hquiet : SameScreen x.1 s →
      (x.1.radio = false → s.order = x.1.order → x.1.printDue = true → s.printDue = true) →
      s.Agrees ∨ s.due = true := by
    refine fun hsame => screen_of_same (hx.screen hannounced) hsame
      (hx.switchDue_of_step h hcreated hl) fun hd hd' => ?_
    have hcounter := hx.prCounter_of_step h hcreated hl hd'
    have htuned := hx.tuned hannounced hd
    have htuned' := (tables_of_step h hA hcreated).2 _ htuned
    refine ⟨hcounter, ?_⟩
    rw [State.radio, State.radio, State.selected, hcounter, htuned', htuned]
  have hprint : s.timer = x.1.timer → s.order = x.1.order → x.1.printDue = true →
      s.printDue = true := by
    intro htimer horder
    rw [State.printDue, State.printDue, arming_of_step hx.coherent h hl htimer, htimer, horder]
    exact id
  cases l with
  | main a =>
    have hframe := mainStep_frame hact
    obtain hg | ⟨progNum, radio, hm, hg⟩ := graphics_of_mainStep hact
    · exact hquiet ⟨by rw [hg], by rw [hg], by rw [hg]⟩ fun _ => hprint hframe.timer
    · have hp := hx.coherent.created hcreated
      have hsame := sameCommands_of_mainStep hact ((show _ < _ by decide).trans hp)
      have hloop : s.loop = x.1.loop := by
        obtain hloop | ⟨hm, -⟩ := loop_of_mainStep hact
        · exact hloop
        · rw [State.Past, hm] at hp
          exact absurd hp (lt_irrefl _)
      obtain ⟨hnum, hradio⟩ | hdue := hC hannounced _ hm
      · left
        refine ⟨?_, by rw [hg]; rfl, ?_⟩
        · rw [hg, State.order, hsame.prCounter]
          exact hnum
        · rw [hg, State.radio, State.selected, hframe.tables, hsame.prCounter]
          exact hradio
      · right
        rw [State.due_congr hsame.flag hloop hsame.prCounter hframe.tables hframe.timer]
        exact hdue
  | loop a => exact absurd rfl (hl a)
  | input code value a =>
    obtain ⟨key, -, hpress⟩ | ⟨-, rfl⟩ := callback_cases hact
    · obtain hd | ⟨-, hs | hsame⟩ := screen_of_press hpress
      · exact .inr (State.due_of_switchDue hd)
      · exact .inl hs
      · exact hquiet hsame fun _ => hprint (press_frame hpress).timer
    · exact hx.screen hannounced
  | deliver d =>
    obtain ⟨-, -, tables, -, rfl⟩ := sectionStep_eq_some hact
    exact hquiet ⟨rfl, rfl, rfl⟩ fun _ => hprint rfl
  | signal =>
    obtain ⟨-, -, rfl⟩ := signalStep_eq_some hact
    exact hquiet (by constructor <;> rw [State.wake_graphics]) fun _ => hprint (by simp)
  | tuner status =>
    obtain ⟨-, rfl | rfl⟩ := tunerStep_eq_some hact
    · exact hquiet (by constructor <;> rw [State.wake_graphics]) fun _ => hprint (by simp)
    · exact hquiet ⟨rfl, rfl, rfl⟩ fun _ => hprint rfl
  | timeout =>
    obtain ⟨-, rfl⟩ := timeoutStep_eq_some hact
    exact hquiet ⟨rfl, rfl, rfl⟩ fun _ => hprint rfl
  | expire =>
    -- the timer is no longer armed, and the handler has read nothing yet
    obtain ⟨-, rfl⟩ := expireStep_eq_some hact
    exact hquiet ⟨rfl, rfl, rfl⟩ fun _ _ _ =>
      (Bool.or_eq_true _ _).mpr (.inr (List.any_eq_true.mpr ⟨.start, by simp, rfl⟩))
  | handler i =>
    have hframe := handlerStep_frame hact
    obtain ⟨progNum, hi, hg, htimer⟩ | ⟨hg, hdue⟩ := screen_of_handlerStep hact
    · obtain ⟨hnum, hradio⟩ | hdue := hC hannounced _ hi
      · left
        refine ⟨?_, by rw [hg]; rfl, ?_⟩
        · rw [hg, State.order, hframe.prCounter]
          exact hnum
        · rw [hg, State.radio, State.selected, hframe.tables, hframe.prCounter]
          exact hradio.symm
      · right
        rw [← hdue]
        exact State.due_congr (s := x.1.dropHandler i) (fun c => by rw [hframe.strPrm]; rfl)
          hframe.loop hframe.prCounter hframe.tables htimer
    · exact hquiet ⟨by rw [hg], by rw [hg], by rw [hg]⟩ fun _ _ _ => hdue

/-- **The step lemma**: a step that meets the condition keeps the invariant. -/
private theorem step (hx : ScreenInv bcast x)
    (h : withHistory (Zapper.step params) switchDone x l = some y)
    (hA : Assumed bcast x l) (hC : KeepsScreen x l) : ScreenInv bcast y := by
  obtain ⟨h, hy⟩ := withHistory_eq_some.mp h
  obtain ⟨s, done⟩ := y
  obtain rfl : done = switchDone x.1 l s x.2 := hy
  refine ⟨hx.coherent.step h, hx.created_step h, hx.inRange_step h hA,
    pmtCount_lt_of_step h hx.pmtCount, hx.serving.step hx.coherent h, hx.parsed_step h hA,
    hx.tuned_step h hA, fun hannounced => ?_⟩
  by_cases hl : ∀ a, l ≠ .loop a
  · exact hx.screen_step h hA hC hl (hx.announced_step h hl ▸ hannounced)
  · obtain ⟨a, rfl⟩ : ∃ a, l = .loop a := by simpa using hl
    exact hx.screen_loop (act_of_step h) hannounced

end ScreenInv

/-! ### The screen at rest -/

instance (bcast : ℕ → ℕ) (x : State × Bool) : ∀ l, Decidable (Assumed bcast x l)
  | .main _ => inferInstanceAs (Decidable (_ → _))
  | .loop _ => isTrue trivial
  | .input _ _ _ => inferInstanceAs (Decidable (_ → _))
  | .deliver _ => inferInstanceAs (Decidable (_ → _))
  | .signal => inferInstanceAs (Decidable (_ → _))
  | .tuner _ => isTrue trivial
  | .timeout => isTrue trivial
  | .expire => isTrue trivial
  | .handler _ => isTrue trivial

instance (x : State × Bool) : ∀ l, Decidable (KeepsScreen x l)
  | .main _ => inferInstanceAs (Decidable (_ → _))
  | .handler _ => inferInstanceAs (Decidable (_ → _))
  | .loop _ => isTrue trivial
  | .input _ _ _ => isTrue trivial
  | .deliver _ => isTrue trivial
  | .signal => isTrue trivial
  | .tuner _ => isTrue trivial
  | .timeout => isTrue trivial
  | .expire => isTrue trivial

/-- Nothing is due in a quiescent state. -/
theorem Quiescent.due {x : State × Bool} (h : Quiescent x) : x.1.due = false := by
  have hnone : x.1.loop.announced = none := by
    unfold LoopPc.announced
    split <;> first | rfl | exact absurd ‹_› (h.outside _ _)
  have hswitch : x.1.switchDue = false := by
    by_contra hd
    obtain ⟨c, hc, -⟩ := State.switchDue_iff.mp (by simpa using hd)
    simp [h.idle c] at hc
  have hprint : x.1.printDue = false := by
    simp [State.printDue, State.arming_of_not_announced hnone, h.armed, h.handlers]
  simp [State.due, hswitch, hprint]

/-- The screen agrees with the selected program in the runs of `Stream/System`. -/
theorem agrees_of_quiescent (params : ConfigParams) (bcast : ℕ → ℕ) (ls : List Label)
    (hC : Meets (withHistory (step params) switchDone)
      (fun x l => Assumed bcast x l ∧ KeepsScreen x l) (.powerOn, false) ls) :
    Always (withHistory (step params) switchDone) (fun x => Quiescent x → ScreenAgrees x.1)
      (.powerOn, false) ls := by
  have hstart : ScreenInv bcast (.powerOn, false) := by
    refine ⟨coherent_powerOn, by simp, by simp [State.powerOn], by decide, ?_, ?_, ?_, ?_⟩
    · rintro c p hl
      cases hl
    · rintro hb
      cases hb
    · rintro hb
      cases hb
    · rintro hb
      cases hb
  refine Always.mono (fun x hx hq => ?_) (always_of_step hstart hC
    fun _ _ _ hx hl h => hx.step h hl.1 hl.2)
  have hannounced : announced x = true := by simp [announced, hq.done]
  obtain hs | hdue := hx.screen hannounced
  · have hlt := hx.inRange (hx.created_of_announced hannounced)
    have hcount := hx.pmtCount
    refine ⟨?_, hs.wait, ?_⟩
    · rw [hs.order, State.order, Nat.mod_eq_of_lt (by omega)]
    · rw [hs.radio, State.radio, decide_eq_true_iff]
  · rw [hq.due] at hdue
    cases hdue

/-! ### While sections are being stored -/

/-- The zapper, which stores its sections field by field, and whether a switch has been done. -/
def stepScreen (params : ConfigParams) :
    StoringState × Bool → Label → Option (StoringState × Bool) :=
  withHistory (StoringState.step params) (StoringState.history switchDone)

/-- The condition on a step: nobody reads the PIDs of a slot that is being filled, and nobody
announces a program wrongly. -/
def KeepsScreenStep (x : StoringState × Bool) (l : Label) : Prop :=
  x.1.ReadsWhole l ∧ StoringState.OnSteps KeepsScreen x l

instance (x : StoringState × Bool) (l : Label) : Decidable (KeepsScreenStep x l) :=
  inferInstanceAs (Decidable (_ ∧ _))

/-- A press of `P-`, served by the stream thread from loop head to loop head. -/
def switchBack (p : Program) (behindWait : ℕ) : List Label :=
  Label.input 61 1 (.ok 0) :: List.replicate 11 (Label.loop (.ok 8)) ++ [p.delivery, .signal] ++
    List.replicate behindWait (Label.loop (.ok 9))

/-- The timer expires, and its handler runs. -/
def timerRun : List Label := .expire :: List.replicate 4 (Label.handler 0)

/-- The video PIDs of the sample stream. -/
def sampleVideoPid (j : ℕ) : ℕ := [1001, noPid, 1005].getD j 0

end Zapper
