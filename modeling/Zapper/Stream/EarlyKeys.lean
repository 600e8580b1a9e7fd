import Zapper.Stream.Waits

/-!
# Keys that come too early or too late

The key callback is registered before `stream_init` and unregistered behind `stream_deinit`. Of
the commands, only `change_program` looks at anything but the command flags: a digit key for the
selected program reads its slot of the PAT and calls `ch_prog_callback`, and a digit key for
another program writes `pr_counter`, from which `stream_init` takes the program that it checks
against the configuration and starts.

Nothing asks whether the stream controller has been initialised. A run keeps clear of the
callback and of the PAT when they are not there, and starts the configured program, exactly when
the digit keys meet the condition of `inOrder_iff`.
-/

namespace Zapper

open Transition

variable {params : ConfigParams} {a : Answer} {s s' : State} {l : Label}

/-! ### Digit keys in a run -/

/-- The program of the digit key a label presses. -/
def Label.digit (l : Label) : Option ℕ :=
  match l.key with
  | some (.digit program) => some program
  | _ => none

/-- What a run has seen of the PAT and of the digit keys. -/
structure KeyHistory where
  /-- A PAT has been parsed. -/
  patParsed : Bool
  /-- The last digit key since `stream_init` has loaded `pr_counter`. -/
  last : Option ℕ
  /-- A key has used the callback or the PAT when it was not there. -/
  fault : Bool

/-- What `change_program` uses for the selected program is there: `ch_prog_callback` has been set,
the PAT has been parsed, and it has not been freed. -/
structure Ready (s : State) (h : KeyHistory) : Prop where
  callback : s.Past (.init .loadCounter)
  parsed : h.patParsed = true
  kept : ¬ s.Past (.deinit .freeTables)

instance (s : State) (m : MainPc) : Decidable (s.Past m) := inferInstanceAs (Decidable (_ < _))

instance (s : State) (h : KeyHistory) : Decidable (Ready s h) :=
  decidable_of_iff (s.Past (.init .loadCounter) ∧ h.patParsed = true ∧
      ¬ s.Past (.deinit .freeTables))
    ⟨fun ⟨h₁, h₂, h₃⟩ => ⟨h₁, h₂, h₃⟩, fun h => ⟨h.callback, h.parsed, h.kept⟩⟩

/-- The history behind a step. -/
def keyHistory (s : State) (l : Label) (_ : State) (h : KeyHistory) : KeyHistory where
  patParsed := h.patParsed ||
    match l with
    | .deliver d => decide (d.IsOf .pat)
    | _ => false
  last :=
    match l with
    | .main _ => if s.main = .init .loadCounter then none else h.last
    | _ => l.digit <|> h.last
  fault := h.fault || (l.digit = some s.prCounter && !decide (Ready s h))

/-- The zapper, with the history of its digit keys. -/
def stepKeys (params : ConfigParams) : State × KeyHistory → Label → Option (State × KeyHistory) :=
  withHistory (step params) keyHistory

/-- `stream_init` checks the selected program against the configuration, or starts it. -/
def MainPc.usesProgram : MainPc → Bool
  | .init .checkAudioPid => true
  | .init .checkVideoPid => true
  | .init .createAudio => true
  | .init .createVideo => true
  | _ => false

/-- No key has used what was not there, and the program that is checked and started is the
configured one. -/
structure InOrder (params : ConfigParams) (x : State × KeyHistory) : Prop where
  fault : x.2.fault = false
  program : x.1.main.usesProgram = true → x.1.prCounter = params.start

/-- The condition on a step. -/
structure KeepsInOrder (params : ConfigParams) (x : State × KeyHistory) (l : Label) : Prop where
  /-- A digit key for the selected program comes when all is there. -/
  ready : l.digit = some x.1.prCounter → Ready x.1 x.2
  /-- When the wait for the PMT ends, the last digit key, if any, was that of the configured
  program. -/
  last : l = .signal → x.1.main = .init (.waiting .pmt) → x.2.last.getD params.start = params.start
  /-- Behind that wait, up to the start of the thread, only its digit key is pressed. -/
  digit : x.1.main.usesProgram = true → ∀ program, l.digit = some program → program = params.start

/-! ### What a step does -/

/-- A digit key stores its program. -/
theorem prCounter_of_digit {program : ℕ} (h : step params s l = some s')
    (hl : l.digit = some program) : s'.prCounter = program := by
  rw [prCounter_of_step h]
  cases l with
  | input code value a =>
    cases hk : Key.ofEvent code value with
    | none => simp [Label.digit, Label.key, hk] at hl
    | some k => cases k <;> simp_all [Label.digit, Label.key, nextCounter]
  | _ => cases hl

/-- Without a stream thread, `pr_counter` is only changed by the digit keys and its loading. -/
theorem prCounter_of_no_digit (hs : s.loop = .notCreated) (h : step params s l = some s')
    (hl : l.digit = none) (hm : ∀ a, l = .main a → s.main ≠ .init .loadCounter) :
    s'.prCounter = s.prCounter := by
  rw [prCounter_of_step h]
  cases l with
  | main a => simp [nextCounter, hm a rfl]
  | loop a => simp [nextCounter, hs]
  | input code value a =>
    cases hk : Key.ofEvent code value with
    | none => simp [nextCounter, hk]
    | some k => cases k <;> simp_all [Label.digit, Label.key, nextCounter]
  | _ => rfl

/-- `stream_init` uses the program where it relies on the PMT. -/
theorem MainPc.usesProgram_iff (m : MainPc) : m.usesProgram = true ↔ m.relies = some .pmt := by
  cases m with
  | init p =>
    cases p with
    | freeFilter t => cases t <;> simp [usesProgram, relies]
    | _ => simp [usesProgram, relies]
  | _ => simp [usesProgram, relies]

/-- The main thread comes to the check of the program by a signal. -/
theorem usesProgram_of_mainStep (h : mainStep params a s = some s')
    (hu : s'.main.usesProgram = true) : s.main.usesProgram = true := by
  rw [MainPc.usesProgram_iff] at hu ⊢
  exact (relies_of_mainStep h hu).1

theorem MainPc.usesProgram_afterWait (t : Table) :
    (MainPc.init t.afterWait).usesProgram = decide (t = .pmt) := by
  cases t <;> rfl

/-- A signal brings the main thread to the check of the program from the wait for the PMT. -/
theorem usesProgram_of_signal (hs : s.Coherent) (h : step params s .signal = some s') :
    s'.main.usesProgram = true ↔
      s.main.usesProgram = true ∨ s.main = .init (.waiting .pmt) := by
  obtain ⟨-, -, rfl⟩ := signalStep_eq_some (act_of_step h)
  obtain ⟨hm, hm', -⟩ | ⟨t, hm, hm', -⟩ | ⟨c, hl, hm', -⟩ | ⟨hm, -, hm', -⟩ :=
    State.wake_cases { s with inCallback := false }
  · have hm : s.main = .init .waitingTuner := hm
    rw [hm', hm]
    decide
  · have hm : s.main = .init (.waiting t) := hm
    rw [hm', hm, MainPc.usesProgram_afterWait]
    cases t <;> decide
  · have hloop : s.loop = .switch c .waiting := hl
    have hpast : s.Past (.init .createThread) := hs.created (by simp [hloop])
    have hne : s.main ≠ .init (.waiting .pmt) := by
      intro hm
      rw [State.Past, hm] at hpast
      exact absurd hpast (by decide)
    rw [hm']
    simp [hne]
  · have hne : s.main ≠ .init (.waiting .pmt) := hm .pmt
    rw [hm']
    simp [hne]

/-- No other step brings the main thread to the check of the program. -/
theorem usesProgram_of_step (hs : s.Coherent) (h : step params s l = some s')
    (hl : l ≠ .signal) (hu : s'.main.usesProgram = true) : s.main.usesProgram = true := by
  have hact := act_of_step h
  cases l with
  | main a => exact usesProgram_of_mainStep hact hu
  | signal => exact absurd rfl hl
  | tuner status =>
    obtain ⟨htuning, rfl | rfl⟩ := tunerStep_eq_some hact
    · obtain ⟨hm, hm', -⟩ | ⟨t, hm, hm', -⟩ | ⟨c, -, hm', -⟩ | ⟨-, -, hm', -⟩ :=
        State.wake_cases { s with tuning := false }
      · rw [hm'] at hu
        cases hu
      · -- the tuner has reported before any table is waited for
        have hm : s.main = .init (.waiting t) := hm
        obtain hnot | ⟨hpast, -⟩ := hs.tuning htuning
        · rw [State.Past, hm] at hnot
          exact absurd (by cases t <;> decide) hnot
        · rw [State.Past, hm] at hpast
          exact absurd hpast (by cases t <;> decide)
      · rwa [hm'] at hu
      · rwa [hm'] at hu
    · exact hu
  | timeout =>
    obtain ⟨-, rfl⟩ := timeoutStep_eq_some hact
    cases hu
  | loop a => rwa [(loopStep_frame hact).main] at hu
  | input code value a =>
    obtain hm | ⟨-, hm⟩ := (callback_frame hact).main
    · rwa [hm] at hu
    · rw [hm] at hu
      cases hu
  | deliver d =>
    obtain ⟨-, -, tables, -, rfl⟩ := sectionStep_eq_some hact
    exact hu
  | expire =>
    obtain ⟨-, rfl⟩ := expireStep_eq_some hact
    exact hu
  | handler i => rwa [(handlerStep_frame hact).main] at hu

/-- `stream_init` has loaded `pr_counter`, and goes on. -/
def State.Loaded (s : State) : Prop :=
  ∃ p, s.main = .init p ∧ InitPc.loadCounter.stage < p.stage

theorem loaded_of_initStep {p : InitPc} (h : initStep params a s p = some s') (hs' : s'.Loaded) :
    p = .loadCounter ∨ InitPc.loadCounter.stage < p.stage := by
  by_cases hp : InitPc.loadCounter.stage < p.stage
  · exact .inr hp
  · obtain ⟨p', hm', hp'⟩ := hs'
    cases p with
    | reset =>
      obtain rfl := Option.some.inj h
      obtain rfl : InitPc.loadCounter = p' := by simpa using hm'
      exact absurd hp' (lt_irrefl _)
    | loadCounter => exact .inl rfl
    | _ => exact absurd (by simp [InitPc.stage] <;> omega) hp

/-- The main thread comes to `stream_init` from the registration of the key callback, or from
`stream_init`. -/
theorem init_of_mainStep {p' : InitPc} (h : mainStep params a s = some s')
    (hm' : s'.main = .init p') :
    s.main = .registerRemote ∧ p' = .reset ∨
      ∃ p, s.main = .init p ∧ initStep params a s p = some s' := by
  cases hm : s.main with
  | init p => exact .inr ⟨p, rfl, by simpa [mainStep, hm] using h⟩
  | registerRemote =>
    simp only [mainStep, hm] at h
    obtain rfl := Option.some.inj h
    exact .inl ⟨rfl, (MainPc.init.inj hm').symm⟩
  | deinit q =>
    have h : deinitStep a s q = some s' := by simpa [mainStep, hm] using h
    have hne : ∀ (r : TError × Player) (m : MainPc), m ≠ .init p' →
        (s.deinitAssert r m).main ≠ .init p' := by
      intro r m hne
      unfold State.deinitAssert
      cases r.1
      · simp
      · exact hne
    cases q with
    | stop =>
      simp only [deinitStep] at h
      split at h <;> obtain rfl := Option.some.inj h <;> cases hm'
    | join =>
      simp only [deinitStep] at h
      split at h
      · obtain rfl := Option.some.inj h
        cases hm'
      · obtain rfl := Option.some.inj h
        cases hm'
      · cases h
    | freeTables =>
      obtain rfl := deinitStep_freeTables h
      cases hm'
    | _ =>
      obtain rfl := Option.some.inj h
      exact absurd hm' (hne _ _ (by simp))
  | unregisterRemote =>
    simp only [mainStep, hm] at h
    obtain rfl := Option.some.inj h
    cases hm'
  | running | exited =>
    simp only [mainStep, hm] at h
    cases h
  | _ =>
    simp only [mainStep, hm] at h
    split at h <;> obtain rfl := Option.some.inj h <;> cases hm'

/-- Only the loading itself brings `stream_init` behind it. -/
theorem loaded_of_step (h : step params s l = some s') (hs' : s'.Loaded) :
    (s.main = .init .loadCounter ∧ ∃ a, l = .main a) ∨ s.Loaded := by
  obtain ⟨p', hm', hp'⟩ := hs'
  cases main_of_step h with
  | main a hact =>
    obtain ⟨-, rfl⟩ | ⟨p, hm, hinit⟩ := init_of_mainStep hact hm'
    · exact absurd hp' (by decide)
    · obtain rfl | hp := loaded_of_initStep hinit ⟨p', hm', hp'⟩
      · exact .inl ⟨hm, a, rfl⟩
      · exact .inr ⟨p, hm, hp⟩
  | timeout _ hm => cases hm.symm.trans hm'
  | same _ hm => exact .inr ⟨p', hm ▸ hm', hp'⟩
  | exit _ _ hm => cases hm.symm.trans hm'
  | locked _ hm _ => exact .inr ⟨_, hm, by decide⟩
  | table _ t hm _ => exact .inr ⟨_, hm, by cases t <;> decide⟩

/-! ### The history behind a step -/

/-- The loading of `pr_counter` forgets the digit keys. -/
theorem last_of_load {h : KeyHistory} (hm : s.main = .init .loadCounter) :
    (keyHistory s (.main a) s' h).last = none :=
  if_pos hm

theorem last_of_digit {h : KeyHistory} {program : ℕ} (hl : l.digit = some program) :
    (keyHistory s l s' h).last = some program := by
  cases l with
  | main a => cases hl
  | _ => simp [keyHistory, hl]

theorem last_of_no_digit {h : KeyHistory} (hl : l.digit = none)
    (hm : ∀ a, l = .main a → s.main ≠ .init .loadCounter) :
    (keyHistory s l s' h).last = h.last := by
  cases l with
  | main a => simp [keyHistory, hm a rfl]
  | _ => simp [keyHistory, hl]

/-- A thread that has been created stays so. -/
theorem notCreated_before (h : step params s l = some s') (hl : s'.loop = .notCreated) :
    s.loop = .notCreated := by
  obtain ⟨a, -, hloop⟩ | hl' | ⟨a, -, -, -, hl'⟩ | ⟨c, -, hl'⟩ := loop_of_step h
  · exact absurd hl (created_of_loopStep hloop).2
  · exact hl'.symm.trans hl
  · cases hl'.symm.trans hl
  · cases hl'.symm.trans hl

/-- Where the program is used, there is no stream thread yet. -/
theorem notCreated_of_usesProgram (hs : s.Coherent)
    (hu : s.main.usesProgram = true ∨ s.main = .init (.waiting .pmt)) : s.loop = .notCreated := by
  obtain hu | hm := hu
  · exact notCreated_of_relies hs ((MainPc.usesProgram_iff _).mp hu)
  · exact hs.notCreated (by rw [hm]; decide)

theorem not_loading_of_usesProgram
    (hu : s.main.usesProgram = true ∨ s.main = .init (.waiting .pmt)) :
    s.main ≠ .init .loadCounter := by
  intro hm
  rw [hm] at hu
  obtain hu | hu := hu <;> cases hu

/-! ### Exactly when keys and steps are in order -/

/-- The selected program is that of the last digit key, or the configured one. -/
private structure KeyInv (params : ConfigParams) (x : State × KeyHistory) : Prop where
  coherent : x.1.Coherent
  counter : x.1.Loaded → x.1.loop = .notCreated → x.1.prCounter = x.2.last.getD params.start

private theorem KeyInv.step {x y : State × KeyHistory} (hx : KeyInv params x)
    (h : stepKeys params x l = some y) : KeyInv params y := by
  obtain ⟨hstep, hy⟩ := withHistory_eq_some.mp h
  refine ⟨hx.coherent.step hstep, fun hloaded hloop => ?_⟩
  have hloop' : x.1.loop = .notCreated := notCreated_before hstep hloop
  by_cases hl : x.1.main = .init .loadCounter ∧ ∃ a, l = .main a
  · obtain ⟨hm, a, rfl⟩ := hl
    rw [hy, last_of_load hm, Option.getD_none, prCounter_of_step hstep]
    exact if_pos hm
  · have hm : ∀ a, l = .main a → x.1.main ≠ .init .loadCounter := fun a ha hm => hl ⟨hm, a, ha⟩
    have hcounter : x.1.prCounter = x.2.last.getD params.start :=
      hx.counter ((loaded_of_step hstep hloaded).resolve_left hl) hloop'
    cases hd : l.digit with
    | none =>
      rw [hy, last_of_no_digit hd hm, ← hcounter]
      exact prCounter_of_no_digit hloop' hstep hd hm
    | some program =>
      rw [hy, last_of_digit hd, prCounter_of_digit hstep hd]
      rfl

/-- A signal keeps the program in order exactly if it does not end a wait for the PMT of another
program. -/
private theorem program_signal_iff {x y : State × KeyHistory} (hinv : KeyInv params x)
    (hx : x.1.main.usesProgram = true → x.1.prCounter = params.start)
    (h : step params x.1 .signal = some y.1) :
    (y.1.main.usesProgram = true → y.1.prCounter = params.start) ↔
      (x.1.main = .init (.waiting .pmt) → x.2.last.getD params.start = params.start) := by
  have hcounter : (x.1.main.usesProgram = true ∨ x.1.main = .init (.waiting .pmt)) →
      y.1.prCounter = x.1.prCounter := fun hu =>
    prCounter_of_no_digit (notCreated_of_usesProgram hinv.coherent hu) h rfl (by simp)
  have hwait : x.1.main = .init (.waiting .pmt) → x.1.prCounter = x.2.last.getD params.start :=
    fun hm => hinv.counter ⟨_, hm, by decide⟩
      (notCreated_of_usesProgram hinv.coherent (.inr hm))
  rw [usesProgram_of_signal hinv.coherent h]
  constructor
  · intro hy hm
    rw [← hwait hm, ← hcounter (.inr hm)]
    exact hy (.inr hm)
  · rintro hlast (hu | hm)
    · rw [hcounter (.inl hu)]
      exact hx hu
    · rw [hcounter (.inr hm), hwait hm]
      exact hlast hm

/-- Another step keeps the program in order exactly if it is no digit key for another program
behind the wait. -/
private theorem program_other_iff {x y : State × KeyHistory} (hinv : KeyInv params x)
    (hx : x.1.main.usesProgram = true → x.1.prCounter = params.start)
    (h : step params x.1 l = some y.1) (hl : l ≠ .signal) :
    (y.1.main.usesProgram = true → y.1.prCounter = params.start) ↔
      (x.1.main.usesProgram = true → ∀ program, l.digit = some program →
        program = params.start) := by
  constructor
  · intro hy hu program hd
    rw [← prCounter_of_digit h hd]
    refine hy ?_
    cases l with
    | input code value a =>
      obtain hm | ⟨hm, -⟩ := (callback_frame (act_of_step h)).main
      · rwa [hm]
      · rw [hm] at hu
        cases hu
    | _ => cases hd
  · intro hdigit hu'
    have hu : x.1.main.usesProgram = true := usesProgram_of_step hinv.coherent h hl hu'
    cases hd : l.digit with
    | none =>
      rw [prCounter_of_no_digit (notCreated_of_usesProgram hinv.coherent (.inl hu)) h hd
        fun _ _ => not_loading_of_usesProgram (.inl hu)]
      exact hx hu
    | some program =>
      rw [prCounter_of_digit h hd]
      exact hdigit hu program hd

private theorem inOrder_step_iff {x y : State × KeyHistory} (hinv : KeyInv params x)
    (hx : InOrder params x) (h : stepKeys params x l = some y) :
    InOrder params y ↔ KeepsInOrder params x l := by
  obtain ⟨hstep, hy⟩ := withHistory_eq_some.mp h
  have hfault : y.2.fault = false ↔ (l.digit = some x.1.prCounter → Ready x.1 x.2) := by
    rw [hy]
    simp [keyHistory, hx.fault]
  by_cases hl : l = .signal
  · subst hl
    have hprogram := program_signal_iff hinv hx.program hstep
    exact ⟨fun hy => ⟨hfault.mp hy.fault, fun _ => hprogram.mp hy.program,
        fun _ _ hd => by cases hd⟩,
      fun hC => ⟨hfault.mpr hC.ready, hprogram.mpr (hC.last rfl)⟩⟩
  · have hprogram := program_other_iff hinv hx.program hstep hl
    exact ⟨fun hy => ⟨hfault.mp hy.fault, fun h => absurd h hl, hprogram.mp hy.program⟩,
      fun hC => ⟨hfault.mpr hC.ready, hprogram.mpr hC.digit⟩⟩

/-- **The zapper keeps clear of what is not there, and starts the configured program, throughout a
run exactly when its digit keys meet the condition.** -/
theorem inOrder_iff (params : ConfigParams) (ls : List Label) :
    Always (stepKeys params) (InOrder params) (.powerOn, ⟨false, none, false⟩) ls ↔
      Meets (stepKeys params) (KeepsInOrder params) (.powerOn, ⟨false, none, false⟩) ls := by
  refine always_iff_meets (I := KeyInv params) ⟨coherent_powerOn, ?_⟩ ⟨rfl, ?_⟩
    (fun _ _ _ hx h => hx.step h) fun _ _ _ hinv hx h => inOrder_step_iff hinv hx h
  · rintro ⟨p, hm, -⟩
    cases hm
  · intro hu
    cases hu

/-- The first program is selected before the PAT is there. -/
theorem not_forall_always_inOrder : ¬ ∀ (params : ConfigParams) (ls : List Label),
    Always (stepKeys params) (InOrder params) (.powerOn, ⟨false, none, false⟩) ls := by
  intro h
  have hrun : (exec (stepKeys (configIni 1)) (.powerOn, ⟨false, none, false⟩)
      [.main (.ok 1), .main (.ok 1), .input 2 1 (.ok 1)]).map (fun x => x.2.fault) =
        some true := by decide +kernel
  obtain ⟨x, hx, hfault⟩ := (h (configIni 1) _).observe hrun
  rw [hx.fault] at hfault
  cases hfault

end Zapper
