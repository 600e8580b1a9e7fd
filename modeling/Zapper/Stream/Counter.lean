import Zapper.Section.Pat
import Zapper.Stream.Phases

/-!
# The selected program

`pr_counter` is written in four places: `stream_init` takes it from the configuration, a digit
key stores its program, and the blocks for the next and the previous program move it on.
`prCounter_of_step` says what each step does to it, `tables_of_step` the same for the tables.

Only the moves look at `pmt_count`, and they keep `pr_counter` below it if it is below it. So
`pr_counter` stays in range exactly as long as no digit key selects a program the PAT does not
have, and no PAT arrives that has too few programs for the selected one (`inRange_iff`): this
goes for the configured `program_number` as well.
-/

namespace Zapper

open Transition

variable {params : ConfigParams} {a : Answer} {s s' : State} {l : Label}

/-! ### What a step does to `pr_counter` and to the tables -/

/-- The program `stream_init` selects. -/
def ConfigParams.start (params : ConfigParams) : ℕ :=
  (params.programNumber + (2 ^ 32 - 1)) % 2 ^ 32

/-- The program selected after a step. -/
def nextCounter (params : ConfigParams) (s : State) : Label → ℕ
  | .main _ => if s.main = .init .loadCounter then params.start else s.prCounter
  | .loop _ =>
    match s.loop with
    | .switch c .count => c.count s.prCounter s.tables.pat.pmtCount
    | _ => s.prCounter
  | .input code value _ =>
    match Key.ofEvent code value with
    | some (.digit program) => program
    | _ => s.prCounter
  | _ => s.prCounter

theorem prCounter_of_mainStep (h : mainStep params a s = some s') :
    s'.prCounter = if s.main = .init .loadCounter then params.start else s.prCounter := by
  split
  · next hm =>
    simp only [mainStep, hm] at h
    obtain rfl := Option.some.inj h
    rfl
  · next hne =>
    rcases mainStep_writes h with h | ⟨-, h⟩ | ⟨hm, -⟩ | ⟨-, h⟩ | ⟨-, h⟩ | ⟨-, h⟩ | ⟨_, _, -, h⟩ |
      ⟨-, h⟩
    case loadCounter => exact absurd hm hne
    all_goals rw [h]

theorem prCounter_of_loopStep (h : loopStep params a s = some s') :
    s'.prCounter = nextCounter params s (.loop a) := by
  cases loopStep_writes h with
  | count c hl h =>
    rw [h, nextCounter, hl]
  | block c p hl hcount _ h =>
    rw [h, nextCounter, hl]
    split
    · next hp => exact absurd (LoopPc.switch.inj hp).2 hcount
    · rfl
  | clear c hl h => rw [h, nextCounter, hl]
  | outside hl h =>
    rw [h, nextCounter]
    split
    · next c hp => exact absurd hp (hl c _)
    · rfl

theorem prCounter_of_press {k : Key} (h : press a s k = some s') :
    s'.prCounter = match k with
      | .digit program => program
      | _ => s.prCounter := by
  cases press_writes h with
  | digit program hw =>
    refine (congrArg State.prCounter hw).trans ?_
    unfold changeProgram
    split
    · rfl
    · next heq => exact (not_not.mp heq).symm
  | request hk hw | volume hk _ _ _ hw =>
    refine (congrArg State.prCounter hw).trans ?_
    split
    · simp at hk
    · rfl
  | pPlus hw | pMinus hw | back hw | exit _ hw => exact (congrArg State.prCounter hw).trans rfl

/-- **What a step does to `pr_counter`.** -/
theorem prCounter_of_step (h : step params s l = some s') :
    s'.prCounter = nextCounter params s l := by
  have hact := act_of_step h
  cases l with
  | main a => exact prCounter_of_mainStep hact
  | loop a => exact prCounter_of_loopStep hact
  | input code value a =>
    obtain ⟨k, hk, hpress⟩ | ⟨hk, rfl⟩ := callback_cases hact
    · rw [prCounter_of_press hpress]
      simp only [nextCounter, hk]
      cases k <;> rfl
    · simp only [nextCounter, hk]
  | handler i => exact (handlerStep_frame hact).prCounter
  | _ => exact (event_frame h rfl).prCounter

/-- **What a step does to the tables**: only a call of `filter_callback` writes them. -/
theorem tables_of_step (h : step params s l = some s') :
    (∃ d, l = .deliver d ∧ filterCallback d s.tables = some s'.tables) ∨
      (∀ d, l ≠ .deliver d) ∧ s'.tables = s.tables := by
  have hact := act_of_step h
  cases l with
  | main a => exact .inr ⟨by simp, (mainStep_frame hact).tables⟩
  | loop a => exact .inr ⟨by simp, (loopStep_frame hact).tables⟩
  | input code value a => exact .inr ⟨by simp, (callback_frame hact).tables⟩
  | deliver d =>
    obtain ⟨-, -, tables, ht, rfl⟩ := sectionStep_eq_some hact
    exact .inl ⟨d, rfl, ht⟩
  | handler i => exact .inr ⟨by simp, (handlerStep_frame hact).tables⟩
  | _ => exact .inr ⟨by simp, (event_frame h rfl).tables (by simp)⟩

/-! ### The number of programs -/

theorem progCount_lt (len : ℕ) : progCount len < 256 := by
  unfold progCount
  omega

theorem parsePAT_pmtCount (junk : ℕ → PMT) (buffer : Buffer) :
    (parsePAT junk buffer).pmtCount = progCount (sectionLength buffer) := by
  have hfold : ∀ (ns : List ℕ) (st : PAT × ℕ),
      (ns.foldl (fun st i => parsePATEntry buffer st (8 + i * 4)) st).1.pmtCount =
        st.1.pmtCount := by
    intro ns
    induction ns with
    | nil => exact fun _ => rfl
    | cons n ns ih =>
      intro st
      rw [List.foldl_cons, ih, parsePATEntry]
      split <;> rfl
  exact hfold _ _

/-- The number of programs after a call of `filter_callback`. -/
theorem pmtCount_of_filterCallback {d : Delivery} {t t' : Tables}
    (h : filterCallback d t = some t') :
    t'.pat.pmtCount =
      if stored d t = .pat then progCount (sectionLength d.buffer) else t.pat.pmtCount := by
  by_cases hp : stored d t = .pat
  · obtain ⟨-, rfl⟩ | ⟨j, pmt, hs, -⟩ | ⟨sdt, hs, -⟩ | ⟨hs, -⟩ := filterCallback_cases h
    · rw [if_pos hp, ← parsePAT_pmtCount]
    all_goals
      rw [hs] at hp
      cases hp
  · rw [if_neg hp]
    exact (filterCallback_pat h hp).1

theorem pmtCount_lt_of_step (h : step params s l = some s')
    (hs : s.tables.pat.pmtCount < 256) : s'.tables.pat.pmtCount < 256 := by
  obtain ⟨d, -, hd⟩ | ⟨-, ht⟩ := tables_of_step h
  · rw [pmtCount_of_filterCallback hd]
    split
    · exact progCount_lt _
    · exact hs
  · rw [ht]
    exact hs

/-- A PAT has at most 255 programs. -/
theorem Reachable.pmtCount_lt (h : Reachable params s) : s.tables.pat.pmtCount < 256 :=
  h.induction (by decide) fun _ _ _ hs hstep => pmtCount_lt_of_step hstep hs

/-- The moves to the next and the previous program stay in range. -/
theorem Command.count_lt (c : Command) {k n : ℕ} (hk : k < n) (hn : n < 2 ^ 32) :
    c.count k n < n := by
  unfold count
  split
  · exact hk
  · split
    · omega
    · next h => exact lt_of_le_of_ne (by omega) h
  · split <;> omega

/-! ### Staying in range -/

/-- A history variable: whether a PAT section has been parsed. -/
def patParsed (s : State) (l : Label) (_ : State) (parsed : Bool) : Bool :=
  match l with
  | .deliver d => parsed || stored d s.tables = .pat
  | _ => parsed

/-- Once the PAT has been parsed, the selected program exists. -/
def InRange (x : State × Bool) : Prop :=
  x.2 = true → x.1.prCounter < x.1.tables.pat.pmtCount

/-- The condition on a step: a PAT section has a program for `pr_counter`, and a digit key
pressed after the first PAT section selects a program that exists. -/
def KeepsInRange (x : State × Bool) : Label → Prop
  | .deliver d =>
    stored d x.1.tables = .pat → x.1.prCounter < progCount (sectionLength d.buffer)
  | .input code value _ => ∀ program, Key.ofEvent code value = some (.digit program) →
    x.2 = true → program < x.1.tables.pat.pmtCount
  | _ => True

/-- `pr_counter` has its configured value before the first PAT section is parsed, and a PAT has
at most 255 programs. -/
private structure CounterInv (x : State × Bool) : Prop where
  coherent : x.1.Coherent
  parsed : x.2 = true → x.1.Past (.init .loadCounter)
  pmtCount : x.1.tables.pat.pmtCount < 256

private theorem CounterInv.step {x y : State × Bool} (hx : CounterInv x)
    (h : withHistory (step params) patParsed x l = some y) : CounterInv y := by
  obtain ⟨h, hy⟩ := withHistory_eq_some.mp h
  refine ⟨hx.coherent.step h, fun hp => ?_, pmtCount_lt_of_step h hx.pmtCount⟩
  cases l with
  | deliver d =>
    obtain ⟨hr, -, -⟩ := sectionStep_eq_some (act_of_step h)
    have hp : x.1.Past (.init .loadCounter) :=
      (show _ < _ by decide).trans (hx.coherent.registered hr)
    exact hp.step h
  | _ => exact (hx.parsed (hy.symm.trans hp)).step h

/-- The step lemma: a step keeps `pr_counter` in range exactly when it meets the condition. -/
private theorem inRange_step_iff {x y : State × Bool} (hx : CounterInv x) (hr : InRange x)
    (h : withHistory (step params) patParsed x l = some y) :
    InRange y ↔ KeepsInRange x l := by
  obtain ⟨h, hy⟩ := withHistory_eq_some.mp h
  have hcounter := prCounter_of_step h
  unfold InRange at hr ⊢
  obtain ⟨d, rfl, hd⟩ | ⟨hl, htables⟩ := tables_of_step h
  · rw [hcounter, pmtCount_of_filterCallback hd]
    by_cases hp : stored d x.1.tables = .pat
    · simp [nextCounter, KeepsInRange, hy, patParsed, hp]
    · simpa [nextCounter, KeepsInRange, hy, patParsed, hp] using hr
  · -- the PAT stays as it is
    have hparsed : y.2 = x.2 := by
      cases l with
      | deliver d => exact absurd rfl (hl d)
      | _ => exact hy
    rw [hcounter, htables, hparsed]
    cases l with
    | main a =>
      refine iff_of_true (fun hp => ?_) trivial
      have hne : x.1.main ≠ .init .loadCounter := fun hm => by
        have hpast := hx.parsed hp
        rw [State.Past, hm] at hpast
        exact absurd hpast (lt_irrefl _)
      rw [nextCounter, if_neg hne]
      exact hr hp
    | loop a =>
      refine iff_of_true (fun hp => ?_) trivial
      have hlt := hr hp
      simp only [nextCounter]
      split
      · exact Command.count_lt _ hlt (by have := hx.pmtCount; omega)
      · exact hlt
    | input code value a =>
      cases hk : Key.ofEvent code value with
      | none => simpa [nextCounter, KeepsInRange, hk] using hr
      | some k =>
        cases k with
        | digit program => simp [nextCounter, KeepsInRange, hk]
        | _ => simpa [nextCounter, KeepsInRange, hk] using hr
    | deliver d => exact absurd rfl (hl d)
    | _ => exact iff_of_true hr trivial

/-- **`pr_counter` selects a program of the PAT throughout a run exactly when every PAT section
of the run has a program for it, and every digit key pressed after the first of them selects a
program that exists.** -/
theorem inRange_iff (params : ConfigParams) (ls : List Label) :
    Always (withHistory (step params) patParsed) InRange (.powerOn, false) ls ↔
      Meets (withHistory (step params) patParsed) KeepsInRange (.powerOn, false) ls :=
  always_iff_meets (I := CounterInv)
    ⟨coherent_powerOn, by simp, by decide⟩ (by simp [InRange])
    (fun _ _ _ hx h => hx.step h) fun _ _ _ hx hr h => inRange_step_iff hx hr h

/-! ### A start of the zapper -/

/-- The player does what it is asked for, and returns the handle `h`. -/
def Answer.ok (h : ℕ) : Answer := ⟨true, true, h, h⟩

/-- The labels of a start up to the first section: the tuner locks, and the filter for the PAT
is set. -/
def startUpToPat : List Label :=
  List.replicate 8 (Label.main (.ok 0)) ++ [Label.tuner .locked, .main (.ok 1), .main (.ok 2),
    .main (.ok 3), .main (.ok 0), .main (.ok 0)]

/-- The configuration of the repository (`config.ini`), with the program left open. -/
def configIni (programNumber : ℕ) : ConfigParams where
  frequency := 754000000
  bandwidth := 8
  audioPid := 1003
  videoPid := 1001
  audioType := 10
  videoType := 42
  programNumber := programNumber

/-- A transport stream with one program, and program 7 in the configuration. -/
theorem not_forall_always_inRange : ¬ ∀ (params : ConfigParams) (ls : List Label),
    1 ≤ params.programNumber → params.programNumber ≤ 7 →
      (∀ d, Label.deliver d ∈ ls → 1 ≤ progCount (sectionLength d.buffer)) →
        Always (withHistory (step params) patParsed) InRange (.powerOn, false) ls := by
  intro h
  let sec : PatSection := .ofPrograms [⟨0x101, 7, 0x100⟩] (by decide)
  have hrun : (exec (withHistory (step (configIni 7)) patParsed) (.powerOn, false)
      (startUpToPat ++ [.deliver (.ofBytes 0 sec.bytes)])).map
        (fun x => (x.2, x.1.prCounter, x.1.tables.pat.pmtCount)) = some (true, 6, 1) := by
    decide +kernel
  have hcount : 1 ≤ progCount (sectionLength (Delivery.ofBytes 0 sec.bytes).buffer) := by
    decide +kernel
  obtain ⟨x, hx, hobs⟩ := (h (configIni 7) _ (by decide) (by decide)
    (fun d hd => by simp [startUpToPat] at hd; exact hd ▸ hcount)).observe hrun
  simp only [Prod.mk.injEq] at hobs
  obtain ⟨hparsed, hcounter, hpmt⟩ := hobs
  have hlt := hx hparsed
  rw [hcounter, hpmt] at hlt
  exact absurd hlt (by decide)

end Zapper
