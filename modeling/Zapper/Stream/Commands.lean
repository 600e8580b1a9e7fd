import Zapper.Section.Broadcast
import Zapper.Stream.Counter

/-!
# Commands

A digit key selects its program at once and leaves the switch to the stream thread. The keys for
the next and the previous program only raise a flag; the stream thread moves `pr_counter` when
it serves the flag, and takes the flag down when the switch is over.

`State.target` is the program that will be selected once the raised flags have been served. A
press does to it what it should do to the selected program, unless the flag it raises is up
already, or a digit key overtakes one pending move. So `pr_counter` ends up where the presses
lead, one after the other, in every run in which no press is lost or overtakes another
(`prCounter_eq_foldl`).
-/

namespace Zapper

open Transition

variable {params : ConfigParams} {a : Answer} {s s' : State} {l : Label} {n k : ℕ}

/-! ### What a step does to the command flags -/

@[simp] theorem StreamParams.flag_clear_self (prm : StreamParams) (c : Command) :
    (prm.clear c).flag c = false := by cases c <;> rfl

theorem StreamParams.flag_clear_of_ne (prm : StreamParams) {c c' : Command} (h : c' ≠ c) :
    (prm.clear c).flag c' = prm.flag c' := by
  cases c <;> cases c' <;> first | rfl | exact absurd rfl h

/-- No block is being served. -/
def LoopPc.Outside (pc : LoopPc) : Prop := ∀ c p, pc ≠ .switch c p

/-- The flags and the selected program are the same. -/
structure SameCommands (s s' : State) : Prop where
  flag : ∀ c, s'.strPrm.flag c = s.strPrm.flag c
  prCounter : s'.prCounter = s.prCounter

/-- A block is left behind the reset of its flag only. -/
theorem SwitchPc.next_of_ne_clear {p : SwitchPc} (s : State) (c : Command) (hp : p ≠ .clear) :
    ∃ p', p.next s c = .switch c p' ∧ p' ≠ .count := by
  cases p with
  | clear => exact absurd rfl hp
  | announce => exact ⟨_, rfl, by split <;> simp⟩
  | _ => exact ⟨_, rfl, by simp⟩

/-- Outside the blocks, the stream thread goes to another place outside them, or enters the block
of a command whose flag is up. -/
theorem LoopPc.next_of_outside {pc : LoopPc} (hpc : pc.Outside) :
    (∃ c, pc = .test c ∧ s.strPrm.flag c = true ∧ pc.next s = .switch c c.entry) ∨
      (pc.next s).Outside ∧ (pc ≠ .exited .error → pc.next s ≠ .exited .error) := by
  cases pc with
  | switch c p => exact absurd rfl (hpc c p)
  | test c =>
    by_cases hf : s.strPrm.flag c = true
    · exact .inl ⟨c, rfl, hf, if_pos hf⟩
    · rw [LoopPc.next, if_neg hf]
      cases c <;> simp [LoopPc.Outside, Command.following]
  | head =>
    rw [LoopPc.next]
    split <;> simp [LoopPc.Outside]
  | _ => simp [LoopPc.Outside, LoopPc.next]

/-- **What the stream thread does to commands**: it enters the block of a command whose flag is
up, moves `pr_counter`, goes through the block, takes the flag down behind it, or gives up
inside a block; outside the blocks it leaves commands alone. -/
theorem loopStep_commands (h : loopStep params a s = some s') :
    (∃ c, s.loop = .test c ∧ s.strPrm.flag c = true ∧ s'.loop = .switch c c.entry ∧
      SameCommands s s') ∨
    (∃ c, s.loop = .switch c .count ∧ s'.loop = .switch c .bgd ∧ s'.strPrm = s.strPrm ∧
      s'.prCounter = c.count s.prCounter s.tables.pat.pmtCount) ∨
    (∃ c p p', s.loop = .switch c p ∧ p ≠ .count ∧ s'.loop = .switch c p' ∧ p' ≠ .count ∧
      SameCommands s s') ∨
    (∃ c, s.loop = .switch c .clear ∧ s'.loop = c.following ∧ s'.strPrm = s.strPrm.clear c ∧
      s'.prCounter = s.prCounter) ∨
    (∃ c p, s.loop = .switch c p ∧ s'.loop = .exited .error ∧ SameCommands s s') ∨
    (s.loop.Outside ∧ s'.loop.Outside ∧ s'.loop ≠ .exited .error ∧ SameCommands s s') := by
  cases loopStep_writes h with
  | count c hl hw => exact .inr (.inl ⟨c, hl, by rw [hw], by rw [hw], by rw [hw]⟩)
  | block c p hl hcount hclear hw =>
    have hsame : SameCommands s s' := ⟨fun _ => by rw [hw], by rw [hw]⟩
    obtain hn | ⟨-, he⟩ := loop_of_loopStep h
    · obtain ⟨p', hp', hne⟩ := p.next_of_ne_clear s c hclear
      rw [hl] at hn
      exact .inr (.inr (.inl ⟨c, p, p', hl, hcount, hn.trans hp', hne, hsame⟩))
    · exact .inr (.inr (.inr (.inr (.inl ⟨c, p, hl, he, hsame⟩))))
  | clear c hl hw => exact .inr (.inr (.inr (.inl ⟨c, hl, by rw [hw], by rw [hw], by rw [hw]⟩)))
  | outside hl hw =>
    have hsame : SameCommands s s' := ⟨fun c => by rw [hw]; cases c <;> rfl, by rw [hw]⟩
    obtain hn | ⟨⟨c, p, hp⟩, -⟩ := loop_of_loopStep h
    · obtain ⟨c, hp, hf, hnext⟩ | ⟨houtside, hnext⟩ := LoopPc.next_of_outside (s := s) hl
      · exact .inl ⟨c, hp, hf, hn.trans hnext, hsame⟩
      · rw [← hn] at houtside hnext
        refine .inr (.inr (.inr (.inr (.inr ⟨hl, houtside, hnext fun he => ?_, hsame⟩))))
        simp [loopStep, he] at h
    · exact absurd hp (hl c p)

theorem strPrm_of_switchStep {c : Command} {p : SwitchPc} (hl : s.loop = .switch c p)
    (h : switchStep params a c s p = some s') (hp : p ≠ .clear) : s'.strPrm = s.strPrm := by
  rcases switchStep_writes hl h with ⟨_, -, hw⟩ | ⟨_, _, -, -, -, hw⟩ | ⟨_, hc, -⟩ | ⟨ho, -⟩
  · rw [hw]
  · rw [hw]
  · cases hl.symm.trans hc
    exact absurd rfl hp
  · exact absurd hl (ho c p)

theorem strPrm_of_mainStep (h : mainStep params a s = some s') :
    s'.strPrm = s.strPrm ∨ s.main = .init .reset := by
  rcases mainStep_writes h with h | ⟨hm, -⟩ | ⟨-, h⟩ | ⟨-, h⟩ | ⟨-, h⟩ | ⟨-, h⟩ | ⟨_, _, -, h⟩ |
    ⟨-, h⟩
  case reset => exact .inr hm
  all_goals exact .inl (by rw [h])

/-- Behind the load of the configured program, the main thread leaves commands alone. -/
theorem sameCommands_of_mainStep (h : mainStep params a s = some s')
    (hs : s.Past (.init .loadCounter)) : SameCommands s s' := by
  have hprm : s'.strPrm = s.strPrm := by
    obtain h | hm := strPrm_of_mainStep h
    · exact h
    · rw [State.Past, hm] at hs
      exact absurd hs (by decide)
  have hcounter : s'.prCounter = s.prCounter := by
    rw [prCounter_of_mainStep h, if_neg]
    intro hm
    rw [State.Past, hm] at hs
    exact absurd hs (lt_irrefl _)
  exact ⟨fun c => by rw [hprm], hcounter⟩

/-- A key that does not switch programs. -/
def Key.Idle : Key → Prop
  | .digit _ => False
  | .pPlus => False
  | .pMinus => False
  | _ => True

/-- The keys that switch programs wait for `stream_params_mutex`. -/
theorem holdsParams_of_press {key : Key} (h : press a s key = some s') (hk : ¬ key.Idle) :
    s.loop.holdsParams = false := by
  by_contra hheld
  cases key <;> simp_all [press, Key.Idle]

theorem sameCommands_of_press {key : Key} (h : press a s key = some s') (hk : key.Idle) :
    SameCommands s s' := by
  cases press_writes h with
  | digit | pPlus | pMinus => exact hk.elim
  | request _ hw => exact ⟨fun c => by rw [hw]; cases c <;> rfl, by rw [hw]⟩
  | back hw | exit _ hw => exact ⟨fun _ => by rw [hw], by rw [hw]⟩
  | volume _ _ _ _ hw => exact ⟨fun _ => by rw [hw]; rfl, by rw [hw]; rfl⟩

/-- Sections, signals and timers leave commands alone. -/
theorem sameCommands_of_step (h : step params s l = some s') (hmain : ∀ a, l ≠ .main a)
    (hloop : ∀ a, l ≠ .loop a) (hinput : ∀ code value a, l ≠ .input code value a) :
    SameCommands s s' := by
  have hact := act_of_step h
  cases l with
  | main a => exact absurd rfl (hmain a)
  | loop a => exact absurd rfl (hloop a)
  | input code value a => exact absurd rfl (hinput code value a)
  | handler i =>
    have hframe := handlerStep_frame hact
    exact ⟨fun _ => by rw [hframe.strPrm], hframe.prCounter⟩
  | _ =>
    have hframe := event_frame h rfl
    exact ⟨fun _ => by rw [hframe.strPrm], hframe.prCounter⟩

/-! ### The flag of a command is up while it is served -/

theorem flag_of_press {key : Key} (h : press a s key = some s') (c : Command)
    (hc : s.strPrm.flag c = true) : s'.strPrm.flag c = true := by
  cases press_writes h with
  | digit program hw =>
    rw [hw, changeProgram]
    split
    · cases c
      · rfl
      · exact hc
      · exact hc
    · exact hc
  | pPlus hw | pMinus hw | request _ hw =>
    rw [hw]
    cases c <;> first | rfl | exact hc
  | back hw | volume _ _ _ _ hw | exit _ hw =>
    rw [hw]
    exact hc

/-- Only the stream thread takes a flag down, once it is running. -/
theorem flag_of_step (hs : s.Coherent) (hcreated : s.loop ≠ .notCreated)
    (h : step params s l = some s') (hl : ∀ a, l ≠ .loop a) (c : Command)
    (hc : s.strPrm.flag c = true) : s'.strPrm.flag c = true := by
  have hact := act_of_step h
  cases l with
  | main a =>
    have hp := hs.created hcreated
    rw [(sameCommands_of_mainStep hact ((show _ < _ by decide).trans hp)).flag]
    exact hc
  | loop a => exact absurd rfl (hl a)
  | input code value a =>
    obtain ⟨key, -, hpress⟩ | ⟨-, rfl⟩ := callback_cases hact
    · exact flag_of_press hpress c hc
    · exact hc
  | _ =>
    rw [(sameCommands_of_step h (by simp) (by simp) (by simp)).flag]
    exact hc

/-- While a block is served, the flag of its command is up. -/
def Serving (s : State) : Prop := ∀ c p, s.loop = .switch c p → s.strPrm.flag c = true

theorem Serving.step (hs : Serving s) (hcoherent : s.Coherent) (h : step params s l = some s') :
    Serving s' := by
  intro c p hl'
  have hother : s.loop = s'.loop ∨ (∃ q, s.loop = .switch c q) → (∀ a, l ≠ .loop a) →
      s'.strPrm.flag c = true := by
    rintro hl hne
    obtain ⟨q, hq⟩ : ∃ q, s.loop = .switch c q := hl.elim (fun hl => ⟨p, hl.trans hl'⟩) id
    exact flag_of_step hcoherent (by rw [hq]; simp) h hne c (hs c q hq)
  by_cases hne : ∀ a, l ≠ .loop a
  · obtain ⟨a, rfl, -⟩ | hl | ⟨a, -, -, -, hl⟩ | ⟨c', hl, hl''⟩ := loop_of_step h
    · exact absurd rfl (hne a)
    · exact hother (.inl hl.symm) hne
    · cases hl.symm.trans hl'
    · obtain ⟨rfl, -⟩ : c' = c ∧ _ = p := by simpa using hl''.symm.trans hl'
      exact hother (.inr ⟨_, hl⟩) hne
  · push Not at hne
    obtain ⟨a, rfl⟩ := hne
    obtain ⟨c', -, hf, hl, hsame⟩ | ⟨c', hl, hl'', hprm, -⟩ | ⟨c', q, q', hl, -, hl'', -, hsame⟩ |
      ⟨c', -, hl, -⟩ | ⟨c', q, -, hl, -⟩ | ⟨-, houtside, -⟩ := loopStep_commands (act_of_step h)
    · obtain ⟨rfl, -⟩ : c' = c ∧ _ = p := by simpa using hl.symm.trans hl'
      exact (hsame.flag _).trans hf
    · obtain ⟨rfl, -⟩ : c' = c ∧ _ = p := by simpa using hl''.symm.trans hl'
      rw [hprm]
      exact hs _ _ hl
    · obtain ⟨rfl, -⟩ : c' = c ∧ _ = p := by simpa using hl''.symm.trans hl'
      exact (hsame.flag _).trans (hs _ _ hl)
    · rw [hl] at hl'
      cases c' <;> cases hl'
    · cases hl.symm.trans hl'
    · exact absurd hl' (houtside c p)

/-! ### What the presses ask for -/

/-- What a key should do to the selected program, of `n` programs. -/
def Key.select (n k : ℕ) : Key → ℕ
  | .digit program => program
  | .pPlus => (k + 1) % n
  | .pMinus => (k + (n - 1)) % n
  | _ => k

/-- A move to the next or the previous program is still to be made. -/
def State.owes (s : State) (c : Command) : Bool :=
  s.strPrm.flag c && match s.loop with
    | .switch c' p => c' ≠ c || p = .count
    | _ => true

/-- Program `k`, moved on by the pending moves to the next and to the previous program. -/
def moved (n k : ℕ) (next previous : Bool) : ℕ :=
  let k := if next then (k + 1) % n else k
  if previous then (k + (n - 1)) % n else k

/-- The program that is selected once the pending moves have been made. -/
def State.target (s : State) (n : ℕ) : ℕ :=
  moved n s.prCounter (s.owes .next) (s.owes .previous)

/-- There are `n` programs, and the digit keys select existing ones. -/
structure WithPrograms (n : ℕ) (s : State) (l : Label) : Prop where
  digit : ∀ program, l.key = some (.digit program) → program < n
  pat : ∀ d, l = .deliver d → stored d s.tables = .pat →
    progCount (sectionLength d.buffer) = n

instance (n : ℕ) (s : State) (l : Label) : Decidable (WithPrograms n s l) :=
  let digit : Bool := match l.key with
    | some (.digit program) => program < n
    | _ => true
  let pat : Bool := match l with
    | .deliver d => stored d s.tables = .pat → progCount (sectionLength d.buffer) = n
    | _ => true
  decidable_of_iff (digit ∧ pat) (by
    constructor
    · rintro ⟨hdigit, hpat⟩
      refine ⟨fun program hp => ?_, fun d hd => ?_⟩
      · simpa [digit, hp] using hdigit
      · subst hd
        exact of_decide_eq_true hpat
    · intro h
      refine ⟨?_, ?_⟩
      · unfold digit
        split
        · exact decide_eq_true (h.digit _ ‹_›)
        · rfl
      · unfold pat
        split
        · exact decide_eq_true (h.pat _ rfl)
        · rfl)

/-- The condition on a press: a flag is not raised while it is up, and a digit key does not
overtake a single pending move. With one program it does not matter. -/
structure PressInTime (n : ℕ) (s : State) (l : Label) : Prop where
  pPlus : l.key = some .pPlus → s.strPrm.nextProgram = false ∨ n = 1
  pMinus : l.key = some .pMinus → s.strPrm.previousProgram = false ∨ n = 1
  digit : ∀ program, l.key = some (.digit program) →
    s.strPrm.nextProgram = s.strPrm.previousProgram ∨ n = 1

instance (n : ℕ) (s : State) (l : Label) : Decidable (PressInTime n s l) :=
  let inTime : Bool := match l.key with
    | some .pPlus => s.strPrm.nextProgram = false ∨ n = 1
    | some .pMinus => s.strPrm.previousProgram = false ∨ n = 1
    | some (.digit _) => s.strPrm.nextProgram = s.strPrm.previousProgram ∨ n = 1
    | _ => true
  decidable_of_iff inTime (by
    constructor
    · intro h
      refine ⟨fun hk => ?_, fun hk => ?_, fun program hk => ?_⟩ <;> simpa [inTime, hk] using h
    · intro h
      unfold inTime
      split
      · exact decide_eq_true (h.pPlus ‹_›)
      · exact decide_eq_true (h.pMinus ‹_›)
      · exact decide_eq_true (h.digit _ ‹_›)
      · rfl)

/-- The presses so far lead to program `k`: it is the target, unless the stream thread has
given up, and then its command is pending for ever. -/
structure LeadsTo (n k : ℕ) (s : State) : Prop where
  coherent : s.Coherent
  loaded : s.Past (.init .loadCounter)
  pmtCount : s.tables.pat.pmtCount = n
  prCounter_lt : s.prCounter < n
  lt : n < 2 ^ 32
  serving : Serving s
  gaveUp : s.loop = .exited .error → ∃ c, s.strPrm.flag c = true
  target : s.loop ≠ .exited .error → s.target n = k

theorem LoopPc.outside_of_not_holdsParams {pc : LoopPc} (h : pc.holdsParams = false) :
    pc.Outside ∧ pc ≠ .exited .error := by
  refine ⟨fun c p hp => ?_, fun hp => ?_⟩ <;> rw [hp] at h <;> cases h

theorem State.owes_of_outside (h : s.loop.Outside) (c : Command) : s.owes c = s.strPrm.flag c := by
  unfold owes
  split
  · next c' p hl => exact absurd hl (h c' p)
  · rw [Bool.and_true]

theorem State.owes_of_switch {c : Command} {p : SwitchPc} (h : s.loop = .switch c p)
    (c' : Command) : s.owes c' = (s.strPrm.flag c' && (c ≠ c' || p = .count)) := by
  rw [owes, h]

theorem State.target_of_outside (h : s.loop.Outside) (n : ℕ) :
    s.target n = moved n s.prCounter s.strPrm.nextProgram s.strPrm.previousProgram := by
  rw [target, owes_of_outside h, owes_of_outside h]
  rfl

theorem State.target_congr (howes : ∀ c ≠ .change, s'.owes c = s.owes c)
    (hcounter : s'.prCounter = s.prCounter) : s'.target n = s.target n := by
  rw [target, howes .next (by decide), howes .previous (by decide), hcounter, target]

/-! ### Moves among `n` programs -/

theorem Command.count_next (hk : k < n) (hn : n < 2 ^ 32) :
    Command.next.count k n = (k + 1) % n := by
  have hmod : (k + 1) % 2 ^ 32 = k + 1 := Nat.mod_eq_of_lt (by omega)
  simp only [count, hmod]
  split
  · next h => rw [h, Nat.mod_self]
  · rw [Nat.mod_eq_of_lt (by omega)]

theorem Command.count_previous (hk : k < n) (hn : n < 2 ^ 32) :
    Command.previous.count k n = (k + (n - 1)) % n := by
  simp only [count]
  split
  · next h =>
    subst h
    rw [Nat.zero_add, Nat.mod_eq_of_lt (show n - 1 < n by omega)]
    omega
  · rw [show k + (n - 1) = k - 1 + n by omega, Nat.add_mod_right, Nat.mod_eq_of_lt (by omega)]

/-- Moves to the next and to the previous program can be made in any order. -/
theorem next_previous_comm (n k : ℕ) :
    ((k + 1) % n + (n - 1)) % n = ((k + (n - 1)) % n + 1) % n := by
  rw [Nat.mod_add_mod, Nat.mod_add_mod, Nat.add_right_comm]

/-- They cancel. -/
theorem next_previous_cancel (hk : k < n) : ((k + 1) % n + (n - 1)) % n = k := by
  rw [Nat.mod_add_mod, show k + 1 + (n - 1) = k + n by omega, Nat.add_mod_right,
    Nat.mod_eq_of_lt hk]

theorem State.target_lt (h : s.prCounter < n) : s.target n < n := by
  have hn : 0 < n := by omega
  have hmod : ∀ x, x % n < n := fun x => Nat.mod_lt x hn
  unfold target moved
  dsimp only
  split_ifs <;> first | exact hmod _ | exact h

theorem Key.select_lt (hk : k < n) {key : Key} (h : ∀ program, key = .digit program → program < n) :
    key.select n k < n := by
  have hn : 0 < n := by omega
  cases key with
  | digit program => exact h program rfl
  | pPlus => exact Nat.mod_lt _ hn
  | pMinus => exact Nat.mod_lt _ hn
  | _ => exact hk

namespace LeadsTo

/-- What every step keeps. -/
private theorem keeps (hs : LeadsTo n k s) (h : step params s l = some s')
    (hW : WithPrograms n s l) :
    s'.Coherent ∧ s'.Past (.init .loadCounter) ∧ s'.tables.pat.pmtCount = n ∧ Serving s' := by
  refine ⟨hs.coherent.step h, hs.loaded.step h, ?_, hs.serving.step hs.coherent h⟩
  obtain ⟨d, rfl, hd⟩ | ⟨-, ht⟩ := tables_of_step h
  · rw [pmtCount_of_filterCallback hd]
    split
    · next hp => exact hW.pat d rfl hp
    · exact hs.pmtCount
  · rw [ht]
    exact hs.pmtCount

/-- Steps that leave commands alone, and the stream thread where it is, outside the blocks or
behind the move of its block. -/
private theorem of_same (hs : LeadsTo n k s) (h : step params s l = some s')
    (hW : WithPrograms n s l) (hsame : SameCommands s s')
    (hloop : s'.loop = s.loop ∨
      (s.loop.Outside ∧ s.loop ≠ .exited .error ∧ s'.loop.Outside ∧ s'.loop ≠ .exited .error) ∨
      ∃ c p p', s.loop = .switch c p ∧ p ≠ .count ∧ s'.loop = .switch c p' ∧ p' ≠ .count) :
    LeadsTo n k s' := by
  obtain ⟨hcoherent, hloaded, hpmt, hserving⟩ := hs.keeps h hW
  have howes : ∀ c, s'.owes c = s.owes c := by
    intro c
    obtain hl | ⟨hl, -, hl', -⟩ | ⟨c', p, p', hl, hp, hl', hp'⟩ := hloop
    · rw [State.owes, State.owes, hl, hsame.flag]
    · rw [State.owes_of_outside hl, State.owes_of_outside hl', hsame.flag]
    · rw [State.owes_of_switch hl, State.owes_of_switch hl', hsame.flag]
      simp [hp, hp']
  refine ⟨hcoherent, hloaded, hpmt, hsame.prCounter ▸ hs.prCounter_lt, hs.lt, hserving,
    fun he => ?_, fun he => ?_⟩
  · obtain hl' | ⟨-, -, -, hl'⟩ | ⟨c', q, q', -, -, hl'', -⟩ := hloop
    · obtain ⟨c, hc⟩ := hs.gaveUp (hl'.symm.trans he)
      exact ⟨c, (hsame.flag c).trans hc⟩
    · exact absurd he hl'
    · rw [hl''] at he
      cases he
  · rw [State.target_congr (fun c _ => howes c) hsame.prCounter]
    refine hs.target fun he' => ?_
    obtain hl' | ⟨-, hl', -⟩ | ⟨c', q, q', hl', -⟩ := hloop
    · exact he (hl'.trans he')
    · exact hl' he'
    · rw [hl'] at he'
      cases he'

/-- The stream thread changes nothing about where the presses lead. -/
private theorem of_loopStep (hs : LeadsTo n k s) (h : step params s (.loop a) = some s')
    (hW : WithPrograms n s (.loop a)) : LeadsTo n k s' := by
  have hact : loopStep params a s = some s' := act_of_step h
  obtain ⟨hcoherent, hloaded, hpmt, hserving⟩ := hs.keeps h hW
  have hne : s.loop ≠ .exited .error := not_exited_of_loopStep hact _
  have htarget := hs.target hne
  obtain ⟨c, hl, hf, hl', hsame⟩ | ⟨c, hl, hl', hprm, hcounter⟩ |
    ⟨c, p, p', hl, hp, hl', hp', hsame⟩ | ⟨c, hl, hl', hprm, hcounter⟩ |
    ⟨c, p, hl, hl', hsame⟩ | ⟨hl, hl', hne', hsame⟩ := loopStep_commands hact
  · -- a block is entered: its move is still to be made
    have howes : ∀ c' ≠ .change, s'.owes c' = s.owes c' := by
      intro c' hc'
      rw [State.owes_of_switch hl', State.owes_of_outside (by simp [hl, LoopPc.Outside]),
        hsame.flag]
      cases c <;> cases c' <;> simp_all [Command.entry]
    refine ⟨hcoherent, hloaded, hpmt, hsame.prCounter ▸ hs.prCounter_lt, hs.lt, hserving,
      fun he => ?_, fun _ => (State.target_congr howes hsame.prCounter).trans htarget⟩
    rw [hl'] at he
    cases he
  · -- the move of the block is made
    have hf := hs.serving c _ hl
    rw [hs.pmtCount] at hcounter
    have hself : s.owes c = true := by simp [State.owes_of_switch hl, hf]
    have hself' : s'.owes c = false := by simp [State.owes_of_switch hl']
    have hother : ∀ c' ≠ c, s'.owes c' = s.owes c' := fun c' hc' => by
      simp [State.owes_of_switch hl, State.owes_of_switch hl', hprm, hc'.symm]
    refine ⟨hcoherent, hloaded, hpmt, hcounter ▸ c.count_lt hs.prCounter_lt hs.lt, hs.lt,
      hserving, fun he => ?_, fun _ => ?_⟩
    · rw [hl'] at he
      cases he
    · rw [← htarget, State.target, State.target, hcounter]
      cases c with
      | change => rw [hother .next (by decide), hother .previous (by decide)]; rfl
      | next =>
        rw [hself, hself', hother .previous (by decide), Command.count_next hs.prCounter_lt hs.lt]
        rfl
      | previous =>
        rw [hself, hself', hother .next (by decide),
          Command.count_previous hs.prCounter_lt hs.lt]
        -- whether or not the next program is pending as well
        cases s.owes .next
        · rfl
        · exact (next_previous_comm n _).symm
  · exact hs.of_same h hW hsame (.inr (.inr ⟨c, p, p', hl, hp, hl', hp'⟩))
  · -- the flag is taken down behind the block
    have houtside : s'.loop.Outside := by
      rw [hl']
      cases c <;> simp [LoopPc.Outside, Command.following]
    have howes : ∀ c' ≠ .change, s'.owes c' = s.owes c' := by
      intro c' _
      rw [State.owes_of_outside houtside, State.owes_of_switch hl, hprm]
      rcases eq_or_ne c' c with rfl | hne
      · simp
      · simp [StreamParams.flag_clear_of_ne _ hne, hne.symm]
    refine ⟨hcoherent, hloaded, hpmt, hcounter ▸ hs.prCounter_lt, hs.lt, hserving, fun he => ?_,
      fun _ => (State.target_congr howes hcounter).trans htarget⟩
    rw [hl'] at he
    cases c <;> cases he
  · -- the thread gives up, with its flag up
    exact ⟨hcoherent, hloaded, hpmt, hsame.prCounter ▸ hs.prCounter_lt, hs.lt, hserving,
      fun _ => ⟨c, (hsame.flag c).trans (hs.serving c p hl)⟩, fun he => absurd hl' he⟩
  · exact hs.of_same h hW hsame (.inr (.inl ⟨hl, hne, hl', hne'⟩))

/-- A press in time does to the target what it should do to the selected program. -/
private theorem of_press (hs : LeadsTo n k s) {code value : ℕ} {key : Key}
    (h : step params s (.input code value a) = some s')
    (hW : WithPrograms n s (.input code value a))
    (hC : PressInTime n s (.input code value a)) (hkey : Key.ofEvent code value = some key)
    (hpress : press a s key = some s') : LeadsTo n (key.select n k) s' := by
  have hl : s'.loop = s.loop := (press_frame hpress).loop
  by_cases hidle : key.Idle
  · have hselect : key.select n k = k := by cases key <;> first | rfl | exact hidle.elim
    rw [hselect]
    exact hs.of_same h hW (sameCommands_of_press hpress hidle) (.inl hl)
  -- the keys that switch programs need the mutex, and so are pressed outside the blocks
  have hfree := holdsParams_of_press hpress hidle
  obtain ⟨hcoherent, hloaded, hpmt, hserving⟩ := hs.keeps h hW
  obtain ⟨houtside, hne⟩ := LoopPc.outside_of_not_holdsParams hfree
  have houtside' : s'.loop.Outside := hl ▸ houtside
  have htarget := hs.target hne
  have hlt : s'.prCounter < n := by
    rw [prCounter_of_press hpress]
    cases key with
    | digit program => exact hW.digit program hkey
    | _ => exact hs.prCounter_lt
  have hselect_lt : key.select n k < n :=
    Key.select_lt (htarget ▸ State.target_lt hs.prCounter_lt) fun program hp =>
      hW.digit program (hp ▸ hkey)
  refine ⟨hcoherent, hloaded, hpmt, hlt, hs.lt, hserving,
    fun he => absurd (hl.symm.trans he) hne, fun _ => ?_⟩
  rcases eq_or_ne n 1 with rfl | hn
  · have := State.target_lt (n := 1) hlt
    omega
  rw [State.target_of_outside houtside] at htarget
  rw [State.target_of_outside houtside', ← htarget]
  cases key with
  | digit program =>
    have hprog := hW.digit program hkey
    have hflags := (hC.digit program hkey).resolve_right hn
    have hs' : s' = changeProgram program s := by simpa [press, hfree] using hpress.symm
    have hnext : s'.strPrm.nextProgram = s.strPrm.nextProgram ∧
        s'.strPrm.previousProgram = s.strPrm.previousProgram := by
      rw [hs', changeProgram]
      split <;> exact ⟨rfl, rfl⟩
    rw [hnext.1, hnext.2, prCounter_of_press hpress, hflags]
    -- a pair of pending moves cancels, whatever program they start from
    cases s.strPrm.previousProgram
    · rfl
    · exact next_previous_cancel hprog
  | pPlus =>
    have hflag := (hC.pPlus hkey).resolve_right hn
    have hs' : s' = { s with strPrm := { s.strPrm with nextProgram := true } } := by
      simpa [press, hfree] using hpress.symm
    subst hs'
    simp only [hflag, moved, Key.select]
    cases s.strPrm.previousProgram
    · rfl
    · exact next_previous_comm n _
  | pMinus =>
    have hflag := (hC.pMinus hkey).resolve_right hn
    have hs' : s' = { s with strPrm := { s.strPrm with previousProgram := true } } := by
      simpa [press, hfree] using hpress.symm
    subst hs'
    simp only [hflag, moved, Key.select]
    rfl
  | _ => exact absurd trivial hidle

/-- **The step lemma**: a step in time leads where it should. -/
private theorem step (hs : LeadsTo n k s) (h : Zapper.step params s l = some s')
    (hW : WithPrograms n s l) (hC : PressInTime n s l) :
    LeadsTo n (match l.key with | some key => key.select n k | none => k) s' := by
  have hact := act_of_step h
  cases l with
  | main a =>
    refine hs.of_same h hW (sameCommands_of_mainStep hact hs.loaded) ?_
    obtain hl | ⟨hm, -, hl, -⟩ := loop_of_mainStep hact
    · exact .inl hl
    · have hnone : s.loop = .notCreated := hs.coherent.notCreated (by rw [hm])
      refine .inr (.inl ?_)
      simp [hnone, hl, LoopPc.Outside]
  | loop a => exact hs.of_loopStep h hW
  | input code value a =>
    obtain ⟨key, hkey, hpress⟩ | ⟨hkey, rfl⟩ := callback_cases hact
    · rw [show (Label.input code value a).key = some key from hkey]
      exact hs.of_press h hW hC hkey hpress
    · rw [show (Label.input code value a).key = none from hkey]
      exact hs
  | _ =>
    refine hs.of_same h hW (sameCommands_of_step h (by simp) (by simp) (by simp)) ?_
    obtain ⟨a, hl, -⟩ | hl | ⟨a, hl, -⟩ | ⟨c, hl, hl'⟩ := loop_of_step h
    · cases hl
    · exact .inl hl
    · cases hl
    · exact .inr (.inr ⟨c, _, _, hl, by decide, hl', by decide⟩)

/-- **The run lemma**: a run in time leads where its presses lead, one after the other. -/
private theorem run {ls : List Label} (hs : LeadsTo n k s)
    (h : exec (Zapper.step params) s ls = some s')
    (hC : Meets (Zapper.step params) (fun s l => WithPrograms n s l ∧ PressInTime n s l) s ls) :
    LeadsTo n ((ls.filterMap Label.key).foldl (fun k key => key.select n k) k) s' := by
  induction ls generalizing s k with
  | nil =>
    obtain rfl : s = s' := by simpa [exec] using h
    exact hs
  | cons l ls ih =>
    obtain ⟨t, ht, hls⟩ := Option.bind_eq_some_iff.mp h
    obtain ⟨hl, hC⟩ := hC t ht
    have hstep := hs.step ht hl.1 hl.2
    rw [List.filterMap_cons]
    cases hk : l.key with
    | none => exact ih (by simpa [hk] using hstep) hls hC
    | some key =>
      rw [List.foldl_cons]
      exact ih (by simpa [hk] using hstep) hls hC

end LeadsTo

/-! ### All presses are served, in order -/

/-- All command flags have been consumed. -/
def State.Consumed (s : State) : Prop := ∀ c, s.strPrm.flag c = false

/-- **In a run in which no key raises a flag that is up already, and no digit key overtakes a
single pending move, `pr_counter` is where the presses lead, one after the other, whenever all
commands have been consumed.** -/
theorem prCounter_eq_foldl {ls : List Label} (hreach : Reachable params s)
    (hloaded : s.Past (.init .loadCounter)) (hfree : s.loop.holdsParams = false)
    (hidle : s.Consumed) (hlt : s.prCounter < s.tables.pat.pmtCount)
    (hrun : exec (step params) s ls = some s')
    (hW : Meets (step params) (WithPrograms s.tables.pat.pmtCount) s ls)
    (hC : Meets (step params) (PressInTime s.tables.pat.pmtCount) s ls)
    (hconsumed : s'.Consumed) :
    s'.prCounter = (ls.filterMap Label.key).foldl
      (fun k key => key.select s.tables.pat.pmtCount k) s.prCounter := by
  obtain ⟨houtside, hne⟩ := LoopPc.outside_of_not_holdsParams hfree
  have hcount := hreach.pmtCount_lt
  have hnone : ∀ {t : State}, t.Consumed → ∀ n, t.target n = t.prCounter := by
    intro t ht n
    simp [State.target, State.owes, ht .next, ht .previous, moved]
  have hstart : LeadsTo s.tables.pat.pmtCount s.prCounter s :=
    ⟨hreach.coherent, hloaded, rfl, hlt, by omega, fun c p hl => absurd hl (houtside c p),
      fun he => absurd he hne, fun _ => hnone hidle _⟩
  have hend := hstart.run hrun (hW.and hC)
  rw [← hend.target, hnone hconsumed]
  intro he
  obtain ⟨c, hc⟩ := hend.gaveUp he
  simp [hconsumed c] at hc

/-! ### Runs over the sample stream -/

/-- The delivery of a PMT section of the sample stream. -/
def Program.delivery (p : Program) : Label := .deliver (.ofBytes 3 p.pmtSection.bytes)

/-- A start of the zapper on the sample stream, up to the wait for the exit key. -/
def startUp : List Label :=
  startUpToPat ++ [Label.deliver (.ofBytes 0 samplePat.bytes), .signal, .main (.ok 0),
    .main (.ok 4), .main (.ok 0), .deliver (.ofBytes 3 sampleSdt.bytes), .signal, .main (.ok 0),
    .main (.ok 5), .main (.ok 0), firstProgram.delivery, .signal, .main (.ok 0), .main (.ok 0),
    .main (.ok 6), .main (.ok 7)] ++ List.replicate 4 (Label.main (.ok 0))

/-- The state behind it. -/
def started : State := (exec (step (configIni 1)) .powerOn startUp).getD .powerOn

theorem reachable_started : Reachable (configIni 1) started := by
  have h : (exec (step (configIni 1)) .powerOn startUp).isSome = true := by decide +kernel
  obtain ⟨s, hs⟩ := Option.isSome_iff_exists.mp h
  exact ⟨startUp, by rw [started, hs]; rfl⟩

/-- From the loop head, the stream thread serves the next program once: a radio program. -/
def serveNextRadio (p : Program) : List Label :=
  List.replicate 10 (Label.loop (.ok 8)) ++ [p.delivery, .signal] ++
    List.replicate 4 (Label.loop (.ok 9))

/-- One press of `P+`, served: the radio program is selected. -/
theorem prCounter_eq_foldl_started : ∃ s', s'.prCounter = 1 ∧
    exec (step (configIni 1)) started (.input 62 1 (.ok 0) :: serveNextRadio secondProgram) =
      some s' := by
  have hrun : (exec (step (configIni 1)) started
      (.input 62 1 (.ok 0) :: serveNextRadio secondProgram)).map
        (fun s => (s.strPrm, s.tables.pat.pmtCount)) =
      some (⟨false, false, false, false, false⟩, 3) := by decide +kernel
  obtain ⟨s', hs', hobs⟩ := Option.map_eq_some_iff.mp hrun
  simp only [Prod.mk.injEq] at hobs
  have hcount : started.tables.pat.pmtCount = 3 := by decide +kernel
  have hcounter := prCounter_eq_foldl reachable_started (by unfold State.Past; decide +kernel)
    (by decide +kernel) (fun c => by cases c <;> decide +kernel) (by decide +kernel) hs'
    (by rw [hcount]; decide +kernel) (by rw [hcount]; decide +kernel)
    (fun c => by rw [hobs.1]; cases c <;> rfl)
  refine ⟨s', ?_, hs'⟩
  rw [hcounter, hcount, show started.prCounter = 0 by decide +kernel]
  decide

/-- Two presses of `P+` before the stream thread has served the first: one is lost. -/
theorem not_forall_prCounter_eq_foldl : ¬ ∀ (params : ConfigParams) (s s' : State)
    (ls : List Label), Reachable params s → s.Past (.init .loadCounter) →
      s.loop.holdsParams = false → s.Consumed → s.prCounter < s.tables.pat.pmtCount →
      exec (step params) s ls = some s' →
      Meets (step params) (WithPrograms s.tables.pat.pmtCount) s ls → s'.Consumed →
        s'.prCounter = (ls.filterMap Label.key).foldl
          (fun k key => key.select s.tables.pat.pmtCount k) s.prCounter := by
  intro h
  have hrun : (exec (step (configIni 1)) started ([.input 62 1 (.ok 0), .input 62 1 (.ok 0)] ++
      serveNextRadio secondProgram)).map (fun s => (s.strPrm, s.prCounter)) =
        some (⟨false, false, false, false, false⟩, 1) := by decide +kernel
  obtain ⟨s', hs', hobs⟩ := Option.map_eq_some_iff.mp hrun
  simp only [Prod.mk.injEq] at hobs
  have hcount : started.tables.pat.pmtCount = 3 := by decide +kernel
  have hcounter := h _ started s' _ reachable_started (by unfold State.Past; decide +kernel)
    (by decide +kernel) (fun c => by cases c <;> decide +kernel) (by decide +kernel) hs'
    (by rw [hcount]; decide +kernel) (fun c => by rw [hobs.1]; cases c <;> rfl)
  rw [hobs.2, hcount, show started.prCounter = 0 by decide +kernel] at hcounter
  exact absurd hcounter (by decide)

end Zapper
