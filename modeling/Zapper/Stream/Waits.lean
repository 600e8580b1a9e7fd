import Zapper.Section.Broadcast
import Zapper.Stream.Counter

/-!
# The waits for a table

`stream_init` and `stream_loop` set a filter, wait on the condition variable, and go on as if
the table had come. The wait has no predicate, and `filter_callback` signals for every section:
one that was in flight when the filter was changed, one of another program on the same PID, or a
repeated one ends the wait just as well.

The history variable is `Since`: what has been delivered since the last filter was set. The
awaited table has been parsed whenever a wait has returned, and the selected slot holds what
came for it whenever its PIDs are looked at, exactly when the sections come in time
(`waitsInTime_iff`).
-/

namespace Zapper

open Memory Transition

variable {params : ConfigParams} {a : Answer} {s s' : State} {l : Label}

/-! ### What has come since the filter was set -/

/-- What has been delivered since the last filter was set, newest first, with what the callback
stored. -/
abbrev Since := List (Stored × Delivery)

/-- A step that sets a filter. -/
def setsFilter (s : State) : Label → Bool
  | .main _ =>
    match s.main with
    | .init (.setFilter _) => true
    | _ => false
  | .loop _ =>
    match s.loop with
    | .switch _ .setFilter => true
    | _ => false
  | _ => false

/-- The update of the history variable. -/
def since (s : State) (l : Label) (_ : State) (h : Since) : Since :=
  match l with
  | .deliver d => (stored d s.tables, d) :: h
  | _ => if setsFilter s l then [] else h

/-- The last delivery that was stored to slot `j`, if no PAT has been stored after it. -/
def lastPmt (j : ℕ) : Since → Option Delivery
  | [] => none
  | (.pat, _) :: _ => none
  | (.slot i, d) :: h => if i = j then some d else lastPmt j h
  | (.sdt, _) :: h => lastPmt j h
  | (.nothing, _) :: h => lastPmt j h

/-- The table has been parsed since the filter was set; for the PMT, the selected slot holds what
`parse_PMT` made of a section of its program. -/
def Parsed (s : State) (h : Since) : Table → Prop
  | .pat => ∃ d, (Stored.pat, d) ∈ h
  | .sdt => ∃ d, (Stored.sdt, d) ∈ h
  | .pmt => ∃ d, lastPmt s.prCounter h = some d ∧ programNumber d.buffer = s.selected.prNum ∧
      ∃ pmt, parsePMT d.fuel d.buffer pmt = some s.selected

/-- A section of the table has been delivered since the filter was set; for the PMT, one with
the program number of slot `j` and of no slot before it, and no PAT section after it. -/
def Delivered (s : State) (h : Since) (j : ℕ) : Table → Prop
  | .pat => ∃ x ∈ h, x.2.IsOf .pat
  | .sdt => ∃ x ∈ h, x.2.IsOf .sdt
  | .pmt => ∃ x ∈ h.takeWhile fun x => !decide (x.2.IsOf .pat), x.2.IsOf .pmt ∧
      findSlot x.2.fuel (programNumber x.2.buffer) s.tables.pat = some j

/-! ### The waits and the uses -/

/-- The table that the main thread relies on: right behind a wait, and where `stream_init` uses
the PIDs of the selected program. -/
def MainPc.relies : MainPc → Option Table
  | .init (.freeFilter .sdt) => some .pat
  | .init (.freeFilter .pmt) => some .sdt
  | .init .checkAudioPid => some .pmt
  | .init .checkVideoPid => some .pmt
  | .init .createAudio => some .pmt
  | .init .createVideo => some .pmt
  | _ => none

/-- The stream thread relies on the PMT: behind the wait, where it uses the PIDs of the selected
program. -/
def LoopPc.relies : LoopPc → Bool
  | .switch _ .createVideo => true
  | .switch _ .createAudio => true
  | _ => false

/-- What the threads rely on has been parsed since the filter was set. -/
structure InTime (x : State × Since) : Prop where
  main : ∀ t, x.1.main.relies = some t → Parsed x.1 x.2 t
  loop : x.1.loop.relies = true → Parsed x.1 x.2 .pmt

/-- The condition on a step: a signal that ends a wait comes when a section of the awaited table
has been delivered; no PAT section is delivered while the PIDs of the selected program are
used, and no digit key pressed then, in `stream_init`, selects a program whose PMT has not been
delivered. -/
def KeepsInTime (x : State × Since) : Label → Prop
  | .signal =>
    (∀ t, x.1.main = .init (.waiting t) → Delivered x.1 x.2 x.1.prCounter t) ∧
      ∀ c, x.1.loop = .switch c .waiting → Delivered x.1 x.2 x.1.prCounter .pmt
  | .deliver d => d.IsOf .pat → x.1.main.relies ≠ some .pmt ∧ x.1.loop.relies = false
  | .input code value _ => ∀ program, Key.ofEvent code value = some (.digit program) →
      x.1.main.relies = some .pmt → Delivered x.1 x.2 program .pmt
  | _ => True

/-! ### What the history says about the tables -/

/-- The history agrees with the tables. -/
structure SinceInv (x : State × Since) : Prop where
  coherent : x.1.Coherent
  /-- Every delivery stored what its table id says. -/
  kind : ∀ y ∈ x.2, (y.1 = .pat ↔ y.2.IsOf .pat) ∧ (y.1 = .sdt ↔ y.2.IsOf .sdt)
  /-- Behind the last PAT, every delivery was stored where it would be stored now. -/
  stored : ∀ y ∈ x.2.takeWhile fun y => !decide (y.2.IsOf .pat), y.1 = stored y.2 x.1.tables
  /-- The slots hold what was delivered for them. -/
  slot : ∀ j d, lastPmt j x.2 = some d →
    programNumber d.buffer = (x.1.tables.pat.pmts.cell j).prNum ∧
      ∃ pmt, parsePMT d.fuel d.buffer pmt = some (x.1.tables.pat.pmts.cell j)

/-- A slot has been filled exactly when a section for it has been delivered. -/
theorem lastPmt_isSome_iff {s : State} {h : Since} {j : ℕ}
    (hkind : ∀ y ∈ h, (y.1 = .pat ↔ y.2.IsOf .pat))
    (hstored : ∀ y ∈ h.takeWhile fun y => !decide (y.2.IsOf .pat), y.1 = stored y.2 s.tables) :
    (∃ d, lastPmt j h = some d) ↔ Delivered s h j .pmt := by
  induction h with
  | nil => simp [lastPmt, Delivered]
  | cons y h ih =>
    obtain ⟨st, d⟩ := y
    have hpat := hkind (st, d) (by simp)
    by_cases hd : d.IsOf .pat
    · -- nothing counts behind a PAT
      have hst : st = .pat := hpat.mpr hd
      subst hst
      simp [lastPmt, Delivered, hd]
    · have htake : ((st, d) :: h).takeWhile (fun y => !decide (y.2.IsOf .pat)) =
          (st, d) :: h.takeWhile fun y => !decide (y.2.IsOf .pat) := by
        simp [hd]
      rw [htake] at hstored
      have hst : st = stored d s.tables := hstored (st, d) (by simp)
      have hih := ih (fun y hy => hkind y (by simp [hy])) fun y hy => hstored y (by simp [hy])
      have hcons : Delivered s ((st, d) :: h) j .pmt ↔ st = .slot j ∨ Delivered s h j .pmt := by
        have hslot : st = .slot j ↔ d.IsOf .pmt ∧
            findSlot d.fuel (programNumber d.buffer) s.tables.pat = some j :=
          hst ▸ stored_eq_slot_iff
        rw [hslot, Delivered, htake]
        simp only [List.mem_cons, exists_eq_or_imp]
        rfl
      rw [hcons, ← hih]
      cases st with
      | pat => exact absurd (hpat.mp rfl) hd
      | slot i => by_cases hi : i = j <;> simp [lastPmt, hi]
      | sdt => simp [lastPmt]
      | nothing => simp [lastPmt]

/-- **The selected slot is filled exactly when a section for it has been delivered.** -/
theorem SinceInv.parsed_iff {x : State × Since} (hx : SinceInv x) (t : Table) :
    Parsed x.1 x.2 t ↔ Delivered x.1 x.2 x.1.prCounter t := by
  cases t with
  | pat =>
    constructor
    · rintro ⟨d, hd⟩
      exact ⟨_, hd, (hx.kind _ hd).1.mp rfl⟩
    · rintro ⟨⟨st, d⟩, hd, hof⟩
      obtain rfl : st = .pat := (hx.kind _ hd).1.mpr hof
      exact ⟨d, hd⟩
  | sdt =>
    constructor
    · rintro ⟨d, hd⟩
      exact ⟨_, hd, (hx.kind _ hd).2.mp rfl⟩
    · rintro ⟨⟨st, d⟩, hd, hof⟩
      obtain rfl : st = .sdt := (hx.kind _ hd).2.mpr hof
      exact ⟨d, hd⟩
  | pmt =>
    rw [← lastPmt_isSome_iff (fun y hy => (hx.kind y hy).1) hx.stored]
    constructor
    · rintro ⟨d, hd, -⟩
      exact ⟨d, hd⟩
    · rintro ⟨d, hd⟩
      exact ⟨d, hd, hx.slot _ d hd⟩

theorem lastPmt_cons {j : ℕ} {h : Since} {st : Stored} {d : Delivery} (hst : st ≠ .pat)
    (hlast : ∃ d, lastPmt j h = some d) : ∃ d', lastPmt j ((st, d) :: h) = some d' := by
  cases st with
  | pat => exact absurd rfl hst
  | slot i =>
    by_cases hi : i = j
    · exact ⟨d, by rw [lastPmt, if_pos hi]⟩
    · simpa [lastPmt, hi] using hlast
  | sdt => exact hlast
  | nothing => exact hlast

theorem since_of_ne_deliver (hl : ∀ d, l ≠ .deliver d) (s s' : State) (h : Since) :
    since s l s' h = if setsFilter s l then [] else h := by
  cases l with
  | deliver d => exact absurd rfl (hl d)
  | _ => rfl

/-- A delivery keeps the history in agreement with the tables. -/
private theorem SinceInv.deliver {x : State × Since} (hx : SinceInv x) {d : Delivery}
    (hs : s.Coherent) (hd : filterCallback d x.1.tables = some s.tables) :
    SinceInv (s, (Zapper.stored d x.1.tables, d) :: x.2) := by
  have hkind : ∀ y ∈ (Zapper.stored d x.1.tables, d) :: x.2,
      (y.1 = .pat ↔ y.2.IsOf .pat) ∧ (y.1 = .sdt ↔ y.2.IsOf .sdt) := by
    intro y hy
    obtain rfl | hy := List.mem_cons.mp hy
    · exact ⟨stored_eq_pat_iff, stored_eq_sdt_iff⟩
    · exact hx.kind y hy
  by_cases hpat : d.IsOf .pat
  · have hst : Zapper.stored d x.1.tables = .pat := stored_eq_pat_iff.mpr hpat
    refine ⟨hs, hkind, ?_, ?_⟩
    · simp [hpat]
    · simp [hst, lastPmt]
  have hne : Zapper.stored d x.1.tables ≠ .pat := fun h => hpat (stored_eq_pat_iff.mp h)
  have hnum := fun i => ((filterCallback_pat hd hne).2.2 i).1
  refine ⟨hs, hkind, fun y hy => ?_, fun j d' hlast => ?_⟩
  · rw [stored_congr y.2 hnum]
    simp only [hpat, decide_false, Bool.not_false, List.takeWhile_cons_of_pos, List.mem_cons] at hy
    obtain rfl | hy := hy
    · rfl
    · exact hx.stored y hy
  · obtain ⟨hst, -⟩ | ⟨i, pmt, hst, hfind, hparse, ht⟩ | ⟨sdt, hst, -, ht⟩ | ⟨hst, ht⟩ :=
      filterCallback_cases hd
    · exact absurd hst hne
    · simp only [hst, lastPmt] at hlast
      split at hlast
      · next hi =>
        -- the slot has just been filled
        subst hi
        obtain rfl : d = d' := Option.some.inj hlast
        simp only [ht, Block.cell_modify_self]
        exact ⟨by rw [(parsePMT_prNum hparse).1, prNum_of_findSlot hfind], _, hparse⟩
      · next hi =>
        simp only [ht, Block.cell_modify_of_ne _ _ (Ne.symm hi)]
        exact hx.slot j d' hlast
    · simp only [hst, lastPmt] at hlast
      simp only [ht]
      exact hx.slot j d' hlast
    · simp only [hst, lastPmt] at hlast
      simp only [ht]
      exact hx.slot j d' hlast

private theorem SinceInv.step {x y : State × Since} (hx : SinceInv x)
    (h : withHistory (step params) since x l = some y) : SinceInv y := by
  obtain ⟨h, hy⟩ := withHistory_eq_some.mp h
  have hcoherent := hx.coherent.step h
  obtain ⟨d, rfl, hd⟩ | ⟨hl, htables⟩ := tables_of_step h
  · have hdeliver := hx.deliver hcoherent hd
    rwa [show (_ :: x.2) = y.2 from hy.symm] at hdeliver
  · rw [since_of_ne_deliver hl] at hy
    split at hy
    · exact ⟨hcoherent, by simp [hy], by simp [hy], by simp [hy, lastPmt]⟩
    · refine ⟨hcoherent, by rw [hy]; exact hx.kind, ?_, ?_⟩
      · rw [hy, htables]
        exact hx.stored
      · rw [hy, htables]
        exact hx.slot

/-! ### Who relies on what -/

/-- Where the main thread relies on a table, there is no stream thread. -/
theorem notCreated_of_relies {t : Table} (hs : s.Coherent) (h : s.main.relies = some t) :
    s.loop = .notCreated := by
  refine hs.notCreated ?_
  cases hm : s.main with
  | init p =>
    rw [hm] at h
    cases p with
    | freeFilter t' => cases t' <;> decide
    | checkAudioPid | checkVideoPid | createAudio | createVideo => decide
    | _ => cases h
  | _ => simp [hm, MainPc.relies] at h

@[simp] theorem relies_afterWait (t : Table) : (MainPc.init t.afterWait).relies = some t := by
  cases t <;> rfl

/-- The main thread comes to rely on a table only by the end of a wait. -/
theorem relies_of_mainStep {t : Table} (h : mainStep params a s = some s')
    (hr : s'.main.relies = some t) :
    s.main.relies = some t ∧ setsFilter s (.main a) = false ∧ s.main ≠ .init .loadCounter := by
  have hn := main_of_mainStep h
  cases hm : s.main with
  | init p =>
    rw [hm] at hn
    obtain hn | hn := hn
    · rw [hn] at hr
      cases p with
      | checkAudioPid | checkVideoPid | createAudio => exact ⟨hr, by simp [setsFilter, hm], by simp⟩
      | waiting t => simp [mainStep, hm, initStep] at h
      | setFilter t => cases t <;> cases hr
      | _ => cases hr
    · rw [hn] at hr
      cases hr
  | deinit p =>
    rw [hm] at hn
    obtain hn | hn := hn
    · rw [hn] at hr
      cases p <;> cases hr
    · rw [hn] at hr
      cases hr
  | _ =>
    rw [hm] at hn
    obtain hn | hn := hn
    · rw [hn] at hr
      cases hr
    · rw [hn] at hr
      cases hr

/-- And so does the stream thread. -/
theorem relies_of_loopStep (h : loopStep params a s = some s') (hr : s'.loop.relies = true) :
    s.loop.relies = true ∧ setsFilter s (.loop a) = false ∧ s'.prCounter = s.prCounter := by
  have hcounter := prCounter_of_loopStep h
  unfold LoopPc.relies at hr
  split at hr
  · next c hl' =>
    obtain he | ⟨q, -, hne, hq⟩ := switch_of_loopStep h hl'
    · cases c <;> cases he
    · exact absurd ((SwitchPc.next_cases hq).1 rfl) hne
  · next c hl' =>
    obtain he | ⟨q, hl, -, hq⟩ := switch_of_loopStep h hl'
    · cases c <;> cases he
    · obtain rfl := (SwitchPc.next_cases hq).2.1 rfl
      exact ⟨by rw [hl]; rfl, by simp [setsFilter, hl], by simpa [nextCounter, hl] using hcounter⟩
  · cases hr

/-! ### The step lemma -/

theorem Parsed.congr {x y : State × Since} {t : Table} (hp : Parsed x.1 x.2 t)
    (htables : y.1.tables = x.1.tables) (hcounter : y.1.prCounter = x.1.prCounter)
    (hsince : y.2 = x.2) : Parsed y.1 y.2 t := by
  cases t with
  | pmt => simpa only [Parsed, State.selected, htables, hcounter, hsince] using hp
  | _ => simpa only [Parsed, hsince] using hp

/-- Steps after which no thread relies on more than before. -/
private theorem InTime.of_same {x y : State × Since} (hx : InTime x)
    (htables : y.1.tables = x.1.tables) (hcounter : y.1.prCounter = x.1.prCounter)
    (hsince : y.2 = x.2) (hmain : ∀ t, y.1.main.relies = some t → x.1.main.relies = some t)
    (hloop : y.1.loop.relies = true → x.1.loop.relies = true) : InTime y :=
  ⟨fun t ht => (hx.main t (hmain t ht)).congr htables hcounter hsince,
    fun hl => (hx.loop (hloop hl)).congr htables hcounter hsince⟩

/-- A step of the main thread. -/
private theorem InTime.mainStep {x y : State × Since} (hx : InTime x) (hinv : SinceInv x)
    (h : Zapper.mainStep params a x.1 = some y.1) (hy : y.2 = since x.1 (.main a) y.1 x.2) :
    InTime y := by
  have htables := (mainStep_frame h).tables
  have hcounter := prCounter_of_mainStep h
  rw [since_of_ne_deliver (by simp)] at hy
  refine ⟨fun t ht => ?_, fun hl => ?_⟩
  · obtain ⟨ht', hset, hload⟩ := relies_of_mainStep h ht
    rw [if_neg hload] at hcounter
    rw [hset] at hy
    exact (hx.main t ht').congr htables hcounter hy
  · obtain hloop | ⟨-, -, hloop, -⟩ := loop_of_mainStep h
    · rw [hloop] at hl
      -- there is a stream thread: the main thread is behind its filters
      have hp := hinv.coherent.created (by rintro hc; rw [hc] at hl; cases hl)
      have hset : setsFilter x.1 (.main a) = false := by
        simp only [setsFilter]
        split
        · next t hm =>
          rw [State.Past, hm] at hp
          cases t <;> exact absurd hp (by decide)
        · rfl
      have hload : x.1.main ≠ .init .loadCounter := by
        intro hm
        rw [State.Past, hm] at hp
        exact absurd hp (by decide)
      rw [if_neg hload] at hcounter
      rw [hset] at hy
      exact (hx.loop hl).congr htables hcounter hy
    · rw [hloop] at hl
      cases hl

/-- A section is delivered. -/
private theorem inTime_deliver_iff {x y : State × Since} (hx : InTime x) (hinv : SinceInv y)
    {d : Delivery} (h : sectionStep d x.1 = some y.1)
    (hy : y.2 = (stored d x.1.tables, d) :: x.2) :
    InTime y ↔ KeepsInTime x (.deliver d) := by
  obtain ⟨-, -, tables, -, hy₁⟩ := sectionStep_eq_some h
  have hmain : y.1.main = x.1.main := by rw [hy₁]
  have hloop : y.1.loop = x.1.loop := by rw [hy₁]
  have hcounter : y.1.prCounter = x.1.prCounter := by rw [hy₁]
  have hgrow : ∀ t, t ≠ .pmt → Parsed x.1 x.2 t → Parsed y.1 y.2 t := by
    rintro (_ | _ | _) ht hp
    · obtain ⟨d', hd'⟩ := hp
      exact ⟨d', by rw [hy]; exact List.mem_cons_of_mem _ hd'⟩
    · obtain ⟨d', hd'⟩ := hp
      exact ⟨d', by rw [hy]; exact List.mem_cons_of_mem _ hd'⟩
    · exact absurd rfl ht
  by_cases hpat : d.IsOf .pat
  · have hnone : ¬ Parsed y.1 y.2 .pmt := by
      rintro ⟨d', hd', -⟩
      rw [hy, stored_eq_pat_iff.mpr hpat] at hd'
      cases hd'
    constructor
    · intro h' _
      refine ⟨fun ht => hnone (h'.main _ (hmain ▸ ht)), ?_⟩
      exact Bool.eq_false_iff.mpr fun hl => hnone (h'.loop (hloop ▸ hl))
    · intro hC
      obtain ⟨hnot, hnot'⟩ := hC hpat
      refine ⟨fun t ht => ?_, fun hl => ?_⟩
      · rw [hmain] at ht
        exact hgrow t (by rintro rfl; exact hnot ht) (hx.main t ht)
      · rw [hloop, hnot'] at hl
        cases hl
  · have hst : stored d x.1.tables ≠ .pat := fun hst => hpat (stored_eq_pat_iff.mp hst)
    have hpmt : Parsed x.1 x.2 .pmt → Parsed y.1 y.2 .pmt := by
      rintro ⟨d', hd', -⟩
      obtain ⟨d'', hd''⟩ := lastPmt_cons (d := d) hst ⟨d', hd'⟩
      rw [← hy, ← hcounter] at hd''
      exact ⟨d'', hd'', hinv.slot _ _ hd''⟩
    refine iff_of_true ⟨fun t ht => ?_, fun hl => ?_⟩ fun hpat' => absurd hpat' hpat
    · rw [hmain] at ht
      rcases eq_or_ne t .pmt with rfl | hne
      · exact hpmt (hx.main _ ht)
      · exact hgrow t hne (hx.main t ht)
    · rw [hloop] at hl
      exact hpmt (hx.loop hl)

/-- A key is pressed. -/
private theorem inTime_input_iff {x y : State × Since} (hx : InTime x) (hinv : SinceInv y)
    {code value : ℕ} (h : callback a code value x.1 = some y.1)
    (hcounter : y.1.prCounter = nextCounter params x.1 (.input code value a)) (hy : y.2 = x.2) :
    InTime y ↔ KeepsInTime x (.input code value a) := by
  have hframe := callback_frame h
  have hmain : ∀ t, y.1.main.relies = some t → x.1.main.relies = some t := by
    intro t ht
    obtain hm | ⟨-, hm⟩ := hframe.main
    · exact hm ▸ ht
    · rw [hm] at ht
      cases ht
  simp only [nextCounter] at hcounter
  cases hkey : Key.ofEvent code value with
  | none =>
    rw [hkey] at hcounter
    exact iff_of_true (hx.of_same hframe.tables hcounter hy hmain fun hl => hframe.loop ▸ hl)
      fun program hp => by simp [hkey] at hp
  | some key =>
    rw [hkey] at hcounter
    cases key with
    | digit program =>
      replace hcounter : y.1.prCounter = program := hcounter
      have hdelivered : Delivered y.1 y.2 y.1.prCounter .pmt ↔ Delivered x.1 x.2 program .pmt := by
        rw [hcounter, hy, Delivered, Delivered, hframe.tables]
      constructor
      · intro h' program' hp ht
        obtain rfl : program = program' := by simpa [hkey] using hp
        refine hdelivered.mp ((hinv.parsed_iff _).mp (h'.main _ ?_))
        obtain hm | ⟨hm, -⟩ := hframe.main
        · exact hm ▸ ht
        · rw [hm] at ht
          cases ht
      · intro hC
        refine ⟨fun t ht => ?_, fun hl => ?_⟩
        · have ht' := hmain t ht
          cases t with
          | pmt => exact (hinv.parsed_iff _).mpr (hdelivered.mpr (hC program hkey ht'))
          | _ => exact hy ▸ hx.main _ ht'
        · -- the stream thread keeps the key out
          have hl' : x.1.loop.relies = true := hframe.loop ▸ hl
          have hheld : x.1.loop.holdsParams = true := by
            revert hl'
            unfold LoopPc.relies
            split <;> simp_all [LoopPc.holdsParams]
          obtain ⟨key, hkey', hpress⟩ | ⟨hkey', -⟩ := callback_cases h
          · obtain rfl : Key.digit program = key := by simpa [hkey] using hkey'
            simp [press, hheld] at hpress
          · rw [hkey] at hkey'
            cases hkey'
    | _ =>
      exact iff_of_true (hx.of_same hframe.tables hcounter hy hmain fun hl => hframe.loop ▸ hl)
        fun program hp => by simp [hkey] at hp

/-- A signal is sent. -/
private theorem inTime_signal_iff {x y : State × Since} (hx : InTime x) (hinv : SinceInv x)
    (hinv' : SinceInv y) (h : signalStep x.1 = some y.1) (hy : y.2 = x.2) :
    InTime y ↔ KeepsInTime x .signal := by
  obtain ⟨-, -, hwake⟩ := signalStep_eq_some h
  have htables : y.1.tables = x.1.tables := by rw [hwake, State.wake_tables]
  have hcounter : y.1.prCounter = x.1.prCounter := by rw [hwake, State.wake_prCounter]
  have hdelivered : ∀ t, Parsed y.1 y.2 t ↔ Delivered x.1 x.2 x.1.prCounter t := by
    intro t
    rw [hinv'.parsed_iff, hcounter, hy]
    cases t <;> simp only [Delivered, htables]
  have hwaits : ∀ t, x.1.main = .init (.waiting t) → x.1.loop = .notCreated := by
    intro t hm
    refine hinv.coherent.notCreated ?_
    rw [hm]
    cases t <;> decide
  obtain ⟨hm, hm', hl⟩ | ⟨t, hm, hm', hl⟩ | ⟨c, hl, hm', hl'⟩ | ⟨hm, hl, hm', hl'⟩ :=
    State.wake_cases { x.1 with inCallback := false }
  all_goals rw [← hwake] at *
  · -- the wait for the tuner: there is no stream thread yet
    have hnone : x.1.loop = .notCreated := hinv.coherent.notCreated (by
      rw [show x.1.main = _ from hm]
      decide)
    refine iff_of_true ⟨fun t ht => ?_, fun hr => ?_⟩ ⟨fun t ht => ?_, fun c hc => ?_⟩
    · rw [hm'] at ht
      cases ht
    · rw [hl, show ({ x.1 with inCallback := false } : State).loop = _ from hnone] at hr
      cases hr
    · cases hm.symm.trans ht
    · cases hnone.symm.trans hc
  · -- the main thread has waited for a table
    have hnone := hwaits t hm
    constructor
    · intro h'
      refine ⟨fun t' ht' => ?_, fun c hc => by cases hnone.symm.trans hc⟩
      obtain rfl : t = t' := by simpa using hm.symm.trans ht'
      exact (hdelivered t).mp (h'.main t (by rw [hm', relies_afterWait]))
    · rintro ⟨hC, -⟩
      refine ⟨fun t' ht' => ?_, fun hr => ?_⟩
      · rw [hm', relies_afterWait, Option.some.injEq] at ht'
        subst ht'
        exact (hdelivered t).mpr (hC t hm)
      · rw [hl, show ({ x.1 with inCallback := false } : State).loop = _ from hnone] at hr
        cases hr
  · -- the stream thread has waited for a PMT
    have hcreated : x.1.loop ≠ .notCreated := fun hnone => by cases hnone.symm.trans hl
    constructor
    · intro h'
      refine ⟨fun t ht => absurd (hwaits t ht) hcreated, fun _ _ => ?_⟩
      exact (hdelivered .pmt).mp (h'.loop (by rw [hl']; rfl))
    · rintro ⟨-, hC⟩
      refine ⟨fun t ht => ?_, fun _ => (hdelivered .pmt).mpr (hC c hl)⟩
      exact absurd (notCreated_of_relies hinv.coherent (hm' ▸ ht)) hcreated
  · -- the signal is lost
    exact iff_of_true (hx.of_same htables hcounter hy (fun t ht => hm' ▸ ht) fun hr => hl' ▸ hr)
      ⟨fun t ht => absurd ht (hm t), fun c hc => absurd hc (hl c)⟩

/-- The tuner's status thread ends no wait but the one for the tuner. -/
private theorem InTime.tunerStep {x y : State × Since} (hx : InTime x) (hinv : SinceInv x)
    {status : LockStatus} (h : Zapper.tunerStep status x.1 = some y.1) (hy : y.2 = x.2) :
    InTime y := by
  obtain ⟨ht, hwake | hsame⟩ := tunerStep_eq_some h
  · have htables : y.1.tables = x.1.tables := by rw [hwake, State.wake_tables]
    have hcounter : y.1.prCounter = x.1.prCounter := by rw [hwake, State.wake_prCounter]
    have htuning := hinv.coherent.tuning ht
    obtain ⟨-, hm', hl⟩ | ⟨t, hm, -⟩ | ⟨c, hl, -⟩ | ⟨-, -, hm', hl'⟩ :=
      State.wake_cases { x.1 with tuning := false }
    · rw [← hwake] at hm' hl
      exact hx.of_same htables hcounter hy (fun t ht => by rw [hm'] at ht; cases ht)
        fun hr => hl ▸ hr
    · -- the main thread is behind the wait for the tuner, and not yet in `stream_deinit`
      replace hm : x.1.main = .init (.waiting t) := hm
      unfold State.Past at htuning
      rw [hm] at htuning
      obtain hp | ⟨hp, -⟩ := htuning
      · cases t <;> exact absurd (by decide) hp
      · cases t <;> exact absurd hp (by decide)
    · replace hl : x.1.loop = .switch c .waiting := hl
      have hp := hinv.coherent.created (by rw [hl]; simp)
      obtain hp' | ⟨-, hnone⟩ := htuning
      · exact absurd ((show _ < _ by decide).trans hp) hp'
      · cases hl.symm.trans hnone
    · rw [← hwake] at hm' hl'
      exact hx.of_same htables hcounter hy (fun t ht => hm' ▸ ht) fun hr => hl' ▸ hr
  · refine hx.of_same ?_ ?_ hy ?_ ?_ <;> rw [hsame]
    · exact fun _ => id
    · exact id

/-- **The step lemma**: a step keeps the tables in time exactly when it meets the condition. -/
private theorem inTime_step_iff {x y : State × Since} (hinv : SinceInv x) (hx : InTime x)
    (h : withHistory (step params) since x l = some y) : InTime y ↔ KeepsInTime x l := by
  have hinv' := hinv.step h
  obtain ⟨h, hy⟩ := withHistory_eq_some.mp h
  have hact := act_of_step h
  cases l with
  | main a => exact iff_of_true (hx.mainStep hinv hact hy) trivial
  | loop a =>
    have hframe := loopStep_frame hact
    refine iff_of_true ⟨fun t ht => ?_, fun hl => ?_⟩ trivial
    · rw [hframe.main] at ht
      exact absurd (notCreated_of_relies hinv.coherent ht) (created_of_loopStep hact).1
    · obtain ⟨hl', hset, hcounter⟩ := relies_of_loopStep hact hl
      rw [since_of_ne_deliver (by simp), hset] at hy
      exact (hx.loop hl').congr hframe.tables hcounter hy
  | input code value a =>
    exact inTime_input_iff hx hinv' hact (prCounter_of_step h) hy
  | deliver d => exact inTime_deliver_iff hx hinv' hact hy
  | signal => exact inTime_signal_iff hx hinv hinv' hact hy
  | tuner status => exact iff_of_true (hx.tunerStep hinv hact hy) trivial
  | timeout =>
    obtain ⟨-, hs⟩ := timeoutStep_eq_some hact
    refine iff_of_true (hx.of_same (by rw [hs]; rfl) (by rw [hs]; rfl) hy ?_ ?_) trivial
    · intro t ht
      rw [hs] at ht
      cases ht
    · rw [hs]
      exact id
  | expire =>
    obtain ⟨-, hs⟩ := expireStep_eq_some hact
    refine iff_of_true (hx.of_same ?_ ?_ hy ?_ ?_) trivial <;> rw [hs]
    · exact fun _ => id
    · exact id
  | handler i =>
    have hframe := handlerStep_frame hact
    exact iff_of_true (hx.of_same hframe.tables hframe.prCounter hy
      (fun t ht => hframe.main ▸ ht) fun hl => hframe.loop ▸ hl) trivial

/-- The step lemma, for steps that meet the condition. -/
theorem SinceInv.inTime_step {x y : State × Since} (hinv : SinceInv x) (hx : InTime x)
    (h : withHistory (Zapper.step params) since x l = some y) (hl : KeepsInTime x l) :
    SinceInv y ∧ InTime y :=
  ⟨hinv.step h, (inTime_step_iff hinv hx h).mpr hl⟩

/-- **Whenever a wait has returned, the awaited table has been parsed since the filter was set,
and wherever the PIDs of the selected program are used, its slot holds a PMT of this program
parsed since then, exactly when the sections and keys of the run come in time.** -/
theorem waitsInTime_iff (params : ConfigParams) (ls : List Label) :
    Always (withHistory (step params) since) InTime (.powerOn, []) ls ↔
      Meets (withHistory (step params) since) KeepsInTime (.powerOn, []) ls := by
  refine always_iff_meets (I := SinceInv) ⟨coherent_powerOn, by simp, by simp, by simp [lastPmt]⟩
    ⟨fun t ht => ?_, fun hl => ?_⟩ (fun _ _ _ hx h => hx.step h)
    fun _ _ _ hinv hx h => inTime_step_iff hinv hx h
  · cases ht
  · cases hl

/-- The PAT section is still in flight, once more, when the filter for the SDT has been set: the
wait for the SDT returns without an SDT. -/
theorem not_forall_inTime : ¬ ∀ (params : ConfigParams) (ls : List Label),
    Always (withHistory (step params) since) InTime (.powerOn, []) ls := by
  intro h
  have hrun : (exec (withHistory (step (configIni 1)) since) (.powerOn, [])
      (startUpToPat ++ [.deliver (.ofBytes 0 samplePat.bytes), .signal, .main (.ok 0),
        .main (.ok 4), .main (.ok 0), .deliver (.ofBytes 0 samplePat.bytes), .signal])).map
        (fun x => (x.1.main, x.2.map Prod.fst)) =
      some (.init (.freeFilter .pmt), [.pat]) := by decide +kernel
  obtain ⟨x, hx, hobs⟩ := (h _ _).observe hrun
  simp only [Prod.mk.injEq] at hobs
  obtain ⟨d, hd⟩ := hx.main .sdt (by rw [hobs.1]; rfl)
  have hmem := List.mem_map_of_mem (f := Prod.fst) hd
  rw [hobs.2] at hmem
  simp at hmem

end Zapper
