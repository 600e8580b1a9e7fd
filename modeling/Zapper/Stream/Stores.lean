import Zapper.Section.PmtStores
import Zapper.Stream.Phases

/-!
# Sections that are being parsed

`parse_PMT` clears the PIDs of a slot of the PAT before it stores those of the section, and nobody
holds a lock meanwhile: whoever reads the slot then sees a program without streams. `Stream/System`
takes the parsing of a section as one step. Here `filter_callback` stores to the slot one field at
a time (`StoringState.step`), with the steps of the others in between.

As long as nobody reads the PIDs of the slot that is being filled, a run is one of `Stream/System`
in which a section is stored as soon as it arrives (`StoringState.simulates`).
-/

namespace Zapper

open Memory Transition

variable {params : ConfigParams} {a : Answer} {s s' : State} {l : Label}

/-! ### Who reads the selected slot -/

/-- The stream thread is about to read the PIDs of the selected program. -/
def LoopPc.readsPids : LoopPc → Bool
  | .switch _ .createVideo => true
  | .switch _ .createAudio => true
  | .switch _ .announce => true
  | _ => false

/-- The main thread is about to. -/
def MainPc.readsPids : MainPc → Bool
  | .init .checkAudioPid => true
  | .init .checkVideoPid => true
  | .init .createAudio => true
  | .init .createVideo => true
  | .init .announce => true
  | _ => false

/-- The program a digit key is for. -/
def Key.program : Key → Option ℕ
  | .digit program => some program
  | _ => none

/-- The step reads the PIDs of the selected program: so does the banner, and `change_program` when
the program is selected already. -/
def State.readsPids (s : State) : Label → Bool
  | .main _ => s.main.readsPids
  | .loop _ => s.loop.readsPids || (s.loop = .info && s.strPrm.getProgInfo)
  | .input code value _ => (Key.ofEvent code value).bind Key.program = some s.prCounter
  | _ => false

/-! ### The system -/

/-- The zapper, with what `parse_PMT` has still to store, and its slot. -/
structure StoringState where
  zapper : State
  stores : List PmtStore
  slot : ℕ

/-- The slot `j` is changed. -/
def State.withSlot (s : State) (j : ℕ) (f : PMT → PMT) : State :=
  { s with tables := { s.tables with pat := { s.tables.pat with
      pmts := s.tables.pat.pmts.modify j f } } }

namespace StoringState

/-- Static memory. -/
def powerOn : StoringState := ⟨.powerOn, [], 0⟩

/-- A call of `filter_callback` begins: the section of a program is stored step by step. -/
def sectionStep (d : Delivery) (x : StoringState) : Option StoringState :=
  match stored d x.zapper.tables with
  | .slot j =>
    if x.zapper.player.registered && !x.zapper.inCallback then
      (storesPMT d.fuel d.buffer (x.zapper.tables.pat.pmts.cell j)).map fun stores =>
        ⟨{ x.zapper with inCallback := true }, stores, j⟩
    else none
  | _ => (Zapper.sectionStep d x.zapper).map fun s => { x with zapper := s }

/-- The call goes on: the next store, or the signal behind the last one. -/
def signalStep (x : StoringState) : Option StoringState :=
  match x.stores with
  | store :: stores =>
    some ⟨x.zapper.withSlot x.slot fun pmt => PmtStore.apply pmt store, stores, x.slot⟩
  | [] => (Zapper.signalStep x.zapper).map fun s => { x with zapper := s }

/-- A step of one actor. -/
def act (params : ConfigParams) (x : StoringState) : Label → Option StoringState
  | .deliver d => sectionStep d x
  | .signal => signalStep x
  | l => (Zapper.act params x.zapper l).map fun s => { x with zapper := s }

/-- The transition function. -/
def step (params : ConfigParams) (x : StoringState) (l : Label) : Option StoringState :=
  if x.zapper.main.alive then act params x l else none

/-- The step stores to the slot. -/
def isStore (x : StoringState) : Label → Bool
  | .signal => !x.stores.isEmpty
  | _ => false

/-- The step does not read the PIDs of a slot that is being filled. -/
def ReadsWhole (x : StoringState) (l : Label) : Prop :=
  x.stores ≠ [] → x.zapper.readsPids l = true → x.zapper.prCounter ≠ x.slot

instance (x : StoringState) (l : Label) : Decidable (x.ReadsWhole l) :=
  inferInstanceAs (Decidable (_ → _ → _))

/-- The zapper when the section that is being parsed has been stored. -/
def settled (x : StoringState) : State :=
  match x.stores with
  | [] => x.zapper
  | stores => x.zapper.withSlot x.slot fun pmt => stores.foldl PmtStore.apply pmt

end StoringState

/-! ### A slot that changes and the others -/

variable {j : ℕ} {f g : PMT → PMT}

/-- Only what a PMT section gives is changed. -/
structure KeepsProgram (f : PMT → PMT) : Prop where
  prNum : ∀ pmt, (f pmt).prNum = pmt.prNum
  tableId : ∀ pmt, (f pmt).tableId = pmt.tableId

theorem keepsProgram_foldl (stores : List PmtStore) :
    KeepsProgram fun pmt => stores.foldl PmtStore.apply pmt := by
  constructor
  all_goals
    intro pmt
    induction stores generalizing pmt with
    | nil => rfl
    | cons store stores ih =>
      rw [List.foldl_cons, ih]
      cases store <;> rfl

theorem State.selected_withSlot_of_ne (hj : s.prCounter ≠ j) :
    (s.withSlot j f).selected = s.selected := Block.cell_modify_of_ne _ _ hj

theorem State.withSlot_withSlot (s : State) (j : ℕ) (f g : PMT → PMT) :
    (s.withSlot j f).withSlot j g = s.withSlot j fun pmt => g (f pmt) := by
  simp [withSlot, Block.modify]

/-- The slot keeps its program. -/
theorem State.selected_withSlot (hf : KeepsProgram f) :
    (s.withSlot j f).selected.prNum = s.selected.prNum ∧
      (s.withSlot j f).selected.tableId = s.selected.tableId := by
  by_cases hj : s.prCounter = j
  · have hcell : (s.withSlot j f).selected = f s.selected := by
      subst hj
      exact Block.cell_modify_self _ _ _
    rw [hcell]
    exact ⟨hf.prNum _, hf.tableId _⟩
  · rw [selected_withSlot_of_ne hj]
    exact ⟨rfl, rfl⟩

theorem State.initAssert_withSlot (s : State) (r : TError × Player) (pc : InitPc) :
    (s.withSlot j f).initAssert r pc = (s.initAssert r pc).withSlot j f := by
  obtain ⟨_ | _, p⟩ := r <;> rfl

/-- `stream_init` does not care for the slot, unless it reads it. -/
theorem initStep_withSlot (hf : KeepsProgram f) {q : InitPc}
    (hread : (MainPc.init q).readsPids = true → s.prCounter ≠ j) :
    initStep params a (s.withSlot j f) q =
      (initStep params a s q).map (State.withSlot · j f) := by
  cases q with
  | setFilter t =>
    have hpid : t.pid (s.withSlot j f) = t.pid s := by
      cases t with
      | pmt => exact (State.selected_withSlot hf).2
      | _ => rfl
    simp only [initStep, hpid]
    exact congrArg some (s.initAssert_withSlot _ _)
  | checkAudioPid | checkVideoPid =>
    simp only [initStep, State.selected_withSlot_of_ne (hread rfl)]
    split <;> rfl
  | createAudio | createVideo =>
    simp only [initStep, State.selected_withSlot_of_ne (hread rfl)]
    exact congrArg some (s.initAssert_withSlot _ _)
  | announce =>
    simp only [initStep, State.radio, State.selected_withSlot_of_ne (hread rfl)]
    rfl
  | tunerInit | registerTuner | playerInit | openSource | registerSections | freeFilter t =>
    exact congrArg some (s.initAssert_withSlot _ _)
  | lockTuner =>
    exact congrArg (fun u : State => some
      { u with tuning := decide ((s.player.tdp.tunerLockToFrequency a).1 = TError.noError) })
      (s.initAssert_withSlot _ _)
  | waitTuner | wait t =>
    simp only [initStep]
    cases hm : s.statusMutex <;> simp [State.withSlot, hm]
  | createThread | announcing progNum radio =>
    simp only [initStep]
    split <;> rfl
  | _ => rfl

/-- Nor does `stream_deinit`. -/
theorem deinitStep_withSlot {q : DeinitPc} :
    deinitStep a (s.withSlot j f) q = (deinitStep a s q).map (State.withSlot · j f) := by
  cases q with
  | stop =>
    simp only [deinitStep]
    cases hr : s.streamThreadRunning <;> simp [State.withSlot, hr]
  | join =>
    simp only [deinitStep]
    cases hl : s.loop with
    | exited e => cases e <;> simp [State.withSlot, hl]
    | _ => simp [State.withSlot, hl]
  | freeTables =>
    simp only [deinitStep]
    by_cases hfilled : s.tables.sdt.services.FilledTo s.tables.pat.pmtCount <;>
      simp [State.withSlot, hfilled]
  | _ => rfl

/-- **The main thread** does not care for the slot, unless it reads it. -/
theorem mainStep_withSlot (hf : KeepsProgram f)
    (hread : s.main.readsPids = true → s.prCounter ≠ j) :
    mainStep params a (s.withSlot j f) = (mainStep params a s).map (State.withSlot · j f) := by
  have hmain : (s.withSlot j f).main = s.main := rfl
  simp only [mainStep, hmain]
  cases hm : s.main with
  | init q =>
    rw [hm] at hread
    exact initStep_withSlot hf hread
  | deinit q => exact deinitStep_withSlot
  | remoteInit | graphicsInit | graphicsDeinit | remoteDeinit =>
    dsimp only
    split <;> rfl
  | _ => rfl

/-- **The stream thread** does not either. -/
theorem loopStep_withSlot (hf : KeepsProgram f)
    (hread : s.readsPids (.loop a) = true → s.prCounter ≠ j) :
    loopStep params a (s.withSlot j f) = (loopStep params a s).map (State.withSlot · j f) := by
  have hloop : (s.withSlot j f).loop = s.loop := rfl
  simp only [loopStep, hloop]
  simp only [State.readsPids] at hread
  cases hl : s.loop with
  | switch c q =>
    rw [hl] at hread
    cases q with
    | setFilter =>
      simp only [switchStep, (State.selected_withSlot hf).2]
      rfl
    | createVideo | createAudio =>
      simp only [switchStep, State.selected_withSlot_of_ne (hread rfl)]
      rfl
    | announce =>
      have hradio : (s.withSlot j f).radio = s.radio := by
        rw [State.radio, State.radio, State.selected_withSlot_of_ne (hread rfl)]
      simp only [switchStep, hradio]
      cases s.radio <;> rfl
    | wait =>
      simp only [switchStep]
      cases hm : s.statusMutex <;> simp [State.withSlot, hm]
    | _ => rfl
  | info =>
    cases hflag : s.strPrm.getProgInfo with
    | true =>
      simp only [State.selected_withSlot_of_ne (hread (by simp [hl, hflag]))]
      simp [State.withSlot, hflag]
    | false => simp [State.withSlot, hflag]
  | head =>
    cases hr : s.streamThreadRunning <;> simp [State.withSlot, hr]
  | test c =>
    cases hflag : s.strPrm.flag c <;> simp [State.withSlot, hflag]
  | list =>
    cases hflag : s.strPrm.getProgList <;> simp [State.withSlot, hflag]
  | _ => rfl

/-- Nor does a key. -/
theorem press_withSlot {k : Key} (hread : k.program = some s.prCounter → s.prCounter ≠ j) :
    press a (s.withSlot j f) k = (press a s k).map (State.withSlot · j f) := by
  have hloop : (s.withSlot j f).loop = s.loop := rfl
  cases k with
  | digit program =>
    simp only [press, hloop]
    split
    · rfl
    · by_cases hprogram : program = s.prCounter
      · subst hprogram
        have hradio : (s.withSlot j f).radio = s.radio := by
          rw [State.radio, State.radio, State.selected_withSlot_of_ne (hread rfl)]
        simp only [changeProgram, State.withSlot] at hradio ⊢
        simp [hradio]
        rfl
      · simp [changeProgram, State.withSlot, hprogram]
  | pPlus | pMinus | info | ok =>
    simp only [press, hloop]
    split <;> rfl
  | back | vPlus | vMinus | vMute => rfl
  | exit =>
    simp only [press]
    cases hm : s.main <;> simp [State.withSlot, hm]

theorem State.wake_withSlot (s : State) : (s.withSlot j f).wake = s.wake.withSlot j f := by
  have hmain : (s.withSlot j f).main = s.main := rfl
  have hloop : (s.withSlot j f).loop = s.loop := rfl
  unfold wake
  rw [hmain, hloop]
  split <;> rfl

/-- **Nobody cares for a slot that is being filled**, unless he reads its PIDs. -/
theorem act_withSlot (hf : KeepsProgram f) (hl : ∀ d, l ≠ .deliver d)
    (hread : s.readsPids l = true → s.prCounter ≠ j) :
    act params (s.withSlot j f) l = (act params s l).map (State.withSlot · j f) := by
  cases l with
  | main a => exact mainStep_withSlot hf hread
  | loop a => exact loopStep_withSlot hf hread
  | input code value a =>
    have hmain : (s.withSlot j f).main = s.main := rfl
    simp only [act, callback, hmain]
    split
    · cases hk : Key.ofEvent code value with
      | none => rfl
      | some k => exact press_withSlot fun hp => hread (by simp [State.readsPids, hk, hp])
    · rfl
  | deliver d => exact absurd rfl (hl d)
  | signal =>
    have hwake := State.wake_withSlot { s with inCallback := false } (j := j) (f := f)
    simp only [act, signalStep]
    cases hc : s.inCallback <;> cases hm : s.statusMutex <;>
      simp [State.withSlot, hc, hm] at hwake ⊢
    exact hwake
  | tuner status =>
    have hwake := State.wake_withSlot { s with tuning := false } (j := j) (f := f)
    simp only [act, tunerStep]
    cases ht : s.tuning <;> cases hm : s.statusMutex <;> cases status <;>
      simp [State.withSlot, ht, hm] at hwake ⊢
    exact hwake
  | timeout =>
    simp only [act, timeoutStep]
    have hmain : (s.withSlot j f).main = s.main := rfl
    rw [hmain]
    split <;> rfl
  | expire =>
    simp only [act, expireStep]
    cases ha : s.timer.armed <;> simp [State.withSlot, ha]
  | handler i =>
    simp only [act, handlerStep, State.withSlot, State.order]
    split <;> rfl

/-! ### Runs in which nobody reads a slot that is being filled -/

namespace StoringState

variable {x y : StoringState}

/-- A slot is filled in a call of `filter_callback` only. -/
def Sane (x : StoringState) : Prop := x.stores ≠ [] → x.zapper.inCallback = true

theorem settled_of_nil (h : x.stores = []) : x.settled = x.zapper := by
  unfold settled
  split
  · rfl
  · next hne => exact absurd h hne

theorem settled_of_ne (h : x.stores ≠ []) :
    x.settled = x.zapper.withSlot x.slot fun pmt => x.stores.foldl PmtStore.apply pmt := by
  unfold settled
  split
  · next hnil => exact absurd hnil h
  · rfl

/-- The stores that are due change their slot only. -/
theorem settled_cases (x : StoringState) : x.stores = [] ∧ x.settled = x.zapper ∨
    x.stores ≠ [] ∧ ∃ f, KeepsProgram f ∧ x.settled = x.zapper.withSlot x.slot f := by
  by_cases h : x.stores = []
  · exact .inl ⟨h, settled_of_nil h⟩
  · exact .inr ⟨h, _, keepsProgram_foldl x.stores, settled_of_ne h⟩

theorem settled_main (x : StoringState) : x.settled.main = x.zapper.main := by
  obtain ⟨-, hx⟩ | ⟨-, f, -, hx⟩ := x.settled_cases <;> rw [hx]
  rfl

/-- **What a step does**: it begins to store a section, makes a store, or is a step of
`Stream/System`. -/
inductive Moves (params : ConfigParams) (x : StoringState) : Label → StoringState → Prop
  | begins (d : Delivery) (j : ℕ) (stores : List PmtStore)
      (hslot : stored d x.zapper.tables = .slot j) (hreg : x.zapper.player.registered = true)
      (hfree : x.zapper.inCallback = false)
      (hstores : storesPMT d.fuel d.buffer (x.zapper.tables.pat.pmts.cell j) = some stores) :
      Moves params x (.deliver d) ⟨{ x.zapper with inCallback := true }, stores, j⟩
  | store (store : PmtStore) (stores : List PmtStore) (hstores : x.stores = store :: stores) :
      Moves params x .signal
        ⟨x.zapper.withSlot x.slot fun pmt => PmtStore.apply pmt store, stores, x.slot⟩
  | zapper (l : Label) (s : State) (h : Zapper.step params x.zapper l = some s)
      (hsignal : l = .signal → x.stores = []) : Moves params x l { x with zapper := s }

theorem alive_of_step (h : x.step params l = some y) : x.zapper.main.alive = true := by
  unfold step at h
  split at h
  · next halive => exact halive
  · cases h

theorem step_moves (h : x.step params l = some y) : Moves params x l y := by
  unfold step at h
  split at h
  · next halive =>
    have hstep : ∀ {s : State}, Zapper.act params x.zapper l = some s →
        Zapper.step params x.zapper l = some s := fun hs => by rw [Zapper.step, if_pos halive, hs]
    cases l with
    | deliver d =>
      simp only [act, sectionStep] at h
      split at h
      · next j hslot =>
        split at h
        · next hfree =>
          obtain ⟨hreg, hc⟩ : x.zapper.player.registered = true ∧ x.zapper.inCallback = false := by
            simpa using hfree
          obtain ⟨stores, hstores, rfl⟩ := Option.map_eq_some_iff.mp h
          exact .begins d j stores hslot hreg hc hstores
        · cases h
      · obtain ⟨s, hs, rfl⟩ := Option.map_eq_some_iff.mp h
        exact .zapper _ s (hstep hs) fun h => by cases h
    | signal =>
      simp only [act, signalStep] at h
      split at h
      · next store stores hstores =>
        obtain rfl := Option.some.inj h
        exact .store store stores hstores
      · next hnil =>
        obtain ⟨s, hs, rfl⟩ := Option.map_eq_some_iff.mp h
        exact .zapper _ s (hstep hs) fun _ => hnil
    | _ =>
      obtain ⟨s, hs, rfl⟩ := Option.map_eq_some_iff.mp h
      exact .zapper _ s (hstep hs) fun h => by cases h
  · cases h

/-- No section is parsed while one is being parsed. -/
theorem Sane.stores_eq_nil (hx : x.Sane) (hfree : x.zapper.inCallback = false) : x.stores = [] := by
  by_contra hne
  rw [hx hne] at hfree
  cases hfree

theorem Sane.step (hx : x.Sane) (h : x.step params l = some y) : y.Sane := by
  cases step_moves h with
  | begins => exact fun _ => rfl
  | store store stores hstores => exact fun _ => hx (by simp [hstores])
  | zapper l s hs hsignal =>
    intro hne
    have hact := act_of_step hs
    refine (inCallback_of_act ?_ (fun hl => hne (hsignal hl)) hact).trans (hx hne)
    rintro d rfl
    exact hne (hx.stores_eq_nil (sectionStep_eq_some hact).2.1)

/-- A section is stored as soon as it arrives. -/
private theorem settled_of_begins {d : Delivery} {j : ℕ} {stores : List PmtStore} (hx : x.Sane)
    (hslot : stored d x.zapper.tables = .slot j) (hreg : x.zapper.player.registered = true)
    (hfree : x.zapper.inCallback = false)
    (hstores : storesPMT d.fuel d.buffer (x.zapper.tables.pat.pmts.cell j) = some stores) :
    Zapper.sectionStep d x.settled =
      some (settled ⟨{ x.zapper with inCallback := true }, stores, j⟩) := by
  have hne : stores ≠ [] := by
    rintro rfl
    have hfirst := clearStores_first hstores
    simp [clearStores] at hfirst
  obtain ⟨htable, hfind⟩ := stored_eq_slot_iff.mp hslot
  rw [settled_of_nil (hx.stores_eq_nil hfree), settled_of_ne hne, Zapper.sectionStep,
    if_pos (by rw [hreg, hfree]; rfl), filterCallback, htable]
  simp only [hfind, Option.bind_some, parsePMT_eq_storesPMT, hstores, Option.map_some]
  rfl

/-- A store changes nothing of what is stored in the end. -/
theorem settled_store (s : State) (j : ℕ) (store : PmtStore) (stores : List PmtStore) :
    settled ⟨s.withSlot j fun pmt => PmtStore.apply pmt store, stores, j⟩ =
      settled ⟨s, store :: stores, j⟩ := by
  cases stores with
  | nil => rfl
  | cons store' stores => exact s.withSlot_withSlot _ _ _

/-- **A step** is one of `Stream/System`, or a store. -/
theorem settled_of_step (hx : x.Sane) (hwhole : x.ReadsWhole l) (h : x.step params l = some y) :
    if x.isStore l then y.settled = x.settled
      else Zapper.step params x.settled l = some y.settled := by
  have halive := alive_of_step h
  cases step_moves h with
  | begins d j stores hslot hreg hfree hstores =>
    rw [if_neg (by simp [isStore]), Zapper.step, if_pos (x.settled_main ▸ halive)]
    exact settled_of_begins hx hslot hreg hfree hstores
  | store store stores hstores =>
    rw [if_pos (by simp [isStore, hstores]), settled_store, ← hstores]
  | zapper l s hs hsignal =>
    have hstore : x.isStore l = false := by
      cases l with
      | signal => simp [isStore, hsignal rfl]
      | _ => rfl
    rw [if_neg (by simp [hstore])]
    by_cases hnil : x.stores = []
    · rw [settled_of_nil hnil, settled_of_nil (x := { x with zapper := s }) hnil]
      exact hs
    · have hl : ∀ d, l ≠ .deliver d := by
        rintro d rfl
        exact hnil (hx.stores_eq_nil (sectionStep_eq_some (act_of_step hs)).2.1)
      rw [Zapper.step, if_pos (x.settled_main ▸ halive), settled_of_ne hnil,
        settled_of_ne (x := { x with zapper := s }) hnil,
        act_withSlot (keepsProgram_foldl _) hl (hwhole hnil), act_of_step hs, Option.map_some]

/-- A delivery that stores nothing. -/
private def unknownSection : Delivery := .ofBytes 0 [0xFF]

/-- **What holds whatever is in the slots** holds throughout the runs with stores if it holds
throughout those of `Stream/System`. -/
theorem always_of_zapper {P : State → Prop} {C : State → Label → Prop} {ls : List Label}
    (hx : P x.zapper) (hC : Meets (step params) (fun x l => C x.zapper l) x ls)
    (hstep : ∀ s l s', P s → C s l → Zapper.step params s l = some s' → P s')
    (hslot : ∀ s j f, P s → P (s.withSlot j f)) (hdeliver : ∀ s d, C s (.deliver d)) :
    Always (step params) (fun x => P x.zapper) x ls := by
  refine always_of_step hx hC fun x l y hx hl h => ?_
  cases step_moves h with
  | begins d j stores hslot' hreg hfree hstores =>
    -- the call of `filter_callback` begins as one that stores nothing
    refine hstep x.zapper (.deliver unknownSection) _ hx (hdeliver _ _) ?_
    rw [Zapper.step, if_pos (alive_of_step h), Zapper.act, Zapper.sectionStep,
      if_pos (by rw [hreg, hfree]; rfl)]
    rfl
  | store store stores hstores => exact hslot _ _ _ hx
  | zapper l s hs hsignal => exact hstep _ _ _ hx hl hs

/-- **Runs in which nobody reads a slot that is being filled** are runs of `Stream/System`. -/
theorem simulates (params : ConfigParams) (D : State → Label → Prop) :
    Simulates (step params) (Zapper.step params) settled Sane
      (fun x l => x.ReadsWhole l ∧ (x.isStore l = false → D x.settled l)) D := by
  rintro x l y hx ⟨hwhole, hD⟩ h
  have hsettled := settled_of_step hx hwhole h
  refine ⟨hx.step h, ?_⟩
  split at hsettled
  · exact .inl hsettled
  · next hstore => exact .inr ⟨hsettled, hD (by simpa using hstore)⟩

/-- A history variable of `Stream/System`, over the steps that are no stores. -/
def history {γ : Type*} (upd : State → Label → State → γ → γ) (x : StoringState) (l : Label)
    (y : StoringState) (g : γ) : γ :=
  if x.isStore l then g else upd x.settled l y.settled g

/-- A condition on the steps of `Stream/System`, over the steps that are no stores. -/
def OnSteps {γ : Type*} (D : State × γ → Label → Prop) (x : StoringState × γ) (l : Label) : Prop :=
  x.1.isStore l = false → D (x.1.settled, x.2) l

instance {γ : Type*} (D : State × γ → Label → Prop) [∀ x l, Decidable (D x l)]
    (x : StoringState × γ) (l : Label) : Decidable (OnSteps D x l) :=
  inferInstanceAs (Decidable (_ → _))

/-- The same with a history variable. -/
theorem simulates_history {γ : Type*} (params : ConfigParams) (upd : State → Label → State → γ → γ)
    (D : State × γ → Label → Prop) :
    Simulates (withHistory (step params) (history upd)) (withHistory (Zapper.step params) upd)
      (fun x => (x.1.settled, x.2)) (fun x => x.1.Sane)
      (fun x l => x.1.ReadsWhole l ∧ OnSteps D x l) D := by
  rintro x l y hx ⟨hwhole, hD⟩ h
  obtain ⟨hstep, hy⟩ := withHistory_eq_some.mp h
  have hsettled := settled_of_step hx hwhole hstep
  refine ⟨hx.step hstep, ?_⟩
  by_cases hstore : x.1.isStore l = true
  · rw [if_pos hstore] at hsettled
    refine .inl (Prod.ext hsettled ?_)
    rw [hy, history, if_pos hstore]
  · rw [if_neg hstore] at hsettled
    refine .inr ⟨withHistory_eq_some.mpr ⟨hsettled, ?_⟩, hD (by simpa using hstore)⟩
    rw [hy, history, if_neg hstore]

end StoringState

/-! ### Runs with the stores written out -/

/-- How many stores `parse_PMT` makes in the step. -/
def storeCount (s : State) : Label → ℕ
  | .deliver d =>
    match stored d s.tables with
    | .slot j => ((storesPMT d.fuel d.buffer (s.tables.pat.pmts.cell j)).getD []).length
    | _ => 0
  | _ => 0

/-- A run of `Stream/System`, with the stores behind each section. -/
def storingRun (params : ConfigParams) (s : State) : List Label → List Label
  | [] => []
  | l :: ls =>
    match step params s l with
    | some s' => l :: (List.replicate (storeCount s l) .signal ++ storingRun params s' ls)
    | none => l :: ls

/-- Behind a section, the call of `filter_callback` goes on. -/
theorem mem_storingRun {ls : List Label} {l : Label} (h : l ∈ storingRun params s ls) :
    l ∈ ls ∨ l = .signal := by
  induction ls generalizing s with
  | nil => cases h
  | cons k ls ih =>
    rw [storingRun] at h
    split at h
    · rw [List.mem_cons, List.mem_append] at h
      obtain rfl | h | h := h
      · exact .inl (by simp)
      · exact .inr (List.eq_of_mem_replicate h)
      · exact (ih h).imp_left (List.mem_cons_of_mem k)
    · exact .inl h

namespace StoringState

/-- The stores that are due are made. -/
theorem exec_stores {x : StoringState} (halive : x.stores ≠ [] → x.zapper.main.alive = true)
    (ls : List Label) :
    exec (step params) x (List.replicate x.stores.length .signal ++ ls) =
      exec (step params) ⟨x.settled, [], x.slot⟩ ls := by
  obtain ⟨s, stores, j⟩ := x
  induction stores generalizing s with
  | nil => rfl
  | cons store stores ih =>
    have hs : s.main.alive = true := halive (by simp)
    have hstep : step params ⟨s, store :: stores, j⟩ .signal =
        some ⟨s.withSlot j fun pmt => PmtStore.apply pmt store, stores, j⟩ := if_pos hs
    rw [List.length_cons, List.replicate_succ, List.cons_append, exec, hstep, Option.bind_some,
      ← settled_store]
    exact ih _ fun _ => hs

/-- A step of `Stream/System`, with what is left to store behind it. -/
private theorem step_of_nil (h : Zapper.step params s l = some s') (j : ℕ) :
    ∃ y, step params ⟨s, [], j⟩ l = some y ∧ y.settled = s' ∧
      y.stores.length = storeCount s l ∧ (y.stores ≠ [] → y.zapper.main.alive = true) := by
  have halive := Zapper.alive_of_step h
  have hact := act_of_step h
  have hquiet : act params ⟨s, [], j⟩ l = some ⟨s', [], j⟩ → storeCount s l = 0 →
      ∃ y, step params ⟨s, [], j⟩ l = some y ∧ y.settled = s' ∧
        y.stores.length = storeCount s l ∧ (y.stores ≠ [] → y.zapper.main.alive = true) :=
    fun hy hcount => ⟨⟨s', [], j⟩, by rw [step, if_pos halive, hy], rfl, hcount.symm,
      fun hne => absurd rfl hne⟩
  cases l with
  | deliver d =>
    have hsection : Zapper.sectionStep d s = some s' := hact
    by_cases hslot : ∃ i, stored d s.tables = .slot i
    · obtain ⟨i, hslot⟩ := hslot
      obtain ⟨hreg, hc, tables, htables, -⟩ := sectionStep_eq_some hsection
      have hparse : ∃ pmt, parsePMT d.fuel d.buffer (s.tables.pat.pmts.cell i) = some pmt := by
        obtain ⟨hst, -⟩ | ⟨k, pmt, hst, -, hpmt, -⟩ | ⟨sdt, hst, -⟩ | ⟨hst, -⟩ :=
          filterCallback_cases htables
        · cases hst.symm.trans hslot
        · cases hst.symm.trans hslot
          exact ⟨pmt, hpmt⟩
        · cases hst.symm.trans hslot
        · cases hst.symm.trans hslot
      obtain ⟨pmt, hpmt⟩ := hparse
      rw [parsePMT_eq_storesPMT] at hpmt
      obtain ⟨stores, hstores, -⟩ := Option.map_eq_some_iff.mp hpmt
      have hy : sectionStep d ⟨s, [], j⟩ = some ⟨{ s with inCallback := true }, stores, i⟩ := by
        rw [sectionStep]
        simp only [hslot, hstores]
        exact if_pos (by rw [hreg, hc]; rfl)
      have hsettled := settled_of_begins (x := ⟨s, [], j⟩) (fun hne => absurd rfl hne) hslot hreg
        hc hstores
      refine ⟨_, (if_pos halive).trans hy, ?_, ?_, fun _ => halive⟩
      · exact Option.some.inj (hsettled.symm.trans hsection)
      · rw [storeCount]
        simp only [hslot, hstores, Option.getD_some]
    · refine hquiet ?_ ?_
      · simp only [act, sectionStep]
        split
        · next i hi => exact absurd ⟨i, hi⟩ hslot
        · rw [hsection, Option.map_some]
      · simp only [storeCount]
        split
        · next i hi => exact absurd ⟨i, hi⟩ hslot
        · rfl
  | signal =>
    refine hquiet ?_ rfl
    simp only [act, signalStep]
    rw [show Zapper.signalStep s = some s' from hact, Option.map_some]
  | _ =>
    refine hquiet ?_ rfl
    simp only [act]
    rw [hact, Option.map_some]

/-- **Every run of `Stream/System`** is one in which the sections are stored field by field. -/
theorem exec_storingRun {ls : List Label} (h : exec (Zapper.step params) s ls = some s') (j : ℕ) :
    ∃ j', exec (step params) ⟨s, [], j⟩ (storingRun params s ls) = some ⟨s', [], j'⟩ := by
  induction ls generalizing s j with
  | nil =>
    obtain rfl := Option.some.inj h
    exact ⟨j, rfl⟩
  | cons l ls ih =>
    obtain ⟨u, hu, hls⟩ := Option.bind_eq_some_iff.mp h
    obtain ⟨y, hy, rfl, hcount, halive⟩ := step_of_nil hu j
    obtain ⟨j', hj'⟩ := ih hls y.slot
    refine ⟨j', ?_⟩
    rw [storingRun, hu, exec, hy, Option.bind_some, ← hcount]
    exact (exec_stores halive _).trans hj'

end StoringState

end Zapper
