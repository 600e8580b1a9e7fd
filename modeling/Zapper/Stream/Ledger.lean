import Zapper.Stream.ProgramList
import Zapper.Stream.Teardown

/-!
# What `main` holds

`main` undoes with `goto` what it has set up: what `graphics_init` has acquired, then what
`stream_init` and the stream thread have, then the key callback and the remote thread.

A ledger records what is held outside the player, and every attempt to release what is not held.
If `stream_init` fails only when it has set the filter, `graphics_init` only when it has acquired
its surfaces, no check of the stream thread and of `stream_deinit` finds an error, and the SDT has
described all programs of the PAT when `stream_deinit` frees their names, all is released, and
nothing twice (`tornDown`). A check reads the global `error`, which may be the result of
`set_volume`, so that the runs are those of `Stream/Checks`.
-/

namespace Zapper

open Transition

variable {params : ConfigParams} {a : Answer} {s s' : State} {l : Label} {b : Ledger}

/-! ### Resources -/

/-- What `main` acquires, itself or through the functions that it calls. -/
inductive Resource
  | remoteThread
  | callback
  | tuner
  | player
  | source
  | filter
  | audio
  | video
  | streamThread
  | renderThread
  | surfaces
  deriving DecidableEq

/-- What is held outside the player, and what has gone wrong. -/
structure Ledger where
  held : Resource → ℕ
  /-- `render_thread_running`, which is set in static memory. -/
  renderRunning : Bool
  /-- Something was to be released, or joined, that was not held. -/
  fault : Bool
  /-- `stream_init` has returned an error though all its steps had succeeded, or the other way
  round. -/
  wrongResult : Bool

/-- Static memory. -/
def Ledger.empty : Ledger := ⟨fun _ => 0, true, false, false⟩

/-- How much of a resource is held: what the player holds is read off the player. -/
def holding (x : State × Ledger) : Resource → ℕ
  | .player => (decide (x.1.player.tdp.hPE ≠ 0)).toNat
  | .source => (decide (x.1.player.tdp.hSource ≠ 0)).toNat
  | .filter => x.1.player.tdp.pe.liveFilters.length
  | .audio => (x.1.player.tdp.pe.live false).length
  | .video => (x.1.player.tdp.pe.live true).length
  | r => x.2.held r

/-- What a step acquires outside the player. When `graphics_init` fails, it has got as far as
the creation of its thread, or has failed with one of its timers. -/
def acquired (s : State) (l : Label) (s' : State) : List Resource :=
  match l, s.main, s'.main with
  | .main _, .remoteInit, .registerRemote => [.remoteThread]
  | .main _, .registerRemote, _ => [.callback]
  | .main _, .init .tunerInit, .init .registerTuner => [.tuner]
  | .main _, .init .createThread, .init .announce => [.streamThread]
  | .main a, .graphicsInit, _ =>
    if a.first then [.surfaces, .renderThread] else if a.second then [.surfaces] else []
  | _, _, _ => []

/-- What a step tries to release, or to join. -/
def attempted (x : State × Ledger) : Label → List Resource
  | .main a =>
    match x.1.main with
    | .init (.freeFilter _) => [.filter]
    | .graphicsDeinit =>
      (if x.2.renderRunning then [.renderThread] else []) ++ if a.first then [.surfaces] else []
    | .deinit .join => [.streamThread]
    | .deinit .removeAudio => if x.1.player.status.audioOn then [.audio] else []
    | .deinit .removeVideo => if x.1.player.status.videoOn then [.video] else []
    | .deinit .freeFilter => [.filter]
    | .deinit .closeSource => [.source]
    | .deinit .deinitPlayer => [.player]
    | .deinit .deinitTuner => [.tuner]
    | .unregisterRemote => [.callback]
    | .remoteDeinit => [.remoteThread]
    | _ => []
  | .loop _ =>
    match x.1.loop with
    | .switch _ .removeAudio => if x.1.player.status.audioOn then [.audio] else []
    | .switch _ .removeVideo => if x.1.player.status.videoOn then [.video] else []
    | .switch _ .freeFilter => [.filter]
    | _ => []
  | _ => []

/-- The step of `main` goes on, or ends without an error of its own. -/
def goesOn (s : State) (l : Label) (s' : State) : Bool :=
  match l, s.main with
  | .main a, .graphicsDeinit => a.first
  | .main a, .remoteDeinit => a.first
  | .main _, .deinit .deinitTuner => s'.main ≠ .exited .error
  | _, _ => true

/-- The ledger behind a step. -/
def ledger (s : State) (l : Label) (s' : State) (b : Ledger) : Ledger where
  held := fun r => b.held r + (acquired s l s').count r -
    if goesOn s l s' then (attempted (s, b) l).count r else 0
  renderRunning :=
    match l, s.main with
    | .main a, .graphicsInit =>
      if a.first then true else if a.second then false else b.renderRunning
    | .main _, .graphicsDeinit => false
    | _, _ => b.renderRunning
  fault := b.fault || (attempted (s, b) l).any fun r => holding (s, b) r = 0
  wrongResult := b.wrongResult ||
    match s.main with
    | .init q =>
      (decide (s'.main = .graphicsInit) && !q.returns) ||
        (decide (s'.main = .deinit .stop) && q.returns)
    | _ => false

/-- Nothing was released that was not held, `stream_init` has returned `NO_ERROR` when all its
steps have succeeded, and no other time, the service names that `stream_deinit` frees have been
stored, and when `main` has returned, nothing is held. -/
structure TornDown (x : State × Ledger) : Prop where
  fault : x.2.fault = false
  result : x.2.wrongResult = false
  frees : x.1.main = .deinit .freeTables →
    x.1.tables.sdt.services.FilledTo x.1.tables.pat.pmtCount
  released : ∀ e, x.1.main = .exited e → ∀ r, holding x r = 0

/-! ### The condition -/

/-- The condition on a step: the calls fail at the places from which `main` can recover only, an SDT
has no more services than there are programs when it arrives, nor fewer when the list is handed over
or freed. -/
def Orderly (x : State × Ledger) : Label → Prop
  | .main a => a.InOrder x.1.main x.1.player.tdp ∧ (x.1.main = .deinit .deinitTuner →
      x.1.tables.sdt.services.FilledTo x.1.tables.pat.pmtCount)
  | .loop a => (x.1.loop.callsPlayer = true → a.Good x.1.player.tdp) ∧
      (x.1.loop = .list → x.1.strPrm.getProgList = true →
        x.1.tables.sdt.services.FilledTo x.1.tables.pat.pmtCount)
  | .deliver d => x.1.main ≠ .deinit .freeTables ∧ (stored d x.1.tables = .sdt →
      ∀ n ∈ serviceCount d.fuel d.buffer, n ≤ x.1.tables.pat.pmtCount)
  | .timeout => False
  | _ => True

instance (x : State × Ledger) : ∀ l, Decidable (Orderly x l)
  | .main a => inferInstanceAs (Decidable (a.InOrder x.1.main x.1.player.tdp ∧
      (x.1.main = .deinit .deinitTuner →
        x.1.tables.sdt.services.FilledTo x.1.tables.pat.pmtCount)))
  | .loop a => inferInstanceAs (Decidable ((x.1.loop.callsPlayer = true → a.Good x.1.player.tdp) ∧
      (x.1.loop = .list → x.1.strPrm.getProgList = true →
        x.1.tables.sdt.services.FilledTo x.1.tables.pat.pmtCount)))
  | .deliver d => inferInstanceAs (Decidable (x.1.main ≠ .deinit .freeTables ∧
      (stored d x.1.tables = .sdt →
        ∀ n ∈ serviceCount d.fuel d.buffer, n ≤ x.1.tables.pat.pmtCount)))
  | .timeout => isFalse id
  | .input _ _ _ => isTrue trivial
  | .signal => isTrue trivial
  | .tuner _ => isTrue trivial
  | .expire => isTrue trivial
  | .handler _ => isTrue trivial

/-! ### What is due -/

/-- What is held outside the player, as the places of the threads say: a resource is held from
the place where it is acquired to the place where it is released. -/
def Due (x : State × Ledger) : Resource → Prop
  | .remoteThread => x.1.Past .remoteInit ∧ ¬ x.1.Past .remoteDeinit
  | .callback => x.1.Past .registerRemote ∧ ¬ x.1.Past .unregisterRemote
  | .tuner => x.1.Past (.init .tunerInit) ∧ ¬ x.1.Past (.deinit .deinitTuner)
  | .streamThread => x.1.loop ≠ .notCreated ∧ ¬ x.1.Past (.deinit .join)
  | .renderThread =>
    x.2.renderRunning = true ∧ x.1.Past .graphicsInit ∧ ¬ x.1.Past .graphicsDeinit
  | .surfaces => x.1.Past .graphicsInit ∧ ¬ x.1.Past .graphicsDeinit
  | _ => False

/-- What the player holds. -/
def Resource.ofPlayer : Resource → Bool
  | .player => true
  | .source => true
  | .filter => true
  | .audio => true
  | .video => true
  | _ => false

/-- The ledger holds what is due, and nothing has gone wrong. -/
structure Balanced (x : State × Ledger) : Prop where
  due : ∀ r, Due x r → x.2.held r = 1
  notDue : ∀ r, ¬ Due x r → x.2.held r = 0
  fault : x.2.fault = false
  result : x.2.wrongResult = false

theorem balanced_powerOn : Balanced (.powerOn, .empty) := by
  have hdue : ∀ r, ¬ Due (.powerOn, .empty) r := by
    intro r
    cases r <;> simp [Due, State.Past, State.powerOn, MainPc.stage]
  exact ⟨fun r hr => absurd hr (hdue r), fun r _ => rfl, rfl, rfl⟩

theorem not_due_of_ofPlayer {x : State × Ledger} {r : Resource} (h : r.ofPlayer = true) :
    ¬ Due x r := by
  cases r <;> first
  | exact id
  | cases h

theorem holding_of_due {x : State × Ledger} {r : Resource} (h : Due x r) :
    holding x r = x.2.held r := by
  cases r <;> first
  | rfl
  | exact h.elim

/-- **A step behind which the same is due**: nothing is acquired, and nothing but what the player
holds is released. -/
theorem Balanced.quiet (hb : Balanced (s, b)) (hacquired : acquired s l s' = [])
    (hattempted : ∀ r ∈ attempted (s, b) l, r.ofPlayer = true ∧ holding (s, b) r ≠ 0)
    (hrender : (ledger s l s' b).renderRunning = b.renderRunning)
    (hdue : ∀ r, Due (s', b) r ↔ Due (s, b) r)
    (hresult : (ledger s l s' b).wrongResult = b.wrongResult) :
    Balanced (s', ledger s l s' b) := by
  have hsame : ∀ r, Due (s', ledger s l s' b) r ↔ Due (s', b) r := by
    intro r
    cases r <;> simp only [Due, hrender]
  have hheld : ∀ r, (ledger s l s' b).held r = b.held r := by
    intro r
    by_cases hr : r ∈ attempted (s, b) l
    · have hzero := hb.notDue r (not_due_of_ofPlayer (hattempted r hr).1)
      simp only at hzero
      simp [ledger, hacquired, hzero]
    · simp [ledger, hacquired, List.count_eq_zero.mpr hr]
  refine ⟨fun r hr => ?_, fun r hr => ?_, ?_, hresult.trans hb.result⟩
  · exact (hheld r).trans (hb.due r ((hdue r).mp ((hsame r).mp hr)))
  · exact (hheld r).trans (hb.notDue r fun hr' => hr ((hsame r).mpr ((hdue r).mpr hr')))
  · have hnone : (attempted (s, b) l).any (fun r => holding (s, b) r = 0) = false := by
      simpa using fun r hr => (hattempted r hr).2
    have hfault := hb.fault
    simp only at hfault
    simp [ledger, hfault, hnone]

/-- **A step that acquires**, and releases nothing. -/
theorem Balanced.acquire (hb : Balanced (s, b)) (rs : List Resource)
    (hacquired : acquired s l s' = rs) (hattempted : attempted (s, b) l = [])
    (hnodup : rs.Nodup) (hnew : ∀ r ∈ rs, ¬ Due (s, b) r)
    (hdue : ∀ r, Due (s', ledger s l s' b) r ↔ Due (s, b) r ∨ r ∈ rs)
    (hresult : (ledger s l s' b).wrongResult = b.wrongResult) :
    Balanced (s', ledger s l s' b) := by
  have hheld : ∀ r, (ledger s l s' b).held r = b.held r + rs.count r := by
    intro r
    simp [ledger, hacquired, hattempted]
  refine ⟨fun r hr => ?_, fun r hr => ?_, ?_, hresult.trans hb.result⟩
  · by_cases hmem : r ∈ rs
    · have hzero : b.held r = 0 := hb.notDue r (hnew r hmem)
      simp only [hheld, hzero, List.count_eq_one_of_mem hnodup hmem]
    · have hone : b.held r = 1 := hb.due r (((hdue r).mp hr).resolve_right hmem)
      simp only [hheld, hone, List.count_eq_zero.mpr hmem]
  · have hmem : r ∉ rs := fun hmem => hr ((hdue r).mpr (.inr hmem))
    have hzero : b.held r = 0 := hb.notDue r fun hr' => hr ((hdue r).mpr (.inl hr'))
    simp only [hheld, hzero, List.count_eq_zero.mpr hmem]
  · have hfault : b.fault = false := hb.fault
    simp [ledger, hfault, hattempted]

/-- **A step that releases**, and acquires nothing. -/
theorem Balanced.release (hb : Balanced (s, b)) (rs : List Resource)
    (hacquired : acquired s l s' = []) (hattempted : attempted (s, b) l = rs)
    (hnodup : rs.Nodup) (hgoesOn : goesOn s l s' = true)
    (hheld : ∀ r ∈ rs, Due (s, b) r)
    (hdue : ∀ r, Due (s', ledger s l s' b) r ↔ Due (s, b) r ∧ r ∉ rs)
    (hresult : (ledger s l s' b).wrongResult = b.wrongResult) :
    Balanced (s', ledger s l s' b) := by
  have hleft : ∀ r, (ledger s l s' b).held r = b.held r - rs.count r := by
    intro r
    simp [ledger, hacquired, hattempted, hgoesOn]
  refine ⟨fun r hr => ?_, fun r hr => ?_, ?_, hresult.trans hb.result⟩
  · obtain ⟨hr', hmem⟩ := (hdue r).mp hr
    have hone : b.held r = 1 := hb.due r hr'
    simp only [hleft, hone, List.count_eq_zero.mpr hmem]
  · by_cases hmem : r ∈ rs
    · have hone : b.held r = 1 := hb.due r (hheld r hmem)
      simp only [hleft, hone, List.count_eq_one_of_mem hnodup hmem]
    · have hzero : b.held r = 0 := hb.notDue r fun hr' => hr ((hdue r).mpr ⟨hr', hmem⟩)
      simp only [hleft, hzero, List.count_eq_zero.mpr hmem]
  · have hfault : b.fault = false := hb.fault
    have hnone : rs.any (fun r => holding (s, b) r = 0) = false := by
      have hholding : ∀ r ∈ rs, holding (s, b) r ≠ 0 := by
        intro r hr
        have hone : b.held r = 1 := hb.due r (hheld r hr)
        rw [holding_of_due (hheld r hr)]
        simp [hone]
      simpa using hholding
    simp [ledger, hfault, hattempted, hnone]

theorem due_iff_stage {x : State × Ledger} {r : Resource} :
    Due x r ↔
      match r with
      | .remoteThread => 0 < x.1.main.stage ∧ ¬ 46 < x.1.main.stage
      | .callback => 1 < x.1.main.stage ∧ ¬ 45 < x.1.main.stage
      | .tuner => 4 < x.1.main.stage ∧ ¬ 43 < x.1.main.stage
      | .streamThread => x.1.loop ≠ .notCreated ∧ ¬ 37 < x.1.main.stage
      | .renderThread =>
        x.2.renderRunning = true ∧ 33 < x.1.main.stage ∧ ¬ 35 < x.1.main.stage
      | .surfaces => 33 < x.1.main.stage ∧ ¬ 35 < x.1.main.stage
      | _ => False := by
  cases r <;> exact Iff.rfl

/-- What is due does not change with the place of the main thread, but where something is
acquired or released. -/
theorem due_congr (hcreated : s'.loop = .notCreated ↔ s.loop = .notCreated)
    (hremote : 0 < s'.main.stage ∧ ¬ 46 < s'.main.stage ↔ 0 < s.main.stage ∧ ¬ 46 < s.main.stage)
    (hcallback : 1 < s'.main.stage ∧ ¬ 45 < s'.main.stage ↔
      1 < s.main.stage ∧ ¬ 45 < s.main.stage)
    (htuner : 4 < s'.main.stage ∧ ¬ 43 < s'.main.stage ↔ 4 < s.main.stage ∧ ¬ 43 < s.main.stage)
    (hjoin : s.loop ≠ .notCreated → (37 < s'.main.stage ↔ 37 < s.main.stage))
    (hgraphics : 33 < s'.main.stage ∧ ¬ 35 < s'.main.stage ↔
      33 < s.main.stage ∧ ¬ 35 < s.main.stage) (r : Resource) :
    Due (s', b) r ↔ Due (s, b) r := by
  rw [due_iff_stage, due_iff_stage]
  cases r with
  | remoteThread => exact hremote
  | callback => exact hcallback
  | tuner => exact htuner
  | streamThread =>
    by_cases hl : s.loop = .notCreated
    · simp [hl, hcreated.mpr hl]
    · exact and_congr (not_congr hcreated) (not_congr (hjoin hl))
  | renderThread => exact and_congr_right fun _ => hgraphics
  | surfaces => exact hgraphics
  | _ => exact Iff.rfl

/-! ### The steps of the others -/

/-- The others acquire nothing. -/
theorem Balanced.other (hb : Balanced (s, b)) (h : step params s l = some s')
    (hmain : ∀ a, l ≠ .main a) (htimeout : l ≠ .timeout)
    (hattempted : ∀ r ∈ attempted (s, b) l, r.ofPlayer = true ∧ holding (s, b) r ≠ 0) :
    Balanced (s', ledger s l s' b) := by
  have hmoves := main_of_others h hmain htimeout
  have hle := stage_le_of_step h
  have hcreated : s'.loop = .notCreated ↔ s.loop = .notCreated := by
    obtain ⟨a, -, hloop⟩ | hl | ⟨a, hl, -⟩ | ⟨c, hl, hl'⟩ := loop_of_step h
    · exact iff_of_false (created_of_loopStep hloop).2 (created_of_loopStep hloop).1
    · rw [hl]
    · exact absurd hl (hmain a)
    · rw [hl, hl']
      exact iff_of_false (by simp) (by simp)
  refine hb.quiet ?_ hattempted ?_ (fun r => ?_) ?_
  · cases l with
    | main a => exact absurd rfl (hmain a)
    | _ => rfl
  · cases l with
    | main a => exact absurd rfl (hmain a)
    | _ => rfl
  · have hstage : s'.main.stage = s.main.stage ∨ 33 < s.main.stage ∧ s'.main.stage ≤ 35 ∨
        8 ≤ s.main.stage ∧ s'.main.stage ≤ 32 := by
      obtain hsame | ⟨hm, hm'⟩ | ⟨q, q', hm, hm', hq⟩ := hmoves
      · exact .inl (by rw [hsame])
      · exact .inr (.inl (by rw [hm, hm']; decide))
      · have hq' := q'.stage_le
        rw [hm, hm']
        simp only [MainPc.stage]
        omega
    exact due_congr hcreated (by omega) (by omega) (by omega) (fun _ => by omega) (by omega) r
  · cases hm : s.main with
    | init q =>
      obtain hsame | ⟨hm', -⟩ | ⟨_, q', -, hm', -⟩ := hmoves
      · simp [ledger, hsame, hm]
      · cases hm.symm.trans hm'
      · simp [ledger, hm, hm']
    | _ => simp [ledger, hm]

/-! ### The steps of `stream_init` -/

/-- But for the missing `return`, the result says whether the steps have succeeded. -/
theorem result_of_initStep {q : InitPc} (h : initStep params a s q = some s')
    (ha : q.returns = true → a.first = true) :
    (s'.main = .graphicsInit → q.returns = true) ∧
      (s'.main = .deinit .stop → q.returns = false) := by
  cases q with
  | announcing progNum radio =>
    simp only [initStep, ha rfl, if_true] at h
    obtain rfl := Option.some.inj h
    exact ⟨fun _ => rfl, fun hm => by cases hm⟩
  | _ =>
    refine ⟨fun hm => ?_, fun _ => rfl⟩
    obtain hn | hn := main_of_initStep h
    · cases hm.symm.trans hn
    · cases hm.symm.trans hn

theorem acquired_of_init {q : InitPc} (hm : s.main = .init q) (hq : q ≠ .tunerInit)
    (hq' : q ≠ .createThread) : acquired s l s' = [] := by
  unfold acquired
  split <;> simp_all

/-- **A step of `stream_init`** acquires the tuner and the stream thread. -/
theorem Balanced.initStep {q : InitPc} (hb : Balanced (s, b)) (hs : Before s)
    (hm : s.main = .init q) (h : Zapper.initStep params a s q = some s')
    (ha : a.InOrder s.main s.player.tdp) : Balanced (s', ledger s (.main a) s' b) := by
  have hmain : mainStep params a s = some s' := by simpa [mainStep, hm] using h
  have hlt := stage_lt_of_mainStep hmain
  have hle := stage_of_initStep h
  have hholds := hs.book.main
  have hq := q.stage_le
  have hresult : (ledger s (.main a) s' b).wrongResult = b.wrongResult := by
    have hreturns : q.returns = true → a.first = true := by
      intro hreturns
      refine (ha.success ?_).1
      rw [hm]
      cases q with
      | announcing progNum radio => rfl
      | _ => cases hreturns
    obtain ⟨hgraphics, hstop⟩ := result_of_initStep h hreturns
    simp only [ledger, hm]
    cases hr : q.returns <;> simp_all
  have hrender : (ledger s (.main a) s' b).renderRunning = b.renderRunning := by
    simp [ledger, hm]
  rw [hm] at hholds ha
  have hstage : s.main.stage = 2 + q.stage := by rw [hm]; rfl
  -- a step that acquires nothing
  have hquiet : q.stage ≠ 2 → (s'.loop = .notCreated ↔ s.loop = .notCreated) →
      acquired s (.main a) s' = [] → (q.stage < 2 → s'.main.stage ≤ 4) →
        Balanced (s', ledger s (.main a) s' b) := by
    intro hne hcreated hacquired hearly
    refine hb.quiet hacquired ?_ hrender (fun r => ?_) hresult
    · cases q with
      | freeFilter t =>
        have hfilters := hholds.fits.filters
        simp [attempted, hm, Resource.ofPlayer, holding, hfilters]
      | _ => simp [attempted, hm]
    · exact due_congr hcreated (by omega) (by omega) (by omega) (fun _ => by omega) (by omega) r
  cases q with
  | tunerInit =>
    obtain ⟨h₁, h₂⟩ := ha.success rfl
    have hm' : s'.main = .init .registerTuner ∧ s'.loop = s.loop := by
      have hok : (s.player.tuner (s.player.tdp.tunerInit a)).1 = .noError := by
        simp [Player.tuner, Tdp.tunerInit, h₁, h₂]
      obtain ⟨-, he⟩ | ⟨herror, -⟩ :=
        s.initAssert_cases (s.player.tuner (s.player.tdp.tunerInit a)) .registerTuner
      · obtain rfl := Option.some.inj h
        exact ⟨by rw [he], by rw [he]⟩
      · cases hok.symm.trans herror
    refine hb.acquire [.tuner] (by simp [acquired, hm, hm'.1]) (by simp [attempted, hm])
      (by simp) (by simp [Due, State.Past, hm]) (fun r => ?_) hresult
    rw [due_iff_stage, due_iff_stage]
    cases r <;> simp [hm, hm'.1, hm'.2, hrender, MainPc.stage, InitPc.stage]
  | createThread =>
    simp only [Zapper.initStep] at h
    split at h
    · obtain rfl := Option.some.inj h
      have hnone := hs.book.coherent.notCreated (by rw [hm])
      refine hb.acquire [.streamThread] (by simp [acquired, hm]) (by simp [attempted, hm])
        (by simp) (by simp [Due, hnone]) (fun r => ?_) hresult
      rw [due_iff_stage, due_iff_stage]
      cases r <;> simp [hm, hnone, hrender, MainPc.stage, InitPc.stage]
    · obtain rfl := Option.some.inj h
      exact hquiet (by decide) Iff.rfl (by simp [acquired, hm, State.initFail])
        fun hq => absurd hq (by decide)
  | reset | loadCounter =>
    obtain rfl := Option.some.inj h
    exact hquiet (by decide) Iff.rfl (by simp [acquired, hm]) fun _ => by
      simp [MainPc.stage, InitPc.stage]
  | _ =>
    have hloop : s'.loop = s.loop := by
      obtain hl | ⟨hm', -⟩ := loop_of_mainStep hmain
      · exact hl
      · cases hm.symm.trans hm'
    refine hquiet ?_ (by rw [hloop]) (acquired_of_init hm (by simp) (by simp)) fun hq => ?_
    · simp only [InitPc.stage]
      omega
    · simp only [InitPc.stage] at hq
      omega

/-! ### The steps of `stream_deinit` -/

/-- What `stream_deinit` releases of the player's is held. -/
theorem attempted_deinit {q : DeinitPc} (hm : s.main = .deinit q) (hq : 2 ≤ q.stage)
    (htuner : q ≠ .deinitTuner) (hcloses : (MainPc.deinit q).Closes s.player) :
    ∀ r ∈ attempted (s, b) (.main a), r.ofPlayer = true ∧ holding (s, b) r ≠ 0 := by
  cases q with
  | stop | join => exact absurd hq (by decide)
  | removeAudio =>
    cases hon : s.player.status.audioOn with
    | false => simp [attempted, hm, hon]
    | true =>
      have hlive := hcloses.audio
      simp [attempted, hm, hon, Resource.ofPlayer, holding, hlive]
  | removeVideo =>
    cases hon : s.player.status.videoOn with
    | false => simp [attempted, hm, hon]
    | true =>
      have hlive := hcloses.1.video
      have hne := (hcloses.1.hStreamV hon).2
      simp [attempted, hm, hon, Resource.ofPlayer, holding, hlive, hne]
  | freeFilter =>
    have hfilters := hcloses.1.filters
    simp [attempted, hm, Resource.ofPlayer, holding, hfilters]
  | closeSource =>
    have hsource := hcloses.1.source_ne_zero
    simp [attempted, hm, Resource.ofPlayer, holding, hsource]
  | deinitPlayer =>
    have hplayer := hcloses.player_ne_zero
    simp [attempted, hm, Resource.ofPlayer, holding, hplayer]
  | deinitTuner => exact absurd rfl htuner
  | freeTables => simp [attempted, hm]

/-- **A step of `stream_deinit`** releases the stream thread and the tuner. -/
theorem Balanced.deinitStep {q : DeinitPc} (hb : Balanced (s, b)) (hs : Before s ∨ Closing s)
    (hm : s.main = .deinit q) (hmain : mainStep params a s = some s')
    (ha : a.InOrder s.main s.player.tdp) : Balanced (s', ledger s (.main a) s' b) := by
  have h : Zapper.deinitStep a s q = some s' := by simpa [mainStep, hm] using hmain
  have hlt := stage_lt_of_mainStep hmain
  have hstage : s.main.stage = 36 + q.stage := by rw [hm]; rfl
  have hresult : (ledger s (.main a) s' b).wrongResult = b.wrongResult := by
    simp [ledger, hm]
  have hrender : (ledger s (.main a) s' b).renderRunning = b.renderRunning := by
    simp [ledger, hm]
  have hacquired : acquired s (.main a) s' = [] := by
    unfold acquired
    split <;> simp_all
  obtain ⟨h₁, h₂⟩ := ha.success (by rw [hm]; rfl)
  -- behind the join, the player is being closed
  have hclosing : 2 ≤ q.stage → Closing s ∧ (MainPc.deinit q).Closes s.player := by
    intro hq
    have hs : Closing s := hs.resolve_left fun hs => hs.stage (show 37 < s.main.stage by omega)
    exact ⟨hs, hm ▸ hs.closes⟩
  -- a call that is not refused
  have hnext : ∀ {r : TError × Player} {pc : MainPc}, some (s.deinitAssert r pc) = some s' →
      s'.main ≠ .exited .error → s'.main = pc ∧ s'.loop = s.loop := by
    intro r pc h hne
    obtain rfl := Option.some.inj h
    cases hr : r.1 with
    | noError => exact ⟨by simp [State.deinitAssert, hr], rfl⟩
    | error => exact absurd (by simp [State.deinitAssert, hr]) hne
  -- a step that releases nothing, or what the player holds
  have hquiet : ∀ {m : MainPc}, s'.main = m → s'.loop = s.loop →
      (∀ r ∈ attempted (s, b) (.main a), r.ofPlayer = true ∧ holding (s, b) r ≠ 0) →
        m.stage ≤ 45 → (m.stage ≤ 43 ∨ 7 < q.stage) →
          (s.loop = .notCreated ∨ m.stage ≤ 37 ∨ 2 ≤ q.stage) →
            Balanced (s', ledger s (.main a) s' b) := by
    rintro m rfl hloop hattempted h₄₅ h₄₃ h₃₇
    refine hb.quiet hacquired hattempted hrender (fun r => ?_) hresult
    refine due_congr (by rw [hloop]) (by omega) (by omega) (by omega) (fun hne => ?_) (by omega) r
    have h₃₇ := h₃₇.resolve_left hne
    omega
  -- a call of the player
  have hcall : ∀ {r : TError × Player} {pc : DeinitPc},
      some (s.deinitAssert r (.deinit pc)) = some s' → 2 ≤ q.stage → q ≠ .deinitTuner →
        pc.stage ≤ 7 → Balanced (s', ledger s (.main a) s' b) := by
    intro r pc hs' hq htuner hpc
    obtain ⟨hc, hcloses⟩ := hclosing hq
    obtain ⟨hm', hloop⟩ := hnext hs' (hc.deinitStep hm h h₁ h₂).2
    refine hquiet hm' hloop (attempted_deinit hm hq htuner hcloses) ?_ (.inl ?_) (.inr (.inr hq))
    · simp only [MainPc.stage]
      omega
    · simp only [MainPc.stage]
      omega
  cases q with
  | stop =>
    have hattempted : attempted (s, b) (.main a) = [] := by simp [attempted, hm]
    simp only [Zapper.deinitStep] at h
    split at h
    · obtain rfl := Option.some.inj h
      exact hquiet (m := .deinit .join) rfl rfl (by simp [hattempted]) (by decide)
        (.inl (by decide)) (.inr (.inl le_rfl))
    · next hrunning =>
      have hnone : s.loop = .notCreated := by
        obtain hs | hs := hs
        · by_contra hc
          exact hrunning (hs.book.coherent.running hc ((State.past_iff hm).not.mpr (lt_irrefl _)))
        · exact (hs.flag hm).1
      obtain rfl := Option.some.inj h
      exact hquiet (m := .deinit .removeAudio) rfl rfl (by simp [hattempted]) (by decide)
        (.inl (by decide)) (.inl hnone)
  | join =>
    have hs := before_of_not_closes hs (by rw [hm]; exact id)
    have hcreated := hs.created hm
    have hm' : s'.main = .deinit .removeAudio ∧ s'.loop = s.loop := by
      simp only [Zapper.deinitStep] at h
      split at h
      · obtain rfl := Option.some.inj h
        exact ⟨rfl, rfl⟩
      · next hl => exact absurd hl hs.book.accepted
      · cases h
    refine hb.release [.streamThread] hacquired (by simp [attempted, hm]) (by simp)
      (by simp [goesOn, hm]) (by simp [Due, State.Past, hm, hcreated]) (fun r => ?_) hresult
    rw [due_iff_stage, due_iff_stage]
    cases r <;> simp [hm, hm'.1, hm'.2, hrender, MainPc.stage, DeinitPc.stage]
  | removeAudio | removeVideo | freeFilter | closeSource | deinitPlayer =>
    exact hcall h (by decide) (by simp) (by decide)
  | deinitTuner =>
    have hne := ((hclosing (by decide)).1.deinitStep hm h h₁ h₂).2
    obtain ⟨hm', hloop⟩ := hnext h hne
    refine hb.release [.tuner] hacquired (by simp [attempted, hm]) (by simp)
      (by simp [goesOn, hm, hne]) (by simp [Due, State.Past, hm]; decide) (fun r => ?_) hresult
    rw [due_iff_stage, due_iff_stage]
    cases r <;> simp [hm, hm', hloop, hrender, MainPc.stage, DeinitPc.stage]
  | freeTables =>
    obtain rfl := deinitStep_freeTables h
    exact hquiet (m := .unregisterRemote) rfl rfl (by simp [attempted, hm]) (by decide)
      (.inr (by decide)) (.inr (.inr (by decide)))

/-! ### The ledger of a run -/

/-- **The main thread** acquires and releases in order. -/
theorem Balanced.mainStep (hb : Balanced (s, b)) (hs : Before s ∨ Closing s)
    (h : Zapper.mainStep params a s = some s') (ha : a.InOrder s.main s.player.tdp) :
    Balanced (s', ledger s (.main a) s' b) := by
  cases hm : s.main with
  | init q =>
    have hs := before_of_not_closes hs (by rw [hm]; exact id)
    exact hb.initStep hs hm (by simpa [Zapper.mainStep, hm] using h) ha
  | deinit q => exact hb.deinitStep hs hm h ha
  | exited e => simp [Zapper.mainStep, hm] at h
  | running => simp [Zapper.mainStep, hm] at h
  | remoteInit =>
    simp only [Zapper.mainStep, hm] at h
    split at h
    · obtain rfl := Option.some.inj h
      refine hb.acquire [.remoteThread] (by simp [acquired, hm]) (by simp [attempted, hm])
        (by simp) (by simp [Due, State.Past, hm]) (fun r => ?_) (by simp [ledger, hm])
      rw [due_iff_stage, due_iff_stage]
      cases r <;> simp [hm, ledger, MainPc.stage]
    · have hs := before_of_not_closes hs (by rw [hm]; exact id)
      have hnone := hs.book.coherent.notCreated (by rw [hm]; decide)
      obtain rfl := Option.some.inj h
      refine hb.quiet (by simp [acquired, hm]) (by simp [attempted, hm]) (by simp [ledger, hm])
        (fun r => ?_) (by simp [ledger, hm])
      rw [due_iff_stage, due_iff_stage]
      cases r <;> simp [hm, hnone, MainPc.stage]
  | registerRemote =>
    simp only [Zapper.mainStep, hm] at h
    obtain rfl := Option.some.inj h
    refine hb.acquire [.callback] (by simp [acquired, hm]) (by simp [attempted, hm])
      (by simp) (by simp [Due, State.Past, hm]) (fun r => ?_) (by simp [ledger, hm])
    rw [due_iff_stage, due_iff_stage]
    cases r <;> simp [hm, ledger, MainPc.stage, InitPc.stage]
  | graphicsInit =>
    simp only [Zapper.mainStep, hm] at h
    split at h
    · next hfirst =>
      obtain rfl := Option.some.inj h
      refine hb.acquire [.surfaces, .renderThread] (by simp [acquired, hm, hfirst])
        (by simp [attempted, hm]) (by simp) (by simp [Due, State.Past, hm]) (fun r => ?_)
        (by simp [ledger, hm])
      rw [due_iff_stage, due_iff_stage]
      cases r <;> simp [hm, hfirst, ledger, MainPc.stage]
    · next hfirst =>
      have hsecond : a.second = true := (ha.graphics hm).resolve_left hfirst
      obtain rfl := Option.some.inj h
      refine hb.acquire [.surfaces] (by simp [acquired, hm, hfirst, hsecond])
        (by simp [attempted, hm]) (by simp) (by simp [Due, State.Past, hm]) (fun r => ?_)
        (by simp [ledger, hm])
      rw [due_iff_stage, due_iff_stage]
      cases r <;> simp [hm, hfirst, hsecond, ledger, MainPc.stage]
  | graphicsDeinit =>
    have hfirst := (ha.success (by rw [hm]; rfl)).1
    simp only [Zapper.mainStep, hm, hfirst, if_true] at h
    obtain rfl := Option.some.inj h
    cases hrunning : b.renderRunning with
    | true =>
      refine hb.release [.renderThread, .surfaces] (by simp [acquired, hm])
        (by simp [attempted, hm, hfirst, hrunning]) (by simp) (by simp [goesOn, hm, hfirst])
        (by simp [Due, State.Past, hm, hrunning, MainPc.stage]) (fun r => ?_) (by simp [ledger, hm])
      rw [due_iff_stage, due_iff_stage]
      cases r <;> simp [hm, ledger, MainPc.stage, DeinitPc.stage]
    | false =>
      refine hb.release [.surfaces] (by simp [acquired, hm])
        (by simp [attempted, hm, hfirst, hrunning]) (by simp) (by simp [goesOn, hm, hfirst])
        (by simp [Due, State.Past, hm, MainPc.stage]) (fun r => ?_) (by simp [ledger, hm])
      rw [due_iff_stage, due_iff_stage]
      cases r <;> simp [hm, hrunning, ledger, MainPc.stage, DeinitPc.stage]
  | unregisterRemote =>
    simp only [Zapper.mainStep, hm] at h
    obtain rfl := Option.some.inj h
    refine hb.release [.callback] (by simp [acquired, hm]) (by simp [attempted, hm])
      (by simp) (by simp [goesOn, hm]) (by simp [Due, State.Past, hm, MainPc.stage])
      (fun r => ?_) (by simp [ledger, hm])
    rw [due_iff_stage, due_iff_stage]
    cases r <;> simp [hm, ledger, MainPc.stage]
  | remoteDeinit =>
    have hfirst := (ha.success (by rw [hm]; rfl)).1
    simp only [Zapper.mainStep, hm, hfirst, if_true] at h
    obtain rfl := Option.some.inj h
    refine hb.release [.remoteThread] (by simp [acquired, hm]) (by simp [attempted, hm])
      (by simp) (by simp [goesOn, hm, hfirst]) (by simp [Due, State.Past, hm, MainPc.stage])
      (fun r => ?_) (by simp [ledger, hm])
    rw [due_iff_stage, due_iff_stage]
    cases r <;> simp [hm, ledger, MainPc.stage]

/-- What holds throughout an orderly run. -/
structure LedgerInv (x : State × Ledger) : Prop where
  phase : Before x.1 ∨ Closing x.1
  balanced : Balanced x
  frees : x.1.main = .deinit .freeTables →
    x.1.tables.sdt.services.FilledTo x.1.tables.pat.pmtCount

/-- What the stream thread releases is held. -/
theorem Before.attempted_loop (hs : Before s) :
    ∀ r ∈ attempted (s, b) (.loop a), r.ofPlayer = true ∧ holding (s, b) r ≠ 0 := by
  cases hl : s.loop with
  | switch c q =>
    have hserves := hs.book.loop (by simp [hl]) hs.stage
    cases q with
    | removeAudio =>
      cases hon : s.player.status.audioOn with
      | false => simp [attempted, hl, hon]
      | true =>
        have hlive := hserves.fits.audio
        simp [attempted, hl, hon, Resource.ofPlayer, holding, hlive]
    | removeVideo =>
      cases hon : s.player.status.videoOn with
      | false => simp [attempted, hl, hon]
      | true =>
        have hlive := hserves.fits.video
        simp [attempted, hl, hon, Resource.ofPlayer, holding, hlive]
    | freeFilter =>
      rw [hl] at hserves
      have hfilters := hserves.fits.filters
      simp [attempted, hl, Resource.ofPlayer, holding, hfilters, LoopPc.demand]
    | _ => simp [attempted, hl]
  | _ => simp [attempted, hl]

/-- Then the stream thread releases nothing. -/
theorem Closing.attempted_loop (hs : Closing s) :
    ∀ r ∈ attempted (s, b) (.loop a), r.ofPlayer = true ∧ holding (s, b) r ≠ 0 := by
  obtain hl | hl := hs.loop <;> simp [attempted, hl]

theorem ledgerInv_powerOn : LedgerInv (.powerOn, .empty) := by
  refine ⟨.inl ⟨bookInv_powerOn, ?_, fun _ hp => absurd hp ?_, fun _ => rfl, fun _ => ?_⟩,
    balanced_powerOn, fun hm => by cases hm⟩
  · unfold State.Past
    decide
  · unfold State.Past
    decide
  · constructor <;> simp [State.powerOn, Player.zero, Tdp.zero, Pe.live, Pe.liveFilters]

/-- The service names are there when `stream_deinit` comes to free them. -/
theorem LedgerInv.frees_of_step {x : State × Ledger} (hx : LedgerInv x) (hl : Orderly x l)
    (h : Zapper.step params x.1 l = some s') (hm' : s'.main = .deinit .freeTables) :
    s'.tables.sdt.services.FilledTo s'.tables.pat.pmtCount := by
  by_cases hmain : ∃ a, l = .main a
  · obtain ⟨a, rfl⟩ := hmain
    have hstep : mainStep params a x.1 = some s' := act_of_step h
    obtain ⟨hm, -⟩ := (freeTables_of_mainStep hstep).mp hm'
    rw [(mainStep_frame hstep).tables]
    exact hl.2 hm
  · have hm : x.1.main = .deinit .freeTables := by
      obtain hsame | ⟨-, hm⟩ | ⟨_, _, -, hm, -⟩ :=
        main_of_others h (fun a ha => hmain ⟨a, ha⟩) (by rintro rfl; exact hl)
      · exact hsame.symm.trans hm'
      · cases hm.symm.trans hm'
      · cases hm.symm.trans hm'
    obtain ⟨d, rfl, -⟩ | ⟨-, htables⟩ := tables_of_step h
    · exact absurd hm hl.1
    · rw [htables]
      exact hx.frees hm

/-- **An orderly step** of anyone. -/
theorem LedgerInv.step {x : State × Ledger} (hx : LedgerInv x) (hparams : params.KnownTypes)
    (hl : Orderly x l) (h : Zapper.step params x.1 l = some s') :
    LedgerInv (s', ledger x.1 l s' x.2) := by
  have hfrees := hx.frees_of_step hl h
  obtain ⟨s, b⟩ := x
  by_cases hmain : ∃ a, l = .main a
  · obtain ⟨a, rfl⟩ := hmain
    have hstep : mainStep params a s = some s' := act_of_step h
    refine ⟨?_, hx.balanced.mainStep hx.phase hstep hl.1, hfrees⟩
    obtain hs | hs := hx.phase
    · exact hs.mainStep hparams hstep hl.1
    · exact .inr (hs.mainStep hstep hl.1)
  · have hmain : ∀ a, l ≠ .main a := fun a ha => hmain ⟨a, ha⟩
    have htimeout : l ≠ .timeout := by
      rintro rfl
      exact hl
    have hgood : ∀ a, l = .loop a → s.loop.callsPlayer = true → a.Good s.player.tdp := by
      rintro a rfl
      exact hl.1
    obtain hs | hs := hx.phase
    · refine ⟨.inl (hs.other hparams h hmain htimeout hgood),
        hx.balanced.other h hmain htimeout ?_, hfrees⟩
      cases l with
      | main a => exact absurd rfl (hmain a)
      | loop a => exact hs.attempted_loop
      | _ => simp [attempted]
    · refine ⟨.inr (hs.other h hmain htimeout).1, hx.balanced.other h hmain htimeout ?_, hfrees⟩
      cases l with
      | main a => exact absurd rfl (hmain a)
      | loop a => exact hs.attempted_loop
      | _ => simp [attempted]

theorem LedgerInv.toTornDown {x : State × Ledger} (hx : LedgerInv x) : TornDown x := by
  refine ⟨hx.balanced.fault, hx.balanced.result, hx.frees, fun e hm r => ?_⟩
  obtain hs | hs := hx.phase
  · have hstage := hs.stage
    rw [State.Past, hm] at hstage
    exact absurd (show 37 < 47 by decide) hstage
  · have hclosed := hs.closes
    rw [hm] at hclosed
    have hdue : ¬ Due x r := by
      rw [due_iff_stage, hm]
      cases r <;> simp [MainPc.stage]
    have hzero := hx.balanced.notDue r hdue
    cases r with
    | player => simp [holding, hclosed.hPE]
    | source => simp [holding, hclosed.hSource]
    | filter => simp [holding, hclosed.filters]
    | audio => simp [holding, hclosed.streams]
    | video => simp [holding, hclosed.streams]
    | _ => exact hzero

/-! ### The ledger of calls and checks -/

/-- The ledger behind a step of the system in which a call and its check are two: a call acquires or
releases when it returns. A check does neither, but `stream_init` is wrong about its steps when it
reads the result of another call. -/
def errorLedger (x : ErrorState) (l : Label) (y : ErrorState) (b : Ledger) : Ledger :=
  if x.checks l then
    match x.zapper.main with
    | .init _ => { b with wrongResult := b.wrongResult || decide (¬ x.ReadsOwn l) }
    | _ => b
  else ledger x.settled l y.settled b

/-- The zapper, with its ledger. -/
def stepLedger (params : ConfigParams) :
    ErrorState × Ledger → Label → Option (ErrorState × Ledger) :=
  withHistory (ErrorState.step params) errorLedger

/-- The condition on a step: a check reads the result of its own call, and anything else is
orderly. -/
def OrderlyStep (x : ErrorState × Ledger) (l : Label) : Prop :=
  x.1.ReadsOwn l ∧ (x.1.checks l = false → Orderly (x.1.settled, x.2) l)

instance (x : ErrorState × Ledger) (l : Label) : Decidable (OrderlyStep x l) :=
  inferInstanceAs (Decidable (x.1.ReadsOwn l ∧
    (x.1.checks l = false → Orderly (x.1.settled, x.2) l)))

/-- What holds throughout an orderly run of calls and checks. -/
private structure ErrorLedgerInv (x : ErrorState × Ledger) : Prop where
  sane : x.1.Sane
  coherent : x.1.settled.Coherent
  ledger : LedgerInv (x.1.settled, x.2)
  /-- No call of the teardown has failed. -/
  alive : x.1.mainDue ≠ none → x.1.settled.main.alive = true

/-- A call of the main thread does not end `main`. -/
private theorem alive_of_mainCall {x : State × Ledger} {r : TError × Player} (hx : LedgerInv x)
    (hcall : mainCall params a x.1 = some r) (hl : Orderly x (.main a))
    (h : Zapper.mainStep params a x.1 = some s') : s'.main.alive = true := by
  have hcalls := MainPc.calls_of_mainCall hcall
  cases hm : x.1.main with
  | init q =>
    obtain hn | hn := main_of_initStep (by simpa [Zapper.mainStep, hm] using h)
    · rw [hn]
      cases q <;> rfl
    · rw [hn]
      rfl
  | deinit q =>
    have hstep : deinitStep a x.1 q = some s' := by simpa [Zapper.mainStep, hm] using h
    obtain hs | hs := hx.phase
    · have hstage := hs.stage
      rw [State.Past, hm] at hstage
      rw [hm] at hcalls
      cases q with
      | stop | join | freeTables => cases hcalls
      | _ => exact absurd (by decide) hstage
    · obtain ⟨h₁, h₂⟩ := hl.1.success (by rw [hm]; rfl)
      have hne := (hs.deinitStep hm hstep h₁ h₂).2
      obtain hn | hn := main_of_deinitStep hstep
      · rw [hm] at hcalls
        rw [hn]
        cases q with
        | stop => cases hcalls
        | _ => rfl
      · exact absurd hn hne
  | _ =>
    rw [hm] at hcalls
    cases hcalls

private theorem ErrorLedgerInv.step {x : ErrorState × Ledger} {y : ErrorState}
    (hx : ErrorLedgerInv x) (hparams : params.KnownTypes) (hl : OrderlyStep x l)
    (h : x.1.step params l = some y) : ErrorLedgerInv (y, errorLedger x.1 l y x.2) := by
  have halive : x.1.settled.main.alive = true := by
    by_cases hdue : x.1.mainDue = none
    · rw [ErrorState.settled_main hdue]
      exact ErrorState.alive_of_step h
    · exact hx.alive hdue
  obtain ⟨hsane, hstep⟩ := ErrorState.settled_of_step hx.sane hx.coherent halive hl.1 h
  by_cases hchecks : x.1.checks l = true
  · rw [if_pos hchecks] at hstep
    have hb : errorLedger x.1 l y x.2 = x.2 := by
      rw [errorLedger, if_pos hchecks]
      split
      · simp [hl.1]
      · rfl
    rw [hb]
    exact ⟨hsane, hstep ▸ hx.coherent, hstep ▸ hx.ledger, fun _ => hstep ▸ halive⟩
  · rw [if_neg hchecks] at hstep
    have hl' := hl.2 (by simpa using hchecks)
    have hb : errorLedger x.1 l y x.2 = Zapper.ledger x.1.settled l y.settled x.2 := if_neg hchecks
    rw [hb]
    refine ⟨hsane, hx.coherent.step hstep, hx.ledger.step hparams hl' hstep, fun hdue => ?_⟩
    by_cases hmain : ∃ a, l = .main a
    · obtain ⟨a, rfl⟩ := hmain
      cases ErrorState.step_moves h with
      | mainCheck a e hdue' => exact absurd rfl hdue
      | mainCall a r hdue' hcall =>
        have hloopDue : x.1.loopDue = none := hsane.loopDue_eq hdue
        have hsettled := ErrorState.settled_eq hdue' hloopDue
        rw [hsettled] at hl' hstep
        exact alive_of_mainCall (hsettled ▸ hx.ledger) hcall hl' (act_of_step hstep)
      | zapper l s e hzapper hchecks' hloop hmain' =>
        exact absurd (by simpa [ErrorState.checks] using hchecks') hdue
    · obtain hsame | ⟨-, hm⟩ | ⟨_, _, -, hm, -⟩ :=
        main_of_others hstep (fun a ha => hmain ⟨a, ha⟩) (by rintro rfl; exact hl')
      · rw [hsame]
        exact halive
      · rw [hm]
        rfl
      · rw [hm]
        rfl

private theorem ErrorLedgerInv.toTornDown {x : ErrorState × Ledger} (hx : ErrorLedgerInv x) :
    TornDown (x.1.zapper, x.2) := by
  obtain ⟨hfault, hresult, hfrees, hreleased⟩ := hx.ledger.toTornDown
  have hframe := x.1.settled_frame
  -- where no call is checked, the main thread is where it will be
  have hmain : x.1.zapper.main.calls = false → x.1.settled.main = x.1.zapper.main := by
    intro hcalls
    refine ErrorState.settled_main ?_
    by_contra hdue
    exact absurd (hx.sane.main hdue).1 (by simp [hcalls])
  refine ⟨hfault, hresult, fun hm => ?_, fun e hm r => ?_⟩
  · have h := hfrees ((hmain (by rw [hm]; rfl)).trans hm)
    rwa [hframe.tables] at h
  · have h := hreleased e ((hmain (by rw [hm]; rfl)).trans hm) r
    cases r <;> simpa only [holding, hframe.tdp] using h

/-- The player cannot be initialised when the tuner has locked. -/
def playerRefused : List Label :=
  List.replicate 11 (Label.main (.ok 1)) ++
    [Label.tuner .locked] ++ List.replicate 2 (.main ⟨false, true, 1, 0⟩) ++
      List.replicate 5 (Label.main (.ok 1))

end Zapper
