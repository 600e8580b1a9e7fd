import Zapper.Section.Broadcast
import Zapper.Stream.Counter
import Zapper.Stream.Drawing

/-!
# The program list

The list on the screen is the array of the SDT's services, and its length is the number of
programs of the PAT. Two sections that are parsed at different times therefore have to agree,
and nothing in the code makes them agree.

* Line `i + 1` is meant for the program that digit key `i + 1` selects, in slot `i` of the PAT.
  It shows this program exactly when the two sections list the programs in the same order
  (`showsKeys_iff`).
* The lines, and the slots freed by `stream_deinit`, have to be slots that `parse_SDT` stored,
  and it must not store to more than it allocated. Along a run this is so exactly when no SDT
  has more services than the PAT has programs when it arrives, nor fewer when the list is
  handed over or freed (`listSafe_iff`).
-/

namespace Zapper

open Memory Transition

variable {params : ConfigParams} {a : Answer} {s s' : State} {l : Label}

/-! ### What the lines show -/

/-- The delivery of a PAT section, with `rest` behind it. -/
def PatSection.delivery (sec : PatSection) (rest : Buffer) (junk : ℕ → PMT) : Delivery where
  buffer := withTail sec.bytes rest
  fuel := 0
  patJunk := junk
  sdtJunk := fun _ => default

/-- The delivery of an SDT section. -/
def SdtSection.delivery (sec : SdtSection) (fuel : ℕ) (rest : Buffer) (junk : ℕ → ServiceInfo) :
    Delivery where
  buffer := withTail sec.bytes rest
  fuel := fuel
  patJunk := fun _ => default
  sdtJunk := junk

theorem filterCallback_pat_delivery (sec : PatSection) (rest : Buffer) (junk : ℕ → PMT)
    (t : Tables) : filterCallback (sec.delivery rest junk) t =
      some { t with pat := parsePAT junk (withTail sec.bytes rest) } := rfl

theorem filterCallback_sdt_delivery (sec : SdtSection) (fuel : ℕ) (rest : Buffer)
    (junk : ℕ → ServiceInfo) (t : Tables) : filterCallback (sec.delivery fuel rest junk) t =
      (parseSDT fuel junk (withTail sec.bytes rest) t.pat.pmtCount).map fun sdt =>
        { t with sdt := sdt } := rfl

/-- Each line of the program list shows the service of the program that its digit key selects:
key `i + 1` calls `change_program(i)`. -/
def State.LinesMatchKeys (s : State) : Prop :=
  ∀ i < s.graphics.renderFnp.programCount,
    (s.graphics.programList.cell i).serviceId = (changeProgram i s).selected.prNum

/-- When the two sections have been parsed, one after the other, and the list is handed over, it
has the lines that match the keys. -/
def ShowsKeys (pat : PatSection) (sdt : SdtSection) : Prop :=
  ∀ (t : Tables) (patRest : Buffer) (patJunk : ℕ → PMT) (sdtRest : Buffer)
    (sdtJunk : ℕ → ServiceInfo), ∃ fuel t₁ t₂,
      filterCallback (pat.delivery patRest patJunk) t = some t₁ ∧
      filterCallback (sdt.delivery fuel sdtRest sdtJunk) t₁ = some t₂ ∧
      ∀ (params : ConfigParams) (a : Answer) (s s' : State), s.tables = t₂ → s.loop = .list →
        s.strPrm.getProgList = true → loopStep params a s = some s' → s'.LinesMatchKeys

theorem State.selected_changeProgram (s : State) (i : ℕ) :
    (changeProgram i s).selected = s.tables.pat.pmts.cell i := by
  unfold changeProgram
  split
  · rfl
  · next h =>
    rw [not_not.mp h]
    rfl

/-- What the lines show, in terms of the two parsers. -/
theorem showsKeys_iff_parse (pat : PatSection) (sdt : SdtSection) :
    ShowsKeys pat sdt ↔ ∀ (patRest : Buffer) (patJunk : ℕ → PMT) (sdtRest : Buffer)
      (sdtJunk : ℕ → ServiceInfo), ∃ fuel u,
        parseSDT fuel sdtJunk (withTail sdt.bytes sdtRest)
          (parsePAT patJunk (withTail pat.bytes patRest)).pmtCount = some u ∧
        ∀ i < (parsePAT patJunk (withTail pat.bytes patRest)).pmtCount,
          (u.services.cell i).serviceId =
            ((parsePAT patJunk (withTail pat.bytes patRest)).pmts.cell i).prNum := by
  constructor
  · intro h patRest patJunk sdtRest sdtJunk
    obtain ⟨fuel, t₁, t₂, h₁, h₂, hlines⟩ := h ⟨.zero, .zero⟩ patRest patJunk sdtRest sdtJunk
    rw [filterCallback_pat_delivery, Option.some.injEq] at h₁
    subst h₁
    rw [filterCallback_sdt_delivery] at h₂
    obtain ⟨u, hu, rfl⟩ := Option.map_eq_some_iff.mp h₂
    generalize parsePAT patJunk (withTail pat.bytes patRest) = parsed at hu hlines ⊢
    refine ⟨fuel, u, hu, fun i hi => ?_⟩
    -- a state in which the list is handed over
    let s : State := { State.powerOn with
      tables := ⟨parsed, u⟩
      loop := .list
      strPrm := ⟨false, false, false, false, true⟩ }
    have hline := hlines ⟨0, 0, 0, 0, 0, 0, 0⟩ ⟨true, true, 0, 0⟩ s _ rfl rfl rfl rfl i hi
    rwa [State.selected_changeProgram] at hline
  · intro h t patRest patJunk sdtRest sdtJunk
    obtain ⟨fuel, u, hu, hlines⟩ := h patRest patJunk sdtRest sdtJunk
    refine ⟨fuel, _, ⟨parsePAT patJunk (withTail pat.bytes patRest), u⟩,
      filterCallback_pat_delivery _ _ _ _, ?_, ?_⟩
    · rw [filterCallback_sdt_delivery, hu]
      rfl
    · intro params a s s' ht hl hlist hstep i hi
      generalize parsePAT patJunk (withTail pat.bytes patRest) = parsed at ht hlines
      rw [State.selected_changeProgram]
      simp only [loopStep, hl, hlist, if_true, Option.some.injEq, ht] at hstep
      subst hstep
      exact hlines i hi

/-! ### The order of the two sections -/

/-- The services start with the programs that the PAT fills its slots with, in the same order,
and leave no slot over: of the entries of the PAT, at most one has a program number below 256
and takes no slot, and there is one slot less than entries. -/
def SameOrder (pat : PatSection) (sdt : SdtSection) : Prop :=
  pat.entries ≠ [] ∧ pat.lowEntries.length ≤ 1 ∧
    (sdt.services.map SdtService.serviceId).take (pat.entries.length - 1) =
      (pat.highEntries.map PatEntry.programNumber).take (pat.entries.length - 1)

instance (pat : PatSection) (sdt : SdtSection) : Decidable (SameOrder pat sdt) :=
  inferInstanceAs (Decidable (_ ∧ _ ∧ _))

/-- The slots of a parsed PAT: filled from the section as far as its entries reach. -/
theorem parsePAT_prNum {pat : PatSection} (hne : pat.entries ≠ []) (rest : Buffer)
    (junk : ℕ → PMT) (i : ℕ) :
    ((parsePAT junk (withTail pat.bytes rest)).pmts.cell i).prNum =
      if h : i < pat.highEntries.length then (pat.highEntries[i].programNumber : ℕ)
      else (junk i).prNum := by
  rw [pat.parsePAT_bytes junk rest hne]
  split
  · next h =>
    have h' : i < (pat.highEntries.map PatEntry.store).length := by simpa using h
    have hcell := Block.cell_modifyFrom (malloc junk (pat.entries.length - 1)) 0 h'
    simp only [Nat.zero_add] at hcell
    simp [hcell, PatEntry.store]
  · next h =>
    have hcell := Block.cell_modifyFrom_of_le (malloc junk (pat.entries.length - 1)) (j := 0)
      (k := i) (pat.highEntries.map PatEntry.store) (by simpa using h)
    simp only [hcell]
    rfl

/-- The slots of a parsed SDT. -/
theorem parseSDT_serviceId (sdt : SdtSection) (rest : Buffer) (junk : ℕ → ServiceInfo)
    (count : ℕ) : ∃ fuel u, parseSDT fuel junk (withTail sdt.bytes rest) count = some u ∧
      ∀ i, (u.services.cell i).serviceId =
        if h : i < sdt.services.length then (sdt.services[i].serviceId : ℕ)
        else (junk i).serviceId := by
  obtain ⟨fuel, hfuel⟩ := parseSDT_bytes sdt rest junk count
  refine ⟨fuel, _, hfuel, fun i => ?_⟩
  split
  · next h =>
    have hs : i < sdt.starts.length := by simpa using h
    have h' : i < (sdt.starts.map fun p (_ : ServiceInfo) =>
      serviceAt (withTail sdt.bytes rest) p).length := by simpa using hs
    have hcell := Block.cell_modifyFrom (malloc junk count) 0 h'
    simp only [Nat.zero_add] at hcell
    rw [hcell, List.getElem_map]
    exact serviceAt_serviceId (sdt.holdsAt_starts rest hs h)
  · next h =>
    rw [Block.cell_modifyFrom_of_le _ _ (by simpa using h)]
    rfl

/-- With at least one entry in the PAT, the lines are read from the two sections, and from what
`malloc` left behind where a section is too short. -/
theorem showsKeys_iff_sections {pat : PatSection} {sdt : SdtSection} (hne : pat.entries ≠ []) :
    ShowsKeys pat sdt ↔ ∀ (patJunk : ℕ → PMT) (sdtJunk : ℕ → ServiceInfo),
      ∀ i < pat.entries.length - 1,
        (if h : i < sdt.services.length then (sdt.services[i].serviceId : ℕ)
          else (sdtJunk i).serviceId) =
        if h : i < pat.highEntries.length then (pat.highEntries[i].programNumber : ℕ)
          else (patJunk i).prNum := by
  have hcount : ∀ (rest : Buffer) (junk : ℕ → PMT),
      (parsePAT junk (withTail pat.bytes rest)).pmtCount = pat.entries.length - 1 := by
    intro rest junk
    rw [pat.parsePAT_bytes junk rest hne]
  rw [showsKeys_iff_parse]
  constructor
  · intro h patJunk sdtJunk i hi
    obtain ⟨fuel, u, hu, hlines⟩ := h (fun _ => 0) patJunk (fun _ => 0) sdtJunk
    rw [hcount] at hu hlines
    obtain ⟨fuel', u', hu', hids⟩ :=
      parseSDT_serviceId sdt (fun _ => 0) sdtJunk (pat.entries.length - 1)
    have hline := hlines i hi
    rwa [parseSDT_unique hu hu', hids, parsePAT_prNum hne] at hline
  · intro h patRest patJunk sdtRest sdtJunk
    obtain ⟨fuel, u, hu, hids⟩ :=
      parseSDT_serviceId sdt sdtRest sdtJunk (pat.entries.length - 1)
    refine ⟨fuel, u, by rwa [hcount], fun i hi => ?_⟩
    rw [hcount] at hi
    rw [hids, parsePAT_prNum hne]
    exact h patJunk sdtJunk i hi

/-- Where the entries read are zero, nothing is stored. -/
theorem foldl_parsePATEntry_of_zero (buffer : Buffer) (is : List ℕ) (st : PAT × ℕ)
    (h : ∀ i ∈ is, buffer (8 + i * 4) = 0) :
    is.foldl (fun st i => parsePATEntry buffer st (8 + i * 4)) st = st := by
  induction is with
  | nil => rfl
  | cons i is ih =>
    have hentry : parsePATEntry buffer st (8 + i * 4) = st := by
      rw [parsePATEntry, if_neg (not_not.mpr (h i (by simp)))]
    rw [List.foldl_cons, hentry, ih fun k hk => h k (by simp [hk])]

/-- Without entries the CRC is read in their place, and then what lies behind the section: with
zeros there, no slot but the first one is stored to. -/
theorem parsePAT_cell_of_nil {pat : PatSection} (hnil : pat.entries = []) (junk : ℕ → PMT) :
    (parsePAT junk (withTail pat.bytes fun _ => 0)).pmts.cell 1 = junk 1 := by
  have hlen : pat.bytes.length = 12 := by
    simp [PatSection.bytes, hnil]
  have hcount : progCount (9 + 4 * pat.entries.length) = 255 := by
    rw [hnil]
    rfl
  simp only [parsePAT, pat.sectionLength_bytes, hcount]
  rw [List.range_succ_eq_map, List.foldl_cons, foldl_parsePATEntry_of_zero]
  · rw [parsePATEntry]
    split
    · rw [Block.cell_modify_of_ne _ _ one_ne_zero]
      rfl
    · rfl
  · intro i hi
    obtain ⟨k, -, rfl⟩ := List.mem_map.mp hi
    exact withTail_of_le (by omega)

/-- Without entries the program count wraps around to 255: there are lines with no program. -/
theorem not_showsKeys_of_nil {pat : PatSection} {sdt : SdtSection} (hnil : pat.entries = []) :
    ¬ ShowsKeys pat sdt := by
  rw [showsKeys_iff_parse]
  intro h
  -- the second line is compared with what `malloc` left in the second slot
  have hline : ∀ n : ℕ, ∃ u, (∃ fuel, parseSDT fuel (fun _ => default)
      (withTail sdt.bytes fun _ => 0) 255 = some u) ∧ (u.services.cell 1).serviceId = n := by
    intro n
    obtain ⟨fuel, u, hu, hlines⟩ := h (fun _ => 0) (fun _ => { (default : PMT) with prNum := n })
      (fun _ => 0) fun _ => default
    rw [pat.parsePAT_pmtCount_of_nil _ _ hnil] at hu hlines
    refine ⟨u, ⟨fuel, hu⟩, ?_⟩
    rw [hlines 1 (by decide), parsePAT_cell_of_nil hnil]
  obtain ⟨u, ⟨k, hu⟩, h₀⟩ := hline 0
  obtain ⟨v, ⟨m, hv⟩, h₁⟩ := hline 1
  rw [parseSDT_unique hu hv, h₁] at h₀
  exact absurd h₀ one_ne_zero

theorem sameOrder_of_showsKeys {pat : PatSection} {sdt : SdtSection} (h : ShowsKeys pat sdt) :
    SameOrder pat sdt := by
  have hne : pat.entries ≠ [] := fun hnil => not_showsKeys_of_nil hnil h
  have hsum := pat.length_lowEntries_add
  have hpos : 0 < pat.entries.length := List.length_pos_iff.mpr hne
  rw [showsKeys_iff_sections hne] at h
  have hhigh : pat.entries.length - 1 ≤ pat.highEntries.length := by
    by_contra hlt
    -- the first slot that no entry fills shows what `malloc` left there
    have h₀ := h (fun _ => { (default : PMT) with prNum := 0 }) (fun _ => default)
      pat.highEntries.length (by omega)
    have h₁ := h (fun _ => { (default : PMT) with prNum := 1 }) (fun _ => default)
      pat.highEntries.length (by omega)
    simp only [lt_irrefl, dite_false] at h₀ h₁
    exact absurd (h₀.symm.trans h₁) (by decide)
  have hservices : pat.entries.length - 1 ≤ sdt.services.length := by
    by_contra hlt
    have h₀ := h (fun _ => default) (fun _ => { (default : ServiceInfo) with serviceId := 0 })
      sdt.services.length (by omega)
    have h₁ := h (fun _ => default) (fun _ => { (default : ServiceInfo) with serviceId := 1 })
      sdt.services.length (by omega)
    simp only [lt_irrefl, dite_false] at h₀ h₁
    exact absurd (h₀.trans h₁.symm) (by decide)
  refine ⟨hne, by omega, List.ext_getElem (by simp; omega) fun i hi _ => ?_⟩
  have hi' : i < pat.entries.length - 1 := by
    rw [List.length_take] at hi
    omega
  have hline := h (fun _ => default) (fun _ => default) i hi'
  rw [dif_pos (by omega), dif_pos (by omega)] at hline
  simpa using Fin.ext hline

theorem showsKeys_of_sameOrder {pat : PatSection} {sdt : SdtSection} (h : SameOrder pat sdt) :
    ShowsKeys pat sdt := by
  obtain ⟨hne, hlow, htake⟩ := h
  have hsum := pat.length_lowEntries_add
  rw [showsKeys_iff_sections hne]
  intro patJunk sdtJunk i hi
  have hhigh : i < pat.highEntries.length := by omega
  have hget := congrArg (·[i]?) htake
  simp only [List.getElem?_take_of_lt hi, List.getElem?_map, List.getElem?_eq_getElem hhigh,
    Option.map_some] at hget
  obtain ⟨svc, hsvc, hid⟩ := Option.map_eq_some_iff.mp hget
  obtain ⟨hservices, rfl⟩ := List.getElem?_eq_some_iff.mp hsvc
  rw [dif_pos hservices, dif_pos hhigh, hid]

/-- **The lines match the keys exactly when the SDT lists the programs in the order of the
PAT.** -/
theorem showsKeys_iff (pat : PatSection) (sdt : SdtSection) :
    ShowsKeys pat sdt ↔ SameOrder pat sdt :=
  ⟨sameOrder_of_showsKeys, showsKeys_of_sameOrder⟩

/-- Both sections describe the same programs, in whatever order. -/
def SamePrograms (pat : PatSection) (sdt : SdtSection) : Prop :=
  (pat.programs.map PatEntry.programNumber).Perm (sdt.services.map SdtService.serviceId)

/-- The PAT lists a TV program first, the SDT a radio program. -/
theorem not_forall_showsKeys : ¬ ∀ (pat : PatSection) (sdt : SdtSection),
    SamePrograms pat sdt → ShowsKeys pat sdt := by
  intro h
  let pat := Program.patSection [firstProgram, secondProgram] (by decide)
  let sdt := Program.sdtSection [secondProgram, firstProgram] (by decide)
  have horder : ¬ SameOrder pat sdt := by decide
  exact horder (sameOrder_of_showsKeys (h pat sdt (List.Perm.swap _ _ _)))

/-! ### What a step does to the list -/

/-- The list on the screen is what it was, or is taken off. -/
structure SameList (g g' : Graphics) : Prop where
  programList : g'.programList = g.programList
  programCount : g'.renderFnp.programCount = g.renderFnp.programCount
  print : g'.renderFnp.printProgList = true → g.renderFnp.printProgList = true

theorem sameList_of_mainStep (h : mainStep params a s = some s') :
    SameList s.graphics s'.graphics := by
  rcases mainStep_writes h with h | ⟨-, h⟩ | ⟨-, h⟩ | ⟨-, h⟩ | ⟨-, h⟩ | ⟨-, h⟩ | ⟨_, _, -, h⟩ |
    ⟨-, h⟩
  all_goals
    rw [h]
    exact ⟨rfl, rfl, id⟩

/-- The stream thread hands the list over, if it is asked for. -/
theorem list_of_loopStep (h : loopStep params a s = some s') :
    (s.loop = .list ∧ s.strPrm.getProgList = true ∧
      s'.graphics = s.graphics.printProgList s.tables.sdt.services s.tables.pat.pmtCount) ∨
    (¬ (s.loop = .list ∧ s.strPrm.getProgList = true) ∧ SameList s.graphics s'.graphics) := by
  cases loopStep_draws h with
  | list hl hlist hg => exact .inl ⟨hl, hlist, hg⟩
  | nothing _ _ hlist hg =>
    refine .inr ⟨by simpa using hlist, ?_⟩
    rw [hg]
    exact ⟨rfl, rfl, id⟩
  | black c hl hg =>
    refine .inr ⟨by simp [hl], ?_⟩
    rw [hg]
    exact ⟨rfl, rfl, fun hp => by cases hp⟩
  | number c hl _ hg | info hl hg =>
    refine .inr ⟨by simp [hl], ?_⟩
    rw [hg]
    exact ⟨rfl, rfl, id⟩

theorem sameList_of_callback {code value : ℕ} (h : callback a code value s = some s') :
    SameList s.graphics s'.graphics := by
  obtain ⟨k, -, h⟩ | ⟨-, rfl⟩ := callback_cases h
  · cases press_draws h with
    | back _ hg =>
      rw [hg]
      exact ⟨rfl, rfl, fun hp => by cases hp⟩
    | number _ hg | volume _ _ hg | nothing _ hg =>
      rw [hg]
      exact ⟨rfl, rfl, id⟩
  · exact ⟨rfl, rfl, id⟩

theorem sameList_of_handlerStep {i : ℕ} (h : handlerStep i s = some s') :
    SameList s.graphics s'.graphics := by
  obtain ⟨progNum, -, hg⟩ | ⟨-, hg⟩ := handlerStep_draws h
  · rw [hg]
    exact ⟨rfl, rfl, id⟩
  · rw [hg]
    exact ⟨rfl, rfl, id⟩

/-- The main thread gets to the place at which it frees the tables. -/
theorem freeTables_of_mainStep (h : mainStep params a s = some s') :
    s'.main = .deinit .freeTables ↔
      s.main = .deinit .deinitTuner ∧ s.player.tdp.initDone = true := by
  have hn := main_of_mainStep h
  cases hm : s.main with
  | init p =>
    rw [hm] at hn
    refine iff_of_false (fun hs' => ?_) (by simp)
    rw [hs'] at hn
    obtain hn | hn := hn
    · have hle : (p.next s).stage ≤ 33 := p.stage_next_le
      rw [show p.next s = .deinit .freeTables from hn.symm] at hle
      exact absurd hle (by decide)
    · cases hn
  | deinit p =>
    have h : deinitStep a s p = some s' := by simpa [mainStep, hm] using h
    rw [hm] at hn
    cases p with
    | deinitTuner =>
      obtain rfl := Option.some.inj h
      cases hdone : s.player.tdp.initDone <;>
        simp [State.deinitAssert, Player.tuner, Tdp.tunerDeinit, hdone]
    | stop =>
      refine iff_of_false (fun hs' => ?_) (by simp)
      rw [hs'] at hn
      simp only [MainPc.next, DeinitPc.next] at hn
      split at hn <;> obtain hn | hn := hn <;> cases hn
    | _ =>
      refine iff_of_false (fun hs' => ?_) (by simp)
      rw [hs'] at hn
      simp [MainPc.next, DeinitPc.next, MainPc.fail] at hn
  | _ =>
    rw [hm] at hn
    refine iff_of_false (fun hs' => ?_) (by simp)
    rw [hs'] at hn
    simp [MainPc.next, MainPc.fail] at hn

theorem State.freeTables_wake (s : State) :
    s.wake.main = .deinit .freeTables ↔ s.main = .deinit .freeTables := by
  obtain ⟨h, h', -⟩ | ⟨t, h, h', -⟩ | ⟨c, -, h, -⟩ | ⟨-, -, h, -⟩ := s.wake_cases
  · simp [h, h']
  · simp [h, h']
  · rw [h]
  · rw [h]

/-! ### Stored slots along a run -/

/-- A history variable: the number of services of the last SDT that was parsed. -/
def lastServices (s : State) (l : Label) (_ : State) (n : ℕ) : ℕ :=
  match l with
  | .deliver d =>
    if stored d s.tables = .sdt then (serviceCount d.fuel d.buffer).getD 0 else n
  | _ => n

/-- `parse_SDT` has not stored to a slot it did not allocate, and the slots that are shown or
are about to be freed are slots it has stored. -/
structure ListSafe (s : State) : Prop where
  inBounds : s.tables.sdt.services.InBounds
  shown : s.graphics.renderFnp.printProgList = true →
    s.graphics.programList.FilledTo s.graphics.renderFnp.programCount
  freed : s.main = .deinit .freeTables → s.tables.sdt.services.FilledTo s.tables.pat.pmtCount

/-- The condition on a step: a delivered SDT has no more services than there are programs, and
the last SDT has no fewer when the list is handed over and from the moment at which the main
thread is about to free it. -/
def KeepsListSafe (x : State × ℕ) : Label → Prop
  | .deliver d =>
    (stored d x.1.tables = .sdt → ∀ n, serviceCount d.fuel d.buffer = some n →
      n ≤ x.1.tables.pat.pmtCount ∧
        (x.1.main = .deinit .freeTables → x.1.tables.pat.pmtCount ≤ n)) ∧
    (stored d x.1.tables = .pat → x.1.main = .deinit .freeTables →
      progCount (sectionLength d.buffer) ≤ x.2)
  | .loop _ => x.1.loop = .list → x.1.strPrm.getProgList = true → x.1.tables.pat.pmtCount ≤ x.2
  | .main _ => x.1.main = .deinit .deinitTuner → x.1.player.tdp.initDone = true →
      x.1.tables.pat.pmtCount ≤ x.2
  | _ => True

/-- The slots of the SDT that have been stored to are those of the services of the last one. -/
private structure ServicesInv (x : State × ℕ) : Prop where
  written : ∀ i, x.1.tables.sdt.services.written i = true ↔ i < x.2 ∧ i < 2 ^ 16
  pmtCount : x.1.tables.pat.pmtCount < 256

private theorem ServicesInv.filledTo_iff {x : State × ℕ} (hx : ServicesInv x) {n : ℕ}
    (hn : n < 256) : x.1.tables.sdt.services.FilledTo n ↔ n ≤ x.2 := by
  constructor
  · intro h
    by_contra hlt
    have := (hx.written x.2).mp (h x.2 (by omega))
    omega
  · intro h i hi
    exact (hx.written i).mpr (by omega)

private theorem ServicesInv.step {x y : State × ℕ} (hx : ServicesInv x)
    (h : withHistory (step params) lastServices x l = some y) : ServicesInv y := by
  obtain ⟨h, hy⟩ := withHistory_eq_some.mp h
  refine ⟨?_, pmtCount_lt_of_step h hx.pmtCount⟩
  rw [hy]
  obtain ⟨d, rfl, hd⟩ | ⟨hl, htables⟩ := tables_of_step h
  · obtain ⟨hs, ht⟩ | ⟨j, pmt, hs, -, -, ht⟩ | ⟨sdt, hs, hsdt, ht⟩ | ⟨hs, ht⟩ :=
      filterCallback_cases hd
    · simpa [lastServices, hs, ht] using hx.written
    · simpa [lastServices, hs, ht] using hx.written
    · obtain ⟨n, hn, -, hwritten⟩ := parseSDT_written hsdt
      simpa [lastServices, hs, ht, hn] using hwritten
    · simpa [lastServices, hs, ht] using hx.written
  · have hsame : lastServices x.1 l y.1 x.2 = x.2 := by
      cases l with
      | deliver d => exact absurd rfl (hl d)
      | _ => rfl
    rw [hsame, htables]
    exact hx.written

/-- Steps that leave the tables and the list alone, and do not bring the main thread to the
place at which it frees the tables. -/
private theorem ListSafe.of_same (hs : ListSafe s) (htables : s'.tables = s.tables)
    (hlist : SameList s.graphics s'.graphics)
    (hmain : s'.main = .deinit .freeTables → s.main = .deinit .freeTables) : ListSafe s' := by
  refine ⟨?_, fun hp => ?_, fun hm => ?_⟩
  · rw [htables]
    exact hs.inBounds
  · rw [hlist.programList, hlist.programCount]
    exact hs.shown (hlist.print hp)
  · rw [htables]
    exact hs.freed (hmain hm)

/-- A delivered section. -/
private theorem listSafe_deliver_iff {x : State × ℕ} (hx : ServicesInv x) (hs : ListSafe x.1)
    {d : Delivery} (h : sectionStep d x.1 = some s') :
    ListSafe s' ↔ KeepsListSafe x (.deliver d) := by
  obtain ⟨-, -, tables, hd, rfl⟩ := sectionStep_eq_some h
  obtain ⟨hst, rfl⟩ | ⟨j, pmt, hst, -, -, rfl⟩ | ⟨sdt, hst, hsdt, rfl⟩ | ⟨hst, rfl⟩ :=
    filterCallback_cases hd
  · have hcount := parsePAT_pmtCount d.patJunk d.buffer
    have hfilled := hx.filledTo_iff (progCount_lt (sectionLength d.buffer))
    constructor
    · intro h'
      refine ⟨fun hst' => by simp [hst] at hst', fun _ hm => hfilled.mp ?_⟩
      exact hcount ▸ h'.freed hm
    · rintro ⟨-, hC⟩
      refine ⟨hs.inBounds, hs.shown, fun hm => ?_⟩
      exact show _ from hcount ▸ hfilled.mpr (hC hst hm)
  · exact iff_of_true ⟨hs.inBounds, hs.shown, hs.freed⟩ (by simp [KeepsListSafe, hst])
  · obtain ⟨n, hn, hsize, hwritten⟩ := parseSDT_written hsdt
    have hlt := hx.pmtCount
    constructor
    · intro h'
      refine ⟨fun _ n' hn' => ?_, fun hst' => by simp [hst] at hst'⟩
      obtain rfl : n = n' := Option.some.inj (hn.symm.trans hn')
      constructor
      · by_contra hgt
        have hstored := (hwritten x.1.tables.pat.pmtCount).mpr (by omega)
        have := h'.inBounds _ hstored
        simp only [hsize, lt_irrefl] at this
      · intro hm
        by_contra hgt
        have hstored := (hwritten n).mp (h'.freed hm n (by simpa using hgt))
        exact absurd hstored.1 (lt_irrefl n)
    · rintro ⟨hC, -⟩
      obtain ⟨hle, hge⟩ := hC hst n hn
      refine ⟨fun i hi => ?_, hs.shown, fun hm i hi => ?_⟩
      · have := (hwritten i).mp hi
        exact show i < sdt.services.size by omega
      · have := hge hm
        exact (hwritten i).mpr (by have : i < x.1.tables.pat.pmtCount := hi; omega)
  · exact iff_of_true ⟨hs.inBounds, hs.shown, hs.freed⟩ (by simp [KeepsListSafe, hst])

/-- The step lemma: a step keeps the list safe exactly when it meets the condition. -/
private theorem listSafe_step_iff {x y : State × ℕ} (hx : ServicesInv x) (hs : ListSafe x.1)
    (h : withHistory (step params) lastServices x l = some y) :
    ListSafe y.1 ↔ KeepsListSafe x l := by
  obtain ⟨h, -⟩ := withHistory_eq_some.mp h
  have hact := act_of_step h
  have hfilled := hx.filledTo_iff hx.pmtCount
  cases l with
  | deliver d => exact listSafe_deliver_iff hx hs hact
  | loop a =>
    have hframe := loopStep_frame hact
    obtain ⟨hl, hlist, hg⟩ | ⟨hl, hlist⟩ := list_of_loopStep hact
    · constructor
      · intro h' _ _
        have hshown := h'.shown (by rw [hg]; rfl)
        rw [hg] at hshown
        exact hfilled.mp hshown
      · intro hC
        refine ⟨by rw [hframe.tables]; exact hs.inBounds, fun _ => ?_, fun hm => ?_⟩
        · rw [hg]
          exact hfilled.mpr (hC hl hlist)
        · rw [hframe.tables]
          exact hs.freed (hframe.main ▸ hm)
    · exact iff_of_true (hs.of_same hframe.tables hlist fun hm => hframe.main ▸ hm)
        fun hl' hlist' => absurd ⟨hl', hlist'⟩ hl
  | main a =>
    have hframe := mainStep_frame hact
    have hlist := sameList_of_mainStep hact
    have hfree := freeTables_of_mainStep hact
    constructor
    · intro h' hm hdone
      have hfreed := h'.freed (hfree.mpr ⟨hm, hdone⟩)
      rw [hframe.tables] at hfreed
      exact hfilled.mp hfreed
    · intro hC
      refine ⟨by rw [hframe.tables]; exact hs.inBounds, fun hp => ?_, fun hm => ?_⟩
      · rw [hlist.programList, hlist.programCount]
        exact hs.shown (hlist.print hp)
      · obtain ⟨hm', hdone⟩ := hfree.mp hm
        rw [hframe.tables]
        exact hfilled.mpr (hC hm' hdone)
  | input code value a =>
    have hframe := callback_frame hact
    refine iff_of_true (hs.of_same hframe.tables (sameList_of_callback hact) fun hm => ?_) trivial
    obtain hm' | ⟨-, hm'⟩ := hframe.main
    · exact hm' ▸ hm
    · simp [hm'] at hm
  | signal =>
    obtain ⟨-, -, hy⟩ := signalStep_eq_some hact
    rw [hy]
    exact iff_of_true (hs.of_same (by simp) ⟨by simp, by simp, by simp⟩
      (State.freeTables_wake _).mp) trivial
  | tuner status =>
    obtain ⟨-, hy | hy⟩ := tunerStep_eq_some hact <;> rw [hy]
    · exact iff_of_true (hs.of_same (by simp) ⟨by simp, by simp, by simp⟩
        (State.freeTables_wake _).mp) trivial
    · exact iff_of_true (hs.of_same rfl ⟨rfl, rfl, id⟩ id) trivial
  | timeout =>
    obtain ⟨-, hy⟩ := timeoutStep_eq_some hact
    rw [hy]
    exact iff_of_true (hs.of_same rfl ⟨rfl, rfl, id⟩ (by simp [State.initFail])) trivial
  | expire =>
    obtain ⟨-, hy⟩ := expireStep_eq_some hact
    rw [hy]
    exact iff_of_true (hs.of_same rfl ⟨rfl, rfl, id⟩ id) trivial
  | handler i =>
    have hframe := handlerStep_frame hact
    exact iff_of_true (hs.of_same hframe.tables (sameList_of_handlerStep hact)
      fun hm => hframe.main ▸ hm) trivial

/-- **Along a run, `parse_SDT` stores to slots it has allocated, and the slots shown or freed are
slots it has stored, exactly when every SDT that is delivered has at most as many services as
the PAT has programs then, and the last one has at least as many when the list is handed over
and when it is freed.** -/
theorem listSafe_iff (params : ConfigParams) (ls : List Label) :
    Always (withHistory (step params) lastServices) (fun x => ListSafe x.1) (.powerOn, 0) ls ↔
      Meets (withHistory (step params) lastServices) KeepsListSafe (.powerOn, 0) ls := by
  refine always_iff_meets (I := ServicesInv) ⟨?_, by decide⟩ ?_ (fun _ _ _ hx h => hx.step h)
    fun _ _ _ hx hs h => listSafe_step_iff hx hs h
  · intro i
    simp [State.powerOn, SDT.zero, malloc]
  · constructor <;> simp [State.powerOn, SDT.zero, malloc, Block.InBounds, Graphics.zero]

/-- The delivery carries a well-formed PAT or SDT section. -/
def Delivery.WellFormed (d : Delivery) : Prop :=
  (∃ (sec : PatSection) (rest : Buffer) (junk : ℕ → PMT), d = sec.delivery rest junk) ∨
    ∃ (sec : SdtSection) (fuel : ℕ) (rest : Buffer) (junk : ℕ → ServiceInfo),
      d = sec.delivery fuel rest junk

/-- A PAT with one program and an SDT with two services: the second one is stored behind the
allocated slot. -/
theorem not_forall_listSafe : ¬ ∀ (params : ConfigParams) (ls : List Label),
    (∀ d, Label.deliver d ∈ ls → d.WellFormed) →
      Always (withHistory (step params) lastServices) (fun x => ListSafe x.1) (.powerOn, 0) ls := by
  intro h
  let pat := (Program.patSection [firstProgram] (by decide)).delivery (fun _ => 0)
    fun _ => default
  let sdt := (Program.sdtSection [firstProgram, secondProgram] (by decide)).delivery 2
    (fun _ => 0) fun _ => default
  have hrun : (exec (withHistory (step (configIni 1)) lastServices) (.powerOn, 0)
      (startUpToPat ++ [.deliver pat, .signal, .main (.ok 0), .main (.ok 4), .main (.ok 0),
        .deliver sdt])).map
        (fun x => (x.1.tables.sdt.services.size, x.1.tables.sdt.services.written 1)) =
      some (1, true) := by decide +kernel
  have hformed : ∀ d, Label.deliver d ∈ startUpToPat ++ [.deliver pat, .signal, .main (.ok 0),
      .main (.ok 4), .main (.ok 0), .deliver sdt] → d.WellFormed := by
    intro d hd
    simp only [startUpToPat, List.mem_append, List.mem_cons, List.mem_replicate, reduceCtorEq,
      Label.deliver.injEq, List.not_mem_nil, and_false, false_or, or_false] at hd
    obtain rfl | rfl := hd
    · exact .inl ⟨_, _, _, rfl⟩
    · exact .inr ⟨_, _, _, _, rfl⟩
  obtain ⟨x, hx, hobs⟩ := (h _ _ hformed).observe hrun
  simp only [Prod.mk.injEq] at hobs
  have hlt := hx.inBounds 1 hobs.2
  rw [hobs.1] at hlt
  exact absurd hlt (lt_irrefl 1)

end Zapper
