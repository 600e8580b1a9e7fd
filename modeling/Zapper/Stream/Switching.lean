import Zapper.Stream.Bookkeeping
import Zapper.Stream.Screen
import Zapper.Stream.Waits

/-!
# Three ways to a program

A program can be selected by its digit, or reached by the keys for the next and the previous
program; `stream_loop` has a copy of the switch for each of them. All three lead to the same
streams and to the same filter: once a switch has been served, what the player holds is
`ConfigParams.side`, a function of the selected slot alone (`Settled`). Nothing is left of the
programs before it, since every switch removes what is on, and a slot is what `parse_PMT` makes of
the section of its program, whatever it held before. Only a slot that is read in the middle of
`parse_PMT`'s stores is something else (`StoringState.ReadsWhole`).
-/

namespace Zapper

open Memory Transition

variable {params : ConfigParams} {a : Answer} {s s' : State} {l : Label} {p : Player}

/-! ### Requests -/

/-- The functions by which a program is asked for. -/
inductive Request
  /-- `change_program`. -/
  | change (program : ℕ)
  /-- `next_program`. -/
  | next
  /-- `previous_program`. -/
  | previous

namespace Request

/-- The command by which the stream thread serves a request. -/
def command : Request → Command
  | change _ => .change
  | next => .next
  | previous => .previous

/-- The call, once it has `stream_params_mutex`. -/
def apply (s : State) : Request → State
  | change program => changeProgram program s
  | next => { s with strPrm := { s.strPrm with nextProgram := true } }
  | previous => { s with strPrm := { s.strPrm with previousProgram := true } }

/-- The program that `pr_counter` is on until the block of the command counts. -/
def counter (k : ℕ) : Request → ℕ
  | change program => program
  | _ => k

end Request

/-- The request a key makes. -/
def Key.request : Key → Option Request
  | .digit program => some (.change program)
  | .pPlus => some .next
  | .pMinus => some .previous
  | _ => none

/-- A key makes its request as soon as the stream thread does not hold the mutex. -/
theorem press_of_request {key : Key} {r : Request} (hr : key.request = some r)
    (hfree : s.loop.holdsParams = false) : press a s key = some (r.apply s) := by
  cases key <;> cases hr <;> simp [press, hfree, Request.apply]

/-! ### What the player holds -/

/-- The player side: the selected program, the stream status, kind, PID and type of the live
streams, and PID and table id of the live section filters. -/
structure PlayerSide where
  prCounter : ℕ
  status : StreamStatus
  streams : List (Bool × ℕ × ℕ)
  filters : List (ℕ × UInt8)
  deriving DecidableEq

/-- Kind, PID and type of the live streams. -/
def Player.streams (p : Player) : List (Bool × ℕ × ℕ) :=
  p.tdp.pe.streams.map fun st => (st.video, st.pid, st.type)

/-- PID and table id of the live section filters. -/
def Player.filters (p : Player) : List (ℕ × UInt8) :=
  p.tdp.pe.filters.map fun f => (f.pid, f.tableId)

/-- The player side of a state. -/
def State.playerSide (s : State) : PlayerSide :=
  ⟨s.prCounter, s.player.status, s.player.streams, s.player.filters⟩

/-- The video stream of a slot. -/
def PMT.videoStream (params : ConfigParams) (pmt : PMT) : List (Bool × ℕ × ℕ) :=
  if pmt.videoPid ≠ noPid then [(true, pmt.videoPid, params.videoType - 38)] else []

/-- The audio stream of a slot. -/
def PMT.audioStream (params : ConfigParams) (pmt : PMT) : List (Bool × ℕ × ℕ) :=
  if pmt.audioPid ≠ noPid then [(false, pmt.audioPid, params.audioType)] else []

/-- The player side that belongs to program `k` with the given slot. -/
def ConfigParams.side (params : ConfigParams) (k : ℕ) (pmt : PMT) : PlayerSide where
  prCounter := k
  status := ⟨pmt.audioPid ≠ noPid, pmt.videoPid ≠ noPid⟩
  streams := pmt.videoStream params ++ pmt.audioStream params
  filters := [(pmt.tableId, Table.pmt.tableId)]

namespace Player

@[simp] theorem streams_withVolume (v : ℕ) : (p.withVolume v).streams = p.streams := rfl

@[simp] theorem filters_withVolume (v : ℕ) : (p.withVolume v).filters = p.filters := rfl

@[simp] theorem status_withVolume (v : ℕ) : (p.withVolume v).status = p.status := rfl

theorem Fits.filters_nil (h : p.Fits false) : p.filters = [] := by
  have hlive := h.filters
  rw [if_neg (by decide), Pe.liveFilters, List.map_eq_nil_iff] at hlive
  rw [Player.filters, hlive]
  rfl

theorem Serves.streams_nil {f : Bool} (h : p.Serves ⟨f, true, true⟩) : p.streams = [] := by
  have hlive : ∀ video, p.tdp.pe.live video = [] :=
    Bool.forall_bool.mpr ⟨h.live_audio, h.live_video⟩
  have hnone : p.tdp.pe.streams = [] := by
    refine List.eq_nil_iff_forall_not_mem.mpr fun st hst => ?_
    have hmem := hlive st.video
    rw [Pe.live, List.map_eq_nil_iff, List.filter_eq_nil_iff] at hmem
    simpa using hmem st hst
  rw [Player.streams, hnone]
  rfl

/-- Setting a filter adds it. -/
theorem filters_setFilter (pid : ℕ) (tableId : UInt8)
    (h : (p.setFilter a pid tableId).1 = .noError) :
    (p.setFilter a pid tableId).2.filters = p.filters ++ [(pid, tableId)] := by
  unfold Player.setFilter Tdp.demuxSetFilter at h ⊢
  split_ifs at h ⊢
  simp [Player.filters]

/-- Creating the video stream adds it if the program has video. -/
theorem side_createVideo (pid : ℕ) {type : ℕ} (htype : 39 ≤ type)
    (hoff : p.status.videoOn = false) (h : (p.createVideo a pid type).1 = .noError) :
    (p.createVideo a pid type).2.streams =
        p.streams ++ (if pid ≠ noPid then [(true, pid, type - 38)] else []) ∧
      (p.createVideo a pid type).2.filters = p.filters ∧
      (p.createVideo a pid type).2.status = ⟨p.status.audioOn, pid ≠ noPid⟩ := by
  by_cases hpid : pid = noPid
  · have hstatus : p.status = ⟨p.status.audioOn, p.status.videoOn⟩ := rfl
    rw [hoff] at hstatus
    simpa [Player.createVideo, hpid] using hstatus
  · simp only [Player.createVideo, Tdp.playerStreamCreate, hpid, htype, ne_eq, not_false_eq_true,
      if_true] at h ⊢
    split_ifs at h ⊢
    simp [Player.streams, Player.filters]

/-- Creating the audio stream adds it if the program has audio. -/
theorem side_createAudio (pid : ℕ) {type : ℕ} (htype : type < 39)
    (hoff : p.status.audioOn = false) (h : (p.createAudio a pid type).1 = .noError) :
    (p.createAudio a pid type).2.streams =
        p.streams ++ (if pid ≠ noPid then [(false, pid, type)] else []) ∧
      (p.createAudio a pid type).2.filters = p.filters ∧
      (p.createAudio a pid type).2.status = ⟨pid ≠ noPid, p.status.videoOn⟩ := by
  by_cases hpid : pid = noPid
  · have hstatus : p.status = ⟨p.status.audioOn, p.status.videoOn⟩ := rfl
    rw [hoff] at hstatus
    simpa [Player.createAudio, hpid] using hstatus
  · simp only [Player.createAudio, Tdp.playerStreamCreate, hpid, Nat.not_le.mpr htype, ne_eq,
      not_false_eq_true, if_true, if_false] at h ⊢
    split_ifs at h ⊢
    simp [Player.streams, Player.filters]

end Player

/-! ### What is broadcast -/

/-- No other PAT is broadcast, and one PMT section for each program number. -/
def Label.Broadcast (bcast : ℕ → Buffer) : Label → Prop
  | .deliver d => ¬ d.IsOf .pat ∧ (d.IsOf .pmt → d.buffer = bcast (programNumber d.buffer))
  | _ => True

/-- The selected slot holds what `parse_PMT` makes of the section of its program. -/
def State.Answered (bcast : ℕ → Buffer) (s : State) : Prop :=
  ∃ fuel, parsePMT fuel (bcast s.selected.prNum) s.selected = some s.selected

/-- What is assumed of a step while a request is served: the player's calls succeed, no other
program is asked for, and a wait is answered by the section of the selected program. -/
structure Undisturbed (bcast : ℕ → Buffer) (s : State) (l : Label) : Prop where
  good : GoodAnswers s l
  idle : ∀ key, l.key = some key → key.Idle
  answered : l = .signal → s.loop.waits = true → s.Answered bcast

/-- The PAT is the same, but for what the PMTs fill in. -/
structure SamePat (t t' : Tables) : Prop where
  pmtCount : t'.pat.pmtCount = t.pat.pmtCount
  prNum : ∀ i, (t'.pat.pmts.cell i).prNum = (t.pat.pmts.cell i).prNum
  tableId : ∀ i, (t'.pat.pmts.cell i).tableId = (t.pat.pmts.cell i).tableId

theorem SamePat.trans {t u v : Tables} (h : SamePat t u) (h' : SamePat u v) : SamePat t v :=
  ⟨h'.pmtCount.trans h.pmtCount, fun i => (h'.prNum i).trans (h.prNum i),
    fun i => (h'.tableId i).trans (h.tableId i)⟩

variable {bcast : ℕ → Buffer}

/-- The broadcast never changes the PAT. -/
theorem samePat_of_step (h : step params s l = some s') (hl : l.Broadcast bcast) :
    SamePat s.tables s'.tables := by
  obtain ⟨d, rfl, hd⟩ | ⟨-, ht⟩ := tables_of_step h
  · have hne : stored d s.tables ≠ .pat := fun hp => hl.1 (stored_eq_pat_iff.mp hp)
    obtain ⟨hcount, -, hcell⟩ := filterCallback_pat hd hne
    exact ⟨hcount, fun i => (hcell i).1, fun i => (hcell i).2⟩
  · rw [ht]
    exact ⟨rfl, fun _ => rfl, fun _ => rfl⟩

/-- **A slot that has been answered stays as it is**: the same section is parsed again. -/
theorem selected_of_step (h : step params s l = some s') (hl : l.Broadcast bcast)
    (hcounter : s'.prCounter = s.prCounter) (hs : s.Answered bcast) :
    s'.selected = s.selected := by
  rw [State.selected, State.selected, hcounter]
  obtain ⟨d, rfl, hd⟩ | ⟨-, ht⟩ := tables_of_step h
  · obtain ⟨hstored, -⟩ | ⟨j, pmt, hstored, hfind, hpmt, hs'⟩ | ⟨sdt, -, -, hs'⟩ | ⟨-, hs'⟩ :=
      filterCallback_cases hd
    · exact absurd (stored_eq_pat_iff.mp hstored) hl.1
    · rw [hs']
      by_cases hj : s.prCounter = j
      · subst hj
        obtain ⟨fuel, hparse⟩ := hs
        have hbuffer := hl.2 (stored_eq_slot_iff.mp hstored).1
        rw [← prNum_of_findSlot hfind] at hbuffer
        rw [hbuffer] at hpmt
        have hsame : pmt = s.selected := parsePMT_unique hpmt hparse
        simpa [State.selected] using hsame
      · simp [Block.cell_modify_of_ne _ _ hj]
    · rw [hs']
    · rw [hs']
  · rw [ht]

/-! ### The places of a switch -/

/-- The switch is over: the player holds what belongs to the selected slot, and the slot what
belongs to the section of its program. -/
structure Settled (params : ConfigParams) (bcast : ℕ → Buffer) (s : State) : Prop where
  side : s.playerSide = params.side s.prCounter s.selected
  answered : s.Answered bcast

theorem Settled.congr (hs : Settled params bcast s) (hside : s'.playerSide = s.playerSide)
    (hcounter : s'.prCounter = s.prCounter) (hselected : s'.selected = s.selected) :
    Settled params bcast s' := by
  refine ⟨by rw [hside, hs.side, hcounter, hselected], ?_⟩
  rw [State.Answered, hselected]
  exact hs.answered

/-- The filter is the one for the PMT of the selected program. -/
def State.Filtered (s : State) : Prop :=
  s.player.filters = [(s.selected.tableId, Table.pmt.tableId)]

/-- What a place of a switch block says about the player side, beyond what it demands. -/
def Midway (params : ConfigParams) (bcast : ℕ → Buffer) (s : State) : SwitchPc → Prop
  | .wait => s.Filtered
  | .waiting => s.Filtered
  | .createVideo => s.Filtered ∧ s.Answered bcast
  | .createAudio => s.Filtered ∧ s.Answered bcast ∧
      s.player.streams = s.selected.videoStream params ∧
      s.player.status.videoOn = decide (s.selected.videoPid ≠ noPid)
  | .announce => Settled params bcast s
  | .armSec => Settled params bcast s
  | .armNsec => Settled params bcast s
  | .armSet => Settled params bcast s
  | .clear => Settled params bcast s
  | _ => True

theorem Midway.congr {q : SwitchPc} (hm : Midway params bcast s q)
    (hside : s'.playerSide = s.playerSide)
    (htableId : s'.selected.tableId = s.selected.tableId)
    (hselected : s.Answered bcast → s'.selected = s.selected) : Midway params bcast s' q := by
  have hcounter : s'.prCounter = s.prCounter := congrArg PlayerSide.prCounter hside
  have hstatus : s'.player.status = s.player.status := congrArg PlayerSide.status hside
  have hstreams : s'.player.streams = s.player.streams := congrArg PlayerSide.streams hside
  have hfilters : s'.player.filters = s.player.filters := congrArg PlayerSide.filters hside
  have hanswered : s.Answered bcast → s'.Answered bcast := fun h => by
    rw [State.Answered, hselected h]
    exact h
  have hfiltered : s.Filtered → s'.Filtered := fun h => by
    rw [State.Filtered, hfilters, htableId]
    exact h
  have hsettled : Settled params bcast s → Settled params bcast s' := fun h =>
    h.congr hside hcounter (hselected h.answered)
  cases q with
  | wait | waiting => exact hfiltered hm
  | createVideo => exact ⟨hfiltered hm.1, hanswered hm.2⟩
  | createAudio =>
    obtain ⟨hf, ha, hvideo, hon⟩ := hm
    exact ⟨hfiltered hf, hanswered ha, by rw [hstreams, hselected ha, hvideo],
      by rw [hstatus, hselected ha, hon]⟩
  | announce | armSec | armNsec | armSet | clear => exact hsettled hm
  | _ => trivial

/-- **A step of a switch block** leads to what the place behind it says. -/
theorem midway_of_switchStep (hparams : params.KnownTypes) {c : Command} {q : SwitchPc}
    (h : switchStep params a c s q = some s')
    (hserves : s.player.Serves (LoopPc.switch c q).demand) (hm : Midway params bcast s q)
    (hne : s'.loop ≠ .exited .error) :
    (∀ q', s'.loop = .switch c q' → Midway params bcast s' q') ∧
      (q = .clear → Settled params bcast s') := by
  have haudio : params.audioType < 39 := by rw [hparams.audio]; decide
  have hvideo : 39 ≤ params.videoType := by rw [hparams.video]; decide
  -- a call, which succeeds, and what holds behind it
  have hcall : ∀ {r : TError × Player} {q₁ : SwitchPc},
      some (s.loopAssert r (.switch c q₁)) = some s' → (r.1 = .noError →
        Midway params bcast { s with player := r.2, loop := .switch c q₁ } q₁) →
      ∀ q', s'.loop = .switch c q' → Midway params bcast s' q' := by
    intro r q₁ h hmid q' hl'
    obtain rfl := Option.some.inj h
    obtain ⟨hr, he⟩ | ⟨-, he⟩ := s.loopAssert_cases r (.switch c q₁)
    · rw [he] at hl' ⊢
      cases hl'
      exact hmid hr
    · exact absurd (by rw [he]) hne
  cases q with
  | count | bgd =>
    obtain rfl := Option.some.inj h
    exact ⟨fun q' hl' => by cases hl'; trivial, by simp⟩
  | removeAudio | removeVideo | freeFilter => exact ⟨hcall h fun _ => trivial, by simp⟩
  | setFilter =>
    refine ⟨hcall h fun hr => ?_, by simp⟩
    have hadd := Player.filters_setFilter s.selected.tableId Table.pmt.tableId hr
    rw [hserves.fits.filters_nil, List.nil_append] at hadd
    exact hadd
  | wait =>
    simp only [switchStep] at h
    split at h
    · cases h
    · obtain rfl := Option.some.inj h
      exact ⟨fun q' hl' => by cases hl'; exact hm, by simp⟩
  | waiting => cases h
  | createVideo =>
    obtain ⟨hfiltered, hanswered⟩ := hm
    refine ⟨hcall h fun hr => ⟨?_, hanswered, ?_, ?_⟩, by simp⟩
    all_goals
      obtain ⟨hstreams, hfilters, hstatus⟩ :=
        Player.side_createVideo s.selected.videoPid hvideo (hserves.video rfl) hr
    · exact hfilters.trans hfiltered
    · rw [hserves.streams_nil, List.nil_append] at hstreams
      exact hstreams
    · exact congrArg StreamStatus.videoOn hstatus
  | createAudio =>
    obtain ⟨hfiltered, hanswered, hstream, hon⟩ := hm
    refine ⟨hcall h fun hr => ⟨?_, hanswered⟩, by simp⟩
    obtain ⟨hstreams, hfilters, hstatus⟩ :=
      Player.side_createAudio s.selected.audioPid haudio (hserves.audio rfl) hr
    rw [hstream] at hstreams
    rw [hon] at hstatus
    exact congr (congr (congr rfl hstatus) hstreams) (hfilters.trans hfiltered)
  | announce =>
    simp only [switchStep] at h
    split at h
    all_goals
      obtain rfl := Option.some.inj h
      exact ⟨fun q' hl' => by cases hl'; exact ⟨hm.side, hm.answered⟩, by simp⟩
  | armSec | armNsec | armSet =>
    obtain rfl := Option.some.inj h
    exact ⟨fun q' hl' => by cases hl'; exact ⟨hm.side, hm.answered⟩, by simp⟩
  | clear =>
    obtain rfl := Option.some.inj h
    refine ⟨fun q' hl' => ?_, fun _ => ⟨hm.side, hm.answered⟩⟩
    cases c <;> cases hl'

/-! ### Serving a request -/

/-- A request for which command `c` is served, which takes program `k` to program `j`. -/
inductive Phase (params : ConfigParams) (bcast : ℕ → Buffer) (c : Command) (k j : ℕ)
    (s : State) : Prop
  /-- The zapper is shut down, and the stream thread has returned. -/
  | returned (hl : s.loop = .exited .noError)
  | asked (hflag : ∀ c', s.strPrm.flag c' = decide (c' = c)) (hl : s.loop.Outside)
      (hk : s.prCounter = k)
  | counting (hflag : ∀ c', s.strPrm.flag c' = decide (c' = c)) (hl : s.loop = .switch c .count)
      (hk : s.prCounter = k)
  | switching (q : SwitchPc) (hflag : ∀ c', s.strPrm.flag c' = decide (c' = c))
      (hq : q ≠ .count) (hl : s.loop = .switch c q) (hj : s.prCounter = j)
      (hm : Midway params bcast s q)
  | served (hflag : s.Consumed) (hl : s.loop.Outside) (hj : s.prCounter = j)
      (hs : Settled params bcast s)

/-- While a request is served, with the PAT of the tables `t`. -/
structure Segment (params : ConfigParams) (bcast : ℕ → Buffer) (t : Tables) (c : Command)
    (k : ℕ) (s : State) : Prop where
  coherent : s.Coherent
  created : s.loop ≠ .notCreated
  pat : SamePat t s.tables
  serves : s.loop ≠ .exited .noError → s.player.Serves s.loop.demand
  phase : Phase params bcast c k (c.count k t.pat.pmtCount) s

/-- While the stream thread runs, the other actors change the volume of the player at most. -/
theorem player_of_step (hs : s.Coherent) (hcreated : s.loop ≠ .notCreated)
    (hreturned : s.loop ≠ .exited .noError) (h : step params s l = some s')
    (hl : ∀ a, l ≠ .loop a) :
    s'.player = s.player ∨ ∃ v, s'.player = s.player.withVolume v := by
  have hact := act_of_step h
  cases l with
  | main a =>
    refine .inl ?_
    have hpast := hs.created hcreated
    have hjoin : ¬ s.Past (.deinit .join) := fun hj => by
      obtain hl | hl := hs.joined hj (alive_of_step h)
      · exact hcreated hl
      · exact hreturned hl
    exact player_of_mainStep hact hpast.le hjoin
  | loop a => exact absurd rfl (hl a)
  | input code value a => exact player_of_callback hact
  | handler i => exact .inl (handlerStep_frame hact).player
  | _ => exact .inl (event_frame h rfl).player

/-- The other actors ask for no program, but for the keys that do. -/
theorem sameCommands_of_undisturbed (hs : s.Coherent) (hcreated : s.loop ≠ .notCreated)
    (h : step params s l = some s') (hl : ∀ a, l ≠ .loop a) (hu : Undisturbed bcast s l) :
    SameCommands s s' := by
  have hact := act_of_step h
  cases l with
  | main a =>
    exact sameCommands_of_mainStep hact ((show _ < _ by decide).trans (hs.created hcreated))
  | loop a => exact absurd rfl (hl a)
  | input code value a =>
    obtain ⟨key, hkey, hpress⟩ | ⟨-, rfl⟩ := callback_cases hact
    · exact sameCommands_of_press hpress (hu.idle key hkey)
    · exact ⟨fun _ => rfl, rfl⟩
  | _ => exact sameCommands_of_step h (by simp) (by simp) (by simp)

/-- Outside the blocks, the stream thread leaves the player alone. -/
theorem player_of_loopStep_outside (h : loopStep params a s = some s') (hl : s.loop.Outside) :
    s'.player = s.player := by
  rcases loopStep_writes h with ⟨c, hp, -⟩ | ⟨c, q, hp, -, -, -⟩ | ⟨c, hp, -⟩ | ⟨-, h⟩
  case outside => rw [h]
  all_goals exact absurd hp (hl c _)

namespace Segment

variable {t : Tables} {c : Command} {k : ℕ}

/-- The stream thread serves the request. -/
private theorem loopStep (hs : Segment params bcast t c k s) (hparams : params.KnownTypes)
    (h : step params s (.loop a) = some s') (hgood : GoodAnswers s (.loop a)) :
    Segment params bcast t c k s' := by
  have hact : Zapper.loopStep params a s = some s' := act_of_step h
  have hframe := loopStep_frame hact
  have hserves := hs.serves (not_exited_of_loopStep hact _)
  obtain ⟨hserves', hne⟩ := serves_of_loopStep hparams hact hgood hserves
  refine ⟨hs.coherent.step h, (created_of_loopStep hact).2, hframe.tables ▸ hs.pat,
    fun _ => hserves', ?_⟩
  have hcommands := loopStep_commands hact
  cases hs.phase with
  | returned hl => exact absurd hl (not_exited_of_loopStep hact _)
  | asked hflag hl hk =>
    obtain ⟨c', hl₁, hup, hl', hsame⟩ | ⟨c', hl', -⟩ | ⟨c', q, -, hl', -⟩ | ⟨c', hl', -⟩ |
      ⟨c', q, hl', -⟩ | ⟨-, hl', -, hsame⟩ := hcommands
    · -- the flag that is up is the one of the request
      obtain rfl : c' = c := by simpa [hflag] using hup
      have hflag' : ∀ c₁, s'.strPrm.flag c₁ = decide (c₁ = c') := fun c₁ =>
        (hsame.flag c₁).trans (hflag c₁)
      have hk' := hsame.prCounter.trans hk
      cases c' with
      | change => exact .switching .bgd hflag' (by simp) hl' hk' trivial
      | next => exact .counting hflag' hl' hk'
      | previous => exact .counting hflag' hl' hk'
    · exact absurd hl' (hl c' _)
    · exact absurd hl' (hl c' q)
    · exact absurd hl' (hl c' _)
    · exact absurd hl' (hl c' q)
    · exact .asked (fun c' => (hsame.flag c').trans (hflag c')) hl' (hsame.prCounter.trans hk)
  | counting hflag hl hk =>
    have hin : ¬ s.loop.Outside := fun houtside => houtside _ _ hl
    obtain ⟨c', hl₁, -⟩ | ⟨c', hl₁, hl', hprm, hcount⟩ | ⟨c', q, -, hl₁, hq, -⟩ | ⟨c', hl₁, -⟩ |
      ⟨c', q, -, hl₁, -⟩ | ⟨houtside, -⟩ := hcommands
    · cases hl.symm.trans hl₁
    · cases hl.symm.trans hl₁
      rw [hk, hs.pat.pmtCount] at hcount
      exact .switching .bgd (fun c₁ => by rw [hprm, hflag]) (by simp) hl' hcount trivial
    · cases hl.symm.trans hl₁
      exact absurd rfl hq
    · cases hl.symm.trans hl₁
    · exact absurd hl₁ hne
    · exact absurd houtside hin
  | switching q hflag hq hl hj hm =>
    have hstep : switchStep params a c s q = some s' := by simpa [Zapper.loopStep, hl] using hact
    rw [hl] at hserves
    obtain ⟨hmid, hsettled⟩ := midway_of_switchStep hparams hstep hserves hm hne
    obtain ⟨c', hl₁, -⟩ | ⟨c', hl₁, -⟩ | ⟨c', q₁, q', hl₁, -, hl', hq', hsame⟩ |
      ⟨c', hl₁, hl', hprm, hcounter⟩ | ⟨c', q', -, hl₁, -⟩ | ⟨houtside, -⟩ := hcommands
    · cases hl.symm.trans hl₁
    · cases hl.symm.trans hl₁
      exact absurd rfl hq
    · cases hl.symm.trans hl₁
      exact .switching q' (fun c₁ => (hsame.flag c₁).trans (hflag c₁)) hq' hl'
        (hsame.prCounter.trans hj) (hmid q' hl')
    · cases hl.symm.trans hl₁
      refine .served (fun c₁ => ?_) ?_ (hcounter.trans hj) (hsettled rfl)
      · rw [hprm]
        rcases eq_or_ne c₁ c with rfl | hc
        · exact StreamParams.flag_clear_self _ _
        · rw [StreamParams.flag_clear_of_ne _ hc, hflag, decide_eq_false hc]
      · rw [hl']
        cases c <;> simp [LoopPc.Outside, Command.following]
    · exact absurd hl₁ hne
    · exact absurd hl (houtside _ _)
  | served hflag hl hj hset =>
    obtain ⟨c', -, hup, -⟩ | ⟨c', hl', -⟩ | ⟨c', q, -, hl', -⟩ | ⟨c', hl', -⟩ | ⟨c', q, hl', -⟩ |
      ⟨-, hl', -, hsame⟩ := hcommands
    · simp [hflag c'] at hup
    · exact absurd hl' (hl c' _)
    · exact absurd hl' (hl c' q)
    · exact absurd hl' (hl c' _)
    · exact absurd hl' (hl c' q)
    · have hplayer := player_of_loopStep_outside hact hl
      have hselected : s'.selected = s.selected := by
        rw [State.selected, State.selected, hframe.tables, hsame.prCounter]
      refine .served (fun c' => (hsame.flag c').trans (hflag c')) hl'
        (hsame.prCounter.trans hj) (hset.congr ?_ hsame.prCounter hselected)
      rw [State.playerSide, State.playerSide, hplayer, hsame.prCounter]

/-- The other actors, as long as they ask for no other program. -/
private theorem other (hs : Segment params bcast t c k s) (h : step params s l = some s')
    (hl : ∀ a, l ≠ .loop a) (hb : l.Broadcast bcast) (hu : Undisturbed bcast s l) :
    Segment params bcast t c k s' := by
  have hpat := samePat_of_step h hb
  have hsame := sameCommands_of_undisturbed hs.coherent hs.created h hl hu
  have hloop : s'.loop = s.loop ∨
      (l = .signal ∧ ∃ c, s.loop = .switch c .waiting ∧ s'.loop = .switch c .createVideo) := by
    obtain ⟨a, ha, -⟩ | hl' | ⟨a, -, hm, -⟩ | ⟨c, hl', hl''⟩ := loop_of_step h
    · exact absurd ha (hl a)
    · exact .inl hl'
    · exact absurd (hs.coherent.notCreated (by rw [hm])) hs.created
    · exact .inr ⟨signal_of_woken hs.coherent h hl' hl'', c, hl', hl''⟩
  have hcreated : s'.loop ≠ .notCreated := by
    obtain hl' | ⟨-, c', -, hl'⟩ := hloop
    · exact hl' ▸ hs.created
    · simp [hl']
  by_cases hreturned : s.loop = .exited .noError
  · -- nothing is said about the player once the stream thread has returned
    have hl' : s'.loop = .exited .noError := by
      obtain hl' | ⟨-, c', hl', -⟩ := hloop
      · exact hl'.trans hreturned
      · cases hreturned.symm.trans hl'
    exact ⟨hs.coherent.step h, hcreated, hs.pat.trans hpat, fun hne => absurd hl' hne,
      .returned hl'⟩
  have hplayer := player_of_step hs.coherent hs.created hreturned h hl
  have hserves := hs.serves hreturned
  have hserves' : s'.player.Serves s'.loop.demand := by
    have hdemand : s'.loop.demand = s.loop.demand := by
      obtain hl' | ⟨-, c', hl', hl''⟩ := hloop
      · rw [hl']
      · rw [hl', hl'']
        rfl
    rw [hdemand]
    obtain hp | ⟨v, hp⟩ := hplayer
    · rwa [hp]
    · rw [hp]
      exact hserves.withVolume
  have hside : s'.playerSide = s.playerSide := by
    obtain hp | ⟨v, hp⟩ := hplayer <;> simp [State.playerSide, hp, hsame.prCounter]
  have hselected := selected_of_step h hb hsame.prCounter
  have htableId : s'.selected.tableId = s.selected.tableId := by
    rw [State.selected, State.selected, hsame.prCounter]
    exact hpat.tableId _
  have hflag : (∀ c', s.strPrm.flag c' = decide (c' = c)) →
      ∀ c', s'.strPrm.flag c' = decide (c' = c) := fun hf c' => (hsame.flag c').trans (hf c')
  refine ⟨hs.coherent.step h, hcreated, hs.pat.trans hpat, fun _ => hserves', ?_⟩
  cases hs.phase with
  | returned hl' => exact absurd hl' hreturned
  | asked hf hout hk =>
    obtain hl' | ⟨-, c', hl', -⟩ := hloop
    · exact .asked (hflag hf) (hl' ▸ hout) (hsame.prCounter.trans hk)
    · exact absurd hl' (hout _ _)
  | counting hf hl₁ hk =>
    obtain hl' | ⟨-, c', hl', -⟩ := hloop
    · exact .counting (hflag hf) (hl'.trans hl₁) (hsame.prCounter.trans hk)
    · cases hl₁.symm.trans hl'
  | switching q hf hq hl₁ hj hm =>
    obtain hl' | ⟨hsignal, c', hl', hl''⟩ := hloop
    · exact .switching q (hflag hf) hq (hl'.trans hl₁) (hsame.prCounter.trans hj)
        (hm.congr hside htableId hselected)
    · -- the wait is over: it has been answered
      cases hl₁.symm.trans hl'
      have hanswered := hu.answered hsignal (by rw [hl']; rfl)
      have hm' : Midway params bcast s .createVideo := ⟨hm, hanswered⟩
      exact .switching .createVideo (hflag hf) (by simp) hl'' (hsame.prCounter.trans hj)
        (hm'.congr hside htableId hselected)
  | served hf hout hj hset =>
    obtain hl' | ⟨-, c', hl', -⟩ := hloop
    · exact .served (fun c' => (hsame.flag c').trans (hf c')) (hl' ▸ hout)
        (hsame.prCounter.trans hj) (hset.congr hside hsame.prCounter (hselected hset.answered))
    · exact absurd hl' (hout _ _)

/-- **The step lemma.** -/
theorem step (hs : Segment params bcast t c k s) (hparams : params.KnownTypes)
    (h : Zapper.step params s l = some s') (hb : l.Broadcast bcast)
    (hu : Undisturbed bcast s l) : Segment params bcast t c k s' := by
  by_cases hl : ∀ a, l ≠ .loop a
  · exact hs.other h hl hb hu
  · obtain ⟨a, rfl⟩ : ∃ a, l = .loop a := by simpa using hl
    exact hs.loopStep hparams h hu.good

end Segment

/-! ### Requests, one after the other -/

/-- A request is made at the head of the loop and served: the stream thread is back at the head
of the loop, and no command is pending. -/
def Request.Served (params : ConfigParams) (bcast : ℕ → Buffer) (r : Request) (s s' : State) :
    Prop :=
  ∃ ls, exec (step params) (r.apply s) ls = some s' ∧ s'.loop = .head ∧ s'.Consumed ∧
    Meets (step params) (Undisturbed bcast) (r.apply s) ls ∧ ∀ l ∈ ls, l.Broadcast bcast

/-- Requests are made and served, each before the next one is made. -/
def ServedAll (params : ConfigParams) (bcast : ℕ → Buffer) : List Request → State → State → Prop
  | [], s, s' => s' = s
  | r :: rs, s, s' => ∃ u, r.Served params bcast s u ∧ ServedAll params bcast rs u s'

/-- The stream thread is at the head of its loop, with nothing to do. -/
structure AtHead (t : Tables) (s : State) : Prop where
  coherent : s.Coherent
  head : s.loop = .head
  idle : s.Consumed
  pat : SamePat t s.tables
  serves : s.player.Serves ⟨true, false, false⟩

/-- A request that does not ask for the program that is selected already. -/
def Request.Moves (k : ℕ) : Request → Prop
  | .change program => program ≠ k
  | _ => True

namespace AtHead

variable {t : Tables} {r : Request}

/-- A request has been made. -/
private theorem asked (hs : AtHead t s) (hr : r.Moves s.prCounter) :
    Segment params bcast t r.command (r.counter s.prCounter) (r.apply s) := by
  have hc := hs.coherent
  have hloop := hs.head
  cases r with
  | change program =>
    have happly : Request.apply s (.change program) =
        { s with strPrm := { s.strPrm with changeProgram := true }, prCounter := program } :=
      if_pos hr
    rw [happly]
    refine ⟨⟨hc.registered, hc.inCallback, hc.created, hc.running, hc.joined, hc.tuning⟩,
      by simp [hloop], hs.pat, fun _ => by rw [hloop]; exact hs.serves,
      .asked (fun c' => ?_) (by simp [hloop, LoopPc.Outside]) rfl⟩
    have hidle := hs.idle c'
    cases c' <;> first | rfl | exact hidle
  | _ =>
    have hserves : s.player.Serves s.loop.demand := by rw [hloop]; exact hs.serves
    refine ⟨⟨hc.registered, hc.inCallback, hc.created, hc.running, hc.joined, hc.tuning⟩,
      by simp [Request.apply, hloop], hs.pat, fun _ => hserves,
      .asked (fun c' => ?_) (by simp [Request.apply, hloop, LoopPc.Outside]) rfl⟩
    have hidle := hs.idle c'
    cases c' <;> first | rfl | exact hidle

/-- **A request that is served** settles the player side for the program it leads to, whatever
was selected before. -/
theorem served (hs : AtHead t s) (hparams : params.KnownTypes) (hr : r.Moves s.prCounter)
    (h : r.Served params bcast s s') :
    AtHead t s' ∧ Settled params bcast s' ∧
      s'.prCounter = r.command.count (r.counter s.prCounter) t.pat.pmtCount := by
  obtain ⟨ls, hrun, hhead, hidle, hu, hb⟩ := h
  have hend := (always_of_step (hs.asked hr) (hu.and (meets_of_forall hb))
    fun _ _ _ hs hC h => Segment.step hs hparams h hC.2 hC.1).exec hrun
  have hserves := hend.serves (by simp [hhead])
  rw [hhead] at hserves
  refine ⟨⟨hend.coherent, hhead, hidle, hend.pat, hserves⟩, ?_⟩
  cases hend.phase with
  | returned hl => cases hhead.symm.trans hl
  | asked hflag => simpa [hidle r.command] using hflag r.command
  | counting _ hl => cases hhead.symm.trans hl
  | switching q _ _ hl => cases hhead.symm.trans hl
  | served _ _ hj hset => exact ⟨hset, hj⟩

/-- **Moves to the next or the previous program**, each served: the last one settles the player
side. -/
theorem servedAll_replicate (hs : AtHead t s) (hparams : params.KnownTypes)
    {n m d : ℕ} (hn : t.pat.pmtCount = n) (hlt : s.prCounter < n)
    (hr : ∀ k, r.Moves k ∧ (k < n → r.command.count (r.counter k) n = (k + m) % n))
    (h : ServedAll params bcast (List.replicate d r) s s') :
    AtHead t s' ∧ s'.prCounter = (s.prCounter + d * m) % n ∧ (d ≠ 0 → Settled params bcast s') := by
  induction d generalizing s with
  | zero =>
    obtain rfl : s' = s := h
    exact ⟨hs, by rw [Nat.zero_mul, Nat.add_zero, Nat.mod_eq_of_lt hlt], fun h => absurd rfl h⟩
  | succ d ih =>
    obtain ⟨u, hu, hrest⟩ := h
    obtain ⟨hu, hset, hcounter⟩ := hs.served hparams (hr _).1 hu
    rw [hn, (hr _).2 hlt] at hcounter
    have hult : u.prCounter < n := hcounter ▸ Nat.mod_lt _ (by omega)
    obtain ⟨hs', hcounter', hset'⟩ := ih hu hult hrest
    refine ⟨hs', ?_, fun _ => ?_⟩
    · rw [hcounter', hcounter, Nat.mod_add_mod, Nat.succ_mul, Nat.add_assoc, Nat.add_comm m]
    · rcases eq_or_ne d 0 with rfl | hd
      · obtain rfl : s' = u := hrest
        exact hset
      · exact hset' hd

end AtHead

/-- The player side of a settled state is that of the selected program. -/
theorem Settled.unique (hs : Settled params bcast s) (hs' : Settled params bcast s')
    (hcounter : s'.prCounter = s.prCounter) (hprNum : s'.selected.prNum = s.selected.prNum)
    (htableId : s'.selected.tableId = s.selected.tableId) : s'.playerSide = s.playerSide := by
  obtain ⟨fuel, hparse⟩ := hs.answered
  obtain ⟨fuel', hparse'⟩ := hs'.answered
  have hsame : s'.selected = s.selected := by
    rw [← hprNum] at hparse
    have hcongr := parsePMT_congr fuel (bcast s'.selected.prNum) s.selected s'.selected
    rw [hparse, Option.map_some, hprNum, htableId] at hcongr
    rw [hprNum] at hparse'
    exact parsePMT_unique hparse' hcongr
  rw [hs.side, hs'.side, hcounter, hsame]

/-- **Three ways to a program** in the runs of `Stream/System`. -/
theorem AtHead.playerSide_eq (hstart : AtHead s.tables s) (hparams : params.KnownTypes)
    (hcount : s.tables.pat.pmtCount < 2 ^ 32) {n c k d e : ℕ} (hn : s.tables.pat.pmtCount = n)
    (hc : s.prCounter = c) (hcn : c < n) (hk : k < n) (hne : k ≠ c) (hd : (c + d) % n = k)
    (he : ((c : ℤ) - e) % n = k) {s₁ s₂ s₃ : State}
    (h₁ : (Request.change k).Served params bcast s s₁)
    (h₂ : ServedAll params bcast (List.replicate d .next) s s₂)
    (h₃ : ServedAll params bcast (List.replicate e .previous) s s₃) :
    s₁.playerSide = s₂.playerSide ∧ s₁.playerSide = s₃.playerSide ∧ s₁.prCounter = k ∧
      s₁.playerSide.filters.length = 1 := by
  subst hn hc
  obtain ⟨hs₁, hset₁, hk₁⟩ := hstart.served hparams (r := .change k) hne h₁
  obtain ⟨hs₂, hk₂, hset₂⟩ := hstart.servedAll_replicate (r := .next) (m := 1) hparams rfl hcn
    (fun k => ⟨trivial, fun hk => Command.count_next hk hcount⟩) h₂
  obtain ⟨hs₃, hk₃, hset₃⟩ := hstart.servedAll_replicate (r := .previous)
    (m := s.tables.pat.pmtCount - 1) hparams rfl hcn
      (fun k => ⟨trivial, fun hk => Command.count_previous hk hcount⟩) h₃
  have he' : (s.prCounter + e * (s.tables.pat.pmtCount - 1)) % s.tables.pat.pmtCount = k := by
    have hmod : ((s.prCounter : ℤ) + e * (s.tables.pat.pmtCount - 1 : ℕ)) %
        s.tables.pat.pmtCount = k := by
      rw [← he, Nat.cast_sub (by omega)]
      have hsplit : (s.prCounter : ℤ) + e * ((s.tables.pat.pmtCount : ℤ) - (1 : ℕ)) =
          (s.prCounter : ℤ) - e + e * s.tables.pat.pmtCount := by push_cast; ring
      rw [hsplit, Int.add_mul_emod_self_right]
    exact_mod_cast hmod
  rw [Nat.mul_one, hd] at hk₂
  rw [he'] at hk₃
  have hk₁ : s₁.prCounter = k := hk₁
  -- the slots of program `k` have the same program number and PID in all three states
  have hsame : ∀ {u v : State}, AtHead s.tables u → AtHead s.tables v → u.prCounter = k →
      v.prCounter = k → Settled params bcast u → Settled params bcast v →
        v.playerSide = u.playerSide := by
    intro u v hu hv huk hvk hset hset'
    refine hset.unique hset' (hvk.trans huk.symm) ?_ ?_
    · rw [State.selected, State.selected, huk, hvk, hv.pat.prNum, hu.pat.prNum]
    · rw [State.selected, State.selected, huk, hvk, hv.pat.tableId, hu.pat.tableId]
  refine ⟨hsame hs₂ hs₁ hk₂ hk₁ (hset₂ ?_) hset₁, hsame hs₃ hs₁ hk₃ hk₁ (hset₃ ?_) hset₁, hk₁, ?_⟩
  · rintro rfl
    rw [Nat.add_zero, Nat.mod_eq_of_lt hcn] at hd
    exact hne hd.symm
  · rintro rfl
    rw [Nat.zero_mul, Nat.add_zero, Nat.mod_eq_of_lt hcn] at he'
    exact hne he'.symm
  · rw [hset₁.side]
    rfl

/-! ### While sections are being stored -/

theorem State.Coherent.withSlot {j : ℕ} {f : PMT → PMT} (hs : s.Coherent) :
    (s.withSlot j f).Coherent :=
  ⟨hs.registered, hs.inCallback, hs.created, hs.running, hs.joined, hs.tuning⟩

theorem Booked.withSlot {j : ℕ} {f : PMT → PMT} (hs : Booked s) : Booked (s.withSlot j f) :=
  hs.imp (fun hs => ⟨hs.coherent.withSlot, hs.main, hs.loop, hs.accepted, hs.created, hs.tuner⟩) id

namespace StoringState

variable {x y : StoringState} {r : Request}

/-- The request has been made. -/
def apply (x : StoringState) (r : Request) : StoringState := { x with zapper := r.apply x.zapper }

/-- A request is made at the head of the loop and served, as in `Request.Served`, by steps that meet
a condition. -/
def Serves (params : ConfigParams) (C : StoringState → Label → Prop) (bcast : ℕ → Buffer)
    (r : Request) (x y : StoringState) : Prop :=
  ∃ ls, exec (step params) (x.apply r) ls = some y ∧ y.zapper.loop = .head ∧
    y.zapper.Consumed ∧ Meets (step params)
      (fun x l => C x l ∧ (x.isStore l = false → Undisturbed bcast x.zapper l)) (x.apply r) ls ∧
        ∀ l ∈ ls, l.Broadcast bcast

/-- Requests are made and served, each before the next one is made. -/
def ServesAll (params : ConfigParams) (C : StoringState → Label → Prop) (bcast : ℕ → Buffer) :
    List Request → StoringState → StoringState → Prop
  | [], x, y => y = x
  | r :: rs, x, y => ∃ z, Serves params C bcast r x z ∧ ServesAll params C bcast rs z y

/-- What the stores that are due do not touch. -/
theorem settled_same (x : StoringState) : x.settled.loop = x.zapper.loop ∧
    x.settled.strPrm = x.zapper.strPrm ∧ x.settled.prCounter = x.zapper.prCounter ∧
      x.settled.player = x.zapper.player ∧
        x.settled.tables.pat.pmtCount = x.zapper.tables.pat.pmtCount := by
  obtain ⟨-, hx⟩ | ⟨-, f, -, hx⟩ := x.settled_cases <;> rw [hx] <;>
    exact ⟨rfl, rfl, rfl, rfl, rfl⟩

theorem Sane.apply (hx : x.Sane) (r : Request) : (x.apply r).Sane := by
  have hsame : (r.apply x.zapper).inCallback = x.zapper.inCallback := by
    cases r with
    | change program =>
      rw [Request.apply, changeProgram]
      split <;> rfl
    | _ => rfl
  exact fun hne => hsame.trans (hx hne)

theorem settled_apply (hr : r.Moves x.zapper.prCounter) :
    (x.apply r).settled = r.apply x.settled := by
  by_cases hnil : x.stores = []
  · rw [settled_of_nil hnil]
    exact settled_of_nil hnil
  · rw [settled_of_ne hnil, settled_of_ne (x := x.apply r) hnil]
    cases r with
    | change program =>
      have happly : ∀ s : State, s.prCounter = x.zapper.prCounter →
          Request.apply s (.change program) = { s with
              strPrm := { s.strPrm with changeProgram := true }
              prCounter := program } := fun s hs => if_pos (hs ▸ hr)
      exact (congrArg (State.withSlot · x.slot _) (happly x.zapper rfl)).trans
        (happly (x.zapper.withSlot x.slot fun pmt => x.stores.foldl PmtStore.apply pmt) rfl).symm
    | _ => rfl

theorem undisturbed_settled (hstore : x.isStore l = false) (h : Undisturbed bcast x.zapper l) :
    Undisturbed bcast x.settled l := by
  obtain ⟨-, hx⟩ | ⟨hne, f, -, hx⟩ := x.settled_cases
  · rwa [hx]
  · rw [hx]
    refine ⟨?_, h.idle, ?_⟩
    · have hgood := h.good
      cases l <;> exact hgood
    · rintro rfl
      exact absurd (by simpa [isStore] using hstore) hne

/-- A request that is served is served in `Stream/System`. -/
theorem Serves.settled (hx : x.Sane) (hr : r.Moves x.zapper.prCounter)
    (h : Serves params ReadsWhole bcast r x y) :
    y.Sane ∧ r.Served params bcast x.settled y.settled := by
  obtain ⟨ls, hrun, hhead, hidle, hu, hb⟩ := h
  have hmeets := hu.mono fun z l hz =>
    show z.ReadsWhole l ∧ (z.isStore l = false → Undisturbed bcast z.settled l) from
      ⟨hz.1, fun hstore => undisturbed_settled hstore (hz.2 hstore)⟩
  obtain ⟨hy, ks, hsub, hks, hD⟩ := (simulates params _).exec (hx.apply r) hmeets hrun
  obtain ⟨hloop, hprm, -⟩ := y.settled_same
  rw [settled_apply hr] at hks hD
  exact ⟨hy, ks, hks, hloop.trans hhead, fun c => by rw [hprm]; exact hidle c, hD,
    fun l hl => hb l (hsub.subset hl)⟩

/-- Requests that never ask for the selected program. -/
theorem ServesAll.settled {rs : List Request} (hx : x.Sane) (hrs : ∀ r ∈ rs, ∀ k, r.Moves k)
    (h : ServesAll params ReadsWhole bcast rs x y) :
    ServedAll params bcast rs x.settled y.settled := by
  induction rs generalizing x with
  | nil =>
    obtain rfl : y = x := h
    rfl
  | cons r rs ih =>
    obtain ⟨z, hz, hrest⟩ := h
    obtain ⟨hzs, hserved⟩ := hz.settled hx (hrs r (by simp) _)
    exact ⟨z.settled, hserved, ih hzs (fun r hr => hrs r (by simp [hr])) hrest⟩

/-- While the stream thread has a request to serve, the process has not ended. -/
theorem Serves.alive {C : StoringState → Label → Prop} {k : ℕ} (hk : k ≠ x.zapper.prCounter)
    (h : Serves params C bcast (.change k) x y) : x.zapper.main.alive = true := by
  obtain ⟨ls, hrun, -, hidle, -⟩ := h
  have happly : Request.apply x.zapper (.change k) = { x.zapper with
      strPrm := { x.zapper.strPrm with changeProgram := true }, prCounter := k } := if_pos hk
  rw [apply, happly] at hrun
  cases ls with
  | nil =>
    obtain rfl := Option.some.inj hrun
    exact absurd (hidle .change) (by simp [StreamParams.flag])
  | cons l ls =>
    obtain ⟨u, hu, -⟩ := Option.bind_eq_some_iff.mp hrun
    have halive := alive_of_step hu
    exact halive

end StoringState

/-- The PMT sections of the sample stream, by program number. -/
def sampleSection (prNum : ℕ) : Buffer :=
  if prNum = 0x101 then withTail firstProgram.pmtSection.bytes fun _ => 0
  else if prNum = 0x102 then withTail secondProgram.pmtSection.bytes fun _ => 0
  else withTail thirdProgram.pmtSection.bytes fun _ => 0

/-- From the head of the loop, a switch to a program of the sample stream, and back to the head:
so many steps up to the wait, and behind the creation of the video stream. -/
def switchTo (p : Program) (upToWait handle behind : ℕ) : List Label :=
  List.replicate upToWait (Label.loop (.ok handle)) ++
    [p.delivery, .signal, .loop (.ok (handle + 1))] ++
    List.replicate behind (Label.loop (.ok (handle + 2)))

/-- `Undisturbed`, as it can be checked. -/
private def undisturbed (x : StoringState) (l : Label) : Bool :=
  decide (GoodAnswers x.zapper l) && l.key.isNone &&
    match l with
    | .signal => x.isStore .signal || !x.zapper.loop.waits ||
        parsePMT 3 (sampleSection x.zapper.selected.prNum) x.zapper.selected =
          some x.zapper.selected
    | _ => true

private theorem undisturbed_sound {x : StoringState} (h : undisturbed x l = true)
    (hstore : x.isStore l = false) : Undisturbed sampleSection x.zapper l := by
  simp only [undisturbed, Bool.and_eq_true, decide_eq_true_eq, Option.isNone_iff_eq_none] at h
  obtain ⟨⟨hgood, hkey⟩, hsignal⟩ := h
  refine ⟨hgood, fun key hk => ?_, ?_⟩
  · rw [hkey] at hk
    cases hk
  · rintro rfl hwaits
    exact ⟨3, by simpa [hwaits, hstore] using hsignal⟩

private theorem broadcast_switchTo {p : Program} {n h m : ℕ}
    (hp : withTail p.pmtSection.bytes (fun _ => 0) =
      sampleSection (programNumber (withTail p.pmtSection.bytes fun _ => 0)))
    (hpmt : ¬ (Delivery.ofBytes 3 p.pmtSection.bytes).IsOf .pat) :
    ∀ l ∈ switchTo p n h m, l.Broadcast sampleSection := by
  intro l hl
  simp only [switchTo, List.mem_append, List.mem_replicate, List.mem_cons, List.not_mem_nil,
    or_false] at hl
  obtain (⟨-, rfl⟩ | rfl | rfl | rfl) | ⟨-, rfl⟩ := hl
  · trivial
  · exact ⟨hpmt, fun _ => hp⟩
  · trivial
  · trivial
  · trivial

/-- The state at the end of a run behind a request. -/
private def afterRequest (r : Request) (ls : List Label) (x : StoringState) : StoringState :=
  (exec (StoringState.step (configIni 1)) (x.apply r) ls).getD x

/-- The steps of a switch that nothing disturbs. -/
private def servingRun (r : Request) (x : StoringState) (ls : List Label) : List Label :=
  storingRun (configIni 1) (r.apply x.zapper) ls

private theorem serves_afterRequest {C : StoringState → Label → Prop} {r : Request}
    {ls : List Label} {x : StoringState}
    (hrun : (exec (StoringState.step (configIni 1)) (x.apply r) ls).map
        (fun y => (y.zapper.loop, y.zapper.strPrm)) =
          some (.head, ⟨false, false, false, false, false⟩))
    (hC : Meets (StoringState.step (configIni 1)) C (x.apply r) ls)
    (hu : Meets (StoringState.step (configIni 1)) (fun x l => undisturbed x l = true)
      (x.apply r) ls)
    (hb : ∀ l ∈ ls, l.Broadcast sampleSection) :
    StoringState.Serves (configIni 1) C sampleSection r x (afterRequest r ls x) := by
  obtain ⟨y, hy, hobs⟩ := Option.map_eq_some_iff.mp hrun
  simp only [Prod.mk.injEq] at hobs
  have hafter : afterRequest r ls x = y := by rw [afterRequest, hy, Option.getD_some]
  refine ⟨_, by rw [hafter]; exact hy, by rw [hafter]; exact hobs.1, fun c => ?_,
    (hC.and hu).mono fun _ _ h => ⟨h.1, undisturbed_sound h.2⟩, hb⟩
  rw [hafter, hobs.2]
  cases c <;> rfl

private theorem broadcast_servingRun {r : Request} {x : StoringState} {ls : List Label}
    (hb : ∀ l ∈ ls, l.Broadcast sampleSection) :
    ∀ l ∈ servingRun r x ls, l.Broadcast sampleSection := by
  intro l hl
  obtain hl | rfl := mem_storingRun hl
  · exact hb l hl
  · trivial

/-- The head of the loop, with the first of three programs on. -/
private def firstOn : StoringState :=
  (exec (StoringState.step (configIni 1)) .powerOn
    (storingRun (configIni 1) .powerOn (wholeRun.take 34))).getD .powerOn

private theorem exec_firstOn : exec (StoringState.step (configIni 1)) .powerOn
    (storingRun (configIni 1) .powerOn (wholeRun.take 34)) = some firstOn ∧
      firstOn.zapper.loop = .head ∧ firstOn.zapper.Consumed ∧ firstOn.zapper.prCounter = 0 ∧
        firstOn.zapper.tables.pat.pmtCount = 3 := by
  have hstart : ((exec (StoringState.step (configIni 1)) .powerOn
      (storingRun (configIni 1) .powerOn (wholeRun.take 34))).map fun x =>
        (x.zapper.loop, x.zapper.strPrm, x.zapper.prCounter, x.zapper.tables.pat.pmtCount)) =
          some (.head, ⟨false, false, false, false, false⟩, 0, 3) := by decide +kernel
  obtain ⟨x, hx, hobs⟩ := Option.map_eq_some_iff.mp hstart
  simp only [Prod.mk.injEq] at hobs
  obtain ⟨hhead, hprm, hcounter, hcount⟩ := hobs
  have hx' : firstOn = x := by rw [firstOn, hx, Option.getD_some]
  rw [hx']
  exact ⟨hx, hhead, fun c => by rw [hprm]; cases c <;> rfl, hcounter, hcount⟩

private theorem broadcast_second {n h m : ℕ} :
    ∀ l ∈ switchTo secondProgram n h m, l.Broadcast sampleSection :=
  broadcast_switchTo (by rw [show programNumber (withTail secondProgram.pmtSection.bytes
    fun _ => 0) = 0x102 by decide +kernel]; rfl) (by decide +kernel)

private theorem broadcast_third {n h m : ℕ} :
    ∀ l ∈ switchTo thirdProgram n h m, l.Broadcast sampleSection :=
  broadcast_switchTo (by rw [show programNumber (withTail thirdProgram.pmtSection.bytes
    fun _ => 0) = 0x103 by decide +kernel]; rfl) (by decide +kernel)

private theorem servesAll_next {C : StoringState → Label → Prop}
    (hC : ∀ x l, x.ReadsWhole l → C x l) :
    StoringState.ServesAll (configIni 1) C sampleSection (List.replicate 1 .next) firstOn
      (afterRequest .next (servingRun .next firstOn (switchTo secondProgram 10 8 6)) firstOn) := by
  have hmeets : Meets (StoringState.step (configIni 1)) StoringState.ReadsWhole
      (firstOn.apply .next) (servingRun .next firstOn (switchTo secondProgram 10 8 6)) := by
    decide +kernel
  exact ⟨_, serves_afterRequest (by decide +kernel) (hmeets.mono hC) (by decide +kernel)
    (broadcast_servingRun broadcast_second), rfl⟩

/-- From the first of three programs one step back. -/
private def thirdOn : StoringState :=
  afterRequest .previous (servingRun .previous firstOn (switchTo thirdProgram 11 8 8)) firstOn

private theorem servesAll_previous {C : StoringState → Label → Prop}
    (hC : ∀ x l, x.ReadsWhole l → C x l) :
    StoringState.ServesAll (configIni 1) C sampleSection (List.replicate 2 .previous) firstOn
      (afterRequest .previous (servingRun .previous thirdOn (switchTo secondProgram 11 12 5))
        thirdOn) := by
  have h₁ : Meets (StoringState.step (configIni 1)) StoringState.ReadsWhole
      (firstOn.apply .previous) (servingRun .previous firstOn (switchTo thirdProgram 11 8 8)) := by
    decide +kernel
  have h₂ : Meets (StoringState.step (configIni 1)) StoringState.ReadsWhole
      (thirdOn.apply .previous)
      (servingRun .previous thirdOn (switchTo secondProgram 11 12 5)) := by
    decide +kernel
  exact ⟨thirdOn, serves_afterRequest (by decide +kernel) (h₁.mono hC) (by decide +kernel)
      (broadcast_servingRun broadcast_third),
    _, serves_afterRequest (by decide +kernel) (h₂.mono hC) (by decide +kernel)
      (broadcast_servingRun broadcast_second), rfl⟩

/-- The section of the second program comes again right behind the signal, and `stream_loop` goes
on between its third and its fourth store. -/
private def overtakingRun : List Label :=
  List.replicate 8 (Label.loop (.ok 8)) ++
    [secondProgram.delivery, .signal, .signal, .signal, .signal, .signal, .signal,
      secondProgram.delivery, .signal, .signal, .signal] ++
    List.replicate 8 (Label.loop (.ok 9)) ++ [.signal, .signal, .signal]

end Zapper
