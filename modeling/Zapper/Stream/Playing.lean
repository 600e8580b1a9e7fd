import Zapper.Section.Reception
import Zapper.Stream.Bookkeeping
import Zapper.Stream.EarlyKeys
import Zapper.Stream.Stores

/-!
# What is played

What the zapper is for: the streams that the player decodes are those of the program that has been
selected. The switch block takes the PIDs from the slot of the PAT that `pr_counter` points to, and
the slot holds what `parse_PMT` made of some section; a digit key changes `pr_counter` at once and
the streams later.

`Airs` says what is on the air, as the elementary streams of each program, and `Regular` collects
the conditions of a run: the sections of a program all list its elementary streams, and come in time
for the waits; the calls of the player succeed. In such runs the live streams at the head of the
loop are the first video and the first audio stream of the selected program, unless a digit key is
pending (`playsSelected`). `parse_PMT` clears a slot before it fills it, so nobody may read the PIDs
of a slot in between.
-/

namespace Zapper

open Memory Transition

variable {params : ConfigParams} {a : Answer} {s s' : State} {l : Label} {p p' : Player}

/-! ### Live streams -/

/-- The PIDs and types of the live streams of a kind. -/
def Pe.shown (pe : Pe) (video : Bool) : List (ℕ × ℕ) :=
  (pe.streams.filter fun st => st.video = video).map fun st => (st.pid, st.type)

theorem Pe.shown_eq_nil {pe : Pe} {video : Bool} (h : pe.live video = []) :
    pe.shown video = [] := by
  rw [live, List.map_eq_nil_iff] at h
  rw [shown, h, List.map_nil]

/-- The stream that is created for a PID. -/
def streamOf (pid type : ℕ) : List (ℕ × ℕ) := if pid = noPid then [] else [(pid, type)]

/-- Creating the video stream. -/
theorem shown_createVideo {pid type : ℕ} (htype : 39 ≤ type)
    (h : p.createVideo a pid type = (.noError, p')) :
    p'.tdp.pe.shown true = p.tdp.pe.shown true ++ streamOf pid (type - 38) ∧
      p'.tdp.pe.shown false = p.tdp.pe.shown false := by
  unfold Player.createVideo at h
  split at h
  · next hpid =>
    split at h
    · next hcall =>
      obtain rfl := (Prod.mk.inj h).2
      unfold Tdp.playerStreamCreate at hcall
      split_ifs at hcall
      all_goals cases hcall
      simp [Pe.shown, streamOf, hpid, List.filter_append]
    · cases h
  · next hpid =>
    obtain rfl := (Prod.mk.inj h).2
    simp [streamOf, not_not.mp hpid]

/-- Creating the audio stream. -/
theorem shown_createAudio {pid type : ℕ} (htype : type < 39)
    (h : p.createAudio a pid type = (.noError, p')) :
    p'.tdp.pe.shown false = p.tdp.pe.shown false ++ streamOf pid type ∧
      p'.tdp.pe.shown true = p.tdp.pe.shown true := by
  unfold Player.createAudio at h
  split at h
  · next hpid =>
    split at h
    · next hcall =>
      obtain rfl := (Prod.mk.inj h).2
      unfold Tdp.playerStreamCreate at hcall
      rw [if_neg (not_le.mpr htype)] at hcall
      split_ifs at hcall
      all_goals cases hcall
      simp [Pe.shown, streamOf, hpid, List.filter_append]
    · cases h
  · next hpid =>
    obtain rfl := (Prod.mk.inj h).2
    simp [streamOf, not_not.mp hpid]

/-! ### On the air -/

/-- The elementary streams of each program, by its number. -/
abbrev Airs := ℕ → List EsEntry

namespace Airs

/-- The first video or audio stream of a program. -/
def pid (air : Airs) (video : Bool) (prNum : ℕ) : ℕ :=
  firstPid (if video then [1, 2] else [3, 4]) (air prNum)

/-- The streams to be played for a program. -/
def streams (params : ConfigParams) (air : Airs) (video : Bool) (prNum : ℕ) : List (ℕ × ℕ) :=
  streamOf (air.pid video prNum) (if video then params.videoType - 38 else params.audioType)

/-- A section, if it is a PMT section, lists the streams of its program. -/
def Sends (air : Airs) (d : Delivery) : Prop :=
  d.IsOf .pmt → ∀ t ∈ parsePMT d.fuel d.buffer default,
    t.videoPid = air.pid true (programNumber d.buffer) ∧
      t.audioPid = air.pid false (programNumber d.buffer)

end Airs

variable {air : Airs}

/-- **A section as it is sent**, with the elementary streams of its program, does so. -/
theorem sends_of_deliveryOf {d : Delivery} {sec : PmtSection} (h : DeliveryOf d sec)
    (hair : sec.entries = air sec.programNumber) : air.Sends d := by
  intro _ t ht
  obtain ⟨t', ht', hdescribes, -⟩ := h.splitsInto.parsePMT h.fuel default
  obtain rfl : t' = t := Option.some.inj (ht'.symm.trans ht)
  rw [hair] at hdescribes
  rw [h.programNumber.1]
  exact ⟨hdescribes.1, hdescribes.2.1⟩

/-- The condition on the sections: those of a program list its streams, and once streams have been
created, no PAT section gives another number to the selected program. -/
def Steady (air : Airs) (s : State) : Label → Prop
  | .deliver d => air.Sends d ∧ (d.IsOf .pat → s.Past (.init .createAudio) →
      ((parsePAT d.patJunk d.buffer).pmts.cell s.prCounter).prNum = s.selected.prNum)
  | _ => True

/-- The streams of a kind are those of the selected program. -/
def Plays (params : ConfigParams) (air : Airs) (video : Bool) (s : State) : Prop :=
  s.player.tdp.pe.shown video = air.streams params video s.selected.prNum

theorem Plays.congr {video : Bool} (h : Plays params air video s)
    (hshown : s'.player.tdp.pe.shown video = s.player.tdp.pe.shown video)
    (hnum : s'.selected.prNum = s.selected.prNum) : Plays params air video s' := by
  rw [Plays, hshown, hnum]
  exact h

theorem lastPmt_mem {j : ℕ} {h : Since} {d : Delivery} (hlast : lastPmt j h = some d) :
    (Stored.slot j, d) ∈ h := by
  induction h with
  | nil => cases hlast
  | cons y h ih =>
    obtain ⟨st, d'⟩ := y
    cases st with
    | pat => cases hlast
    | slot i =>
      simp only [lastPmt] at hlast
      split at hlast
      · next hi =>
        obtain rfl := Option.some.inj hlast
        rw [hi]
        exact List.mem_cons_self
      · exact List.mem_cons_of_mem _ (ih hlast)
    | sdt => exact List.mem_cons_of_mem _ (ih hlast)
    | nothing => exact List.mem_cons_of_mem _ (ih hlast)

/-- What has been delivered since the filter was set is on the air. -/
def Sent (air : Airs) (h : Since) : Prop :=
  ∀ y ∈ h, air.Sends y.2 ∧ ∀ j, y.1 = .slot j → y.2.IsOf .pmt

/-- **A slot that has come in time** holds the PIDs of its program. -/
theorem pids_of_parsed {h : Since} (hparsed : Parsed s h .pmt) (hsent : Sent air h) :
    s.selected.videoPid = air.pid true s.selected.prNum ∧
      s.selected.audioPid = air.pid false s.selected.prNum := by
  obtain ⟨d, hlast, hnum, pmt, hparse⟩ := hparsed
  obtain ⟨hsends, hof⟩ := hsent _ (lastPmt_mem hlast)
  rw [parsePMT_congr d.fuel d.buffer default pmt] at hparse
  obtain ⟨t, ht, hselected⟩ := Option.map_eq_some_iff.mp hparse
  obtain ⟨hvideo, haudio⟩ := hsends (hof _ rfl) t ht
  rw [← hnum, ← hselected]
  exact ⟨hvideo, haudio⟩

/-! ### The places at which the streams are right -/

/-- The streams of a kind have been created for the selected program. -/
def LoopPc.plays (video : Bool) : LoopPc → Bool
  | .switch _ .createAudio => video
  | .switch _ .announce => true
  | .switch _ .armSec => true
  | .switch _ .armNsec => true
  | .switch _ .armSet => true
  | .switch _ .clear => true
  | .test .next => true
  | .test .previous => true
  | .info => true
  | .list => true
  | _ => false

/-- The same for `stream_init`, if no digit key is pending. -/
def MainPc.plays (video : Bool) : MainPc → Bool
  | .init .createVideo => !video
  | .init .createThread => true
  | _ => false

/-- The streams are right only between the creation of the audio stream and that of the thread. -/
theorem MainPc.plays_of_stage {m : MainPc} (h : m.stage ≤ 28 ∨ 30 < m.stage) (video : Bool) :
    m.plays video = false := by
  unfold plays
  split
  · exact absurd h (by decide)
  · exact absurd h (by decide)
  · rfl

/-- The conditions of a run. -/
structure Regular (params : ConfigParams) (air : Airs) (x : State × Since) (l : Label) : Prop where
  steady : Steady air x.1 l
  inTime : KeepsInTime x l
  good : GoodAnswers x.1 l
  init : failsInit params x.1 l = false

/-- The streams are right. -/
structure Tuned (params : ConfigParams) (air : Airs) (s : State) : Prop where
  loop : ∀ video, s.loop.plays video = true → Plays params air video s
  /-- A digit key changes `pr_counter` first. -/
  head : s.loop = .head ∨ s.loop = .test .change → s.strPrm.changeProgram = false →
    ∀ video, Plays params air video s
  main : ∀ video, s.main.plays video = true → s.strPrm.changeProgram = false →
    Plays params air video s

/-- At a place where nothing is said about the streams. -/
theorem Tuned.of_silent (hloop : ∀ video, s.loop.plays video = false) (hhead : s.loop ≠ .head)
    (htest : s.loop ≠ .test .change) (hmain : ∀ video, s.main.plays video = true →
      s.strPrm.changeProgram = false → Plays params air video s) : Tuned params air s :=
  ⟨fun video hp => absurd hp (by simp [hloop]), fun h => absurd h (by simp [hhead, htest]), hmain⟩

/-- The player's bookkeeping, read off at a place behind a removal. -/
theorem shown_of_serves {f x y : Bool} {d : Demand} (hd : d = ⟨f, x, y⟩) (h : p.Serves d) :
    (x = true → p.tdp.pe.shown false = []) ∧ (y = true → p.tdp.pe.shown true = []) := by
  subst hd
  refine ⟨fun hx => ?_, fun hy => ?_⟩
  · subst hx
    exact Pe.shown_eq_nil h.live_audio
  · subst hy
    exact Pe.shown_eq_nil h.live_video

/-- A call of the stream thread that has not failed. -/
theorem loopAssert_eq {r : TError × Player} {pc : LoopPc} (h : some (s.loopAssert r pc) = some s') :
    (∃ p', r = (.noError, p') ∧ s' = { s with player := p', loop := pc }) ∨
      s'.loop = .exited .error := by
  obtain rfl := Option.some.inj h
  obtain ⟨hr, he⟩ | ⟨-, he⟩ := s.loopAssert_cases r pc
  · exact .inl ⟨r.2, Prod.ext hr rfl, he⟩
  · exact .inr (by rw [he])

/-- A step of a switch block. -/
theorem Tuned.switchStep {c : Command} {q : SwitchPc} (hs : Tuned params air s)
    (hparams : params.KnownTypes) (hl : s.loop = .switch c q)
    (hserves : s.player.Serves s.loop.demand)
    (hpids : s.loop.relies = true → s.selected.videoPid = air.pid true s.selected.prNum ∧
      s.selected.audioPid = air.pid false s.selected.prNum)
    (hmain : ∀ video, s'.main.plays video = true → s'.strPrm.changeProgram = false →
      Plays params air video s')
    (h : Zapper.switchStep params a c s q = some s') : Tuned params air s' := by
  have haudio : params.audioType < 39 := by rw [hparams.audio]; decide
  have hvideo : 39 ≤ params.videoType := by rw [hparams.video]; decide
  have hplays : ∀ video, s.loop.plays video = true → Plays params air video s := hs.loop
  rw [hl] at hserves hpids hplays
  -- calls that leave nothing to say
  have hcall : ∀ {r : TError × Player} {pc : LoopPc}, some (s.loopAssert r pc) = some s' →
      (∀ video, pc.plays video = false) → pc ≠ .head → pc ≠ .test .change →
        Tuned params air s' := by
    intro r pc h hpc hhead htest
    obtain ⟨p', -, rfl⟩ | he := loopAssert_eq h
    · exact .of_silent hpc hhead htest hmain
    · exact .of_silent (by simp [he, LoopPc.plays]) (by simp [he]) (by simp [he]) hmain
  cases q with
  | count | bgd =>
    obtain rfl := Option.some.inj h
    exact .of_silent (fun _ => rfl) (by simp) (by simp) hmain
  | removeAudio | removeVideo | freeFilter | setFilter =>
    exact hcall h (fun _ => rfl) (by simp) (by simp)
  | wait =>
    simp only [Zapper.switchStep] at h
    split at h
    · cases h
    · obtain rfl := Option.some.inj h
      exact .of_silent (fun _ => rfl) (by simp) (by simp) hmain
  | waiting => cases h
  | createVideo =>
    obtain ⟨p', hr, rfl⟩ | he := loopAssert_eq h
    · refine ⟨fun video hv => ?_, fun h => by simp at h, hmain⟩
      obtain rfl : video = true := hv
      have hshown := (shown_createVideo hvideo hr).1
      rw [(shown_of_serves rfl hserves).2 rfl, List.nil_append] at hshown
      rw [Plays, hshown, (hpids rfl).1]
      rfl
    · exact .of_silent (by simp [he, LoopPc.plays]) (by simp [he]) (by simp [he]) hmain
  | createAudio =>
    obtain ⟨p', hr, rfl⟩ | he := loopAssert_eq h
    · refine ⟨fun video _ => ?_, fun h => by simp at h, hmain⟩
      obtain ⟨hshown, hsame⟩ := shown_createAudio haudio hr
      cases video with
      | true => exact (hplays true rfl).congr hsame rfl
      | false =>
        rw [(shown_of_serves rfl hserves).1 rfl, List.nil_append] at hshown
        rw [Plays, hshown, (hpids rfl).2]
        rfl
    · exact .of_silent (by simp [he, LoopPc.plays]) (by simp [he]) (by simp [he]) hmain
  | announce =>
    simp only [Zapper.switchStep] at h
    split at h <;> obtain rfl := Option.some.inj h <;>
      exact ⟨fun video _ => hplays video rfl, fun h => by simp at h, hmain⟩
  | armSec | armNsec | armSet =>
    obtain rfl := Option.some.inj h
    exact ⟨fun video _ => hplays video rfl, fun h => by simp at h, hmain⟩
  | clear =>
    obtain rfl := Option.some.inj h
    refine ⟨fun video _ => hplays video rfl, fun h => ?_, hmain⟩
    cases c <;> simp [Command.following] at h

/-- **A step of the stream thread.** -/
theorem Tuned.loopStep (hs : Tuned params air s) (hparams : params.KnownTypes)
    (hserves : s.player.Serves s.loop.demand)
    (hpids : s.loop.relies = true → s.selected.videoPid = air.pid true s.selected.prNum ∧
      s.selected.audioPid = air.pid false s.selected.prNum)
    (hmain : ∀ video, s.main.plays video = false)
    (h : Zapper.loopStep params a s = some s') : Tuned params air s' := by
  have hmain' : ∀ video, s'.main.plays video = true → s'.strPrm.changeProgram = false →
      Plays params air video s' := fun video hm => by
    rw [(loopStep_frame h).main, hmain] at hm
    cases hm
  have hplays : ∀ video, s.loop.plays video = true → Plays params air video s := hs.loop
  cases hl : s.loop with
  | notCreated | exited e => simp [Zapper.loopStep, hl] at h
  | switch c q =>
    exact hs.switchStep hparams hl hserves hpids hmain' (by simpa [Zapper.loopStep, hl] using h)
  | head =>
    simp only [Zapper.loopStep, hl] at h
    split at h <;> obtain rfl := Option.some.inj h
    · exact ⟨fun _ hp => (by cases hp), fun _ hflag video => hs.head (.inl hl) hflag video, hmain'⟩
    · exact .of_silent (fun _ => rfl) (by simp) (by simp) hmain'
  | test c =>
    simp only [Zapper.loopStep, hl] at h
    rw [hl] at hplays
    split at h
    · obtain rfl := Option.some.inj h
      exact .of_silent (by cases c <;> exact fun _ => rfl) (by simp) (by simp) hmain'
    · next hflag =>
      obtain rfl := Option.some.inj h
      refine ⟨fun video _ => ?_, fun h => by cases c <;> simp [Command.following] at h, hmain'⟩
      cases c with
      | change => exact hs.head (.inr hl) (by simpa [StreamParams.flag] using hflag) video
      | next => exact hplays video rfl
      | previous => exact hplays video rfl
  | info | list =>
    simp only [Zapper.loopStep, hl] at h
    rw [hl] at hplays
    split at h <;> obtain rfl := Option.some.inj h <;>
      exact ⟨fun video _ => hplays video rfl, fun _ _ video => hplays video rfl, hmain'⟩

/-- Steps that leave the streams and the selected program alone. -/
theorem Tuned.of_same (hs : Tuned params air s)
    (hloop : s'.loop = s.loop ∨ (∀ video, s'.loop.plays video = false) ∧ s'.loop ≠ .head ∧
      s'.loop ≠ .test .change)
    (hmain : s'.main = s.main ∨ ∀ video, s'.main.plays video = false)
    (hflag : s'.strPrm.changeProgram = false → s.strPrm.changeProgram = false)
    (hplays : ∀ video, Plays params air video s → Plays params air video s') :
    Tuned params air s' := by
  have hmain' : ∀ video, s'.main.plays video = true → s'.strPrm.changeProgram = false →
      Plays params air video s' := fun video hp hf => by
    obtain hm | hm := hmain
    · exact hplays video (hs.main video (hm ▸ hp) (hflag hf))
    · rw [hm] at hp
      cases hp
  obtain hl | ⟨hl, hhead, htest⟩ := hloop
  · refine ⟨fun video hp => hplays video (hs.loop video (hl ▸ hp)), fun hp hf video => ?_, hmain'⟩
    rw [hl] at hp
    exact hplays video (hs.head hp (hflag hf) video)
  · exact .of_silent hl hhead htest hmain'

/-- What the main thread does while there is a stream thread. -/
theorem Tuned.mainStep_created (hs : Tuned params air s) (hcoherent : s.Coherent)
    (hcreated : s.loop ≠ .notCreated) (h : Zapper.mainStep params a s = some s') :
    Tuned params air s' := by
  have hpast := hcoherent.created hcreated
  have hplays : ∀ video, s'.main.plays video = false :=
    MainPc.plays_of_stage (.inr (lt_trans hpast (stage_lt_of_mainStep h)))
  have hloop : s'.loop = s.loop := by
    obtain hl | ⟨hm, -⟩ := loop_of_mainStep h
    · exact hl
    · rw [State.Past, hm] at hpast
      exact absurd hpast (lt_irrefl _)
  by_cases hj : s.Past (.deinit .join)
  · -- the thread has been joined
    have hl := (hcoherent.joined hj (alive_of_mainStep h)).resolve_left hcreated
    rw [hl] at hloop
    exact .of_silent (by simp [hloop, LoopPc.plays]) (by simp [hloop]) (by simp [hloop])
      fun video hp => by rw [hplays] at hp; cases hp
  · have hreset : s.main ≠ .init .reset ∧ s.main ≠ .init .loadCounter := by
      constructor <;> intro hm <;> rw [State.Past, hm] at hpast <;> exact absurd hpast (by decide)
    have hflag : s'.strPrm = s.strPrm := by
      rcases mainStep_writes h with h | ⟨hm, -⟩ | ⟨-, h⟩ | ⟨-, h⟩ | ⟨-, h⟩ | ⟨-, h⟩ |
        ⟨_, _, -, h⟩ | ⟨-, h⟩
      case reset => exact absurd hm hreset.1
      all_goals rw [h]
    have hplayer := player_of_mainStep h hpast.le hj
    have hcounter := prCounter_of_mainStep h
    rw [if_neg hreset.2] at hcounter
    refine hs.of_same (.inl hloop) (.inr hplays) (by rw [hflag]; exact id) fun video hv =>
      hv.congr (by rw [hplayer]) ?_
    rw [State.selected, State.selected, (mainStep_frame h).tables, hcounter]

/-- A call of `stream_init` that has not failed. -/
theorem initAssert_eq {r : TError × Player} {pc : InitPc} (h : some (s.initAssert r pc) = some s')
    (hne : s'.main ≠ .deinit .stop) :
    ∃ p', r = (.noError, p') ∧ s' = { s with player := p', main := .init pc } := by
  obtain rfl := Option.some.inj h
  obtain ⟨hr, he⟩ | ⟨-, he⟩ := s.initAssert_cases r pc
  · exact ⟨r.2, Prod.ext hr rfl, he⟩
  · rw [he] at hne
    exact absurd rfl hne

/-- The main thread comes to a place at which the streams are right by creating one. -/
theorem plays_of_mainStep {video : Bool} (h : mainStep params a s = some s')
    (hp : s'.main.plays video = true) :
    s.main = .init .createAudio ∨ s.main = .init .createVideo := by
  have hn := main_of_mainStep h
  cases hm : s.main with
  | init p =>
    rw [hm] at hn
    obtain hn | hn := hn
    · rw [hn] at hp
      cases p with
      | createAudio => exact .inl rfl
      | createVideo => exact .inr rfl
      | setFilter t | waiting t => cases t <;> cases hp
      | _ => cases hp
    · rw [hn] at hp
      cases hp
  | deinit p =>
    rw [hm] at hn
    obtain hn | hn := hn
    · rw [hn] at hp
      cases p <;> cases hp
    · rw [hn] at hp
      cases hp
  | _ =>
    rw [hm] at hn
    obtain hn | hn := hn
    · rw [hn] at hp
      cases hp
    · rw [hn] at hp
      cases hp

/-- **A step of the main thread.** -/
theorem Tuned.mainStep (hs : Tuned params air s) (hbook : BookInv s) (hparams : params.KnownTypes)
    (hpids : s.main.relies = some .pmt →
      s.selected.videoPid = air.pid true s.selected.prNum ∧
        s.selected.audioPid = air.pid false s.selected.prNum)
    (hinit : ∀ q, s.main = .init q → q.returns = false → s'.main ≠ .deinit .stop)
    (h : Zapper.mainStep params a s = some s') : Tuned params air s' := by
  have haudio : params.audioType < 39 := by rw [hparams.audio]; decide
  have hvideo : 39 ≤ params.videoType := by rw [hparams.video]; decide
  by_cases hcreated : s.loop ≠ .notCreated
  · exact hs.mainStep_created hbook.coherent hcreated h
  rw [not_not] at hcreated
  have hholds := hbook.main
  have hmain := hs.main
  -- there is no stream thread behind the step
  have hquiet : s'.loop = .notCreated → (∀ video, s'.main.plays video = true →
      s'.strPrm.changeProgram = false → Plays params air video s') → Tuned params air s' :=
    fun hl hm => .of_silent (by simp [hl, LoopPc.plays]) (by simp [hl]) (by simp [hl]) hm
  by_cases haudioPc : s.main = .init .createAudio
  · have hq : initStep params a s .createAudio = some s' := by
      simpa [Zapper.mainStep, haudioPc] using h
    rw [haudioPc] at hholds hpids
    obtain ⟨p', hr, rfl⟩ := initAssert_eq hq (hinit _ haudioPc rfl)
    refine hquiet hcreated fun video hp _ => ?_
    obtain rfl : video = false := by simpa [MainPc.plays] using hp
    have hshown := (shown_createAudio haudio hr).1
    rw [(shown_of_serves rfl hholds).1 rfl, List.nil_append] at hshown
    rw [Plays, hshown, (hpids rfl).2]
    rfl
  by_cases hvideoPc : s.main = .init .createVideo
  · have hq : initStep params a s .createVideo = some s' := by
      simpa [Zapper.mainStep, hvideoPc] using h
    rw [hvideoPc] at hholds hpids hmain
    obtain ⟨p', hr, rfl⟩ := initAssert_eq hq (hinit _ hvideoPc rfl)
    refine hquiet hcreated fun video _ hflag => ?_
    obtain ⟨hshown, hsame⟩ := shown_createVideo hvideo hr
    cases video with
    | true =>
      rw [(shown_of_serves rfl hholds).2 rfl, List.nil_append] at hshown
      rw [Plays, hshown, (hpids rfl).1]
      rfl
    | false => exact (hmain false rfl hflag).congr hsame rfl
  have hsilent : ∀ video, s'.main.plays video = true → s'.strPrm.changeProgram = false →
      Plays params air video s' := fun video hp =>
    absurd (plays_of_mainStep h hp) (not_or.mpr ⟨haudioPc, hvideoPc⟩)
  by_cases hthreadPc : s.main = .init .createThread
  · have hq : initStep params a s .createThread = some s' := by
      simpa [Zapper.mainStep, hthreadPc] using h
    rw [hthreadPc] at hmain
    simp only [initStep] at hq
    split at hq <;> obtain rfl := Option.some.inj hq
    · exact ⟨fun _ hp => (by cases hp), fun _ hflag video => hmain video rfl hflag, hsilent⟩
    · exact hquiet hcreated hsilent
  · obtain hl | ⟨hm, -⟩ := loop_of_mainStep h
    · exact hquiet (hl.trans hcreated) hsilent
    · exact absurd hm hthreadPc

/-! ### The steps of the other actors -/

/-- A place at which the stream thread does not hold `stream_params_mutex`. -/
theorem LoopPc.plays_eq_false {pc : LoopPc} (h : pc.holdsParams = false) (video : Bool) :
    pc.plays video = false := by
  cases pc with
  | test c => cases h
  | switch c q => cases h
  | info => cases h
  | list => cases h
  | _ => rfl

/-- A key leaves the streams alone. -/
theorem shown_of_press {k : Key} (h : press a s k = some s') (video : Bool) :
    s'.player.tdp.pe.shown video = s.player.tdp.pe.shown video := by
  obtain hp | ⟨volume, hp⟩ := player_of_press h
  · rw [hp]
  · rw [hp]
    obtain hv | ⟨v, hv⟩ := s.player.setVolume_cases a volume
    · rw [hv]
    · rw [hv]
      rfl

/-- **A key.** A digit key changes the selected program and asks for the change of the streams. -/
theorem Tuned.press {k : Key} (hs : Tuned params air s) (h : Zapper.press a s k = some s') :
    Tuned params air s' := by
  have hframe := press_frame h
  have hmain : s'.main = s.main ∨ ∀ video, s'.main.plays video = false :=
    hframe.main.imp id fun ⟨_, hm⟩ _ => by rw [hm]; rfl
  have hcounter := prCounter_of_press h
  have hsame : (s'.strPrm.changeProgram = false → s.strPrm.changeProgram = false) →
      s'.prCounter = s.prCounter → Tuned params air s' := fun hflag hcounter =>
    hs.of_same (.inl hframe.loop) hmain hflag fun video hv => hv.congr (shown_of_press h video) (by
      rw [State.selected, State.selected, hframe.tables, hcounter])
  cases press_writes h with
  | digit program hw =>
    by_cases hprogram : program = s.prCounter
    · refine hsame (fun hflag => ?_) (hcounter.trans hprogram)
      rwa [hw, changeProgram, if_neg (not_not.mpr hprogram)] at hflag
    · simp only [Zapper.press] at h
      split at h
      · cases h
      · next hfree =>
        have hflag : s'.strPrm.changeProgram = true := by rw [hw, changeProgram, if_pos hprogram]
        have hloop := LoopPc.plays_eq_false (eq_false_of_ne_true hfree)
        refine ⟨fun video hp => ?_, fun _ hf => ?_, fun _ _ hf => ?_⟩
        · rw [hframe.loop, hloop] at hp
          cases hp
        · cases hflag.symm.trans hf
        · cases hflag.symm.trans hf
  | request hk hw | volume hk _ _ _ hw =>
    refine hsame (by rw [hw]; exact id) (hcounter.trans ?_)
    split
    · simp at hk
    · rfl
  | pPlus hw | pMinus hw | back hw | exit _ hw => exact hsame (by rw [hw]; exact id) hcounter

/-- Behind a section, the selected slot is one of the same program. -/
theorem prNum_selected_of_steady {d : Delivery} {t : Tables} (hd : Steady air s (.deliver d))
    (ht : filterCallback d s.tables = some t) (hpast : s.Past (.init .createAudio)) :
    (t.pat.pmts.cell s.prCounter).prNum = s.selected.prNum := by
  by_cases hpat : d.IsOf .pat
  · obtain ⟨-, rfl⟩ | ⟨j, -, hst, -⟩ | ⟨-, hst, -⟩ | ⟨hst, -⟩ := filterCallback_cases ht
    · exact hd.2 hpat hpast
    · cases hst.symm.trans (stored_eq_pat_iff.mpr hpat)
    · cases hst.symm.trans (stored_eq_pat_iff.mpr hpat)
    · cases hst.symm.trans (stored_eq_pat_iff.mpr hpat)
  · exact ((filterCallback_pat ht fun hst => hpat (stored_eq_pat_iff.mp hst)).2.2 _).1

/-- A section is delivered. -/
theorem Tuned.deliver {d : Delivery} (hs : Tuned params air s) (hcoherent : s.Coherent)
    (hd : Steady air s (.deliver d)) (h : sectionStep d s = some s') : Tuned params air s' := by
  obtain ⟨-, -, tables, ht, rfl⟩ := sectionStep_eq_some h
  by_cases hpast : s.Past (.init .createAudio)
  · exact hs.of_same (.inl rfl) (.inl rfl) id fun video hv =>
      hv.congr rfl (prNum_selected_of_steady hd ht hpast)
  · -- no stream has been created yet
    have hstage : s.main.stage ≤ 28 := not_lt.mp hpast
    have hnone := hcoherent.notCreated (hstage.trans (by decide))
    refine .of_silent (by simp [hnone, LoopPc.plays]) (by simp [hnone]) (by simp [hnone])
      fun video hp => ?_
    cases (MainPc.plays_of_stage (.inl hstage) video).symm.trans hp

/-- A signal wakes a thread at a place at which nothing is said about the streams. -/
theorem Tuned.wake (hs : Tuned params air s) : Tuned params air s.wake := by
  have hplays : ∀ video, Plays params air video s → Plays params air video s.wake :=
    fun video hv => hv.congr (by rw [s.wake_player]) (by
      rw [State.selected, State.selected, s.wake_tables, s.wake_prCounter])
  have hflag : s.wake.strPrm.changeProgram = false → s.strPrm.changeProgram = false := by
    rw [s.wake_strPrm]
    exact id
  obtain ⟨-, hm, hl⟩ | ⟨t, -, hm, hl⟩ | ⟨c, -, hm, hl⟩ | ⟨-, -, hm, hl⟩ := s.wake_cases
  · exact hs.of_same (.inl hl) (.inr fun _ => by rw [hm]; rfl) hflag hplays
  · exact hs.of_same (.inl hl) (.inr fun _ => by rw [hm]; cases t <;> rfl) hflag hplays
  · exact hs.of_same (.inr ⟨fun _ => by rw [hl]; rfl, by simp [hl], by simp [hl]⟩) (.inl hm) hflag
      hplays
  · exact hs.of_same (.inl hl) (.inl hm) hflag hplays

/-! ### The invariant -/

/-- The streams are right, and what is needed to keep them so. -/
structure PlayInv (params : ConfigParams) (air : Airs) (x : State × Since) : Prop where
  book : BookInv x.1
  since : SinceInv x
  inTime : InTime x
  sent : Sent air x.2
  tuned : Tuned params air x.1

theorem playInv_powerOn (params : ConfigParams) (air : Airs) :
    PlayInv params air (.powerOn, []) where
  book := bookInv_powerOn
  since := ⟨coherent_powerOn, by simp, by simp, by simp [lastPmt]⟩
  inTime := ⟨fun t ht => (by cases ht), fun hl => (by cases hl)⟩
  sent := by simp [Sent]
  tuned := .of_silent (fun _ => rfl) (by simp [State.powerOn]) (by simp [State.powerOn])
    fun _ hp => (by cases hp)

/-- The history only takes in what is on the air. -/
theorem Sent.step {x y : State × Since} (hx : Sent air x.2) (hl : Steady air x.1 l)
    (h : withHistory (Zapper.step params) since x l = some y) : Sent air y.2 := by
  obtain ⟨-, hy⟩ := withHistory_eq_some.mp h
  cases l with
  | deliver d =>
    rw [hy]
    intro z hz
    obtain rfl | hz := List.mem_cons.mp hz
    · exact ⟨hl.1, fun _ hst => (stored_eq_slot_iff.mp hst).1⟩
    · exact hx z hz
  | _ =>
    rw [since_of_ne_deliver (by simp)] at hy
    split at hy <;> rw [hy]
    · simp [Sent]
    · exact hx

/-- While it takes steps, the stream thread has what it demands. -/
theorem BookInv.serves (hs : BookInv s) (halive : s.main.alive = true)
    (h : Zapper.loopStep params a s = some s') : s.player.Serves s.loop.demand := by
  have hcreated := created_of_loopStep h
  refine hs.loop hcreated.1 fun hj => ?_
  obtain hl | hl := hs.coherent.joined hj halive
  · exact hcreated.1 hl
  · exact not_exited_of_loopStep h _ hl

/-- **The step lemma.** -/
theorem PlayInv.step {x y : State × Since} (hx : PlayInv params air x)
    (hparams : params.KnownTypes) (hl : Regular params air x l)
    (h : withHistory (Zapper.step params) Zapper.since x l = some y) : PlayInv params air y := by
  obtain ⟨hstep, -⟩ := withHistory_eq_some.mp h
  have hinit := not_deinit_of_not_failsInit hl.init hstep
  obtain ⟨hsince, hinTime⟩ := hx.since.inTime_step hx.inTime h hl.inTime
  refine ⟨hx.book.step hparams hstep hl.good fun q hm _ => hinit q hm, hsince, hinTime,
    hx.sent.step hl.steady h, ?_⟩
  have hact := act_of_step hstep
  have htuned := hx.tuned
  cases l with
  | main a =>
    exact htuned.mainStep hx.book hparams
      (fun hr => pids_of_parsed (hx.inTime.main _ hr) hx.sent) (fun q hm _ => hinit q hm) hact
  | loop a =>
    have hpast := hx.book.coherent.created (created_of_loopStep hact).1
    exact htuned.loopStep hparams (hx.book.serves (alive_of_step hstep) hact)
      (fun hr => pids_of_parsed (hx.inTime.loop hr) hx.sent)
      (MainPc.plays_of_stage (.inr hpast)) hact
  | input code value a =>
    obtain ⟨k, -, hk⟩ | ⟨-, he⟩ := callback_cases hact
    · exact htuned.press hk
    · rw [he]
      exact htuned
  | deliver d => exact htuned.deliver hx.book.coherent hl.steady hact
  | signal =>
    obtain ⟨-, -, he⟩ := signalStep_eq_some hact
    rw [he]
    exact Tuned.wake ⟨htuned.loop, htuned.head, htuned.main⟩
  | tuner status =>
    obtain ⟨-, he | he⟩ := tunerStep_eq_some hact
    · rw [he]
      exact Tuned.wake ⟨htuned.loop, htuned.head, htuned.main⟩
    · rw [he]
      exact ⟨htuned.loop, htuned.head, htuned.main⟩
  | timeout =>
    obtain ⟨hm, he⟩ := timeoutStep_eq_some hact
    exact absurd (by rw [he]; rfl) (hinit _ hm)
  | expire =>
    obtain ⟨-, he⟩ := expireStep_eq_some hact
    rw [he]
    exact ⟨htuned.loop, htuned.head, htuned.main⟩
  | handler i =>
    have hframe := handlerStep_frame hact
    refine htuned.of_same (.inl hframe.loop) (.inl hframe.main) (by rw [hframe.strPrm]; exact id)
      fun video hv => hv.congr (by rw [hframe.player]) ?_
    rw [State.selected, State.selected, hframe.tables, hframe.prCounter]

/-- In a regular run, the streams are those of the selected program at the head of the loop. -/
theorem plays_of_regular (params : ConfigParams) (air : Airs) (ls : List Label)
    (hparams : params.KnownTypes)
    (hreg : Meets (withHistory (step params) since) (Regular params air) (.powerOn, []) ls) :
    Always (withHistory (step params) since)
      (fun x => x.1.loop = .head → x.1.strPrm.changeProgram = false →
        ∀ video, Plays params air video x.1) (.powerOn, []) ls :=
  (always_of_step (playInv_powerOn params air) hreg fun _ _ _ hx hl h => hx.step hparams hl h).mono
    fun _ hx hhead => hx.tuned.head (.inl hhead)

/-! ### While sections are being stored -/

/-- The zapper, which stores its sections field by field, and the sections since. -/
def stepSince (params : ConfigParams) :
    StoringState × Since → Label → Option (StoringState × Since) :=
  withHistory (StoringState.step params) (StoringState.history since)

/-- What is assumed of a step: `Regular`, and nobody reads the PIDs of a slot that is being
filled. -/
def RegularStep (params : ConfigParams) (air : Airs) (x : StoringState × Since) (l : Label) :
    Prop :=
  x.1.ReadsWhole l ∧ StoringState.OnSteps (Regular params air) x l

/-- What is stored to a slot has no part in it. -/
theorem Plays.withSlot {video : Bool} {j : ℕ} {f : PMT → PMT} (hf : KeepsProgram f)
    (h : Plays params air video (s.withSlot j f)) : Plays params air video s :=
  h.congr rfl (State.selected_withSlot hf).1.symm

section Decidable

instance (h : Since) (j : ℕ) : ∀ t, Decidable (Delivered s h j t)
  | .pat => inferInstanceAs (Decidable (∃ x ∈ h, _))
  | .sdt => inferInstanceAs (Decidable (∃ x ∈ h, _))
  | .pmt => inferInstanceAs (Decidable (∃ x ∈ h.takeWhile _, _))

instance (x : State × Since) : ∀ l, Decidable (KeepsInTime x l)
  | .signal =>
    haveI : Decidable (∀ t, x.1.main = .init (.waiting t) → Delivered x.1 x.2 x.1.prCounter t) :=
      decidable_of_iff (∀ t ∈ [Table.pat, .sdt, .pmt], x.1.main = .init (.waiting t) →
        Delivered x.1 x.2 x.1.prCounter t) ⟨fun h t => h t (by cases t <;> simp), fun h t _ => h t⟩
    haveI : Decidable (∀ c, x.1.loop = .switch c .waiting →
        Delivered x.1 x.2 x.1.prCounter .pmt) :=
      decidable_of_iff (∀ c ∈ [Command.change, .next, .previous], x.1.loop = .switch c .waiting →
        Delivered x.1 x.2 x.1.prCounter .pmt)
        ⟨fun h c => h c (by cases c <;> simp), fun h c _ => h c⟩
    inferInstanceAs (Decidable (_ ∧ _))
  | .deliver d => inferInstanceAs (Decidable (d.IsOf .pat → _))
  | .input code value _ =>
    match hk : Key.ofEvent code value with
    | some (.digit program) =>
      decidable_of_iff (x.1.main.relies = some .pmt → Delivered x.1 x.2 program .pmt)
        (by simp [KeepsInTime, hk])
    | some .pPlus | some .pMinus | some .info | some .ok | some .back | some .vPlus
    | some .vMinus | some .vMute | some .exit | none => isTrue (by simp [KeepsInTime, hk])
  | .main _ => isTrue trivial
  | .loop _ => isTrue trivial
  | .tuner _ => isTrue trivial
  | .timeout => isTrue trivial
  | .expire => isTrue trivial
  | .handler _ => isTrue trivial

instance (d : Delivery) : Decidable (air.Sends d) :=
  inferInstanceAs (Decidable (d.IsOf .pmt → ∀ t ∈ parsePMT d.fuel d.buffer default, _))

instance : ∀ l, Decidable (Steady air s l)
  | .deliver _ => inferInstanceAs (Decidable (_ ∧ _))
  | .main _ => isTrue trivial
  | .loop _ => isTrue trivial
  | .input _ _ _ => isTrue trivial
  | .signal => isTrue trivial
  | .tuner _ => isTrue trivial
  | .timeout => isTrue trivial
  | .expire => isTrue trivial
  | .handler _ => isTrue trivial

instance (x : State × Since) (l : Label) : Decidable (Regular params air x l) :=
  decidable_of_iff (Steady air x.1 l ∧ KeepsInTime x l ∧ GoodAnswers x.1 l ∧
      failsInit params x.1 l = false)
    ⟨fun ⟨h₁, h₂, h₃, h₄⟩ => ⟨h₁, h₂, h₃, h₄⟩, fun h => ⟨h.steady, h.inTime, h.good, h.init⟩⟩

instance (x : StoringState × Since) (l : Label) : Decidable (RegularStep params air x l) :=
  inferInstanceAs (Decidable (_ ∧ _))

end Decidable

/-- The sample stream, as the elementary streams of its programs. -/
def sampleAir : Airs := fun prNum =>
  if prNum = 0x101 then firstProgram.entries
  else if prNum = 0x102 then secondProgram.entries
  else thirdProgram.entries

end Zapper
