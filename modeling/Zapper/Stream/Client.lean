import Zapper.Stream.Checks
import Zapper.Stream.Requests

/-!
# The zapper as a client of the player

What the zapper holds at each of its places (`MainPc.Keeps`, `Player.Tracks`) keeps it to its side
of every request (`ClientInv.kept`).

The player is put beside the zapper of `Stream/Checks`, in which a call and the check of `error`
behind it are two steps: `stepPe` has the player's table of handles, and its threads, on which
`m_sectionReceivedCallback` gets at the section buffer whenever it likes. `accounted_iff_doesPart`
says what is left to the player, for all calls to name live handles and nothing to be forgotten: all
else the zapper sees to, in every interleaving, whichever calls fail, as long as each check reads
the result of its own call. Each access to the section buffer is a step of its own, and so is each
function of the TDP API: no access comes in the middle of `Demux_Free_Filter`.
-/

namespace Zapper

open Transition Handles

variable {params : ConfigParams} {s s' : State} {l : Label} {p : Player} {a : Answer}
  {r : Api.Replies}

/-! ### What the flags say -/

/-- The flags and the handles of the stream controller agree with the globals of the TDP API, and
the globals meet the demand. -/
structure Player.Tracks (d : Demand) (p : Player) : Prop where
  audio : p.tdp.hStreamA = if p.status.audioOn then p.audioStreamHandle else 0
  video : p.tdp.hStreamV = if p.status.videoOn then p.videoStreamHandle else 0
  audioOff : d.audioOff = true → p.status.audioOn = false
  videoOff : d.videoOff = true → p.status.videoOn = false
  filter : d.filter = false → p.tdp.hSource ≠ 0 ∧ p.tdp.hFilter = 0

/-- A stream that has been created. -/
theorem Tdp.globals_of_create {t t' : Tdp} {h i pid type j k : ℕ}
    (hr : t.playerStreamCreate a h i pid type j = (.noError, k, t')) :
    t'.hStreamA = (if 39 ≤ type then t.hStreamA else k) ∧
      t'.hStreamV = (if 39 ≤ type then k else t.hStreamV) ∧
        t'.hSource = t.hSource ∧ t'.hFilter = t.hFilter := by
  unfold Tdp.playerStreamCreate at hr
  split_ifs at hr with hpe hsource hplayer hopen hfirst hvideo
  all_goals cases hr
  · exact ⟨(if_pos hvideo).symm, (if_pos hvideo).symm, rfl, rfl⟩
  · exact ⟨(if_neg hvideo).symm, (if_neg hvideo).symm, rfl, rfl⟩

/-- A stream that has been removed. -/
theorem Tdp.globals_of_remove {t t' : Tdp} {h i j : ℕ}
    (hr : t.playerStreamRemove a h i j = (.noError, t')) :
    j ≠ 0 ∧ t'.hStreamA = (if j = t.hStreamA then 0 else t.hStreamA) ∧
      t'.hStreamV = (if j = t.hStreamA then t.hStreamV else 0) ∧
        t'.hSource = t.hSource ∧ t'.hFilter = t.hFilter := by
  unfold Tdp.playerStreamRemove at hr
  split_ifs at hr with hpe hsource hstream hzero hplayer hopen hfirst haudio
  all_goals cases hr
  · exact ⟨hzero, (if_pos haudio).symm, (if_pos haudio).symm, rfl, rfl⟩
  · exact ⟨hzero, (if_neg haudio).symm, (if_neg haudio).symm, rfl, rfl⟩

namespace Player.Tracks

variable {d : Demand} {f x y : Bool} {p' : Player}

theorem same (h : p.Tracks d) (hp : p.Same p') : p'.Tracks d := by
  obtain ⟨-, hsource, haudio, hvideo, hfilter, -⟩ := Tdp.handles_eq_iff.mp hp.handles
  constructor
  · rw [haudio, hp.status, hp.audio]
    exact h.audio
  · rw [hvideo, hp.status, hp.video]
    exact h.video
  · rw [hp.status]
    exact h.audioOff
  · rw [hp.status]
    exact h.videoOff
  · rw [hsource, hfilter]
    exact h.filter

theorem hStreamA_eq_zero (h : p.Tracks ⟨f, true, y⟩) : p.tdp.hStreamA = 0 := by
  rw [h.audio, h.audioOff rfl]
  rfl

theorem hStreamV_eq_zero (h : p.Tracks ⟨f, x, true⟩) : p.tdp.hStreamV = 0 := by
  rw [h.video, h.videoOff rfl]
  rfl

theorem setFilter (h : p.Tracks ⟨false, x, y⟩) {pid : ℕ} {tableId : UInt8}
    (hok : (p.setFilter a pid tableId).1 = .noError) :
    (p.setFilter a pid tableId).2.Tracks ⟨true, x, y⟩ ∧
      (p.setFilter a pid tableId).2.tdp.hPE ≠ 0 := by
  unfold Player.setFilter Tdp.demuxSetFilter at hok ⊢
  dsimp only at hok ⊢
  split_ifs at hok ⊢ with hpe hplayer
  exact ⟨⟨h.audio, h.video, h.audioOff, h.videoOff, by simp⟩, hplayer⟩

theorem freeFilter (h : p.Tracks ⟨true, x, y⟩) (hroot : p.tdp.hFilter ≠ 0 → p.tdp.hSource ≠ 0)
    (hok : (p.freeFilter a).1 = .noError) : (p.freeFilter a).2.Tracks ⟨false, x, y⟩ := by
  unfold Player.freeFilter Tdp.demuxFreeFilter at hok ⊢
  dsimp only at hok ⊢
  split_ifs at hok ⊢ with hpe hhandle hplayer hfilter
  all_goals exact ⟨h.audio, h.video, h.audioOff, h.videoOff, fun _ => ⟨hroot hfilter, rfl⟩⟩

theorem removeAudio (h : p.Tracks ⟨f, x, y⟩) (hok : (p.removeAudio a).1 = .noError) :
    (p.removeAudio a).2.Tracks ⟨f, true, y⟩ := by
  cases hon : p.status.audioOn with
  | false =>
    simp only [Player.removeAudio, hon, Bool.false_eq_true, if_false]
    exact ⟨h.audio, h.video, fun _ => hon, h.videoOff, h.filter⟩
  | true =>
    have haudio : p.audioStreamHandle = p.tdp.hStreamA := by rw [h.audio, if_pos hon]
    rw [Player.removeAudio, if_pos hon] at hok ⊢
    rcases hr : p.tdp.playerStreamRemove a p.playerHandle p.sourceHandle p.audioStreamHandle
      with ⟨_ | _, tdp⟩
    · rw [hr] at hok
      cases hok
    · obtain ⟨-, hA, hV, hsource, hfilter⟩ := Tdp.globals_of_remove hr
      rw [if_pos haudio] at hA hV
      exact ⟨hA, hV.trans h.video, fun _ => rfl, h.videoOff,
        fun hf => by rw [hsource, hfilter]; exact h.filter hf⟩

theorem removeVideo (h : p.Tracks ⟨f, x, y⟩)
    (hdistinct : p.tdp.hStreamV ≠ 0 → p.tdp.hStreamA ≠ p.tdp.hStreamV)
    (hok : (p.removeVideo a).1 = .noError) : (p.removeVideo a).2.Tracks ⟨f, x, true⟩ := by
  cases hon : p.status.videoOn with
  | false =>
    simp only [Player.removeVideo, hon, Bool.false_eq_true, if_false]
    exact ⟨h.audio, h.video, h.audioOff, fun _ => hon, h.filter⟩
  | true =>
    have hvideo : p.videoStreamHandle = p.tdp.hStreamV := by rw [h.video, if_pos hon]
    rw [Player.removeVideo, if_pos hon] at hok ⊢
    rcases hr : p.tdp.playerStreamRemove a p.playerHandle p.sourceHandle p.videoStreamHandle
      with ⟨_ | _, tdp⟩
    · rw [hr] at hok
      cases hok
    · obtain ⟨hzero, hA, hV, hsource, hfilter⟩ := Tdp.globals_of_remove hr
      -- the audio stream is another one
      have hother : p.videoStreamHandle ≠ p.tdp.hStreamA := by
        rw [hvideo] at hzero ⊢
        exact (hdistinct hzero).symm
      rw [if_neg hother] at hA hV
      exact ⟨hA.trans h.audio, hV, h.audioOff, fun _ => rfl,
        fun hf => by rw [hsource, hfilter]; exact h.filter hf⟩

theorem createAudio (h : p.Tracks ⟨f, true, y⟩) {pid type : ℕ} (htype : type < 39)
    (hok : (p.createAudio a pid type).1 = .noError) :
    (p.createAudio a pid type).2.Tracks ⟨f, false, y⟩ := by
  by_cases hpid : pid = noPid
  · simp only [Player.createAudio, hpid, ne_eq, not_true_eq_false, if_false]
    exact ⟨h.audio, h.video, by simp, h.videoOff, h.filter⟩
  · rw [Player.createAudio, if_pos hpid] at hok ⊢
    rcases hr : p.tdp.playerStreamCreate a p.playerHandle p.sourceHandle pid type
      p.audioStreamHandle with ⟨_ | _, i, tdp⟩
    · rw [hr] at hok
      cases hok
    · obtain ⟨hA, hV, hsource, hfilter⟩ := Tdp.globals_of_create hr
      rw [if_neg (not_le.mpr htype)] at hA hV
      exact ⟨hA, hV.trans h.video, by simp, h.videoOff,
        fun hf => by rw [hsource, hfilter]; exact h.filter hf⟩

theorem createVideo (h : p.Tracks ⟨f, x, true⟩) {pid type : ℕ} (htype : 39 ≤ type)
    (hok : (p.createVideo a pid type).1 = .noError) :
    (p.createVideo a pid type).2.Tracks ⟨f, x, false⟩ := by
  by_cases hpid : pid = noPid
  · simp only [Player.createVideo, hpid, ne_eq, not_true_eq_false, if_false]
    exact ⟨h.audio, h.video, h.audioOff, by simp, h.filter⟩
  · rw [Player.createVideo, if_pos hpid] at hok ⊢
    rcases hr : p.tdp.playerStreamCreate a p.playerHandle p.sourceHandle pid type
      p.videoStreamHandle with ⟨_ | _, i, tdp⟩
    · rw [hr] at hok
      cases hok
    · obtain ⟨hA, hV, hsource, hfilter⟩ := Tdp.globals_of_create hr
      rw [if_pos htype] at hA hV
      exact ⟨hA.trans h.audio, hV, h.audioOff, by simp,
        fun hf => by rw [hsource, hfilter]; exact h.filter hf⟩

end Player.Tracks

/-! ### What the places say -/

/-- Nothing has been set yet. -/
def Player.Unset (p : Player) : Prop :=
  p.tdp.handles = Tdp.zero.handles ∧ p.status = ⟨false, false⟩

theorem Player.Unset.tracks (h : p.Unset) : p.Tracks ⟨true, true, true⟩ := by
  obtain ⟨-, -, haudio, hvideo, -, -⟩ := Tdp.handles_eq_iff.mp h.1
  refine ⟨?_, ?_, fun _ => by rw [h.2], fun _ => by rw [h.2], by simp⟩
  · rw [haudio, h.2]
    rfl
  · rw [hvideo, h.2]
    rfl

/-- What a place of the main thread says about the handles. While there is a stream thread, it
says nothing. -/
def MainPc.Keeps (p : Player) : MainPc → Prop
  | .remoteInit => p.Unset
  | .registerRemote => p.Unset
  | .init .reset => p.Unset
  | .init .loadCounter => p.Unset
  | .init .tunerInit => p.Unset
  | .init .registerTuner => p.Unset
  | .init .lockTuner => p.Unset
  | .init .waitTuner => p.Unset
  | .init .waitingTuner => p.Unset
  | .init .playerInit => p.Unset
  | .init .openSource => (p.tdp.hSource = 0 ∧ p.tdp.hFilter = 0) ∧ p.Tracks ⟨true, true, true⟩
  | .init (.setFilter _) => p.Tracks ⟨false, true, true⟩
  | .init .registerSections => p.tdp.hPE ≠ 0 ∧ p.Tracks ⟨true, true, true⟩
  | .init (.wait _) => p.Tracks ⟨true, true, true⟩
  | .init (.waiting _) => p.Tracks ⟨true, true, true⟩
  | .init (.freeFilter _) => p.Tracks ⟨true, true, true⟩
  | .init .checkAudioPid => p.Tracks ⟨true, true, true⟩
  | .init .checkVideoPid => p.Tracks ⟨true, true, true⟩
  | .init .createAudio => p.Tracks ⟨true, true, true⟩
  | .init .createVideo => p.Tracks ⟨true, false, true⟩
  | .init .createThread => p.Tracks ⟨true, false, false⟩
  | .deinit .closeSource => p.tdp.hFilter = 0 ∧ p.tdp.hBuffer = 0
  | .deinit .deinitPlayer => p.tdp.hFilter = 0 ∧ p.tdp.hBuffer = 0
  | .deinit .deinitTuner => p.tdp.handles = Tdp.zero.handles
  | .deinit .freeTables => p.tdp.handles = Tdp.zero.handles
  | .unregisterRemote => p.tdp.handles = Tdp.zero.handles
  | .remoteDeinit => p.tdp.handles = Tdp.zero.handles
  | .exited .noError => p.tdp.handles = Tdp.zero.handles
  | _ => True

/-- The main thread has been through `stream_deinit`. -/
def MainPc.closed : MainPc → Bool
  | .deinit .deinitTuner => true
  | .deinit .freeTables => true
  | .unregisterRemote => true
  | .remoteDeinit => true
  | .exited .noError => true
  | _ => false

theorem MainPc.Keeps.handles_of_closed {m : MainPc} (h : m.Keeps p) (hm : m.closed = true) :
    p.tdp.handles = Tdp.zero.handles := by
  cases m with
  | deinit q => cases q <;> first | exact h | cases hm
  | exited e => cases e <;> first | exact h | cases hm
  | unregisterRemote | remoteDeinit => exact h
  | _ => cases hm

theorem MainPc.Keeps.same {m : MainPc} {p' : Player} (h : m.Keeps p) (hp : p.Same p') :
    m.Keeps p' := by
  have hunset : p.Unset → p'.Unset := fun hu => ⟨hp.handles.trans hu.1, hp.status.trans hu.2⟩
  obtain ⟨hpe, hsource, -, -, hfilter, hbuffer⟩ := Tdp.handles_eq_iff.mp hp.handles
  cases m with
  | init q =>
    cases q with
    | openSource => exact ⟨by rw [hsource, hfilter]; exact h.1, h.2.same hp⟩
    | registerSections => exact ⟨by rw [hpe]; exact h.1, h.2.same hp⟩
    | announce => trivial
    | announcing progNum radio => trivial
    | _ => first | exact hunset h | exact Player.Tracks.same h hp
  | deinit q =>
    cases q with
    | closeSource | deinitPlayer =>
      exact show p'.tdp.hFilter = 0 ∧ p'.tdp.hBuffer = 0 by rw [hfilter, hbuffer]; exact h
    | deinitTuner | freeTables => exact hp.handles.trans h
    | _ => trivial
  | exited e => cases e <;> first | exact hp.handles.trans h | trivial
  | unregisterRemote | remoteDeinit => exact hp.handles.trans h
  | remoteInit | registerRemote => exact hunset h
  | _ => trivial

theorem MainPc.keeps_fail (m : MainPc) : m.fail.Keeps p := by
  cases m <;> trivial

/-- While there is a stream thread, the main thread says nothing. -/
theorem MainPc.keeps_of_stage {m : MainPc} (hthread : (MainPc.init .createThread).stage < m.stage)
    (hjoin : ¬ (MainPc.deinit .join).stage < m.stage) (p : Player) : m.Keeps p := by
  cases m with
  | init q =>
    cases q with
    | setFilter t | wait t | waiting t | freeFilter t =>
      cases t <;> exact absurd hthread (by decide)
    | announce => trivial
    | announcing progNum radio => trivial
    | _ => exact absurd hthread (by decide)
  | deinit q =>
    cases q with
    | stop => trivial
    | join => trivial
    | _ => exact absurd (by decide) hjoin
  | remoteInit => exact absurd hthread (by decide)
  | registerRemote => exact absurd hthread (by decide)
  | unregisterRemote => exact absurd (by decide) hjoin
  | remoteDeinit => exact absurd (by decide) hjoin
  | exited e => exact absurd (show 37 < 47 by decide) hjoin
  | _ => trivial

/-- A call of the main thread that succeeds leads to what the next place says. -/
theorem keeps_of_call {c : PlayerCall} (hparams : params.KnownTypes)
    (hc : s.main.call params s = some c) (hm : s.main.Keeps s.player)
    (hsane : Api.Sane s.player.tdp) (hhandle : c = .openSource → a.handle ≠ 0)
    (hok : (c.run a s.player).1 = .noError) : (s.main.next s).Keeps (c.run a s.player).2 := by
  have haudio : params.audioType < 39 := by rw [hparams.audio]; decide
  have hvideo : 39 ≤ params.videoType := by rw [hparams.video]; decide
  cases hp : s.main with
  | init q =>
    rw [hp] at hc hm
    cases q with
    | playerInit =>
      obtain rfl := Option.some.inj hc
      obtain ⟨-, hsource, -, -, hfilter, -⟩ := Tdp.handles_eq_iff.mp hm.1
      have ht := hm.tracks
      unfold PlayerCall.run Player.init Tdp.playerInit at hok ⊢
      dsimp only at hok ⊢
      split_ifs at hok ⊢
      exact ⟨⟨hsource, hfilter⟩, ht.audio, ht.video, ht.audioOff, ht.videoOff, by simp⟩
    | openSource =>
      obtain rfl := Option.some.inj hc
      obtain ⟨⟨-, hfilter⟩, ht⟩ := hm
      unfold PlayerCall.run Player.openSource Tdp.playerSourceOpen at hok ⊢
      dsimp only at hok ⊢
      split_ifs at hok ⊢
      exact ⟨ht.audio, ht.video, ht.audioOff, ht.videoOff, fun _ => ⟨hhandle rfl, hfilter⟩⟩
    | setFilter t =>
      obtain rfl := Option.some.inj hc
      obtain ⟨ht, hpe⟩ := Player.Tracks.setFilter hm hok
      cases t with
      | pat => exact ⟨hpe, ht⟩
      | sdt | pmt => exact ht
    | registerSections =>
      obtain rfl := Option.some.inj hc
      refine hm.2.same ⟨?_, rfl, rfl, rfl⟩
      unfold PlayerCall.run Player.tuner Tdp.demuxRegisterSectionFilterCallback
      split_ifs <;> rfl
    | freeFilter t =>
      obtain rfl := Option.some.inj hc
      exact Player.Tracks.freeFilter hm hsane.rooted hok
    | createAudio =>
      obtain rfl := Option.some.inj hc
      exact Player.Tracks.createAudio hm haudio hok
    | createVideo =>
      obtain rfl := Option.some.inj hc
      exact Player.Tracks.createVideo hm hvideo hok
    | _ => cases hc
  | deinit q =>
    rw [hp] at hc hm
    cases q with
    | removeAudio => trivial
    | removeVideo => trivial
    | freeFilter =>
      obtain rfl := Option.some.inj hc
      unfold PlayerCall.run Player.freeFilter Tdp.demuxFreeFilter at hok ⊢
      dsimp only at hok ⊢
      split_ifs at hok ⊢
      all_goals exact ⟨rfl, rfl⟩
    | closeSource =>
      obtain rfl := Option.some.inj hc
      unfold PlayerCall.run Player.closeSource Tdp.playerSourceClose at hok ⊢
      dsimp only at hok ⊢
      split_ifs at hok ⊢
      exact hm
    | deinitPlayer =>
      obtain rfl := Option.some.inj hc
      unfold PlayerCall.run Player.deinit Tdp.playerDeinit at hok ⊢
      dsimp only at hok ⊢
      split_ifs at hok ⊢
      all_goals rfl
    | _ => cases hc
  | _ =>
    rw [hp] at hc
    cases hc

/-- A step of the main thread without a call. -/
theorem keeps_of_silent (h : mainStep params a s = some s') (hc : s.main.call params s = none)
    (hm : s.main.Keeps s.player) : s'.main.Keeps s'.player := by
  by_cases hreset : s.main = .init .reset
  · rw [hreset] at hm
    simp only [mainStep, hreset, initStep] at h
    obtain rfl := Option.some.inj h
    exact ⟨hm.1, rfl⟩
  · refine MainPc.Keeps.same ?_ (same_of_mainStep h hc hreset)
    obtain hnext | hfail := main_of_mainStep h
    · rw [hnext]
      cases hp : s.main with
      | init q =>
        rw [hp] at hc hm
        cases q with
        | waiting t => simp [mainStep, hp, initStep] at h
        | createThread => trivial
        | announce => trivial
        | announcing progNum radio => trivial
        | setFilter t | freeFilter t | playerInit | openSource | registerSections | createAudio
        | createVideo => cases hc
        | _ => exact hm
      | deinit q =>
        rw [hp] at hc hm
        cases q with
        | stop => exact show MainPc.Keeps _ (.deinit (if _ then _ else _)) by split <;> trivial
        | join => trivial
        | deinitTuner | freeTables => exact hm
        | _ => cases hc
      | remoteDeinit =>
        rw [hp] at hm
        show MainPc.Keeps s.player (.exited s.mainError)
        cases s.mainError with
        | noError => exact hm
        | error => trivial
      | remoteInit | registerRemote | unregisterRemote =>
        rw [hp] at hm
        exact hm
      | exited e => simp [mainStep, hp] at h
      | _ => trivial
    · rw [hfail]
      exact s.main.keeps_fail

/-- A call of the stream thread that succeeds meets the demand behind it. -/
theorem tracks_of_call {c : PlayerCall} (hparams : params.KnownTypes)
    (hc : s.loop.call params s = some c) (hl : s.player.Tracks s.loop.demand)
    (hsane : Api.Sane s.player.tdp) (hok : (c.run a s.player).1 = .noError) :
    (c.run a s.player).2.Tracks (s.loop.next s).demand := by
  have haudio : params.audioType < 39 := by rw [hparams.audio]; decide
  have hvideo : 39 ≤ params.videoType := by rw [hparams.video]; decide
  cases hp : s.loop with
  | switch b q =>
    rw [hp] at hc hl
    cases q with
    | removeAudio =>
      obtain rfl := Option.some.inj hc
      exact Player.Tracks.removeAudio hl hok
    | removeVideo =>
      obtain rfl := Option.some.inj hc
      exact Player.Tracks.removeVideo hl hsane.distinct hok
    | freeFilter =>
      obtain rfl := Option.some.inj hc
      exact Player.Tracks.freeFilter hl hsane.rooted hok
    | setFilter =>
      obtain rfl := Option.some.inj hc
      exact (Player.Tracks.setFilter hl hok).1
    | createVideo =>
      obtain rfl := Option.some.inj hc
      exact Player.Tracks.createVideo hl hvideo hok
    | createAudio =>
      obtain rfl := Option.some.inj hc
      exact Player.Tracks.createAudio hl haudio hok
    | _ => cases hc
  | _ =>
    rw [hp] at hc
    cases hc

/-! ### The client's invariant -/

/-- The stream thread is at work. -/
def LoopPc.works : LoopPc → Bool
  | .notCreated => false
  | .exited _ => false
  | _ => true

/-- The zapper keeps to its side, and knows what it holds. -/
structure ClientInv (s : State) : Prop where
  coherent : s.Coherent
  sane : Api.Sane s.player.tdp
  main : s.main.Keeps s.player
  loop : s.loop.works = true → s.player.Tracks s.loop.demand

theorem clientInv_powerOn : ClientInv .powerOn where
  coherent := coherent_powerOn
  sane := ⟨fun h => absurd rfl h, fun h => absurd rfl h, fun h => absurd rfl h⟩
  main := ⟨rfl, rfl⟩
  loop h := by cases h

/-- Where the main thread stands while the stream thread is at work. -/
theorem State.Coherent.stage_of_works (hs : s.Coherent) (halive : s.main.alive = true)
    (hl : s.loop.works = true) :
    s.Past (.init .createThread) ∧ ¬ s.Past (.deinit .join) := by
  refine ⟨hs.created fun hn => ?_, fun hj => ?_⟩
  · rw [hn] at hl
    cases hl
  · obtain hn | he := hs.joined hj halive
    · rw [hn] at hl
      cases hl
    · rw [he] at hl
      cases hl

/-- The stream that is created is not there. -/
theorem kept_of_create {pid type : ℕ} {q : Api.Request}
    (hq : (if pid ≠ noPid then
      some (Api.Request.playerStreamCreate p.playerHandle p.sourceHandle pid type)
      else none) = some q)
    (htype : if 39 ≤ type then p.tdp.hStreamV = 0 else p.tdp.hStreamA = 0) : q.Kept p.tdp := by
  obtain ⟨-, hq⟩ := Option.ite_none_right_eq_some.mp hq
  obtain rfl := Option.some.inj hq
  exact htype

/-- The main thread keeps to its side. -/
theorem kept_of_mainCall {c : PlayerCall} {q : Api.Request} (hparams : params.KnownTypes)
    (hc : s.main.call params s = some c) (hm : s.main.Keeps s.player)
    (hsane : Api.Sane s.player.tdp) (hq : c.request s.player = some q)
    (hacc : q.Accepted s.player.tdp) : q.Kept s.player.tdp := by
  have haudio : ¬ 39 ≤ params.audioType := by rw [hparams.audio]; decide
  have hvideo : 39 ≤ params.videoType := by rw [hparams.video]; decide
  cases hp : s.main with
  | init i =>
    rw [hp] at hc hm
    cases i with
    | playerInit =>
      obtain rfl := Option.some.inj hc
      obtain rfl := Option.some.inj hq
      exact (Tdp.handles_eq_iff.mp hm.1).1
    | openSource =>
      obtain rfl := Option.some.inj hc
      obtain rfl := Option.some.inj hq
      exact hm.1.1
    | setFilter t =>
      obtain rfl := Option.some.inj hc
      obtain rfl := Option.some.inj hq
      exact Player.Tracks.filter hm rfl
    | registerSections =>
      obtain rfl := Option.some.inj hc
      obtain rfl := Option.some.inj hq
      exact hm.1
    | freeFilter t =>
      obtain rfl := Option.some.inj hc
      obtain rfl := Option.some.inj hq
      exact hsane.rooted hacc.2.2.2
    | createAudio =>
      obtain rfl := Option.some.inj hc
      exact kept_of_create hq (by rw [if_neg haudio]; exact Player.Tracks.hStreamA_eq_zero hm)
    | createVideo =>
      obtain rfl := Option.some.inj hc
      exact kept_of_create hq (by rw [if_pos hvideo]; exact Player.Tracks.hStreamV_eq_zero hm)
    | _ => cases hc
  | deinit i =>
    rw [hp] at hc hm
    cases i with
    | removeAudio | removeVideo =>
      obtain rfl := Option.some.inj hc
      obtain ⟨-, hq⟩ := Option.ite_none_right_eq_some.mp hq
      obtain rfl := Option.some.inj hq
      trivial
    | freeFilter =>
      obtain rfl := Option.some.inj hc
      obtain rfl := Option.some.inj hq
      exact hsane.rooted hacc.2.2.2
    | closeSource =>
      obtain rfl := Option.some.inj hc
      obtain rfl := Option.some.inj hq
      exact hm.1
    | deinitPlayer =>
      obtain rfl := Option.some.inj hc
      obtain rfl := Option.some.inj hq
      exact hm
    | _ => cases hc
  | _ =>
    rw [hp] at hc
    cases hc

/-- The stream thread keeps to its side. -/
theorem kept_of_loopCall {c : PlayerCall} {q : Api.Request} (hparams : params.KnownTypes)
    (hc : s.loop.call params s = some c) (hl : s.player.Tracks s.loop.demand)
    (hsane : Api.Sane s.player.tdp) (hq : c.request s.player = some q)
    (hacc : q.Accepted s.player.tdp) : q.Kept s.player.tdp := by
  have haudio : ¬ 39 ≤ params.audioType := by rw [hparams.audio]; decide
  have hvideo : 39 ≤ params.videoType := by rw [hparams.video]; decide
  cases hp : s.loop with
  | switch b i =>
    rw [hp] at hc hl
    cases i with
    | removeAudio | removeVideo =>
      obtain rfl := Option.some.inj hc
      obtain ⟨-, hq⟩ := Option.ite_none_right_eq_some.mp hq
      obtain rfl := Option.some.inj hq
      trivial
    | freeFilter =>
      obtain rfl := Option.some.inj hc
      obtain rfl := Option.some.inj hq
      exact hsane.rooted hacc.2.2.2
    | setFilter =>
      obtain rfl := Option.some.inj hc
      obtain rfl := Option.some.inj hq
      exact Player.Tracks.filter hl rfl
    | createVideo =>
      obtain rfl := Option.some.inj hc
      exact kept_of_create hq (by rw [if_pos hvideo]; exact Player.Tracks.hStreamV_eq_zero hl)
    | createAudio =>
      obtain rfl := Option.some.inj hc
      exact kept_of_create hq (by rw [if_neg haudio]; exact Player.Tracks.hStreamA_eq_zero hl)
    | _ => cases hc
  | _ =>
    rw [hp] at hc
    cases hc

theorem LoopPc.works_of_call {c : PlayerCall} (h : s.loop.call params s = some c) :
    s.loop.works = true := by
  cases hl : s.loop with
  | notCreated | exited e =>
    rw [hl] at h
    cases h
  | _ => rfl

/-- The keys ask for the volume only. -/
theorem kept_of_others {q : Api.Request} (hq : request params s l = some (a, q))
    (hmain : ∀ a, l ≠ .main a) (hloop : ∀ a, l ≠ .loop a) : q.Kept s.player.tdp := by
  obtain ⟨c, hc, hq⟩ := request_eq_some hq
  cases l with
  | main b => exact absurd rfl (hmain b)
  | loop b => exact absurd rfl (hloop b)
  | input code value b =>
    obtain ⟨d, hd, heq⟩ := Option.map_eq_some_iff.mp hc
    obtain ⟨rfl, rfl⟩ := Prod.mk.inj heq
    obtain ⟨k, -, hk⟩ := Option.bind_eq_some_iff.mp hd
    cases k with
    | vPlus | vMinus | vMute =>
      obtain rfl := Option.some.inj hk
      obtain rfl := Option.some.inj hq
      trivial
    | _ => cases hk
  | _ => cases hc

/-- **The zapper keeps to its side.** -/
theorem ClientInv.kept (hs : ClientInv s) (hparams : params.KnownTypes) {q : Api.Request}
    (hrequest : request params s l = some (a, q)) (hacc : q.Accepted s.player.tdp) :
    q.Kept s.player.tdp := by
  obtain ⟨c, hc, hq⟩ := request_eq_some hrequest
  cases l with
  | main b =>
    obtain ⟨d, hd, heq⟩ := Option.map_eq_some_iff.mp hc
    obtain ⟨rfl, rfl⟩ := Prod.mk.inj heq
    exact kept_of_mainCall hparams hd hs.main hs.sane hq hacc
  | loop b =>
    obtain ⟨d, hd, heq⟩ := Option.map_eq_some_iff.mp hc
    obtain ⟨rfl, rfl⟩ := Prod.mk.inj heq
    exact kept_of_loopCall hparams hd (hs.loop (LoopPc.works_of_call hd)) hs.sane hq hacc
  | _ => exact kept_of_others hrequest (by simp) (by simp)

/-- A step of neither thread. -/
theorem same_of_step (h : step params s l = some s') (hmain : ∀ a, l ≠ .main a)
    (hloop : ∀ a, l ≠ .loop a) : s.player.Same s'.player := by
  have hact := act_of_step h
  cases l with
  | main a => exact absurd rfl (hmain a)
  | loop a => exact absurd rfl (hloop a)
  | input code value b =>
    obtain hp | ⟨v, hp⟩ := player_of_callback hact
    · exact .of_eq hp
    · rw [hp]
      exact ⟨rfl, rfl, rfl, rfl⟩
  | handler i => exact .of_eq (handlerStep_frame hact).player
  | deliver d | signal | tuner status | timeout | expire => exact .of_eq (event_frame h rfl).player

/-- The main thread. -/
private theorem ClientInv.mainStep (hs : ClientInv s) (hparams : params.KnownTypes)
    (hcoherent : s'.Coherent) (hsane : Api.Sane s'.player.tdp)
    (h : Zapper.mainStep params a s = some s')
    (hhandle : s.main.call params s = some .openSource → a.handle ≠ 0) : ClientInv s' := by
  have halive := alive_of_mainStep h
  have hlt := stage_lt_of_mainStep h
  refine ⟨hcoherent, hsane, ?_, fun hl => ?_⟩
  · cases hc : s.main.call params s with
    | none => exact keeps_of_silent h hc hs.main
    | some c =>
      obtain ⟨hplayer, ⟨hok, hnext⟩ | hfail⟩ := call_of_mainStep h hc
      · rw [hplayer, hnext]
        exact keeps_of_call hparams hc hs.main hs.sane (fun hopen => hhandle (hopen ▸ hc)) hok
      · rw [hfail]
        exact s.main.keeps_fail
  · obtain hsame | ⟨hm, -, hhead, -⟩ := loop_of_mainStep h
    · have hworks : s.loop.works = true := hsame ▸ hl
      obtain ⟨hthread, hjoin⟩ := hs.coherent.stage_of_works halive hworks
      rw [player_of_mainStep h hthread.le hjoin, hsame]
      exact hs.loop hworks
    · have hkeeps := hs.main
      rw [hm] at hkeeps
      have hjoin : ¬ s.Past (.deinit .join) := (State.past_iff hm).not.mpr (by decide)
      rw [player_of_mainStep h (by rw [hm]) hjoin, hhead]
      exact hkeeps

/-- The stream thread. -/
private theorem ClientInv.loopStep (hs : ClientInv s) (hparams : params.KnownTypes)
    (hcoherent : s'.Coherent) (hsane : Api.Sane s'.player.tdp) (halive : s.main.alive = true)
    (h : Zapper.loopStep params a s = some s') : ClientInv s' := by
  have hworks : s.loop.works = true := by
    cases hl : s.loop with
    | notCreated => exact absurd hl (created_of_loopStep h).1
    | exited e => exact absurd hl (not_exited_of_loopStep h e)
    | _ => rfl
  obtain ⟨hthread, hjoin⟩ := hs.coherent.stage_of_works halive hworks
  refine ⟨hcoherent, hsane, ?_, fun hl => ?_⟩
  · rw [(loopStep_frame h).main]
    exact MainPc.keeps_of_stage hthread hjoin _
  · cases hc : s.loop.call params s with
    | none =>
      obtain ⟨hplayer, hdemand, -⟩ := silent_of_loopStep h (LoopPc.callsPlayer_of_call hc)
      rw [hplayer, hdemand]
      exact hs.loop hworks
    | some c =>
      obtain ⟨hplayer, ⟨hok, hnext⟩ | hfail⟩ := call_of_loopStep h hc
      · rw [hplayer, hnext]
        exact tracks_of_call hparams hc (hs.loop hworks) hs.sane hok
      · rw [hfail] at hl
        cases hl

/-- The other actors. -/
private theorem ClientInv.other (hs : ClientInv s) (h : Zapper.step params s l = some s')
    (hsane : Api.Sane s'.player.tdp) (hmain : ∀ a, l ≠ .main a) (hloop : ∀ a, l ≠ .loop a) :
    ClientInv s' := by
  have hsame := same_of_step h hmain hloop
  refine ⟨hs.coherent.step h, hsane, MainPc.Keeps.same ?_ hsame, fun hl => ?_⟩
  · have hkeeps := hs.main
    cases main_of_step h with
    | main a => exact absurd rfl (hmain a)
    | timeout hm hm' =>
      rw [hm']
      trivial
    | same l hm =>
      rw [hm]
      exact hkeeps
    | exit l hm hm' =>
      rw [hm']
      trivial
    | locked l hm hm' =>
      rw [hm] at hkeeps
      rw [hm']
      exact hkeeps
    | table l t hm hm' =>
      rw [hm] at hkeeps
      rw [hm']
      cases t <;> exact hkeeps
  · obtain ⟨a, rfl, -⟩ | hsameLoop | ⟨a, rfl, -⟩ | ⟨c, hwait, hcreate⟩ := loop_of_step h
    · exact absurd rfl (hloop a)
    · rw [hsameLoop] at hl ⊢
      exact (hs.loop hl).same hsame
    · exact absurd rfl (hmain a)
    · have ht := (hs.loop (by rw [hwait]; rfl)).same hsame
      rw [hwait] at ht
      rw [hcreate]
      exact ht

/-- **The step lemma.** -/
theorem ClientInv.step (hs : ClientInv s) (hparams : params.KnownTypes)
    (h : Zapper.step params s l = some s') (hsane : Api.Sane s'.player.tdp)
    (hhandle : ∀ b, call params s l = some (b, .openSource) → b.handle ≠ 0) : ClientInv s' := by
  have hact := act_of_step h
  cases l with
  | main b =>
    exact hs.mainStep hparams (hs.coherent.step h) hsane hact fun hc =>
      hhandle b (by simp [call, hc])
  | loop b => exact hs.loopStep hparams (hs.coherent.step h) hsane (alive_of_step h) hact
  | _ => exact hs.other h hsane (by simp) (by simp)

/-! ### Calls and checks -/

theorem MainPc.calls_of_call {m : MainPc} {c : PlayerCall} (h : m.call params s = some c) :
    m.calls = true := by
  cases m with
  | init q => cases q <;> first | rfl | cases h
  | deinit q => cases q <;> first | rfl | cases h
  | _ => cases h

theorem request_eq_none_of_main (hm : s.main.calls = false) (a : Answer) :
    request params s (.main a) = none := by
  cases hc : s.main.call params s with
  | none => simp [request, call, hc]
  | some c => exact absurd (MainPc.calls_of_call hc) (by simp [hm])

theorem request_eq_none_of_loop (hl : s.loop.works = false) (a : Answer) :
    request params s (.loop a) = none := by
  cases hc : s.loop.call params s with
  | none => simp [request, call, hc]
  | some c => exact absurd (LoopPc.works_of_call hc) (by simp [hl])

/-- What is asked for does not depend on where the threads are, if it is not theirs. -/
theorem request_moved (st : StreamStatus) (e : TError) {m : MainPc} {pc : LoopPc}
    (hmain : ∀ a, l = .main a → s.main.calls = false ∧ m.calls = false)
    (hloop : ∀ a, l = .loop a → s.loop.works = false ∧ pc.works = false) :
    request params (s.moved st e m pc) l = request params s l := by
  cases l with
  | main a =>
    obtain ⟨hm, hm'⟩ := hmain a rfl
    rw [request_eq_none_of_main hm, request_eq_none_of_main (s := s.moved st e m pc) hm']
  | loop a =>
    obtain ⟨hl, hl'⟩ := hloop a rfl
    rw [request_eq_none_of_loop hl, request_eq_none_of_loop (s := s.moved st e m pc) hl']
  | input code value a =>
    simp only [request, call]
    cases Key.ofEvent code value with
    | none => rfl
    | some k => cases k <;> rfl
  | _ => rfl

/-- A check ends `main` only if a call of `stream_deinit` has failed. -/
theorem State.error_of_mainCheck {e : TError} (hcalls : s.main.calls = true)
    (h : (s.mainCheck e).main.alive = false) : e = .error ∧ ∃ q, s.main = .deinit q := by
  cases hm : s.main with
  | init q =>
    cases e with
    | noError =>
      have hnext : (s.main.next s).alive = false := h
      rw [hm] at hnext
      cases q <;> cases hnext
    | error =>
      simp only [mainCheck, hm] at h
      cases h
  | deinit q =>
    refine ⟨?_, q, rfl⟩
    cases e with
    | error => rfl
    | noError =>
      have hnext : (s.main.next s).alive = false := h
      rw [hm] at hnext hcalls
      cases q with
      | stop => cases hcalls
      | _ => cases hnext
  | _ =>
    rw [hm] at hcalls
    cases hcalls

namespace ErrorState

variable {x y : ErrorState}

/-- What a step asks the TDP API for. A check asks for nothing. -/
def request (params : ConfigParams) (x : ErrorState) (l : Label) :
    Option (Answer × Api.Request) :=
  if x.checks l then none else Zapper.request params x.zapper l

theorem request_eq_some {q : Api.Request} (h : x.request params l = some (a, q)) :
    x.checks l = false ∧ Zapper.request params x.zapper l = some (a, q) := by
  obtain ⟨hchecks, hq⟩ := Option.ite_none_left_eq_some.mp h
  exact ⟨by simpa using hchecks, hq⟩

/-- A check leaves the TDP API alone, and any other step is one of `Stream/System` to it. -/
theorem tdp_of_step (h : x.step params l = some y) :
    if x.checks l then y.zapper.player.tdp = x.zapper.player.tdp
      else ∃ s, Zapper.step params x.zapper l = some s ∧
        s.player.tdp = y.zapper.player.tdp := by
  have halive := alive_of_step h
  cases step_moves h with
  | mainCheck a e hdue =>
    rw [if_pos (by simp [checks, hdue])]
    exact (x.zapper.mainCheck_frame x.error).1.tdp
  | loopCheck a e hdue =>
    rw [if_pos (by simp [checks, hdue])]
    exact (x.zapper.loopCheck_frame x.error).1.tdp
  | mainCall a r hdue hcall =>
    rw [if_neg (by simp [checks, hdue]), Zapper.step, if_pos halive]
    exact ⟨_, mainStep_of_mainCall hcall, ((x.zapper.mainCalled r).mainCheck_frame r.1).1.tdp⟩
  | loopCall a r hdue hcall =>
    rw [if_neg (by simp [checks, hdue]), Zapper.step, if_pos halive]
    exact ⟨_, loopStep_of_loopCall hcall, ((x.zapper.called r).loopCheck_frame r.1).1.tdp⟩
  | zapper l s e hstep hchecks hloop hmain =>
    rw [if_neg (by simp [hchecks])]
    exact ⟨s, hstep, rfl⟩

/-- **A step is a request**, as far as the TDP API is concerned. -/
theorem tdp_of_request {q : Api.Request} (h : x.step params l = some y)
    (hq : x.request params l = some (a, q)) (ha : a = q.answer r x.zapper.player.tdp) :
    y.zapper.player.tdp = q.apply r x.zapper.player.tdp := by
  obtain ⟨hchecks, hrequest⟩ := request_eq_some hq
  have htdp := tdp_of_step h
  rw [if_neg (by simp [hchecks])] at htdp
  obtain ⟨s, hs, htdp⟩ := htdp
  rw [← htdp]
  exact Zapper.tdp_of_step hs hrequest ha

/-- A step that asks for nothing leaves the handles alone. -/
theorem handles_of_step (h : x.step params l = some y) (hq : x.request params l = none) :
    y.zapper.player.tdp.handles = x.zapper.player.tdp.handles := by
  have htdp := tdp_of_step h
  by_cases hchecks : x.checks l = true
  · rw [if_pos hchecks] at htdp
    rw [htdp]
  · rw [if_neg hchecks] at htdp
    obtain ⟨s, hs, htdp⟩ := htdp
    rw [request, if_neg hchecks] at hq
    rw [← htdp]
    exact Zapper.handles_of_step hs hq

/-- **What is asked for does not depend on a due check.** -/
theorem Sane.request_settled (hx : x.Sane) (hc : x.settled.Coherent)
    (halive : x.zapper.main.alive = true) (hchecks : x.checks l = false) :
    Zapper.request params x.settled l = Zapper.request params x.zapper l := by
  by_cases hloopDue : x.loopDue = none
  · by_cases hmainDue : x.mainDue = none
    · rw [settled_eq hmainDue hloopDue]
    · obtain ⟨hcalls, hidle⟩ := hx.main hmainDue
      obtain ⟨e, he⟩ := Option.ne_none_iff_exists'.mp hmainDue
      obtain ⟨st, me, pc, -, -, hcheck⟩ := State.mainCheck_eq hcalls e
      have hsettled : x.settled = x.zapper.moved st me pc x.zapper.loop := by
        simp only [settled, he, hloopDue]
        exact hcheck _ rfl rfl rfl
      have hworks : x.zapper.loop.works = false := by
        obtain hl | ⟨e, hl⟩ := hidle <;> rw [hl] <;> rfl
      rw [hsettled]
      refine request_moved st me ?_ fun _ _ => ⟨hworks, hworks⟩
      rintro a rfl
      simp [checks, he] at hchecks
  · obtain ⟨hmainDue, hthread, hjoin⟩ := hx.running hc halive hloopDue
    obtain ⟨e, he⟩ := Option.ne_none_iff_exists'.mp hloopDue
    obtain ⟨st, pc, -, -, hcheck⟩ := State.loopCheck_eq (hx.loop hloopDue) e
    have hsettled : x.settled = x.zapper.moved st x.zapper.mainError x.zapper.main pc := by
      simp only [settled, he, hmainDue]
      exact hcheck _ rfl rfl
    have hcalls : x.zapper.main.calls = false := by
      by_contra hcalls
      obtain hle | hlt := MainPc.stage_of_calls (by simpa using hcalls)
      · exact absurd hthread (not_lt_of_ge hle)
      · exact hjoin hlt
    rw [hsettled]
    refine request_moved st _ (fun _ _ => ⟨hcalls, hcalls⟩) ?_
    rintro a rfl
    simp [checks, he] at hchecks

/-- A call of `stream_deinit` has failed, and `main` is about to return. -/
theorem Sane.failed (hx : x.Sane) (halive : x.zapper.main.alive = true)
    (hdead : x.settled.main.alive = false) :
    x.mainDue = some .error ∧ x.loopDue = none ∧ ∃ q, x.zapper.main = .deinit q := by
  have hdue : x.mainDue ≠ none := by
    intro hnone
    rw [settled_main hnone, halive] at hdead
    cases hdead
  have hloopDue := hx.loopDue_eq hdue
  obtain ⟨e, he⟩ := Option.ne_none_iff_exists'.mp hdue
  simp only [settled, he, hloopDue] at hdead
  obtain ⟨rfl, hdeinit⟩ := State.error_of_mainCheck (hx.main hdue).1 hdead
  exact ⟨he, hloopDue, hdeinit⟩

end ErrorState

/-! ### The zapper and the player -/

/-- What the next step is: one of the zapper, with what the player says meanwhile, or one in which
`m_sectionReceivedCallback` gets at the section buffer. -/
inductive PeLabel
  | zapper (l : Label) (r : Api.Replies)
  | received (r : Api.Replies)

/-- The step of the zapper. -/
def PeLabel.label : PeLabel → Option Label
  | zapper l _ => some l
  | received _ => none

instance (r : Api.Replies) (T : Api.PeTable) : ∀ q : Api.Request, Decidable (q.Fresh r T)
  | .playerStreamCreate _ _ _ _ => inferInstanceAs (Decidable (_ ∉ _))
  | .playerInit | .playerDeinit _ | .playerSourceOpen _ | .playerSourceClose _ _
  | .playerStreamRemove _ _ _ | .playerVolumeSet _ _ | .playerVolumeGet _
  | .demuxRegisterSectionFilterCallback | .demuxUnregisterSectionFilterCallback _
  | .demuxSetFilter _ _ _ | .demuxFreeFilter _ _ | .sectionReceived => isTrue trivial

/-- The step sees what the player answers, and the handles that are returned are not in use. -/
structure Api.Request.Asked (a : Answer) (r : Api.Replies) (x : Tdp × PeTable)
    (q : Api.Request) : Prop where
  answer : a = q.answer r x.1
  returns : q.Returns r x.2
  fresh : q.Fresh r x.2

instance (a : Answer) (r : Api.Replies) (x : Tdp × Api.PeTable) (q : Api.Request) :
    Decidable (q.Asked a r x) :=
  decidable_of_iff (a = q.answer r x.1 ∧ q.Returns r x.2 ∧ q.Fresh r x.2)
    ⟨fun ⟨h₁, h₂, h₃⟩ => ⟨h₁, h₂, h₃⟩, fun h => ⟨h.answer, h.returns, h.fresh⟩⟩

/-- The zapper with the player. The player calls `m_sectionReceivedCallback` from its registration
on, which is never undone. -/
def stepPe (params : ConfigParams) (x : ErrorState × Api.PeTable) :
    PeLabel → Option (ErrorState × Api.PeTable)
  | .zapper l r =>
    match x.1.request params l with
    | none => (x.1.step params l).map (·, x.2)
    | some (a, q) =>
      if q.Asked a r (x.1.zapper.player.tdp, x.2) then
        (x.1.step params l).map (·, q.ask r (x.1.zapper.player.tdp, x.2))
      else none
  | .received r =>
    if x.1.zapper.main.alive && x.1.zapper.player.registered then
      some (x.1, Api.Request.sectionReceived.ask r (x.1.zapper.player.tdp, x.2))
    else none

/-- All calls have named live handles, what is live is what the globals hold, and behind
`stream_deinit` nothing is live. -/
structure Accounted (x : ErrorState × Api.PeTable) : Prop where
  orderly : Api.Orderly (x.1.zapper.player.tdp, x.2)
  closed : x.1.mainDue = none → x.1.zapper.main.closed = true → ∀ k, x.2.live k = 0

/-- The player does its part. -/
def DoesPart (params : ConfigParams) (x : ErrorState × Api.PeTable) : PeLabel → Prop
  | .zapper l r => ∀ a q, x.1.request params l = some (a, q) →
      q.Accepted x.1.zapper.player.tdp → q.Left r x.1.zapper.player.tdp
  | .received _ => x.1.zapper.player.tdp.hFilter ≠ 0

/-- A check reads the result of its own call. -/
def ChecksOwn (x : ErrorState × Api.PeTable) : PeLabel → Prop
  | .zapper l _ => x.1.ReadsOwn l
  | .received _ => True

instance (x : ErrorState × Api.PeTable) : ∀ b, Decidable (ChecksOwn x b)
  | .zapper l _ => inferInstanceAs (Decidable (x.1.ReadsOwn l))
  | .received _ => isTrue trivial

variable {x y : ErrorState × Api.PeTable} {b : PeLabel}

/-- The steps of the two. -/
theorem stepPe_cases (h : stepPe params x b = some y) :
    (∃ l r a q, b = .zapper l r ∧ x.1.request params l = some (a, q) ∧
      q.Asked a r (x.1.zapper.player.tdp, x.2) ∧ x.1.step params l = some y.1 ∧
        y.2 = q.ask r (x.1.zapper.player.tdp, x.2)) ∨
    (∃ l r, b = .zapper l r ∧ x.1.request params l = none ∧ x.1.step params l = some y.1 ∧
      y.2 = x.2) ∨
    ∃ r, b = .received r ∧
      y = (x.1, Api.Request.sectionReceived.ask r (x.1.zapper.player.tdp, x.2)) := by
  cases b with
  | zapper l r =>
    simp only [stepPe] at h
    split at h
    · next hq =>
      obtain ⟨y', hy', rfl⟩ := Option.map_eq_some_iff.mp h
      exact .inr (.inl ⟨l, r, rfl, hq, hy', rfl⟩)
    · next a q hq =>
      split at h
      · next hasked =>
        obtain ⟨y', hy', rfl⟩ := Option.map_eq_some_iff.mp h
        exact .inl ⟨l, r, a, q, rfl, hq, hasked, hy', rfl⟩
      · cases h
  | received r =>
    simp only [stepPe] at h
    split at h
    · exact .inr (.inr ⟨r, rfl, (Option.some.inj h).symm⟩)
    · cases h

/-- A run of the two is a run of the zapper. -/
theorem exec_of_exec_stepPe {bs : List PeLabel} (h : exec (stepPe params) x bs = some y) :
    exec (ErrorState.step params) x.1 (bs.filterMap PeLabel.label) = some y.1 := by
  induction bs generalizing x with
  | nil =>
    obtain rfl := Option.some.inj h
    rfl
  | cons b bs ih =>
    obtain ⟨z, hz, hbs⟩ := Option.bind_eq_some_iff.mp h
    obtain ⟨l, r, a, q, rfl, -, -, hs, -⟩ | ⟨l, r, rfl, -, hs, -⟩ | ⟨r, rfl, rfl⟩ :=
      stepPe_cases hz
    · exact Option.bind_eq_some_iff.mpr ⟨z.1, hs, ih hbs⟩
    · exact Option.bind_eq_some_iff.mpr ⟨z.1, hs, ih hbs⟩
    · have hrun := ih hbs
      exact hrun

/-- What holds of the zapper as long as all is accounted for. When a call of `stream_deinit` has
failed, `main` is about to return, and nothing is said of the stream controller any more. -/
structure PeInv (x : ErrorState) : Prop where
  due : x.Sane
  sane : Api.Sane x.zapper.player.tdp
  client : x.settled.main.alive = true → ClientInv x.settled
  closed : x.mainDue = none → x.zapper.main.closed = true →
    x.zapper.player.tdp.handles = Tdp.zero.handles

theorem PeInv.of_settled {x : ErrorState} (hx : x.Sane) (hs : ClientInv x.settled) : PeInv x := by
  have htdp := x.settled_frame.tdp
  refine ⟨hx, htdp ▸ hs.sane, fun _ => hs, fun hdue hclosed => ?_⟩
  rw [← ErrorState.settled_main hdue] at hclosed
  exact htdp ▸ hs.main.handles_of_closed hclosed

theorem peInv_powerOn : PeInv .powerOn :=
  .of_settled ErrorState.sane_powerOn clientInv_powerOn

/-- The handles that are there when the zapper knows what it holds. -/
theorem PeInv.accounted_iff (hx : PeInv x.1) :
    Accounted x ↔ Api.Orderly (x.1.zapper.player.tdp, x.2) := by
  refine ⟨Accounted.orderly, fun h => ⟨h, fun hdue hclosed k => ?_⟩⟩
  have hlive : x.2.live = Api.holds x.1.zapper.player.tdp := congrArg HandleTable.live h
  rw [hlive, Api.holds_congr (hx.closed hdue hclosed)]
  cases k <;> rfl

/-- The zapper keeps to its side, also when `main` is about to return. -/
theorem PeInv.kept {x : ErrorState} (hx : PeInv x) (hparams : params.KnownTypes)
    {q : Api.Request} (halive : x.zapper.main.alive = true)
    (hq : x.request params l = some (a, q)) (hacc : q.Accepted x.zapper.player.tdp) :
    q.Kept x.zapper.player.tdp := by
  obtain ⟨hchecks, hrequest⟩ := ErrorState.request_eq_some hq
  cases hsettled : x.settled.main.alive with
  | true =>
    have hs := hx.client hsettled
    rw [← hx.due.request_settled hs.coherent halive hchecks] at hrequest
    rw [← x.settled_frame.tdp] at hacc ⊢
    exact hs.kept hparams hrequest hacc
  | false =>
    obtain ⟨hdue, -, -⟩ := hx.due.failed halive hsettled
    obtain ⟨-, hidle⟩ := hx.due.main (by simp [hdue])
    refine kept_of_others hrequest ?_ ?_
    · rintro a rfl
      simp [ErrorState.checks, hdue] at hchecks
    · rintro a rfl
      have hworks : x.zapper.loop.works = false := by
        obtain hl | ⟨e, hl⟩ := hidle <;> rw [hl] <;> rfl
      rw [request_eq_none_of_loop hworks] at hrequest
      cases hrequest

/-- The globals stay sane. -/
theorem PeInv.sane_of_stepPe (hx : PeInv x.1) (hacc : Accounted x) (hparams : params.KnownTypes)
    (h : stepPe params x b = some y) : Api.Sane y.1.zapper.player.tdp := by
  have hT : x.2 = ⟨Api.holds x.1.zapper.player.tdp, true⟩ := hacc.orderly
  obtain ⟨l, r, a, q, rfl, hq, hasked, hstep, -⟩ | ⟨l, r, rfl, hq, hstep, -⟩ | ⟨r, rfl, rfl⟩ :=
    stepPe_cases h
  · have hreturns := hasked.returns
    have hfresh := hasked.fresh
    rw [hT] at hreturns hfresh
    rw [ErrorState.tdp_of_request hstep hq hasked.answer]
    exact hx.sane.apply hreturns hfresh
      fun hacc => hx.kept hparams (ErrorState.alive_of_step hstep) hq hacc
  · exact hx.sane.congr (ErrorState.handles_of_step hstep hq)
  · exact hx.sane

/-- A step of the zapper while a call of `stream_deinit` has failed. -/
private theorem PeInv.step_failed {x y : ErrorState} (hx : PeInv x) (hown : x.ReadsOwn l)
    (h : x.step params l = some y) (hsane : Api.Sane y.zapper.player.tdp)
    (hdead : x.settled.main.alive = false) : PeInv y := by
  obtain ⟨hdue, hloopDue, q, hm⟩ := hx.due.failed (ErrorState.alive_of_step h) hdead
  obtain ⟨hcalls, hidle⟩ := hx.due.main (by simp [hdue])
  cases ErrorState.step_moves h with
  | mainCheck a e he =>
    have herror : x.error = .error := hown .error (by simp [hdue])
    have hmain : (x.zapper.mainCheck x.error).main = .exited .error := by
      simp [State.mainCheck, herror, hm]
    refine ⟨⟨fun hne => absurd rfl hne, fun hne => absurd hloopDue hne⟩, hsane, fun halive => ?_,
      fun _ hclosed => ?_⟩
    · rw [ErrorState.settled_main rfl, hmain] at halive
      cases halive
    · rw [hmain] at hclosed
      cases hclosed
  | mainCall a r hnone => cases hdue.symm.trans hnone
  | loopCheck a e he => cases hloopDue.symm.trans he
  | loopCall a r hnone hcall =>
    have hl := LoopPc.callsPlayer_of_loopCall hcall
    obtain hidle | ⟨e, hidle⟩ := hidle <;> rw [hidle] at hl <;> cases hl
  | zapper l s e hstep hchecks hloop hmain =>
    have hl : ∀ a, l ≠ .main a := by
      rintro a rfl
      simp [ErrorState.checks, hdue] at hchecks
    obtain ⟨-, hmain, -, hloop, -⟩ := act_withMain x.zapper.player.status .error hcalls
      (MainPc.settles_of_calls (s := x.zapper) hcalls).1 (by rw [hm]; rfl) hidle hl
      (act_of_step hstep)
    refine ⟨⟨fun _ => by rw [hmain, hloop]; exact ⟨hcalls, hidle⟩, fun hne => absurd hloopDue hne⟩,
      hsane, fun halive => ?_, fun hnone _ => ?_⟩
    · simp [ErrorState.settled, hdue, hloopDue, State.mainCheck, hmain, hm, MainPc.alive] at halive
    · cases hdue.symm.trans hnone

/-- A step of the zapper. -/
private theorem PeInv.step_zapper {x y : ErrorState} (hx : PeInv x) (hparams : params.KnownTypes)
    (hown : x.ReadsOwn l) (h : x.step params l = some y)
    (hsane : Api.Sane y.zapper.player.tdp)
    (hopen : ∀ b i, x.request params l = some (b, .playerSourceOpen i) → b.handle ≠ 0) :
    PeInv y := by
  cases hsettled : x.settled.main.alive with
  | false => exact hx.step_failed hown h hsane hsettled
  | true =>
    have hs := hx.client hsettled
    obtain ⟨hdue, hstep⟩ := ErrorState.settled_of_step hx.due hs.coherent hsettled hown h
    refine .of_settled hdue ?_
    by_cases hchecks : x.checks l = true
    · rw [if_pos hchecks] at hstep
      exact hstep ▸ hs
    · rw [if_neg hchecks] at hstep
      have hrequest : request params x.settled l = request params x.zapper l :=
        hx.due.request_settled hs.coherent (ErrorState.alive_of_step h) (by simpa using hchecks)
      refine hs.step hparams hstep (y.settled_frame.tdp ▸ hsane) fun b hc => ?_
      refine hopen b x.settled.player.playerHandle ?_
      rw [ErrorState.request, if_neg hchecks, ← hrequest, request, hc]
      rfl

/-- **The step lemma.** The invariant is kept as long as all is accounted for, and all stays
accounted for exactly when the player does its part. -/
theorem PeInv.step (hx : PeInv x.1) (hacc : Accounted x) (hparams : params.KnownTypes)
    (hown : ChecksOwn x b) (h : stepPe params x b = some y) :
    PeInv y.1 ∧ (Accounted y ↔ DoesPart params x b) := by
  have hsane := hx.sane_of_stepPe hacc hparams h
  obtain ⟨l, r, a, q, rfl, hq, hasked, hstep, hy⟩ | ⟨l, r, rfl, hq, hstep, hy⟩ | ⟨r, rfl, rfl⟩ :=
    stepPe_cases h
  · have hinv := hx.step_zapper hparams hown hstep hsane fun b i hb => by
      obtain ⟨rfl, rfl⟩ := Prod.mk.inj (Option.some.inj (hq.symm.trans hb))
      rw [hasked.answer]
      exact hasked.returns
    refine ⟨hinv, ?_⟩
    rw [hinv.accounted_iff, ErrorState.tdp_of_request hstep hq hasked.answer, hy,
      Api.orderly_apply_iff hacc.orderly hx.sane hasked.returns fun hq' =>
        hx.kept hparams (ErrorState.alive_of_step hstep) hq hq']
    refine ⟨fun hleft b q hq' => ?_, fun hpart => hpart a q hq⟩
    obtain ⟨rfl, rfl⟩ := Prod.mk.inj (Option.some.inj (hq.symm.trans hq'))
    exact hleft
  · have hinv := hx.step_zapper hparams hown hstep hsane fun b i hb => by cases hq.symm.trans hb
    refine ⟨hinv, iff_of_true ?_ fun b q hq' => by cases hq.symm.trans hq'⟩
    rw [hinv.accounted_iff, Api.Orderly, hy, Api.holds_congr (ErrorState.handles_of_step hstep hq)]
    exact hacc.orderly
  · have hiff := Api.orderly_apply_iff (r := r) (q := .sectionReceived) hacc.orderly hx.sane
      trivial fun _ => trivial
    refine ⟨hx, Iff.trans ?_ (hiff.trans (forall_prop_of_true trivial))⟩
    exact PeInv.accounted_iff hx

/-- **Whose fault it would be.** In every run of the zapper with its player in which each check
reads the result of its own call, whatever the player answers and whenever it reports a section: all
calls name live handles, what is live is what the globals hold, and behind `stream_deinit` nothing
is, exactly when the player does its part. -/
theorem accounted_iff_doesPart (hparams : params.KnownTypes) (bs : List PeLabel)
    (hown : Meets (stepPe params) ChecksOwn (.powerOn, ⟨fun _ => 0, true⟩) bs) :
    Always (stepPe params) Accounted (.powerOn, ⟨fun _ => 0, true⟩) bs ↔
      Meets (stepPe params) (DoesPart params) (.powerOn, ⟨fun _ => 0, true⟩) bs := by
  refine always_iff_meets_of_meets (I := fun x => PeInv x.1) hown peInv_powerOn
    ((PeInv.accounted_iff peInv_powerOn).mpr ?_) ?_ ?_
  · exact congrArg (HandleTable.mk · true) (funext fun k => by cases k <;> rfl)
  · intro x b y hx hacc hown h
    exact (hx.step hacc hparams hown h).1
  · intro x b y hx hacc hown h
    exact (hx.step hacc hparams hown h).2

/-- All calls succeed. -/
def Answer.accepting (a : Answer) : Api.Replies := ⟨fun _ => true, a.handle, a.buffer⟩

/-- A step of the zapper where all calls succeed; the player has reported what is delivered. -/
def acceptedSteps : Label → List PeLabel
  | .main a => [.zapper (.main a) a.accepting]
  | .loop a => [.zapper (.loop a) a.accepting]
  | .input code value a => [.zapper (.input code value a) a.accepting]
  | .deliver d => [.received (Answer.ok 0).accepting, .zapper (.deliver d) (Answer.ok 0).accepting]
  | l => [.zapper l (Answer.ok 0).accepting]

/-- The whole run, up to the return of `main`, with each check behind its call. -/
def acceptedRun : List PeLabel :=
  (checkedRun (configIni 1) .powerOn
    (wholeRun ++ List.replicate 2 (Label.main (.ok 100)))).flatMap acceptedSteps

theorem left_of_accepting {c : PlayerCall} {q : Api.Request} (hq : c.request p = some q)
    (t : Tdp) : q.Left a.accepting t := by
  cases c with
  | createAudio pid type | createVideo pid type | removeAudio | removeVideo =>
    obtain ⟨-, hq⟩ := Option.ite_none_right_eq_some.mp hq
    obtain rfl := Option.some.inj hq
    trivial
  | setFilter pid tableId =>
    obtain rfl := Option.some.inj hq
    exact fun _ _ => rfl
  | freeFilter =>
    obtain rfl := Option.some.inj hq
    exact ⟨rfl, rfl⟩
  | deinit =>
    obtain rfl := Option.some.inj hq
    exact fun _ _ _ => rfl
  | _ =>
    obtain rfl := Option.some.inj hq
    trivial

theorem accounted_iff_doesPart_acceptedRun :
    Always (stepPe (configIni 1)) Accounted (.powerOn, ⟨fun _ => 0, true⟩) acceptedRun ∧
      ∃ y, exec (stepPe (configIni 1)) (.powerOn, ⟨fun _ => 0, true⟩) acceptedRun = some y ∧
        y.1.zapper.main = .exited .noError ∧ ∀ k, y.2.live k = 0 := by
  have hrun : (exec (stepPe (configIni 1)) (.powerOn, ⟨fun _ => 0, true⟩) acceptedRun).map
      (fun y => (y.1.zapper.main, y.1.mainDue)) = some (.exited .noError, none) := by
    decide +kernel
  -- a filter is set when a section is reported
  have hfilter : Meets (stepPe (configIni 1))
      (fun x b => b.label = none → x.1.zapper.player.tdp.hFilter ≠ 0)
      (.powerOn, ⟨fun _ => 0, true⟩) acceptedRun := by decide +kernel
  have haccepting : ∀ b ∈ acceptedRun,
      b.label = none ∨ ∃ l, ∃ a : Answer, b = .zapper l a.accepting := by
    intro b hb
    obtain ⟨l, -, hb⟩ := List.mem_flatMap.mp hb
    cases l <;> simp only [acceptedSteps, List.mem_cons, List.not_mem_nil, or_false] at hb
    all_goals first
    | exact .inr ⟨_, _, hb⟩
    | (obtain rfl | rfl := hb; exacts [.inl rfl, .inr ⟨_, _, rfl⟩])
  have hpart : Meets (stepPe (configIni 1)) (DoesPart (configIni 1))
      (.powerOn, ⟨fun _ => 0, true⟩) acceptedRun := by
    refine (hfilter.and (meets_of_forall haccepting)).mono fun x b hb => ?_
    cases b with
    | received r => exact hb.1 rfl
    | zapper l r =>
      obtain hnone | ⟨l', a, heq⟩ := hb.2
      · cases hnone
      · cases heq
        intro b q hq _
        obtain ⟨-, hq⟩ := ErrorState.request_eq_some hq
        obtain ⟨c, -, hq⟩ := request_eq_some hq
        exact left_of_accepting hq _
  have halways := (accounted_iff_doesPart ⟨rfl, rfl⟩ acceptedRun (by decide +kernel)).mpr hpart
  obtain ⟨y, hy, hend⟩ := Option.map_eq_some_iff.mp hrun
  obtain ⟨hmain, hdue⟩ := Prod.mk.inj hend
  refine ⟨halways, y, hy, hmain, (halways.exec hy).closed hdue ?_⟩
  rw [hmain]
  rfl

end Zapper
