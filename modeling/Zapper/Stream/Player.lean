import Zapper.Tables
import Zapper.Tdp

/-!
# The player side of the stream controller

`stream_controller.c` keeps the handles it got from the TDP API and two flags that say which
streams it has created. The operations here are the pieces of `stream_init`, `stream_loop` and
`stream_deinit` that call the player: each is one TDP call with the checks of its result and the
update of the bookkeeping.

`Player.Fits` says that the bookkeeping, the globals of the TDP API and what the player really
holds agree. Every operation keeps it, and is accepted, as long as the player's answers are good
(`Answer.Good`).
-/

namespace Zapper

/-- `stream_status`. -/
structure StreamStatus where
  audioOn : Bool
  videoOn : Bool
  deriving DecidableEq

/-- The handles and the stream status of the stream controller, and the state of the TDP API. -/
structure Player where
  playerHandle : ℕ
  sourceHandle : ℕ
  filterHandle : ℕ
  audioStreamHandle : ℕ
  videoStreamHandle : ℕ
  status : StreamStatus
  tdp : Tdp
  deriving DecidableEq

namespace Player

/-- Static memory. -/
def zero : Player := ⟨0, 0, 0, 0, 0, ⟨false, false⟩, .zero⟩

/-- Initialise the player. -/
def init (a : Answer) (p : Player) : TError × Player :=
  let (e, h, tdp) := p.tdp.playerInit a p.playerHandle
  (e, { p with playerHandle := h, tdp := tdp })

/-- Open the source. -/
def openSource (a : Answer) (p : Player) : TError × Player :=
  let (e, h, tdp) := p.tdp.playerSourceOpen a p.playerHandle p.sourceHandle
  (e, { p with sourceHandle := h, tdp := tdp })

/-- Set a filter. -/
def setFilter (a : Answer) (pid : ℕ) (tableId : UInt8) (p : Player) : TError × Player :=
  let (e, h, tdp) := p.tdp.demuxSetFilter a p.playerHandle pid tableId p.filterHandle
  (e, { p with filterHandle := h, tdp := tdp })

/-- Free the filter. -/
def freeFilter (a : Answer) (p : Player) : TError × Player :=
  let (e, tdp) := p.tdp.demuxFreeFilter a p.playerHandle p.filterHandle
  (e, { p with tdp := tdp })

/-- Create the video stream if the program has video. -/
def createVideo (a : Answer) (videoPid videoType : ℕ) (p : Player) : TError × Player :=
  if videoPid ≠ noPid then
    match p.tdp.playerStreamCreate a p.playerHandle p.sourceHandle videoPid videoType
      p.videoStreamHandle with
    | (.noError, h, tdp) =>
      (.noError, { p with
        videoStreamHandle := h
        tdp := tdp
        status := { p.status with videoOn := true } })
    | (.error, h, tdp) => (.error, { p with videoStreamHandle := h, tdp := tdp })
  else (.noError, p)

/-- Create the audio stream if the program has audio. -/
def createAudio (a : Answer) (audioPid audioType : ℕ) (p : Player) : TError × Player :=
  if audioPid ≠ noPid then
    match p.tdp.playerStreamCreate a p.playerHandle p.sourceHandle audioPid audioType
      p.audioStreamHandle with
    | (.noError, h, tdp) =>
      (.noError, { p with
        audioStreamHandle := h
        tdp := tdp
        status := { p.status with audioOn := true } })
    | (.error, h, tdp) => (.error, { p with audioStreamHandle := h, tdp := tdp })
  else (.noError, p)

/-- Remove the audio stream if it exists. -/
def removeAudio (a : Answer) (p : Player) : TError × Player :=
  if p.status.audioOn then
    match p.tdp.playerStreamRemove a p.playerHandle p.sourceHandle p.audioStreamHandle with
    | (.noError, tdp) =>
      (.noError, { p with tdp := tdp, status := { p.status with audioOn := false } })
    | (.error, tdp) => (.error, { p with tdp := tdp })
  else (.noError, p)

/-- Remove the video stream if it exists. -/
def removeVideo (a : Answer) (p : Player) : TError × Player :=
  if p.status.videoOn then
    match p.tdp.playerStreamRemove a p.playerHandle p.sourceHandle p.videoStreamHandle with
    | (.noError, tdp) =>
      (.noError, { p with tdp := tdp, status := { p.status with videoOn := false } })
    | (.error, tdp) => (.error, { p with tdp := tdp })
  else (.noError, p)

/-- Close the source. -/
def closeSource (a : Answer) (p : Player) : TError × Player :=
  let (e, tdp) := p.tdp.playerSourceClose a p.playerHandle p.sourceHandle
  (e, { p with tdp := tdp })

/-- Deinitialise the player. -/
def deinit (p : Player) : TError × Player :=
  let (e, tdp) := p.tdp.playerDeinit p.playerHandle
  (e, { p with tdp := tdp })

/-- `set_volume`, with the product computed in 32 bits. -/
def setVolume (a : Answer) (volume : ℕ) (p : Player) : TError × Player :=
  let (e, tdp) := p.tdp.playerVolumeSet a p.playerHandle (volume * 160400000 % 2 ^ 32)
  (e, { p with tdp := tdp })

end Player

/-! ### The side of the tuner -/

namespace Player

/-- The section filter callback is registered. -/
def registered (p : Player) : Bool := p.tdp.demuxSectionFilterCallback

/-- What no operation of the player touches: whether the tuner has been initialised, and which
callbacks are registered. -/
def tunerSide (p : Player) : Bool × Bool × Bool :=
  (p.tdp.initDone, p.tdp.tunerStatusCallback, p.tdp.demuxSectionFilterCallback)

variable (p : Player) (a : Answer)

@[simp] theorem tunerSide_init : (p.init a).2.tunerSide = p.tunerSide := by
  unfold init Tdp.playerInit
  split_ifs <;> rfl

@[simp] theorem tunerSide_openSource : (p.openSource a).2.tunerSide = p.tunerSide := by
  unfold openSource Tdp.playerSourceOpen
  split_ifs <;> rfl

@[simp] theorem tunerSide_setFilter (pid : ℕ) (tableId : UInt8) :
    (p.setFilter a pid tableId).2.tunerSide = p.tunerSide := by
  unfold setFilter Tdp.demuxSetFilter
  split_ifs <;> rfl

@[simp] theorem tunerSide_freeFilter : (p.freeFilter a).2.tunerSide = p.tunerSide := by
  unfold freeFilter Tdp.demuxFreeFilter
  split_ifs <;> rfl

theorem tunerSide_playerStreamCreate (pid type handle : ℕ) :
    { p with tdp := (p.tdp.playerStreamCreate a p.playerHandle p.sourceHandle pid type
      handle).2.2 }.tunerSide = p.tunerSide := by
  unfold Tdp.playerStreamCreate
  split_ifs <;> rfl

theorem tunerSide_playerStreamRemove (handle : ℕ) :
    { p with tdp := (p.tdp.playerStreamRemove a p.playerHandle p.sourceHandle
      handle).2 }.tunerSide = p.tunerSide := by
  unfold Tdp.playerStreamRemove
  split_ifs <;> rfl

@[simp] theorem tunerSide_createVideo (pid type : ℕ) :
    (p.createVideo a pid type).2.tunerSide = p.tunerSide := by
  unfold createVideo
  split
  · have hside := p.tunerSide_playerStreamCreate a pid type p.videoStreamHandle
    split
    · next heq =>
      rw [heq] at hside
      exact hside
    · next heq =>
      rw [heq] at hside
      exact hside
  · rfl

@[simp] theorem tunerSide_createAudio (pid type : ℕ) :
    (p.createAudio a pid type).2.tunerSide = p.tunerSide := by
  unfold createAudio
  split
  · have hside := p.tunerSide_playerStreamCreate a pid type p.audioStreamHandle
    split
    · next heq =>
      rw [heq] at hside
      exact hside
    · next heq =>
      rw [heq] at hside
      exact hside
  · rfl

@[simp] theorem tunerSide_removeAudio :
    (p.removeAudio a).2.tunerSide = p.tunerSide := by
  unfold removeAudio
  split
  · have hside := p.tunerSide_playerStreamRemove a p.audioStreamHandle
    split
    · next heq =>
      rw [heq] at hside
      exact hside
    · next heq =>
      rw [heq] at hside
      exact hside
  · rfl

@[simp] theorem tunerSide_removeVideo :
    (p.removeVideo a).2.tunerSide = p.tunerSide := by
  unfold removeVideo
  split
  · have hside := p.tunerSide_playerStreamRemove a p.videoStreamHandle
    split
    · next heq =>
      rw [heq] at hside
      exact hside
    · next heq =>
      rw [heq] at hside
      exact hside
  · rfl

@[simp] theorem tunerSide_closeSource :
    (p.closeSource a).2.tunerSide = p.tunerSide := by
  unfold closeSource Tdp.playerSourceClose
  split_ifs <;> rfl

@[simp] theorem tunerSide_deinit : p.deinit.2.tunerSide = p.tunerSide := by
  unfold deinit Tdp.playerDeinit
  split_ifs <;> rfl

theorem tunerSide_playerVolumeSet (level : ℕ) :
    { p with tdp := (p.tdp.playerVolumeSet a p.playerHandle level).2 }.tunerSide =
      p.tunerSide := by
  unfold Tdp.playerVolumeSet
  split_ifs <;> rfl

@[simp] theorem tunerSide_setVolume (volume : ℕ) :
    (p.setVolume a volume).2.tunerSide = p.tunerSide :=
  p.tunerSide_playerVolumeSet a _

end Player

/-! ### What the player holds -/

/-- The handles of the live streams of a kind. -/
def Pe.live (pe : Pe) (video : Bool) : List ℕ :=
  (pe.streams.filter fun st => st.video = video).map PeStream.handle

/-- The handles of the live section filters. -/
def Pe.liveFilters (pe : Pe) : List ℕ := pe.filters.map PeFilter.handle

theorem Pe.live_streamRemove (pe : Pe) (h : ℕ) (video : Bool) :
    (pe.streamRemove h).live video = (pe.live video).filter fun x => x ≠ h := by
  simp only [live, streamRemove, List.filter_map, List.filter_filter]
  refine congrArg _ (List.filter_congr fun st _ => ?_)
  simp [Bool.and_comm]

@[simp]
theorem Pe.live_removeSectionFilter (pe : Pe) (h : ℕ) (video : Bool) :
    (pe.removeSectionFilter h).live video = pe.live video := rfl

@[simp]
theorem Pe.liveFilters_streamRemove (pe : Pe) (h : ℕ) :
    (pe.streamRemove h).liveFilters = pe.liveFilters := rfl

theorem Pe.liveFilters_removeSectionFilter (pe : Pe) (h : ℕ) :
    (pe.removeSectionFilter h).liveFilters = pe.liveFilters.filter fun x => x ≠ h := by
  simp only [liveFilters, removeSectionFilter, List.filter_map]
  refine congrArg _ (List.filter_congr fun f _ => ?_)
  simp

/-- The calls succeed, and a returned handle is not zero and not one that is in use. -/
structure Answer.Good (a : Answer) (tdp : Tdp) : Prop where
  first : a.first = true
  second : a.second = true
  handle_ne_zero : a.handle ≠ 0
  fresh_stream : ∀ video, a.handle ∉ tdp.pe.live video
  fresh_filter : a.handle ∉ tdp.pe.liveFilters

/-- The bookkeeping agrees with what the player holds: the player and the source are open, the
streams that are on are exactly the live ones, and a section filter is live exactly when
`filter`. -/
structure Player.Fits (filter : Bool) (p : Player) : Prop where
  player : p.playerHandle = p.tdp.hPE
  player_ne_zero : p.tdp.hPE ≠ 0
  source : p.sourceHandle = p.tdp.hSource
  source_ne_zero : p.tdp.hSource ≠ 0
  audio : p.tdp.pe.live false = if p.status.audioOn then [p.audioStreamHandle] else []
  video : p.tdp.pe.live true = if p.status.videoOn then [p.videoStreamHandle] else []
  hStreamA : p.tdp.hStreamA = if p.status.audioOn then p.audioStreamHandle else 0
  hStreamV : p.tdp.hStreamV = if p.status.videoOn then p.videoStreamHandle else 0
  audio_ne_zero : p.status.audioOn = true → p.audioStreamHandle ≠ 0
  video_ne_zero : p.status.videoOn = true → p.videoStreamHandle ≠ 0
  distinct : p.status.audioOn = true → p.status.videoOn = true →
    p.audioStreamHandle ≠ p.videoStreamHandle
  filters : p.tdp.pe.liveFilters = if filter then [p.filterHandle] else []
  hFilter : filter = true → p.tdp.hFilter = p.filterHandle ∧ p.filterHandle ≠ 0

namespace Player.Fits

variable {p : Player} {a : Answer} {f : Bool}

/-- Setting a filter while none is live. -/
theorem setFilter (h : p.Fits false) (ha : a.Good p.tdp) (pid : ℕ) (tableId : UInt8) :
    ∃ p', p.setFilter a pid tableId = (.noError, p') ∧ p'.Fits true ∧ p'.status = p.status := by
  have hplayer := h.player
  have hne := h.player_ne_zero
  have hcall : p.setFilter a pid tableId = (.noError, { p with
      filterHandle := a.handle
      tdp := { p.tdp with
        hBuffer := a.buffer
        hFilter := a.handle
        pe := { p.tdp.pe with
          filters := p.tdp.pe.filters ++ [⟨a.handle, pid, tableId⟩] } } }) := by
    simp [Player.setFilter, Tdp.demuxSetFilter, hplayer, hne, ha.first, ha.second]
  refine ⟨_, hcall, ?_, rfl⟩
  exact { h with
    filters := by simpa [Pe.liveFilters] using h.filters
    hFilter := fun _ => ⟨rfl, ha.handle_ne_zero⟩ }

/-- Freeing the filter while it is live. -/
theorem freeFilter (h : p.Fits true) (ha : a.Good p.tdp) :
    ∃ p', p.freeFilter a = (.noError, p') ∧ p'.Fits false ∧ p'.status = p.status := by
  have hplayer := h.player
  have hne := h.player_ne_zero
  obtain ⟨hfilter, hfilter_ne⟩ := h.hFilter rfl
  have hcall : p.freeFilter a = (.noError, { p with
      tdp := { p.tdp with
        hBuffer := 0
        hFilter := 0
        pe := p.tdp.pe.removeSectionFilter p.filterHandle } }) := by
    simp [Player.freeFilter, Tdp.demuxFreeFilter, hplayer, hne, hfilter, hfilter_ne, ha.first]
  refine ⟨_, hcall, ?_, rfl⟩
  have hfilters := h.filters
  exact { h with
    filters := by simp [Pe.liveFilters_removeSectionFilter, hfilters]
    hFilter := by simp }

/-- Creating a video stream while none is live. -/
theorem createVideo (h : p.Fits f) (ha : a.Good p.tdp) (hoff : p.status.videoOn = false)
    (pid : ℕ) {type : ℕ} (htype : 39 ≤ type) :
    ∃ p', p.createVideo a pid type = (.noError, p') ∧ p'.Fits f ∧
      p'.status.audioOn = p.status.audioOn := by
  by_cases hpid : pid = noPid
  · exact ⟨p, by simp [Player.createVideo, hpid], h, rfl⟩
  have hplayer := h.player
  have hsource := h.source
  have hplayer_ne := h.player_ne_zero
  have hsource_ne := h.source_ne_zero
  have hcall : p.createVideo a pid type = (.noError, { p with
      videoStreamHandle := a.handle
      status := { p.status with videoOn := true }
      tdp := { p.tdp with
        hStreamV := a.handle
        pe := { p.tdp.pe with
          streams := p.tdp.pe.streams ++ [⟨a.handle, true, pid, type - 38⟩] } } }) := by
    simp [Player.createVideo, Tdp.playerStreamCreate, hpid, hplayer, hsource, hplayer_ne,
      hsource_ne, ha.first, ha.second, htype]
  refine ⟨_, hcall, ?_, rfl⟩
  have hfresh := ha.fresh_stream false
  have haudio := h.audio
  have hvideo := h.video
  exact { h with
    audio := by simpa [Pe.live, List.filter_append] using haudio
    video := by
      have : p.tdp.pe.live true = [] := by simpa [hoff] using hvideo
      simpa [Pe.live, List.filter_append] using this
    hStreamV := rfl
    video_ne_zero := fun _ => ha.handle_ne_zero
    distinct := by
      intro hon _ heq
      rw [haudio, if_pos hon, List.mem_singleton] at hfresh
      exact hfresh heq.symm }

/-- Creating an audio stream while none is live. -/
theorem createAudio (h : p.Fits f) (ha : a.Good p.tdp) (hoff : p.status.audioOn = false)
    (pid : ℕ) {type : ℕ} (htype : type < 39) :
    ∃ p', p.createAudio a pid type = (.noError, p') ∧ p'.Fits f ∧
      p'.status.videoOn = p.status.videoOn := by
  by_cases hpid : pid = noPid
  · exact ⟨p, by simp [Player.createAudio, hpid], h, rfl⟩
  have hplayer := h.player
  have hsource := h.source
  have hplayer_ne := h.player_ne_zero
  have hsource_ne := h.source_ne_zero
  have hcall : p.createAudio a pid type = (.noError, { p with
      audioStreamHandle := a.handle
      status := { p.status with audioOn := true }
      tdp := { p.tdp with
        hStreamA := a.handle
        pe := { p.tdp.pe with
          streams := p.tdp.pe.streams ++ [⟨a.handle, false, pid, type⟩] } } }) := by
    simp [Player.createAudio, Tdp.playerStreamCreate, hpid, hplayer, hsource, hplayer_ne,
      hsource_ne, ha.first, Nat.not_le.mpr htype]
  refine ⟨_, hcall, ?_, rfl⟩
  have hfresh := ha.fresh_stream true
  have haudio := h.audio
  have hvideo := h.video
  exact { h with
    audio := by
      have : p.tdp.pe.live false = [] := by simpa [hoff] using haudio
      simpa [Pe.live, List.filter_append] using this
    video := by simpa [Pe.live, List.filter_append] using hvideo
    hStreamA := rfl
    audio_ne_zero := fun _ => ha.handle_ne_zero
    distinct := by
      intro _ hon heq
      rw [hvideo, if_pos hon, List.mem_singleton] at hfresh
      exact hfresh heq }

/-- Removing the audio stream, if it is on. -/
theorem removeAudio (h : p.Fits f) (ha : a.Good p.tdp) :
    ∃ p', p.removeAudio a = (.noError, p') ∧ p'.Fits f ∧
      p'.status = { p.status with audioOn := false } := by
  by_cases hon : p.status.audioOn = true
  · have hplayer := h.player
    have hsource := h.source
    have hplayer_ne := h.player_ne_zero
    have hsource_ne := h.source_ne_zero
    have hA : p.tdp.hStreamA = p.audioStreamHandle := by simpa [hon] using h.hStreamA
    have hne := h.audio_ne_zero hon
    have hcall : p.removeAudio a = (.noError, { p with
        status := { p.status with audioOn := false }
        tdp := { p.tdp with
          hStreamA := 0
          pe := p.tdp.pe.streamRemove p.audioStreamHandle } }) := by
      simp [Player.removeAudio, Tdp.playerStreamRemove, hon, hplayer, hsource, hplayer_ne,
        hsource_ne, hA, hne, ha.first]
    refine ⟨_, hcall, ?_, rfl⟩
    have haudio := h.audio
    have hvideo := h.video
    exact { h with
      audio := by simp [Pe.live_streamRemove, haudio, hon]
      video := by
        rw [Pe.live_streamRemove, hvideo]
        split
        · next hv => simp [(h.distinct hon hv).symm]
        · rfl
      hStreamA := by simp
      audio_ne_zero := by simp
      distinct := by simp }
  · refine ⟨p, by simp [Player.removeAudio, hon], h, ?_⟩
    simp only [Bool.not_eq_true] at hon
    rw [← hon]

/-- Removing the video stream, if it is on. -/
theorem removeVideo (h : p.Fits f) (ha : a.Good p.tdp) :
    ∃ p', p.removeVideo a = (.noError, p') ∧ p'.Fits f ∧
      p'.status = { p.status with videoOn := false } := by
  by_cases hon : p.status.videoOn = true
  · have hplayer := h.player
    have hsource := h.source
    have hplayer_ne := h.player_ne_zero
    have hsource_ne := h.source_ne_zero
    have hV : p.tdp.hStreamV = p.videoStreamHandle := by simpa [hon] using h.hStreamV
    have hne := h.video_ne_zero hon
    -- the handle is compared with the audio stream's first
    have hneA : p.videoStreamHandle ≠ p.tdp.hStreamA := by
      rw [h.hStreamA]
      split
      · next haud => exact (h.distinct haud hon).symm
      · exact hne
    have hcall : p.removeVideo a = (.noError, { p with
        status := { p.status with videoOn := false }
        tdp := { p.tdp with
          hStreamV := 0
          pe := p.tdp.pe.streamRemove p.videoStreamHandle } }) := by
      simp [Player.removeVideo, Tdp.playerStreamRemove, hon, hplayer, hsource, hplayer_ne,
        hsource_ne, hV, hne, hneA, ha.first]
    refine ⟨_, hcall, ?_, rfl⟩
    have haudio := h.audio
    have hvideo := h.video
    exact { h with
      video := by simp [Pe.live_streamRemove, hvideo, hon]
      audio := by
        rw [Pe.live_streamRemove, haudio]
        split
        · next haud => simp [h.distinct haud hon]
        · rfl
      hStreamV := by simp
      video_ne_zero := by simp
      distinct := by simp }
  · refine ⟨p, by simp [Player.removeVideo, hon], h, ?_⟩
    simp only [Bool.not_eq_true] at hon
    rw [← hon]

end Player.Fits

end Zapper
