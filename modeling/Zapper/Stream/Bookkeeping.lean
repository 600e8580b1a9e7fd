import Zapper.Stream.Commands

/-!
# The handles of the player

Which streams and which filter the player holds is remembered in five globals, and kept up to
date by `stream_init`, by three copies of the switch block and by `stream_deinit`. What a place
of one of the threads relies on is a `Demand`: whether the section filter is set, and which
streams are certainly off. Every call meets the demand of the place behind it, as long as the
player's answers are good, so that the bookkeeping fits throughout a run (`bookkept`).
-/

namespace Zapper

open Transition

variable {params : ConfigParams} {a : Answer} {s s' : State} {l : Label} {p : Player}

/-! ### Demands -/

/-- What a place relies on: whether the section filter is set, and the streams that are off. -/
structure Demand where
  filter : Bool
  audioOff : Bool
  videoOff : Bool

/-- The player's bookkeeping fits, and meets the demand. -/
structure Player.Serves (d : Demand) (p : Player) : Prop where
  fits : p.Fits d.filter
  audio : d.audioOff = true → p.status.audioOn = false
  video : d.videoOff = true → p.status.videoOn = false

/-- No stream and no section filter is live. -/
structure Player.Idle (p : Player) : Prop where
  streams : ∀ video, p.tdp.pe.live video = []
  filters : p.tdp.pe.liveFilters = []
  status : p.status = ⟨false, false⟩

/-- Nothing has been created yet. -/
structure Player.Fresh (p : Player) : Prop extends p.Idle where
  hStreamA : p.tdp.hStreamA = 0
  hStreamV : p.tdp.hStreamV = 0

/-- The player is open. -/
structure Player.Open (p : Player) : Prop where
  player : p.playerHandle = p.tdp.hPE
  ne_zero : p.tdp.hPE ≠ 0

namespace Player

variable {d : Demand} {f x y : Bool}

/-! ### Each call meets the demand behind it -/

theorem Serves.setFilter (h : p.Serves ⟨false, x, y⟩) (ha : a.Good p.tdp) (pid : ℕ)
    (tableId : UInt8) :
    ∃ p', p.setFilter a pid tableId = (.noError, p') ∧ p'.Serves ⟨true, x, y⟩ := by
  obtain ⟨p', hp', hfits, hstatus⟩ := h.fits.setFilter ha pid tableId
  exact ⟨p', hp', hfits, hstatus ▸ h.audio, hstatus ▸ h.video⟩

theorem Serves.freeFilter (h : p.Serves ⟨true, x, y⟩) (ha : a.Good p.tdp) :
    ∃ p', p.freeFilter a = (.noError, p') ∧ p'.Serves ⟨false, x, y⟩ := by
  obtain ⟨p', hp', hfits, hstatus⟩ := h.fits.freeFilter ha
  exact ⟨p', hp', hfits, hstatus ▸ h.audio, hstatus ▸ h.video⟩

theorem Serves.removeAudio (h : p.Serves ⟨f, x, y⟩) (ha : a.Good p.tdp) :
    ∃ p', p.removeAudio a = (.noError, p') ∧ p'.Serves ⟨f, true, y⟩ := by
  obtain ⟨p', hp', hfits, hstatus⟩ := h.fits.removeAudio ha
  exact ⟨p', hp', hfits, fun _ => by rw [hstatus], by rw [hstatus]; exact h.video⟩

theorem Serves.removeVideo (h : p.Serves ⟨f, x, y⟩) (ha : a.Good p.tdp) :
    ∃ p', p.removeVideo a = (.noError, p') ∧ p'.Serves ⟨f, x, true⟩ := by
  obtain ⟨p', hp', hfits, hstatus⟩ := h.fits.removeVideo ha
  exact ⟨p', hp', hfits, by rw [hstatus]; exact h.audio, fun _ => by rw [hstatus]⟩

theorem Serves.createVideo (h : p.Serves ⟨f, x, true⟩) (ha : a.Good p.tdp) (pid : ℕ) {type : ℕ}
    (htype : 39 ≤ type) :
    ∃ p', p.createVideo a pid type = (.noError, p') ∧ p'.Serves ⟨f, x, false⟩ := by
  obtain ⟨p', hp', hfits, hstatus⟩ := h.fits.createVideo ha (h.video rfl) pid htype
  exact ⟨p', hp', hfits, fun hx => hstatus.trans (h.audio hx), by simp⟩

theorem Serves.createAudio (h : p.Serves ⟨f, true, y⟩) (ha : a.Good p.tdp) (pid : ℕ) {type : ℕ}
    (htype : type < 39) :
    ∃ p', p.createAudio a pid type = (.noError, p') ∧ p'.Serves ⟨f, false, y⟩ := by
  obtain ⟨p', hp', hfits, hstatus⟩ := h.fits.createAudio ha (h.audio rfl) pid htype
  exact ⟨p', hp', hfits, by simp, fun hy => hstatus.trans (h.video hy)⟩

/-- Opening the player. -/
theorem Fresh.init (h : p.Fresh) (ha : a.Good p.tdp) :
    ∃ p', p.init a = (.noError, p') ∧ p'.Fresh ∧ p'.Open := by
  have hcall : p.init a = (.noError, { p with
      playerHandle := a.handle
      tdp := { p.tdp with hPE := a.handle } }) := by
    simp [Player.init, Tdp.playerInit, ha.first, ha.second]
  exact ⟨_, hcall, { h with }, rfl, ha.handle_ne_zero⟩

/-- Opening the source. -/
theorem Fresh.openSource (h : p.Fresh) (hopen : p.Open) (ha : a.Good p.tdp) :
    ∃ p', p.openSource a = (.noError, p') ∧ p'.Serves ⟨false, true, true⟩ := by
  have hcall : p.openSource a = (.noError, { p with
      sourceHandle := a.handle
      tdp := { p.tdp with hSource := a.handle } }) := by
    simp [Player.openSource, Tdp.playerSourceOpen, hopen.player, hopen.ne_zero, ha.first,
      ha.second]
  refine ⟨_, hcall, ⟨?_, by simp [h.status], by simp [h.status]⟩⟩
  exact {
    player := hopen.player
    player_ne_zero := hopen.ne_zero
    source := rfl
    source_ne_zero := ha.handle_ne_zero
    audio := by simp [h.status, h.streams]
    video := by simp [h.status, h.streams]
    hStreamA := by simp [h.status, h.hStreamA]
    hStreamV := by simp [h.status, h.hStreamV]
    audio_ne_zero := by simp [h.status]
    video_ne_zero := by simp [h.status]
    distinct := by simp [h.status]
    filters := by simp [h.filters]
    hFilter := by simp }

/-- Closing the source. -/
theorem Serves.closeSource (h : p.Serves ⟨false, true, true⟩) (ha : a.Good p.tdp) :
    ∃ p', p.closeSource a = (.noError, p') ∧ p'.Idle ∧ p'.Open := by
  have hplayer := h.fits.player
  have hsource := h.fits.source
  have hplayer_ne := h.fits.player_ne_zero
  have hsource_ne := h.fits.source_ne_zero
  have hcall : p.closeSource a = (.noError, { p with tdp := { p.tdp with hSource := 0 } }) := by
    simp [Player.closeSource, Tdp.playerSourceClose, hplayer, hsource, hplayer_ne, hsource_ne,
      ha.first, ha.second]
  have haudio := h.audio rfl
  have hvideo := h.video rfl
  refine ⟨_, hcall, ⟨?_, by simpa using h.fits.filters, ?_⟩, hplayer, hplayer_ne⟩
  · rintro (_ | _)
    · simpa [haudio] using h.fits.audio
    · simpa [hvideo] using h.fits.video
  · have hstatus : p.status = ⟨p.status.audioOn, p.status.videoOn⟩ := rfl
    rwa [haudio, hvideo] at hstatus

/-- Closing the player. -/
theorem Idle.deinit (h : p.Idle) (hopen : p.Open) :
    ∃ p', p.deinit = (.noError, p') ∧ p'.Idle := by
  have hstreams : ∀ (pe : Pe) (b : Prop) [Decidable b] (x : ℕ) (video : Bool),
      pe.live video = [] → (if b then pe.streamRemove x else pe).live video = [] := by
    intro pe b _ x video hpe
    split
    · rw [Pe.live_streamRemove, hpe]
      rfl
    · exact hpe
  have hremove : ∀ (pe : Pe) (b : Prop) [Decidable b] (x : ℕ),
      (if b then pe.streamRemove x else pe).liveFilters = pe.liveFilters := by
    intro pe b _ x
    split <;> rfl
  simp only [Player.deinit, Tdp.playerDeinit, hopen.player, hopen.ne_zero, ne_eq, not_true_eq_false,
    if_false]
  refine ⟨_, rfl, ⟨fun video => ?_, ?_, h.status⟩⟩
  · have hlive := hstreams _ (p.tdp.hStreamA ≠ 0) p.tdp.hStreamA video
      (hstreams p.tdp.pe (p.tdp.hStreamV ≠ 0) p.tdp.hStreamV video (h.streams video))
    dsimp only
    split
    · rw [Pe.live_removeSectionFilter]
      exact hlive
    · exact hlive
  · dsimp only
    split
    · rw [Pe.liveFilters_removeSectionFilter, hremove, hremove, h.filters]
      rfl
    · rw [hremove, hremove, h.filters]

end Player

/-! ### What the places demand -/

/-- What the stream thread relies on at a place. -/
def LoopPc.demand : LoopPc → Demand
  | .switch _ .removeVideo => ⟨true, true, false⟩
  | .switch _ .freeFilter => ⟨true, true, true⟩
  | .switch _ .setFilter => ⟨false, true, true⟩
  | .switch _ .wait => ⟨true, true, true⟩
  | .switch _ .waiting => ⟨true, true, true⟩
  | .switch _ .createVideo => ⟨true, true, true⟩
  | .switch _ .createAudio => ⟨true, true, false⟩
  | _ => ⟨true, false, false⟩

/-- What the place of the main thread says about the player. From the start of the stream thread
until it has been joined, the main thread says nothing. -/
def MainPc.Holds (p : Player) : MainPc → Prop
  | .remoteInit => p.Fresh
  | .registerRemote => p.Fresh
  | .init .reset => p.Fresh
  | .init .loadCounter => p.Fresh
  | .init .tunerInit => p.Fresh
  | .init .registerTuner => p.Fresh
  | .init .lockTuner => p.Fresh
  | .init .waitTuner => p.Fresh
  | .init .waitingTuner => p.Fresh
  | .init .playerInit => p.Fresh
  | .init .openSource => p.Fresh ∧ p.Open
  | .init (.setFilter _) => p.Serves ⟨false, true, true⟩
  | .init .registerSections => p.Serves ⟨true, true, true⟩
  | .init (.wait _) => p.Serves ⟨true, true, true⟩
  | .init (.waiting _) => p.Serves ⟨true, true, true⟩
  | .init (.freeFilter _) => p.Serves ⟨true, true, true⟩
  | .init .checkAudioPid => p.Serves ⟨true, true, true⟩
  | .init .checkVideoPid => p.Serves ⟨true, true, true⟩
  | .init .createAudio => p.Serves ⟨true, true, true⟩
  | .init .createVideo => p.Serves ⟨true, false, true⟩
  | .init .createThread => p.Serves ⟨true, false, false⟩
  | .deinit .removeAudio => p.Serves ⟨true, false, false⟩
  | .deinit .removeVideo => p.Serves ⟨true, true, false⟩
  | .deinit .freeFilter => p.Serves ⟨true, true, true⟩
  | .deinit .closeSource => p.Serves ⟨false, true, true⟩
  | .deinit .deinitPlayer => p.Idle ∧ p.Open
  | .deinit .deinitTuner => p.Idle
  | .deinit .freeTables => p.Idle
  | .unregisterRemote => p.Idle
  | .remoteDeinit => p.Idle
  | _ => True

/-- The main thread is about to call the player. -/
def MainPc.callsPlayer : MainPc → Bool
  | .init .playerInit => true
  | .init .openSource => true
  | .init (.setFilter _) => true
  | .init .registerSections => true
  | .init (.freeFilter _) => true
  | .init .createAudio => true
  | .init .createVideo => true
  | .deinit .removeAudio => true
  | .deinit .removeVideo => true
  | .deinit .freeFilter => true
  | .deinit .closeSource => true
  | .deinit .deinitPlayer => true
  | _ => false

/-- The stream thread is about to call the player. -/
def LoopPc.callsPlayer : LoopPc → Bool
  | .switch _ .removeAudio => true
  | .switch _ .removeVideo => true
  | .switch _ .freeFilter => true
  | .switch _ .setFilter => true
  | .switch _ .createVideo => true
  | .switch _ .createAudio => true
  | _ => false

instance (a : Answer) (tdp : Tdp) : Decidable (a.Good tdp) :=
  decidable_of_iff (a.first = true ∧ a.second = true ∧ a.handle ≠ 0 ∧
      (a.handle ∉ tdp.pe.live false ∧ a.handle ∉ tdp.pe.live true) ∧
        a.handle ∉ tdp.pe.liveFilters)
    ⟨fun ⟨h₁, h₂, h₃, h₄, h₅⟩ => ⟨h₁, h₂, h₃, Bool.forall_bool.mpr h₄, h₅⟩,
      fun h => ⟨h.first, h.second, h.handle_ne_zero, Bool.forall_bool.mp h.fresh_stream,
        h.fresh_filter⟩⟩

/-- The player's calls succeed, with fresh handles that are not zero. -/
def GoodAnswers (s : State) : Label → Prop
  | .main a => s.main.callsPlayer = true → a.Good s.player.tdp
  | .loop a => s.loop.callsPlayer = true → a.Good s.player.tdp
  | _ => True

instance (s : State) : ∀ l, Decidable (GoodAnswers s l)
  | .main a => inferInstanceAs (Decidable (s.main.callsPlayer = true → a.Good s.player.tdp))
  | .loop a => inferInstanceAs (Decidable (s.loop.callsPlayer = true → a.Good s.player.tdp))
  | .input _ _ _ => isTrue trivial
  | .deliver _ => isTrue trivial
  | .signal => isTrue trivial
  | .tuner _ => isTrue trivial
  | .timeout => isTrue trivial
  | .expire => isTrue trivial
  | .handler _ => isTrue trivial

/-- `stream_init` fails in this step. -/
def failsInit (params : ConfigParams) (s : State) (l : Label) : Bool :=
  match s.main, step params s l with
  | .init _, some s' => s'.main = .deinit .stop
  | _, _ => false

/-- All steps of `stream_init` have been made, but for the missing `return`. -/
def InitPc.returns : InitPc → Bool
  | .announcing _ _ => true
  | _ => false

/-- The types of the streams that `parse_config_file` stores: MPEG audio and MPEG-2 video. -/
structure ConfigParams.KnownTypes (params : ConfigParams) : Prop where
  audio : params.audioType = 10
  video : params.videoType = 42

/-! ### What a step does to the player -/

/-- A step of the stream thread that does not call the player. -/
theorem silent_of_loopStep (h : loopStep params a s = some s') (hc : s.loop.callsPlayer = false) :
    s'.player = s.player ∧ s'.loop.demand = s.loop.demand ∧ s'.loop ≠ .exited .error := by
  cases hl : s.loop with
  | switch c p =>
    have h : switchStep params a c s p = some s' := by simpa [loopStep, hl] using h
    rw [hl] at hc
    cases p with
    | removeAudio | removeVideo | freeFilter | setFilter | createVideo | createAudio => cases hc
    | wait | announce =>
      simp only [switchStep] at h
      split at h <;> cases h <;> exact ⟨rfl, rfl, by simp⟩
    | waiting => cases h
    | clear =>
      obtain rfl := Option.some.inj h
      cases c <;> exact ⟨rfl, rfl, by simp [Command.following]⟩
    | _ =>
      obtain rfl := Option.some.inj h
      exact ⟨rfl, rfl, by simp⟩
  | test c =>
    simp only [loopStep, hl] at h
    split at h <;> cases h <;> cases c <;> exact ⟨rfl, rfl, by simp [Command.following]⟩
  | head | info | list =>
    simp only [loopStep, hl] at h
    split at h <;> cases h <;> exact ⟨rfl, rfl, by simp⟩
  | notCreated | exited e => simp [loopStep, hl] at h

/-- **A step of the stream thread** is never refused by the player, and meets the demand of the
place behind it. -/
theorem serves_of_loopStep (hparams : params.KnownTypes) (h : loopStep params a s = some s')
    (ha : s.loop.callsPlayer = true → a.Good s.player.tdp)
    (hs : s.player.Serves s.loop.demand) :
    s'.player.Serves s'.loop.demand ∧ s'.loop ≠ .exited .error := by
  have haudio : params.audioType < 39 := by rw [hparams.audio]; decide
  have hvideo : 39 ≤ params.videoType := by rw [hparams.video]; decide
  -- a call that succeeds
  have hcall : ∀ {r : TError × Player} {p' : Player} {pc : LoopPc},
      some (s.loopAssert r pc) = some s' → r = (.noError, p') → p'.Serves pc.demand →
        pc ≠ .exited .error → s'.player.Serves s'.loop.demand ∧ s'.loop ≠ .exited .error := by
    rintro _ p' pc h rfl hp' hpc
    obtain rfl := Option.some.inj h
    exact ⟨hp', hpc⟩
  -- a step that leaves the player alone
  have hsilent : s.loop.callsPlayer = false →
      s'.player.Serves s'.loop.demand ∧ s'.loop ≠ .exited .error := by
    intro hc
    obtain ⟨hplayer, hdemand, hloop⟩ := silent_of_loopStep h hc
    exact ⟨by rwa [hplayer, hdemand], hloop⟩
  cases hl : s.loop with
  | switch c p =>
    have h : switchStep params a c s p = some s' := by simpa [loopStep, hl] using h
    cases p with
    | removeAudio =>
      rw [hl] at hs ha
      obtain ⟨p', hp', hserves⟩ := hs.removeAudio (ha rfl)
      exact hcall h hp' hserves (by simp)
    | removeVideo =>
      rw [hl] at hs ha
      obtain ⟨p', hp', hserves⟩ := hs.removeVideo (ha rfl)
      exact hcall h hp' hserves (by simp)
    | freeFilter =>
      rw [hl] at hs ha
      obtain ⟨p', hp', hserves⟩ := hs.freeFilter (ha rfl)
      exact hcall h hp' hserves (by simp)
    | setFilter =>
      rw [hl] at hs ha
      obtain ⟨p', hp', hserves⟩ := hs.setFilter (ha rfl) s.selected.tableId Table.pmt.tableId
      exact hcall h hp' hserves (by simp)
    | createVideo =>
      rw [hl] at hs ha
      obtain ⟨p', hp', hserves⟩ := hs.createVideo (ha rfl) s.selected.videoPid hvideo
      exact hcall h hp' hserves (by simp)
    | createAudio =>
      rw [hl] at hs ha
      obtain ⟨p', hp', hserves⟩ := hs.createAudio (ha rfl) s.selected.audioPid haudio
      exact hcall h hp' hserves (by simp)
    | _ => exact hsilent (by rw [hl]; rfl)
  | _ => exact hsilent (by rw [hl]; rfl)

/-- A call of the tuner part leaves what the player holds alone. -/
theorem Player.Fresh.tuner (h : p.Fresh) {r : TError × Tdp} (hpe : r.2.pe = p.tdp.pe)
    (hA : r.2.hStreamA = p.tdp.hStreamA) (hV : r.2.hStreamV = p.tdp.hStreamV) :
    (p.tuner r).2.Fresh where
  streams := by simpa [Player.tuner, hpe] using h.streams
  filters := by simpa [Player.tuner, hpe] using h.filters
  status := h.status
  hStreamA := hA.trans h.hStreamA
  hStreamV := hV.trans h.hStreamV

/-- Neither does the registration of the callback. -/
theorem Player.Serves.registerSections {d : Demand} (h : p.Serves d) (a : Answer) :
    (p.tuner (p.tdp.demuxRegisterSectionFilterCallback a)).2.Serves d := by
  have hfits := h.fits
  unfold Player.tuner Tdp.demuxRegisterSectionFilterCallback
  split
  · exact h
  · split
    · exact ⟨{ hfits with }, h.audio, h.video⟩
    · exact h

/-- **A step of `stream_init`** that does not fail before the stream thread runs. -/
theorem holds_of_initStep {q : InitPc} (hparams : params.KnownTypes)
    (h : initStep params a s q = some s') (ha : (MainPc.init q).callsPlayer = true →
      a.Good s.player.tdp) (hinit : q.returns = false → s'.main ≠ .deinit .stop)
    (hm : (MainPc.init q).Holds s.player) : s'.main.Holds s'.player := by
  have haudio : params.audioType < 39 := by rw [hparams.audio]; decide
  have hvideo : 39 ≤ params.videoType := by rw [hparams.video]; decide
  -- a call that succeeds, as it has to
  have hcall : ∀ {r : TError × Player} {pc : InitPc}, some (s.initAssert r pc) = some s' →
      q.returns = false → (MainPc.init pc).Holds r.2 → s'.main.Holds s'.player := by
    intro r pc h hq hr
    obtain rfl := Option.some.inj h
    obtain ⟨-, he⟩ | ⟨-, he⟩ := s.initAssert_cases r pc
    · rw [he]
      exact hr
    · rw [he] at hinit
      exact absurd rfl (hinit hq)
  cases q with
  | reset =>
    obtain rfl := Option.some.inj h
    exact { hm with status := rfl }
  | loadCounter =>
    obtain rfl := Option.some.inj h
    exact hm
  | tunerInit =>
    refine hcall h rfl (hm.tuner ?_ ?_ ?_) <;> unfold Tdp.tunerInit <;> split <;> rfl
  | registerTuner =>
    refine hcall h rfl (hm.tuner ?_ ?_ ?_) <;> unfold Tdp.tunerRegisterStatusCallback <;>
      split <;> rfl
  | lockTuner =>
    obtain rfl := Option.some.inj h
    have hfresh : (s.player.tuner (s.player.tdp.tunerLockToFrequency a)).2.Fresh := by
      refine hm.tuner ?_ ?_ ?_ <;> unfold Tdp.tunerLockToFrequency <;> split <;> rfl
    obtain ⟨-, he⟩ | ⟨-, he⟩ :=
      s.initAssert_cases (s.player.tuner (s.player.tdp.tunerLockToFrequency a)) .waitTuner
    · rw [he]
      exact hfresh
    · rw [he] at hinit
      exact absurd rfl (hinit rfl)
  | waitTuner | wait t =>
    simp only [initStep] at h
    split at h
    · cases h
    · obtain rfl := Option.some.inj h
      exact hm
  | waitingTuner | waiting t => cases h
  | playerInit =>
    obtain ⟨p', hp', hfresh⟩ := hm.init (ha rfl)
    exact hcall h rfl (by rw [hp']; exact hfresh)
  | openSource =>
    obtain ⟨p', hp', hserves⟩ := hm.1.openSource hm.2 (ha rfl)
    exact hcall h rfl (by rw [hp']; exact hserves)
  | setFilter t =>
    obtain ⟨p', hp', hserves⟩ := hm.setFilter (ha rfl) (t.pid s) t.tableId
    refine hcall h rfl ?_
    rw [hp']
    split <;> exact hserves
  | registerSections => exact hcall h rfl (hm.registerSections a)
  | freeFilter t =>
    obtain ⟨p', hp', hserves⟩ := hm.freeFilter (ha rfl)
    exact hcall h rfl (by rw [hp']; exact hserves)
  | checkAudioPid | checkVideoPid =>
    simp only [initStep] at h
    split at h
    · obtain rfl := Option.some.inj h
      exact absurd rfl (hinit rfl)
    · obtain rfl := Option.some.inj h
      exact hm
  | createAudio =>
    obtain ⟨p', hp', hserves⟩ := hm.createAudio (ha rfl) s.selected.audioPid haudio
    exact hcall h rfl (by rw [hp']; exact hserves)
  | createVideo =>
    obtain ⟨p', hp', hserves⟩ := hm.createVideo (ha rfl) s.selected.videoPid hvideo
    exact hcall h rfl (by rw [hp']; exact hserves)
  | createThread =>
    simp only [initStep] at h
    split at h
    · obtain rfl := Option.some.inj h
      exact trivial
    · obtain rfl := Option.some.inj h
      exact absurd rfl (hinit rfl)
  | announce =>
    obtain rfl := Option.some.inj h
    exact trivial
  | announcing progNum radio =>
    simp only [initStep] at h
    split at h <;> cases h <;> exact trivial

/-- **A step of `stream_deinit`** keeps to its code, and is never refused by the player. -/
theorem holds_of_deinitStep {q : DeinitPc} (h : deinitStep a s q = some s')
    (ha : (MainPc.deinit q).callsPlayer = true → a.Good s.player.tdp)
    (hm : (MainPc.deinit q).Holds s.player)
    (hstop : q = .stop → s.streamThreadRunning = true)
    (hjoin : q = .join → s.loop ≠ .exited .error ∧
      (s.loop = .exited .noError → s.player.Serves ⟨true, false, false⟩))
    (htuner : s.player.tdp.initDone = true) :
    s'.main.Holds s'.player ∧ s'.main ≠ .exited .error := by
  have hcall : ∀ {r : TError × Player} {p' : Player} {pc : MainPc},
      some (s.deinitAssert r pc) = some s' → r = (.noError, p') → pc.Holds p' →
        pc ≠ .exited .error → s'.main.Holds s'.player ∧ s'.main ≠ .exited .error := by
    rintro _ p' pc h rfl hp' hpc
    obtain rfl := Option.some.inj h
    exact ⟨hp', hpc⟩
  cases q with
  | stop =>
    simp only [deinitStep, hstop rfl, if_true] at h
    obtain rfl := Option.some.inj h
    exact ⟨trivial, by simp⟩
  | join =>
    obtain ⟨hloop, hserves⟩ := hjoin rfl
    simp only [deinitStep] at h
    split at h
    · next hreturned =>
      obtain rfl := Option.some.inj h
      exact ⟨hserves hreturned, by simp⟩
    · next he => exact absurd he hloop
    · cases h
  | removeAudio =>
    obtain ⟨p', hp', hserves⟩ := hm.removeAudio (ha rfl)
    exact hcall h hp' hserves (by simp)
  | removeVideo =>
    obtain ⟨p', hp', hserves⟩ := hm.removeVideo (ha rfl)
    exact hcall h hp' hserves (by simp)
  | freeFilter =>
    obtain ⟨p', hp', hserves⟩ := hm.freeFilter (ha rfl)
    exact hcall h hp' hserves (by simp)
  | closeSource =>
    obtain ⟨p', hp', hidle⟩ := hm.closeSource (ha rfl)
    exact hcall h hp' hidle (by simp)
  | deinitPlayer =>
    obtain ⟨p', hp', hidle⟩ := hm.1.deinit hm.2
    exact hcall h hp' hidle (by simp)
  | deinitTuner =>
    have hdeinit : s.player.tuner s.player.tdp.tunerDeinit = (.noError, s.player) := by
      simp [Player.tuner, Tdp.tunerDeinit, htuner]
    exact hcall h hdeinit hm (by simp)
  | freeTables =>
    obtain rfl := deinitStep_freeTables h
    exact ⟨hm, by simp⟩

/-- The place of the main thread speaks for the player after a step, too. -/
theorem holds_of_mainStep (hparams : params.KnownTypes) (h : mainStep params a s = some s')
    (ha : s.main.callsPlayer = true → a.Good s.player.tdp)
    (hinit : ∀ q, s.main = .init q → q.returns = false → s'.main ≠ .deinit .stop)
    (hm : s.main.Holds s.player)
    (hstop : s.main = .deinit .stop → s.streamThreadRunning = true)
    (hjoin : s.main = .deinit .join → s.loop ≠ .exited .error ∧
      (s.loop = .exited .noError → s.player.Serves ⟨true, false, false⟩))
    (htuner : ∀ q, s.main = .deinit q → s.player.tdp.initDone = true) :
    s'.main.Holds s'.player ∧ ∀ q, s.main = .deinit q → s'.main ≠ .exited .error := by
  cases hp : s.main with
  | init q =>
    rw [hp] at ha hm
    refine ⟨holds_of_initStep hparams ?_ ha (hinit q hp) hm, by simp⟩
    simpa [mainStep, hp] using h
  | deinit q =>
    rw [hp] at ha hm
    have hstep := holds_of_deinitStep (q := q) (by simpa [mainStep, hp] using h) ha hm
      (fun hq => hstop (hq ▸ hp)) (fun hq => hjoin (hq ▸ hp)) (htuner q hp)
    exact ⟨hstep.1, fun _ _ => hstep.2⟩
  | _ =>
    refine ⟨?_, by simp⟩
    rw [player_of_mainStep_outside h (by simp [hp]) (by simp [hp])]
    rw [hp] at hm
    simp only [mainStep, hp] at h
    -- the places ahead say the same about the player, or nothing
    first
    | (obtain rfl := Option.some.inj h; exact hm)
    | (split at h <;> obtain rfl := Option.some.inj h <;> first | exact hm | exact trivial)
    | cases h

/-- While the stream thread runs, the main thread leaves the player alone. -/
theorem player_of_mainStep (h : mainStep params a s = some s')
    (hs : (MainPc.init .createThread).stage ≤ s.main.stage)
    (hjoin : ¬ s.Past (.deinit .join)) : s'.player = s.player := by
  rw [State.Past] at hjoin
  cases hm : s.main with
  | init q =>
    have h : initStep params a s q = some s' := by simpa [mainStep, hm] using h
    rw [hm] at hs
    cases q with
    | createThread | announcing progNum radio =>
      simp only [initStep] at h
      split at h <;> cases h <;> rfl
    | announce =>
      obtain rfl := Option.some.inj h
      rfl
    | setFilter t | wait t | waiting t | freeFilter t => cases t <;> exact absurd hs (by decide)
    | _ => exact absurd hs (by decide)
  | deinit q =>
    have h : deinitStep a s q = some s' := by simpa [mainStep, hm] using h
    rw [hm] at hjoin
    cases q with
    | stop | join =>
      simp only [deinitStep] at h
      split at h <;> cases h <;> rfl
    | _ => exact absurd (by decide) hjoin
  | _ => exact player_of_mainStep_outside h (by simp [hm]) (by simp [hm])

/-- When `stream_init` does not fail, there is a stream thread behind it. -/
theorem created_of_mainStep (h : mainStep params a s = some s')
    (hinit : ∀ q, s.main = .init q → q.returns = false → s'.main ≠ .deinit .stop)
    (hs : ¬ s.Past (.init .createThread)) (hs' : s'.Past (.init .createThread))
    (halive : s'.main.alive = true) : s'.loop = .head := by
  have hn := main_of_mainStep h
  rw [State.Past] at hs hs'
  cases hm : s.main with
  | init q =>
    have h : initStep params a s q = some s' := by simpa [mainStep, hm] using h
    rw [hm] at hs hn
    obtain hn | hn := hn
    · rw [hn] at hs'
      cases q with
      | createThread =>
        simp only [initStep] at h
        split at h
        · obtain rfl := Option.some.inj h
          rfl
        · obtain rfl := Option.some.inj h
          cases hn
      | announce | announcing progNum radio =>
        exact absurd (by simp [MainPc.stage, InitPc.stage]) hs
      | setFilter t | wait t | waiting t | freeFilter t =>
        cases t <;> exact absurd hs' (by
          simp [MainPc.next, InitPc.next, MainPc.stage, InitPc.stage, Table.index, Table.afterWait])
      | _ => exact absurd hs' (by simp [MainPc.next, InitPc.next, MainPc.stage, InitPc.stage,
          Table.index])
    · cases hq : q.returns with
      | false => exact absurd hn (hinit q hm hq)
      | true =>
        cases q <;> cases hq
        exact absurd (by simp [MainPc.stage, InitPc.stage]) hs
  | remoteInit | registerRemote =>
    rw [hm] at hn
    obtain hn | hn := hn
    · rw [hn] at hs'
      exact absurd hs' (by simp [MainPc.next, MainPc.stage, InitPc.stage])
    · rw [hn] at halive
      cases halive
  | deinit q =>
    rw [hm] at hs
    exact absurd (show 30 < 36 + q.stage by omega) hs
  | _ =>
    rw [hm] at hs
    exact absurd (by simp [MainPc.stage, InitPc.stage]) hs

theorem initDone_of_tunerSide {p' : Player} (h : p'.tunerSide = p.tunerSide) :
    p'.tdp.initDone = p.tdp.initDone := congrArg (fun x => x.1) h

/-- The tuner is initialised from its initialisation on. -/
theorem initDone_of_mainStep (h : mainStep params a s = some s')
    (hinit : ∀ q, s.main = .init q → q.returns = false → s'.main ≠ .deinit .stop)
    (hs : s.Past (.init .tunerInit) → s.player.tdp.initDone = true)
    (hs' : s'.Past (.init .tunerInit)) (halive : s'.main.alive = true) :
    s'.player.tdp.initDone = true := by
  have hpast : s.main ≠ .init .tunerInit → s.Past (.init .tunerInit) := by
    intro hne
    have hn := main_of_mainStep h
    rw [State.Past] at hs' ⊢
    cases hm : s.main with
    | init q =>
      rw [hm] at hn hne
      cases q with
      | reset | loadCounter =>
        obtain hn | hn := hn
        · rw [hn] at hs'
          exact absurd hs' (by simp [MainPc.next, InitPc.next, MainPc.stage, InitPc.stage])
        · exact absurd hn (hinit _ hm rfl)
      | tunerInit => exact absurd rfl hne
      | setFilter t | wait t | waiting t | freeFilter t => cases t <;> decide
      | _ => simp [MainPc.stage, InitPc.stage]
    | remoteInit | registerRemote =>
      rw [hm] at hn
      obtain hn | hn := hn
      · rw [hn] at hs'
        exact absurd hs' (by simp [MainPc.next, MainPc.stage, InitPc.stage])
      · rw [hn] at halive
        cases halive
    | deinit q => exact show 4 < 36 + q.stage by omega
    | _ => simp [MainPc.stage, InitPc.stage]
  by_cases hm : s.main = .init .tunerInit
  · -- the initialisation has not failed
    have hne := hinit _ hm rfl
    simp only [mainStep, hm, initStep] at h
    obtain rfl := Option.some.inj h
    obtain ⟨hok, he⟩ | ⟨-, he⟩ :=
      s.initAssert_cases (s.player.tuner (s.player.tdp.tunerInit a)) .registerTuner
    · rw [he]
      revert hok
      unfold Player.tuner Tdp.tunerInit
      split <;> simp
    · rw [he] at hne
      exact absurd rfl hne
  · have hdone := hs (hpast hm)
    obtain hside | hm' | hm' | hm' := tunerSide_of_mainStep h
    · exact (initDone_of_tunerSide hside).trans hdone
    · exact absurd hm' hm
    · simp only [mainStep, hm', initStep] at h
      obtain rfl := Option.some.inj h
      simp only [State.initAssert_player, Player.tuner, Tdp.tunerRegisterStatusCallback]
      split <;> exact hdone
    · simp only [mainStep, hm', initStep] at h
      obtain rfl := Option.some.inj h
      simp only [State.initAssert_player, Player.tuner, Tdp.demuxRegisterSectionFilterCallback]
      split_ifs <;> exact hdone

/-! ### The volume -/

/-- The player with another volume. -/
def Player.withVolume (volume : ℕ) (p : Player) : Player :=
  { p with tdp := { p.tdp with pe := { p.tdp.pe with volume := volume } } }

theorem Player.setVolume_cases (p : Player) (a : Answer) (volume : ℕ) :
    (p.setVolume a volume).2 = p ∨ ∃ v, (p.setVolume a volume).2 = p.withVolume v := by
  unfold Player.setVolume Tdp.playerVolumeSet
  dsimp only
  split_ifs
  · exact .inl rfl
  · exact .inl rfl
  · exact .inr ⟨_, rfl⟩
  · exact .inl rfl

namespace Player

variable {v : ℕ}

theorem Serves.withVolume {d : Demand} (h : p.Serves d) : (p.withVolume v).Serves d :=
  ⟨{ h.fits with }, h.audio, h.video⟩

theorem Idle.withVolume (h : p.Idle) : (p.withVolume v).Idle := { h with }

theorem Fresh.withVolume (h : p.Fresh) : (p.withVolume v).Fresh := { h with }

theorem Open.withVolume (h : p.Open) : (p.withVolume v).Open := { h with }

end Player

theorem MainPc.Holds.withVolume {m : MainPc} {v : ℕ} (h : m.Holds p) :
    m.Holds (p.withVolume v) := by
  cases m with
  | init q =>
    cases q <;> first
    | exact trivial
    | exact Player.Fresh.withVolume h
    | exact Player.Serves.withVolume h
    | exact ⟨h.1.withVolume, h.2.withVolume⟩
  | deinit q =>
    cases q <;> first
    | exact trivial
    | exact Player.Serves.withVolume h
    | exact Player.Idle.withVolume h
    | exact ⟨h.1.withVolume, h.2.withVolume⟩
  | _ => first
    | exact trivial
    | exact Player.Fresh.withVolume h
    | exact Player.Idle.withVolume h

/-- A key changes the volume at most. -/
theorem player_of_callback {code value : ℕ} (h : callback a code value s = some s') :
    s'.player = s.player ∨ ∃ v, s'.player = s.player.withVolume v := by
  obtain ⟨k, -, h⟩ | ⟨-, rfl⟩ := callback_cases h
  · obtain hp | ⟨volume, hp⟩ := player_of_press h
    · exact .inl hp
    · rw [hp]
      exact s.player.setVolume_cases a volume
  · exact .inl rfl

/-! ### The invariant -/

/-- Both threads' demands are met. -/
structure BookInv (s : State) : Prop where
  coherent : s.Coherent
  main : s.main.Holds s.player
  loop : s.loop ≠ .notCreated → ¬ s.Past (.deinit .join) → s.player.Serves s.loop.demand
  accepted : s.loop ≠ .exited .error
  created : s.Past (.init .createThread) → s.main.alive = true → s.loop ≠ .notCreated
  tuner : s.Past (.init .tunerInit) → s.main.alive = true → s.player.tdp.initDone = true

theorem bookInv_powerOn : BookInv .powerOn := by
  have hfresh : State.powerOn.player.Fresh := by
    constructor
    · constructor <;> simp [State.powerOn, Player.zero, Tdp.zero, Pe.live, Pe.liveFilters]
    · rfl
    · rfl
  refine ⟨coherent_powerOn, hfresh, fun h => absurd rfl h, by simp [State.powerOn], fun h => ?_,
    fun h => ?_⟩ <;> exact absurd h (by unfold State.Past; decide)

/-- Steps of neither thread, but for a signal. -/
private theorem BookInv.of_frame (hs : BookInv s) (hcoherent : s'.Coherent)
    (halive : s.main.alive = true) (hle : s.main.stage ≤ s'.main.stage)
    (hmain : s'.main.Holds s'.player)
    (hserves : ∀ d, s.player.Serves d → s'.player.Serves d)
    (hdone : s'.player.tdp.initDone = s.player.tdp.initDone)
    (hthread : s'.Past (.init .createThread) → s.Past (.init .createThread))
    (htuner : s'.Past (.init .tunerInit) → s.Past (.init .tunerInit))
    (hloop : s'.loop = s.loop ∨
      ∃ c, s.loop = .switch c .waiting ∧ s'.loop = .switch c .createVideo) : BookInv s' := by
  have hkeep : (s'.loop = .notCreated ↔ s.loop = .notCreated) ∧
      s'.loop.demand = s.loop.demand ∧ s'.loop ≠ .exited .error := by
    obtain hl | ⟨c, hl, hl'⟩ := hloop
    · exact ⟨by rw [hl], by rw [hl], by rw [hl]; exact hs.accepted⟩
    · exact ⟨by simp [hl, hl'], by rw [hl, hl']; rfl, by simp [hl']⟩
  refine ⟨hcoherent, hmain, fun hc hj => ?_, hkeep.2.2, fun hp _ => ?_, fun hp _ => ?_⟩
  · rw [hkeep.2.1]
    exact hserves _ (hs.loop (fun hc' => hc (hkeep.1.mpr hc')) fun hj' => hj (hj'.trans_le hle))
  · exact fun hc => hs.created (hthread hp) halive (hkeep.1.mp hc)
  · rw [hdone]
    exact hs.tuner (htuner hp) halive

/-- Steps that move neither thread, and change the volume at most. -/
private theorem BookInv.of_same (hs : BookInv s) (hcoherent : s'.Coherent)
    (halive : s.main.alive = true) (hm : s'.main = s.main) (hl : s'.loop = s.loop)
    (hp : s'.player = s.player ∨ ∃ v, s'.player = s.player.withVolume v) : BookInv s' := by
  have hpast : ∀ m, s'.Past m → s.Past m := fun m hp => by rwa [State.Past, hm] at hp
  obtain hp | ⟨v, hp⟩ := hp
  · exact hs.of_frame hcoherent halive (by rw [hm]) (by rw [hm, hp]; exact hs.main)
      (fun d hd => by rwa [hp]) (by rw [hp]) (hpast _) (hpast _) (.inl hl)
  · exact hs.of_frame hcoherent halive (by rw [hm]) (by rw [hm, hp]; exact hs.main.withVolume)
      (fun d hd => by rw [hp]; exact hd.withVolume) (by rw [hp]; rfl) (hpast _) (hpast _)
      (.inl hl)

/-- A signal. -/
private theorem BookInv.wake (hs : BookInv s) (hcoherent : s.wake.Coherent)
    (halive : s.main.alive = true) : BookInv s.wake := by
  have hpast : ∀ m : MainPc, s.wake.main = s.main → s.wake.Past m → s.Past m := by
    intro m hm hp
    rwa [State.Past, hm] at hp
  have hle := s.stage_le_wake
  obtain ⟨hm, hm', hl⟩ | ⟨t, hm, hm', hl⟩ | ⟨c, hl, hm', hl'⟩ | ⟨-, -, hm', hl'⟩ := s.wake_cases
  · have hholds := hs.main
    rw [hm] at hholds
    refine hs.of_frame hcoherent halive hle (by rw [hm', State.wake_player]; exact hholds)
      (by simp) (by simp) (fun hp => ?_) (fun _ => ?_) (.inl hl)
    · rw [State.Past, hm'] at hp
      exact absurd hp (by decide)
    · rw [State.Past, hm]
      decide
  · have hholds := hs.main
    rw [hm] at hholds
    refine hs.of_frame hcoherent halive hle ?_ (by simp) (by simp) (fun hp => ?_) (fun _ => ?_)
      (.inl hl)
    · rw [hm', State.wake_player]
      cases t <;> exact hholds
    · rw [State.Past, hm'] at hp
      cases t <;> exact absurd hp (by decide)
    · rw [State.Past, hm]
      cases t <;> decide
  · exact hs.of_frame hcoherent halive hle (by rw [hm', State.wake_player]; exact hs.main) (by simp)
      (by simp) (hpast _ hm') (hpast _ hm') (.inr ⟨c, hl, hl'⟩)
  · exact hs.of_frame hcoherent halive hle (by rw [hm', State.wake_player]; exact hs.main) (by simp)
      (by simp) (hpast _ hm') (hpast _ hm') (.inl hl')

/-- The main thread. -/
private theorem BookInv.mainStep (hs : BookInv s) (hparams : params.KnownTypes)
    (hcoherent : s'.Coherent) (h : Zapper.mainStep params a s = some s')
    (ha : s.main.callsPlayer = true → a.Good s.player.tdp)
    (hinit : ∀ q, s.main = .init q → q.returns = false → s'.main ≠ .deinit .stop) :
    BookInv s' ∧ ∀ q, s.main = .deinit q → s'.main ≠ .exited .error := by
  have hlt := stage_lt_of_mainStep h
  have halive := alive_of_mainStep h
  have hlate : ∀ q, s.main = .deinit q → s.Past (.init .createThread) := by
    intro q hm
    rw [State.Past, hm]
    cases q <;> decide
  have hstop : s.main = .deinit .stop → s.streamThreadRunning = true := fun hm =>
    hs.coherent.running (hs.created (hlate _ hm) halive) ((State.past_iff hm).not.mpr (by decide))
  have hjoin : s.main = .deinit .join → s.loop ≠ .exited .error ∧
      (s.loop = .exited .noError → s.player.Serves ⟨true, false, false⟩) := by
    intro hm
    refine ⟨hs.accepted, fun hl => ?_⟩
    have hserves := hs.loop (by simp [hl]) ((State.past_iff hm).not.mpr (by decide))
    rwa [hl] at hserves
  have htuner : ∀ q, s.main = .deinit q → s.player.tdp.initDone = true := fun q hm =>
    hs.tuner ((show _ < _ by decide).trans (hlate q hm)) halive
  obtain ⟨hholds, haccepted⟩ :=
    holds_of_mainStep hparams h ha hinit hs.main hstop hjoin htuner
  refine ⟨⟨hcoherent, hholds, fun hc hj => ?_, ?_, fun hp halive' => ?_, fun hp halive' => ?_⟩,
    haccepted⟩
  · obtain hl | ⟨hm, -, hl, -⟩ := loop_of_mainStep h
    · have hc' : s.loop ≠ .notCreated := hl ▸ hc
      have hplayer := player_of_mainStep h (hs.coherent.created hc').le
        fun hj' => hj (hj'.trans hlt)
      rw [hplayer, hl]
      exact hs.loop hc' fun hj' => hj (hj'.trans hlt)
    · have hholds := hs.main
      rw [hm] at hholds
      have hplayer := player_of_mainStep h (by rw [hm]) fun hj' => hj (hj'.trans hlt)
      rw [hplayer, hl]
      exact hholds
  · obtain hl | ⟨-, -, hl, -⟩ := loop_of_mainStep h
    · rw [hl]
      exact hs.accepted
    · simp [hl]
  · by_cases hp' : s.Past (.init .createThread)
    · obtain hl | ⟨-, -, hl, -⟩ := loop_of_mainStep h
      · rw [hl]
        exact hs.created hp' halive
      · simp [hl]
    · simp [created_of_mainStep h hinit hp' hp halive']
  · exact initDone_of_mainStep h hinit (fun hp => hs.tuner hp halive) hp halive'

/-- Between the start and the join of the stream thread, the main thread says nothing about the
player. -/
theorem MainPc.holds_of_stage {m : MainPc} (hthread : (MainPc.init .createThread).stage < m.stage)
    (hjoin : ¬ (MainPc.deinit .join).stage < m.stage) (p : Player) : m.Holds p := by
  cases m with
  | init q =>
    cases q with
    | setFilter t | wait t | waiting t | freeFilter t =>
      cases t <;> exact absurd hthread (by decide)
    | announce => trivial
    | announcing progNum radio => trivial
    | _ => exact absurd hthread (by decide)
  | deinit q =>
    cases q with
    | stop => trivial
    | join => trivial
    | _ => exact absurd (by decide) hjoin
  | remoteInit => exact absurd hthread (by decide)
  | registerRemote => exact absurd hthread (by decide)
  | unregisterRemote => exact absurd (by decide) hjoin
  | remoteDeinit => exact absurd (by decide) hjoin
  | _ => trivial

/-- The stream thread. -/
private theorem BookInv.loopStep (hs : BookInv s) (hparams : params.KnownTypes)
    (hcoherent : s'.Coherent) (halive : s.main.alive = true)
    (h : Zapper.loopStep params a s = some s')
    (ha : s.loop.callsPlayer = true → a.Good s.player.tdp) : BookInv s' := by
  have hframe := loopStep_frame h
  have hcreated := created_of_loopStep h
  have hpast : ∀ m, s'.Past m ↔ s.Past m := fun m => by rw [State.Past, hframe.main, State.Past]
  have hthread := hs.coherent.created hcreated.1
  have hjoin : ¬ s.Past (.deinit .join) := by
    intro hj
    obtain hl | hl := hs.coherent.joined hj halive
    · exact hcreated.1 hl
    · exact not_exited_of_loopStep h _ hl
  obtain ⟨hserves, haccepted⟩ := serves_of_loopStep hparams h ha (hs.loop hcreated.1 hjoin)
  refine ⟨hcoherent, ?_, fun _ _ => hserves, haccepted, fun _ _ => hcreated.2, fun hp _ => ?_⟩
  · rw [hframe.main]
    exact MainPc.holds_of_stage hthread hjoin s'.player
  · rw [initDone_of_tunerSide (tunerSide_of_loopStep h)]
    exact hs.tuner ((hpast _).mp hp) halive

theorem not_deinit_of_not_failsInit (hfails : failsInit params s l = false)
    (h : step params s l = some s') (q : InitPc) (hm : s.main = .init q) :
    s'.main ≠ .deinit .stop := by
  simpa [failsInit, h, hm] using hfails

/-- **The step lemma.** -/
theorem BookInv.step (hs : BookInv s) (hparams : params.KnownTypes)
    (h : Zapper.step params s l = some s') (ha : GoodAnswers s l)
    (hinit : ∀ q, s.main = .init q → q.returns = false → s'.main ≠ .deinit .stop) :
    BookInv s' := by
  have hcoherent := hs.coherent.step h
  have hact := act_of_step h
  have halive := alive_of_step h
  have hle := stage_le_of_step h
  cases l with
  | main a => exact (hs.mainStep hparams hcoherent hact ha hinit).1
  | loop a => exact hs.loopStep hparams hcoherent halive hact ha
  | input code value a =>
    have hframe := callback_frame hact
    obtain hm | ⟨hm, hm'⟩ := hframe.main
    · exact hs.of_same hcoherent halive hm hframe.loop (player_of_callback hact)
    · -- the exit key
      have hserves : ∀ d, s.player.Serves d → s'.player.Serves d := by
        intro d hd
        obtain hp | ⟨v, hp⟩ := player_of_callback hact
        · rwa [hp]
        · rw [hp]
          exact hd.withVolume
      have hdone : s'.player.tdp.initDone = s.player.tdp.initDone := by
        obtain hp | ⟨v, hp⟩ := player_of_callback hact
        · rw [hp]
        · rw [hp]
          rfl
      have hpast : ∀ q, q.stage < 32 → s.Past (.init q) := fun q hq => by
        rw [State.Past, hm]
        exact show 2 + q.stage < 34 by omega
      exact hs.of_frame hcoherent halive hle (by rw [hm']; trivial) hserves hdone
        (fun _ => hpast _ (by decide)) (fun _ => hpast _ (by decide)) (.inl hframe.loop)
  | deliver d =>
    obtain ⟨-, -, tables, -, rfl⟩ := sectionStep_eq_some hact
    exact hs.of_same hcoherent halive rfl rfl (.inl rfl)
  | signal =>
    obtain ⟨-, -, rfl⟩ := signalStep_eq_some hact
    refine BookInv.wake (s := { s with inCallback := false }) ?_ hcoherent halive
    exact hs.of_same (hs.coherent.of_same halive rfl rfl rfl rfl (by simp) id) halive rfl rfl
      (.inl rfl)
  | tuner status =>
    obtain ⟨-, rfl | rfl⟩ := tunerStep_eq_some hact
    · refine BookInv.wake (s := { s with tuning := false }) ?_ hcoherent halive
      exact hs.of_same (hs.coherent.of_same halive rfl rfl rfl rfl .inl (by simp)) halive rfl rfl
        (.inl rfl)
    · exact hs.of_same hcoherent halive rfl rfl (.inl rfl)
  | timeout =>
    obtain ⟨hm, rfl⟩ := timeoutStep_eq_some hact
    exact absurd rfl (hinit _ hm rfl)
  | expire =>
    obtain ⟨-, rfl⟩ := expireStep_eq_some hact
    exact hs.of_same hcoherent halive rfl rfl (.inl rfl)
  | handler i =>
    have hframe := handlerStep_frame hact
    exact hs.of_same hcoherent halive hframe.main hframe.loop (.inl hframe.player)

/-! ### The bookkeeping of a run -/

/-- What the bookkeeping says, while the program runs. -/
structure Bookkept (params : ConfigParams) (s : State) : Prop where
  /-- At the head of the loop, the audio stream is on when it is the live one. -/
  audio : s.loop = .head →
    (s.player.status.audioOn = true ↔ s.player.tdp.pe.live false = [s.player.audioStreamHandle]) ∧
      (s.player.status.audioOn = false → s.player.tdp.pe.live false = [])
  video : s.loop = .head →
    (s.player.status.videoOn = true ↔ s.player.tdp.pe.live true = [s.player.videoStreamHandle]) ∧
      (s.player.status.videoOn = false → s.player.tdp.pe.live true = [])
  filter : s.loop = .head → s.player.tdp.pe.liveFilters = [s.player.filterHandle]
  /-- Where a stream is created, or a filter is set, none is live. -/
  createAudio : (s.main = .init .createAudio ∨ ∃ c, s.loop = .switch c .createAudio) →
    s.player.tdp.pe.live false = []
  createVideo : (s.main = .init .createVideo ∨ ∃ c, s.loop = .switch c .createVideo) →
    s.player.tdp.pe.live true = []
  setFilter : ((∃ t, s.main = .init (.setFilter t)) ∨ ∃ c, s.loop = .switch c .setFilter) →
    s.player.tdp.pe.liveFilters = []
  /-- Where a stream is removed, or the filter is freed, it is live. -/
  removeAudio : (s.main = .deinit .removeAudio ∨ ∃ c, s.loop = .switch c .removeAudio) →
    s.player.status.audioOn = true →
      s.player.audioStreamHandle ∈ s.player.tdp.pe.live false
  removeVideo : (s.main = .deinit .removeVideo ∨ ∃ c, s.loop = .switch c .removeVideo) →
    s.player.status.videoOn = true →
      s.player.videoStreamHandle ∈ s.player.tdp.pe.live true
  freeFilter : ((∃ t, s.main = .init (.freeFilter t)) ∨ s.main = .deinit .freeFilter ∨
    ∃ c, s.loop = .switch c .freeFilter) →
      s.player.filterHandle ∈ s.player.tdp.pe.liveFilters
  /-- No call of the stream thread has been refused. -/
  loopAccepted : s.loop ≠ .exited .error
  /-- No call of `stream_deinit` is refused. -/
  deinitAccepted : ∀ a q s', s.main = .deinit q → GoodAnswers s (.main a) →
    mainStep params a s = some s' → s'.main ≠ .exited .error
  /-- Behind `stream_deinit`, nothing is live. -/
  released : s.main = .unregisterRemote ∨ s.main = .remoteDeinit →
    (∀ video, s.player.tdp.pe.live video = []) ∧ s.player.tdp.pe.liveFilters = []

namespace Player.Serves

variable {f x y : Bool}

theorem live_audio (h : p.Serves ⟨f, true, y⟩) : p.tdp.pe.live false = [] := by
  simpa [h.audio rfl] using h.fits.audio

theorem live_video (h : p.Serves ⟨f, x, true⟩) : p.tdp.pe.live true = [] := by
  simpa [h.video rfl] using h.fits.video

theorem mem_live_audio {d : Demand} (h : p.Serves d) (hon : p.status.audioOn = true) :
    p.audioStreamHandle ∈ p.tdp.pe.live false := by
  rw [h.fits.audio, if_pos hon]
  exact List.mem_singleton_self _

theorem mem_live_video {d : Demand} (h : p.Serves d) (hon : p.status.videoOn = true) :
    p.videoStreamHandle ∈ p.tdp.pe.live true := by
  rw [h.fits.video, if_pos hon]
  exact List.mem_singleton_self _

end Player.Serves

private theorem BookInv.bookkeeping (hs : BookInv s) (hparams : params.KnownTypes)
    (halive : s.main.alive = true) : Bookkept params s := by
  -- a place of the stream thread other than its end
  have hplace : ∀ {pc : LoopPc}, s.loop = pc → pc ≠ .notCreated → pc ≠ .exited .noError →
      s.player.Serves pc.demand := by
    rintro pc rfl hc he
    refine hs.loop hc fun hj => ?_
    obtain hl | hl := hs.coherent.joined hj halive
    · exact hc hl
    · exact he hl
  have hmain : ∀ {m : MainPc}, s.main = m → m.Holds s.player := by
    rintro m rfl
    exact hs.main
  have hhead : s.loop = .head → s.player.Serves ⟨true, false, false⟩ := fun hl =>
    hplace hl (by simp) (by simp)
  refine ⟨fun hl => ?_, fun hl => ?_, fun hl => (hhead hl).fits.filters, ?_, ?_, ?_, ?_, ?_, ?_,
    hs.accepted, fun a q s' hm ha h => ?_, ?_⟩
  · have haudio := (hhead hl).fits.audio
    cases hon : s.player.status.audioOn <;> simp [haudio, hon]
  · have hvideo := (hhead hl).fits.video
    cases hon : s.player.status.videoOn <;> simp [hvideo, hon]
  · rintro (hm | ⟨c, hl⟩)
    · exact (hmain hm).live_audio
    · exact (hplace hl (by simp) (by simp)).live_audio
  · rintro (hm | ⟨c, hl⟩)
    · exact (hmain hm).live_video
    · exact (hplace hl (by simp) (by simp)).live_video
  · rintro (⟨t, hm⟩ | ⟨c, hl⟩)
    · exact (hmain hm).fits.filters
    · exact (hplace hl (by simp) (by simp)).fits.filters
  · rintro (hm | ⟨c, hl⟩) hon
    · exact (hmain hm).mem_live_audio hon
    · exact (hplace hl (by simp) (by simp)).mem_live_audio hon
  · rintro (hm | ⟨c, hl⟩) hon
    · exact (hmain hm).mem_live_video hon
    · exact (hplace hl (by simp) (by simp)).mem_live_video hon
  · have hmem : s.player.Fits true → s.player.filterHandle ∈ s.player.tdp.pe.liveFilters := by
      intro hfits
      rw [hfits.filters]
      exact List.mem_singleton_self _
    rintro (⟨t, hm⟩ | hm | ⟨c, hl⟩)
    · exact hmem (hmain hm).fits
    · exact hmem (hmain hm).fits
    · exact hmem (hplace hl (by simp) (by simp)).fits
  · exact (hs.mainStep hparams (hs.coherent.mainStep h) h ha (by simp [hm])).2 q hm
  · rintro (hm | hm)
    · exact ⟨(hmain hm).streams, (hmain hm).filters⟩
    · exact ⟨(hmain hm).streams, (hmain hm).filters⟩

/-- **The bookkeeping of the player is right** in every run in which `stream_init` does not
fail, whatever the broadcaster sends and the keys ask for, as long as the player's calls succeed
and return fresh handles. -/
theorem bookkept (params : ConfigParams) (ls : List Label) (hparams : params.KnownTypes)
    (hgood : Meets (step params) GoodAnswers .powerOn ls)
    (hinit : Meets (step params) (fun s l => failsInit params s l = false) .powerOn ls) :
    Always (step params) (fun s => s.main.alive = true → Bookkept params s) .powerOn ls := by
  refine (always_of_step bookInv_powerOn (hgood.and hinit) fun s l s' hs hC h => ?_).mono
    fun s hs => hs.bookkeeping hparams
  exact hs.step hparams h hC.1 fun q hm _ => not_deinit_of_not_failsInit hC.2 h q hm

/-- `stream_init` fails before it has created the stream thread. -/
theorem stage_le_of_fails (h : step params s l = some s') {q : InitPc} (hm : s.main = .init q)
    (hq : q.returns = false) (hm' : s'.main = .deinit .stop) :
    s.main.stage ≤ (MainPc.init .createThread).stage := by
  have hannounce : q ≠ .announce := by
    rintro rfl
    cases main_of_step h with
    | main a hact =>
      simp only [mainStep, hm, initStep] at hact
      obtain rfl := Option.some.inj hact
      cases hm'
    | timeout hw => cases hm.symm.trans hw
    | same l hsame => cases hm'.symm.trans (hsame.trans hm)
    | exit l hw => cases hm.symm.trans hw
    | locked l hw => cases hm.symm.trans hw
    | table l t hw => cases hm.symm.trans hw
  rw [hm]
  cases q with
  | announcing progNum radio => cases hq
  | announce => exact absurd rfl hannounce
  | setFilter t | wait t | waiting t | freeFilter t => cases t <;> decide
  | _ => decide

/-- The bookkeeping is right, or `stream_init` has failed before there was a stream thread. -/
def Booked (s : State) : Prop :=
  BookInv s ∨ s.loop = .notCreated ∧ s.Past (.init .createThread)

/-- A step keeps the bookkeeping, unless `stream_init` fails before there is a stream thread. -/
private theorem BookInv.booked_step (hs : BookInv s) (hparams : params.KnownTypes)
    (h : Zapper.step params s l = some s') (ha : GoodAnswers s l) : Booked s' := by
  by_cases hfails : ∃ q, s.main = .init q ∧ q.returns = false ∧ s'.main = .deinit .stop
  · obtain ⟨q, hm, hq, hm'⟩ := hfails
    have hnone := hs.coherent.notCreated (stage_le_of_fails h hm hq hm')
    refine .inr ⟨?_, (State.past_iff hm').mpr (by decide)⟩
    obtain ⟨a, -, hloop⟩ | hl | ⟨a, -, -, hm'', -⟩ | ⟨c, hl, -⟩ := loop_of_step h
    · exact absurd hnone (created_of_loopStep hloop).1
    · exact hl.trans hnone
    · cases hm'.symm.trans hm''
    · cases hnone.symm.trans hl
  · exact .inl (hs.step hparams h ha fun q hm hq hm' => hfails ⟨q, hm, hq, hm'⟩)

/-- Behind its creation, there never is a stream thread if there is none. -/
theorem notCreated_of_step (hl : s.loop = .notCreated) (hp : s.Past (.init .createThread))
    (h : step params s l = some s') : s'.loop = .notCreated := by
  obtain ⟨a, -, hloop⟩ | hl' | ⟨a, -, hm, -⟩ | ⟨c, hl', -⟩ := loop_of_step h
  · exact absurd hl (created_of_loopStep hloop).1
  · exact hl'.trans hl
  · rw [State.Past, hm] at hp
    exact absurd hp (lt_irrefl _)
  · cases hl.symm.trans hl'

theorem Booked.step (hs : Booked s) (hparams : params.KnownTypes)
    (h : Zapper.step params s l = some s') (ha : GoodAnswers s l) : Booked s' := by
  obtain hs | ⟨hl, hp⟩ := hs
  · exact hs.booked_step hparams h ha
  · exact .inr ⟨notCreated_of_step hl hp h, hp.step h⟩

/-- **At the head of the loop the bookkeeping is right**, whether or not `stream_init` has
succeeded. -/
theorem Booked.serves (hs : Booked s) (halive : s.main.alive = true) (hl : s.loop = .head) :
    s.player.Serves ⟨true, false, false⟩ := by
  obtain hs | ⟨hnone, -⟩ := hs
  · have hserves := hs.loop (by simp [hl]) fun hj => by
      obtain hl' | hl' := hs.coherent.joined hj halive <;> cases hl.symm.trans hl'
    rwa [hl] at hserves
  · cases hl.symm.trans hnone

/-- A whole run over the sample stream: the zapper starts, switches to the radio program, and is
shut down. -/
def wholeRun : List Label :=
  List.replicate 8 (Label.main (.ok 1)) ++
    [.tuner .locked, .main (.ok 1), .main (.ok 2), .main (.ok 3), .main (.ok 100),
      .main (.ok 100), .deliver (.ofBytes 0 samplePat.bytes), .signal, .main (.ok 100),
      .main (.ok 4), .main (.ok 100), .deliver (.ofBytes 3 sampleSdt.bytes), .signal,
      .main (.ok 100), .main (.ok 5), .main (.ok 100), firstProgram.delivery, .signal,
      .main (.ok 100), .main (.ok 100), .main (.ok 6), .main (.ok 7)] ++
    List.replicate 4 (Label.main (.ok 100)) ++
    Label.input 62 1 (.ok 100) :: List.replicate 8 (Label.loop (.ok 100)) ++
    [Label.loop (.ok 8), .loop (.ok 100), secondProgram.delivery, .signal, .loop (.ok 9),
      .loop (.ok 10)] ++
    Label.input 102 1 (.ok 100) :: List.replicate 2 (Label.main (.ok 100)) ++
    List.replicate 6 (Label.loop (.ok 100)) ++ List.replicate 8 (Label.main (.ok 100))

theorem bookkept_wholeRun : ∃ s, s.main = .unregisterRemote ∧ Bookkept (configIni 1) s ∧
    exec (step (configIni 1)) .powerOn wholeRun = some s := by
  have hrun : (exec (step (configIni 1)) .powerOn wholeRun).map State.main =
      some .unregisterRemote := by decide +kernel
  have hbook := bookkept (configIni 1) wholeRun ⟨rfl, rfl⟩ (by decide +kernel)
    (by decide +kernel)
  obtain ⟨s, hs, hmain⟩ := Option.map_eq_some_iff.mp hrun
  exact ⟨s, hmain, hbook.exec hs (by rw [hmain]; rfl), hs⟩

end Zapper
