import Zapper.Stream.Bookkeeping
import Zapper.Stream.Locks

/-!
# The teardown of `main`

`stream_deinit` frees the section filter, and closes the source and the player, whether or not
`stream_init` has got so far; it stops at the first call that is refused, and then `main` returns
as well, with all that is left.

If `stream_init` fails only when it has set the filter, and no call of the stream thread or of the
teardown fails, `stream_deinit` finds a player that it can close. `Before` holds until the stream
thread has been joined or `stream_init` has failed, and `Closing` from there on; every step keeps
one of them.
-/

namespace Zapper

open Transition

variable {params : ConfigParams} {a : Answer} {s s' : State} {l : Label} {p : Player}

/-! ### The condition -/

/-- The handles that the player returns are not zero, and not in use. -/
structure Answer.Honest (a : Answer) (tdp : Tdp) : Prop where
  handle_ne_zero : a.handle ≠ 0
  fresh_stream : ∀ video, a.handle ∉ tdp.pe.live video
  fresh_filter : a.handle ∉ tdp.pe.liveFilters

instance (a : Answer) (tdp : Tdp) : Decidable (a.Honest tdp) :=
  decidable_of_iff (a.handle ≠ 0 ∧ (a.handle ∉ tdp.pe.live false ∧ a.handle ∉ tdp.pe.live true) ∧
      a.handle ∉ tdp.pe.liveFilters)
    ⟨fun ⟨h₁, h₂, h₃⟩ => ⟨h₁, Bool.forall_bool.mpr h₂, h₃⟩,
      fun h => ⟨h.handle_ne_zero, Bool.forall_bool.mp h.fresh_stream, h.fresh_filter⟩⟩

/-- The places at which `main` must not meet a failure: those of `stream_init` at which the
section filter is not set, its missing `return`, and the teardown itself. -/
def MainPc.mustSucceed : MainPc → Bool
  | .init .tunerInit => true
  | .init .lockTuner => true
  | .init .playerInit => true
  | .init .openSource => true
  | .init (.setFilter _) => true
  | .init (.freeFilter _) => true
  | .init (.announcing _ _) => true
  | .graphicsDeinit => true
  | .deinit _ => true
  | .remoteDeinit => true
  | _ => false

/-- The condition on an answer that `main` gets. -/
structure Answer.InOrder (a : Answer) (m : MainPc) (tdp : Tdp) : Prop where
  honest : m.callsPlayer = true → a.Honest tdp
  success : m.mustSucceed = true → a.first = true ∧ a.second = true
  /-- `graphics_init` does not fail before it has acquired its surfaces. -/
  graphics : m = .graphicsInit → a.first = true ∨ a.second = true

instance (a : Answer) (m : MainPc) (tdp : Tdp) : Decidable (a.InOrder m tdp) :=
  decidable_of_iff ((m.callsPlayer = true → a.Honest tdp) ∧
      (m.mustSucceed = true → a.first = true ∧ a.second = true) ∧
        (m = .graphicsInit → a.first = true ∨ a.second = true))
    ⟨fun ⟨h₁, h₂, h₃⟩ => ⟨h₁, h₂, h₃⟩, fun h => ⟨h.honest, h.success, h.graphics⟩⟩

theorem Answer.Honest.good {tdp : Tdp} (h : a.Honest tdp) (h₁ : a.first = true)
    (h₂ : a.second = true) : a.Good tdp :=
  ⟨h₁, h₂, h.handle_ne_zero, h.fresh_stream, h.fresh_filter⟩

/-! ### The player in the teardown -/

/-- The player can be closed: its bookkeeping fits, but there may be a video stream that
`Player_Stream_Create` has left behind when it failed. -/
structure Player.Closable (filter : Bool) (p : Player) : Prop where
  player : p.playerHandle = p.tdp.hPE
  player_ne_zero : p.tdp.hPE ≠ 0
  source : p.sourceHandle = p.tdp.hSource
  source_ne_zero : p.tdp.hSource ≠ 0
  audio : p.tdp.pe.live false = if p.status.audioOn then [p.audioStreamHandle] else []
  video : p.tdp.pe.live true = if p.tdp.hStreamV ≠ 0 then [p.tdp.hStreamV] else []
  hStreamA : p.tdp.hStreamA = if p.status.audioOn then p.audioStreamHandle else 0
  hStreamV : p.status.videoOn = true → p.tdp.hStreamV = p.videoStreamHandle ∧ p.tdp.hStreamV ≠ 0
  audio_ne_zero : p.status.audioOn = true → p.audioStreamHandle ≠ 0
  distinct : p.status.audioOn = true → p.audioStreamHandle ≠ p.tdp.hStreamV
  filters : p.tdp.pe.liveFilters = if filter then [p.filterHandle] else []
  hFilter : filter = true → p.tdp.hFilter = p.filterHandle ∧ p.filterHandle ≠ 0

/-- Nothing is held. -/
structure Player.Closed (p : Player) : Prop where
  hPE : p.tdp.hPE = 0
  hSource : p.tdp.hSource = 0
  streams : ∀ video, p.tdp.pe.live video = []
  filters : p.tdp.pe.liveFilters = []

namespace Player

variable {f : Bool}

theorem Fits.closable (h : p.Fits f) : p.Closable f where
  player := h.player
  player_ne_zero := h.player_ne_zero
  source := h.source
  source_ne_zero := h.source_ne_zero
  audio := h.audio
  video := by
    rw [h.video, h.hStreamV]
    cases hon : p.status.videoOn with
    | false => rfl
    | true => simp [h.video_ne_zero hon]
  hStreamA := h.hStreamA
  hStreamV hon := by simpa [h.hStreamV, hon] using h.video_ne_zero hon
  audio_ne_zero := h.audio_ne_zero
  distinct hon := by
    rw [h.hStreamV]
    split
    · next hv => exact h.distinct hon hv
    · exact h.audio_ne_zero hon
  filters := h.filters
  hFilter := h.hFilter

/-- The audio stream is removed, if it is on. -/
theorem Closable.removeAudio (h : p.Closable f) (ha : a.first = true) :
    ∃ p', p.removeAudio a = (.noError, p') ∧ p'.Closable f ∧
      p'.status = ⟨false, p.status.videoOn⟩ ∧ p'.tdp.initDone = p.tdp.initDone := by
  cases hon : p.status.audioOn with
  | false =>
    have hstatus : p.status = ⟨p.status.audioOn, p.status.videoOn⟩ := rfl
    exact ⟨p, by simp [Player.removeAudio, hon], h, by rw [← hon], rfl⟩
  | true =>
    have hplayer := h.player
    have hsource := h.source
    have hplayer_ne := h.player_ne_zero
    have hsource_ne := h.source_ne_zero
    have hA : p.tdp.hStreamA = p.audioStreamHandle := by simpa [hon] using h.hStreamA
    have hne : p.audioStreamHandle ≠ 0 := h.audio_ne_zero hon
    have hcall : p.removeAudio a = (.noError, { p with
        status := { p.status with audioOn := false }
        tdp := { p.tdp with
          hStreamA := 0
          pe := p.tdp.pe.streamRemove p.audioStreamHandle } }) := by
      simp [Player.removeAudio, Tdp.playerStreamRemove, hon, hplayer, hsource, hplayer_ne,
        hsource_ne, hA, hne, ha]
    refine ⟨_, hcall, ?_, rfl, rfl⟩
    have haudio := h.audio
    have hvideo := h.video
    exact { h with
      audio := by simp [Pe.live_streamRemove, haudio, hon]
      video := by
        rw [Pe.live_streamRemove, hvideo]
        split
        · simp [(h.distinct hon).symm]
        · rfl
      hStreamA := by simp
      audio_ne_zero := by simp
      distinct := by simp }

/-- The video stream is removed, if it is on. -/
theorem Closable.removeVideo (h : p.Closable f) (ha : a.first = true) :
    ∃ p', p.removeVideo a = (.noError, p') ∧ p'.Closable f ∧
      p'.status = ⟨p.status.audioOn, false⟩ ∧ p'.tdp.initDone = p.tdp.initDone := by
  cases hon : p.status.videoOn with
  | false => exact ⟨p, by simp [Player.removeVideo, hon], h, by rw [← hon], rfl⟩
  | true =>
    have hplayer := h.player
    have hsource := h.source
    have hplayer_ne := h.player_ne_zero
    have hsource_ne := h.source_ne_zero
    obtain ⟨hV, hne⟩ := h.hStreamV hon
    have hneA : p.tdp.hStreamV ≠ p.tdp.hStreamA := by
      rw [h.hStreamA]
      split
      · next haud => exact (h.distinct haud).symm
      · exact hne
    have hcall : p.removeVideo a = (.noError, { p with
        status := { p.status with videoOn := false }
        tdp := { p.tdp with
          hStreamV := 0
          pe := p.tdp.pe.streamRemove p.tdp.hStreamV } }) := by
      simp [Player.removeVideo, Tdp.playerStreamRemove, hon, hplayer, hsource, hplayer_ne,
        hsource_ne, ← hV, hne, hneA, ha]
    refine ⟨_, hcall, ?_, rfl, rfl⟩
    have haudio := h.audio
    have hvideo := h.video
    exact { h with
      audio := by
        rw [Pe.live_streamRemove, haudio]
        split
        · next haud => simp [h.distinct haud]
        · rfl
      video := by simp [Pe.live_streamRemove, hvideo, hne]
      hStreamV := by simp
      distinct := h.audio_ne_zero }

/-- The section filter is freed. -/
theorem Closable.freeFilter (h : p.Closable true) (ha : a.first = true) :
    ∃ p', p.freeFilter a = (.noError, p') ∧ p'.Closable false ∧ p'.status = p.status ∧
      p'.tdp.initDone = p.tdp.initDone := by
  have hplayer := h.player
  have hne := h.player_ne_zero
  obtain ⟨hfilter, hfilter_ne⟩ := h.hFilter rfl
  have hcall : p.freeFilter a = (.noError, { p with
      tdp := { p.tdp with
        hBuffer := 0
        hFilter := 0
        pe := p.tdp.pe.removeSectionFilter p.filterHandle } }) := by
    simp [Player.freeFilter, Tdp.demuxFreeFilter, hplayer, hne, hfilter, hfilter_ne, ha]
  refine ⟨_, hcall, ?_, rfl, rfl⟩
  have hfilters := h.filters
  exact { h with
    filters := by simp [Pe.liveFilters_removeSectionFilter, hfilters]
    hFilter := by simp }

/-- The source is closed, and nothing else is left but the video stream that was left behind. -/
structure SourceClosed (p : Player) : Prop where
  player : p.playerHandle = p.tdp.hPE
  player_ne_zero : p.tdp.hPE ≠ 0
  hSource : p.tdp.hSource = 0
  audio : p.tdp.pe.live false = []
  video : p.tdp.pe.live true = if p.tdp.hStreamV ≠ 0 then [p.tdp.hStreamV] else []
  filters : p.tdp.pe.liveFilters = []

/-- The source is closed. -/
theorem Closable.closeSource (h : p.Closable false) (haudio : p.status.audioOn = false)
    (h₁ : a.first = true) (h₂ : a.second = true) :
    ∃ p', p.closeSource a = (.noError, p') ∧ p'.SourceClosed ∧
      p'.tdp.initDone = p.tdp.initDone := by
  have hplayer := h.player
  have hsource := h.source
  have hplayer_ne := h.player_ne_zero
  have hsource_ne := h.source_ne_zero
  have hcall : p.closeSource a = (.noError, { p with tdp := { p.tdp with hSource := 0 } }) := by
    simp [Player.closeSource, Tdp.playerSourceClose, hplayer, hsource, hplayer_ne, hsource_ne,
      h₁, h₂]
  refine ⟨_, hcall, ?_, rfl⟩
  exact { h with
    hSource := rfl
    audio := by simpa [haudio] using h.audio
    filters := by simpa using h.filters }

/-- Closing the player removes the video stream that was left behind. -/
theorem SourceClosed.deinit (h : p.SourceClosed) :
    ∃ p', p.deinit = (.noError, p') ∧ p'.Closed ∧ p'.tdp.initDone = p.tdp.initDone := by
  simp only [Player.deinit, Tdp.playerDeinit, h.player, h.player_ne_zero, ne_eq,
    not_true_eq_false, if_false]
  refine ⟨_, rfl, ⟨rfl, rfl, ?_, ?_⟩, rfl⟩
  · rintro (_ | _)
    · have haudio := h.audio
      split_ifs <;> simp [Pe.live_streamRemove, haudio]
    · have hvideo := h.video
      split_ifs <;> simp_all [Pe.live_streamRemove]
  · have hfilters := h.filters
    split_ifs <;> simp [Pe.liveFilters_removeSectionFilter, hfilters]

end Player

/-! ### While `main` closes the player -/

/-- What the place of the main thread says about the player in the teardown. -/
def MainPc.Closes (p : Player) : MainPc → Prop
  | .deinit .stop => p.Closable true
  | .deinit .removeAudio => p.Closable true
  | .deinit .removeVideo => p.Closable true ∧ p.status.audioOn = false
  | .deinit .freeFilter => p.Closable true ∧ p.status.audioOn = false
  | .deinit .closeSource => p.Closable false ∧ p.status.audioOn = false
  | .deinit .deinitPlayer => p.SourceClosed
  | .deinit .deinitTuner => p.Closed
  | .deinit .freeTables => p.Closed
  | .unregisterRemote => p.Closed
  | .remoteDeinit => p.Closed
  | .exited _ => p.Closed
  | _ => False

/-- The stream thread has been joined, or there never was one. -/
structure Closing (s : State) : Prop where
  closes : s.main.Closes s.player
  loop : s.loop = .notCreated ∨ s.loop = .exited .noError
  flag : s.main = .deinit .stop → s.loop = .notCreated ∧ s.streamThreadRunning = false
  tuner : ∀ q, s.main = .deinit q → s.player.tdp.initDone = true

/-- **A step of the teardown** goes on. -/
theorem Closing.deinitStep {q : DeinitPc} (hs : Closing s) (hm : s.main = .deinit q)
    (h : deinitStep a s q = some s') (h₁ : a.first = true) (h₂ : a.second = true) :
    Closing s' ∧ s'.main ≠ .exited .error := by
  have hcloses := hs.closes
  have htuner : s.player.tdp.initDone = true := hs.tuner q hm
  rw [hm] at hcloses
  have hcall : ∀ {r : TError × Player} {p' : Player} {pc : MainPc},
      some (s.deinitAssert r pc) = some s' → r = (.noError, p') → pc.Closes p' →
        p'.tdp.initDone = s.player.tdp.initDone → pc ≠ .deinit .stop → pc ≠ .exited .error →
          Closing s' ∧ s'.main ≠ .exited .error := by
    rintro _ p' pc h rfl hp' hdone hstop hpc
    obtain rfl := Option.some.inj h
    exact ⟨⟨hp', hs.loop, fun hm' => absurd hm' hstop, fun _ _ => hdone.trans htuner⟩, hpc⟩
  cases q with
  | stop =>
    obtain rfl : s' = { s with main := .deinit .removeAudio } := by
      have hflag : s.streamThreadRunning = false := (hs.flag hm).2
      simpa [Zapper.deinitStep, hflag, eq_comm] using h
    exact ⟨⟨hcloses, hs.loop, by simp, fun _ _ => htuner⟩, by simp⟩
  | join => exact hcloses.elim
  | removeAudio =>
    obtain ⟨p', hp', hclosable, hstatus, hdone⟩ := hcloses.removeAudio h₁
    exact hcall h hp' ⟨hclosable, by rw [hstatus]⟩ hdone (by simp) (by simp)
  | removeVideo =>
    obtain ⟨p', hp', hclosable, hstatus, hdone⟩ := hcloses.1.removeVideo h₁
    exact hcall h hp' ⟨hclosable, by rw [hstatus]; exact hcloses.2⟩ hdone (by simp) (by simp)
  | freeFilter =>
    obtain ⟨p', hp', hclosable, hstatus, hdone⟩ := hcloses.1.freeFilter h₁
    exact hcall h hp' ⟨hclosable, by rw [hstatus]; exact hcloses.2⟩ hdone (by simp) (by simp)
  | closeSource =>
    obtain ⟨p', hp', hclosed, hdone⟩ := hcloses.1.closeSource hcloses.2 h₁ h₂
    exact hcall h hp' hclosed hdone (by simp) (by simp)
  | deinitPlayer =>
    obtain ⟨p', hp', hclosed, hdone⟩ := Player.SourceClosed.deinit hcloses
    exact hcall h hp' hclosed hdone (by simp) (by simp)
  | deinitTuner =>
    have hdeinit : s.player.tuner s.player.tdp.tunerDeinit = (.noError, s.player) := by
      simp [Player.tuner, Tdp.tunerDeinit, htuner]
    exact hcall h hdeinit hcloses rfl (by simp) (by simp)
  | freeTables =>
    obtain rfl := deinitStep_freeTables h
    exact ⟨⟨hcloses, hs.loop, by simp, by simp⟩, by simp⟩

/-- **The main thread** tears down. -/
theorem Closing.mainStep (hs : Closing s) (h : mainStep params a s = some s')
    (ha : a.InOrder s.main s.player.tdp) : Closing s' := by
  have hcloses := hs.closes
  cases hm : s.main with
  | deinit q =>
    obtain ⟨h₁, h₂⟩ := ha.success (by rw [hm]; rfl)
    exact (hs.deinitStep hm (by simpa [Zapper.mainStep, hm] using h) h₁ h₂).1
  | unregisterRemote =>
    rw [hm] at hcloses
    simp only [Zapper.mainStep, hm] at h
    obtain rfl := Option.some.inj h
    exact ⟨hcloses, hs.loop, by simp, by simp⟩
  | remoteDeinit =>
    rw [hm] at hcloses
    obtain ⟨h₁, -⟩ := ha.success (by rw [hm]; rfl)
    simp only [Zapper.mainStep, hm, h₁, if_true] at h
    obtain rfl := Option.some.inj h
    exact ⟨hcloses, hs.loop, by simp, by simp⟩
  | exited e => simp [Zapper.mainStep, hm] at h
  | init q =>
    rw [hm] at hcloses
    exact hcloses.elim
  | _ =>
    rw [hm] at hcloses
    exact hcloses.elim

theorem Player.Closable.withVolume {f : Bool} {v : ℕ} (h : p.Closable f) :
    (p.withVolume v).Closable f := { h with }

theorem MainPc.Closes.withVolume {m : MainPc} {v : ℕ} (h : m.Closes p) :
    m.Closes (p.withVolume v) := by
  cases m with
  | deinit q =>
    cases q with
    | stop | removeAudio => exact Player.Closable.withVolume h
    | removeVideo | freeFilter | closeSource => exact ⟨h.1.withVolume, h.2⟩
    | join => exact h
    | deinitPlayer => exact { h with }
    | deinitTuner | freeTables => exact { h with }
  | unregisterRemote | remoteDeinit | exited => exact { h with }
  | _ => exact h

/-- Besides the two threads, only a key changes the player, and that the volume at most. -/
theorem player_of_others (h : step params s l = some s') (hmain : ∀ a, l ≠ .main a)
    (hloop : ∀ a, l ≠ .loop a) :
    (s'.player = s.player ∨ ∃ v, s'.player = s.player.withVolume v) ∧
      s'.streamThreadRunning = s.streamThreadRunning := by
  have hact := act_of_step h
  cases l with
  | main a => exact absurd rfl (hmain a)
  | loop a => exact absurd rfl (hloop a)
  | input code value a => exact ⟨player_of_callback hact, (callback_frame hact).running⟩
  | handler i =>
    exact ⟨.inl (handlerStep_frame hact).player, (handlerStep_frame hact).running⟩
  | _ => exact ⟨.inl (event_frame h rfl).player, (event_frame h rfl).running⟩

/-- Nobody but the main thread takes part in the teardown. -/
theorem Closing.other (hs : Closing s) (h : step params s l = some s')
    (hl : ∀ a, l ≠ .main a) (htimeout : l ≠ .timeout) : Closing s' ∧ s'.main = s.main := by
  have hplaces : (∀ q, s.main ≠ .init q) ∧ s.main ≠ .running := by
    have hcloses := hs.closes
    constructor
    · rintro q hm
      rw [hm] at hcloses
      exact hcloses
    · intro hm
      rw [hm] at hcloses
      exact hcloses
  have hmain : s'.main = s.main := by
    cases main_of_step h with
    | main a hact => exact absurd rfl (hl a)
    | timeout hm hm' => exact absurd rfl htimeout
    | same _ hm => exact hm
    | exit _ hm _ => exact absurd hm hplaces.2
    | locked _ hm _ => exact absurd hm (hplaces.1 _)
    | table _ t hm _ => exact absurd hm (hplaces.1 _)
  have hnoLoop : ∀ a, l ≠ .loop a := by
    rintro a rfl
    obtain hl' | hl' := hs.loop
    · exact (created_of_loopStep (act_of_step h)).1 hl'
    · exact not_exited_of_loopStep (act_of_step h) _ hl'
  have hloop : s'.loop = s.loop := by
    obtain ⟨a, hl', -⟩ | hl' | ⟨a, hl', -⟩ | ⟨c, hl', -⟩ := loop_of_step h
    · exact absurd hl' (hnoLoop a)
    · exact hl'
    · exact absurd hl' (hl a)
    · obtain hl'' | hl'' := hs.loop <;> cases hl'.symm.trans hl''
  obtain ⟨hplayer, hrunning⟩ := player_of_others h hl hnoLoop
  refine ⟨⟨?_, by rw [hloop]; exact hs.loop, fun hm => ?_, fun q hm => ?_⟩, hmain⟩
  · rw [hmain]
    obtain hp | ⟨v, hp⟩ := hplayer
    · rw [hp]
      exact hs.closes
    · rw [hp]
      exact hs.closes.withVolume
  · rw [hrunning, hloop]
    exact hs.flag (hmain ▸ hm)
  · have hdone := hs.tuner q (hmain ▸ hm)
    obtain hp | ⟨v, hp⟩ := hplayer
    · rwa [hp]
    · rwa [hp]

/-! ### When `stream_init` fails -/

/-- Until the stream thread has been joined, or `stream_init` has failed. -/
structure Before (s : State) : Prop where
  book : BookInv s
  stage : ¬ s.Past (.deinit .join)
  flag : s.loop = .notCreated → s.Past (.init .reset) → s.streamThreadRunning = false
  callback : ¬ s.Past (.init .registerTuner) → s.player.tdp.tunerStatusCallback = false
  closed : s.main = .remoteInit → s.player.Closed

/-- When `stream_deinit` is called then, there is a stream thread. -/
theorem Before.created {q : DeinitPc} (hs : Before s) (hm : s.main = .deinit q) :
    s.loop ≠ .notCreated :=
  hs.book.created ((State.past_iff hm).mpr (lt_of_lt_of_le (by decide) (Nat.le_add_right 36 _)))
    (by rw [hm]; rfl)

/-- The answer when nothing fails. -/
def Answer.granted (a : Answer) : Answer := { a with first := true, second := true }

theorem Answer.Honest.granted {tdp : Tdp} (h : a.Honest tdp) : a.granted.Good tdp :=
  ⟨rfl, rfl, h.handle_ne_zero, h.fresh_stream, h.fresh_filter⟩

theorem Tdp.playerStreamCreate_granted {t : Tdp} {playerHandle sourceHandle pid type handle : ℕ}
    (h : (t.playerStreamCreate a playerHandle sourceHandle pid type handle).1 = .noError) :
    t.playerStreamCreate a.granted playerHandle sourceHandle pid type handle =
      t.playerStreamCreate a playerHandle sourceHandle pid type handle := by
  unfold playerStreamCreate at h ⊢
  split_ifs at h ⊢ <;> simp_all [Answer.granted]

theorem Player.createAudio_granted {pid type : ℕ} (h : (p.createAudio a pid type).1 = .noError) :
    p.createAudio a.granted pid type = p.createAudio a pid type := by
  unfold createAudio at h ⊢
  split
  · next hpid =>
    rw [if_pos hpid] at h
    rw [Tdp.playerStreamCreate_granted]
    split at h
    · next heq => rw [heq]
    · cases h
  · rfl

theorem Player.createVideo_granted {pid type : ℕ} (h : (p.createVideo a pid type).1 = .noError) :
    p.createVideo a.granted pid type = p.createVideo a pid type := by
  unfold createVideo at h ⊢
  split
  · next hpid =>
    rw [if_pos hpid] at h
    rw [Tdp.playerStreamCreate_granted]
    split at h
    · next heq => rw [heq]
    · cases h
  · rfl

/-- Where a call of the player succeeds, it does so with the answer with which nothing fails. -/
theorem initStep_granted {q : InitPc} (h : initStep params a s q = some s')
    (hne : s'.main ≠ .deinit .stop)
    (hq : q = .registerSections ∨ q = .createAudio ∨ q = .createVideo) :
    initStep params a.granted s q = some s' := by
  -- the result of a call that has not failed
  have hcall : ∀ {r r' : TError × Player} {pc : InitPc}, some (s.initAssert r pc) = some s' →
      (r.1 = .noError → r' = r) → some (s.initAssert r' pc) = some s' := by
    intro r r' pc h hr
    obtain ⟨hok, -⟩ | ⟨-, he⟩ := s.initAssert_cases r pc
    · rwa [hr hok]
    · obtain rfl := Option.some.inj h
      rw [he] at hne
      exact absurd rfl hne
  obtain rfl | rfl | rfl := hq
  · refine hcall h fun hr => ?_
    simp only [Player.tuner, Tdp.demuxRegisterSectionFilterCallback] at hr ⊢
    split_ifs at hr ⊢ <;> simp_all [Answer.granted]
  · exact hcall h Player.createAudio_granted
  · exact hcall h Player.createVideo_granted

theorem Tdp.playerStreamCreate_refused {t : Tdp} {playerHandle sourceHandle pid type handle : ℕ}
    (h : a.first = false) :
    t.playerStreamCreate a playerHandle sourceHandle pid type handle = (.error, handle, t) := by
  simp [playerStreamCreate, h]

/-- When the audio stream is refused, nothing has changed. -/
theorem Player.Serves.createAudio_error {d : Demand} (h : p.Serves d) {pid type : ℕ}
    (htype : type < 39) (herror : (p.createAudio a pid type).1 = .error) :
    (p.createAudio a pid type).2 = p := by
  have hplayer := h.fits.player
  have hsource := h.fits.source
  have hplayer_ne := h.fits.player_ne_zero
  have hsource_ne := h.fits.source_ne_zero
  have htype : ¬ 39 ≤ type := not_le.mpr htype
  by_cases hpid : pid = noPid
  · simp [Player.createAudio, hpid] at herror
  · cases hfirst : a.first with
    | true =>
      simp [Player.createAudio, Tdp.playerStreamCreate, hplayer, hsource, hplayer_ne, hsource_ne,
        htype, hpid, hfirst] at herror
    | false => simp [Player.createAudio, Tdp.playerStreamCreate_refused hfirst, hpid]

/-- When the video stream is refused, it may have been created nevertheless. -/
theorem Player.Serves.createVideo_error {f x : Bool} (h : p.Serves ⟨f, x, true⟩) {pid type : ℕ}
    (ha : a.Honest p.tdp) (htype : 39 ≤ type)
    (herror : (p.createVideo a pid type).1 = .error) :
    (p.createVideo a pid type).2.Closable f ∧
      (p.createVideo a pid type).2.tdp.initDone = p.tdp.initDone := by
  have hplayer := h.fits.player
  have hsource := h.fits.source
  have hplayer_ne := h.fits.player_ne_zero
  have hsource_ne := h.fits.source_ne_zero
  have hoff : p.status.videoOn = false := h.video rfl
  by_cases hpid : pid = noPid
  · simp [Player.createVideo, hpid] at herror
  · cases hfirst : a.first with
    | false =>
      have hcall : p.createVideo a pid type = (.error, p) := by
        simp [Player.createVideo, Tdp.playerStreamCreate_refused hfirst, hpid]
      rw [hcall]
      exact ⟨h.fits.closable, rfl⟩
    | true =>
      cases hsecond : a.second with
      | true =>
        simp [Player.createVideo, Tdp.playerStreamCreate, hplayer, hsource, hplayer_ne,
          hsource_ne, htype, hpid, hfirst, hsecond] at herror
      | false =>
        have hcall : p.createVideo a pid type = (.error, { p with
            videoStreamHandle := a.handle
            tdp := { p.tdp with
              hStreamV := a.handle
              pe := { p.tdp.pe with
                streams := p.tdp.pe.streams ++ [⟨a.handle, true, pid, type - 38⟩] } } }) := by
          simp [Player.createVideo, Tdp.playerStreamCreate, hplayer, hsource, hplayer_ne,
            hsource_ne, htype, hpid, hfirst, hsecond]
        rw [hcall]
        have hclosable := h.fits.closable
        have haudio := h.fits.audio
        have hvideo := h.live_video
        refine ⟨{ hclosable with
          audio := ?_
          video := ?_
          hStreamV := by simp [hoff]
          distinct := fun hon heq => ?_ }, rfl⟩
        · rw [← haudio]
          simp [Pe.live]
        · rw [if_pos ha.handle_ne_zero]
          simpa [Pe.live] using hvideo
        · refine ha.fresh_stream false ?_
          rw [haudio, if_pos hon, heq]
          exact List.mem_singleton_self _

/-- A call that has not failed does not lead to the teardown. -/
theorem State.initAssert_ne_stop {r : TError × Player} (pc : InitPc) (hr : r.1 = .noError) :
    (s.initAssert r pc).main ≠ .deinit .stop := by
  obtain ⟨-, he⟩ | ⟨herror, -⟩ := s.initAssert_cases r pc
  · simp [he]
  · cases hr.symm.trans herror

/-- A failure behind the initialisation of the tuner that leaves a player that can be closed. -/
private theorem Before.closing (hs : Before s) (halive : s.main.alive = true)
    (hpast : s.Past (.init .tunerInit))
    (hstage : s.main.stage ≤ (MainPc.init .createThread).stage) (hm' : s'.main = .deinit .stop)
    (hloop : s'.loop = s.loop) (hclosable : s'.player.Closable true)
    (hdone : s'.player.tdp.initDone = s.player.tdp.initDone)
    (hflag : s'.streamThreadRunning = s.streamThreadRunning ∨ s'.streamThreadRunning = false) :
    Closing s' := by
  have hnone := hs.book.coherent.notCreated hstage
  refine ⟨by rw [hm']; exact hclosable, .inl (hloop.trans hnone),
    fun _ => ⟨hloop.trans hnone, ?_⟩, fun _ _ => ?_⟩
  · obtain hflag | hflag := hflag
    · exact hflag.trans (hs.flag hnone (lt_trans (by decide) hpast))
    · exact hflag
  · exact hdone.trans (hs.book.tuner hpast halive)

/-- A call that has failed there. -/
private theorem Before.closing_of_call (hs : Before s) (halive : s.main.alive = true)
    (hpast : s.Past (.init .tunerInit))
    (hstage : s.main.stage ≤ (MainPc.init .createThread).stage) {r : TError × Player} {pc : InitPc}
    (h : some (s.initAssert r pc) = some s') (hm' : s'.main = .deinit .stop)
    (hr : r.1 = .error → r.2.Closable true ∧ r.2.tdp.initDone = s.player.tdp.initDone) :
    Closing s' := by
  obtain rfl := Option.some.inj h
  obtain ⟨hok, -⟩ | ⟨herror, he⟩ := s.initAssert_cases r pc
  · exact absurd hm' (State.initAssert_ne_stop pc hok)
  · obtain ⟨hclosable, hdone⟩ := hr herror
    rw [he] at hm' ⊢
    exact hs.closing halive hpast hstage rfl rfl hclosable hdone (.inl rfl)

/-- **`stream_init` fails** behind the setting of the filter only, and leaves a player that can be
closed. -/
theorem Before.fails {q : InitPc} (hs : Before s) (hparams : params.KnownTypes)
    (hm : s.main = .init q) (h : initStep params a s q = some s')
    (ha : a.InOrder s.main s.player.tdp) (hq : q.returns = false)
    (hm' : s'.main = .deinit .stop) : Closing s' := by
  have haudio : params.audioType < 39 := by rw [hparams.audio]; decide
  have hvideo : 39 ≤ params.videoType := by rw [hparams.video]; decide
  have hholds := hs.book.main
  rw [hm] at hholds ha
  have hgood : (MainPc.init q).callsPlayer = true → (MainPc.init q).mustSucceed = true →
      a.Good s.player.tdp := fun hcalls hmust =>
    (ha.honest hcalls).good (ha.success hmust).1 (ha.success hmust).2
  have halive : s.main.alive = true := by rw [hm]; rfl
  have hpast : 2 < q.stage → s.Past (.init .tunerInit) := fun hq =>
    (State.past_iff hm).mpr (Nat.add_lt_add_left hq 2)
  have hstage : q.stage ≤ 28 → s.main.stage ≤ (MainPc.init .createThread).stage := fun hq => by
    rw [hm]
    exact Nat.add_le_add_left hq 2
  -- a call that cannot have failed
  have hsucceeds : ∀ {r : TError × Player} {pc : InitPc}, some (s.initAssert r pc) = some s' →
      r.1 = .noError → Closing s' := by
    intro r pc h hr
    obtain rfl := Option.some.inj h
    exact absurd hm' (State.initAssert_ne_stop pc hr)
  cases q with
  | tunerInit =>
    obtain ⟨h₁, h₂⟩ := ha.success rfl
    exact hsucceeds h (by simp [Player.tuner, Tdp.tunerInit, h₁, h₂])
  | registerTuner =>
    have hcallback := hs.callback ((State.past_iff hm).not.mpr (lt_irrefl _))
    exact hsucceeds h (by simp [Player.tuner, Tdp.tunerRegisterStatusCallback, hcallback])
  | lockTuner =>
    obtain ⟨h₁, h₂⟩ := ha.success rfl
    obtain rfl := Option.some.inj h
    simp [Player.tuner, Tdp.tunerLockToFrequency, h₁, h₂, State.initAssert] at hm'
  | playerInit =>
    obtain ⟨p', hp', -⟩ := hholds.init (hgood rfl rfl)
    exact hsucceeds h (by rw [hp'])
  | openSource =>
    obtain ⟨p', hp', -⟩ := hholds.1.openSource hholds.2 (hgood rfl rfl)
    exact hsucceeds h (by rw [hp'])
  | setFilter t =>
    obtain ⟨p', hp', -⟩ := hholds.setFilter (hgood rfl rfl) (t.pid s) t.tableId
    exact hsucceeds h (by rw [hp'])
  | freeFilter t =>
    obtain ⟨p', hp', -⟩ := hholds.freeFilter (hgood rfl rfl)
    exact hsucceeds h (by rw [hp'])
  | registerSections =>
    refine hs.closing_of_call halive (hpast (by decide)) (hstage (by decide)) h hm' fun _ => ?_
    refine ⟨(hholds.registerSections a).fits.closable, ?_⟩
    simp only [Player.tuner, Tdp.demuxRegisterSectionFilterCallback]
    split_ifs <;> rfl
  | checkAudioPid | checkVideoPid =>
    simp only [initStep] at h
    split at h
    · obtain rfl := Option.some.inj h
      exact hs.closing halive (hpast (by decide)) (hstage (by decide)) rfl rfl
        hholds.fits.closable rfl (.inl rfl)
    · obtain rfl := Option.some.inj h
      cases hm'
  | createAudio =>
    refine hs.closing_of_call halive (hpast (by decide)) (hstage (by decide)) h hm' fun herror => ?_
    rw [hholds.createAudio_error haudio herror]
    exact ⟨hholds.fits.closable, rfl⟩
  | createVideo =>
    refine hs.closing_of_call halive (hpast (by decide)) (hstage (by decide)) h hm' fun herror => ?_
    exact hholds.createVideo_error (ha.honest rfl) hvideo herror
  | createThread =>
    simp only [initStep] at h
    split at h
    · obtain rfl := Option.some.inj h
      cases hm'
    · obtain rfl := Option.some.inj h
      exact hs.closing halive (hpast (by decide)) (hstage le_rfl) rfl rfl
        hholds.fits.closable rfl (.inr rfl)
  | announcing progNum radio => cases hq
  | waitingTuner | waiting t => cases h
  | waitTuner | wait t =>
    simp only [initStep] at h
    split at h
    · cases h
    · obtain rfl := Option.some.inj h
      cases hm'
  | reset | loadCounter | announce =>
    obtain rfl := Option.some.inj h
    cases hm'

/-! ### The steps of the main thread -/

theorem MainPc.callsPlayer_cases {m : MainPc} (h : m.callsPlayer = true) :
    m.mustSucceed = true ∨
      ∃ q, m = .init q ∧ (q = .registerSections ∨ q = .createAudio ∨ q = .createVideo) := by
  cases m with
  | init q =>
    cases q with
    | registerSections => exact .inr ⟨_, rfl, .inl rfl⟩
    | createAudio => exact .inr ⟨_, rfl, .inr (.inl rfl)⟩
    | createVideo => exact .inr ⟨_, rfl, .inr (.inr rfl)⟩
    | playerInit | openSource | setFilter t | freeFilter t => exact .inl rfl
    | _ => cases h
  | deinit q => exact .inl rfl
  | _ => cases h

/-- A step that does not fail might as well have had a good answer. -/
theorem exists_good (h : mainStep params a s = some s') (ha : a.InOrder s.main s.player.tdp)
    (hinit : ∀ q, s.main = .init q → q.returns = false → s'.main ≠ .deinit .stop) :
    ∃ b, mainStep params b s = some s' ∧ (s.main.callsPlayer = true → b.Good s.player.tdp) := by
  by_cases hcalls : s.main.callsPlayer = true
  · have hhonest := ha.honest hcalls
    obtain hmust | ⟨q, hm, hq⟩ := MainPc.callsPlayer_cases hcalls
    · obtain ⟨h₁, h₂⟩ := ha.success hmust
      exact ⟨a, h, fun _ => hhonest.good h₁ h₂⟩
    · have hstep : initStep params a s q = some s' := by simpa [mainStep, hm] using h
      have hreturns : q.returns = false := by obtain rfl | rfl | rfl := hq <;> rfl
      refine ⟨a.granted, ?_, fun _ => hhonest.granted⟩
      simpa [mainStep, hm] using initStep_granted hstep (hinit q hm hreturns) hq
  · exact ⟨a, h, fun hc => absurd hc hcalls⟩

/-- The bookkeeping is kept, unless `stream_init` fails. -/
theorem Before.bookInv_mainStep (hs : Before s) (hparams : params.KnownTypes)
    (h : mainStep params a s = some s') (ha : a.InOrder s.main s.player.tdp)
    (hinit : ∀ q, s.main = .init q → q.returns = false → s'.main ≠ .deinit .stop) :
    BookInv s' := by
  obtain ⟨b, hb, hgood⟩ := exists_good h ha hinit
  have hstep : step params s (.main b) = some s' := by
    rw [step, if_pos (alive_of_mainStep h)]
    exact hb
  exact hs.book.step hparams hstep hgood hinit

/-- `stream_init` starts by saying that there is no stream thread. -/
theorem past_reset_of_mainStep (h : mainStep params a s = some s')
    (hs' : s'.Past (.init .reset)) (halive : s'.main.alive = true) :
    s.Past (.init .reset) ∨ s.main = .init .reset := by
  have hn := main_of_mainStep h
  rw [State.Past] at hs' ⊢
  cases hm : s.main with
  | init q => cases q <;> simp [MainPc.stage, InitPc.stage]
  | remoteInit | registerRemote =>
    rw [hm] at hn
    obtain hn | hn := hn
    · rw [hn] at hs'
      exact absurd hs' (by simp [MainPc.next, MainPc.stage, InitPc.stage])
    · rw [hn] at halive
      cases halive
  | deinit q =>
    simp only [MainPc.stage, InitPc.stage]
    omega
  | _ => simp [MainPc.stage, InitPc.stage]

theorem before_of_not_closes (hs : Before s ∨ Closing s) (h : ¬ s.main.Closes s.player) :
    Before s :=
  hs.resolve_right fun hs => h hs.closes

/-- As long as there is no stream thread, the flag says so. -/
theorem Before.flag_mainStep (hs : Before s) (h : mainStep params a s = some s')
    (hloop : s'.loop = .notCreated) (hs' : s'.Past (.init .reset))
    (halive : s'.main.alive = true) : s'.streamThreadRunning = false := by
  by_cases hreset : s.main = .init .reset
  · simp only [mainStep, hreset, initStep] at h
    obtain rfl := Option.some.inj h
    rfl
  · have hpast : s.Past (.init .reset) :=
      (past_reset_of_mainStep h hs' halive).resolve_right hreset
    obtain hl | ⟨-, -, hl, -⟩ := loop_of_mainStep h
    · have hflag := hs.flag (hl.symm.trans hloop) hpast
      rcases mainStep_writes h with h | ⟨-, h⟩ | ⟨-, h⟩ | ⟨-, h⟩ | ⟨-, h⟩ | ⟨-, h⟩ | ⟨_, _, -, h⟩ |
        ⟨-, h⟩
      case createThread => rw [h] at hloop; cases hloop
      case reset | noThread | stop => rw [h]
      all_goals rwa [h]
    · cases hl.symm.trans hloop

/-- The tuner's callback is registered once. -/
theorem Before.callback_mainStep (hs : Before s) (h : mainStep params a s = some s')
    (hs' : ¬ s'.Past (.init .registerTuner)) : s'.player.tdp.tunerStatusCallback = false := by
  have hlt := stage_lt_of_mainStep h
  have hstage : s.main.stage < 5 := lt_of_lt_of_le hlt (not_lt.mp hs')
  have hcallback := hs.callback fun hp => hs' (lt_trans hp hlt)
  cases hm : s.main with
  | remoteInit | registerRemote =>
    rwa [player_of_mainStep_outside h (by simp [hm]) (by simp [hm])]
  | init q =>
    rw [hm] at hstage
    cases q with
    | reset | loadCounter =>
      simp only [mainStep, hm, initStep] at h
      obtain rfl := Option.some.inj h
      exact hcallback
    | tunerInit =>
      simp only [mainStep, hm, initStep] at h
      obtain rfl := Option.some.inj h
      obtain ⟨-, he⟩ | ⟨-, he⟩ :=
        s.initAssert_cases (s.player.tuner (s.player.tdp.tunerInit a)) .registerTuner
      all_goals
        rw [he]
        simp only [Player.tuner, Tdp.tunerInit]
        split <;> exact hcallback
    | _ =>
      simp only [MainPc.stage, InitPc.stage] at hstage
      omega
  | _ =>
    rw [hm] at hstage
    simp only [MainPc.stage] at hstage
    omega

theorem stage_of_initStep {q : InitPc} (h : initStep params a s q = some s') :
    s'.main.stage ≤ 33 ∨ s'.main.stage = 36 := by
  obtain hn | hn := main_of_initStep h
  · rw [hn]
    exact .inl q.stage_next_le
  · rw [hn]
    exact .inr rfl

/-- When the stream thread has been joined, the player can be closed. -/
theorem Before.join (hs : Before s) (hm : s.main = .deinit .join)
    (h : deinitStep a s .join = some s') : Closing s' := by
  have hserves := hs.book.loop (hs.created hm) hs.stage
  have htuner := hs.book.tuner ((State.past_iff hm).mpr (by decide)) (by rw [hm]; rfl)
  simp only [Zapper.deinitStep] at h
  split at h
  · next hl =>
    obtain rfl := Option.some.inj h
    rw [hl] at hserves
    exact ⟨hserves.fits.closable, .inr hl, by simp, fun _ _ => htuner⟩
  · next hl => exact absurd hl hs.book.accepted
  · cases h

/-- **The main thread** sets up, until `stream_init` fails or the stream thread has been
joined. -/
theorem Before.mainStep (hs : Before s) (hparams : params.KnownTypes)
    (h : Zapper.mainStep params a s = some s') (ha : a.InOrder s.main s.player.tdp) :
    Before s' ∨ Closing s' := by
  have hlt := stage_lt_of_mainStep h
  have hbefore : (∀ q, s.main = .init q → q.returns = false → s'.main ≠ .deinit .stop) →
      s'.main.stage ≤ (MainPc.deinit .join).stage → Before s' := by
    intro hinit hstage
    have halive : s'.main.alive = true := by
      cases hm' : s'.main with
      | exited e => rw [hm'] at hstage; exact absurd hstage (show ¬ 47 ≤ 37 by decide)
      | _ => rfl
    exact ⟨hs.bookInv_mainStep hparams h ha hinit, not_lt.mpr hstage,
      fun hl hp => hs.flag_mainStep h hl hp halive, hs.callback_mainStep h, fun hm' => by
        rw [hm'] at hlt
        exact absurd hlt (Nat.not_lt_zero _)⟩
  cases hm : s.main with
  | init q =>
    have hstep : initStep params a s q = some s' := by simpa [Zapper.mainStep, hm] using h
    by_cases hfails : q.returns = false ∧ s'.main = .deinit .stop
    · exact .inr (hs.fails hparams hm hstep ha hfails.1 hfails.2)
    · have hle : s'.main.stage ≤ 37 := by
        have := stage_of_initStep hstep
        omega
      refine .inl (hbefore (fun q' hm' hq hstop => ?_) hle)
      cases hm.symm.trans hm'
      exact hfails ⟨hq, hstop⟩
  | deinit q =>
    have hstep : Zapper.deinitStep a s q = some s' := by simpa [Zapper.mainStep, hm] using h
    cases q with
    | stop =>
      have hrunning := hs.book.coherent.running (hs.created hm)
        ((State.past_iff hm).not.mpr (lt_irrefl _))
      simp only [Zapper.deinitStep, hrunning, if_true] at hstep
      refine .inl (hbefore (by simp [hm]) ?_)
      obtain rfl := Option.some.inj hstep
      exact le_rfl
    | join => exact .inr (hs.join hm hstep)
    | _ =>
      have hstage := hs.stage
      rw [State.Past, hm] at hstage
      exact absurd (by decide) hstage
  | remoteInit =>
    have hnone := hs.book.coherent.notCreated (by rw [hm]; decide)
    simp only [Zapper.mainStep, hm] at h
    split at h
    · refine .inl (hbefore (by simp [hm]) ?_)
      obtain rfl := Option.some.inj h
      exact show 1 ≤ 37 by decide
    · obtain rfl := Option.some.inj h
      exact .inr ⟨hs.closed hm, .inl hnone, by simp, by simp⟩
  | registerRemote =>
    refine .inl (hbefore (by simp [hm]) ?_)
    simp only [Zapper.mainStep, hm] at h
    obtain rfl := Option.some.inj h
    exact show 2 ≤ 37 by decide
  | graphicsInit =>
    refine .inl (hbefore (by simp [hm]) ?_)
    simp only [Zapper.mainStep, hm] at h
    split at h
    · obtain rfl := Option.some.inj h
      exact show 34 ≤ 37 by decide
    · obtain rfl := Option.some.inj h
      exact show 35 ≤ 37 by decide
  | running => simp [Zapper.mainStep, hm] at h
  | graphicsDeinit =>
    refine .inl (hbefore (by simp [hm]) ?_)
    rw [hm] at ha
    simp only [Zapper.mainStep, hm, (ha.success rfl).1, if_true] at h
    obtain rfl := Option.some.inj h
    exact show 36 ≤ 37 by decide
  | unregisterRemote | remoteDeinit | exited e =>
    have hstage := hs.stage
    rw [State.Past, hm] at hstage
    exact absurd (by simp [MainPc.stage, DeinitPc.stage]) hstage

/-! ### The steps of the others -/

/-- Where the main thread goes when others move it. -/
theorem main_of_others (h : step params s l = some s') (hmain : ∀ a, l ≠ .main a)
    (htimeout : l ≠ .timeout) :
    s'.main = s.main ∨ s.main = .running ∧ s'.main = .graphicsDeinit ∨
      ∃ q q', s.main = .init q ∧ s'.main = .init q' ∧ 6 ≤ q.stage := by
  cases main_of_step h with
  | main a hact => exact absurd rfl (hmain a)
  | timeout hm hm' => exact absurd rfl htimeout
  | same _ hm => exact .inl hm
  | exit _ hm hm' => exact .inr (.inl ⟨hm, hm'⟩)
  | locked _ hm hm' => exact .inr (.inr ⟨_, _, hm, hm', le_rfl⟩)
  | table _ t hm hm' =>
    refine .inr (.inr ⟨_, _, hm, hm', ?_⟩)
    exact le_trans (by decide) (Nat.le_add_right 13 _)

/-- **The others** leave the main thread to it. -/
theorem Before.other (hs : Before s) (hparams : params.KnownTypes)
    (h : step params s l = some s') (hmain : ∀ a, l ≠ .main a) (htimeout : l ≠ .timeout)
    (hgood : ∀ a, l = .loop a → s.loop.callsPlayer = true → a.Good s.player.tdp) :
    Before s' := by
  have hmoves := main_of_others h hmain htimeout
  have hbook : BookInv s' := by
    refine hs.book.step hparams h ?_ fun q hm _ hm' => ?_
    · cases l with
      | main a => exact absurd rfl (hmain a)
      | loop a => exact hgood a rfl
      | _ => trivial
    · obtain hsame | ⟨hrun, -⟩ | ⟨-, q', -, hinit, -⟩ := hmoves
      · cases hm'.symm.trans (hsame.trans hm)
      · cases hm.symm.trans hrun
      · cases hm'.symm.trans hinit
  -- the stream thread moves when the main thread is far ahead
  have hloop : ∀ {m : MainPc}, m.stage ≤ (MainPc.init .createThread).stage → ¬ s'.Past m →
      ∀ a, l ≠ .loop a := by
    rintro m hm hp a rfl
    have hcreated := hs.book.coherent.created (created_of_loopStep (act_of_step h)).1
    exact hp ((lt_of_le_of_lt hm hcreated).trans_le (stage_le_of_step h))
  refine ⟨hbook, ?_, fun hl hp => ?_, fun hp => ?_, fun hm' => ?_⟩
  · obtain hsame | ⟨-, hm'⟩ | ⟨-, q', -, hm', -⟩ := hmoves
    · rw [State.Past, hsame]
      exact hs.stage
    · rw [State.Past, hm']
      decide
    · rw [State.Past, hm']
      have hle := q'.stage_le
      simp only [MainPc.stage, DeinitPc.stage]
      omega
  · have hnoLoop : ∀ a, l ≠ .loop a := by
      rintro a rfl
      exact (created_of_loopStep (act_of_step h)).2 hl
    have hnone : s.loop = .notCreated := by
      obtain ⟨a, hl', -⟩ | hl' | ⟨a, hl', -⟩ | ⟨c, -, hl'⟩ := loop_of_step h
      · exact absurd hl' (hnoLoop a)
      · exact hl'.symm.trans hl
      · exact absurd hl' (hmain a)
      · cases hl'.symm.trans hl
    rw [(player_of_others h hmain hnoLoop).2]
    refine hs.flag hnone ?_
    obtain hsame | ⟨hm, -⟩ | ⟨q, -, hm, -, hq⟩ := hmoves
    · rwa [State.Past, hsame] at hp
    · rw [State.Past, hm]
      decide
    · rw [State.Past, hm]
      exact show 2 < 2 + q.stage by omega
  · have hplayer := (player_of_others h hmain (hloop (by decide) hp)).1
    have hcallback := hs.callback fun hp' => hp (hp'.trans_le (stage_le_of_step h))
    obtain hplayer | ⟨v, hplayer⟩ := hplayer
    · rwa [hplayer]
    · rwa [hplayer]
  · have hle := stage_le_of_step h
    rw [hm'] at hle
    have hm : s.main = .remoteInit := by
      obtain hsame | ⟨-, hm⟩ | ⟨_, q', -, hm, -⟩ := hmoves
      · exact hsame.symm.trans hm'
      · cases hm'.symm.trans hm
      · cases hm'.symm.trans hm
    have hplayer := (player_of_others h hmain
      (hloop (m := .remoteInit) (by decide) ((State.past_iff hm').not.mpr (lt_irrefl _)))).1
    have hclosed := hs.closed hm
    obtain hplayer | ⟨v, hplayer⟩ := hplayer
    · rwa [hplayer]
    · rw [hplayer]
      exact { hclosed with }

end Zapper
