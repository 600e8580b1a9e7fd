import Zapper.Stream.Bookkeeping
import Zapper.TdpCalls

/-!
# What the stream controller asks of the TDP API

The stream controller is one client of the TDP API. What its threads ask for at each place is a
`PlayerCall`, and a step is one request at most (`tdp_of_step`), so that a run of the zapper is a
run of the API with this client.

What a request has to meet, so that all calls to the player name live handles and nothing is
forgotten, has two sides: the client's (`Request.Kept`) and the player's (`Request.Left`). A client
that keeps to its side leaves all in order exactly when the player does its part
(`orderly_apply_iff`).
-/

namespace Zapper

open Transition Handles

variable {params : ConfigParams} {s s' : State} {l : Label} {p : Player} {a : Answer}
  {r : Api.Replies}

/-! ### What is asked for -/

/-- A call of the TDP API in the stream controller, with the checks and the bookkeeping around
it. -/
inductive PlayerCall
  | init
  | openSource
  | setFilter (pid : ℕ) (tableId : UInt8)
  | registerSections
  | freeFilter
  | createAudio (pid type : ℕ)
  | createVideo (pid type : ℕ)
  | removeAudio
  | removeVideo
  | closeSource
  | deinit
  | setVolume (volume : ℕ)

namespace PlayerCall

/-- What the stream controller does. -/
def run (a : Answer) (p : Player) : PlayerCall → TError × Player
  | init => p.init a
  | openSource => p.openSource a
  | setFilter pid tableId => p.setFilter a pid tableId
  | registerSections => p.tuner (p.tdp.demuxRegisterSectionFilterCallback a)
  | freeFilter => p.freeFilter a
  | createAudio pid type => p.createAudio a pid type
  | createVideo pid type => p.createVideo a pid type
  | removeAudio => p.removeAudio a
  | removeVideo => p.removeVideo a
  | closeSource => p.closeSource a
  | deinit => p.deinit
  | setVolume volume => p.setVolume a volume

/-- What it asks the TDP API for: nothing, if there is no such stream. -/
def request (p : Player) : PlayerCall → Option Api.Request
  | init => some .playerInit
  | openSource => some (.playerSourceOpen p.playerHandle)
  | setFilter pid tableId => some (.demuxSetFilter p.playerHandle pid tableId)
  | registerSections => some .demuxRegisterSectionFilterCallback
  | freeFilter => some (.demuxFreeFilter p.playerHandle p.filterHandle)
  | createAudio pid type =>
    if pid ≠ noPid then some (.playerStreamCreate p.playerHandle p.sourceHandle pid type) else none
  | createVideo pid type =>
    if pid ≠ noPid then some (.playerStreamCreate p.playerHandle p.sourceHandle pid type) else none
  | removeAudio =>
    if p.status.audioOn then
      some (.playerStreamRemove p.playerHandle p.sourceHandle p.audioStreamHandle)
    else none
  | removeVideo =>
    if p.status.videoOn then
      some (.playerStreamRemove p.playerHandle p.sourceHandle p.videoStreamHandle)
    else none
  | closeSource => some (.playerSourceClose p.playerHandle p.sourceHandle)
  | deinit => some (.playerDeinit p.playerHandle)
  | setVolume volume => some (.playerVolumeSet p.playerHandle (volume * 160400000 % 2 ^ 32))

variable {c : PlayerCall}

theorem tdp_createAudio {pid : ℕ} (hpid : pid ≠ noPid) (type : ℕ) :
    (p.createAudio a pid type).2.tdp = (p.tdp.playerStreamCreate a p.playerHandle
      p.sourceHandle pid type p.audioStreamHandle).2.2 := by
  unfold Player.createAudio
  rw [if_pos hpid]
  rcases p.tdp.playerStreamCreate a p.playerHandle p.sourceHandle pid type p.audioStreamHandle
    with ⟨_ | _, h, tdp⟩ <;> rfl

theorem tdp_createVideo {pid : ℕ} (hpid : pid ≠ noPid) (type : ℕ) :
    (p.createVideo a pid type).2.tdp = (p.tdp.playerStreamCreate a p.playerHandle
      p.sourceHandle pid type p.videoStreamHandle).2.2 := by
  unfold Player.createVideo
  rw [if_pos hpid]
  rcases p.tdp.playerStreamCreate a p.playerHandle p.sourceHandle pid type p.videoStreamHandle
    with ⟨_ | _, h, tdp⟩ <;> rfl

theorem tdp_removeAudio (hon : p.status.audioOn = true) :
    (p.removeAudio a).2.tdp = (p.tdp.playerStreamRemove a p.playerHandle p.sourceHandle
      p.audioStreamHandle).2 := by
  unfold Player.removeAudio
  rw [if_pos hon]
  rcases p.tdp.playerStreamRemove a p.playerHandle p.sourceHandle p.audioStreamHandle
    with ⟨_ | _, tdp⟩ <;> rfl

theorem tdp_removeVideo (hon : p.status.videoOn = true) :
    (p.removeVideo a).2.tdp = (p.tdp.playerStreamRemove a p.playerHandle p.sourceHandle
      p.videoStreamHandle).2 := by
  unfold Player.removeVideo
  rw [if_pos hon]
  rcases p.tdp.playerStreamRemove a p.playerHandle p.sourceHandle p.videoStreamHandle
    with ⟨_ | _, tdp⟩ <;> rfl

/-- **A call is its request**, as far as the TDP API is concerned. -/
theorem tdp_run {q : Api.Request} (hq : c.request p = some q) (ha : a = q.answer r p.tdp) :
    (c.run a p).2.tdp = q.apply r p.tdp := by
  subst ha
  cases c with
  | createAudio pid type =>
    obtain ⟨hpid, hq⟩ := Option.ite_none_right_eq_some.mp hq
    obtain rfl := Option.some.inj hq
    rw [run, tdp_createAudio hpid]
    simp only [Api.Request.apply, Tdp.playerStreamCreate, apply_ite Prod.snd]
  | createVideo pid type =>
    obtain ⟨hpid, hq⟩ := Option.ite_none_right_eq_some.mp hq
    obtain rfl := Option.some.inj hq
    rw [run, tdp_createVideo hpid]
    simp only [Api.Request.apply, Tdp.playerStreamCreate, apply_ite Prod.snd]
  | removeAudio =>
    obtain ⟨hon, hq⟩ := Option.ite_none_right_eq_some.mp hq
    obtain rfl := Option.some.inj hq
    exact tdp_removeAudio hon
  | removeVideo =>
    obtain ⟨hon, hq⟩ := Option.ite_none_right_eq_some.mp hq
    obtain rfl := Option.some.inj hq
    exact tdp_removeVideo hon
  | init =>
    obtain rfl := Option.some.inj hq
    simp only [run, Player.init, Api.Request.apply, Tdp.playerInit, apply_ite Prod.snd]
  | openSource =>
    obtain rfl := Option.some.inj hq
    simp only [run, Player.openSource, Api.Request.apply, Tdp.playerSourceOpen,
      apply_ite Prod.snd]
  | setFilter pid tableId =>
    obtain rfl := Option.some.inj hq
    simp only [run, Player.setFilter, Api.Request.apply, Tdp.demuxSetFilter, apply_ite Prod.snd]
  | _ =>
    obtain rfl := Option.some.inj hq
    rfl

/-- A call that asks for nothing does nothing. -/
theorem run_of_request_eq_none (hq : c.request p = none) : c.run a p = (.noError, p) := by
  cases c with
  | createAudio pid type | createVideo pid type =>
    have hpid : pid = noPid := by simpa [request] using hq
    simp [run, Player.createAudio, Player.createVideo, hpid]
  | removeAudio =>
    have hoff : p.status.audioOn = false := by simpa [request] using hq
    simp [run, Player.removeAudio, hoff]
  | removeVideo =>
    have hoff : p.status.videoOn = false := by simpa [request] using hq
    simp [run, Player.removeVideo, hoff]
  | _ => cases hq

end PlayerCall

/-- The call at a place of the main thread. -/
def MainPc.call (params : ConfigParams) (s : State) : MainPc → Option PlayerCall
  | .init .playerInit => some .init
  | .init .openSource => some .openSource
  | .init (.setFilter t) => some (.setFilter (t.pid s) t.tableId)
  | .init .registerSections => some .registerSections
  | .init (.freeFilter _) => some .freeFilter
  | .init .createAudio => some (.createAudio s.selected.audioPid params.audioType)
  | .init .createVideo => some (.createVideo s.selected.videoPid params.videoType)
  | .deinit .removeAudio => some .removeAudio
  | .deinit .removeVideo => some .removeVideo
  | .deinit .freeFilter => some .freeFilter
  | .deinit .closeSource => some .closeSource
  | .deinit .deinitPlayer => some .deinit
  | _ => none

/-- The call at a place of the stream thread. -/
def LoopPc.call (params : ConfigParams) (s : State) : LoopPc → Option PlayerCall
  | .switch _ .removeAudio => some .removeAudio
  | .switch _ .removeVideo => some .removeVideo
  | .switch _ .freeFilter => some .freeFilter
  | .switch _ .setFilter => some (.setFilter s.selected.tableId Table.pmt.tableId)
  | .switch _ .createVideo => some (.createVideo s.selected.videoPid params.videoType)
  | .switch _ .createAudio => some (.createAudio s.selected.audioPid params.audioType)
  | _ => none

/-- The call of a key. -/
def Key.call (s : State) : Key → Option PlayerCall
  | .vPlus => some (.setVolume (if s.volumeLvl < 10 then s.volumeLvl + 1 else s.volumeLvl))
  | .vMinus => some (.setVolume (if s.volumeLvl > 0 then s.volumeLvl - 1 else s.volumeLvl))
  | .vMute => some (.setVolume (s.volumeLvl * (((1 : ℤ) - s.volumeMute) % 2 ^ 8).toNat))
  | _ => none

/-- The call of a step, and what the player answers. -/
def call (params : ConfigParams) (s : State) : Label → Option (Answer × PlayerCall)
  | .main a => (s.main.call params s).map (a, ·)
  | .loop a => (s.loop.call params s).map (a, ·)
  | .input code value a => ((Key.ofEvent code value).bind (Key.call s)).map (a, ·)
  | _ => none

/-! ### What a step does to the player -/

/-- The handles of the TDP API. -/
def Tdp.handles (t : Tdp) : ℕ × ℕ × ℕ × ℕ × ℕ × ℕ :=
  (t.hPE, t.hSource, t.hStreamA, t.hStreamV, t.hFilter, t.hBuffer)

theorem Tdp.handles_eq_iff {t t' : Tdp} : t'.handles = t.handles ↔
    t'.hPE = t.hPE ∧ t'.hSource = t.hSource ∧ t'.hStreamA = t.hStreamA ∧
      t'.hStreamV = t.hStreamV ∧ t'.hFilter = t.hFilter ∧ t'.hBuffer = t.hBuffer := by
  simp [Tdp.handles]

/-- The streams and the filter are the same. -/
structure Player.Same (p p' : Player) : Prop where
  handles : p'.tdp.handles = p.tdp.handles
  audio : p'.audioStreamHandle = p.audioStreamHandle
  video : p'.videoStreamHandle = p.videoStreamHandle
  status : p'.status = p.status

theorem Player.Same.refl (p : Player) : p.Same p := ⟨rfl, rfl, rfl, rfl⟩

theorem Player.Same.of_eq {p' : Player} (h : p' = p) : p.Same p' := h ▸ .refl p

/-- The main thread at a call. -/
theorem call_of_mainStep {c : PlayerCall} (h : mainStep params a s = some s')
    (hc : s.main.call params s = some c) :
    s'.player = (c.run a s.player).2 ∧
      ((c.run a s.player).1 = .noError ∧ s'.main = s.main.next s ∨ s'.main = s.main.fail) := by
  have hinit : ∀ {r : TError × Player} {pc : InitPc}, some (s.initAssert r pc) = some s' →
      s'.player = r.2 ∧ (r.1 = .noError ∧ s'.main = .init pc ∨ s'.main = .deinit .stop) := by
    intro r pc h
    obtain rfl := Option.some.inj h
    refine ⟨s.initAssert_player r pc, ?_⟩
    obtain ⟨hr, he⟩ | ⟨-, he⟩ := s.initAssert_cases r pc <;> rw [he]
    · exact .inl ⟨hr, rfl⟩
    · exact .inr rfl
  have hdeinit : ∀ {r : TError × Player} {pc : MainPc}, some (s.deinitAssert r pc) = some s' →
      s'.player = r.2 ∧ (r.1 = .noError ∧ s'.main = pc ∨ s'.main = .exited .error) := by
    rintro ⟨_ | _, p'⟩ pc h <;> obtain rfl := Option.some.inj h
    · exact ⟨rfl, .inr rfl⟩
    · exact ⟨rfl, .inl ⟨rfl, rfl⟩⟩
  cases hm : s.main with
  | init q =>
    have h : initStep params a s q = some s' := by simpa [mainStep, hm] using h
    rw [hm] at hc
    cases q with
    | playerInit | openSource | setFilter t | registerSections | freeFilter t | createAudio
    | createVideo =>
      obtain rfl := Option.some.inj hc
      exact hinit h
    | _ => cases hc
  | deinit q =>
    have h : deinitStep a s q = some s' := by simpa [mainStep, hm] using h
    rw [hm] at hc
    cases q with
    | removeAudio | removeVideo | freeFilter | closeSource | deinitPlayer =>
      obtain rfl := Option.some.inj hc
      exact hdeinit h
    | _ => cases hc
  | _ =>
    rw [hm] at hc
    cases hc

/-- The main thread at another place. -/
theorem same_of_mainStep (h : mainStep params a s = some s') (hc : s.main.call params s = none)
    (hreset : s.main ≠ .init .reset) : s.player.Same s'.player := by
  have htuner : ∀ {r : TError × Tdp} {pc : InitPc}, r.2.handles = s.player.tdp.handles →
      s.player.Same (s.initAssert (s.player.tuner r) pc).player := by
    intro r pc hr
    rw [State.initAssert_player]
    exact ⟨hr, rfl, rfl, rfl⟩
  cases hm : s.main with
  | init q =>
    have h : initStep params a s q = some s' := by simpa [mainStep, hm] using h
    rw [hm] at hc
    cases q with
    | reset => exact absurd hm hreset
    | tunerInit =>
      obtain rfl := Option.some.inj h
      exact htuner (by unfold Tdp.tunerInit; split <;> rfl)
    | registerTuner =>
      obtain rfl := Option.some.inj h
      exact htuner (by unfold Tdp.tunerRegisterStatusCallback; split <;> rfl)
    | lockTuner =>
      obtain rfl := Option.some.inj h
      exact htuner (by unfold Tdp.tunerLockToFrequency; split <;> rfl)
    | loadCounter | announce =>
      obtain rfl := Option.some.inj h
      exact .refl _
    | waitTuner | wait t | checkAudioPid | checkVideoPid | createThread
    | announcing progNum radio =>
      simp only [initStep] at h
      split at h <;> cases h <;> exact .refl _
    | waitingTuner | waiting t => cases h
    | _ => cases hc
  | deinit q =>
    have h : deinitStep a s q = some s' := by simpa [mainStep, hm] using h
    rw [hm] at hc
    cases q with
    | stop | join =>
      simp only [deinitStep] at h
      split at h <;> cases h <;> exact .refl _
    | deinitTuner =>
      obtain rfl := Option.some.inj h
      have htdp : s.player.tdp.tunerDeinit.2 = s.player.tdp := by
        unfold Tdp.tunerDeinit
        split <;> rfl
      exact ⟨congrArg Tdp.handles htdp, rfl, rfl, rfl⟩
    | freeTables =>
      obtain rfl := deinitStep_freeTables h
      exact .refl _
    | _ => cases hc
  | _ => exact .of_eq (player_of_mainStep_outside h (by simp [hm]) (by simp [hm]))

/-- The stream thread at a call. -/
theorem call_of_loopStep {c : PlayerCall} (h : loopStep params a s = some s')
    (hc : s.loop.call params s = some c) :
    s'.player = (c.run a s.player).2 ∧
      ((c.run a s.player).1 = .noError ∧ s'.loop = s.loop.next s ∨
        s'.loop = .exited .error) := by
  have hassert : ∀ {r : TError × Player} {pc : LoopPc}, some (s.loopAssert r pc) = some s' →
      s'.player = r.2 ∧ (r.1 = .noError ∧ s'.loop = pc ∨ s'.loop = .exited .error) := by
    rintro ⟨_ | _, p'⟩ pc h <;> obtain rfl := Option.some.inj h
    · exact ⟨rfl, .inr rfl⟩
    · exact ⟨rfl, .inl ⟨rfl, rfl⟩⟩
  cases hl : s.loop with
  | switch b q =>
    have h : switchStep params a b s q = some s' := by simpa [loopStep, hl] using h
    rw [hl] at hc
    cases q with
    | removeAudio | removeVideo | freeFilter | setFilter | createVideo | createAudio =>
      obtain rfl := Option.some.inj hc
      exact hassert h
    | _ => cases hc
  | _ =>
    rw [hl] at hc
    cases hc

theorem LoopPc.callsPlayer_of_call (h : s.loop.call params s = none) :
    s.loop.callsPlayer = false := by
  cases hl : s.loop with
  | switch c q =>
    rw [hl] at h
    cases q <;> first | rfl | cases h
  | _ => rfl

/-- A key. -/
theorem player_of_callback_eq {code value : ℕ} (h : callback a code value s = some s') :
    s'.player =
      match (Key.ofEvent code value).bind (Key.call s) with
      | some c => (c.run a s.player).2
      | none => s.player := by
  obtain ⟨k, hk, h⟩ | ⟨hk, rfl⟩ := callback_cases h
  · rw [hk]
    cases k with
    | vPlus | vMinus | vMute | back =>
      obtain rfl := Option.some.inj h
      rfl
    | digit program | pPlus | pMinus | info | ok =>
      simp only [press] at h
      split at h
      · cases h
      · obtain rfl := Option.some.inj h
        first | rfl | (unfold changeProgram; split <;> rfl)
    | exit =>
      obtain rfl := Option.some.inj h
      simp only [Option.bind_some, Key.call]
      split <;> rfl
  · rw [hk]
    rfl

/-- What a step asks the TDP API for, and what the player answers. -/
def request (params : ConfigParams) (s : State) (l : Label) : Option (Answer × Api.Request) :=
  (call params s l).bind fun x => (x.2.request s.player).map (x.1, ·)

theorem request_eq_some {q : Api.Request} (h : request params s l = some (a, q)) :
    ∃ c, call params s l = some (a, c) ∧ c.request s.player = some q := by
  obtain ⟨⟨b, c⟩, hc, hq⟩ := Option.bind_eq_some_iff.mp h
  obtain ⟨q', hq', heq⟩ := Option.map_eq_some_iff.mp hq
  obtain ⟨rfl, rfl⟩ := Prod.mk.inj heq
  exact ⟨c, hc, hq'⟩

/-- The player behind a step. -/
theorem call_of_step (h : step params s l = some s') :
    (∃ b c, call params s l = some (b, c) ∧ s'.player = (c.run b s.player).2) ∨
      call params s l = none ∧ s'.player.tdp.handles = s.player.tdp.handles := by
  have hact := act_of_step h
  cases l with
  | main b =>
    cases hc : s.main.call params s with
    | some c => exact .inl ⟨b, c, by simp [call, hc], (call_of_mainStep hact hc).1⟩
    | none =>
      refine .inr ⟨by simp [call, hc], ?_⟩
      by_cases hreset : s.main = .init .reset
      · simp only [act, mainStep, hreset, initStep] at hact
        obtain rfl := Option.some.inj hact
        rfl
      · exact (same_of_mainStep hact hc hreset).handles
  | loop b =>
    cases hc : s.loop.call params s with
    | some c => exact .inl ⟨b, c, by simp [call, hc], (call_of_loopStep hact hc).1⟩
    | none =>
      refine .inr ⟨by simp [call, hc], ?_⟩
      rw [(silent_of_loopStep hact (LoopPc.callsPlayer_of_call hc)).1]
  | input code value b =>
    have hplayer := player_of_callback_eq hact
    cases hc : (Key.ofEvent code value).bind (Key.call s) with
    | some c =>
      rw [hc] at hplayer
      exact .inl ⟨b, c, by simp [call, hc], hplayer⟩
    | none =>
      rw [hc] at hplayer
      exact .inr ⟨by simp [call, hc], by rw [hplayer]⟩
  | handler i => exact .inr ⟨rfl, by rw [(handlerStep_frame hact).player]⟩
  | deliver d | signal | tuner status | timeout | expire =>
    exact .inr ⟨rfl, by rw [(event_frame h rfl).player]⟩

/-- **A step is a request**, as far as the TDP API is concerned. -/
theorem tdp_of_step {q : Api.Request} (h : step params s l = some s')
    (hq : request params s l = some (a, q)) (ha : a = q.answer r s.player.tdp) :
    s'.player.tdp = q.apply r s.player.tdp := by
  obtain ⟨c, hc, hq⟩ := request_eq_some hq
  obtain ⟨b, d, hd, hplayer⟩ | ⟨hnone, -⟩ := call_of_step h
  · obtain ⟨rfl, rfl⟩ := Prod.mk.inj (Option.some.inj (hc.symm.trans hd))
    rw [hplayer]
    exact PlayerCall.tdp_run hq ha
  · cases hc.symm.trans hnone

/-- A step that asks for nothing leaves the handles alone. -/
theorem handles_of_step (h : step params s l = some s') (hq : request params s l = none) :
    s'.player.tdp.handles = s.player.tdp.handles := by
  obtain ⟨b, c, hc, hplayer⟩ | ⟨-, hhandles⟩ := call_of_step h
  · have hnone : c.request s.player = none := by simpa [request, hc] using hq
    rw [hplayer, PlayerCall.run_of_request_eq_none hnone]
  · exact hhandles

/-! ### The two sides of a request -/

namespace Api

variable {t : Tdp} {q : Request}

/-- The client's side: nothing that is held is asked for again, and nothing is used that is not
held. -/
def Request.Kept (t : Tdp) : Request → Prop
  | playerInit => t.hPE = 0
  | playerDeinit _ => t.hFilter = 0 ∧ t.hBuffer = 0
  | playerSourceOpen _ => t.hSource = 0
  | playerSourceClose _ _ => t.hFilter = 0
  | playerStreamCreate _ _ _ streamType =>
    if 39 ≤ streamType then t.hStreamV = 0 else t.hStreamA = 0
  | demuxRegisterSectionFilterCallback => t.hPE ≠ 0
  | demuxUnregisterSectionFilterCallback _ => t.hPE ≠ 0
  | demuxSetFilter _ _ _ => t.hSource ≠ 0 ∧ t.hFilter = 0
  | demuxFreeFilter _ _ => t.hSource ≠ 0
  | _ => True

/-- The player's side: what it is told to take back without a look at its answer, it does take
back, and it reports a section only while there is a filter. -/
def Request.Left (r : Replies) (t : Tdp) : Request → Prop
  | playerDeinit playerHandle =>
    ∀ c ∈ (playerDeinit playerHandle).calls r t, c.gives = true → r.ok c = true
  | demuxSetFilter _ pid tableId =>
    r.ok (.streamBufAllocate t.hPE) = true →
      r.ok (.sourceAddSectionFilter t.hPE t.hSource r.buffer pid tableId) = false →
        r.ok (.streamBufRelease t.hPE r.buffer) = true
  | demuxFreeFilter _ _ =>
    r.ok (.sourceRemoveSectionFilter t.hPE t.hSource t.hFilter) = true ∧
      r.ok (.streamBufRelease t.hPE t.hBuffer) = true
  | sectionReceived => t.hFilter ≠ 0
  | _ => True

theorem Request.safe_iff_left (hq : q.Kept t) : q.Safe r t ↔ q.Left r t := by
  cases q with
  | playerInit | playerSourceOpen h => exact iff_of_true (fun _ => hq) trivial
  | playerStreamCreate h i pid streamType => exact iff_of_true (fun _ => hq) trivial
  | playerDeinit h => exact ⟨fun hs => hs.2.2, fun hl => ⟨hq.1, hq.2, hl⟩⟩
  | demuxSetFilter h pid tableId =>
    exact ⟨fun hs ha => (hs ha).2.2, fun hl ha => ⟨hq.1, hq.2, hl ha⟩⟩
  | demuxFreeFilter h i => exact ⟨fun hs => hs.2, fun hl => ⟨hq, hl⟩⟩
  | demuxRegisterSectionFilterCallback => exact iff_of_true hq trivial
  | demuxUnregisterSectionFilterCallback b => exact iff_of_true hq trivial
  | _ => exact Iff.rfl

/-- A new stream has a handle of its own. -/
def Request.Fresh (r : Replies) (T : PeTable) : Request → Prop
  | playerStreamCreate _ _ _ _ => r.handle ∉ T.live .stream
  | _ => True

/-- A filter has a buffer and a source, and the streams have different handles. -/
structure Sane (t : Tdp) : Prop where
  buffered : Buffered t
  rooted : t.hFilter ≠ 0 → t.hSource ≠ 0
  distinct : t.hStreamV ≠ 0 → t.hStreamA ≠ t.hStreamV

theorem Sane.congr {t' : Tdp} (ht : Sane t) (h : t'.handles = t.handles) : Sane t' := by
  obtain ⟨hpe, hsource, haudio, hvideo, hfilter, hbuffer⟩ := Tdp.handles_eq_iff.mp h
  constructor
  · rw [Buffered, hfilter, hbuffer, hpe]
    exact ht.buffered
  · rw [hfilter, hsource]
    exact ht.rooted
  · rw [haudio, hvideo]
    exact ht.distinct

theorem holds_congr {t' : Tdp} (h : t'.handles = t.handles) : holds t' = holds t := by
  obtain ⟨hpe, hsource, haudio, hvideo, hfilter, hbuffer⟩ := Tdp.handles_eq_iff.mp h
  funext k
  cases k <;> simp only [holds, hpe, hsource, haudio, hvideo, hfilter, hbuffer]

theorem Sane.rooted_apply (ht : Sane t) (hreturns : q.Returns r ⟨holds t, true⟩)
    (hkept : q.Accepted t → q.Kept t) :
    (q.apply r t).hFilter ≠ 0 → (q.apply r t).hSource ≠ 0 := by
  cases q with
  | playerVolumeGet h => exact ht.rooted
  | sectionReceived => exact ht.rooted
  | playerSourceOpen h =>
    simp only [Request.apply, Tdp.playerSourceOpen, apply_ite Prod.snd, apply_ite Tdp.hFilter,
      apply_ite Tdp.hSource, ite_self]
    split_ifs
    any_goals exact ht.rooted
    exact fun _ => hreturns
  | playerSourceClose h i =>
    simp only [Request.apply, Tdp.playerSourceClose, apply_ite Prod.snd, apply_ite Tdp.hFilter,
      apply_ite Tdp.hSource, ite_self]
    split_ifs with hpe hsource hzero hplayer hok
    any_goals exact ht.rooted
    exact fun hfilter => absurd (hkept ⟨by tauto, by tauto, hzero, hplayer⟩) hfilter
  | playerDeinit h =>
    simp only [Request.apply, Tdp.playerDeinit, apply_ite Prod.snd, apply_ite Tdp.hFilter,
      apply_ite Tdp.hSource]
    split_ifs
    any_goals exact ht.rooted
    exact fun hfilter => absurd rfl hfilter
  | demuxSetFilter h pid tableId =>
    simp only [Request.apply, Tdp.demuxSetFilter, apply_ite Prod.snd, apply_ite Tdp.hFilter,
      apply_ite Tdp.hSource, ite_self]
    split_ifs with hpe hplayer
    any_goals exact ht.rooted
    exact fun _ => (hkept ⟨by tauto, hplayer⟩).1
  | demuxFreeFilter h i =>
    simp only [Request.apply, Tdp.demuxFreeFilter, apply_ite Prod.snd, apply_ite Tdp.hFilter,
      apply_ite Tdp.hSource, ite_self]
    split_ifs
    any_goals exact ht.rooted
    exact fun hfilter => absurd rfl hfilter
  | _ =>
    simp only [Request.apply, Tdp.playerInit, Tdp.playerStreamCreate, Tdp.playerStreamRemove,
      Tdp.playerVolumeSet, Tdp.demuxRegisterSectionFilterCallback, apply_ite Prod.snd,
      apply_ite Tdp.hFilter, apply_ite Tdp.hSource, ite_self]
    exact ht.rooted

theorem Sane.distinct_apply (ht : Sane t) (hreturns : q.Returns r ⟨holds t, true⟩)
    (hfresh : q.Fresh r ⟨holds t, true⟩) :
    (q.apply r t).hStreamV ≠ 0 → (q.apply r t).hStreamA ≠ (q.apply r t).hStreamV := by
  cases q with
  | playerVolumeGet h => exact ht.distinct
  | sectionReceived => exact ht.distinct
  | playerStreamCreate h i pid streamType =>
    have hnew : r.handle ≠ t.hStreamA ∧ r.handle ≠ t.hStreamV := by
      have hmem : r.handle ∉ one t.hStreamA + one t.hStreamV := hfresh
      rw [Multiset.mem_add, mem_one, mem_one, not_or] at hmem
      exact ⟨fun heq => hmem.1 ⟨heq, heq ▸ hreturns⟩, fun heq => hmem.2 ⟨heq, heq ▸ hreturns⟩⟩
    simp only [Request.apply, Tdp.playerStreamCreate, apply_ite Prod.snd,
      apply_ite Tdp.hStreamA, apply_ite Tdp.hStreamV]
    split_ifs
    any_goals exact ht.distinct
    · exact fun _ => hnew.1.symm
    · exact fun _ => hnew.2
  | playerStreamRemove h i j =>
    simp only [Request.apply, Tdp.playerStreamRemove, apply_ite Prod.snd,
      apply_ite Tdp.hStreamA, apply_ite Tdp.hStreamV]
    split_ifs
    any_goals exact ht.distinct
    · exact fun hvideo => hvideo.symm
    · exact fun hvideo => absurd rfl hvideo
  | playerDeinit h =>
    simp only [Request.apply, Tdp.playerDeinit, apply_ite Prod.snd, apply_ite Tdp.hStreamA,
      apply_ite Tdp.hStreamV]
    split_ifs
    any_goals exact ht.distinct
    exact fun hvideo => absurd rfl hvideo
  | _ =>
    simp only [Request.apply, Tdp.playerInit, Tdp.playerSourceOpen, Tdp.playerSourceClose,
      Tdp.playerVolumeSet, Tdp.demuxRegisterSectionFilterCallback, Tdp.demuxSetFilter,
      Tdp.demuxFreeFilter, apply_ite Prod.snd, apply_ite Tdp.hStreamA, apply_ite Tdp.hStreamV,
      ite_self]
    exact ht.distinct

/-- A client that keeps to its side leaves the globals sane. -/
theorem Sane.apply (ht : Sane t) (hreturns : q.Returns r ⟨holds t, true⟩)
    (hfresh : q.Fresh r ⟨holds t, true⟩) (hkept : q.Accepted t → q.Kept t) :
    Sane (q.apply r t) :=
  ⟨ht.buffered.apply hreturns, ht.rooted_apply hreturns hkept, ht.distinct_apply hreturns hfresh⟩

/-- **What is left to the player**: a client that keeps to its side leaves all in order exactly
when the player does its part. -/
theorem orderly_apply_iff {T : PeTable} (hT : Orderly (t, T)) (ht : Sane t)
    (hreturns : q.Returns r T) (hkept : q.Accepted t → q.Kept t) :
    Orderly (q.apply r t, q.ask r (t, T)) ↔ (q.Accepted t → q.Left r t) := by
  obtain rfl : T = ⟨holds t, true⟩ := hT
  exact (leavesOrder_iff ht.buffered hreturns).trans
    (forall_congr' fun hq => Request.safe_iff_left (hkept hq))

end Api

end Zapper
