import Zapper.Stream.Deadlock

/-!
# Shutdown

Behind the first step of `stream_deinit` the main thread and the stream thread only take a bounded
number of steps, whatever else happens, and as long as `main` has not returned one of the two can
move, or the remote thread where the main thread waits for it, but for three cases: the main thread
waits for the stream thread and that for a table; it waits for the remote thread and that for an
input event; or it comes to free service names that the SDT has not given (`shutdown`). The steps of
the remote thread are not counted: as long as its flag is set, it serves as many events as come.
-/

namespace Zapper

open Transition

namespace Process

variable {params : ConfigParams} {p p' : Process} {l : Label}

/-- A step of the main thread or of the stream thread. -/
def Label.ofThread : Label → Bool
  | .main _ => true
  | .actor (.loop _) => true
  | _ => false

/-- What is left for the two threads. -/
def threadRank (p : Process) : ℕ :=
  64 * (47 - p.zapper.main.stage) + ((if p.joining then 0 else 1) + p.zapper.loop.rank)

/-- The shutdown has begun. -/
structure Closing (p : Process) : Prop where
  sound : p.Sound
  past : p.zapper.Past (.deinit .stop)

/-- The main thread apart, nobody takes the stream thread back. -/
theorem rank_of_other {s s' : State} {k : Zapper.Label} (hs : s.Lively)
    (hpast : s.Past (.deinit .stop)) (hk : Label.other k = true)
    (h : Zapper.step params s k = some s') :
    s'.loop.rank + (if (Label.actor k).ofThread then 1 else 0) ≤ s.loop.rank := by
  have hsame : (Label.actor k).ofThread = false → s'.loop.rank ≤ s.loop.rank := by
    intro hthread
    obtain ⟨a, rfl, -⟩ | hl | ⟨a, rfl, -⟩ | ⟨c, hl, hl'⟩ := loop_of_step h
    · cases hthread
    · rw [hl]
    · cases hk
    · rw [hl, hl']
      exact Nat.le_succ _
  cases k with
  | loop a =>
    exact rank_of_loopStep (act_of_step h) fun _ => hs.stopped hpast (alive_of_step h)
  | main a | input code value a => cases hk
  | _ => exact hsame rfl

/-- **What is left gets less** with every step of the two threads, and never more. -/
theorem threadRank_of_step (hs : p.Closing) (h : step params p l = some p') :
    p'.Closing ∧ p'.threadRank + (if l.ofThread then 1 else 0) ≤ p.threadRank := by
  obtain ⟨halive, -, hcases⟩ := step_eq_some h
  have hpast := hs.past
  have hlively := hs.sound.lively
  have hrank := p.zapper.loop.rank_le
  obtain ⟨a, rfl, hact⟩ | ⟨a, rfl, hact⟩ | ⟨ev, rfl, hact⟩ | ⟨d, rfl, hact⟩ |
    ⟨k, s, rfl, hk, hz, rfl⟩ := hcases
  · -- a step of the zapper's main thread
    have hmain : ∀ {a s}, Zapper.mainStep params a p.zapper = some s →
        s.Past (.deinit .stop) ∧ p.zapper.main.stage < s.main.stage ∧ s.loop = p.zapper.loop := by
      intro a s hz
      have hlt := stage_lt_of_mainStep hz
      refine ⟨lt_trans hpast hlt, hlt, ?_⟩
      obtain hl | ⟨hm, -⟩ := loop_of_mainStep hz
      · exact hl
      · rw [State.Past, hm] at hpast
        exact absurd hpast (by decide)
    have hdone : ∀ {a s} {q : Process}, Zapper.mainStep params a p.zapper = some s → q.zapper = s →
        q.joining = p.joining → q.zapper.Past (.deinit .stop) ∧
          q.threadRank + 1 ≤ p.threadRank := by
      rintro a s q hz rfl hj
      obtain ⟨hp, hlt, hl⟩ := hmain hz
      have hle : q.zapper.main.stage ≤ 47 := q.zapper.main.stage_le
      refine ⟨hp, ?_⟩
      unfold threadRank
      rw [hj, hl]
      omega
    have hsound := hs.sound.step h
    cases mainStep_moves hs.sound.tidy hact with
    | remoteInit s hm hz hp' | register s hm hz hp' | unregister s hm hz hp'
    | zapper s hm hz hp' =>
      obtain ⟨hp, hlt⟩ := hdone (q := p') hz (by rw [hp']) (by rw [hp'])
      exact ⟨⟨hsound, hp⟩, hlt⟩
    | join e s hm hj hr hz hp' =>
      obtain ⟨hp, hlt⟩ := hdone (q := p') hz (by rw [hp']) (by rw [hp'])
      exact ⟨⟨hsound, hp⟩, hlt⟩
    | stop hm hj hp' =>
      subst hp'
      refine ⟨⟨hsound, hpast⟩, ?_⟩
      simp [threadRank, hj, Label.ofThread]
  · have hmoves := remoteStep_moves hact
    have hsame : p'.zapper.main = p.zapper.main ∧ p'.zapper.loop = p.zapper.loop := by
      obtain ⟨ev, -, hserve⟩ | ⟨-, hz⟩ := hmoves.zapper
      · have hframe := serve_frame hserve
        obtain hm | ⟨hm, -⟩ := hframe.main
        · exact ⟨hm, hframe.loop⟩
        · rw [State.Past, hm] at hpast
          exact absurd hpast (by decide)
      · rw [hz]
        exact ⟨rfl, rfl⟩
    have hj : p'.joining = p.joining := by rw [hmoves.rest]
    refine ⟨⟨hs.sound.step h, by rw [State.Past, hsame.1]; exact hpast⟩, ?_⟩
    simp [threadRank, hsame.1, hsame.2, hj, Label.ofThread]
  · obtain ⟨-, ⟨_, -, rfl⟩ | ⟨-, rfl⟩⟩ := readStep_eq_some hact
    · exact ⟨⟨hs.sound.step h, hpast⟩, le_rfl⟩
    · exact ⟨⟨hs.sound.step h, hpast⟩, le_rfl⟩
  · obtain ⟨-, rfl⟩ := hangStep_eq_some hact
    exact ⟨⟨hs.sound.step h, hpast⟩, le_rfl⟩
  · refine ⟨⟨hs.sound.step h, hpast.step hz⟩, ?_⟩
    have hstage := stage_le_of_step hz
    have hloop := rank_of_other hlively hpast hk hz
    unfold threadRank
    dsimp only
    omega

/-- Neither the main thread nor the stream thread can move, nor the remote thread once it is waited
for. -/
def Stuck (params : ConfigParams) (p : Process) : Prop :=
  ∀ a, step params p (.main a) = none ∧ step params p (.actor (.loop a)) = none ∧
    (p.joining = true → step params p (.remote a) = none)

/-- `main` waits for the stream thread, and that for a table. -/
def WaitsForTable (p : Process) : Prop :=
  p.zapper.main = .deinit .join ∧ ∃ c, p.zapper.loop = .switch c .waiting

/-- `main` waits for the remote thread, and that for an input event. -/
def WaitsForEvent (p : Process) : Prop :=
  p.zapper.main = .remoteDeinit ∧ p.joining = true ∧ p.remote = .reading

/-- `main` frees service names, one of which the SDT has not given. -/
def FreesNames (p : Process) : Prop :=
  p.zapper.main = .deinit .freeTables ∧
    ¬ p.zapper.tables.sdt.services.FilledTo p.zapper.tables.pat.pmtCount

/-- A step that the main thread of the zapper can take, it can take in the process. -/
theorem mainStep_of_zapper {a : Answer} {s : State} (hp : p.Tidy)
    (halive : p.zapper.main.alive = true) (hm : p.zapper.main ≠ .remoteDeinit)
    (h : Zapper.mainStep params a p.zapper = some s) : ∃ q, mainStep params a p = some q := by
  have hset := hp.callbackSet halive
  cases hm' : p.zapper.main with
  | remoteInit => exact ⟨_, by simp only [mainStep, hm', h]; rfl⟩
  | registerRemote =>
    rw [hm'] at hset
    exact ⟨{ p with zapper := s, callbackSet := true }, by
      simp only [mainStep, hm', hset, h]
      rfl⟩
  | unregisterRemote =>
    rw [hm'] at hset
    exact ⟨{ p with zapper := s, callbackSet := false }, by
      simp only [mainStep, hm', hset, h]
      rfl⟩
  | remoteDeinit => exact absurd hm' hm
  | _ => exact ⟨_, by simp only [mainStep, hm', h]; rfl⟩

/-- The stream thread that is joined waits for a table, or is not stuck. -/
theorem waitsForTable_of_stuck (hs : p.Closing) (hc : p.remote ≠ .crashed)
    (hm : p.zapper.main = .deinit .join) (h : Stuck params p) : p.WaitsForTable := by
  have hlively := hs.sound.lively
  have halive : p.zapper.main.alive = true := by rw [hm]; rfl
  have hcreated := hlively.joins hm
  have hlocked : p.zapper.statusMutex = false := by
    by_contra hlocked
    exact hcreated (hlively.locked (by simpa using hlocked)).2
  refine ⟨hm, ?_⟩
  by_contra hw
  push Not at hw
  by_cases he : ∃ e, p.zapper.loop = .exited e
  · obtain ⟨e, he⟩ := he
    obtain ⟨s, hz⟩ : ∃ s, Zapper.mainStep params .refused p.zapper = some s := by
      cases e <;> exact ⟨_, by simp only [Zapper.mainStep, hm, deinitStep, he]; rfl⟩
    obtain ⟨q, hq⟩ := mainStep_of_zapper hs.sound.tidy halive (by simp [hm]) hz
    have hnone := (h .refused).1
    rw [step_main halive hc, hq] at hnone
    cases hnone
  · push Not at he
    obtain ⟨s, hz⟩ := loopStep_isSome params .refused hcreated he hw hlocked
    have hnone := (h .refused).2.1
    rw [step, halive, decide_eq_true hc] at hnone
    simp [Label.other, admits, Zapper.step, halive, act, hz] at hnone

/-- The remote thread that is joined waits for an event, or is not stuck. -/
theorem waitsForEvent_of_stuck (hs : p.Closing) (hc : p.remote ≠ .crashed)
    (hm : p.zapper.main = .remoteDeinit) (h : Stuck params p) : p.WaitsForEvent := by
  have htidy := hs.sound.tidy
  have halive : p.zapper.main.alive = true := by rw [hm]; rfl
  have hmain := (h .refused).1
  rw [step_main halive hc] at hmain
  have hrun := htidy.running halive (by simp [hm])
  cases hj : p.joining with
  | false =>
    rw [hj] at hrun
    simp [mainStep, hm, hj, hrun] at hmain
  | true =>
    have hremote := (h .refused).2.2 hj
    rw [step_remote halive hc] at hremote
    refine ⟨hm, hj, ?_⟩
    cases hr : p.remote with
    | reading => rfl
    | crashed => exact absurd hr hc
    | notCreated => cases hm.symm.trans ((htidy.created halive).mp hr)
    | exited e => simp [mainStep, hm, hj, hr, Zapper.mainStep, Answer.refused] at hmain
    | head | test ev | call ev =>
      simp only [remoteStep, hr] at hremote
      split at hremote <;> cases hremote
    | inCallback ev =>
      -- the stream thread holds no mutex any more
      have hheld : p.zapper.loop.holdsParams = false := by
        obtain hl | hl := hs.sound.lively.coherent.joined (by rw [State.Past, hm]; decide) halive
          <;> rw [hl] <;> rfl
      obtain ⟨s, hserve⟩ := serve_isSome .refused ev p.zapper (by simp [hheld])
      simp [remoteStep, hr, hserve] at hremote

/-- **Where the shutdown can stop**, for good or for a while. -/
theorem stuck_iff (hs : p.Closing) : Stuck params p ↔
    p.zapper.main.alive = false ∨ p.remote = .crashed ∨ p.WaitsForTable ∨ p.WaitsForEvent ∨
      p.FreesNames := by
  constructor
  · intro h
    by_cases halive : p.zapper.main.alive = true
    · by_cases hc : p.remote = .crashed
      · exact .inr (.inl hc)
      by_cases hjoin : p.zapper.main = .deinit .join
      · exact .inr (.inr (.inl (waitsForTable_of_stuck hs hc hjoin h)))
      by_cases hdeinit : p.zapper.main = .remoteDeinit
      · exact .inr (.inr (.inr (.inl (waitsForEvent_of_stuck hs hc hdeinit h))))
      by_cases hnames : p.FreesNames
      · exact .inr (.inr (.inr (.inr hnames)))
      -- everywhere else the main thread moves
      have hpast := hs.past
      rw [State.Past] at hpast
      obtain ⟨s, hz, -⟩ := mainStep_isSome params halive
        (fun hm => by rw [hm] at hpast; exact absurd hpast (by decide))
        (fun hm => by rw [hm] at hpast; exact absurd hpast (by decide))
        (fun t hm => by rw [hm] at hpast; cases t <;> exact absurd hpast (by decide))
        (fun hm => absurd hm hjoin)
        (fun hm => by_contra fun hf => hnames ⟨hm, hf⟩)
        (fun hleft => absurd (lt_trans (by decide) hpast) hleft)
      obtain ⟨q, hq⟩ := mainStep_of_zapper hs.sound.tidy halive hdeinit hz
      have hnone := (h p.zapper.main.wayOut).1
      rw [step_main halive hc, hq] at hnone
      cases hnone
    · exact .inl (by simpa using halive)
  · rintro (hdead | hc | ⟨hm, c, hl⟩ | ⟨hm, hj, hr⟩ | ⟨hm, hf⟩) a
    · simp [step, hdead]
    · simp [step, hc]
    · have hj := hs.sound.tidy.joining_eq_false (by rw [hm]; rfl) (by simp [hm])
      refine ⟨?_, ?_, by simp [hj]⟩
      · simp [step, mainStep, hm, Zapper.mainStep, deinitStep, hl]
      · simp [step, hm, Label.other, Zapper.step, act, loopStep, hl, switchStep]
    · have hloop : ∃ e, p.zapper.loop = .notCreated ∨ p.zapper.loop = .exited e :=
        ⟨.noError, hs.sound.lively.coherent.joined (by rw [State.Past, hm]; decide)
          (by rw [hm]; rfl)⟩
      refine ⟨?_, ?_, ?_⟩
      · simp [step, mainStep, hm, hj, hr]
      · obtain ⟨e, hl | hl⟩ := hloop <;>
          simp [step, hm, Label.other, Zapper.step, act, loopStep, hl]
      · simp [step, remoteStep, hr]
    · have hj := hs.sound.tidy.joining_eq_false (by rw [hm]; rfl) (by simp [hm])
      have hloop : ∃ e, p.zapper.loop = .notCreated ∨ p.zapper.loop = .exited e :=
        ⟨.noError, hs.sound.lively.coherent.joined (by rw [State.Past, hm]; decide)
          (by rw [hm]; rfl)⟩
      refine ⟨?_, ?_, by simp [hj]⟩
      · simp [step, mainStep, hm, Zapper.mainStep, deinitStep, hf]
      · obtain ⟨e, hl | hl⟩ := hloop <;>
          simp [step, hm, Label.other, Zapper.step, act, loopStep, hl]

/-- What is left when the shutdown has begun. -/
theorem Closing.threadRank_le (hs : p.Closing) : p.threadRank ≤ 692 := by
  have hpast := hs.past
  have hrank := p.zapper.loop.rank_le
  have hjoin : (if p.joining then 0 else 1) ≤ 1 := by split <;> decide
  rw [State.Past, show (MainPc.deinit .stop).stage = 36 from rfl] at hpast
  unfold threadRank
  omega

/-- **Shutdown comes to its end**: behind the first step of `stream_deinit`, the main thread and the
stream thread take a bounded number of steps in every run, and they stand still, with the remote
thread where it is waited for, exactly when the process has ended, waits for a table or for an input
event, or cannot free the service names. -/
theorem shutdown (hp : Reachable params p) (hpast : p.zapper.Past (.deinit .stop))
    {ls : List Label} {q : Process} (h : exec (step params) p ls = some q) :
    (ls.filter Label.ofThread).length ≤ 692 ∧ (Stuck params q ↔
      q.zapper.main.alive = false ∨ q.remote = .crashed ∨ q.WaitsForTable ∨ q.WaitsForEvent ∨
        q.FreesNames) := by
  have hs : p.Closing := ⟨hp.sound, hpast⟩
  have hrank := hs.threadRank_le
  have hcount := count_le_of_measure Label.ofThread threadRank
    (fun _ _ _ hu hstep => threadRank_of_step hu hstep) hs h
  exact ⟨by omega, stuck_iff (exec_invariant (I := Closing)
    (fun _ _ _ hu hstep => (threadRank_of_step hu hstep).1) hs h)⟩

/-- The exit key, and the first steps of the shutdown. -/
def exitKey : List Label :=
  [.remote (.ok 1), .read (some ⟨102, 1⟩), .remote (.ok 1), .remote (.ok 1), .remote (.ok 1),
    .main (.ok 1), .main (.ok 1)]

theorem shutdown_exitKey : ∃ p, exec (step (configIni 1)) powerOn (startUp ++ exitKey) = some p ∧
    ∀ ls q, exec (step (configIni 1)) p ls = some q → (ls.filter Label.ofThread).length ≤ 692 := by
  have hrun : (exec (step (configIni 1)) powerOn (startUp ++ exitKey)).map
      (fun p => p.zapper.main) = some (.deinit .join) := by decide +kernel
  obtain ⟨p, hp, hm⟩ := Option.map_eq_some_iff.mp hrun
  exact ⟨p, hp, fun ls q h => (shutdown ⟨_, hp⟩ (by rw [State.Past, hm]; decide) h).1⟩

end Process

end Zapper
