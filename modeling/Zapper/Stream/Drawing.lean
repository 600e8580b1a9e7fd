import Zapper.Stream.Phases

/-!
# Who draws what

What the stream thread, a key and a handler of the program change timer ask of the graphics
controller, and where. What the main thread draws is among its writes (`mainStep_writes`), and
nobody else draws anything (`event_frame`).
-/

namespace Zapper

variable {params : ConfigParams} {a : Answer} {s s' : State}

/-! ### The stream thread -/

/-- What a step of the stream thread draws. -/
inductive LoopDraws (s s' : State) : Prop
  | black (c : Command) (hl : s.loop = .switch c .bgd)
    (h : s'.graphics = s.graphics.printBlackScreen)
  | number (c : Command) (hl : s.loop = .switch c .announce) (hradio : s.radio = true)
    (h : s'.graphics = s.graphics.printProgNum s.order true)
  | info (hl : s.loop = .info)
    (h : s'.graphics = s.graphics.printInfoBanner s.selected.prNum s.selected.audioPid
      s.selected.videoPid s.selected.hasTeletext)
  | list (hl : s.loop = .list) (hlist : s.strPrm.getProgList = true)
    (h : s'.graphics = s.graphics.printProgList s.tables.sdt.services s.tables.pat.pmtCount)
  | nothing (hblack : ∀ c, s.loop ≠ .switch c .bgd)
    (hnumber : ∀ c, s.loop = .switch c .announce → s.radio = false)
    (hlist : s.loop = .list → s.strPrm.getProgList = false) (h : s'.graphics = s.graphics)

theorem switchStep_draws {c : Command} {p : SwitchPc} (hl : s.loop = .switch c p)
    (h : switchStep params a c s p = some s') : LoopDraws s s' := by
  have hnothing : p ≠ .bgd → (p = .announce → s.radio = false) →
      s'.graphics = s.graphics → LoopDraws s s' := by
    intro hblack hnumber hg
    exact .nothing (by simp [hl, hblack]) (by simpa [hl] using hnumber) (by simp [hl]) hg
  cases p with
  | bgd =>
    obtain rfl := Option.some.inj h
    exact .black c hl rfl
  | announce =>
    simp only [switchStep] at h
    split at h
    · next hradio =>
      obtain rfl := Option.some.inj h
      exact .number c hl hradio rfl
    · next hradio =>
      obtain rfl := Option.some.inj h
      exact hnothing (by simp) (by simpa using hradio) rfl
  | wait =>
    simp only [switchStep] at h
    split at h
    · cases h
    · obtain rfl := Option.some.inj h
      exact hnothing (by simp) (by simp) rfl
  | waiting => cases h
  | _ =>
    obtain rfl := Option.some.inj h
    exact hnothing (by simp) (by simp) rfl

/-- **What the stream thread draws**, and where. -/
theorem loopStep_draws (h : loopStep params a s = some s') : LoopDraws s s' := by
  cases hl : s.loop with
  | switch c p => exact switchStep_draws hl (by simpa [loopStep, hl] using h)
  | head | test c =>
    simp only [loopStep, hl] at h
    split at h
    · obtain rfl := Option.some.inj h
      exact .nothing (by simp [hl]) (by simp [hl]) (by simp [hl]) rfl
    · obtain rfl := Option.some.inj h
      exact .nothing (by simp [hl]) (by simp [hl]) (by simp [hl]) rfl
  | info =>
    simp only [loopStep, hl] at h
    split at h
    · obtain rfl := Option.some.inj h
      exact .info hl rfl
    · obtain rfl := Option.some.inj h
      exact .nothing (by simp [hl]) (by simp [hl]) (by simp [hl]) rfl
  | list =>
    simp only [loopStep, hl] at h
    split at h
    · next hlist =>
      obtain rfl := Option.some.inj h
      exact .list hl hlist rfl
    · next hlist =>
      obtain rfl := Option.some.inj h
      exact .nothing (by simp [hl]) (by simp [hl]) (fun _ => by simpa using hlist) rfl
  | notCreated | exited e => simp [loopStep, hl] at h

/-! ### Keys -/

/-- What a key draws. -/
inductive KeyDraws (s s' : State) (k : Key) : Prop
  | number (hk : k = .digit s.prCounter)
    (h : s'.graphics = s.graphics.printProgNum s.order s.radio)
  | volume (volume : ℕ) (hk : ∀ program, k ≠ .digit program)
    (h : s'.graphics = s.graphics.printVolume volume)
  | back (hk : k = .back) (h : s'.graphics = s.graphics.removeProgList)
  | nothing (hk : k ≠ .digit s.prCounter) (h : s'.graphics = s.graphics)

/-- **What a key draws.** -/
theorem press_draws {k : Key} (h : press a s k = some s') : KeyDraws s s' k := by
  cases press_writes h with
  | digit program hw =>
    rw [hw, changeProgram]
    split
    · next hne => exact .nothing (by simpa using hne) rfl
    · next heq =>
      obtain rfl := not_not.mp heq
      exact .number rfl rfl
  | back hw => exact .back rfl (by rw [hw])
  | volume hk volume _ _ hw =>
    exact .volume volume (by rintro program rfl; simp at hk) (by rw [hw]; rfl)
  | request hk hw => exact .nothing (by rintro rfl; simp at hk) (by rw [hw])
  | pPlus hw | pMinus hw | exit _ hw => exact .nothing (by simp) (by rw [hw])

/-! ### The program change timer -/

/-- **A handler announces the number it has read**, and draws nothing else. -/
theorem handlerStep_draws {i : ℕ} (h : handlerStep i s = some s') :
    (∃ progNum, s.timer.handlers[i]? = some (.announcing progNum) ∧
      s'.graphics = s.graphics.printProgNum progNum false) ∨
    (∀ progNum, s.timer.handlers[i]? ≠ some (.announcing progNum)) ∧
      s'.graphics = s.graphics := by
  unfold handlerStep at h
  split at h
  · cases h
  · next hi =>
    obtain rfl := Option.some.inj h
    exact .inr ⟨by simp [hi], rfl⟩
  · next hi =>
    obtain rfl := Option.some.inj h
    exact .inr ⟨by simp [hi], rfl⟩
  · next hi =>
    obtain rfl := Option.some.inj h
    exact .inr ⟨by simp [hi], rfl⟩
  · next progNum hi =>
    obtain rfl := Option.some.inj h
    exact .inl ⟨progNum, hi, rfl⟩

end Zapper
