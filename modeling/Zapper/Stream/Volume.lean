import Zapper.Stream.Counter
import Zapper.Stream.Drawing

/-!
# The volume keys

`callback` keeps the volume level and the mute flag, and passes a level to the player and to the
volume indicator with each volume key. Only the mute key multiplies the level by the flag; the other
two pass it as it is. So level, flag, player and indicator agree until the volume is changed while
the sound is muted: raised, or lowered from a level above 1 (`volumeAgrees_iff`). The sound is then
audible although the flag says that it is not, and the mute key does not silence it.
-/

namespace Zapper

open Transition

variable {params : ConfigParams} {a : Answer} {s s' : State} {l : Label} {k : Key}

/-! ### What the keys pass on -/

/-- The level that a volume key passes to `set_volume` and to `print_volume`. -/
def Key.passes (s : State) : Key → Option ℕ
  | vPlus => some (if s.volumeLvl < 10 then s.volumeLvl + 1 else s.volumeLvl)
  | vMinus => some (if s.volumeLvl > 0 then s.volumeLvl - 1 else s.volumeLvl)
  | vMute => some (s.volumeLvl * (((1 : ℤ) - s.volumeMute) % 2 ^ 8).toNat)
  | _ => none

/-- The level, the flag and the indicator. -/
def State.volumes (s : State) : ℕ × ℕ × ℕ :=
  (s.volumeLvl, s.volumeMute, s.graphics.renderFnp.volume)

/-- A volume key passes its level to the player and to the indicator. -/
theorem press_of_passes {v : ℕ} (hv : k.passes s = some v) (h : press a s k = some s') :
    s' = changeVolume a v { s with volumeLvl := s'.volumeLvl, volumeMute := s'.volumeMute } := by
  cases k with
  | vPlus | vMinus | vMute =>
    obtain rfl := Option.some.inj h
    obtain rfl := Option.some.inj hv
    rfl
  | _ => cases hv

/-- The other keys leave the volume alone. -/
theorem volumes_of_press (hv : k.passes s = none) (h : press a s k = some s') :
    s'.volumes = s.volumes := by
  cases press_writes h with
  | digit program hw =>
    rw [hw, changeProgram]
    split <;> rfl
  | volume hk _ _ _ _ => obtain rfl | rfl | rfl := hk <;> cases hv
  | pPlus hw | pMinus hw | request _ hw | back hw | exit _ hw =>
    rw [hw]
    rfl

/-! ### Everybody else leaves the volume alone -/

theorem volumes_of_mainStep (h : mainStep params a s = some s') : s'.volumes = s.volumes := by
  rcases mainStep_writes h with h | ⟨-, h⟩ | ⟨-, h⟩ | ⟨-, h⟩ | ⟨-, h⟩ | ⟨-, h⟩ | ⟨_, _, -, h⟩ |
    ⟨-, h⟩
  all_goals
    rw [h]
    rfl

theorem volumes_of_loopStep (h : loopStep params a s = some s') : s'.volumes = s.volumes := by
  have hdrawn : s'.graphics.renderFnp.volume = s.graphics.renderFnp.volume := by
    cases loopStep_draws h with
    | black _ _ hg | number _ _ _ hg | info _ hg | list _ _ hg => rw [hg]; rfl
    | nothing _ _ _ hg => rw [hg]
  have hkept : s'.volumeLvl = s.volumeLvl ∧ s'.volumeMute = s.volumeMute := by
    rcases loopStep_writes h with ⟨_, -, h⟩ | ⟨_, _, -, -, -, h⟩ | ⟨_, -, h⟩ | ⟨-, h⟩
    all_goals exact ⟨by rw [h], by rw [h]⟩
  rw [State.volumes, hkept.1, hkept.2, hdrawn, State.volumes]

theorem volumes_wake (s : State) : s.wake.volumes = s.volumes := by
  unfold State.wake
  split <;> rfl

theorem volumes_of_handlerStep {i : ℕ} (h : handlerStep i s = some s') :
    s'.volumes = s.volumes := by
  unfold handlerStep at h
  split at h <;> cases h <;> rfl

/-- **Only a volume key changes the volume.** -/
theorem volumes_of_step (hl : ∀ k, l.key = some k → k.passes s = none)
    (h : step params s l = some s') : s'.volumes = s.volumes := by
  have hact := act_of_step h
  cases l with
  | main a => exact volumes_of_mainStep hact
  | loop a => exact volumes_of_loopStep hact
  | input code value a =>
    obtain ⟨k, hk, hpress⟩ | ⟨-, rfl⟩ := callback_cases hact
    · exact volumes_of_press (hl k hk) hpress
    · rfl
  | deliver d =>
    obtain ⟨-, -, tables, -, rfl⟩ := sectionStep_eq_some hact
    rfl
  | signal =>
    obtain ⟨-, -, rfl⟩ := signalStep_eq_some hact
    exact volumes_wake _
  | tuner status =>
    obtain ⟨-, rfl | rfl⟩ := tunerStep_eq_some hact
    · exact volumes_wake _
    · rfl
  | timeout =>
    obtain ⟨-, rfl⟩ := timeoutStep_eq_some hact
    rfl
  | expire =>
    obtain ⟨-, rfl⟩ := expireStep_eq_some hact
    rfl
  | handler i => exact volumes_of_handlerStep hact

/-! ### The level passed last -/

/-- The level that was passed to `set_volume` last, behind a step. -/
def lastPassed (s : State) (l : Label) (_ : State) (last : Option ℕ) : Option ℕ :=
  (l.key.bind (Key.passes s)).or last

/-- The zapper, with the level that was passed to `set_volume` last. -/
def stepVolume (params : ConfigParams) : State × Option ℕ → Label → Option (State × Option ℕ) :=
  withHistory (step params) lastPassed

/-- The level, the flag, the player and the indicator agree, and the mute key silences the sound if
it is audible. There is nothing to agree on before the first volume key. -/
structure VolumeAgrees (x : State × Option ℕ) : Prop where
  level : x.1.volumeLvl ≤ 10
  mute : x.1.volumeMute = 0 ∨ x.1.volumeMute = 1
  shown : ∀ v, x.2 = some v → x.1.graphics.renderFnp.volume = v
  product : ∀ v, x.2 = some v → v = x.1.volumeLvl * x.1.volumeMute
  silences : ∀ v, x.2 = some v → 0 < v → Key.vMute.passes x.1 = some 0

/-- The condition on a step: while the sound is muted, the volume is not raised, nor lowered to a
level that is not zero. -/
def KeepsMuted (x : State × Option ℕ) (l : Label) : Prop :=
  match l.key with
  | some .vPlus => x.1.volumeMute = 1
  | some .vMinus => x.1.volumeMute = 1 ∨ x.1.volumeLvl ≤ 1
  | _ => True

variable {x y : State × Option ℕ}

/-- **What a step does to the volume.** -/
inductive VolumeStep (x y : State × Option ℕ) (l : Label) : Prop
  | raise (hl : l.key = some .vPlus)
    (hlevel : y.1.volumeLvl = if x.1.volumeLvl < 10 then x.1.volumeLvl + 1 else x.1.volumeLvl)
    (hmute : y.1.volumeMute = x.1.volumeMute)
    (hshown : y.1.graphics.renderFnp.volume = y.1.volumeLvl % 2 ^ 8)
    (hlast : y.2 = some y.1.volumeLvl)
  | lower (hl : l.key = some .vMinus)
    (hlevel : y.1.volumeLvl = x.1.volumeLvl - 1)
    (hmute : y.1.volumeMute = x.1.volumeMute)
    (hshown : y.1.graphics.renderFnp.volume = y.1.volumeLvl % 2 ^ 8)
    (hlast : y.2 = some y.1.volumeLvl)
  | mute (hl : l.key = some .vMute)
    (hlevel : y.1.volumeLvl = x.1.volumeLvl)
    (hmute : y.1.volumeMute = (((1 : ℤ) - x.1.volumeMute) % 2 ^ 8).toNat)
    (hshown : y.1.graphics.renderFnp.volume = y.1.volumeLvl * y.1.volumeMute % 2 ^ 8)
    (hlast : y.2 = some (y.1.volumeLvl * y.1.volumeMute))
  | other (hl : ∀ k, l.key = some k → k.passes x.1 = none)
    (hvolumes : y.1.volumes = x.1.volumes) (hlast : y.2 = x.2)

theorem volumeStep (h : stepVolume params x l = some y) : VolumeStep x y l := by
  obtain ⟨hstep, hlast⟩ := withHistory_eq_some.mp h
  cases hpasses : l.key.bind (Key.passes x.1) with
  | none =>
    have hl : ∀ k, l.key = some k → k.passes x.1 = none := fun k hk => by
      rwa [hk, Option.bind_some] at hpasses
    exact .other hl (volumes_of_step hl hstep) (by rw [hlast, lastPassed, hpasses, Option.none_or])
  | some v =>
    obtain ⟨k, hk, hv⟩ := Option.bind_eq_some_iff.mp hpasses
    rw [lastPassed, hpasses, Option.some_or] at hlast
    cases l with
    | input code value a =>
      obtain ⟨k', hk', hpress⟩ | ⟨hnone, -⟩ := callback_cases (act_of_step hstep)
      · obtain rfl : k' = k := Option.some.inj (hk'.symm.trans hk)
        have hshown : y.1.graphics.renderFnp.volume = v % 2 ^ 8 := by
          rw [press_of_passes hv hpress]
          rfl
        cases k' with
        | vPlus =>
          have hy := Option.some.inj hpress
          have hv' : v = y.1.volumeLvl := (Option.some.inj hv).symm.trans (by rw [← hy]; rfl)
          exact .raise hk (by rw [← hy]; rfl) (by rw [← hy]; rfl) (hv' ▸ hshown) (hv' ▸ hlast)
        | vMinus =>
          have hy := Option.some.inj hpress
          have hv' : v = y.1.volumeLvl := (Option.some.inj hv).symm.trans (by rw [← hy]; rfl)
          have hlevel : y.1.volumeLvl = x.1.volumeLvl - 1 := by
            rw [← hy]
            show (if x.1.volumeLvl > 0 then x.1.volumeLvl - 1 else x.1.volumeLvl) = _
            split <;> omega
          exact .lower hk hlevel (by rw [← hy]; rfl) (hv' ▸ hshown) (hv' ▸ hlast)
        | vMute =>
          have hy := Option.some.inj hpress
          have hv' : v = y.1.volumeLvl * y.1.volumeMute :=
            (Option.some.inj hv).symm.trans (by rw [← hy]; rfl)
          exact .mute hk (by rw [← hy]; rfl) (by rw [← hy]; rfl) (hv' ▸ hshown) (hv' ▸ hlast)
        | _ => cases hv
      · cases hnone.symm.trans hk
    | _ => cases hk

/-! ### Level, flag, player and indicator -/

/-- What holds in every run. -/
private structure VolumeInv (x : State × Option ℕ) : Prop where
  level : x.1.volumeLvl ≤ 10
  mute : x.1.volumeMute = 0 ∨ x.1.volumeMute = 1
  shown : ∀ v, x.2 = some v → x.1.graphics.renderFnp.volume = v

private theorem VolumeInv.step (hx : VolumeInv x) (h : stepVolume params x l = some y) :
    VolumeInv y := by
  have hlevel := hx.level
  cases volumeStep h with
  | raise _ hlvl hmute hshown hlast =>
    have hle : y.1.volumeLvl ≤ 10 := by
      rw [hlvl]
      split <;> omega
    refine ⟨hle, hmute ▸ hx.mute, fun v hv => ?_⟩
    obtain rfl := Option.some.inj (hlast.symm.trans hv)
    omega
  | lower _ hlvl hmute hshown hlast =>
    refine ⟨by omega, hmute ▸ hx.mute, fun v hv => ?_⟩
    obtain rfl := Option.some.inj (hlast.symm.trans hv)
    omega
  | mute _ hlvl hmute hshown hlast =>
    have hflag : y.1.volumeMute = 0 ∨ y.1.volumeMute = 1 := by
      obtain hm | hm := hx.mute <;> simp [hmute, hm]
    refine ⟨by omega, hflag, fun v hv => ?_⟩
    obtain rfl := Option.some.inj (hlast.symm.trans hv)
    rw [hshown]
    obtain hm | hm := hflag <;> rw [hm] <;> omega
  | other _ hvolumes hlast =>
    simp only [State.volumes, Prod.mk.injEq] at hvolumes
    obtain ⟨hlvl, hmute, hvol⟩ := hvolumes
    exact ⟨hlvl ▸ hlevel, hmute ▸ hx.mute, fun v hv => hvol.trans (hx.shown v (hlast ▸ hv))⟩

/-- The mute key silences the sound because the level is multiplied by the flag. -/
private theorem VolumeInv.agrees_iff (hx : VolumeInv x) :
    VolumeAgrees x ↔ ∀ v, x.2 = some v → v = x.1.volumeLvl * x.1.volumeMute := by
  refine ⟨fun h => h.product, fun h => ⟨hx.level, hx.mute, hx.shown, h, fun v hv hpos => ?_⟩⟩
  obtain hm | hm := hx.mute
  · have hzero := h v hv
    rw [hm, Nat.mul_zero] at hzero
    omega
  · simp [Key.passes, hm]

private theorem eq_mul_iff {n m : ℕ} (hm : m = 0 ∨ m = 1) : n = n * m ↔ m = 1 ∨ n = 0 := by
  obtain rfl | rfl := hm <;> simp

/-- **Volume level, mute flag, player and indicator agree in a run** if and only if the volume is
never raised, nor lowered from a level above 1, while the sound is muted. -/
theorem volumeAgrees_iff (params : ConfigParams) (ls : List Label) :
    Always (stepVolume params) VolumeAgrees (.powerOn, none) ls ↔
      Meets (stepVolume params) KeepsMuted (.powerOn, none) ls := by
  have hstart : VolumeInv (.powerOn, none) := ⟨by decide, .inr rfl, fun v hv => by cases hv⟩
  refine always_iff_meets hstart (hstart.agrees_iff.mpr fun v hv => by cases hv)
    (fun x l y hx h => hx.step h) fun x l y hx hagrees h => ?_
  rw [(hx.step h).agrees_iff]
  cases volumeStep h with
  | raise hl hlvl hmute _ hlast =>
    have hpos : y.1.volumeLvl ≠ 0 := by
      rw [hlvl]
      split <;> omega
    simp [KeepsMuted, hl, hlast, hmute, eq_mul_iff hx.mute, hpos]
  | lower hl hlvl hmute _ hlast =>
    simp only [KeepsMuted, hl, hlast, hmute, Option.some.injEq, forall_eq', eq_mul_iff hx.mute,
      hlvl]
    omega
  | mute hl _ _ _ hlast => simp [KeepsMuted, hl, hlast]
  | other hl hvolumes hlast =>
    simp only [State.volumes, Prod.mk.injEq] at hvolumes
    obtain ⟨hlvl, hmute, -⟩ := hvolumes
    refine iff_of_true ?_ ?_
    · rw [hlast, hlvl, hmute]
      exact hagrees.product
    · unfold KeepsMuted
      split
      · next hk => cases hl _ hk
      · next hk => cases hl _ hk
      · trivial

/-- The sound is muted, the volume raised, and the mute key pressed again. -/
def mutedRun : List Label :=
  [.main (.ok 1), .main (.ok 1), .input 60 1 (.ok 1), .input 63 1 (.ok 1)]

/-- The sound is audible at level 6 although the flag says that it is muted, and the mute key does
not silence it. -/
theorem not_forall_always_volumeAgrees : ¬ ∀ (params : ConfigParams) (ls : List Label),
    Always (stepVolume params) VolumeAgrees (.powerOn, none) ls := by
  intro h
  have hrun : (exec (stepVolume (configIni 1)) (.powerOn, none) mutedRun).map
      (fun x => (x.2, x.1.volumeLvl, x.1.volumeMute, Key.vMute.passes x.1)) =
        some (some 6, 6, 0, some 6) := by decide +kernel
  obtain ⟨x, hx, hobs⟩ := (h (configIni 1) mutedRun).observe hrun
  simp only [Prod.mk.injEq] at hobs
  have hproduct := hx.product 6 hobs.1
  rw [hobs.2.1, hobs.2.2.1] at hproduct
  omega

end Zapper
