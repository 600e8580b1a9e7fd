import Mathlib.Algebra.Order.Group.Multiset
import Zapper.Lib.Handles
import Zapper.Lib.Transition
import Zapper.Tdp

/-!
# What the TDP API asks of the player

Each function of `tdp_api.c` checks the handles of its caller against its globals and then calls
the Marvell player with the globals. `Request.calls` lists these calls for each function, in the
order of the source; `Request.apply` is what the function does to the globals.

The player is taken as a component that hands out handles: `PeCall.uses` says which handles a call
names, returns and gives up. The functions check their callers, but not each other: after a failed
`Demux_Set_Filter`, say, `Player_Deinit` releases a buffer that has been released already.
`orderly_iff` says exactly which requests of a client keep all calls to live handles, and no
handle forgotten: in every sequence of requests, with any arguments, whatever the player answers.
-/

namespace Zapper.Api

open Handles Transition

/-! ### The calls -/

/-- The kinds of handles of the player. -/
inductive HandleKind
  | engine
  | source
  | stream
  | buffer
  | filter
  deriving DecidableEq

/-- The player's own table of the handles it has handed out. -/
abbrev PeTable := HandleTable HandleKind

/-- The calls of the player, with the handles they name. -/
inductive PeCall
  | init
  | clearScreen (pe : ℕ)
  | remove (pe : ℕ)
  | sourceOpen (pe : ℕ)
  | play (pe source : ℕ)
  | stop (pe source : ℕ)
  | sourceClose (pe source : ℕ)
  | streamCreate (pe source pid streamType : ℕ)
  | videoSetVisible (pe : ℕ)
  | streamRemove (pe stream : ℕ)
  | aOutSetVolume (pe volume : ℕ)
  | aOutGetVolume (pe : ℕ)
  | registerEventCallBack (pe : ℕ)
  | unRegisterEventCallBack (pe : ℕ)
  | streamBufAllocate (pe : ℕ)
  | streamBufRelease (pe buffer : ℕ)
  | streamBufAccess (pe buffer : ℕ)
  | sourceAddSectionFilter (pe source buffer pid : ℕ) (tableId : UInt8)
  | sourceRemoveSectionFilter (pe source filter : ℕ)
  deriving DecidableEq

/-- What the player answers to the calls of one function: which of them succeed, and the handles
that it returns. -/
structure Replies where
  ok : PeCall → Bool
  handle : ℕ
  buffer : ℕ

/-- The answers to the two calls of a function that can fail. -/
def Replies.answer (r : Replies) (first second : PeCall) : Answer :=
  ⟨r.ok first, r.ok second, r.handle, r.buffer⟩

namespace PeCall

/-- A handle is given up, if the call succeeds. -/
def releases (r : Replies) (c : PeCall) (k : HandleKind) (h : ℕ) : Use HandleKind :=
  if r.ok c then .release k h else .name k h

/-- A handle is returned, if the call succeeds. -/
def acquires (r : Replies) (c : PeCall) (k : HandleKind) (h : ℕ) : List (Use HandleKind) :=
  if r.ok c then [.acquire k h] else []

/-- What a call does with the handles. -/
def uses (r : Replies) (c : PeCall) : List (Use HandleKind) :=
  match c with
  | init => acquires r c .engine r.handle
  | clearScreen pe => [.name .engine pe]
  | remove pe => [releases r c .engine pe]
  | sourceOpen pe => .name .engine pe :: acquires r c .source r.handle
  | play pe source => [.name .engine pe, .name .source source]
  | stop pe source => [.name .engine pe, .name .source source]
  | sourceClose pe source => [.name .engine pe, releases r c .source source]
  | streamCreate pe source _ _ =>
    .name .engine pe :: .name .source source :: acquires r c .stream r.handle
  | videoSetVisible pe => [.name .engine pe]
  | streamRemove pe stream => [.name .engine pe, releases r c .stream stream]
  | aOutSetVolume pe _ => [.name .engine pe]
  | aOutGetVolume pe => [.name .engine pe]
  | registerEventCallBack pe => [.name .engine pe]
  | unRegisterEventCallBack pe => [.name .engine pe]
  | streamBufAllocate pe => .name .engine pe :: acquires r c .buffer r.buffer
  | streamBufRelease pe buffer => [.name .engine pe, releases r c .buffer buffer]
  | streamBufAccess pe buffer => [.name .engine pe, .name .buffer buffer]
  | sourceAddSectionFilter pe source buffer _ _ =>
    .name .engine pe :: .name .source source :: .name .buffer buffer ::
      acquires r c .filter r.handle
  | sourceRemoveSectionFilter pe source filter =>
    [.name .engine pe, .name .source source, releases r c .filter filter]

/-- The call gives up a handle. -/
def gives : PeCall → Bool
  | remove _ => true
  | sourceClose _ _ => true
  | streamRemove _ _ => true
  | streamBufRelease _ _ => true
  | sourceRemoveSectionFilter _ _ _ => true
  | _ => false

end PeCall

/-- The requests of a client, and of the player itself, which has `m_sectionReceivedCallback` ask
for the fullness of the section buffer or read from it: each such access is a request of its own,
and a call of `m_sectionReceivedCallback` is any number of them. -/
inductive Request
  | playerInit
  | playerDeinit (playerHandle : ℕ)
  | playerSourceOpen (playerHandle : ℕ)
  | playerSourceClose (playerHandle sourceHandle : ℕ)
  | playerStreamCreate (playerHandle sourceHandle pid streamType : ℕ)
  | playerStreamRemove (playerHandle sourceHandle streamHandle : ℕ)
  | playerVolumeSet (playerHandle volume : ℕ)
  | playerVolumeGet (playerHandle : ℕ)
  | demuxRegisterSectionFilterCallback
  /-- The argument is the callback that is registered, or another one. -/
  | demuxUnregisterSectionFilterCallback (registered : Bool)
  | demuxSetFilter (playerHandle pid : ℕ) (tableId : UInt8)
  | demuxFreeFilter (playerHandle filterHandle : ℕ)
  | sectionReceived

namespace Request

variable (r : Replies) (t : Tdp)

/-- The calls a request makes. -/
def calls : Request → List PeCall
  | playerInit => if r.ok .init then [.init, .clearScreen r.handle] else [.init]
  | playerDeinit playerHandle =>
    if playerHandle ≠ t.hPE then []
    else if t.hPE = 0 then []
    else
      (if t.hSource ≠ 0 then [.stop t.hPE t.hSource] else []) ++
      (if t.hStreamV ≠ 0 then [.streamRemove t.hPE t.hStreamV] else []) ++
      (if t.hStreamA ≠ 0 then [.streamRemove t.hPE t.hStreamA] else []) ++
      (if t.hSource ≠ 0 then [.sourceClose t.hPE t.hSource] else []) ++
      (if t.hBuffer ≠ 0 then [.streamBufRelease t.hPE t.hBuffer] else []) ++
      -- `hSource` has been reset
      (if t.hFilter ≠ 0 then [.sourceRemoveSectionFilter t.hPE 0 t.hFilter] else []) ++
      [.remove t.hPE]
  | playerSourceOpen playerHandle =>
    if playerHandle ≠ t.hPE then []
    else if t.hPE = 0 then []
    else if r.ok (.sourceOpen t.hPE) then [.sourceOpen t.hPE, .play t.hPE r.handle]
    else [.sourceOpen t.hPE]
  | playerSourceClose playerHandle sourceHandle =>
    if playerHandle ≠ t.hPE then []
    else if sourceHandle ≠ t.hSource then []
    else if t.hSource = 0 then []
    else if t.hPE = 0 then []
    else if r.ok (.stop t.hPE t.hSource) then
      [.stop t.hPE t.hSource, .sourceClose t.hPE t.hSource]
    else [.stop t.hPE t.hSource]
  | playerStreamCreate playerHandle sourceHandle pid streamType =>
    if playerHandle ≠ t.hPE then []
    else if sourceHandle ≠ t.hSource then []
    else if t.hPE = 0 then []
    else if t.hSource = 0 then []
    else if r.ok (.streamCreate t.hPE t.hSource pid streamType) then
      if 39 ≤ streamType then
        [.streamCreate t.hPE t.hSource pid streamType, .videoSetVisible t.hPE]
      else [.streamCreate t.hPE t.hSource pid streamType]
    else [.streamCreate t.hPE t.hSource pid streamType]
  | playerStreamRemove playerHandle sourceHandle streamHandle =>
    if playerHandle ≠ t.hPE then []
    else if sourceHandle ≠ t.hSource then []
    else if streamHandle ≠ t.hStreamA ∧ streamHandle ≠ t.hStreamV then []
    else if streamHandle = 0 then []
    else if t.hPE = 0 then []
    else if t.hSource = 0 then []
    else [.streamRemove t.hPE streamHandle]
  | playerVolumeSet playerHandle volume =>
    if playerHandle ≠ t.hPE then []
    else if t.hPE = 0 then []
    else [.aOutSetVolume t.hPE volume]
  | playerVolumeGet playerHandle =>
    if playerHandle ≠ t.hPE then []
    else if t.hPE = 0 then []
    else [.aOutGetVolume t.hPE]
  | demuxRegisterSectionFilterCallback =>
    if t.demuxSectionFilterCallback then [] else [.registerEventCallBack t.hPE]
  | demuxUnregisterSectionFilterCallback registered =>
    if !t.demuxSectionFilterCallback then []
    else if !registered then []
    else [.unRegisterEventCallBack t.hPE]
  | demuxSetFilter playerHandle pid tableId =>
    if playerHandle ≠ t.hPE then []
    else if t.hPE = 0 then []
    else if r.ok (.streamBufAllocate t.hPE) then
      if r.ok (.sourceAddSectionFilter t.hPE t.hSource r.buffer pid tableId) then
        [.streamBufAllocate t.hPE,
          .sourceAddSectionFilter t.hPE t.hSource r.buffer pid tableId]
      else
        [.streamBufAllocate t.hPE,
          .sourceAddSectionFilter t.hPE t.hSource r.buffer pid tableId,
          .streamBufRelease t.hPE r.buffer]
    else [.streamBufAllocate t.hPE]
  | demuxFreeFilter playerHandle filterHandle =>
    if playerHandle ≠ t.hPE then []
    else if filterHandle ≠ t.hFilter then []
    else if t.hPE = 0 then []
    else if t.hFilter = 0 then []
    else
      [.sourceRemoveSectionFilter t.hPE t.hSource t.hFilter,
        .streamBufRelease t.hPE t.hBuffer]
  | sectionReceived => [.streamBufAccess t.hPE t.hBuffer]

/-- The player's answer to a request, as the function sees it. -/
def answer : Request → Answer
  | playerInit => r.answer .init (.clearScreen r.handle)
  | playerDeinit _ => r.answer (.remove t.hPE) (.remove t.hPE)
  | playerSourceOpen _ => r.answer (.sourceOpen t.hPE) (.play t.hPE r.handle)
  | playerSourceClose _ _ => r.answer (.stop t.hPE t.hSource) (.sourceClose t.hPE t.hSource)
  | playerStreamCreate _ _ pid streamType =>
    r.answer (.streamCreate t.hPE t.hSource pid streamType) (.videoSetVisible t.hPE)
  | playerStreamRemove _ _ streamHandle =>
    r.answer (.streamRemove t.hPE streamHandle) (.streamRemove t.hPE streamHandle)
  | playerVolumeSet _ volume => r.answer (.aOutSetVolume t.hPE volume) (.aOutSetVolume t.hPE volume)
  | playerVolumeGet _ => r.answer (.aOutGetVolume t.hPE) (.aOutGetVolume t.hPE)
  | demuxRegisterSectionFilterCallback =>
    r.answer (.registerEventCallBack t.hPE) (.registerEventCallBack t.hPE)
  | demuxUnregisterSectionFilterCallback _ =>
    r.answer (.unRegisterEventCallBack t.hPE) (.unRegisterEventCallBack t.hPE)
  | demuxSetFilter _ pid tableId => r.answer (.streamBufAllocate t.hPE)
      (.sourceAddSectionFilter t.hPE t.hSource r.buffer pid tableId)
  | demuxFreeFilter _ _ => r.answer (.sourceRemoveSectionFilter t.hPE t.hSource t.hFilter)
      (.streamBufRelease t.hPE t.hBuffer)
  | sectionReceived =>
    r.answer (.streamBufAccess t.hPE t.hBuffer) (.streamBufAccess t.hPE t.hBuffer)

/-- What a request does to the globals. -/
def apply (q : Request) : Tdp :=
  let a := q.answer r t
  match q with
  | playerInit => (t.playerInit a 0).2.2
  | playerDeinit playerHandle => (t.playerDeinit playerHandle).2
  | playerSourceOpen playerHandle => (t.playerSourceOpen a playerHandle 0).2.2
  | playerSourceClose playerHandle sourceHandle =>
    (t.playerSourceClose a playerHandle sourceHandle).2
  | playerStreamCreate playerHandle sourceHandle pid streamType =>
    (t.playerStreamCreate a playerHandle sourceHandle pid streamType 0).2.2
  | playerStreamRemove playerHandle sourceHandle streamHandle =>
    (t.playerStreamRemove a playerHandle sourceHandle streamHandle).2
  | playerVolumeSet playerHandle volume => (t.playerVolumeSet a playerHandle volume).2
  | playerVolumeGet _ => t
  | demuxRegisterSectionFilterCallback => (t.demuxRegisterSectionFilterCallback a).2
  | demuxUnregisterSectionFilterCallback registered =>
    if t.demuxSectionFilterCallback && registered && a.first then
      { t with demuxSectionFilterCallback := false }
    else t
  | demuxSetFilter playerHandle pid tableId =>
    (t.demuxSetFilter a playerHandle pid tableId 0).2.2
  | demuxFreeFilter playerHandle filterHandle => (t.demuxFreeFilter a playerHandle filterHandle).2
  | sectionReceived => t

end Request

/-! ### Order -/

/-- The handle a global holds, if it is not zero. -/
def one (h : ℕ) : Multiset ℕ := if h = 0 then 0 else {h}

/-- The handles the globals hold. A buffer belongs to its filter: when the filter cannot be
added, `hBuffer` is left behind, and the buffer is released. -/
def holds (t : Tdp) : HandleKind → Multiset ℕ
  | .engine => one t.hPE
  | .source => one t.hSource
  | .stream => one t.hStreamA + one t.hStreamV
  | .buffer => if t.hFilter = 0 then 0 else one t.hBuffer
  | .filter => one t.hFilter

/-- All calls have named live handles, and what is live is what the globals hold. -/
def Orderly (x : Tdp × PeTable) : Prop := x.2 = ⟨holds x.1, true⟩

/-- The player's side of a request. -/
def Request.ask (r : Replies) (q : Request) (x : Tdp × PeTable) : PeTable :=
  x.2.run ((q.calls r x.1).flatMap (PeCall.uses r))

/-- What the player returns is not zero, and no buffer that is in use. -/
def Request.Returns (r : Replies) (T : PeTable) : Request → Prop
  | playerInit => r.handle ≠ 0
  | playerSourceOpen _ => r.handle ≠ 0
  | playerStreamCreate _ _ _ _ => r.handle ≠ 0
  | demuxSetFilter _ _ _ => r.handle ≠ 0 ∧ r.buffer ≠ 0 ∧ r.buffer ∉ T.live .buffer
  | _ => True

instance (r : Replies) (T : PeTable) : ∀ q : Request, Decidable (q.Returns r T)
  | .playerInit => inferInstanceAs (Decidable (_ ≠ _))
  | .playerSourceOpen _ => inferInstanceAs (Decidable (_ ≠ _))
  | .playerStreamCreate _ _ _ _ => inferInstanceAs (Decidable (_ ≠ _))
  | .demuxSetFilter _ _ _ => inferInstanceAs (Decidable (_ ∧ _))
  | .playerDeinit _ => isTrue trivial
  | .playerSourceClose _ _ => isTrue trivial
  | .playerStreamRemove _ _ _ => isTrue trivial
  | .playerVolumeSet _ _ => isTrue trivial
  | .playerVolumeGet _ => isTrue trivial
  | .demuxRegisterSectionFilterCallback => isTrue trivial
  | .demuxUnregisterSectionFilterCallback _ => isTrue trivial
  | .demuxFreeFilter _ _ => isTrue trivial
  | .sectionReceived => isTrue trivial

/-- A request. -/
def apiStep (x : Tdp × PeTable) (l : Replies × Request) :
    Option (Tdp × PeTable) :=
  if l.2.Returns l.1 x.2 then some (l.2.apply l.1 x.1, l.2.ask l.1 x) else none

/-- The checks of the function that a request calls. -/
def Request.Accepted (t : Tdp) : Request → Prop
  | playerInit => True
  | playerDeinit playerHandle => playerHandle = t.hPE ∧ t.hPE ≠ 0
  | playerSourceOpen playerHandle => playerHandle = t.hPE ∧ t.hPE ≠ 0
  | playerSourceClose playerHandle sourceHandle =>
    playerHandle = t.hPE ∧ sourceHandle = t.hSource ∧ t.hSource ≠ 0 ∧ t.hPE ≠ 0
  | playerStreamCreate playerHandle sourceHandle _ _ =>
    playerHandle = t.hPE ∧ sourceHandle = t.hSource ∧ t.hPE ≠ 0 ∧ t.hSource ≠ 0
  | playerStreamRemove playerHandle sourceHandle streamHandle =>
    playerHandle = t.hPE ∧ sourceHandle = t.hSource ∧
      (streamHandle = t.hStreamA ∨ streamHandle = t.hStreamV) ∧ streamHandle ≠ 0 ∧
        t.hPE ≠ 0 ∧ t.hSource ≠ 0
  | playerVolumeSet playerHandle _ => playerHandle = t.hPE ∧ t.hPE ≠ 0
  | playerVolumeGet playerHandle => playerHandle = t.hPE ∧ t.hPE ≠ 0
  | demuxRegisterSectionFilterCallback => t.demuxSectionFilterCallback = false
  | demuxUnregisterSectionFilterCallback registered =>
    t.demuxSectionFilterCallback = true ∧ registered = true
  | demuxSetFilter playerHandle _ _ => playerHandle = t.hPE ∧ t.hPE ≠ 0
  | demuxFreeFilter playerHandle filterHandle =>
    playerHandle = t.hPE ∧ filterHandle = t.hFilter ∧ t.hPE ≠ 0 ∧ t.hFilter ≠ 0
  | sectionReceived => True

/-- What they leave unchecked: what is to be acquired is not held, what is named is held, and what
is given up is given up. -/
def Request.Safe (r : Replies) (t : Tdp) : Request → Prop
  | playerInit => r.ok .init = true → t.hPE = 0
  | playerDeinit playerHandle => t.hFilter = 0 ∧ t.hBuffer = 0 ∧
      ∀ c ∈ (playerDeinit playerHandle).calls r t, c.gives = true → r.ok c = true
  | playerSourceOpen _ => r.ok (.sourceOpen t.hPE) = true → t.hSource = 0
  | playerStreamCreate _ _ pid streamType =>
      r.ok (.streamCreate t.hPE t.hSource pid streamType) = true →
        if 39 ≤ streamType then t.hStreamV = 0 else t.hStreamA = 0
  | demuxRegisterSectionFilterCallback => t.hPE ≠ 0
  | demuxUnregisterSectionFilterCallback _ => t.hPE ≠ 0
  | demuxSetFilter _ pid tableId => r.ok (.streamBufAllocate t.hPE) = true →
      t.hSource ≠ 0 ∧ t.hFilter = 0 ∧
        (r.ok (.sourceAddSectionFilter t.hPE t.hSource r.buffer pid tableId) = false →
          r.ok (.streamBufRelease t.hPE r.buffer) = true)
  | demuxFreeFilter _ _ => t.hSource ≠ 0 ∧
      r.ok (.sourceRemoveSectionFilter t.hPE t.hSource t.hFilter) = true ∧
        r.ok (.streamBufRelease t.hPE t.hBuffer) = true
  | sectionReceived => t.hFilter ≠ 0
  | _ => True

/-- A filter has a section buffer, and a player. -/
def Buffered (t : Tdp) : Prop := t.hFilter ≠ 0 → t.hBuffer ≠ 0 ∧ t.hPE ≠ 0

/-- The condition on a request. -/
def KeepsOrder (x : Tdp × PeTable) (l : Replies × Request) : Prop :=
  l.2.Accepted x.1 → l.2.Safe l.1 x.1

theorem HandleKind.forall_iff {P : HandleKind → Prop} :
    (∀ k, P k) ↔ P .engine ∧ P .source ∧ P .stream ∧ P .buffer ∧ P .filter :=
  ⟨fun h => ⟨h _, h _, h _, h _, h _⟩, fun ⟨h₁, h₂, h₃, h₄, h₅⟩ k => by cases k <;> assumption⟩

variable {r : Replies} {t : Tdp}

@[simp] theorem one_zero : one 0 = 0 := rfl

@[simp] theorem erase_one (h : ℕ) : (one h).erase h = 0 := by
  unfold one
  split_ifs <;> simp

theorem one_of_ne {h : ℕ} (hne : h ≠ 0) : one h = {h} := if_neg hne

@[simp] theorem one_eq_zero_iff {h : ℕ} : one h = 0 ↔ h = 0 := by
  unfold one
  split_ifs with hh <;> simp [hh]

@[simp] theorem mem_one {h i : ℕ} : i ∈ one h ↔ i = h ∧ h ≠ 0 := by
  unfold one
  split_ifs with hh <;> simp [hh]

@[simp] theorem cons_eq_singleton_iff {h : ℕ} {s : Multiset ℕ} : h ::ₘ s = {h} ↔ s = 0 := by
  rw [← Multiset.cons_zero, Multiset.cons_inj_right]

theorem cons_add_left_iff {h : ℕ} {s u : Multiset ℕ} : h ::ₘ (s + u) = {h} + u ↔ s = 0 := by
  rw [← Multiset.singleton_add, add_right_inj, add_eq_right]

theorem cons_add_right_iff {h : ℕ} {s u : Multiset ℕ} : h ::ₘ (s + u) = s + {h} ↔ u = 0 := by
  rw [add_comm s u, add_comm s {h}, cons_add_left_iff]

@[simp] theorem live_use_releases (T : PeTable) (c : PeCall) (k : HandleKind) (h : ℕ)
    (j : HandleKind) : (T.use (PeCall.releases r c k h)).live j =
      if j = k ∧ r.ok c = true then (T.live j).erase h else T.live j := by
  unfold PeCall.releases
  by_cases hok : r.ok c = true <;> simp [hok]

@[simp] theorem sound_use_releases (T : PeTable) (c : PeCall) (k : HandleKind) (h : ℕ) :
    (T.use (PeCall.releases r c k h)).sound = (T.sound && decide (h ∈ T.live k)) := by
  unfold PeCall.releases
  split <;> rfl

/-- Behind the request all is in order, if it is asked when all is in order. -/
def Request.LeavesOrder (r : Replies) (t : Tdp) (q : Request) : Prop :=
  Orderly (q.apply r t, q.ask r (t, ⟨holds t, true⟩))

theorem leavesOrder_iff_run {q : Request} {t' : Tdp} (happly : q.apply r t = t')
    {cs : List PeCall} (hcalls : q.calls r t = cs) {T : PeTable}
    (hrun : HandleTable.run ⟨holds t, true⟩ (cs.flatMap (PeCall.uses r)) = T) :
    q.LeavesOrder r t ↔
      (T.live .engine = one t'.hPE ∧ T.live .source = one t'.hSource ∧
        T.live .stream = one t'.hStreamA + one t'.hStreamV ∧
        T.live .buffer = (if t'.hFilter = 0 then 0 else one t'.hBuffer) ∧
        T.live .filter = one t'.hFilter) ∧ T.sound = true := by
  rw [Request.LeavesOrder, Orderly, Request.ask, hcalls, hrun, happly, HandleTable.ext_iff,
    funext_iff, HandleKind.forall_iff]
  rfl

/-- A request that is refused asks nothing and changes nothing. -/
theorem leavesOrder_of_refused {q : Request} (hq : ¬ q.Accepted t) : q.LeavesOrder r t := by
  have hsilent : q.apply r t = t ∧ q.calls r t = [] := by
    cases q with
    | playerInit => exact absurd trivial hq
    | sectionReceived => exact absurd trivial hq
    | playerVolumeGet playerHandle =>
      refine ⟨rfl, ?_⟩
      simp only [Request.calls]
      split_ifs <;> simp_all [Request.Accepted]
    | _ =>
      simp only [Request.Accepted] at hq
      constructor <;>
        simp only [Request.apply, Request.calls, Tdp.playerDeinit, Tdp.playerSourceOpen,
          Tdp.playerSourceClose, Tdp.playerStreamCreate, Tdp.playerStreamRemove,
          Tdp.playerVolumeSet, Tdp.demuxRegisterSectionFilterCallback, Tdp.demuxSetFilter,
          Tdp.demuxFreeFilter, apply_ite Prod.snd] <;>
        split_ifs <;> first | rfl | simp_all
  rw [Request.LeavesOrder, Orderly, Request.ask, hsilent.1, hsilent.2]
  rfl

/-! ### The requests that are accepted -/

theorem playerInit_iff (hhandle : r.handle ≠ 0) :
    Request.playerInit.LeavesOrder r t ↔ Request.playerInit.Safe r t := by
  by_cases hinit : r.ok .init = true
  · have happly : Request.playerInit.apply r t = { t with hPE := r.handle } := by
      by_cases hclear : r.ok (.clearScreen r.handle) = true <;>
        simp [Request.apply, Request.answer, Replies.answer, Tdp.playerInit, hinit, hclear]
    rw [leavesOrder_iff_run happly (if_pos hinit) rfl]
    simp [hinit, Request.Safe, PeCall.uses, PeCall.acquires, holds, one_of_ne hhandle]
  · have happly : Request.playerInit.apply r t = t := by
      simp [Request.apply, Request.answer, Replies.answer, Tdp.playerInit, hinit]
    rw [leavesOrder_iff_run happly (if_neg hinit) rfl]
    simp [hinit, Request.Safe, PeCall.uses, PeCall.acquires, holds]

/-- A request of one call that names the player only. -/
theorem leavesOrder_iff_of_engine {q : Request} (hholds : holds (q.apply r t) = holds t)
    {c : PeCall} (hcalls : q.calls r t = [c]) (huses : c.uses r = [.name .engine t.hPE]) :
    q.LeavesOrder r t ↔ t.hPE ≠ 0 := by
  rw [Request.LeavesOrder, Orderly, Request.ask, hcalls, hholds]
  simp [huses, HandleTable.use, holds]

theorem playerSourceOpen_iff (hhandle : r.handle ≠ 0) (hpe : t.hPE ≠ 0) :
    (Request.playerSourceOpen t.hPE).LeavesOrder r t ↔
      (Request.playerSourceOpen t.hPE).Safe r t := by
  by_cases hopen : r.ok (.sourceOpen t.hPE) = true
  · have happly : (Request.playerSourceOpen t.hPE).apply r t = { t with hSource := r.handle } := by
      by_cases hplay : r.ok (.play t.hPE r.handle) = true <;>
        simp [Request.apply, Request.answer, Replies.answer, Tdp.playerSourceOpen, hpe, hopen,
          hplay]
    have hcalls : (Request.playerSourceOpen t.hPE).calls r t =
        [.sourceOpen t.hPE, .play t.hPE r.handle] := by
      simp [Request.calls, hpe, hopen]
    rw [leavesOrder_iff_run happly hcalls rfl]
    simp [hpe, hopen, Request.Safe, PeCall.uses, PeCall.acquires, holds,
      one_of_ne hhandle]
  · have happly : (Request.playerSourceOpen t.hPE).apply r t = t := by
      simp [Request.apply, Request.answer, Replies.answer, Tdp.playerSourceOpen, hpe, hopen]
    have hcalls : (Request.playerSourceOpen t.hPE).calls r t = [.sourceOpen t.hPE] := by
      simp [Request.calls, hpe, hopen]
    rw [leavesOrder_iff_run happly hcalls rfl]
    simp [hpe, hopen, Request.Safe, PeCall.uses, PeCall.acquires, holds]

theorem playerSourceClose_leavesOrder (hsource : t.hSource ≠ 0) (hpe : t.hPE ≠ 0) :
    (Request.playerSourceClose t.hPE t.hSource).LeavesOrder r t := by
  by_cases hstop : r.ok (.stop t.hPE t.hSource) = true
  · have hcalls : (Request.playerSourceClose t.hPE t.hSource).calls r t =
        [.stop t.hPE t.hSource, .sourceClose t.hPE t.hSource] := by
      simp [Request.calls, hpe, hsource, hstop]
    by_cases hclose : r.ok (.sourceClose t.hPE t.hSource) = true
    · have happly : (Request.playerSourceClose t.hPE t.hSource).apply r t =
          { t with hSource := 0 } := by
        simp [Request.apply, Request.answer, Replies.answer, Tdp.playerSourceClose, hpe, hsource,
          hstop, hclose]
      rw [leavesOrder_iff_run happly hcalls rfl]
      simp [hpe, hsource, hclose, PeCall.uses, holds, one_of_ne]
    · have happly : (Request.playerSourceClose t.hPE t.hSource).apply r t = t := by
        simp [Request.apply, Request.answer, Replies.answer, Tdp.playerSourceClose, hpe, hsource,
          hclose]
      rw [leavesOrder_iff_run happly hcalls rfl]
      simp [hpe, hsource, hclose, PeCall.uses, holds]
  · have hcalls : (Request.playerSourceClose t.hPE t.hSource).calls r t =
        [.stop t.hPE t.hSource] := by
      simp [Request.calls, hpe, hsource, hstop]
    have happly : (Request.playerSourceClose t.hPE t.hSource).apply r t = t := by
      simp [Request.apply, Request.answer, Replies.answer, Tdp.playerSourceClose, hpe, hsource,
        hstop]
    rw [leavesOrder_iff_run happly hcalls rfl]
    simp [hpe, hsource, PeCall.uses, holds]

theorem playerStreamCreate_iff (hhandle : r.handle ≠ 0) (hpe : t.hPE ≠ 0) (hsource : t.hSource ≠ 0)
    (pid streamType : ℕ) :
    (Request.playerStreamCreate t.hPE t.hSource pid streamType).LeavesOrder r t ↔
      (Request.playerStreamCreate t.hPE t.hSource pid streamType).Safe r t := by
  by_cases hcreate : r.ok (.streamCreate t.hPE t.hSource pid streamType) = true
  · by_cases hvideo : 39 ≤ streamType
    · have hcalls : (Request.playerStreamCreate t.hPE t.hSource pid streamType).calls r t =
          [.streamCreate t.hPE t.hSource pid streamType, .videoSetVisible t.hPE] := by
        simp [Request.calls, hpe, hsource, hcreate, hvideo]
      rw [leavesOrder_iff_run rfl hcalls rfl]
      simp [hpe, hsource, hcreate, hvideo, Request.Safe, PeCall.uses, PeCall.acquires,
        holds, one_of_ne hhandle, Request.apply, Request.answer, Replies.answer,
        Tdp.playerStreamCreate,
        cons_add_right_iff]
    · have hcalls : (Request.playerStreamCreate t.hPE t.hSource pid streamType).calls r t =
          [.streamCreate t.hPE t.hSource pid streamType] := by
        simp [Request.calls, hpe, hsource, hcreate, hvideo]
      rw [leavesOrder_iff_run rfl hcalls rfl]
      simp [hpe, hsource, hcreate, hvideo, Request.Safe, PeCall.uses, PeCall.acquires,
        holds, one_of_ne hhandle, Request.apply, Request.answer, Replies.answer,
        Tdp.playerStreamCreate]
  · have hcalls : (Request.playerStreamCreate t.hPE t.hSource pid streamType).calls r t =
        [.streamCreate t.hPE t.hSource pid streamType] := by
      simp [Request.calls, hpe, hsource, hcreate]
    rw [leavesOrder_iff_run rfl hcalls rfl]
    simp [hpe, hsource, hcreate, Request.Safe, PeCall.uses, PeCall.acquires, holds,
      Request.apply, Request.answer, Replies.answer, Tdp.playerStreamCreate]

theorem erase_add_singleton (h : ℕ) (s : Multiset ℕ) : (s + {h}).erase h = s := by
  rw [add_comm, Multiset.singleton_add, Multiset.erase_cons_head]

theorem playerStreamRemove_leavesOrder {streamHandle : ℕ} (hpe : t.hPE ≠ 0)
    (hsource : t.hSource ≠ 0) (hstream : streamHandle ≠ 0)
    (hheld : streamHandle = t.hStreamA ∨ streamHandle = t.hStreamV) :
    (Request.playerStreamRemove t.hPE t.hSource streamHandle).LeavesOrder r t := by
  have hcheck : ¬ (streamHandle ≠ t.hStreamA ∧ streamHandle ≠ t.hStreamV) := by tauto
  have hcalls : (Request.playerStreamRemove t.hPE t.hSource streamHandle).calls r t =
      [.streamRemove t.hPE streamHandle] := by
    simp [Request.calls, hpe, hsource, hstream, hcheck]
  rw [leavesOrder_iff_run rfl hcalls rfl]
  by_cases hremove : r.ok (.streamRemove t.hPE streamHandle) = true
  · by_cases haudio : streamHandle = t.hStreamA
    · subst haudio
      simp [hpe, hsource, hstream, hremove, PeCall.uses, holds,
        one_of_ne hstream, Request.apply, Request.answer, Replies.answer, Tdp.playerStreamRemove]
    · obtain rfl := hheld.resolve_left haudio
      simp [hpe, hsource, hstream, hremove, haudio, PeCall.uses, holds,
        one_of_ne hstream, Request.apply, Request.answer, Replies.answer, Tdp.playerStreamRemove,
        erase_add_singleton]
  · have hmem : streamHandle ∈ one t.hStreamA + one t.hStreamV := by
      obtain rfl | rfl := hheld <;> simp [hstream]
    simp [hpe, hsource, hstream, hremove, hcheck, hmem, PeCall.uses, holds, Request.apply,
      Request.answer, Replies.answer, Tdp.playerStreamRemove]

theorem demuxSetFilter_iff (hbuffered : Buffered t) (hhandle : r.handle ≠ 0)
    (hbuffer : r.buffer ≠ 0) (hfresh : r.buffer ∉ holds t .buffer) (hpe : t.hPE ≠ 0) (pid : ℕ)
    (tableId : UInt8) :
    (Request.demuxSetFilter t.hPE pid tableId).LeavesOrder r t ↔
      (Request.demuxSetFilter t.hPE pid tableId).Safe r t := by
  by_cases hallocate : r.ok (.streamBufAllocate t.hPE) = true
  · by_cases hadd : r.ok (.sourceAddSectionFilter t.hPE t.hSource r.buffer pid tableId) = true
    · have hcalls : (Request.demuxSetFilter t.hPE pid tableId).calls r t =
          [.streamBufAllocate t.hPE,
            .sourceAddSectionFilter t.hPE t.hSource r.buffer pid tableId] := by
        simp [Request.calls, hpe, hallocate, hadd]
      rw [leavesOrder_iff_run rfl hcalls rfl]
      by_cases hfilter : t.hFilter = 0 <;>
        simp [hpe, hallocate, hadd, hfilter, hhandle, Request.Safe, PeCall.uses, PeCall.acquires,
          holds, one_of_ne, hbuffer, Request.apply, Request.answer, Replies.answer,
          Tdp.demuxSetFilter]
    · have hcalls : (Request.demuxSetFilter t.hPE pid tableId).calls r t =
          [.streamBufAllocate t.hPE,
            .sourceAddSectionFilter t.hPE t.hSource r.buffer pid tableId,
            .streamBufRelease t.hPE r.buffer] := by
        simp [Request.calls, hpe, hallocate, hadd]
      rw [leavesOrder_iff_run rfl hcalls rfl]
      by_cases hfilter : t.hFilter = 0
      · by_cases hrelease : r.ok (.streamBufRelease t.hPE r.buffer) = true <;>
          simp [hpe, hallocate, hadd, hrelease, hfilter, Request.Safe, PeCall.uses,
            PeCall.acquires, holds, Request.apply, Request.answer, Replies.answer,
            Tdp.demuxSetFilter]
      · -- the old buffer is forgotten
        have hold := (hbuffered hfilter).1
        have hother : t.hBuffer ≠ r.buffer := fun heq => by
          rw [holds, if_neg hfilter, heq] at hfresh
          simp [hbuffer] at hfresh
        by_cases hrelease : r.ok (.streamBufRelease t.hPE r.buffer) = true <;>
          simp [hpe, hallocate, hadd, hrelease, hfilter, Request.Safe, PeCall.uses,
            PeCall.acquires, holds, Request.apply, Request.answer, Replies.answer,
            Tdp.demuxSetFilter, one_of_ne hbuffer, one_of_ne hold, hother]
  · have hcalls : (Request.demuxSetFilter t.hPE pid tableId).calls r t =
        [.streamBufAllocate t.hPE] := by
      simp [Request.calls, hpe, hallocate]
    rw [leavesOrder_iff_run rfl hcalls rfl]
    simp [hpe, hallocate, Request.Safe, PeCall.uses, PeCall.acquires, holds,
      Request.apply, Request.answer, Replies.answer, Tdp.demuxSetFilter]

theorem demuxFreeFilter_iff (hbuffered : Buffered t) (hpe : t.hPE ≠ 0) (hfilter : t.hFilter ≠ 0) :
    (Request.demuxFreeFilter t.hPE t.hFilter).LeavesOrder r t ↔
      (Request.demuxFreeFilter t.hPE t.hFilter).Safe r t := by
  have hcalls : (Request.demuxFreeFilter t.hPE t.hFilter).calls r t =
      [.sourceRemoveSectionFilter t.hPE t.hSource t.hFilter,
        .streamBufRelease t.hPE t.hBuffer] := by
    simp [Request.calls, hpe, hfilter]
  have hbuffer := (hbuffered hfilter).1
  rw [leavesOrder_iff_run rfl hcalls rfl]
  by_cases hremove : r.ok (.sourceRemoveSectionFilter t.hPE t.hSource t.hFilter) = true <;>
    by_cases hrelease : r.ok (.streamBufRelease t.hPE t.hBuffer) = true <;>
      simp [hpe, hfilter, hremove, hrelease, hbuffer, Request.Safe, PeCall.uses, holds,
        one_of_ne hfilter, Request.apply, Request.answer, Replies.answer, Tdp.demuxFreeFilter]

theorem sectionReceived_iff (hbuffered : Buffered t) :
    Request.sectionReceived.LeavesOrder r t ↔ Request.sectionReceived.Safe r t := by
  have hcalls : Request.sectionReceived.calls r t = [.streamBufAccess t.hPE t.hBuffer] := rfl
  have happly : Request.sectionReceived.apply r t = t := rfl
  rw [leavesOrder_iff_run happly hcalls rfl]
  by_cases hfilter : t.hFilter = 0
  · simp [hfilter, Request.Safe, PeCall.uses, holds]
  · obtain ⟨hbuffer, hpe⟩ := hbuffered hfilter
    simp [hfilter, hbuffer, hpe, Request.Safe, PeCall.uses, holds]

/-! ### The end of the player -/

/-- The call returns no handle. -/
def PeCall.Closes : PeCall → Prop
  | stop _ _ => True
  | c => c.gives = true

theorem PeCall.Closes.uses {c : PeCall} (hc : c.Closes) (r : Replies) :
    ∀ u ∈ c.uses r, u.closes = true := by
  have hreleases : ∀ (k : HandleKind) (h : ℕ), (releases r c k h).closes = true := by
    intro k h
    unfold releases
    split <;> rfl
  intro u hu
  cases c with
  | stop pe source =>
    simp only [PeCall.uses, List.mem_cons, List.not_mem_nil, or_false] at hu
    obtain rfl | rfl := hu <;> rfl
  | remove pe =>
    obtain rfl := List.mem_singleton.mp hu
    exact hreleases _ _
  | sourceClose pe h | streamRemove pe h | streamBufRelease pe h =>
    simp only [PeCall.uses, List.mem_cons, List.not_mem_nil, or_false] at hu
    obtain rfl | rfl := hu
    · rfl
    · exact hreleases _ _
  | sourceRemoveSectionFilter pe source filter =>
    simp only [PeCall.uses, List.mem_cons, List.not_mem_nil, or_false] at hu
    obtain rfl | rfl | rfl := hu
    · rfl
    · rfl
    · exact hreleases _ _
  | _ => cases hc

/-- **What a request names is held**, if the request leaves all in order and has returned nothing
before. -/
theorem held_of_asked {q : Request} (h : q.LeavesOrder r t) {front back : List PeCall}
    {c : PeCall} (hcalls : q.calls r t = front ++ c :: back) (hfront : ∀ d ∈ front, d.Closes)
    (hc : c.Closes) {u : Use HandleKind} (hu : u ∈ c.uses r) : u.handle ∈ holds t u.kind := by
  obtain ⟨us, vs, huses⟩ := List.append_of_mem hu
  have hclose : ∀ v ∈ front.flatMap (PeCall.uses r) ++ us, v.closes = true := by
    intro v hv
    obtain hv | hv := List.mem_append.mp hv
    · obtain ⟨d, hd, hmem⟩ := List.mem_flatMap.mp hv
      exact (hfront d hd).uses r v hmem
    · exact hc.uses r v (by rw [huses]; exact List.mem_append_left _ hv)
  have hsplit : (q.calls r t).flatMap (PeCall.uses r) =
      (front.flatMap (PeCall.uses r) ++ us) ++ u :: (vs ++ back.flatMap (PeCall.uses r)) := by
    rw [hcalls, List.flatMap_append, List.flatMap_cons, huses]
    simp
  have hsound : (HandleTable.run ⟨holds t, true⟩
      ((q.calls r t).flatMap (PeCall.uses r))).sound = true :=
    congrArg HandleTable.sound h
  rw [hsplit] at hsound
  exact HandleTable.mem_of_sound hclose (hc.uses r u hu) hsound

/-- What `Player_Deinit` does in front of the section buffer. -/
theorem playerDeinit_calls (r : Replies) (hpe : t.hPE ≠ 0) : ∃ front : List PeCall,
    (∀ c ∈ front, c.Closes) ∧ (Request.playerDeinit t.hPE).calls r t = front ++
      ((if t.hBuffer ≠ 0 then [.streamBufRelease t.hPE t.hBuffer] else []) ++
      ((if t.hFilter ≠ 0 then [.sourceRemoveSectionFilter t.hPE 0 t.hFilter] else []) ++
        [.remove t.hPE])) := by
  refine ⟨(if t.hSource ≠ 0 then [.stop t.hPE t.hSource] else []) ++
    (if t.hStreamV ≠ 0 then [.streamRemove t.hPE t.hStreamV] else []) ++
    (if t.hStreamA ≠ 0 then [.streamRemove t.hPE t.hStreamA] else []) ++
    (if t.hSource ≠ 0 then [.sourceClose t.hPE t.hSource] else []), ?_, ?_⟩
  · intro c hc
    simp only [List.mem_append, List.mem_ite_nil_right, List.mem_singleton] at hc
    obtain ((⟨-, rfl⟩ | ⟨-, rfl⟩) | ⟨-, rfl⟩) | ⟨-, rfl⟩ := hc
    · trivial
    · rfl
    · rfl
    · rfl
  · simp [Request.calls, hpe, List.append_assoc]

/-- A filter cannot be removed without its source, and a buffer that was left behind has been
released. -/
theorem zero_of_playerDeinit (hpe : t.hPE ≠ 0)
    (h : (Request.playerDeinit t.hPE).LeavesOrder r t) : t.hFilter = 0 ∧ t.hBuffer = 0 := by
  obtain ⟨front, hfront, hcalls⟩ := playerDeinit_calls r hpe
  have hfilter : t.hFilter = 0 := by
    by_contra hfilter
    rw [if_pos hfilter, ← List.append_assoc, List.singleton_append] at hcalls
    have hheld := held_of_asked h hcalls (fun c hc => ?_) rfl
      (u := .name .source 0) (by simp [PeCall.uses])
    · obtain ⟨hzero, hsource⟩ := mem_one.mp hheld
      exact hsource hzero.symm
    · obtain hc | hc := List.mem_append.mp hc
      · exact hfront c hc
      · obtain ⟨-, hc⟩ := List.mem_ite_nil_right.mp hc
        rw [List.mem_singleton.mp hc]
        rfl
  refine ⟨hfilter, ?_⟩
  by_contra hbuffer
  rw [if_pos hbuffer, List.singleton_append] at hcalls
  have hheld := held_of_asked h hcalls hfront rfl
    (u := PeCall.releases r (.streamBufRelease t.hPE t.hBuffer) .buffer t.hBuffer)
    (by simp [PeCall.uses])
  unfold PeCall.releases at hheld
  split at hheld <;> simp [Use.handle, Use.kind, holds, hfilter] at hheld

theorem playerDeinit_iff (hpe : t.hPE ≠ 0) :
    (Request.playerDeinit t.hPE).LeavesOrder r t ↔ (Request.playerDeinit t.hPE).Safe r t := by
  by_cases hzero : t.hFilter = 0 ∧ t.hBuffer = 0
  · obtain ⟨hfilter, hbuffer⟩ := hzero
    have happly : (Request.playerDeinit t.hPE).apply r t = { t with
        hPE := 0, hSource := 0, hStreamA := 0, hStreamV := 0, hFilter := 0, hBuffer := 0
        pe := ((Request.playerDeinit t.hPE).apply r t).pe } := by
      simp [Request.apply, Tdp.playerDeinit, hpe]
    rw [leavesOrder_iff_run happly rfl rfl, Request.Safe]
    by_cases hstreams : t.hStreamV ≠ 0 ∧ t.hStreamA ≠ 0
    · obtain ⟨hvideo, haudio⟩ := hstreams
      have hleft : (t.hStreamA ::ₘ {t.hStreamV}).erase t.hStreamV = {t.hStreamA} := by
        rw [← Multiset.singleton_add, erase_add_singleton]
      by_cases hremoveV : r.ok (.streamRemove t.hPE t.hStreamV) = true <;>
        by_cases hremoveA : r.ok (.streamRemove t.hPE t.hStreamA) = true <;>
          by_cases hsource : t.hSource = 0
      all_goals
        simp [Request.calls, hpe, hfilter, hbuffer, hsource, hvideo, haudio, hremoveV, hremoveA,
          PeCall.uses, PeCall.gives, holds, one_of_ne, hleft]
      exact and_comm
    · by_cases hvideo : t.hStreamV = 0 <;> by_cases haudio : t.hStreamA = 0 <;>
        by_cases hsource : t.hSource = 0
      all_goals
        simp [Request.calls, hpe, hfilter, hbuffer, hsource, hvideo, haudio, PeCall.uses,
          PeCall.gives, holds, one_of_ne hpe]
      all_goals tauto
  · exact iff_of_false (fun h => hzero (zero_of_playerDeinit hpe h)) fun h => hzero ⟨h.1, h.2.1⟩

/-! ### Any client -/

/-- **A request leaves all in order exactly when it is safe**, or refused. -/
theorem leavesOrder_iff (hbuffered : Buffered t) {q : Request}
    (hreturns : q.Returns r ⟨holds t, true⟩) :
    q.LeavesOrder r t ↔ (q.Accepted t → q.Safe r t) := by
  by_cases hq : q.Accepted t
  · rw [forall_prop_of_true hq]
    cases q with
    | playerInit => exact playerInit_iff hreturns
    | playerDeinit playerHandle =>
      obtain ⟨rfl, hpe⟩ := hq
      exact playerDeinit_iff hpe
    | playerSourceOpen playerHandle =>
      obtain ⟨rfl, hpe⟩ := hq
      exact playerSourceOpen_iff hreturns hpe
    | playerSourceClose playerHandle sourceHandle =>
      obtain ⟨rfl, rfl, hsource, hpe⟩ := hq
      exact iff_of_true (playerSourceClose_leavesOrder hsource hpe) trivial
    | playerStreamCreate playerHandle sourceHandle pid streamType =>
      obtain ⟨rfl, rfl, hpe, hsource⟩ := hq
      exact playerStreamCreate_iff hreturns hpe hsource pid streamType
    | playerStreamRemove playerHandle sourceHandle streamHandle =>
      obtain ⟨rfl, rfl, hheld, hstream, hpe, hsource⟩ := hq
      exact iff_of_true (playerStreamRemove_leavesOrder hpe hsource hstream hheld) trivial
    | playerVolumeSet playerHandle volume =>
      obtain ⟨rfl, hpe⟩ := hq
      refine (leavesOrder_iff_of_engine ?_ (c := .aOutSetVolume t.hPE volume) ?_ rfl).trans
        (iff_of_true hpe trivial)
      · simp only [Request.apply, Tdp.playerVolumeSet]
        split_ifs <;> rfl
      · simp [Request.calls, hpe]
    | playerVolumeGet playerHandle =>
      obtain ⟨rfl, hpe⟩ := hq
      refine (leavesOrder_iff_of_engine rfl (c := .aOutGetVolume t.hPE) ?_ rfl).trans
        (iff_of_true hpe trivial)
      simp [Request.calls, hpe]
    | demuxRegisterSectionFilterCallback =>
      have hfree : t.demuxSectionFilterCallback = false := hq
      refine leavesOrder_iff_of_engine ?_ (c := .registerEventCallBack t.hPE) ?_ rfl
      · simp only [Request.apply, Tdp.demuxRegisterSectionFilterCallback]
        split_ifs <;> rfl
      · simp [Request.calls, hfree]
    | demuxUnregisterSectionFilterCallback registered =>
      obtain ⟨hset, rfl⟩ := hq
      refine leavesOrder_iff_of_engine ?_ (c := .unRegisterEventCallBack t.hPE) ?_ rfl
      · simp only [Request.apply]
        split_ifs <;> rfl
      · simp [Request.calls, hset]
    | demuxSetFilter playerHandle pid tableId =>
      obtain ⟨rfl, hpe⟩ := hq
      obtain ⟨hhandle, hbuffer, hfresh⟩ := hreturns
      exact demuxSetFilter_iff hbuffered hhandle hbuffer hfresh hpe pid tableId
    | demuxFreeFilter playerHandle filterHandle =>
      obtain ⟨rfl, rfl, hpe, hfilter⟩ := hq
      exact demuxFreeFilter_iff hbuffered hpe hfilter
    | sectionReceived => exact sectionReceived_iff hbuffered
  · exact iff_of_true (leavesOrder_of_refused hq) fun h => absurd h hq

/-- No request leaves a filter without a buffer or a player behind. -/
theorem Buffered.apply (hbuffered : Buffered t) {q : Request} {T : PeTable}
    (hreturns : q.Returns r T) : Buffered (q.apply r t) := by
  rw [Buffered] at hbuffered ⊢
  cases q with
  | playerVolumeGet playerHandle => exact hbuffered
  | sectionReceived => exact hbuffered
  | playerInit =>
    simp only [Request.apply, Tdp.playerInit, apply_ite Prod.snd, apply_ite Tdp.hFilter,
      apply_ite Tdp.hBuffer, apply_ite Tdp.hPE, ite_self]
    split_ifs
    · exact fun h => ⟨(hbuffered h).1, hreturns⟩
    · exact hbuffered
  | demuxSetFilter playerHandle pid tableId =>
    simp only [Request.apply, Tdp.demuxSetFilter, apply_ite Prod.snd, apply_ite Tdp.hFilter,
      apply_ite Tdp.hBuffer, apply_ite Tdp.hPE, ite_self]
    split_ifs with hplayer hpe
    any_goals exact hbuffered
    all_goals exact fun _ => ⟨hreturns.2.1, hpe⟩
  | demuxFreeFilter playerHandle filterHandle =>
    simp only [Request.apply, Tdp.demuxFreeFilter, apply_ite Prod.snd, apply_ite Tdp.hFilter,
      apply_ite Tdp.hBuffer, apply_ite Tdp.hPE, ite_self]
    split_ifs
    any_goals exact hbuffered
    exact fun h => absurd rfl h
  | playerDeinit playerHandle =>
    simp only [Request.apply, Tdp.playerDeinit, apply_ite Prod.snd, apply_ite Tdp.hFilter,
      apply_ite Tdp.hBuffer, apply_ite Tdp.hPE]
    split_ifs
    any_goals exact hbuffered
    exact fun h => absurd rfl h
  | _ =>
    simp only [Request.apply, Tdp.playerSourceOpen, Tdp.playerSourceClose,
      Tdp.playerStreamCreate, Tdp.playerStreamRemove, Tdp.playerVolumeSet,
      Tdp.demuxRegisterSectionFilterCallback, apply_ite Prod.snd, apply_ite Tdp.hFilter,
      apply_ite Tdp.hBuffer, apply_ite Tdp.hPE, ite_self]
    exact hbuffered

/-- **The handles of the player**: whatever a client asks for, and whatever the player answers,
all calls name live handles and what is live is what the globals hold, throughout, exactly when
every request that is accepted is safe. -/
theorem orderly_iff (ls : List (Replies × Request)) :
    Always apiStep Orderly (.zero, ⟨fun _ => 0, true⟩) ls ↔
      Meets apiStep KeepsOrder (.zero, ⟨fun _ => 0, true⟩) ls := by
  have hstep : ∀ {x : Tdp × PeTable} {l : Replies × Request} {y}, apiStep x l = some y →
      l.2.Returns l.1 x.2 ∧ y = (l.2.apply l.1 x.1, l.2.ask l.1 x) := by
    intro x l y h
    unfold apiStep at h
    split at h
    · next hreturns => exact ⟨hreturns, (Option.some.inj h).symm⟩
    · cases h
  refine always_iff_meets (I := fun x => Buffered x.1) (fun h => absurd rfl h) ?_ ?_ ?_
  · exact congrArg (HandleTable.mk · true) (funext fun k => by cases k <;> rfl)
  · intro x l y hx h
    obtain ⟨hreturns, rfl⟩ := hstep h
    exact hx.apply hreturns
  · rintro ⟨t, T⟩ l y hx hT h
    obtain ⟨hreturns, rfl⟩ := hstep h
    obtain rfl : T = ⟨holds t, true⟩ := hT
    exact leavesOrder_iff hx hreturns

end Zapper.Api
