import Zapper.FilterCallback
import Zapper.Section.Pmt

/-!
# The stores of `parse_PMT`, one by one

`stream_loop`, `get_prog_info` and `change_program` read a slot of the PAT without a lock while
`parse_PMT` stores to it, so what they see is the slot behind any of its stores. `storesPMT` lists
these stores; together they make what `parsePMT` makes (`parsePMT_eq_storesPMT`).

Delivered again, a section leaves the slot that it has filled as it is (`parsePMT_again`). In
between, the slot loses both PIDs: the stores in front of the loop set them to 65000, and the loop
brings them back. So a reader sees the slot's PIDs throughout exactly when the section has no video
and no audio entry (`keepsPids_iff`).
-/

namespace Zapper

open Memory

/-- A store of `parse_PMT` to its slot. -/
inductive PmtStore
  | sectionLength (n : ℕ)
  | videoPid (n : ℕ)
  | audioPid (n : ℕ)
  | hasTeletext (b : Bool)
  deriving DecidableEq

/-- The slot behind a store. -/
def PmtStore.apply (pmt : PMT) : PmtStore → PMT
  | sectionLength n => { pmt with sectionLength := n }
  | videoPid n => { pmt with videoPid := n }
  | audioPid n => { pmt with audioPid := n }
  | hasTeletext b => { pmt with hasTeletext := b }

/-- The stores in front of the loop. -/
def clearStores (buffer : Buffer) : List PmtStore :=
  [.sectionLength (sectionLength buffer), .videoPid noPid, .audioPid noPid, .hasTeletext false]

/-- The stores of one pass of the loop, which finds the slot as it is in `pmt`. -/
def entryStores (buffer : Buffer) (tmpPtr : ℕ) (pmt : PMT) : List PmtStore :=
  (if (buffer tmpPtr = 2 ∨ buffer tmpPtr = 1) ∧ pmt.videoPid = noPid then
    [.videoPid (esPid buffer tmpPtr)] else []) ++
  (if (buffer tmpPtr = 3 ∨ buffer tmpPtr = 4) ∧ pmt.audioPid = noPid then
    [.audioPid (esPid buffer tmpPtr)] else []) ++
  (if buffer tmpPtr = 6 then [.hasTeletext true] else [])

/-- One pass of the loop, behind the stores made so far. -/
def storePMTEntry (buffer : Buffer) (pmt : PMT) (tmpPtr : ℕ) (stores : List PmtStore) :
    List PmtStore :=
  stores ++ entryStores buffer tmpPtr (stores.foldl PmtStore.apply pmt)

/-- The stores of `parse_PMT` to a slot, in their order, with fuel for its loop. -/
def storesPMT (fuel : ℕ) (buffer : Buffer) (pmt : PMT) : Option (List PmtStore) :=
  (WhileLoop.run RecordWalk.more
    (RecordWalk.pass 16 (fun tmpPtr => esInfoLength buffer tmpPtr + 5) (storePMTEntry buffer pmt))
    fuel ⟨(((sectionLength buffer : ℤ) - 13) % 2 ^ 16).toNat, 12, clearStores buffer⟩).map
      RecordWalk.Cursor.acc

/-- While `parse_PMT` parses a section into a slot, the slot can be seen in this state: behind some
of the stores. -/
def PassesThrough (buffer : Buffer) (pmt t : PMT) : Prop :=
  ∃ fuel stores, storesPMT fuel buffer pmt = some stores ∧
    ∃ l, l <+: stores ∧ t = l.foldl PmtStore.apply pmt

/-- The offsets of the entries that the loop of `parse_PMT` walks over. -/
def entryPlaces (fuel : ℕ) (buffer : Buffer) : Option (List ℕ) :=
  RecordWalk.places 16 (fun tmpPtr => esInfoLength buffer tmpPtr + 5) fuel
    (((sectionLength buffer : ℤ) - 13) % 2 ^ 16).toNat 12

/-- None of the entries is a video entry or an audio entry. -/
def NoStreams (buffer : Buffer) : Prop :=
  ∀ fuel ps, entryPlaces fuel buffer = some ps →
    ∀ p ∈ ps, buffer p ∉ ([1, 2, 3, 4] : List UInt8)

variable {buffer : Buffer}

/-! ### The stores of a run -/

/-- The stores of a pass make what the pass makes. -/
theorem foldl_entryStores (buffer : Buffer) (p : ℕ) (pmt : PMT) :
    (entryStores buffer p pmt).foldl PmtStore.apply pmt = parsePMTEntry buffer p pmt := by
  unfold entryStores parsePMTEntry
  dsimp only
  split_ifs <;> simp_all [PmtStore.apply]

theorem foldl_clearStores (buffer : Buffer) (pmt : PMT) :
    (clearStores buffer).foldl PmtStore.apply pmt = pmt.cleared (sectionLength buffer) := rfl

/-- A run stores for the entries at its places. -/
theorem storesPMT_eq_places (fuel : ℕ) (buffer : Buffer) (pmt : PMT) :
    storesPMT fuel buffer pmt = (entryPlaces fuel buffer).map fun ps =>
      ps.foldl (fun stores p => storePMTEntry buffer pmt p stores) (clearStores buffer) :=
  RecordWalk.run_acc fuel _ _ _

theorem parsePMT_eq_places (fuel : ℕ) (buffer : Buffer) (pmt : PMT) :
    parsePMT fuel buffer pmt = (entryPlaces fuel buffer).map fun ps =>
      ps.foldl (fun t p => parsePMTEntry buffer p t) (pmt.cleared (sectionLength buffer)) :=
  RecordWalk.run_acc fuel _ _ _

/-- **The stores make what `parsePMT` makes.** -/
theorem parsePMT_eq_storesPMT (fuel : ℕ) (buffer : Buffer) (pmt : PMT) :
    parsePMT fuel buffer pmt =
      (storesPMT fuel buffer pmt).map fun stores => stores.foldl PmtStore.apply pmt := by
  rw [parsePMT_eq_places, storesPMT_eq_places, Option.map_map]
  refine congrArg (Option.map · _) (funext fun ps => ?_)
  rw [← foldl_clearStores]
  refine List.foldl_hom (fun stores : List PmtStore => stores.foldl PmtStore.apply pmt)
    fun stores p => ?_
  rw [storePMTEntry, List.foldl_append, foldl_entryStores]

/-- The stores in front of the loop come first. -/
theorem clearStores_first {fuel : ℕ} {pmt : PMT} {stores : List PmtStore}
    (h : storesPMT fuel buffer pmt = some stores) : clearStores buffer <+: stores := by
  rw [storesPMT_eq_places] at h
  obtain ⟨ps, -, rfl⟩ := Option.map_eq_some_iff.mp h
  exact List.foldlRecOn ps _ (List.prefix_refl _) fun l hl p _ => hl.trans (List.prefix_append _ _)

/-- The places do not depend on the fuel. -/
theorem entryPlaces_unique {k m : ℕ} {ps qs : List ℕ} (hp : entryPlaces k buffer = some ps)
    (hq : entryPlaces m buffer = some qs) : ps = qs := by
  obtain ⟨c, hc, rfl⟩ := Option.map_eq_some_iff.mp hp
  obtain ⟨d, hd, rfl⟩ := Option.map_eq_some_iff.mp hq
  exact congrArg _ (WhileLoop.Exits.unique ⟨k, hc⟩ ⟨m, hd⟩)

/-! ### Slots without streams -/

/-- The slot shows neither a video nor an audio stream. -/
def PMT.NoPids (pmt : PMT) : Prop := pmt.videoPid = noPid ∧ pmt.audioPid = noPid

/-- A stored PID is never 65000, so that a field remains without a stream unless it is stored. -/
theorem ite_esPid_eq_noPid_iff {c : Prop} [Decidable c] {n p : ℕ} :
    (if c ∧ n = noPid then esPid buffer p else n) = noPid ↔ n = noPid ∧ ¬ c := by
  have hpid := esPid_ne_noPid buffer p
  split_ifs with hif
  · exact iff_of_false hpid fun h => h.2 hif.1
  · exact ⟨fun h => ⟨h, fun hc => hif ⟨hc, h⟩⟩, And.left⟩

/-- A pass leaves the slot without streams if it finds it so and no stream at its place. -/
theorem noPids_parsePMTEntry_iff {pmt : PMT} {p : ℕ} :
    (parsePMTEntry buffer p pmt).NoPids ↔
      pmt.NoPids ∧ buffer p ∉ ([1, 2, 3, 4] : List UInt8) := by
  rw [PMT.NoPids, videoPid_parsePMTEntry, audioPid_parsePMTEntry, ite_esPid_eq_noPid_iff,
    ite_esPid_eq_noPid_iff, PMT.NoPids]
  simp only [List.mem_cons, List.not_mem_nil, or_false]
  tauto

theorem noPids_foldl_iff {ps : List ℕ} {pmt : PMT} :
    (ps.foldl (fun t p => parsePMTEntry buffer p t) pmt).NoPids ↔
      pmt.NoPids ∧ ∀ p ∈ ps, buffer p ∉ ([1, 2, 3, 4] : List UInt8) := by
  induction ps generalizing pmt with
  | nil => simp
  | cons p ps ih =>
    rw [List.foldl_cons, ih, noPids_parsePMTEntry_iff, List.forall_mem_cons, and_assoc]

/-- A filled slot shows no stream exactly when the section has none. -/
theorem noPids_iff {fuel : ℕ} {pmt slot : PMT} (h : parsePMT fuel buffer pmt = some slot) :
    slot.NoPids ↔ NoStreams buffer := by
  rw [parsePMT_eq_places] at h
  obtain ⟨ps, hps, rfl⟩ := Option.map_eq_some_iff.mp h
  rw [noPids_foldl_iff]
  constructor
  · rintro ⟨-, hinert⟩ k qs hqs
    rwa [entryPlaces_unique hqs hps]
  · intro hnone
    exact ⟨⟨rfl, rfl⟩, hnone fuel ps hps⟩

/-! ### The same section again -/

/-- **Delivered again, a section leaves the slot as it is.** -/
theorem parsePMT_again {fuel : ℕ} {pmt slot : PMT} (h : parsePMT fuel buffer pmt = some slot) :
    parsePMT fuel buffer slot = some slot := by
  rw [parsePMT_congr fuel buffer pmt slot, h, Option.map_some]

/-- Throughout a run over the section, the slot shows the PIDs that it shows in front of it. -/
def KeepsPids (buffer : Buffer) (slot : PMT) : Prop :=
  ∀ t, PassesThrough buffer slot t → t.videoPid = slot.videoPid ∧ t.audioPid = slot.audioPid

/-- Throughout a run over the section, the slot never shows 65000 in the place of a stream. -/
def ShowsStreams (buffer : Buffer) (slot : PMT) : Prop :=
  ∀ t, PassesThrough buffer slot t →
    (slot.videoPid ≠ noPid → t.videoPid ≠ noPid) ∧ (slot.audioPid ≠ noPid → t.audioPid ≠ noPid)

/-- **Every run passes through a slot without streams**: behind the third store. -/
theorem passesThrough_noPids {fuel : ℕ} {pmt slot : PMT}
    (h : parsePMT fuel buffer pmt = some slot) :
    ∃ t, PassesThrough buffer slot t ∧ t.NoPids := by
  rw [parsePMT_eq_places] at h
  obtain ⟨ps, hps, -⟩ := Option.map_eq_some_iff.mp h
  have hstores := storesPMT_eq_places fuel buffer slot
  rw [hps, Option.map_some] at hstores
  have htake : (clearStores buffer).take 3 <+: clearStores buffer := List.take_prefix 3 _
  exact ⟨_, ⟨fuel, _, hstores, _, htake.trans (clearStores_first hstores), rfl⟩, rfl, rfl⟩

/-- The store shows no stream in a slot that has shown none. -/
def PmtStore.ShowsNothing (s : PmtStore) : Prop :=
  ∀ pmt : PMT, pmt.NoPids → (PmtStore.apply pmt s).NoPids

theorem showsNothing_of_mem_clearStores {s : PmtStore} (hs : s ∈ clearStores buffer) :
    s.ShowsNothing := by
  intro pmt hpmt
  simp only [clearStores, List.mem_cons, List.not_mem_nil, or_false] at hs
  obtain rfl | rfl | rfl | rfl := hs
  · exact hpmt
  · exact ⟨rfl, hpmt.2⟩
  · exact ⟨hpmt.1, rfl⟩
  · exact hpmt

theorem showsNothing_of_mem_entryStores {p : ℕ} {pmt : PMT} {s : PmtStore}
    (hp : buffer p ∉ ([1, 2, 3, 4] : List UInt8)) (hs : s ∈ entryStores buffer p pmt) :
    s.ShowsNothing := by
  simp only [List.mem_cons, List.not_mem_nil, or_false, not_or] at hp
  have hteletext : s = .hasTeletext true := by simp_all [entryStores]
  subst hteletext
  exact fun t ht => ht

/-- Over a section without streams, no store makes the slot show one. -/
theorem NoStreams.noPids_of_passesThrough (hnone : NoStreams buffer) {slot t : PMT}
    (hslot : slot.NoPids) (ht : PassesThrough buffer slot t) : t.NoPids := by
  obtain ⟨fuel, stores, hstores, l, hl, rfl⟩ := ht
  rw [storesPMT_eq_places] at hstores
  obtain ⟨ps, hps, rfl⟩ := Option.map_eq_some_iff.mp hstores
  have hall : ∀ s ∈ ps.foldl (fun stores p => storePMTEntry buffer slot p stores)
      (clearStores buffer), s.ShowsNothing := by
    refine List.foldlRecOn (motive := fun stores => ∀ s ∈ stores, s.ShowsNothing) ps _
      (fun s hs => showsNothing_of_mem_clearStores hs) fun stores hst p hp s hs => ?_
    rcases List.mem_append.mp hs with hs | hs
    · exact hst s hs
    · exact showsNothing_of_mem_entryStores (hnone fuel ps hps p hp) hs
  exact List.foldlRecOn l _ hslot fun pmt hpmt s hs => hall s (hl.subset hs) pmt hpmt

/-- **What a reader sees of a slot while its section is delivered again**: the slot's own PIDs
throughout, and never 65000 in their place, if and only if the section has no streams. -/
theorem keepsPids_iff {fuel : ℕ} {pmt slot : PMT} (h : parsePMT fuel buffer pmt = some slot) :
    (KeepsPids buffer slot ↔ NoStreams buffer) ∧ (ShowsStreams buffer slot ↔ NoStreams buffer) := by
  obtain ⟨t, ht, hvideo, haudio⟩ := passesThrough_noPids h
  have hkeeps : NoStreams buffer → KeepsPids buffer slot := by
    intro hnone u hu
    obtain ⟨hv, ha⟩ := (noPids_iff h).mpr hnone
    obtain ⟨huv, hua⟩ := hnone.noPids_of_passesThrough ⟨hv, ha⟩ hu
    exact ⟨huv.trans hv.symm, hua.trans ha.symm⟩
  have hshows : KeepsPids buffer slot → ShowsStreams buffer slot := by
    intro hk u hu
    obtain ⟨hv, ha⟩ := hk u hu
    exact ⟨fun hne => hv ▸ hne, fun hne => ha ▸ hne⟩
  have hnone : ShowsStreams buffer slot → NoStreams buffer := by
    intro hs
    obtain ⟨hv, ha⟩ := hs t ht
    exact (noPids_iff h).mp ⟨of_not_not fun hne => hv hne hvideo,
      of_not_not fun hne => ha hne haudio⟩
  exact ⟨⟨hnone ∘ hshows, hkeeps⟩, ⟨hnone, hshows ∘ hkeeps⟩⟩

/-- A section with a video stream and an audio stream. -/
def televisionSection : Buffer :=
  withTail [2, 0xB0, 23, 0, 1, 0xC1, 0, 0, 0xE1, 0, 0xF0, 0, 2, 0xE0, 0x65, 0xF0, 0, 3, 0xE0, 0x66,
    0xF0, 0, 0, 0, 0, 0] fun _ => 0

/-- The slot that it fills. -/
def televisionSlot : PMT := ⟨0, 1, 23, 0x66, 0x65, false⟩

theorem keepsPids_televisionSection :
    (KeepsPids televisionSection televisionSlot ↔ NoStreams televisionSection) ∧
      (ShowsStreams televisionSection televisionSlot ↔ NoStreams televisionSection) :=
  keepsPids_iff (show parsePMT 2 televisionSection ⟨0, 1, 0, 0, 0, false⟩ = some televisionSlot by
    decide)

/-- A television program is seen without its streams. -/
theorem not_forall_keepsPids : ¬ ∀ (fuel : ℕ) (buffer : Buffer) (pmt slot : PMT),
    parsePMT fuel buffer pmt = some slot → KeepsPids buffer slot := by
  intro h
  have hslot := h 2 televisionSection ⟨0, 1, 0, 0, 0, false⟩ televisionSlot (by decide)
  have hstores : (storesPMT 2 televisionSection televisionSlot).isSome := by decide
  obtain ⟨stores, hstores⟩ := Option.isSome_iff_exists.mp hstores
  have hcleared := hslot _ ⟨2, stores, hstores, _, clearStores_first hstores, rfl⟩
  exact absurd hcleared.1 (by decide)

end Zapper
