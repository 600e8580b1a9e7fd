import Zapper.Section.Pmt

/-!
# The bytes that `parse_PMT` reads

The loop of `parse_PMT` stops when its 16-bit counter is exactly zero. It reads the bytes of the
section and no others exactly when the bytes from offset 12 to the CRC are whole entries; it then
runs once for each entry, and its counter never wraps around (`parsePMT_reads`). Otherwise the
counter wraps around, in front of the loop or at the entry that is not whole, and the next entry
that the loop reads lies behind the section.
-/

namespace Zapper

open Memory

/-! ### Reads -/

/-- The offsets that a pass of the loop of `parse_PMT` reads. -/
def readsPMTEntry (buffer : Buffer) (c : RecordWalk.Cursor PMT) : List ℕ :=
  [c.pos] ++
    (if (buffer c.pos = 2 ∨ buffer c.pos = 1) ∧ c.acc.videoPid = noPid then
      [c.pos + 1, c.pos + 2] else []) ++
    (if (buffer c.pos = 3 ∨ buffer c.pos = 4) ∧ c.acc.audioPid = noPid then
      [c.pos + 1, c.pos + 2] else []) ++
    [c.pos + 3, c.pos + 4]

/-- The loop of `parse_PMT` makes a pass in this state. -/
def MakesPass (buffer : Buffer) (pmt : PMT) (c : RecordWalk.Cursor PMT) : Prop :=
  RecordWalk.more c = true ∧
    ∃ n, WhileLoop.passes RecordWalk.more (parsePMTPass buffer) n (parsePMTStart buffer pmt) =
      some c

/-- The loop of `parse_PMT` reads the byte at an offset. -/
def LoopReads (buffer : Buffer) (pmt : PMT) (i : ℕ) : Prop :=
  ∃ c, MakesPass buffer pmt c ∧ i ∈ readsPMTEntry buffer c

/-- `parse_PMT` reads the byte at an offset: the section length, or in its loop. -/
def ReadsPMT (buffer : Buffer) (pmt : PMT) (i : ℕ) : Prop :=
  i = 1 ∨ i = 2 ∨ LoopReads buffer pmt i

/-- `parse_PMT` reads only bytes of the section. -/
def ReadsInside (buffer : Buffer) (pmt : PMT) : Prop :=
  ∀ i, ReadsPMT buffer pmt i → i ≤ sectionLength buffer + 2

/-- The counter wraps around: in front of the loop, or in a pass that takes more bytes than there
are left. -/
def CounterWraps (buffer : Buffer) (pmt : PMT) : Prop :=
  sectionLength buffer < 13 ∨
    ∃ c, MakesPass buffer pmt c ∧ c.left < esInfoLength buffer c.pos + 5

/-- The bytes from offset 12 to the CRC are these whole entries. -/
structure SplitsInto (buffer : Buffer) (es : List EsEntry) : Prop where
  length : sectionLength buffer = 13 + (es.flatMap EsEntry.bytes).length
  holds : HoldsAt buffer 12 (es.flatMap EsEntry.bytes)

/-- The loop runs once for each entry, and the slot gets the first streams among them. -/
structure WalksOnce (buffer : Buffer) (pmt : PMT) (es : List EsEntry) : Prop where
  passes : ∃ c, RecordWalk.more c = false ∧ WhileLoop.passes RecordWalk.more (parsePMTPass buffer)
    es.length (parsePMTStart buffer pmt) = some c
  noWrap : ¬ CounterWraps buffer pmt
  result : ∃ t, parsePMT es.length buffer pmt = some t ∧ t.Describes es ∧
    t.sectionLength = sectionLength buffer

variable {buffer : Buffer} {pmt : PMT} {es : List EsEntry} {c : RecordWalk.Cursor PMT}

theorem le_of_mem_readsPMTEntry {i : ℕ} (h : i ∈ readsPMTEntry buffer c) : i ≤ c.pos + 4 := by
  unfold readsPMTEntry at h
  split_ifs at h <;> simp at h <;> omega

theorem mem_readsPMTEntry (buffer : Buffer) (c : RecordWalk.Cursor PMT) :
    c.pos + 3 ∈ readsPMTEntry buffer c := by simp [readsPMTEntry]

/-- One more pass. -/
theorem MakesPass.next (h : MakesPass buffer pmt c)
    (hmore : RecordWalk.more (parsePMTPass buffer c) = true) :
    MakesPass buffer pmt (parsePMTPass buffer c) := by
  obtain ⟨hc, n, hn⟩ := h
  exact ⟨hmore, n + 1, WhileLoop.passes_succ hn hc⟩

/-! ### Whole entries -/

/-- A section length has 12 bits. -/
theorem sectionLength_lt (buffer : Buffer) : sectionLength buffer < 4096 := by
  have hand : (buffer 1).toNat &&& 0x0F < 2 ^ 4 := Nat.and_lt_two_pow _ (by norm_num)
  have hlow := (buffer 2).toNat_lt
  rw [sectionLength, Nat.shiftLeft_eq]
  omega

/-- Over whole entries, with `k` more bytes on the counter. -/
theorem passes_parsePMTPass {p k n : ℕ} (pmt : PMT)
    (hlen : (es.flatMap EsEntry.bytes).length + k < 2 ^ 16)
    (h : HoldsAt buffer p (es.flatMap EsEntry.bytes)) (hn : n ≤ es.length) :
    WhileLoop.passes RecordWalk.more (parsePMTPass buffer) n
        ⟨(es.flatMap EsEntry.bytes).length + k, p, pmt⟩ =
      some ⟨((es.drop n).flatMap EsEntry.bytes).length + k,
        p + ((es.take n).flatMap EsEntry.bytes).length, (es.take n).foldl EsEntry.pass pmt⟩ := by
  have htake : HoldsAt buffer p ((es.take n).flatMap EsEntry.bytes) := by
    rw [← es.take_append_drop n, List.flatMap_append, holdsAt_append] at h
    exact h.1
  have hfold : (RecordWalk.starts EsEntry.bytes p (es.take n)).foldl
      (fun a q => parsePMTEntry buffer q a) pmt = (es.take n).foldl EsEntry.pass pmt :=
    RecordWalk.foldl_starts (fun e _ q a he => parsePMTEntry_of_holdsAt a he) htake
  rw [← hfold]
  refine RecordWalk.passes_of_holdsAt (fun e _ p he => ?_) (fun e _ => ?_) hlen h hn
  · rw [esInfoLength_of_holdsAt he, EsEntry.length_bytes]
  · simp

theorem SplitsInto.start (hs : SplitsInto buffer es) (pmt : PMT) :
    parsePMTStart buffer pmt =
      ⟨(es.flatMap EsEntry.bytes).length, 12, pmt.cleared (sectionLength buffer)⟩ := by
  have hlt : sectionLength buffer < 4096 := sectionLength_lt buffer
  have hlen := hs.length
  have hleft : (((sectionLength buffer : ℤ) - 13) % 2 ^ 16).toNat =
      (es.flatMap EsEntry.bytes).length := by omega
  rw [parsePMTStart, hleft]
  rfl

/-- The states at the head of the loop. -/
theorem SplitsInto.passes (hs : SplitsInto buffer es) (pmt : PMT) {n : ℕ} (hn : n ≤ es.length) :
    WhileLoop.passes RecordWalk.more (parsePMTPass buffer) n (parsePMTStart buffer pmt) =
      some ⟨((es.drop n).flatMap EsEntry.bytes).length,
        12 + ((es.take n).flatMap EsEntry.bytes).length,
        (es.take n).foldl EsEntry.pass (pmt.cleared (sectionLength buffer))⟩ := by
  have hlt : sectionLength buffer < 4096 := sectionLength_lt buffer
  have hlen := hs.length
  rw [hs.start]
  exact passes_parsePMTPass (k := 0) _ (by omega) hs.holds hn

/-- **Each pass stands in front of an entry**, which is inside the section. -/
theorem SplitsInto.entry (hs : SplitsInto buffer es) (h : MakesPass buffer pmt c) :
    (∃ e : EsEntry, HoldsAt buffer c.pos e.bytes ∧ e.bytes.length ≤ c.left) ∧
      c.pos + c.left + 1 = sectionLength buffer := by
  obtain ⟨hmore, n, hn⟩ := h
  have hlen := hs.length
  -- behind the last entry there is no pass
  have hlt : n < es.length := by
    by_contra hge
    rw [← Nat.add_sub_of_le (not_lt.mp hge), WhileLoop.passes_add, hs.passes pmt le_rfl,
      Option.bind_some, List.drop_length] at hn
    cases hk : n - es.length with
    | zero =>
      rw [hk] at hn
      obtain rfl := Option.some.inj hn
      cases hmore
    | succ k =>
      rw [hk] at hn
      cases hn
  rw [hs.passes pmt hlt.le] at hn
  obtain rfl := Option.some.inj hn
  have hsplit : (es.take n).flatMap EsEntry.bytes ++ (es.drop n).flatMap EsEntry.bytes =
      es.flatMap EsEntry.bytes := by rw [← List.flatMap_append, List.take_append_drop]
  have htotal := congrArg List.length hsplit
  rw [List.length_append] at htotal
  have hholds := hs.holds
  rw [← hsplit, holdsAt_append, List.drop_eq_getElem_cons hlt, List.flatMap_cons,
    holdsAt_append] at hholds
  refine ⟨⟨es[n], hholds.2.1, ?_⟩, by simp only; omega⟩
  rw [List.drop_eq_getElem_cons hlt, List.flatMap_cons, List.length_append]
  exact Nat.le_add_right _ _

theorem SplitsInto.noWrap (hs : SplitsInto buffer es) : ¬ CounterWraps buffer pmt := by
  have hlen := hs.length
  rintro (hlt | ⟨c, hc, hlt⟩)
  · omega
  · obtain ⟨⟨e, he, hle⟩, -⟩ := hs.entry hc
    rw [esInfoLength_of_holdsAt he] at hlt
    rw [EsEntry.length_bytes] at hle
    omega

theorem SplitsInto.readsInside (hs : SplitsInto buffer es) : ReadsInside buffer pmt := by
  have hlen := hs.length
  rintro i (rfl | rfl | ⟨c, hc, hi⟩)
  · omega
  · omega
  · obtain ⟨⟨e, -, hle⟩, hend⟩ := hs.entry hc
    have hi := le_of_mem_readsPMTEntry hi
    rw [EsEntry.length_bytes] at hle
    omega

theorem SplitsInto.walksOnce (hs : SplitsInto buffer es) (pmt : PMT) :
    WalksOnce buffer pmt es := by
  have hend := hs.passes pmt le_rfl
  rw [List.drop_length, List.take_length] at hend
  refine ⟨⟨_, rfl, hend⟩, hs.noWrap, _, ?_, pmt.foldl_cleared_describes (sectionLength buffer) es,
    ?_⟩
  · rw [parsePMT, WhileLoop.run_of_passes hend rfl]
    rfl
  · exact (foldl_pass_kept es _).1

/-! ### Other sections -/

/-- A section that is too short: the counter has wrapped around before the loop. -/
theorem reads_of_short (h : sectionLength buffer < 13) :
    ∃ i, LoopReads buffer pmt i ∧ sectionLength buffer + 2 < i := by
  refine ⟨12 + 3, ⟨parsePMTStart buffer pmt, ⟨?_, 0, rfl⟩, mem_readsPMTEntry _ _⟩, by omega⟩
  simp only [RecordWalk.more, parsePMTStart, bne_iff_ne]
  omega

/-- The bytes from offset 12 to the CRC are entries and a remainder that no whole entry starts. -/
theorem exists_stub (h : 13 ≤ sectionLength buffer) (hs : ¬ ∃ es, SplitsInto buffer es) :
    ∃ (es : List EsEntry) (r : List UInt8),
      HoldsAt buffer 12 (es.flatMap EsEntry.bytes ++ r) ∧
        sectionLength buffer = 13 + (es.flatMap EsEntry.bytes ++ r).length ∧ r ≠ [] ∧
          ∀ (e : EsEntry) (m : List UInt8), e.bytes ++ m ≠ r := by
  set l := (List.range (sectionLength buffer - 13)).map fun i => buffer (12 + i) with hl
  have hlength : l.length = sectionLength buffer - 13 := by simp [hl]
  have hholds : HoldsAt buffer 12 l := fun i hi => by simp [hl]
  obtain ⟨es, r, hsplit, hr⟩ := exists_split l
  refine ⟨es, r, by rwa [hsplit], by rw [hsplit]; omega, ?_, hr⟩
  rintro rfl
  rw [List.append_nil] at hsplit
  exact hs ⟨es, by rw [hsplit]; omega, by rwa [hsplit]⟩

/-- **A remainder makes the counter wrap around**, and the pass behind it reads behind the
section. -/
theorem wraps_of_stub {r : List UInt8} (h : HoldsAt buffer 12 (es.flatMap EsEntry.bytes ++ r))
    (hlen : sectionLength buffer = 13 + (es.flatMap EsEntry.bytes ++ r).length) (hne : r ≠ [])
    (hr : ∀ (e : EsEntry) (m : List UInt8), e.bytes ++ m ≠ r) :
    CounterWraps buffer pmt ∧ ∃ i, LoopReads buffer pmt i ∧ sectionLength buffer + 2 < i := by
  have hlt : sectionLength buffer < 4096 := sectionLength_lt buffer
  have hpos : 0 < r.length := List.length_pos_iff.mpr hne
  rw [holdsAt_append] at h
  rw [List.length_append] at hlen
  have hstart : parsePMTStart buffer pmt =
      ⟨(es.flatMap EsEntry.bytes).length + r.length, 12, pmt.cleared (sectionLength buffer)⟩ := by
    have hleft : (((sectionLength buffer : ℤ) - 13) % 2 ^ 16).toNat =
        (es.flatMap EsEntry.bytes).length + r.length := by omega
    rw [parsePMTStart, hleft]
    rfl
  -- the pass over the remainder
  have hpass := passes_parsePMTPass (k := r.length) (pmt.cleared (sectionLength buffer))
    (by omega) h.1 le_rfl
  rw [← hstart, List.drop_length, List.take_length, List.flatMap_nil, List.length_nil,
    Nat.zero_add] at hpass
  set c : RecordWalk.Cursor PMT := ⟨r.length, 12 + (es.flatMap EsEntry.bytes).length,
    es.foldl EsEntry.pass (pmt.cleared (sectionLength buffer))⟩ with hc
  have hmore : MakesPass buffer pmt c := by
    refine ⟨?_, es.length, hpass⟩
    simp only [hc, RecordWalk.more, bne_iff_ne]
    omega
  have hsize : c.left < esInfoLength buffer c.pos + 5 := length_lt_of_stub hr h.2
  have hinfo : esInfoLength buffer c.pos < 2 ^ 12 := Nat.and_lt_two_pow _ (by norm_num)
  refine ⟨.inr ⟨c, hmore, hsize⟩, _, ⟨_, hmore.next ?_, mem_readsPMTEntry _ _⟩, ?_⟩
  · have hleft : c.left = r.length := rfl
    simp only [RecordWalk.more, parsePMTPass, RecordWalk.pass, bne_iff_ne]
    omega
  · have hcpos : c.pos = 12 + (es.flatMap EsEntry.bytes).length := rfl
    have hleft : c.left = r.length := rfl
    simp only [parsePMTPass, RecordWalk.pass]
    omega

theorem wraps_of_not_splits (pmt : PMT) (hs : ¬ ∃ es, SplitsInto buffer es) :
    CounterWraps buffer pmt ∧ ∃ i, LoopReads buffer pmt i ∧ sectionLength buffer + 2 < i := by
  by_cases hlt : sectionLength buffer < 13
  · exact ⟨.inl hlt, reads_of_short hlt⟩
  · obtain ⟨es, r, hholds, hlen, hne, hr⟩ := exists_stub (not_lt.mp hlt) hs
    exact wraps_of_stub hholds hlen hne hr

/-- **What `parse_PMT` reads**: only bytes of the section exactly when it splits into whole
entries; it then walks them once, and otherwise its counter wraps around and it reads a byte
behind the section. -/
theorem parsePMT_reads (buffer : Buffer) (pmt : PMT) :
    (ReadsInside buffer pmt ↔ ∃ es, SplitsInto buffer es) ∧
      (∀ es, SplitsInto buffer es → WalksOnce buffer pmt es) ∧
      ((¬ ∃ es, SplitsInto buffer es) → CounterWraps buffer pmt ∧
        ∃ i, LoopReads buffer pmt i ∧ sectionLength buffer + 2 < i) := by
  refine ⟨⟨fun h => ?_, fun ⟨es, hs⟩ => hs.readsInside⟩, fun es hs => hs.walksOnce pmt,
    wraps_of_not_splits pmt⟩
  by_contra hs
  obtain ⟨-, i, hi, hlt⟩ := wraps_of_not_splits pmt hs
  exact absurd (h i (.inr (.inr hi))) (by omega)

end Zapper
