import Zapper.SectionReceiver
import Zapper.Section.PmtDelivery

/-!
# Reception

From the bytes on the air to the tables. A section arrives as it was sent, or damaged behind its
head: within 32 consecutive bits, or in two single bits. Damaged sections are never handed on
(`handed_of_arrives`), so the slot of a program holds what the last of its sections said that
arrived unharmed (`tables_of_reception`).
-/

namespace Zapper

open Memory

/-! ### Damaged sections -/

/-- A section arrives as it was sent, or damaged behind its head. -/
def Arrives (sent got : List UInt8) : Prop :=
  got = sent ∨
    got.take 3 = sent.take 3 ∧ got.length = sent.length ∧ Damaged (blockBits sent) (blockBits got)

/-- Up to four consecutive bytes are within 32 bits. -/
theorem damaged_bytes (front back : List UInt8) {x y : List UInt8} (hlen : x.length = y.length)
    (hx : x.length ≤ 4) (hne : x ≠ y) :
    Damaged (blockBits (front ++ x ++ back)) (blockBits (front ++ y ++ back)) := by
  rw [blockBits_append, blockBits_append, blockBits_append, blockBits_append]
  refine .burst _ _ _ _ ?_ ?_ (blockBits_injective.ne hne)
  · rw [length_blockBits, length_blockBits, hlen]
  · rw [length_blockBits]
    omega

/-- What is sent: a whole section, with the checksum that it needs. -/
structure Checked (sec : List UInt8) : Prop where
  whole : Whole sec
  table : sec.head? ≠ some 0x70
  crc : crc32 sec = 0#32

section Arrives

variable {sent got : List UInt8}

theorem head?_take {l : List UInt8} : (l.take 3).head? = l.head? := by
  cases l <;> rfl

/-- The announced length is in the head, which is not damaged. -/
theorem Arrives.whole (h : Arrives sent got) (hsent : Whole sent) : Whole got := by
  rcases h with rfl | ⟨hhead, hlen, -⟩
  · exact hsent
  · obtain ⟨h3, hann⟩ := hsent
    refine ⟨by omega, ?_⟩
    rw [← announced_take le_rfl (by omega), hhead, announced_take le_rfl h3, hann, hlen]

/-- **The checksum tells**: what arrives is handed on exactly when it is what was sent. -/
theorem Arrives.accepted_iff (h : Arrives sent got) (hsent : Checked sent) :
    PassesCheck got ↔ got = sent := by
  constructor
  · intro hacc
    rcases h with heq | ⟨hhead, -, hdamage⟩
    · exact heq
    · have htable : got.head? ≠ some 0x70 := by
        rw [← head?_take, hhead, head?_take]
        exact hsent.table
      exact absurd (hsent.crc.trans (hacc.resolve_left htable).symm) hdamage.crc32_ne
  · rintro rfl
    exact .inr hsent.crc

end Arrives

/-- A section that is sent, and what arrives of it. -/
structure Transmission where
  sent : List UInt8
  got : List UInt8
  checked : Checked sent
  arrives : Arrives sent got

/-- The sections that have arrived unharmed. -/
def intact (ts : List Transmission) : List (List UInt8) :=
  (ts.filter fun t => t.got = t.sent).map Transmission.sent

/-- The accepted ones of what has arrived are the unharmed sections. -/
theorem filter_accepted (ts : List Transmission) :
    (ts.map Transmission.got).filter (fun sec => PassesCheck sec) = intact ts := by
  induction ts with
  | nil => rfl
  | cons t ts ih =>
    have hiff := t.arrives.accepted_iff t.checked
    rw [List.map_cons, intact]
    by_cases h : t.got = t.sent
    · rw [List.filter_cons_of_pos (by simpa using hiff.mpr h),
        List.filter_cons_of_pos (by simpa using h), List.map_cons, ih, h]
      rfl
    · rw [List.filter_cons_of_neg (by simpa using fun hacc => h (hiff.mp hacc)),
        List.filter_cons_of_neg (by simpa using h), ih]
      rfl

variable {β : Type*} {dev : StreamBuf β} {content : β → List UInt8}

/-- **Damaged sections are dropped, and only these**: at any time the client has been handed the
unharmed ones of the sections that arrived first, each once and in order, and after enough calls
all the unharmed ones. -/
theorem handed_of_arrives (hfifo : Fifo dev content) {b : β} (hb : content b = [])
    (ops : List (Channel.Op (List UInt8) × Buffer)) (ts : List Transmission)
    (hops : arrived ops = ts.map Transmission.got) :
    (∃ k, List.Forall₂ (fun buffer sec => HoldsAt buffer 0 sec) (Receiver.behind dev b ops).handed
        (intact (ts.take k))) ∧
    ∀ junks : List Buffer, ts.length ≤ junks.length →
      List.Forall₂ (fun buffer sec => HoldsAt buffer 0 sec)
        (Receiver.behind dev b (ops ++ junks.map (Prod.mk Channel.Op.receive))).handed
        (intact ts) := by
  have hwhole : ∀ sec ∈ arrived ops, Whole sec := by
    intro sec hsec
    rw [hops] at hsec
    obtain ⟨t, -, rfl⟩ := List.mem_map.mp hsec
    exact t.arrives.whole t.checked.whole
  obtain ⟨⟨k, -, hk⟩, hall⟩ := handed_of_whole hfifo hb ops hwhole
  constructor
  · refine ⟨k, ?_⟩
    rwa [hops, ← List.map_take, filter_accepted] at hk
  · intro junks hjunks
    have h := hall junks (by rw [hops, List.length_map]; exact hjunks)
    rwa [hops, filter_accepted] at h

/-! ### PMT sections -/

/-- A PMT section without program descriptors that is sent, and what arrives of it. -/
structure PmtTransmission where
  sec : PmtSection
  plain : sec.programInfo = []
  crc : crc32 sec.bytes = 0#32
  got : List UInt8
  arrives : Arrives sec.bytes got

/-- The sections that have arrived unharmed. -/
def intactPmts (ts : List PmtTransmission) : List PmtSection :=
  (ts.filter fun t => t.got = t.sec.bytes).map PmtTransmission.sec

/-- The last section of a program that has arrived unharmed. -/
def lastIntact (prn : ℕ) (ts : List PmtTransmission) : Option PmtSection :=
  ((intactPmts ts).filter fun sec => sec.programNumber.val = prn).getLast?

theorem PmtSection.length_bytes (sec : PmtSection) : sec.bytes.length = 3 + sec.length := by
  simp only [bytes, length, List.length_append, length_head, Crc.length_bytes]
  omega

theorem sectionSize_eq (buffer : Buffer) : sectionSize buffer = sectionLength buffer := by
  have hlow : (buffer 2).toNat < 2 ^ 8 := (buffer 2).toNat_lt
  rw [sectionSize, sectionLength, Nat.or_comm, Nat.shiftLeft_add_eq_or_of_lt hlow]

theorem PmtSection.whole_bytes (sec : PmtSection) : Whole sec.bytes := by
  refine ⟨by rw [sec.length_bytes]; omega, ?_⟩
  rw [announcedLength, sectionSize_eq, sec.sectionLength_bytes, sec.length_bytes]

/-- A PMT section with the right checksum is one that is sent. -/
theorem PmtTransmission.checked (t : PmtTransmission) : Checked t.sec.bytes where
  whole := t.sec.whole_bytes
  table := by simp [PmtSection.bytes, PmtSection.head, sectionHead]
  crc := t.crc

/-- The transmission, as one of any section. -/
def PmtTransmission.toTransmission (t : PmtTransmission) : Transmission where
  sent := t.sec.bytes
  got := t.got
  checked := t.checked
  arrives := t.arrives

theorem intact_pmts (ts : List PmtTransmission) :
    intact (ts.map PmtTransmission.toTransmission) = (intactPmts ts).map PmtSection.bytes := by
  rw [intact, intactPmts, List.filter_map, List.map_map, List.map_map]
  rfl

/-! ### The tables -/

/-- A section in a buffer, delivered to the callback. -/
structure DeliveryOf (d : Delivery) (sec : PmtSection) : Prop where
  holds : HoldsAt d.buffer 0 sec.bytes
  plain : sec.programInfo = []
  fuel : 2 ^ 16 ≤ d.fuel

theorem eq_withTail_of_holdsAt {buffer : Buffer} {bytes : List UInt8}
    (h : HoldsAt buffer 0 bytes) : buffer = withTail bytes buffer := by
  funext i
  rcases Nat.lt_or_ge i bytes.length with hi | hi
  · rw [withTail_of_lt hi, ← h i hi, Nat.zero_add]
  · rw [withTail_of_le hi]

section DeliveryOf

variable {d : Delivery} {sec : PmtSection}

theorem DeliveryOf.sectionLength (h : DeliveryOf d sec) :
    Zapper.sectionLength d.buffer = sec.length := by
  rw [eq_withTail_of_holdsAt h.holds]
  exact sec.sectionLength_bytes _

theorem DeliveryOf.splitsInto (h : DeliveryOf d sec) : SplitsInto d.buffer sec.entries := by
  rw [eq_withTail_of_holdsAt h.holds]
  exact sec.splitsInto h.plain _

/-- The program number and the table id are read where the section carries them. -/
theorem DeliveryOf.programNumber (h : DeliveryOf d sec) :
    Zapper.programNumber d.buffer = sec.programNumber.val ∧
      Table.ofTableId (d.buffer 0) = some .pmt := by
  have hholds := h.holds
  simp only [PmtSection.bytes, PmtSection.head, sectionHead, packed, bytes16,
    List.cons_append, List.nil_append, holdsAt_cons] at hholds
  obtain ⟨h0, -, -, h3, h4, -⟩ := hholds
  refine ⟨?_, by rw [h0]; rfl⟩
  rw [Zapper.programNumber, h3, h4]
  exact be16_bytes16 sec.programNumber.isLt

theorem DeliveryOf.pmtDelivery (h : DeliveryOf d sec) {pat : PAT}
    (hocc : Occurs pat sec.programNumber.val) : PmtDelivery pat d where
  pmt := h.programNumber.2
  occurs := by rwa [h.programNumber.1]
  splits := ⟨_, h.splitsInto⟩
  fuel := h.fuel

end DeliveryOf

/-- Lists that correspond end with elements that correspond. -/
theorem getLast?_of_forall₂ {α γ : Type*} {R : α → γ → Prop} {l : List α} {m : List γ}
    (h : List.Forall₂ R l m) {c : γ} (hc : m.getLast? = some c) :
    ∃ a, l.getLast? = some a ∧ R a c := by
  induction h with
  | nil => simp at hc
  | cons hR hrest ih =>
    cases hrest with
    | nil =>
      obtain rfl := Option.some.inj hc
      exact ⟨_, rfl, hR⟩
    | cons hR' hrest' =>
      rw [List.getLast?_cons_cons] at hc ⊢
      exact ih hc

theorem exists_of_forall₂ {α γ : Type*} {R : α → γ → Prop} {l : List α} {m : List γ}
    (h : List.Forall₂ R l m) {a : α} (ha : a ∈ l) : ∃ c ∈ m, R a c := by
  induction h with
  | nil => simp at ha
  | cons hR hrest ih =>
    rcases List.mem_cons.mp ha with rfl | hmem
    · exact ⟨_, List.mem_cons_self, hR⟩
    · obtain ⟨c, hc, hac⟩ := ih hmem
      exact ⟨c, List.mem_cons_of_mem _ hc, hac⟩

/-- The last section of a program, among the deliveries and among the sections. -/
theorem lastFor_of_forall₂ {ds : List Delivery} {secs : List PmtSection}
    (h : List.Forall₂ DeliveryOf ds secs) {prn : ℕ} {sec : PmtSection}
    (hlast : (secs.filter fun sec => sec.programNumber.val = prn).getLast? = some sec) :
    ∃ d, lastFor prn ds = some d ∧ DeliveryOf d sec := by
  refine getLast?_of_forall₂ (List.rel_filter (fun d sec hd => ?_) h) hlast
  simp [hd.programNumber.1]

/-- The callback is called with each buffer that is handed on. -/
def deliveries (fuel : ℕ) (patJunk : ℕ → PMT) (sdtJunk : ℕ → ServiceInfo) (buffers : List Buffer) :
    List Delivery :=
  buffers.map fun buffer => ⟨buffer, fuel, patJunk, sdtJunk⟩

variable {β : Type*} {dev : StreamBuf β} {content : β → List UInt8}

/-- **From the air to the tables.** PMT sections of programs of the PAT arrive, some of them
damaged, in any order and however the player's calls fall between them; when there have been enough
calls, the slot of each program holds what the last of its sections says that has arrived unharmed,
and the slots of programs without such a section are as they were. -/
theorem tables_of_reception (hfifo : Fifo dev content) {b : β} (hb : content b = []) {t : Tables}
    (hcount : t.pat.pmtCount < 2 ^ 16) (ts : List PmtTransmission)
    (hocc : ∀ tr ∈ ts, Occurs t.pat tr.sec.programNumber.val)
    (ops : List (Channel.Op (List UInt8) × Buffer))
    (hops : arrived ops = ts.map PmtTransmission.got) (junks : List Buffer)
    (hjunks : ts.length ≤ junks.length) {fuel : ℕ} (hfuel : 2 ^ 16 ≤ fuel) (patJunk : ℕ → PMT)
    (sdtJunk : ℕ → ServiceInfo) :
    ∃ t', deliverAll (deliveries fuel patJunk sdtJunk (Receiver.behind dev b
        (ops ++ junks.map (Prod.mk Channel.Op.receive))).handed) t = some t' ∧
      (∀ prn sec i, lastIntact prn ts = some sec → FirstSlot t.pat prn i →
        (t'.pat.pmts.cell i).Describes sec.entries ∧
          (t'.pat.pmts.cell i).sectionLength = sec.length) ∧
      ∀ i, (∀ sec ∈ intactPmts ts, ¬ FirstSlot t.pat sec.programNumber.val i) →
        t'.pat.pmts.cell i = t.pat.pmts.cell i := by
  obtain ⟨-, hall⟩ := handed_of_arrives hfifo hb ops
    (ts.map PmtTransmission.toTransmission) (by rw [hops, List.map_map]; rfl)
  have hhanded := hall junks (by rwa [List.length_map])
  rw [intact_pmts, List.forall₂_map_right_iff] at hhanded
  have hsent : ∀ sec ∈ intactPmts ts, sec.programInfo = [] ∧
      Occurs t.pat sec.programNumber.val := by
    intro sec hsec
    obtain ⟨tr, htr, rfl⟩ := List.mem_map.mp hsec
    exact ⟨tr.plain, hocc tr (List.mem_filter.mp htr).1⟩
  have hds : List.Forall₂ DeliveryOf (deliveries fuel patJunk sdtJunk
      (Receiver.behind dev b (ops ++ junks.map (Prod.mk Channel.Op.receive))).handed)
        (intactPmts ts) := by
    rw [deliveries, List.forall₂_map_left_iff]
    exact List.forall₂_iff_zip.mpr ⟨hhanded.length_eq, fun hab =>
      ⟨List.forall₂_zip hhanded hab, (hsent _ (List.of_mem_zip hab).2).1, hfuel⟩⟩
  obtain ⟨t', hrun, hheld⟩ := exists_holdsLast hcount fun d hd => by
    obtain ⟨sec, hsec, hof⟩ := exists_of_forall₂ hds hd
    exact hof.pmtDelivery (hsent sec hsec).2
  refine ⟨t', hrun, fun prn sec i hlast hfirst => ?_, fun i hi => ?_⟩
  · obtain ⟨d, hd, hof⟩ := lastFor_of_forall₂ hds hlast
    obtain ⟨hlength, hdescribes⟩ := hheld.filled prn d sec.entries i hd hof.splitsInto hfirst
    exact ⟨hdescribes, hlength.trans hof.sectionLength⟩
  · refine hheld.others i fun d hd => ?_
    obtain ⟨sec, hsec, hof⟩ := exists_of_forall₂ hds hd
    rw [hof.programNumber.1]
    exact hi sec hsec

/-! ### A run -/

/-- The section with its checksum. -/
def PmtSection.withChecksum (sec : PmtSection) : PmtSection :=
  { sec with
    crc := .ofWord (crc32 (sec.head ++ (sec.programInfo ++ sec.entries.flatMap EsEntry.bytes))) }

theorem PmtSection.crc32_withChecksum (sec : PmtSection) : crc32 sec.withChecksum.bytes = 0#32 := by
  have hbytes : sec.withChecksum.bytes =
      sec.head ++ (sec.programInfo ++ sec.entries.flatMap EsEntry.bytes) ++
        sec.withChecksum.crc.bytes := by
    simp [bytes, withChecksum, head, length]
  rw [hbytes]
  exact (crc32_append_eq_zero_iff _ _).mpr rfl

/-- The section of a program, unharmed. -/
def Program.clear (p : Program) : PmtTransmission where
  sec := p.pmtSection.withChecksum
  plain := rfl
  crc := p.pmtSection.crc32_withChecksum
  got := p.pmtSection.withChecksum.bytes
  arrives := .inl rfl

/-- The section of a program, with another version number. -/
def Program.disturbed (p : Program) : PmtTransmission where
  sec := p.pmtSection.withChecksum
  plain := rfl
  crc := p.pmtSection.crc32_withChecksum
  got := p.pmtSection.withChecksum.bytes.take 5 ++ [0xC3] ++
    p.pmtSection.withChecksum.bytes.drop 6
  arrives := .inr ⟨rfl, rfl, damaged_bytes (p.pmtSection.withChecksum.bytes.take 5)
    (p.pmtSection.withChecksum.bytes.drop 6) (x := [0xC1]) rfl (by decide) (by decide)⟩

/-- The section arrives, then once more, disturbed. -/
def Program.twice (p : Program) : List (Channel.Op (List UInt8) × Buffer) :=
  [(.send p.clear.got, fun _ => 0), (.send p.disturbed.got, fun _ => 0)]

theorem tables_of_reception_sample :
    ∃ t', deliverAll (deliveries (2 ^ 16) (fun _ => default) (fun _ => default)
      (Receiver.behind byteQueue [] (firstProgram.twice ++
        [fun _ => 0, fun _ => 0].map (Prod.mk Channel.Op.receive))).handed) sampleTables =
          some t' ∧ (t'.pat.pmts.cell 0).Describes firstProgram.entries := by
  have hocc : ∀ tr ∈ [firstProgram.clear, firstProgram.disturbed],
      Occurs sampleTables.pat tr.sec.programNumber.val := by
    intro tr htr
    have hsec : tr.sec.programNumber = 0x101 := by
      rcases List.mem_pair.mp htr with rfl | rfl <;> rfl
    rw [hsec]
    exact ⟨0, by decide, by decide⟩
  obtain ⟨t', hrun, hlast, -⟩ := tables_of_reception fifo_byteQueue (b := []) rfl (by decide) _ hocc
    firstProgram.twice rfl [fun _ => 0, fun _ => 0] le_rfl le_rfl (fun _ => default)
    (fun _ => default)
  refine ⟨t', hrun, (hlast 0x101 firstProgram.clear.sec 0 ?_ ⟨by decide, by simp⟩).1⟩
  have hclear : firstProgram.clear.got = firstProgram.clear.sec.bytes := rfl
  have hdisturbed : firstProgram.disturbed.got ≠ firstProgram.disturbed.sec.bytes := fun h =>
    absurd (congrArg (fun l => l[5]?) h) (by decide)
  simp only [lastIntact, intactPmts, hclear, hdisturbed, decide_true, decide_false,
    List.filter_cons_of_pos, List.filter_cons, List.filter_nil, Bool.false_eq_true, if_false,
    List.map_cons, List.map_nil]
  rfl

end Zapper
