import Zapper.Section.Format

/-!
# The service description table

The format of an SDT section, and what `parse_SDT` makes of it. The walk over the services is
always right: every service gets a slot, in section order, with its id and the length of its
descriptor loop (`parseSDT_bytes`, `serviceAt_serviceId`). The service type and the name are
read at fixed places behind the start of the descriptor loop, without looking at descriptor
tags, and so are right exactly when the service descriptor is the first descriptor of the loop
(`parseSDT_lists_iff`).
-/

namespace Zapper

open Memory

/-- A descriptor other than the service descriptor. -/
structure Descriptor where
  tag : UInt8
  tag_ne : tag ≠ 0x48
  payload : List UInt8
  payload_le : payload.length ≤ 255

/-- The bytes of a descriptor: tag, length, payload. -/
def Descriptor.bytes (d : Descriptor) : List UInt8 :=
  d.tag :: UInt8.ofNat d.payload.length :: d.payload

/-- The service descriptor, with tag `0x48`. -/
structure ServiceDescriptor where
  serviceType : UInt8
  provider : List UInt8
  name : List UInt8
  length_le : 3 + provider.length + name.length ≤ 255

/-- The bytes of a service descriptor. -/
def ServiceDescriptor.bytes (d : ServiceDescriptor) : List UInt8 :=
  [0x48, UInt8.ofNat (3 + d.provider.length + d.name.length), d.serviceType,
    UInt8.ofNat d.provider.length] ++ d.provider ++ UInt8.ofNat d.name.length :: d.name

/-- A service of an SDT section: its descriptor loop holds one service descriptor, somewhere
among other descriptors. -/
structure SdtService where
  serviceId : Fin 65536
  eitFlags : UInt8
  runningStatus : Fin 16
  before : List Descriptor
  service : ServiceDescriptor
  after : List Descriptor
  loop_lt : (before.flatMap Descriptor.bytes ++ service.bytes ++
    after.flatMap Descriptor.bytes).length < 4096

namespace SdtService

/-- The descriptor loop. -/
def loop (s : SdtService) : List UInt8 :=
  s.before.flatMap Descriptor.bytes ++ s.service.bytes ++ s.after.flatMap Descriptor.bytes

/-- The bytes of a service. -/
def bytes (s : SdtService) : List UInt8 :=
  bytes16 s.serviceId ++ [s.eitFlags] ++ packed 4 s.runningStatus s.loop.length ++ s.loop

@[simp]
theorem length_bytes (s : SdtService) : s.bytes.length = s.loop.length + 5 := by
  simp [bytes]
  omega

/-- What the table should hold for a service. -/
def info (s : SdtService) : ServiceInfo where
  serviceId := s.serviceId
  serviceType := s.service.serviceType
  descriptorsLoopLength := s.loop.length
  serviceName := s.service.name ++ [0]

/-- The same service with another service type. -/
def withType (t : UInt8) (s : SdtService) : SdtService :=
  { s with
    service := { s.service with serviceType := t }
    loop_lt := by simpa [ServiceDescriptor.bytes] using s.loop_lt }

theorem loop_withType (t : UInt8) (s : SdtService) :
    (s.withType t).loop.length = s.loop.length := by
  simp [loop, withType, ServiceDescriptor.bytes]

end SdtService

/-- An SDT section. -/
structure SdtSection where
  flags : Fin 16
  transportStreamId : Fin 65536
  version : UInt8
  sectionNumber : UInt8
  lastSectionNumber : UInt8
  originalNetworkId : Fin 65536
  reserved : UInt8
  services : List SdtService
  length_lt : 12 + (services.flatMap SdtService.bytes).length < 4096
  crc : Crc

namespace SdtSection

variable (sec : SdtSection)

/-- The value of the section length field. -/
def length : ℕ := 12 + (sec.services.flatMap SdtService.bytes).length

/-- The eleven bytes in front of the services. -/
def head : List UInt8 :=
  sectionHead 0x42 sec.flags sec.length ++ bytes16 sec.transportStreamId ++
    [sec.version, sec.sectionNumber, sec.lastSectionNumber] ++ bytes16 sec.originalNetworkId ++
      [sec.reserved]

/-- The section as it is broadcast. -/
def bytes : List UInt8 :=
  sec.head ++ (sec.services.flatMap SdtService.bytes ++ sec.crc.bytes)

@[simp]
theorem length_head : sec.head.length = 11 := rfl

/-- The same section with the given type for all its services. -/
def withType (t : UInt8) : SdtSection :=
  { sec with
    services := sec.services.map (SdtService.withType t)
    length_lt := by
      have h : ((sec.services.map (SdtService.withType t)).flatMap SdtService.bytes).length =
          (sec.services.flatMap SdtService.bytes).length := by
        simp [List.length_flatMap, Function.comp_def, SdtService.loop_withType]
      rw [h]
      exact sec.length_lt }

/-- The sections differ at most in the service types, and in bytes the parser does not read. -/
def SameButTypes (sec' : SdtSection) : Prop :=
  sec'.services.map (SdtService.withType 0) = sec.services.map (SdtService.withType 0)

theorem sameButTypes_withType (t : UInt8) : sec.SameButTypes (sec.withType t) := by
  simp [SameButTypes, withType, SdtService.withType, Function.comp_def]

variable (rest : Buffer)

theorem sectionLength_bytes : sectionLength (withTail sec.bytes rest) = sec.length := by
  have h := holdsAt_withTail sec.bytes rest
  simp only [bytes, head, List.append_assoc] at h
  exact sectionLength_of_holdsAt sec.length_lt (holdsAt_append.mp h).1

theorem holdsAt_services :
    HoldsAt (withTail sec.bytes rest) 11 (sec.services.flatMap SdtService.bytes) := by
  have h := holdsAt_withTail sec.bytes rest
  rw [bytes, holdsAt_append, holdsAt_append] at h
  exact h.2.1

theorem length_services_le : sec.services.length ≤ 1000 := by
  have hlt := sec.length_lt
  have hle : 5 * sec.services.length ≤ (sec.services.flatMap SdtService.bytes).length := by
    induction sec.services with
    | nil => simp
    | cons s ss ih =>
      rw [List.length_cons, List.flatMap_cons, List.length_append, SdtService.length_bytes]
      omega
  omega

end SdtSection

/-! ### The walk over the services -/

/-- The services found at the given places are stored to consecutive slots. -/
theorem foldl_parseSDTService (buffer : Buffer) (ps : List ℕ) (sdt : SDT) (j : ℕ)
    (hj : j + ps.length < 2 ^ 16) :
    ps.foldl (fun st p => parseSDTService buffer p st) (j, sdt) =
      (j + ps.length,
        { sdt with
          services := sdt.services.modifyFrom j (ps.map fun p _ => serviceAt buffer p) }) := by
  induction ps generalizing sdt j with
  | nil => rfl
  | cons p ps ih =>
    rw [List.length_cons] at hj
    rw [List.foldl_cons, parseSDTService, Nat.mod_eq_of_lt (by omega), ih _ _ (by omega),
      List.length_cons, List.map_cons, Block.modifyFrom, Nat.add_right_comm, Nat.add_assoc]

theorem descriptorsLoopLength_of_holdsAt {buffer : Buffer} {s : SdtService} {p : ℕ}
    (h : HoldsAt buffer p s.bytes) : descriptorsLoopLength buffer p = s.loop.length := by
  simp only [SdtService.bytes, bytes16, packed, List.cons_append, List.nil_append,
    holdsAt_cons] at h
  obtain ⟨-, -, -, h₃, h₄, -⟩ := h
  rw [descriptorsLoopLength, h₃, h₄]
  exact be16_and_packed (k := 4) (by norm_num) s.runningStatus.isLt s.loop_lt

theorem serviceAt_serviceId {buffer : Buffer} {s : SdtService} {p : ℕ}
    (h : HoldsAt buffer p s.bytes) : (serviceAt buffer p).serviceId = s.serviceId := by
  simp only [SdtService.bytes, bytes16, List.cons_append, List.nil_append, holdsAt_cons] at h
  obtain ⟨h₀, h₁, -⟩ := h
  rw [serviceAt, h₀, h₁]
  exact be16_bytes16 s.serviceId.isLt

/-- The places at which the services of a section start. -/
def SdtSection.starts (sec : SdtSection) : List ℕ :=
  RecordWalk.starts SdtService.bytes 11 sec.services

@[simp]
theorem SdtSection.length_starts (sec : SdtSection) :
    sec.starts.length = sec.services.length := RecordWalk.length_starts _ _ _

/-- **What `parse_SDT` makes of a section**: it terminates, with one slot stored for each
service, in section order, also where no slot was allocated. -/
theorem parseSDT_bytes (sec : SdtSection) (rest : Buffer) (junk : ℕ → ServiceInfo) (count : ℕ) :
    ∃ fuel, parseSDT fuel junk (withTail sec.bytes rest) count =
      some ⟨sec.length, (malloc junk count).modifyFrom 0
        (sec.starts.map fun p _ => serviceAt (withTail sec.bytes rest) p)⟩ := by
  have hlt := sec.length_lt
  have hle := sec.length_services_le
  have hleft : (((sec.length : ℤ) - 12) % 2 ^ 16).toNat =
      (sec.services.flatMap SdtService.bytes).length := by
    rw [SdtSection.length]
    omega
  have hwalk : WhileLoop.Exits RecordWalk.more (parseSDTPass (withTail sec.bytes rest))
      ⟨(sec.services.flatMap SdtService.bytes).length, 11, (0, ⟨sec.length, malloc junk count⟩)⟩
      ⟨0, 11 + (sec.services.flatMap SdtService.bytes).length,
        sec.starts.foldl (fun st p => parseSDTService (withTail sec.bytes rest) p st)
          (0, ⟨sec.length, malloc junk count⟩)⟩ := by
    refine RecordWalk.exits_of_holdsAt (fun s _ p hs => ?_) (fun s _ => by simp) (by omega)
      (sec.holdsAt_services rest)
    rw [descriptorsLoopLength_of_holdsAt hs, SdtService.length_bytes]
  obtain ⟨fuel, hfuel⟩ := hwalk
  refine ⟨fuel, ?_⟩
  rw [foldl_parseSDTService _ _ _ _ (by rw [sec.length_starts]; omega)] at hfuel
  rw [parseSDT, parseSDTStart, sec.sectionLength_bytes, hleft, hfuel]
  rfl

/-! ### How many services are stored -/

/-- The places at which `parse_SDT` finds the services in a buffer, well-formed or not. -/
def servicePlaces (fuel : ℕ) (buffer : Buffer) : Option (List ℕ) :=
  RecordWalk.places 16 (fun p => descriptorsLoopLength buffer p + 5) fuel
    (((sectionLength buffer : ℤ) - 12) % 2 ^ 16).toNat 11

/-- How many services there are in a buffer. -/
def serviceCount (fuel : ℕ) (buffer : Buffer) : Option ℕ :=
  (servicePlaces fuel buffer).map List.length

/-- Storing services one after the other: which slots have been stored to. -/
private theorem foldl_parseSDTService_written (buffer : Buffer) (count len : ℕ)
    (junk : ℕ → ServiceInfo) (ps : List ℕ) :
    let st := ps.foldl (fun st p => parseSDTService buffer p st) (0, ⟨len, malloc junk count⟩)
    st.1 = ps.length % 2 ^ 16 ∧ st.2.services.size = count ∧
      ∀ i, st.2.services.written i = true ↔ i < ps.length ∧ i < 2 ^ 16 := by
  induction ps using List.reverseRecOn with
  | nil => simp [malloc]
  | append_singleton ps p ih =>
    obtain ⟨hj, hsize, hwritten⟩ := ih
    rw [List.foldl_append, List.foldl_cons, List.foldl_nil, List.length_append,
      List.length_singleton]
    generalize ps.foldl (fun st p => parseSDTService buffer p st) _ = st at *
    simp only [parseSDTService]
    refine ⟨by rw [hj]; omega, by rw [Block.size_modify, hsize], fun i => ?_⟩
    rw [Block.written_modify, hwritten, hj]
    by_cases hlt : ps.length < 2 ^ 16
    · rw [Nat.mod_eq_of_lt hlt]
      omega
    · -- the index has wrapped around: its slot has been stored to before
      have := Nat.mod_lt ps.length (show 0 < 2 ^ 16 by norm_num)
      omega

/-- **Which slots a call of `parse_SDT` stores to**, for every buffer: as many as there are
services, however many were allocated. -/
theorem parseSDT_written {fuel count : ℕ} {junk : ℕ → ServiceInfo} {buffer : Buffer} {t : SDT}
    (h : parseSDT fuel junk buffer count = some t) :
    ∃ n, serviceCount fuel buffer = some n ∧ t.services.size = count ∧
      ∀ i, t.services.written i = true ↔ i < n ∧ i < 2 ^ 16 := by
  obtain ⟨c, hc, rfl⟩ := Option.map_eq_some_iff.mp h
  have hacc : (WhileLoop.run RecordWalk.more (parseSDTPass buffer) fuel
      (parseSDTStart junk buffer count)).map RecordWalk.Cursor.acc = some c.acc := by
    rw [hc, Option.map_some]
  rw [parseSDTPass, parseSDTStart, RecordWalk.run_acc] at hacc
  obtain ⟨ps, hps, hfold⟩ := Option.map_eq_some_iff.mp hacc
  obtain ⟨-, hsize, hwritten⟩ :=
    foldl_parseSDTService_written buffer count (sectionLength buffer) junk ps
  refine ⟨ps.length, ?_, hfold ▸ hsize, hfold ▸ hwritten⟩
  rw [serviceCount, servicePlaces, hps, Option.map_some]

/-! ### When the table lists the services of the section -/

/-- The table holds exactly these services in its first slots, in this order. -/
def SDT.Lists (sdt : SDT) (services : List SdtService) : Prop :=
  sdt.services.FilledTo services.length ∧
    ∀ k, (hk : k < services.length) → sdt.services.cell k = services[k].info

/-- `parse_SDT` terminates on this buffer and leaves a table behind that lists the services. -/
def ParsesSDT (buffer : Buffer) (junk : ℕ → ServiceInfo) (count : ℕ)
    (services : List SdtService) : Prop :=
  ∃ fuel t, parseSDT fuel junk buffer count = some t ∧ t.Lists services

/-- The table lists the services exactly when each of them is read right where it lies. -/
theorem parsesSDT_iff {sec : SdtSection} {rest : Buffer} {junk : ℕ → ServiceInfo} {count : ℕ} :
    ParsesSDT (withTail sec.bytes rest) junk count sec.services ↔
      ∀ k, (hs : k < sec.starts.length) → (hk : k < sec.services.length) →
        serviceAt (withTail sec.bytes rest) sec.starts[k] = sec.services[k].info := by
  obtain ⟨fuel, hfuel⟩ := parseSDT_bytes sec rest junk count
  have hcell : ∀ k, (hs : k < sec.starts.length) →
      ((malloc junk count).modifyFrom 0
        (sec.starts.map fun p _ => serviceAt (withTail sec.bytes rest) p)).cell k =
          serviceAt (withTail sec.bytes rest) sec.starts[k] := by
    intro k hs
    have hk : k < (sec.starts.map fun p (_ : ServiceInfo) =>
      serviceAt (withTail sec.bytes rest) p).length := by simpa using hs
    have h := Block.cell_modifyFrom (malloc junk count) 0 hk
    simpa using h
  constructor
  · rintro ⟨m, t, ht, -, hlists⟩ k hs hk
    rw [parseSDT_unique ht hfuel] at hlists
    rw [← hcell k hs, hlists k hk]
  · intro h
    refine ⟨fuel, _, hfuel, fun k hk => ?_, fun k hk => ?_⟩
    · rw [Block.written_modifyFrom]
      left
      simpa using hk
    · have hs : k < sec.starts.length := by simpa using hk
      exact (hcell k hs).trans (h k hs hk)

/-- Names are copied byte by byte. -/
theorem map_range_of_holdsAt {buffer : Buffer} {p : ℕ} {l : List UInt8}
    (h : HoldsAt buffer p l) : (List.range l.length).map (fun i => buffer (p + i)) = l := by
  refine List.ext_getElem (by simp) fun i _ hi => ?_
  simp [h i hi]

/-- A service whose loop starts with the service descriptor is read right. -/
theorem serviceAt_of_before_eq_nil {buffer : Buffer} {s : SdtService} {p : ℕ}
    (hbefore : s.before = []) (h : HoldsAt buffer p s.bytes) : serviceAt buffer p = s.info := by
  have hid := serviceAt_serviceId h
  have hloop := descriptorsLoopLength_of_holdsAt h
  have hle := s.service.length_le
  simp only [SdtService.bytes, SdtService.loop, hbefore, ServiceDescriptor.bytes, bytes16, packed,
    List.flatMap_nil, List.cons_append, List.nil_append, List.append_assoc, holdsAt_cons,
    holdsAt_append] at h
  obtain ⟨-, -, -, -, -, -, -, h₇, h₈, -, h₉, hname, -⟩ := h
  have hprovider : (buffer (p + 8)).toNat = s.service.provider.length := by
    rw [h₈, UInt8.toNat_ofNat']
    omega
  have hlen : (buffer (p + 9 + s.service.provider.length)).toNat = s.service.name.length := by
    rw [h₉, UInt8.toNat_ofNat']
    omega
  rw [serviceAt] at hid ⊢
  simp only [hprovider, hlen, hloop, h₇] at hid ⊢
  rw [hid, SdtService.info]
  refine congrArg _ (congrArg (· ++ [0]) ?_)
  refine Eq.trans (congrArg₂ List.map (funext fun i => congrArg buffer ?_) rfl)
    (map_range_of_holdsAt hname)
  omega

/-- The byte that is taken for the service type when other descriptors come first: the third
byte of the loop, which lies in front of the content of the service descriptor. -/
def typeByte (before : List Descriptor) : UInt8 :=
  (before.flatMap Descriptor.bytes ++ [0x48]).getD 2 0

/-- With other descriptors in front, the byte read as the service type has nothing to do with
the service descriptor. -/
theorem serviceAt_serviceType_of_before_ne_nil {buffer : Buffer} {s : SdtService} {p : ℕ}
    (hbefore : s.before ≠ []) (h : HoldsAt buffer p s.bytes) :
    (serviceAt buffer p).serviceType = typeByte s.before := by
  have hlen : 2 < (s.before.flatMap Descriptor.bytes ++ [0x48]).length := by
    obtain ⟨d, ds, hds⟩ := List.exists_cons_of_ne_nil hbefore
    rw [hds, List.flatMap_cons, Descriptor.bytes]
    simp only [List.length_append, List.length_cons, List.length_nil]
    omega
  have hbytes : s.bytes = (bytes16 s.serviceId ++ [s.eitFlags] ++
      packed 4 s.runningStatus s.loop.length) ++
        ((s.before.flatMap Descriptor.bytes ++ [0x48]) ++
          (s.service.bytes.tail ++ s.after.flatMap Descriptor.bytes)) := by
    simp [SdtService.bytes, SdtService.loop, ServiceDescriptor.bytes]
  rw [hbytes, holdsAt_append] at h
  have htype := (holdsAt_append.mp h.2).1 2 hlen
  rw [typeByte, List.getD_eq_getElem?_getD, List.getElem?_eq_getElem hlen, Option.getD_some,
    ← htype]
  rfl

/-- Each service lies at its place. -/
theorem SdtSection.holdsAt_starts (sec : SdtSection) (rest : Buffer) {k : ℕ}
    (hs : k < sec.starts.length) (hk : k < sec.services.length) :
    HoldsAt (withTail sec.bytes rest) sec.starts[k] sec.services[k].bytes :=
  RecordWalk.holdsAt_starts (sec.holdsAt_services rest) hs hk

/-- Sections that differ in the service types only have the same descriptors in front of the
service descriptors. -/
theorem SdtSection.SameButTypes.before_eq_nil {sec sec' : SdtSection} (h : sec.SameButTypes sec')
    (hsec : ∀ s ∈ sec.services, s.before = []) : ∀ s ∈ sec'.services, s.before = [] := by
  intro s hs
  have hmem : s.withType 0 ∈ sec.services.map (SdtService.withType 0) :=
    h ▸ List.mem_map_of_mem hs
  obtain ⟨s', hs', heq⟩ := List.mem_map.mp hmem
  exact (congrArg SdtService.before heq).symm.trans (hsec s' hs')

/-- **`parse_SDT` is right, whatever the service types are, exactly when every service
descriptor is the first descriptor of its loop.** -/
theorem parseSDT_lists_iff (sec : SdtSection) (count : ℕ) :
    (∀ sec' : SdtSection, sec.SameButTypes sec' → ∀ (rest : Buffer) (junk : ℕ → ServiceInfo),
      ParsesSDT (withTail sec'.bytes rest) junk count sec'.services) ↔
        ∀ s ∈ sec.services, s.before = [] := by
  constructor
  · intro hall s hmem
    by_contra hbefore
    obtain ⟨k, hk, rfl⟩ := List.mem_iff_getElem.mp hmem
    -- give all services a type the parser does not find
    obtain ⟨t, ht⟩ : ∃ t, t ≠ typeByte sec.services[k].before := by
      rcases eq_or_ne (typeByte sec.services[k].before) 0 with h | h
      · exact ⟨1, by rw [h]; decide⟩
      · exact ⟨0, h.symm⟩
    have hparses := hall (sec.withType t) (sec.sameButTypes_withType t) (fun _ => 0)
      fun _ => default
    have hk' : k < (sec.withType t).services.length := by simpa [SdtSection.withType] using hk
    have hs' : k < (sec.withType t).starts.length := by simpa using hk'
    have hsvc : (sec.withType t).services[k] = sec.services[k].withType t := by
      simp [SdtSection.withType]
    have hread := parsesSDT_iff.mp hparses k hs' hk'
    have hholds := (sec.withType t).holdsAt_starts (fun _ => 0) hs' hk'
    rw [hsvc] at hread hholds
    have htype := serviceAt_serviceType_of_before_ne_nil
      (s := sec.services[k].withType t) hbefore hholds
    rw [hread] at htype
    exact ht htype
  · intro hbefore sec' hsame rest junk
    refine parsesSDT_iff.mpr fun k hs hk => ?_
    exact serviceAt_of_before_eq_nil (hsame.before_eq_nil hbefore _ (List.getElem_mem hk))
      (sec'.holdsAt_starts rest hs hk)

/-- A service whose loop starts with a private data descriptor. -/
def hiddenService : SdtService where
  serviceId := 1
  eitFlags := 0xFC
  runningStatus := 8
  before := [⟨0x5F, by decide, [0, 0, 0, 0x28], by decide⟩]
  service := ⟨1, [], [0x41], by decide⟩
  after := []
  loop_lt := by decide

/-- A section with this service only. -/
def hiddenSection : SdtSection where
  flags := 0xF
  transportStreamId := 1
  version := 0xC1
  sectionNumber := 0
  lastSectionNumber := 0
  originalNetworkId := 1
  reserved := 0xFF
  services := [hiddenService]
  length_lt := by decide
  crc := ⟨0, 0, 0, 0⟩

/-- The first byte of the private data is taken for the service type. -/
theorem not_forall_parsesSDT : ¬ ∀ (sec : SdtSection) (count : ℕ) (rest : Buffer)
    (junk : ℕ → ServiceInfo), sec.services.length ≤ count →
      ParsesSDT (withTail sec.bytes rest) junk count sec.services := by
  intro h
  obtain ⟨fuel, t, ht, -, hlists⟩ := h hiddenSection 1 (fun _ => 0) (fun _ => default) (by decide)
  have hrun : (parseSDT 1 (fun _ => default) (withTail hiddenSection.bytes fun _ => 0) 1).map
      (fun sdt => (sdt.services.cell 0).serviceType) = some 0 := by decide
  obtain ⟨u, hu, htype⟩ := Option.map_eq_some_iff.mp hrun
  have hslot := hlists 0 (by decide)
  rw [parseSDT_unique ht hu] at hslot
  rw [hslot] at htype
  exact absurd htype (by decide)

end Zapper
