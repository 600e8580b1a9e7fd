import Zapper.Checksum
import Zapper.Lib.Channel

/-!
# Receiving sections

`m_sectionReceivedCallback` of `tdp_api.c` is called by the player when its section filter has put
something into the stream buffer. It takes one section out of the buffer, by the length in the
section's head, and hands it to the callback of the client if the checksum is right. Sections with
table id `0x70`, which carry no checksum, are handed on as they are. If the buffer holds less than
the head announces, it is emptied.

The stream buffer belongs to the player, whose code is not part of the repository: `StreamBuf` is
what the function calls, and `Fifo` is that these calls are those of a queue of bytes.
-/

namespace Zapper

open Memory

/-! ### The function -/

/-- `S_OK` and `E_FAIL`. -/
inductive HResult
  | ok
  | fail
  deriving DecidableEq

/-- `MV_PE_StreamBufGetFullness` and `MV_PE_StreamBufRead`, on the state `β` of the player, where
`none` is a result other than `S_OK`; `put` is the player's own side, the section filter. -/
structure StreamBuf (β : Type*) where
  getFullness : β → Option ℕ × β
  read : β → ℕ → Option (List UInt8) × β
  put : β → List UInt8 → β

/-- `SECTION_SIZE_INFO`. -/
def sectionSizeInfo : ℕ := 3

/-- `MY_SECTION_BUFFER_SIZE`. -/
def mySectionBufferSize : ℕ := 4099 * 8

/-- The bytes that are stored from an offset on. -/
def storeAt (buffer : Buffer) (pos : ℕ) (bytes : List UInt8) : Buffer := fun i =>
  if pos ≤ i then withTail bytes (fun k => buffer (pos + k)) (i - pos) else buffer i

/-- The size of the section behind its head. -/
def sectionSize (pBuffer : Buffer) : ℕ :=
  (pBuffer 2).toNat ||| (((pBuffer 1).toNat &&& 0x0F) <<< 8)

/-- What a call leaves behind: its result, the player, the table of the checksum, and the buffer
the client's callback has been called with. -/
structure Received (β : Type*) where
  result : HResult
  player : β
  table : Crc32Table
  handed : Option Buffer

variable {β : Type*}

/-- The buffer is emptied, behind a read that failed. -/
def StreamBuf.flush (dev : StreamBuf β) (fullness : ℕ) (player : β) : β :=
  let full := dev.getFullness player
  let read := dev.read full.2 (full.1.getD fullness)
  (dev.getFullness read.2).2

/-- The whole section is in the buffer: the checksum, and the client's callback. -/
def checkSection (registered : Bool) (table : Crc32Table) (pBuffer : Buffer) (player : β) :
    Received β :=
  let (table, checksum) :=
    if pBuffer 0 ≠ 0x70 then
      let (table, crc) := pWriteChecksum table pBuffer (sectionSize pBuffer + sectionSizeInfo)
      (table, crc.word)
    else (table, 0)
  if checksum ≠ 0 then ⟨.ok, player, table, none⟩
  else ⟨.ok, player, table, if registered then some pBuffer else none⟩

/-- `m_sectionReceivedCallback`: `registered` says whether `DemuxSectionFilterCallback` is set, and
`junk` is what the allocated buffer holds. -/
def sectionReceivedCallback (dev : StreamBuf β) (junk : Buffer) (registered : Bool)
    (table : Crc32Table) (player : β) : Received β :=
  match dev.getFullness player with
  | (none, player) => ⟨.fail, player, table, none⟩
  | (some fullness, player) =>
    if fullness = 0 then ⟨.fail, player, table, none⟩
    else if sectionSizeInfo ≤ fullness then
      match dev.read player sectionSizeInfo with
      | (none, player) => ⟨.fail, player, table, none⟩
      | (some head, player) =>
        let pBuffer := storeAt junk 0 head
        match dev.read player (sectionSize pBuffer) with
        | (none, player) => ⟨.fail, dev.flush fullness player, table, none⟩
        | (some body, player) => checkSection registered table (storeAt pBuffer 3 body) player
    else ⟨.ok, player, table, none⟩

/-! ### A queue of bytes -/

/-- The stream buffer is a queue of bytes, of which a call sees the `content`. -/
structure Fifo (dev : StreamBuf β) (content : β → List UInt8) : Prop where
  fullness : ∀ b, (dev.getFullness b).1 = some (content b).length ∧
    content (dev.getFullness b).2 = content b
  read : ∀ b n, n ≤ (content b).length → (dev.read b n).1 = some ((content b).take n) ∧
    content (dev.read b n).2 = (content b).drop n
  short : ∀ b n, (content b).length < n → (dev.read b n).1 = none ∧
    content (dev.read b n).2 = content b
  put : ∀ b l, content (dev.put b l) = content b ++ l

/-- The plainest such player. -/
def byteQueue : StreamBuf (List UInt8) where
  getFullness := fun l => (some l.length, l)
  read := fun l n => if n ≤ l.length then (some (l.take n), l.drop n) else (none, l)
  put := fun l m => l ++ m

theorem fifo_byteQueue : Fifo byteQueue id where
  fullness := fun _ => ⟨rfl, rfl⟩
  read := fun b n hn => by
    have hn : n ≤ b.length := hn
    simp [byteQueue, hn]
  short := fun b n hn => by
    have hn : ¬ n ≤ b.length := Nat.not_le.mpr hn
    simp [byteQueue, hn]
  put := fun _ _ => rfl

/-! ### What a call does -/

/-- The length of the section that starts with the given bytes, as its head announces it. -/
def announcedLength (bytes : List UInt8) : ℕ := 3 + sectionSize (withTail bytes fun _ => 0)

/-- A section is handed on: it has table id `0x70`, or the right checksum. -/
def PassesCheck (sec : List UInt8) : Prop := sec.head? = some 0x70 ∨ crc32 sec = 0#32

instance (sec : List UInt8) : Decidable (PassesCheck sec) :=
  inferInstanceAs (Decidable (_ ∨ _))

/-- The bytes are a section, from its head to the end announced there. -/
def Whole (sec : List UInt8) : Prop := 3 ≤ sec.length ∧ announcedLength sec = sec.length

instance (sec : List UInt8) : Decidable (Whole sec) := inferInstanceAs (Decidable (_ ∧ _))

theorem sectionSize_congr {b b' : Buffer} (h₁ : b 1 = b' 1) (h₂ : b 2 = b' 2) :
    sectionSize b = sectionSize b' := by rw [sectionSize, sectionSize, h₁, h₂]

/-- The size is one of 12 bits: a section fits the buffer it is read to. -/
theorem sectionSize_lt (b : Buffer) : sectionSize b < 4096 := by
  have hlow : (b 2).toNat < 2 ^ 12 := (b 2).toNat_lt.trans (by norm_num)
  have hhigh : ((b 1).toNat &&& 0x0F) <<< 8 < 2 ^ 12 := by
    have hand : (b 1).toNat &&& 0x0F ≤ 0x0F := Nat.and_le_right
    rw [Nat.shiftLeft_eq]
    omega
  exact Nat.or_lt_two_pow hlow hhigh

/-- A section fits the allocated buffer. -/
theorem announced_le (bytes : List UInt8) : announcedLength bytes ≤ mySectionBufferSize := by
  have hlt := sectionSize_lt (withTail bytes fun _ => 0)
  rw [announcedLength, mySectionBufferSize]
  omega

/-- The head decides. -/
theorem announced_take {bytes : List UInt8} {n : ℕ} (hn : 3 ≤ n) (hlen : 3 ≤ bytes.length) :
    announcedLength (bytes.take n) = announcedLength bytes := by
  have hbyte : ∀ i < 3, withTail (bytes.take n) (fun _ => 0) i = withTail bytes (fun _ => 0) i := by
    intro i hi
    rw [withTail, withTail, dif_pos (by rw [List.length_take]; omega), dif_pos (by omega),
      List.getElem_take]
  rw [announcedLength, announcedLength,
    sectionSize_congr (hbyte 1 (by norm_num)) (hbyte 2 (by norm_num))]

theorem withTail_of_lt {bytes : List UInt8} {rest : ℕ → UInt8} {i : ℕ} (h : i < bytes.length) :
    withTail bytes rest i = bytes[i] := dif_pos h

theorem storeAt_zero (junk : Buffer) (bytes : List UInt8) :
    storeAt junk 0 bytes = withTail bytes junk := by
  funext i
  simp [storeAt]

/-- The body behind the head. -/
theorem storeAt_withTail (junk : Buffer) (head body : List UInt8) :
    storeAt (withTail head junk) head.length body = withTail (head ++ body) junk := by
  funext i
  rcases Nat.lt_or_ge i head.length with hi | hi
  · have hboth : i < (head ++ body).length := by
      rw [List.length_append]
      omega
    rw [storeAt, if_neg (by omega), withTail_of_lt hi, withTail_of_lt hboth,
      List.getElem_append_left hi]
  · rw [storeAt, if_pos hi]
    rcases Nat.lt_or_ge (i - head.length) body.length with hlt | hge
    · have hboth : i < (head ++ body).length := by
        rw [List.length_append]
        omega
      rw [withTail_of_lt hlt, withTail_of_lt hboth, List.getElem_append_right hi]
    · have hboth : (head ++ body).length ≤ i := by
        rw [List.length_append]
        omega
      rw [withTail_of_le hge, withTail_of_le hboth,
        show head.length + (i - head.length) = i by omega, withTail_of_le hi]

/-- The number of bytes a call takes out of the queue: none if there is no head, else the section in
front, or all there is. -/
def cutSize (bytes : List UInt8) : ℕ := if bytes.length < 3 then 0 else announcedLength bytes

/-- What a call hands to the client, of the bytes it has taken out. -/
def handedOf (registered : Bool) (junk : Buffer) (sec : List UInt8) : Option Buffer :=
  if registered ∧ Whole sec ∧ PassesCheck sec then some (withTail sec junk) else none

/-- The announced size does not depend on what lies behind the head. -/
theorem sectionSize_withTail {bytes : List UInt8} (hlen : 3 ≤ bytes.length) (junk : Buffer) :
    sectionSizeInfo + sectionSize (withTail bytes junk) = announcedLength bytes := by
  have hbyte : ∀ i < 3, withTail bytes junk i = withTail bytes (fun _ => 0) i := fun i hi => by
    rw [withTail_of_lt (by omega), withTail_of_lt (by omega)]
  rw [announcedLength, sectionSize_congr (hbyte 1 (by norm_num)) (hbyte 2 (by norm_num)),
    sectionSizeInfo]

/-- **A whole section** is handed on exactly when it is accepted. -/
theorem checkSection_eq {registered : Bool} {table : Crc32Table} (hvalid : table.Valid)
    {sec : List UInt8} (hsec : Whole sec) (junk : Buffer) (player : β) :
    (checkSection registered table (withTail sec junk) player).result = .ok ∧
      (checkSection registered table (withTail sec junk) player).player = player ∧
      (checkSection registered table (withTail sec junk) player).table.Valid ∧
      (checkSection registered table (withTail sec junk) player).handed =
        handedOf registered junk sec := by
  obtain ⟨hlen, hwhole⟩ := hsec
  have hsize : sectionSize (withTail sec junk) + sectionSizeInfo = sec.length := by
    rw [Nat.add_comm, sectionSize_withTail hlen, hwhole]
  have hhead : sec.head? = some (withTail sec junk 0) := by
    rw [withTail_of_lt (by omega), List.head?_eq_getElem?, List.getElem?_eq_getElem]
  have hcrc : (pWriteChecksum table (withTail sec junk) sec.length).2.word = 0 ↔
      crc32 sec = 0#32 := by
    rw [pWriteChecksum_eq hvalid, block_withTail, Crc.word_ofWord_eq_zero_iff]
  have hsec : Whole sec := ⟨hlen, hwhole⟩
  unfold checkSection handedOf
  rw [hsize]
  by_cases h70 : withTail sec junk 0 = 0x70
  · have hacc : PassesCheck sec := .inl (by rw [hhead, h70])
    simp [h70, hvalid, hsec, hacc]
  · have hacc : PassesCheck sec ↔
        (pWriteChecksum table (withTail sec junk) sec.length).2.word = 0 := by
      rw [PassesCheck, hhead, hcrc]
      simp [h70]
    have hready : (pWriteChecksum table (withTail sec junk) sec.length).1.Valid :=
      hvalid.valid_ready
    by_cases hzero : (pWriteChecksum table (withTail sec junk) sec.length).2.word = 0
    · simp [h70, hzero, hready, hsec, hacc]
    · simp [h70, hzero, hready, hacc]

/-- Emptying the buffer leaves nothing in it. -/
theorem Fifo.content_flush {dev : StreamBuf β} {content : β → List UInt8} (hfifo : Fifo dev content)
    (fullness : ℕ) (b : β) : content (dev.flush fullness b) = [] := by
  obtain ⟨hfull, hb₁⟩ := hfifo.fullness b
  obtain ⟨-, hb₂⟩ := hfifo.read (dev.getFullness b).2 (content b).length (by rw [hb₁])
  simp only [StreamBuf.flush, hfull, Option.getD_some]
  exact (hfifo.fullness _).2.trans (hb₂.trans (by rw [hb₁, List.drop_length]))

/-- What a call does to a queue of bytes: what it takes out, and what it hands on. -/
structure CutsOff (content : β → List UInt8) (junk : Buffer) (registered : Bool) (b : β)
    (r : Received β) : Prop where
  valid : r.table.Valid
  left : content r.player = (content b).drop (cutSize (content b))
  handed : r.handed = handedOf registered junk ((content b).take (cutSize (content b)))
  fail : r.result = .fail ↔
    content b = [] ∨ 3 ≤ (content b).length ∧ (content b).length < announcedLength (content b)

theorem handedOf_of_not_whole {registered : Bool} {junk : Buffer} {sec : List UInt8}
    (h : ¬ Whole sec) : handedOf registered junk sec = none :=
  if_neg fun hall => h hall.2.1

theorem not_whole_nil : ¬ Whole [] := fun h => absurd h.1 (by simp)

/-- **What a call does**, to a queue of bytes. -/
theorem sectionReceivedCallback_cutsOff {dev : StreamBuf β} {content : β → List UInt8}
    (hfifo : Fifo dev content) {table : Crc32Table} (hvalid : table.Valid) (junk : Buffer)
    (registered : Bool) (b : β) :
    CutsOff content junk registered b (sectionReceivedCallback dev junk registered table b) := by
  obtain ⟨hfull, hb₁⟩ := hfifo.fullness b
  rcases hget : dev.getFullness b with ⟨f, b₁⟩
  rw [hget] at hfull hb₁
  obtain rfl : f = some (content b).length := hfull
  unfold sectionReceivedCallback
  simp only [hget]
  rcases Nat.lt_or_ge (content b).length 3 with hshort | hhead
  · -- nothing is taken out
    have hcut : cutSize (content b) = 0 := if_pos hshort
    have hsize : ¬ sectionSizeInfo ≤ (content b).length := Nat.not_le.mpr hshort
    have hnone : none = handedOf registered junk ((content b).take (cutSize (content b))) := by
      rw [hcut, List.take_zero, handedOf_of_not_whole not_whole_nil]
    have hleft : content b₁ = (content b).drop (cutSize (content b)) := by
      rw [hcut, List.drop_zero]
      exact hb₁
    by_cases hzero : (content b).length = 0
    · have hnil : content b = [] := List.length_eq_zero_iff.mp hzero
      rw [if_pos hzero]
      exact ⟨hvalid, hleft, hnone, by simp [hnil]⟩
    · have hne : content b ≠ [] := fun h => hzero (by simp [h])
      rw [if_neg hzero, if_neg hsize]
      exact ⟨hvalid, hleft, hnone, by simp [hne, hshort]⟩
  · have hcut : cutSize (content b) = announcedLength (content b) := if_neg (by omega)
    have hne : content b ≠ [] := fun h => by simp [h] at hhead
    rw [if_neg (by omega : (content b).length ≠ 0),
      if_pos (show sectionSizeInfo ≤ (content b).length from hhead)]
    obtain ⟨hread, hb₂⟩ := hfifo.read b₁ sectionSizeInfo (by rw [hb₁]; exact hhead)
    rcases hget₂ : dev.read b₁ sectionSizeInfo with ⟨f, b₂⟩
    rw [hget₂, hb₁] at hread hb₂
    obtain rfl : f = some ((content b).take 3) := hread
    have hb₂ : content b₂ = (content b).drop 3 := hb₂
    have hthree : ((content b).take 3).length = 3 := by
      rw [List.length_take]
      omega
    have hannounced : 3 + sectionSize (withTail ((content b).take 3) junk) =
        announcedLength (content b) := by
      rw [← announced_take le_rfl hhead, ← sectionSize_withTail hthree.ge junk, sectionSizeInfo]
    simp only [storeAt_zero]
    rcases Nat.lt_or_ge (content b).length (announcedLength (content b)) with hless | hfits
    · -- less than the head announces: the buffer is emptied
      obtain ⟨hread, -⟩ := hfifo.short b₂ (sectionSize (withTail ((content b).take 3) junk))
        (by rw [hb₂, List.length_drop]; omega)
      rcases hget₃ : dev.read b₂ (sectionSize (withTail ((content b).take 3) junk)) with ⟨f, b₃⟩
      rw [hget₃] at hread
      obtain rfl : f = none := hread
      refine ⟨hvalid, ?_, ?_, by simp [hhead, hless]⟩
      · rw [hcut, List.drop_of_length_le hless.le]
        exact hfifo.content_flush _ b₃
      · rw [hcut, List.take_of_length_le hless.le]
        exact (handedOf_of_not_whole fun h => absurd h.2 (by omega)).symm
    · obtain ⟨hread, hb₃⟩ := hfifo.read b₂ (sectionSize (withTail ((content b).take 3) junk))
        (by rw [hb₂, List.length_drop]; omega)
      rcases hget₃ : dev.read b₂ (sectionSize (withTail ((content b).take 3) junk)) with ⟨f, b₃⟩
      rw [hget₃, hb₂] at hread hb₃
      obtain rfl : f = some _ := hread
      have hsec : (content b).take 3 ++
          ((content b).drop 3).take (sectionSize (withTail ((content b).take 3) junk)) =
            (content b).take (announcedLength (content b)) := by
        rw [← hannounced, List.take_add]
      have hwhole : Whole ((content b).take (announcedLength (content b))) := by
        have hlen : ((content b).take (announcedLength (content b))).length =
            announcedLength (content b) := by
          rw [List.length_take]
          omega
        exact ⟨by omega, by rw [announced_take (by omega) hhead, hlen]⟩
      have hstore := storeAt_withTail junk ((content b).take 3)
        (((content b).drop 3).take (sectionSize (withTail ((content b).take 3) junk)))
      rw [hthree, hsec] at hstore
      simp only [hstore]
      obtain ⟨hresult, hplayer, htable, hhanded⟩ := checkSection_eq hvalid hwhole junk b₃
      refine ⟨htable, ?_, ?_, ?_⟩
      · rw [hplayer, hcut, ← hannounced, ← List.drop_drop]
        exact hb₃
      · rw [hhanded, hcut]
      · rw [hresult]
        simp [hne, hfits]

/-! ### Runs of the receiver -/

/-- What happens to the receiver: the section filter stores bytes, the player calls the receiver,
and the client sets or clears its callback. -/
inductive WireLabel
  | arrive (bytes : List UInt8)
  | event (junk : Buffer)
  | setCallback (registered : Bool)

/-- The receiver, and the buffers it has handed to the client. -/
structure Receiver (β : Type*) where
  player : β
  table : Crc32Table
  registered : Bool
  handed : List Buffer

namespace Receiver

/-- The receiver before anything has happened. -/
def start (registered : Bool) (b : β) : Receiver β := ⟨b, .initial, registered, []⟩

/-- One thing that happens. -/
def step (dev : StreamBuf β) (r : Receiver β) : WireLabel → Receiver β
  | .arrive bytes => { r with player := dev.put r.player bytes }
  | .event junk =>
    let received := sectionReceivedCallback dev junk r.registered r.table r.player
    { r with
      player := received.player
      table := received.table
      handed := r.handed ++ received.handed.toList }
  | .setCallback registered => { r with registered := registered }

/-- A run. -/
def run (dev : StreamBuf β) (r : Receiver β) (ls : List WireLabel) : Receiver β :=
  ls.foldl (step dev) r

end Receiver

/-- The bytes that arrive with a label. -/
def WireLabel.bytes : WireLabel → List UInt8
  | arrive bytes => bytes
  | _ => []

variable {dev : StreamBuf β} {content : β → List UInt8}

/-! ### Whatever arrives -/

/-- What is known of the receiver behind the arrival of `bytes`: they have been cut off piece by
piece, and what has been handed on are some of the pieces, in their order, all of them whole and
accepted. -/
structure HandsPieces (content : β → List UInt8) (bytes : List UInt8) (r : Receiver β) : Prop where
  valid : r.table.Valid
  pieces : ∃ cuts : List (List UInt8), bytes = cuts.flatten ++ content r.player ∧
    ∃ secs, secs.Sublist cuts ∧ (∀ sec ∈ secs, Whole sec ∧ PassesCheck sec) ∧
      List.Forall₂ (fun buffer sec => HoldsAt buffer 0 sec) r.handed secs

theorem handsPieces_step (hfifo : Fifo dev content) {bytes : List UInt8} {r : Receiver β}
    (h : HandsPieces content bytes r) (l : WireLabel) :
    HandsPieces content (bytes ++ l.bytes) (r.step dev l) := by
  obtain ⟨hvalid, cuts, hbytes, secs, hsub, hgood, hhanded⟩ := h
  cases l with
  | arrive more =>
    refine ⟨hvalid, cuts, ?_, secs, hsub, hgood, hhanded⟩
    rw [hbytes, List.append_assoc]
    exact congrArg _ (hfifo.put r.player more).symm
  | event junk =>
    have hcall := sectionReceivedCallback_cutsOff hfifo hvalid junk r.registered r.player
    have hhand : (r.step dev (.event junk)).handed = r.handed ++ (handedOf r.registered junk
        ((content r.player).take (cutSize (content r.player)))).toList := by
      rw [← hcall.handed]
      rfl
    have hleft : content (r.step dev (.event junk)).player =
        (content r.player).drop (cutSize (content r.player)) := hcall.left
    refine ⟨hcall.valid, cuts ++ [(content r.player).take (cutSize (content r.player))], ?_, ?_⟩
    · rw [hleft, List.flatten_append, List.flatten_singleton, List.append_assoc,
        List.take_append_drop, ← hbytes]
      exact List.append_nil bytes
    · rw [hhand, handedOf]
      split_ifs with hon
      · refine ⟨secs ++ [_], hsub.append (List.Sublist.refl _), ?_,
          List.rel_append hhanded (.cons (holdsAt_withTail _ _) .nil)⟩
        intro sec hsec
        rcases List.mem_append.mp hsec with hmem | hmem
        · exact hgood sec hmem
        · rw [List.mem_singleton.mp hmem]
          exact hon.2
      · refine ⟨secs, hsub.trans (List.sublist_append_left _ _), hgood, ?_⟩
        rwa [Option.toList_none, List.append_nil]
  | setCallback registered =>
    refine ⟨hvalid, cuts, ?_, secs, hsub, hgood, hhanded⟩
    rw [hbytes]
    exact List.append_nil _

/-- **Whatever arrives**, and whenever the player calls and the client sets its callback: the bytes
that have arrived are cut off piece by piece, and what is handed on are pieces in their order, each
at most once, whole sections with the right checksum. -/
theorem handsPieces_run (hfifo : Fifo dev content) {b : β} (hb : content b = [])
    (registered : Bool) (ls : List WireLabel) :
    HandsPieces content (ls.flatMap WireLabel.bytes)
      ((Receiver.start registered b).run dev ls) := by
  have hstart : HandsPieces content [] (Receiver.start registered b) :=
    ⟨Crc32Table.valid_initial, [], hb.symm, [], .slnil, by simp, .nil⟩
  have hrun : ∀ (ls : List WireLabel) (bytes : List UInt8) (r : Receiver β),
      HandsPieces content bytes r →
        HandsPieces content (bytes ++ ls.flatMap WireLabel.bytes) (r.run dev ls) := by
    intro ls
    induction ls with
    | nil =>
      intro bytes r h
      rwa [List.flatMap_nil, List.append_nil]
    | cons l ls ih =>
      intro bytes r h
      rw [List.flatMap_cons, ← List.append_assoc]
      exact ih _ _ (handsPieces_step hfifo h l)
  exact hrun ls [] _ hstart

/-- A section without a checksum, with the head of another one behind it. -/
def sectionAndHead : List UInt8 :=
  [0x70, 0x70, 0x05, 0xE0, 0x3B, 0x12, 0x45, 0x00, 0x02, 0xB0, 0x10]

/-- The section is handed on; of the other one there is only the head, and the buffer is emptied. -/
theorem handsPieces_sectionAndHead :
    HandsPieces id sectionAndHead ((Receiver.start true []).run byteQueue
      [.arrive sectionAndHead, .event fun _ => 0, .event fun _ => 0]) ∧
    ((Receiver.start true []).run byteQueue
      [.arrive sectionAndHead, .event fun _ => 0, .event fun _ => 0]).handed.length = 1 :=
  ⟨handsPieces_run fifo_byteQueue rfl true
    [.arrive sectionAndHead, .event fun _ => 0, .event fun _ => 0], by decide +kernel⟩

/-! ### Whole sections -/

/-- An operation of a channel of sections, as it happens to the receiver: a section arrives, or the
player calls, when the memory holds `junk`. -/
def WireLabel.ofOp : Channel.Op (List UInt8) × Buffer → WireLabel
  | (.send sec, _) => .arrive sec
  | (.receive, junk) => .event junk

/-- The receiver does what the channel does: the stream buffer holds the sections that wait, and of
those that have been taken, the accepted ones have been handed on. -/
structure FollowsChannel (content : β → List UInt8) (r : Receiver β)
    (c : Channel.State (List UInt8)) : Prop where
  valid : r.table.Valid
  registered : r.registered = true
  whole : ∀ sec ∈ c.pending, Whole sec
  waiting : content r.player = c.pending.flatten
  handed : List.Forall₂ (fun buffer sec => HoldsAt buffer 0 sec) r.handed
    (c.taken.filter fun sec => PassesCheck sec)

/-- A whole section in front is what a call takes. -/
theorem cutSize_append {sec : List UInt8} (hsec : Whole sec) (rest : List UInt8) :
    cutSize (sec ++ rest) = sec.length := by
  have hlen : ¬ (sec ++ rest).length < 3 := by
    have := hsec.1
    rw [List.length_append]
    omega
  rw [cutSize, if_neg hlen, ← hsec.2, ← announced_take hsec.1 (Nat.not_lt.mp hlen),
    List.take_left]

theorem followsChannel_step (hfifo : Fifo dev content) {r : Receiver β}
    {c : Channel.State (List UInt8)} (h : FollowsChannel content r c)
    (op : Channel.Op (List UInt8) × Buffer) (hop : ∀ sec ∈ op.1.message, Whole sec) :
    FollowsChannel content (r.step dev (.ofOp op)) (Channel.step c op.1) := by
  obtain ⟨hvalid, hregistered, hwhole, hwaiting, hhanded⟩ := h
  obtain ⟨op, junk⟩ := op
  cases op with
  | send sec =>
    refine ⟨hvalid, hregistered, ?_, ?_, hhanded⟩
    · intro sec' hsec'
      rcases List.mem_append.mp hsec' with hmem | hmem
      · exact hwhole sec' hmem
      · exact hop sec' hmem
    · show content (dev.put r.player sec) = (c.pending ++ [sec]).flatten
      rw [hfifo.put, hwaiting, List.flatten_append, List.flatten_singleton]
  | receive =>
    have hcall := sectionReceivedCallback_cutsOff hfifo hvalid junk r.registered r.player
    have hhand : (r.step dev (.event junk)).handed = r.handed ++ (handedOf r.registered junk
        ((content r.player).take (cutSize (content r.player)))).toList := by
      rw [← hcall.handed]
      rfl
    have hleft : content (r.step dev (.event junk)).player =
        (content r.player).drop (cutSize (content r.player)) := hcall.left
    rw [hwaiting] at hhand hleft
    obtain ⟨pending, taken⟩ := c
    cases pending with
    | nil =>
      rw [List.flatten_nil, List.take_nil, handedOf_of_not_whole not_whole_nil, Option.toList_none,
        List.append_nil] at hhand
      refine ⟨hcall.valid, hregistered, hwhole, hleft.trans (List.drop_nil), ?_⟩
      show List.Forall₂ _ (r.step dev (.event junk)).handed _
      rw [hhand]
      exact hhanded
    | cons sec rest =>
      have hsec : Whole sec := hwhole sec (by simp)
      rw [List.flatten_cons, cutSize_append hsec, List.take_left] at hhand
      rw [List.flatten_cons, cutSize_append hsec, List.drop_left] at hleft
      refine ⟨hcall.valid, hregistered, fun sec' hsec' =>
        hwhole sec' (List.mem_cons_of_mem sec hsec'), hleft, ?_⟩
      show List.Forall₂ _ (r.step dev (.event junk)).handed
        ((taken ++ [sec]).filter fun sec => PassesCheck sec)
      rw [hhand, List.filter_append, handedOf, hregistered]
      by_cases hacc : PassesCheck sec
      · rw [if_pos ⟨rfl, hsec, hacc⟩, List.filter_cons_of_pos (by simpa using hacc)]
        exact List.rel_append hhanded (.cons (holdsAt_withTail _ _) .nil)
      · rw [if_neg fun hall => hacc hall.2.2, List.filter_cons_of_neg (by simpa using hacc)]
        exact List.rel_append hhanded .nil

theorem followsChannel_run (hfifo : Fifo dev content) {b : β} (hb : content b = [])
    (ops : List (Channel.Op (List UInt8) × Buffer))
    (hops : ∀ sec ∈ Channel.sent (ops.map Prod.fst), Whole sec) :
    FollowsChannel content ((Receiver.start true b).run dev (ops.map WireLabel.ofOp))
      (Channel.run .empty (ops.map Prod.fst)) := by
  have hstart : FollowsChannel content (Receiver.start true b) .empty :=
    ⟨Crc32Table.valid_initial, rfl, by simp [Channel.State.empty], hb, .nil⟩
  have hstep : ∀ op ∈ ops, ∀ r c, FollowsChannel content r c →
      FollowsChannel content (r.step dev (.ofOp op)) (Channel.step c (Prod.fst op)) :=
    fun op hop r c h => followsChannel_step hfifo h op fun sec hsec =>
      hops sec (List.mem_flatMap.mpr ⟨op.1, List.mem_map_of_mem hop, hsec⟩)
  rw [Receiver.run, List.foldl_map]
  exact Channel.simulates hstep hstart

/-- What has been handed on, behind operations of the channel. -/
def Receiver.behind (dev : StreamBuf β) (b : β) (ops : List (Channel.Op (List UInt8) × Buffer)) :
    Receiver β :=
  (Receiver.start true b).run dev (ops.map WireLabel.ofOp)

/-- The sections that have arrived. -/
def arrived (ops : List (Channel.Op (List UInt8) × Buffer)) : List (List UInt8) :=
  Channel.sent (ops.map Prod.fst)

/-- **Each section once, in order**: at any time the client has been handed the accepted ones of the
sections that arrived first, and the others wait in the buffer; and when there have been as many
more calls as sections, it has been handed all the accepted ones. -/
theorem handed_of_whole (hfifo : Fifo dev content) {b : β} (hb : content b = [])
    (ops : List (Channel.Op (List UInt8) × Buffer)) (hops : ∀ sec ∈ arrived ops, Whole sec) :
    (∃ k, content (Receiver.behind dev b ops).player = ((arrived ops).drop k).flatten ∧
      List.Forall₂ (fun buffer sec => HoldsAt buffer 0 sec) (Receiver.behind dev b ops).handed
        (((arrived ops).take k).filter fun sec => PassesCheck sec)) ∧
    ∀ junks : List Buffer, (arrived ops).length ≤ junks.length →
      List.Forall₂ (fun buffer sec => HoldsAt buffer 0 sec)
        (Receiver.behind dev b (ops ++ junks.map (Prod.mk Channel.Op.receive))).handed
        ((arrived ops).filter fun sec => PassesCheck sec) := by
  have hsplit : ∀ ops : List (Channel.Op (List UInt8) × Buffer),
      (Channel.run .empty (ops.map Prod.fst)).taken ++
        (Channel.run .empty (ops.map Prod.fst)).pending = arrived ops := fun ops =>
    Channel.taken_append_pending .empty (ops.map Prod.fst)
  constructor
  · have hrun := followsChannel_run hfifo hb ops hops
    refine ⟨(Channel.run .empty (ops.map Prod.fst)).taken.length, ?_, ?_⟩
    · rw [← hsplit, List.drop_left]
      exact hrun.waiting
    · rw [← hsplit, List.take_left]
      exact hrun.handed
  · intro junks hjunks
    have hmap : (ops ++ junks.map (Prod.mk Channel.Op.receive)).map Prod.fst =
        ops.map Prod.fst ++ List.replicate junks.length .receive := by
      rw [List.map_append, List.map_map, ← List.map_const']
      rfl
    have hsent : arrived (ops ++ junks.map (Prod.mk Channel.Op.receive)) = arrived ops := by
      rw [arrived, hmap, Channel.sent, List.flatMap_append]
      exact (congrArg _ (Channel.sent_receives _)).trans (List.append_nil _)
    have hrun := followsChannel_run hfifo hb (ops ++ junks.map (Prod.mk Channel.Op.receive))
      (by rw [← arrived, hsent]; exact hops)
    have hdone : (Channel.run .empty
        ((ops ++ junks.map (Prod.mk Channel.Op.receive)).map Prod.fst)).pending = [] := by
      rw [hmap, Channel.run_append]
      refine Channel.pending_run_receives (le_trans ?_ hjunks)
      rw [← hsplit, List.length_append]
      omega
    have htaken := hsplit (ops ++ junks.map (Prod.mk Channel.Op.receive))
    rw [hdone, List.append_nil, hsent] at htaken
    rw [← htaken]
    exact hrun.handed

/-- A section without a checksum arrives, and is handed on with the next call. -/
theorem handed_of_whole_sample :
    List.Forall₂ (fun buffer sec => HoldsAt buffer 0 sec)
      (Receiver.behind byteQueue []
        ([(.send [0x70, 0x00, 0x01, 0x05], fun _ => 0)] ++
          [fun _ => 0].map (Prod.mk Channel.Op.receive))).handed [[0x70, 0x00, 0x01, 0x05]] :=
  (handed_of_whole fifo_byteQueue (b := []) rfl [(.send [0x70, 0x00, 0x01, 0x05], fun _ => 0)]
    (List.forall_mem_singleton.mpr ⟨by decide, by decide⟩)).2 [fun _ => 0] le_rfl

end Zapper
