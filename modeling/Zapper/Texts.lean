import Zapper.Lib.Printf
import Zapper.Graphics
import Zapper.Section.Pmt

/-!
# The texts of the graphics controller

The strings that `render_loop` and `graphics_init` build with `sprintf`, each in a buffer of fixed
size on the stack. The PIDs and the number of a program in the list always fit. The other three
texts fit for short values only (`fits_iff`): a line of the program list if the name of the service
is short enough, the program number of the banner if it has three digits at most, and the file name
of a volume image if its index has one digit. `graphics_init` also builds the name of the image with
index 10.
-/

namespace Zapper

open Memory CString

/-- A text, with the data it is built from. -/
inductive Text
  | listLine (i : ℕ) (service : ServiceInfo)
  | number (orderProgNum : ℕ)
  | audioPid (pid : ℕ)
  | videoPid (pid : ℕ)
  | prNumber (progNum : ℕ)
  | fileName (i : ℕ)

/-- The name of a service as `%s` prints it: up to the first zero. -/
def ServiceInfo.printedName (service : ServiceInfo) : List Char :=
  (service.serviceName.takeWhile (· ≠ 0)).map fun b => Char.ofNat b.toNat

namespace Text

/-- What `sprintf` writes. -/
def content : Text → List Char
  | listLine i service =>
    sprintf "%u. Service name: %s, Stream type: %u".toList
      [.num (i + 1), .str service.printedName, .num service.serviceType.toNat]
  | number orderProgNum => sprintf "%u".toList [.num orderProgNum]
  | audioPid pid => sprintf "Audio PID: %u".toList [.num pid]
  | videoPid pid =>
    if pid = noPid then sprintf "Video PID: /".toList []
    else sprintf "Video PID: %u".toList [.num pid]
  | prNumber progNum => sprintf "Program number: %u".toList [.num progNum]
  | fileName i => sprintf "volume/volume_%u.png".toList [.num i]

/-- The size of the buffer. -/
def bufferSize : Text → ℕ
  | listLine _ _ => 60
  | number _ => 4
  | audioPid _ | videoPid _ | prNumber _ | fileName _ => 20

/-- The values are short enough for the buffer. -/
def Short : Text → Prop
  | listLine i service =>
    service.printedName.length + moreDigits (i + 1) + moreDigits service.serviceType.toNat ≤ 26
  | prNumber progNum => progNum ≤ 999
  | fileName i => i ≤ 9
  | number _ | audioPid _ | videoPid _ => True

instance : DecidablePred Short
  | listLine _ _ => inferInstanceAs (Decidable (_ ≤ _))
  | prNumber _ => inferInstanceAs (Decidable (_ ≤ _))
  | fileName _ => inferInstanceAs (Decidable (_ ≤ _))
  | number _ | audioPid _ | videoPid _ => inferInstanceAs (Decidable True)

end Text

/-- The texts that a pass of `render_loop` builds. -/
def renderLoopTexts (g : Graphics) : List Text :=
  (if g.renderFnp.printProgList then
    (List.range g.renderFnp.programCount).map fun i => .listLine i (g.programList.cell i)
  else []) ++
  (if g.renderFnp.printProgNum then [.number g.renderFnp.orderProgNum] else []) ++
  (if g.renderFnp.printInfoBanner then
    [.audioPid g.renderFnp.audioPid, .videoPid g.renderFnp.videoPid, .prNumber g.renderFnp.progNum]
  else [])

/-- The texts that `graphics_init` builds. -/
def graphicsInitTexts : List Text := (List.range 11).map .fileName

/-! ### The values that the parsers deliver -/

/-- A PID of 13 bits, or 65000. -/
def DeliverablePid (pid : ℕ) : Prop := pid < 2 ^ 13 ∨ pid = noPid

/-- A name of at most 255 bytes. -/
def ServiceInfo.Deliverable (service : ServiceInfo) : Prop :=
  ∃ name : List UInt8, name.length ≤ 255 ∧ service.serviceName = name ++ [0]

/-- The values of a render state are such as the parsers deliver, with 255 programs at most. -/
structure Graphics.Deliverable (g : Graphics) : Prop where
  count : g.renderFnp.programCount ≤ 255
  services : ∀ i < g.renderFnp.programCount, (g.programList.cell i).Deliverable
  order : g.renderFnp.orderProgNum ≤ 255
  number : g.renderFnp.progNum < 2 ^ 16
  audio : DeliverablePid g.renderFnp.audioPid
  video : DeliverablePid g.renderFnp.videoPid

theorem serviceAt_deliverable (buffer : Buffer) (p : ℕ) : (serviceAt buffer p).Deliverable := by
  have hlen := (buffer (p + 9 + (buffer (p + 8)).toNat)).toNat_lt
  exact ⟨_, by simpa using Nat.le_of_lt_succ hlen, rfl⟩

theorem deliverablePid_esPid (buffer : Buffer) (p : ℕ) : DeliverablePid (esPid buffer p) :=
  .inl (Nat.and_lt_two_pow _ (by norm_num))

theorem deliverablePid_parsePMT {fuel : ℕ} {buffer : Buffer} {pmt t : PMT}
    (h : parsePMT fuel buffer pmt = some t) :
    DeliverablePid t.audioPid ∧ DeliverablePid t.videoPid := by
  obtain ⟨c, hc, rfl⟩ := Option.map_eq_some_iff.mp h
  refine (WhileLoop.Exits.invariant (I := fun c : RecordWalk.Cursor PMT =>
    DeliverablePid c.acc.audioPid ∧ DeliverablePid c.acc.videoPid) ⟨fuel, hc⟩
      ⟨.inr rfl, .inr rfl⟩ fun u hu _ => ?_).1
  have hpid := deliverablePid_esPid buffer u.pos
  simp only [parsePMTPass, RecordWalk.pass, audioPid_parsePMTEntry, videoPid_parsePMTEntry]
  constructor
  · split_ifs
    · exact hpid
    · exact hu.1
  · split_ifs
    · exact hpid
    · exact hu.2

/-! ### Which texts fit -/

namespace Text

/-- The range of the values of a text. -/
def InRange : Text → Prop
  | listLine i _ => i < 255
  | number orderProgNum => orderProgNum ≤ 255
  | audioPid pid | videoPid pid => DeliverablePid pid
  | prNumber progNum => progNum < 2 ^ 16
  | fileName i => i ≤ 10

/-- The digits of a PID. -/
theorem length_toDigits_of_deliverablePid {pid : ℕ} (h : DeliverablePid pid) :
    (Nat.toDigits 10 pid).length ≤ 5 := by
  rw [Nat.length_toDigits_le_iff (by norm_num) (by norm_num)]
  obtain h | rfl := h
  · omega
  · norm_num [noPid]

/-- **A text fits its buffer** if and only if its values are short. -/
theorem fits_iff_short {text : Text} (h : text.InRange) :
    Fits text.content text.bufferSize ↔ text.Short := by
  cases text with
  | listLine i service =>
    have hi : i < 255 := h
    have htype := service.serviceType.toNat_lt
    have hlength : (listLine i service).content.length = 31 + (Nat.toDigits 10 (i + 1)).length +
        service.printedName.length + (Nat.toDigits 10 service.serviceType.toNat).length := by
      simp [content, sprintf]
      omega
    rw [length_toDigits_of_lt (by omega), length_toDigits_of_lt (by omega)] at hlength
    simp only [Fits, hlength, bufferSize, Short]
    omega
  | number orderProgNum =>
    have hle : orderProgNum ≤ 255 := h
    have hlength : (number orderProgNum).content.length =
        (Nat.toDigits 10 orderProgNum).length := by simp [content, sprintf]
    have hdigits := (Nat.length_toDigits_le_iff (b := 10) (k := 3) (by norm_num) (by norm_num)).mpr
      (show orderProgNum < 10 ^ 3 by omega)
    simp only [Fits, hlength, bufferSize, Short, iff_true]
    omega
  | audioPid pid =>
    have hlength : (audioPid pid).content.length = 11 + (Nat.toDigits 10 pid).length := by
      simp [content, sprintf]
      omega
    have hdigits := length_toDigits_of_deliverablePid h
    simp only [Fits, hlength, bufferSize, Short, iff_true]
    omega
  | videoPid pid =>
    have hlength : (videoPid pid).content.length ≤ 12 + (Nat.toDigits 10 pid).length := by
      rw [content]
      split_ifs
      · simp [sprintf]
      · simp [sprintf]
        omega
    have hdigits := length_toDigits_of_deliverablePid h
    simp only [Fits, bufferSize, Short, iff_true]
    omega
  | prNumber progNum =>
    have hlength : (prNumber progNum).content.length =
        16 + (Nat.toDigits 10 progNum).length := by
      simp [content, sprintf]
      omega
    have hdigits := Nat.length_toDigits_le_iff (b := 10) (n := progNum) (k := 3) (by norm_num)
      (by norm_num)
    simp only [Fits, hlength, bufferSize, Short]
    omega
  | fileName i =>
    have hle : i ≤ 10 := h
    have hlength : (fileName i).content.length = 18 + (Nat.toDigits 10 i).length := by
      simp [content, sprintf]
      omega
    have hdigits := Nat.length_toDigits_le_iff (b := 10) (n := i) (k := 1) (by norm_num)
      (by norm_num)
    simp only [Fits, hlength, bufferSize, Short]
    omega

end Text

/-- The values of the texts are in their ranges. -/
theorem Graphics.Deliverable.inRange {g : Graphics} (h : g.Deliverable) {text : Text}
    (hmem : text ∈ renderLoopTexts g ++ graphicsInitTexts) : text.InRange := by
  have hcount := h.count
  simp only [renderLoopTexts, graphicsInitTexts, List.mem_append, List.mem_ite_nil_right,
    List.mem_map, List.mem_range, List.mem_cons, List.not_mem_nil, or_false] at hmem
  obtain ((⟨-, i, hi, rfl⟩ | ⟨-, rfl⟩) | ⟨-, rfl | rfl | rfl⟩) | ⟨i, hi, rfl⟩ := hmem
  · exact (by omega : i < 255)
  · exact h.order
  · exact h.audio
  · exact h.video
  · exact h.number
  · exact Nat.le_of_lt_succ hi

/-- **Each text of the graphics controller fits its buffer** if and only if its values are short:
for a line of the program list, the name of the service with the digits of the two numbers, for the
banner the program number, for a volume image its index. -/
theorem fits_iff {g : Graphics} (h : g.Deliverable) :
    ∀ text ∈ renderLoopTexts g ++ graphicsInitTexts,
      Fits text.content text.bufferSize ↔ text.Short :=
  fun _ hmem => Text.fits_iff_short (h.inRange hmem)

/-- A state in which everything is shown: a program with the number 1000, and a service whose name
has 27 characters. -/
def longTexts : Graphics where
  renderFnp := ⟨false, 1, false, 5, 1, false, 1000, noPid, 0x1FFF, true, true, true, true, true,
    true, true⟩
  programList := malloc (fun _ => ⟨1000, 1, 39, List.replicate 27 0x41 ++ [0]⟩) 1

theorem deliverable_longTexts : longTexts.Deliverable where
  count := by decide
  services := fun _ _ => ⟨List.replicate 27 0x41, by decide, rfl⟩
  order := by decide
  number := by decide
  audio := .inr rfl
  video := .inl (by decide)

theorem fits_iff_longTexts : longTexts.Deliverable ∧
    ∀ text ∈ renderLoopTexts longTexts ++ graphicsInitTexts,
      Fits text.content text.bufferSize ↔ text.Short :=
  ⟨deliverable_longTexts, fits_iff deliverable_longTexts⟩

/-- The line of the list, the program number of the banner and the name of the image with index 10
do not fit. -/
theorem not_fits_longTexts : longTexts.Deliverable ∧ ∃ line number file : Text,
    line ∈ renderLoopTexts longTexts ∧ number ∈ renderLoopTexts longTexts ∧
      file ∈ graphicsInitTexts ∧ ¬ Fits line.content line.bufferSize ∧
        ¬ Fits number.content number.bufferSize ∧ ¬ Fits file.content file.bufferSize := by
  have hline : .listLine 0 (longTexts.programList.cell 0) ∈ renderLoopTexts longTexts := by
    simp [renderLoopTexts, longTexts]
  have hnumber : .prNumber 1000 ∈ renderLoopTexts longTexts := by
    simp [renderLoopTexts, longTexts]
  have hfile : .fileName 10 ∈ graphicsInitTexts := by simp [graphicsInitTexts]
  have hlong : ∀ text : Text, text ∈ renderLoopTexts longTexts ∨ text ∈ graphicsInitTexts →
      (Fits text.content text.bufferSize ↔ text.Short) := fun _ hmem =>
    Text.fits_iff_short (deliverable_longTexts.inRange (List.mem_append.mpr hmem))
  refine ⟨deliverable_longTexts, _, _, _, hline, hnumber, hfile, ?_, ?_, ?_⟩
  · rw [hlong _ (.inl hline)]
    decide
  · rw [hlong _ (.inl hnumber)]
    decide
  · rw [hlong _ (.inr hfile)]
    decide

end Zapper
