import Zapper.Lib.CyclicCode
import Zapper.Section.Format

/-!
# The checksum of a section

`p_writeChecksum` of `tdp_api.c` computes a CRC byte by byte from a table of 256 words. The table is
a static array: its first entry is one until the first call fills it, and zero from then on, and
that entry is all the function looks at to decide whether the table is to be filled.

The specification is `crc32`: the shift register of the polynomial, fed bit by bit.
-/

namespace Zapper

open Memory ShiftRegister CyclicCode

/-! ### The function -/

/-- `CRC32_POLYNOMIAL`. -/
def crc32Polynomial : BitVec 32 := 0x04C11DB7#32

/-- `CRC32_MAX_COEFFICIENTS`. -/
def crc32MaxCoefficients : ℕ := 256

/-- The static array `crc32_table`. -/
abbrev Crc32Table := ℕ → BitVec 32

/-- `{1}`, as the program starts. -/
def Crc32Table.initial : Crc32Table := fun i => if i = 0 then 1#32 else 0#32

/-- The eight passes over `coef32` for one entry of the table. -/
def coef32 (loopCntCoef : ℕ) : BitVec 32 :=
  (List.range 8).foldl
    (fun coef32 _ =>
      if coef32 &&& 0x80000000#32 ≠ 0#32 then (coef32 <<< 1) ^^^ crc32Polynomial
      else coef32 <<< 1)
    (BitVec.ofNat 32 loopCntCoef <<< 24)

/-- The loop that fills the table. -/
def Crc32Table.fill (table : Crc32Table) : Crc32Table :=
  (List.range crc32MaxCoefficients).foldl (fun t i => Function.update t i (coef32 i)) table

/-- The table a call works with: it is filled if its first entry is not zero. -/
def Crc32Table.ready (table : Crc32Table) : Crc32Table :=
  if table 0 ≠ 0#32 then table.fill else table

/-- One byte of the block. -/
def crc32Step (table : Crc32Table) (crc32 : BitVec 32) (byte : UInt8) : BitVec 32 :=
  (crc32 <<< 8) ^^^ table (((crc32 >>> 24) ^^^ byte.toBitVec.setWidth 32) &&& 0x000000FF#32).toNat

/-- The four bytes of a word, as they are stored to `checksum`. -/
def Crc.ofWord (crc32 : BitVec 32) : Crc where
  b₀ := ⟨(crc32 >>> 24).setWidth 8⟩
  b₁ := ⟨(crc32 >>> 16).setWidth 8⟩
  b₂ := ⟨(crc32 >>> 8).setWidth 8⟩
  b₃ := ⟨crc32.setWidth 8⟩

/-- The first `length` bytes of a buffer. -/
def block (buffer : Buffer) (length : ℕ) : List UInt8 := (List.range length).map buffer

/-- `p_writeChecksum`: the table it leaves behind, and the checksum. -/
def pWriteChecksum (table : Crc32Table) (buffer : Buffer) (length : ℕ) : Crc32Table × Crc :=
  (table.ready, .ofWord ((block buffer length).foldl (crc32Step table.ready) 0xFFFFFFFF#32))

/-! ### The specification -/

/-- The bits of a block of bytes. -/
def blockBits (bytes : List UInt8) : List Bool := bytes.flatMap fun b => bits b.toBitVec

@[simp]
theorem length_blockBits (bytes : List UInt8) : (blockBits bytes).length = 8 * bytes.length := by
  induction bytes with
  | nil => rfl
  | cons b bytes ih =>
    have hcons : blockBits (b :: bytes) = bits b.toBitVec ++ blockBits bytes := rfl
    rw [hcons, List.length_append, length_bits, ih, List.length_cons]
    omega

/-- The register behind a block. -/
def crc32 (bytes : List UInt8) : BitVec 32 :=
  register crc32Polynomial 0xFFFFFFFF#32 (blockBits bytes)

/-! ### The table -/

theorem step_false (c : BitVec 32) : step crc32Polynomial c false =
    if c &&& 0x80000000#32 ≠ 0#32 then (c <<< 1) ^^^ crc32Polynomial else c <<< 1 := by
  have hbit : c &&& 0x80000000#32 = if c.msb then 0x80000000#32 else 0#32 :=
    BitVec.and_twoPow c 31
  rw [step, Bool.xor_false, hbit]
  cases c.msb <;> rfl

/-- Behind the eight passes, the entry is the word that is added for the byte. -/
theorem coef32_eq (b : BitVec 8) : coef32 b.toNat = chunkWord crc32Polynomial (bits b) := by
  have hpasses : coef32 b.toNat =
      register crc32Polynomial (b.setWidth 32 <<< 24) (List.replicate (bits b).length false) := by
    unfold coef32
    rw [BitVec.ofNat_toNat]
    simp only [← step_false]
    rfl
  have htop : top 8 (b.setWidth 32 <<< 24) = bits b := by
    refine List.map_congr_left fun i hi => ?_
    have hi : i < 8 := List.mem_range.mp hi
    rw [BitVec.getMsbD_shiftLeft, BitVec.getMsbD_eq_getLsbD, BitVec.getMsbD_eq_getLsbD,
      BitVec.getLsbD_setWidth, decide_eq_true (by omega), decide_eq_true hi,
      decide_eq_true (by omega), show 32 - 1 - (i + 24) = 8 - 1 - i by omega, Bool.true_and]
  have hout : (b.setWidth 32 <<< 24) <<< 8 = 0#32 := by
    rw [← BitVec.shiftLeft_add]
    exact BitVec.shiftLeft_eq_zero (by decide)
  rw [hpasses, register_chunk, List.length_replicate]
  rw [length_bits, hout, htop, BitVec.zero_xor]
  exact congrArg _ (xor_replicate (bits b))

theorem fill_apply (table : Crc32Table) {i : ℕ} (hi : i < crc32MaxCoefficients) :
    table.fill i = coef32 i := by
  have hfold : ∀ n, (List.range n).foldl (fun t i => Function.update t i (coef32 i)) table i =
      if i < n then coef32 i else table i := by
    intro n
    induction n with
    | zero => rfl
    | succ n ih =>
      rw [List.range_succ, List.foldl_append, List.foldl_cons, List.foldl_nil]
      rcases Nat.lt_trichotomy i n with hlt | rfl | hlt
      · rw [Function.update_of_ne hlt.ne, ih, if_pos hlt, if_pos (by omega)]
      · rw [Function.update_self, if_pos (by omega)]
      · rw [Function.update_of_ne hlt.ne', ih, if_neg (by omega), if_neg (by omega)]
  rw [Crc32Table.fill, hfold, if_pos hi]

/-- The table is as the program starts with it, or filled. -/
def Crc32Table.Valid (table : Crc32Table) : Prop :=
  table 0 ≠ 0#32 ∨ ∀ i < crc32MaxCoefficients, table i = coef32 i

theorem Crc32Table.valid_initial : Crc32Table.initial.Valid := .inl (by decide)

/-- Every call works with a filled table. -/
theorem Crc32Table.Valid.ready {table : Crc32Table} (h : table.Valid) {i : ℕ}
    (hi : i < crc32MaxCoefficients) : table.ready i = coef32 i := by
  rw [Crc32Table.ready]
  split_ifs with h0
  · exact fill_apply table hi
  · exact h.resolve_left h0 i hi

theorem Crc32Table.Valid.valid_ready {table : Crc32Table} (h : table.Valid) : table.ready.Valid :=
  .inr fun _ hi => h.ready hi

/-- The bits of a byte of a word. -/
theorem getMsbD_byte (c : BitVec 32) {k i : ℕ} (hk : k + 8 ≤ 32) (hi : i < 8) :
    ((c >>> (24 - k)).setWidth 8).getMsbD i = c.getMsbD (k + i) := by
  have hplace : 24 - k + (8 - 1 - i) = 32 - 1 - (k + i) := by omega
  rw [BitVec.getMsbD_eq_getLsbD, BitVec.getMsbD_eq_getLsbD, BitVec.getLsbD_setWidth,
    BitVec.getLsbD_ushiftRight, hplace, decide_eq_true hi, decide_eq_true (by omega : k + i < 32),
    decide_eq_true (by omega : 8 - 1 - i < 8), Bool.true_and]

/-- The top byte of a register. -/
def topByte (c : BitVec 32) : BitVec 8 := (c >>> 24).setWidth 8

theorem xor_top (c : BitVec 32) (b : BitVec 8) :
    xor (top 8 c) (bits b) = bits (topByte c ^^^ b) := by
  refine List.ext_getElem (by simp [ShiftRegister.xor]) fun i hi hi' => ?_
  have h8 : i < 8 := by simpa using hi'
  have htop : (topByte c).getMsbD i = c.getMsbD i := by
    have hbyte := getMsbD_byte c (k := 0) (by decide) h8
    rwa [Nat.zero_add, Nat.sub_zero] at hbyte
  simp only [ShiftRegister.xor, top, bits, List.getElem_zipWith, List.getElem_map,
    List.getElem_range]
  rw [BitVec.getMsbD_xor, htop]

/-- The index into the table is the top byte of the register plus the byte of the block. -/
theorem index_eq (c : BitVec 32) (b : BitVec 8) :
    (((c >>> 24) ^^^ b.setWidth 32) &&& 0x000000FF#32).toNat = (topByte c ^^^ b).toNat := by
  have hmask : ((c >>> 24) ^^^ b.setWidth 32) &&& 0x000000FF#32 =
      (topByte c ^^^ b).setWidth 32 := by
    have hones : 0x000000FF#32 = (BitVec.allOnes 8).setWidth 32 := by decide
    refine BitVec.eq_of_getLsbD_eq fun i hi => ?_
    rw [hones]
    simp only [topByte, BitVec.getLsbD_and, BitVec.getLsbD_xor, BitVec.getLsbD_setWidth,
      BitVec.getLsbD_allOnes]
    by_cases h8 : i < 8
    · simp [h8, hi]
    · simp [h8, BitVec.getLsbD_of_ge b i (by omega)]
  rw [hmask, BitVec.toNat_setWidth]
  exact Nat.mod_eq_of_lt ((topByte c ^^^ b).isLt.trans (by norm_num))

/-- **A byte at a time** is eight bits at a time. -/
theorem crc32Step_eq {table : Crc32Table} (h : table.Valid) (c : BitVec 32) (b : UInt8) :
    crc32Step table.ready c b = register crc32Polynomial c (bits b.toBitVec) := by
  rw [crc32Step, index_eq, h.ready (topByte c ^^^ b.toBitVec).isLt, coef32_eq, register_chunk,
    length_bits, xor_top]

/-- The table a sequence of calls leaves behind. -/
def Crc32Table.after (calls : List (Buffer × ℕ)) : Crc32Table :=
  calls.foldl (fun table call => (pWriteChecksum table call.1 call.2).1) .initial

theorem Crc32Table.valid_after (calls : List (Buffer × ℕ)) : (after calls).Valid :=
  List.foldlRecOn calls _ valid_initial fun _ h _ _ => h.valid_ready

/-- The block, byte by byte, is the block bit by bit. -/
theorem foldl_crc32Step {table : Crc32Table} (h : table.Valid) (bytes : List UInt8)
    (c : BitVec 32) : bytes.foldl (crc32Step table.ready) c =
      register crc32Polynomial c (blockBits bytes) := by
  induction bytes generalizing c with
  | nil => rfl
  | cons b bytes ih =>
    have hcons : blockBits (b :: bytes) = bits b.toBitVec ++ blockBits bytes := rfl
    rw [List.foldl_cons, ih, crc32Step_eq h, hcons, register_append]

theorem pWriteChecksum_eq {table : Crc32Table} (h : table.Valid) (buffer : Buffer) (length : ℕ) :
    (pWriteChecksum table buffer length).2 = .ofWord (crc32 (block buffer length)) := by
  rw [pWriteChecksum, foldl_crc32Step h, crc32]

/-- **The checksum is a remainder.** Whatever has been called before, `p_writeChecksum` stores the
word whose polynomial is the remainder of the block, moved up by 32 places, plus 32 ones, moved up
by the length of the block. -/
theorem pWriteChecksum_remainder (calls : List (Buffer × ℕ)) (buffer : Buffer) (length : ℕ) :
    ∃ word, (pWriteChecksum (.after calls) buffer length).2 = .ofWord word ∧
      toPoly word =
        (Polynomial.X ^ (8 * length) * toPoly (BitVec.allOnes 32) +
          Polynomial.X ^ 32 * ofBits (blockBits (block buffer length))) %ₘ
            generator crc32Polynomial := by
  refine ⟨_, pWriteChecksum_eq (Crc32Table.valid_after calls) buffer length, ?_⟩
  have hones : 0xFFFFFFFF#32 = BitVec.allOnes 32 := by decide
  rw [crc32, toPoly_register, length_blockBits, block, List.length_map, List.length_range, hones]

/-! ### Blocks with their checksum -/

theorem blockBits_append (as bs : List UInt8) :
    blockBits (as ++ bs) = blockBits as ++ blockBits bs := List.flatMap_append

theorem blockBits_injective : Function.Injective blockBits := by
  intro as
  induction as with
  | nil =>
    intro bs h
    have hlen := congrArg List.length h
    rw [length_blockBits, length_blockBits, List.length_nil] at hlen
    exact (List.length_eq_zero_iff.mp (by omega)).symm
  | cons a as ih =>
    intro bs h
    cases bs with
    | nil =>
      have hlen := congrArg List.length h
      rw [length_blockBits, length_blockBits, List.length_nil, List.length_cons] at hlen
      omega
    | cons b bs =>
      obtain ⟨hab, hrest⟩ := List.append_inj h (by simp)
      rw [UInt8.toBitVec_inj.mp (bits_injective hab), ih hrest]

/-- The bits of the four bytes are those of the word. -/
theorem blockBits_ofWord (c : BitVec 32) : blockBits (Crc.ofWord c).bytes = bits c := by
  have hbyte : ∀ k, k + 8 ≤ 32 → bits ((c >>> (24 - k)).setWidth 8) =
      (List.range 8).map fun i => c.getMsbD (k + i) := fun k hk =>
    List.map_congr_left fun i hi => getMsbD_byte c hk (List.mem_range.mp hi)
  have h₃ := hbyte 24 le_rfl
  rw [Nat.sub_self, BitVec.ushiftRight_zero] at h₃
  show bits _ ++ (bits _ ++ (bits _ ++ (bits _ ++ []))) = bits c
  rw [show bits (Crc.ofWord c).b₀.toBitVec = _ from hbyte 0 (by decide),
    show bits (Crc.ofWord c).b₁.toBitVec = _ from hbyte 8 (by decide),
    show bits (Crc.ofWord c).b₂.toBitVec = _ from hbyte 16 (by decide),
    show bits (Crc.ofWord c).b₃.toBitVec = _ from h₃]
  rfl

theorem Crc.bytes_injective : Function.Injective Crc.bytes := by
  rintro ⟨a₀, a₁, a₂, a₃⟩ ⟨b₀, b₁, b₂, b₃⟩ h
  simpa [Crc.bytes] using h

theorem Crc.ofWord_injective : Function.Injective Crc.ofWord := fun c d h =>
  bits_injective (by rw [← blockBits_ofWord, ← blockBits_ofWord, h])

/-- The four bytes as the variable of type `UINT32` they are stored to. -/
def Crc.word (crc : Crc) : ℕ :=
  crc.b₀.toNat + 2 ^ 8 * crc.b₁.toNat + 2 ^ 16 * crc.b₂.toNat + 2 ^ 24 * crc.b₃.toNat

theorem Crc.word_eq_zero_iff {crc : Crc} : crc.word = 0 ↔ crc = .ofWord 0#32 := by
  have hzero : Crc.ofWord 0#32 = ⟨0, 0, 0, 0⟩ := rfl
  obtain ⟨b₀, b₁, b₂, b₃⟩ := crc
  rw [hzero, Crc.word, Crc.mk.injEq]
  simp only [← UInt8.toNat_inj, UInt8.toNat_zero]
  omega

theorem Crc.word_ofWord_eq_zero_iff {c : BitVec 32} : (Crc.ofWord c).word = 0 ↔ c = 0#32 :=
  word_eq_zero_iff.trans ofWord_injective.eq_iff

/-- A block and its checksum behind it leave zero, and no other four bytes do. -/
theorem crc32_append_eq_zero_iff (bytes : List UInt8) (crc : Crc) :
    crc32 (bytes ++ crc.bytes) = 0#32 ↔ crc = .ofWord (crc32 bytes) := by
  have hown : crc32 (bytes ++ (Crc.ofWord (crc32 bytes)).bytes) = 0#32 := by
    rw [crc32, blockBits_append, blockBits_ofWord]
    exact register_append_own
  constructor
  · intro hzero
    by_contra hne
    have hbits : blockBits crc.bytes ≠ blockBits (Crc.ofWord (crc32 bytes)).bytes := fun h =>
      hne (Crc.bytes_injective (blockBits_injective h))
    have hburst : register crc32Polynomial 0xFFFFFFFF#32 (blockBits bytes ++
        blockBits crc.bytes ++ []) ≠ register crc32Polynomial 0xFFFFFFFF#32 (blockBits bytes ++
          blockBits (Crc.ofWord (crc32 bytes)).bytes ++ []) :=
      register_ne_of_burst (by decide) (by simp) (by simp) hbits
    rw [List.append_nil, List.append_nil, ← blockBits_append, ← blockBits_append] at hburst
    exact hburst (hzero.trans hown.symm)
  · rintro rfl
    exact hown

/-- The block in front of whatever else the buffer holds. -/
theorem block_withTail (bytes : List UInt8) (rest : ℕ → UInt8) :
    block (withTail bytes rest) bytes.length = bytes := by
  refine List.ext_getElem (by simp [block]) fun i hi hi' => ?_
  simp [block, withTail, hi']

/-- **The checksum behind its block.** Whatever has been called before, four bytes behind a block
make the checksum of the whole zero if and only if they are the checksum of the block. -/
theorem checksum_word_eq_zero_iff (calls calls' : List (Buffer × ℕ)) (bytes : List UInt8)
    (crc : Crc) (rest rest' : Buffer) :
    (pWriteChecksum (.after calls) (withTail (bytes ++ crc.bytes) rest) (bytes.length + 4)).2.word =
        0 ↔
      crc = (pWriteChecksum (.after calls') (withTail bytes rest') bytes.length).2 := by
  have hlen : bytes.length + 4 = (bytes ++ crc.bytes).length := by simp
  rw [pWriteChecksum_eq (Crc32Table.valid_after calls),
    pWriteChecksum_eq (Crc32Table.valid_after calls'), hlen, block_withTail, block_withTail,
    Crc.word_ofWord_eq_zero_iff]
  exact crc32_append_eq_zero_iff bytes crc

/-! ### Errors in a block -/

/-- The prime factors of `2 ^ 32 - 1`. -/
theorem prime_dvd_cases {q : ℕ} (hq : q.Prime) (h : q ∣ 2 ^ 32 - 1) :
    q = 3 ∨ q = 5 ∨ q = 17 ∨ q = 257 ∨ q = 65537 := by
  have hfactors : 2 ^ 32 - 1 = 3 * 5 * 17 * 257 * 65537 := by norm_num
  rw [hfactors, hq.dvd_mul, hq.dvd_mul, hq.dvd_mul, hq.dvd_mul] at h
  have hprime : ∀ r : ℕ, r.Prime → q ∣ r → q = r := fun r hr hdvd =>
    (Nat.prime_dvd_prime_iff_eq hq hr).mp hdvd
  rcases h with (((h | h) | h) | h) | h
  · exact .inl (hprime 3 (by norm_num) h)
  · exact .inr (.inl (hprime 5 (by norm_num) h))
  · exact .inr (.inr (.inl (hprime 17 (by norm_num) h)))
  · exact .inr (.inr (.inr (.inl (hprime 257 (by norm_num) h))))
  · exact .inr (.inr (.inr (.inr (hprime 65537 (by norm_num) h))))

/-- **The polynomial is primitive**: the order of its root is as large as it can be. -/
theorem orderOf_crc32Polynomial :
    orderOf (AdjoinRoot.root (generator crc32Polynomial)) = 2 ^ 32 - 1 := by
  refine orderOf_root (by norm_num) (by norm_num)
    ⟨bits 0xFFFFFFFF#32, by decide, by decide +kernel⟩ fun q hq hdvd => ?_
  rcases prime_dvd_cases hq hdvd with rfl | rfl | rfl | rfl | rfl
  · exact ⟨bits 0x55555555#32, by decide, by decide +kernel⟩
  · exact ⟨bits 0x33333333#32, by decide, by decide +kernel⟩
  · exact ⟨bits 0x0F0F0F0F#32, by decide, by decide +kernel⟩
  · exact ⟨bits 0x00FF00FF#32, by decide, by decide +kernel⟩
  · exact ⟨bits 0x0000FFFF#32, by decide, by decide +kernel⟩

/-- What happens to the bits of a block on its way: errors within 32 consecutive bits, or two single
errors, less than `2 ^ 32 - 1` places apart. -/
inductive Damaged : List Bool → List Bool → Prop
  | burst (front back x y : List Bool) (hlen : x.length = y.length) (hx : x.length ≤ 32)
      (hne : x ≠ y) : Damaged (front ++ x ++ back) (front ++ y ++ back)
  | double (front mid back : List Bool) (a b : Bool) (hmid : mid.length + 1 < 2 ^ 32 - 1) :
      Damaged (front ++ a :: mid ++ b :: back) (front ++ (!a) :: mid ++ (!b) :: back)

theorem Damaged.crc32_ne {as bs : List UInt8} (h : Damaged (blockBits as) (blockBits bs)) :
    crc32 as ≠ crc32 bs := by
  have hne : ∀ {x y : List Bool}, Damaged x y →
      register crc32Polynomial 0xFFFFFFFF#32 x ≠ register crc32Polynomial 0xFFFFFFFF#32 y := by
    intro x y hxy
    cases hxy with
    | burst front back x y hlen hx hne => exact register_ne_of_burst (by decide) hlen hx hne
    | double front mid back a b hmid =>
      rw [Ne, register_eq_of_double_iff (by decide), orderOf_crc32Polynomial]
      exact Nat.not_dvd_of_pos_of_lt (Nat.succ_pos _) hmid
  exact hne h

/-- **Damage is seen**: blocks of which one is the damaged other never have the same checksum. -/
theorem checksum_ne_of_damaged (calls calls' : List (Buffer × ℕ)) (buffer buffer' : Buffer)
    (length : ℕ)
    (h : Damaged (blockBits (block buffer length)) (blockBits (block buffer' length))) :
    (pWriteChecksum (.after calls) buffer length).2 ≠
      (pWriteChecksum (.after calls') buffer' length).2 := by
  rw [pWriteChecksum_eq (Crc32Table.valid_after calls),
    pWriteChecksum_eq (Crc32Table.valid_after calls')]
  exact Crc.ofWord_injective.ne h.crc32_ne

/-- Two errors, 79 bits apart. -/
theorem checksum_ne_of_twoErrors :
    (pWriteChecksum (.after []) (withTail (0x00 :: List.replicate 10 0xA5) fun _ => 0) 11).2 ≠
      (pWriteChecksum (.after []) (withTail (0x01 :: List.replicate 9 0xA5 ++ [0xA4])
        fun _ => 0) 11).2 :=
  checksum_ne_of_damaged [] [] _ _ 11
    (.double (List.replicate 7 false) (blockBits (List.replicate 9 0xA5) ++ bits 0x52#7) []
      false true (by decide))

end Zapper
