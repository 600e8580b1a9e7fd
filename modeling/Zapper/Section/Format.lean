import Zapper.TableParser

/-!
# Section formats: the common parts

Sections are described as data: `bytes` lays the fields of a section out as the broadcaster
sends it. Reserved and other unused bits are fields like any other, so that a statement about
every section is a statement about every value of them. Here are the parts that all tables
share, the three bytes in front of a section and the CRC behind it.
-/

namespace Zapper

open Memory

/-! ### Bit fields

A field of `k` bits is a `Fin (2 ^ k)`; the instances let its values be written as numerals. -/

instance neZero_threeBits : NeZero 8 := ⟨by decide⟩

instance neZero_fourBits : NeZero 16 := ⟨by decide⟩

instance neZero_thirteenBits : NeZero 8192 := ⟨by decide⟩

instance neZero_sixteenBits : NeZero 65536 := ⟨by decide⟩

/-! ### The parts of a section -/

/-- The CRC that closes a section. The parsers never look at it. -/
structure Crc where
  b₀ : UInt8
  b₁ : UInt8
  b₂ : UInt8
  b₃ : UInt8

/-- The four bytes of the CRC. -/
def Crc.bytes (crc : Crc) : List UInt8 := [crc.b₀, crc.b₁, crc.b₂, crc.b₃]

@[simp]
theorem Crc.length_bytes (crc : Crc) : crc.bytes.length = 4 := rfl

/-- The first three bytes of a section: table id, four bits of flags, section length. -/
def sectionHead (tableId : UInt8) (flags : Fin 16) (len : ℕ) : List UInt8 :=
  tableId :: packed 4 flags len

@[simp]
theorem length_sectionHead (tableId : UInt8) (flags : Fin 16) (len : ℕ) :
    (sectionHead tableId flags len).length = 3 := rfl

/-- The parsers read the section length that the section carries. -/
theorem sectionLength_of_holdsAt {buffer : Buffer} {tableId : UInt8} {flags : Fin 16} {len : ℕ}
    (hlen : len < 4096) (h : HoldsAt buffer 0 (sectionHead tableId flags len)) :
    sectionLength buffer = len := by
  simp only [sectionHead, packed, holdsAt_cons, holdsAt_nil, and_true, Nat.zero_add] at h
  obtain ⟨-, h₁, h₂⟩ := h
  have hflags := flags.isLt
  have hmask : ∀ x : ℕ, x &&& 0x0F = x % 16 := fun x =>
    Nat.and_two_pow_sub_one_eq_mod x 4
  rw [sectionLength, h₁, h₂, UInt8.toNat_ofNat', UInt8.toNat_ofNat', hmask, Nat.shiftLeft_eq]
  omega

end Zapper
