import Mathlib.Data.List.TakeWhile
import Wie.Lib.Bytes
import Wie.Lib.Patches
import Wie.Lib.Word
import Wie.Mem.Protect

/-!
# PE files

What the loader uses of a parsed PE file, and how addresses relative to the image are found in the
file. The parser itself is not part of this: a parsed file is given by its sections and by what its
optional header says.

## Main definitions

* `Pe` — a parsed file
* `Pe.rvaToFileOffset` — from an address to an offset in the file

## Main results

* `Pe.rvaToFileOffset_eq_ok_iff` — the first section that has the address decides
-/

namespace Wie

/-- A section header. -/
structure PeSection where
  /-- Where the section is in the image. -/
  virtualAddress : BitVec 32
  /-- Its bytes in the image. -/
  virtualSize : BitVec 32
  /-- Its bytes in the file. -/
  sizeOfRawData : BitVec 32
  /-- Where it is in the file. -/
  pointerToRawData : BitVec 32
  deriving DecidableEq

/-- A data directory. -/
structure DataDirectory where
  /-- Where it is in the image. -/
  virtualAddress : BitVec 32
  /-- Its bytes. -/
  size : BitVec 32
  deriving DecidableEq

/-- What is asked of an optional header. -/
structure OptionalHeader where
  /-- The directory of exports. -/
  exportTable : Option DataDirectory
  /-- The directory of base relocations. -/
  baseRelocationTable : Option DataDirectory

/-- A parsed PE file. -/
structure Pe where
  /-- The sections, in the order of their headers. -/
  sections : List PeSection
  /-- The optional header. -/
  optionalHeader : Option OptionalHeader

/-! ### Reading -/

/-- `read_u32_le`. -/
def readU32Le (buf : List UInt8) (off : ℕ) : BitVec 32 := .ofNat 32 (fromLe (readAt buf off 4))

/-- `read_u16_le`. -/
def readU16Le (buf : List UInt8) (off : ℕ) : BitVec 16 := .ofNat 16 (fromLe (readAt buf off 2))

theorem readU32Le_take {buf : List UInt8} {off n : ℕ} (h : off + 4 ≤ n) :
    readU32Le (buf.take n) off = readU32Le buf off := by
  rw [readU32Le, readU32Le, readAt, readAt, List.drop_take, List.take_take,
    Nat.min_eq_left (by omega)]

theorem fromLe_readAt_lt (buf : List UInt8) (off n : ℕ) : fromLe (readAt buf off n) < 256 ^ n := by
  refine Nat.lt_of_lt_of_le (fromLe_lt _) (Nat.pow_le_pow_right (by decide) ?_)
  rw [length_readAt]
  exact Nat.min_le_left ..

/-! ### Addresses -/

namespace PeSection

/-- The first address past the section. -/
def mappedEnd (s : PeSection) : ℕ :=
  s.virtualAddress.toNat + max s.virtualSize.toNat s.sizeOfRawData.toNat

/-- The section has the address. -/
def Has (s : PeSection) (rva : ℕ) : Prop := s.virtualAddress.toNat ≤ rva ∧ rva < s.mappedEnd

instance (s : PeSection) (rva : ℕ) : Decidable (s.Has rva) := inferInstanceAs (Decidable (_ ∧ _))

end PeSection

/-- A number of 32 bits in a message. -/
def hex32 (n : ℕ) : String :=
  let digits := Nat.toDigits 16 n
  "0x" ++ String.ofList (List.replicate (8 - digits.length) '0' ++ digits)

/-- The loop of `rva_to_file_offset_u64`. -/
def sectionOffset : List PeSection → ℕ → Except String ℕ
  | [], rva => .error s!"RVA {hex32 rva} is not inside any section"
  | s :: rest, rva =>
    match checkedAdd s.virtualAddress.toNat (max s.virtualSize.toNat s.sizeOfRawData.toNat) with
    | none => .error "section RVA range overflow"
    | some sectionEnd =>
      if s.virtualAddress.toNat ≤ rva ∧ rva < sectionEnd then
        match checkedAdd s.pointerToRawData.toNat (rva - s.virtualAddress.toNat) with
        | none => .error "raw file offset overflow"
        | some off => .ok off
      else sectionOffset rest rva

/-- `rva_to_file_offset`. -/
def Pe.rvaToFileOffset (pe : Pe) (rva : BitVec 32) : Except String ℕ :=
  sectionOffset pe.sections rva.toNat

/-- The first section that has an address. -/
def sectionOf (sections : List PeSection) (rva : ℕ) : Option PeSection :=
  sections.find? fun s => s.Has rva

/-- **The first section that has the address decides.** -/
theorem sectionOffset_eq_ok_iff {sections : List PeSection} {rva off : ℕ} :
    sectionOffset sections rva = .ok off ↔ ∃ s, sectionOf sections rva = some s ∧
      off = s.pointerToRawData.toNat + (rva - s.virtualAddress.toNat) := by
  induction sections with
  | nil =>
    constructor
    · intro h
      cases h
    · rintro ⟨s, hs, -⟩
      cases hs
  | cons s rest ih =>
    have hend : checkedAdd s.virtualAddress.toNat
        (max s.virtualSize.toNat s.sizeOfRawData.toNat) = some s.mappedEnd := by
      have h1 := s.virtualAddress.isLt
      have h2 := s.virtualSize.isLt
      have h3 := s.sizeOfRawData.isLt
      rw [checkedAdd_eq_some]
      refine ⟨rfl, ?_⟩
      rw [PeSection.mappedEnd]
      omega
    rw [sectionOffset, hend]
    by_cases hs : s.virtualAddress.toNat ≤ rva ∧ rva < s.mappedEnd
    · have hoff : checkedAdd s.pointerToRawData.toNat (rva - s.virtualAddress.toNat) =
          some (s.pointerToRawData.toNat + (rva - s.virtualAddress.toNat)) := by
        have h1 := s.pointerToRawData.isLt
        have h2 := (checkedAdd_eq_some.mp hend).2
        have h3 := s.virtualAddress.isLt
        have h4 := s.virtualSize.isLt
        have h5 := s.sizeOfRawData.isLt
        have h6 := hs.2
        rw [PeSection.mappedEnd] at h6
        rw [checkedAdd_eq_some]
        exact ⟨rfl, by omega⟩
      have hfirst : sectionOf (s :: rest) rva = some s :=
        List.find?_cons_of_pos (decide_eq_true hs)
      simp only [if_pos hs, hoff, hfirst]
      constructor
      · intro h
        cases h
        exact ⟨s, rfl, rfl⟩
      · rintro ⟨s', hs', rfl⟩
        cases hs'
        rfl
    · have hnext : sectionOf (s :: rest) rva = sectionOf rest rva :=
        List.find?_cons_of_neg (by rw [decide_eq_true_iff]; exact hs)
      simp only [if_neg hs, hnext]
      exact ih

theorem Pe.rvaToFileOffset_eq_ok_iff (pe : Pe) (rva : BitVec 32) {off : ℕ} :
    pe.rvaToFileOffset rva = .ok off ↔ ∃ s, sectionOf pe.sections rva.toNat = some s ∧
      off = s.pointerToRawData.toNat + (rva.toNat - s.virtualAddress.toNat) :=
  sectionOffset_eq_ok_iff

/-! ### The data of sections -/

/-- The `n` bytes at an address that a section has in the file. -/
def Pe.rawData (pe : Pe) (file : List UInt8) (rva n : ℕ) : Option (List UInt8) :=
  (sectionOf pe.sections rva).bind fun s =>
    let off := s.pointerToRawData.toNat + (rva - s.virtualAddress.toNat)
    if rva + n ≤ s.virtualAddress.toNat + s.sizeOfRawData.toNat ∧ rva + n ≤ 2 ^ 32 ∧
        off + n ≤ file.length then
      some (readAt file off n)
    else none

/-- The bytes before a zero. -/
def Pe.cString (pe : Pe) (file : List UInt8) (rva : BitVec 32) : Option (List UInt8) :=
  (sectionOf pe.sections rva.toNat).bind fun s =>
    let off := s.pointerToRawData.toNat + (rva.toNat - s.virtualAddress.toNat)
    let raw := readAt file off (s.virtualAddress.toNat + s.sizeOfRawData.toNat - rva.toNat)
    if 0 ∈ raw then some (raw.takeWhile (· ≠ 0)) else none

theorem Pe.rawData_eq_some {pe : Pe} {file bytes : List UInt8} {a n : ℕ} {rva : BitVec 32}
    (h : pe.rawData file a n = some bytes) (hn : n ≠ 0) (ha : rva = .ofNat 32 a) :
    ∃ off, pe.rvaToFileOffset rva = .ok off ∧ off + n ≤ file.length ∧
      bytes = readAt file off n := by
  obtain ⟨s, hs, h⟩ := Option.bind_eq_some_iff.mp h
  simp only at h
  split_ifs at h with hin
  cases h
  have hrva : rva.toNat = a := by
    rw [ha, BitVec.toNat_ofNat]
    omega
  refine ⟨_, (pe.rvaToFileOffset_eq_ok_iff rva).mpr ⟨s, by rw [hrva]; exact hs, rfl⟩, ?_, ?_⟩
  · rw [hrva]
    exact hin.2.2
  · rw [hrva]

/-- A text in a file ends with the first zero. -/
def cStringIn (slice : List UInt8) : List UInt8 := slice.take ((slice.findIdx? (· = 0)).getD 0)

theorem cStringIn_eq {slice : List UInt8} {n : ℕ} (h : 0 ∈ slice.take n) :
    cStringIn slice = (slice.take n).takeWhile (· ≠ 0) := by
  have hzero : ∃ b ∈ slice, decide (b = 0) = true := ⟨0, List.mem_of_mem_take h, rfl⟩
  have hshort : ((slice.take n).takeWhile (· ≠ 0)).length ≠ (slice.take n).length := by
    intro hlen
    have hall := (List.takeWhile_prefix (l := slice.take n) (· ≠ 0)).eq_of_length hlen
    rw [List.takeWhile_eq_self_iff] at hall
    simpa using hall 0 h
  calc cStringIn slice
      = slice.takeWhile (· ≠ 0) := by
        rw [cStringIn, List.findIdx?_eq_some_of_exists hzero, Option.getD_some]
        simp only [List.takeWhile_eq_take_findIdx_not, ne_eq, decide_not, Bool.not_not]
    _ = (slice.take n ++ slice.drop n).takeWhile (· ≠ 0) := by rw [List.take_append_drop]
    _ = (slice.take n).takeWhile (· ≠ 0) := by rw [List.takeWhile_append, if_neg hshort]

theorem Pe.cString_eq_some {pe : Pe} {file bytes : List UInt8} {rva : BitVec 32}
    (h : pe.cString file rva = some bytes) :
    ∃ off, pe.rvaToFileOffset rva = .ok off ∧ cStringIn (file.drop off) = bytes := by
  obtain ⟨s, hs, h⟩ := Option.bind_eq_some_iff.mp h
  simp only at h
  split_ifs at h with hin
  cases h
  exact ⟨_, (pe.rvaToFileOffset_eq_ok_iff rva).mpr ⟨s, hs, rfl⟩, cStringIn_eq hin⟩

/-! ### Headers -/

/-- A data directory in a file. -/
def DataDirectory.bytes (d : DataDirectory) : List UInt8 :=
  toLe 4 d.virtualAddress.toNat ++ toLe 4 d.size.toNat

/-- A section header in a file, with no name. -/
def PeSection.bytes (s : PeSection) : List UInt8 :=
  toLe 8 0 ++ toLe 4 s.virtualSize.toNat ++ toLe 4 s.virtualAddress.toNat ++
    toLe 4 s.sizeOfRawData.toNat ++ toLe 4 s.pointerToRawData.toNat ++ toLe 12 0 ++
    toLe 4 0xc0000040

/-- The headers of a DLL, in 0x200 bytes. -/
def dllHeaders (sizeOfImage : ℕ) (exportTable baseRelocationTable : DataDirectory)
    (sections : List PeSection) : List UInt8 :=
  resize
    -- MZ, where the PE header is, and its start
    (toLe 2 0x5a4d ++ toLe 58 0 ++ toLe 4 0x40 ++ toLe 4 0x4550 ++
    -- machine, number of sections, bytes of the optional header, flags
    toLe 2 0x8664 ++ toLe 2 sections.length ++ toLe 12 0 ++ toLe 2 0xf0 ++ toLe 2 0x2022 ++
    -- magic, image base, alignments, versions
    toLe 2 0x20b ++ toLe 22 0 ++ toLe 8 0x180000000 ++ toLe 4 0x1000 ++ toLe 4 0x200 ++
    toLe 8 6 ++ toLe 8 6 ++
    -- bytes of the image and of the headers, subsystem, number of directories
    toLe 4 sizeOfImage ++ toLe 4 0x200 ++ toLe 4 0 ++ toLe 2 2 ++ toLe 38 0 ++ toLe 4 16 ++
    exportTable.bytes ++ toLe 32 0 ++ baseRelocationTable.bytes ++ toLe 80 0 ++
    sections.flatMap PeSection.bytes)
    0x200

end Wie
