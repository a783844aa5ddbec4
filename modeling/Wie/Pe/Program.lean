import Wie.Lib.Text
import Wie.Pe.Image

/-!
# Programs

What the loader of a program reads of a parsed file: who it is, how its sections are protected, what
it imports. An error is the text of the outermost context.

## Main definitions

* `PeProgram` — a parsed program
* `peIdentityFromParsed`, `peMapPlanFromParsed` — its identity and the plan of its sections
* `inspectPeImportsFromParsed` — its imports, read from the file

## Main results

* `PeProgram.rvaToFileOffset_eq_ok_iff` — the first section that has the address decides
* `peMapPlanFromParsed_isSome_iff` — a plan needs the name of every section
-/

namespace Wie

/-! ### Errors -/

section Context

variable {α : Type}

/-- `context` of a value that may be missing. -/
def orContext (msg : String) : Option α → Except String α
  | none => .error msg
  | some x => .ok x

/-- `context` of a result: the text of the error is another one. -/
def withContext (msg : String) : Except String α → Except String α
  | .error _ => .error msg
  | .ok x => .ok x

@[simp] theorem toOption_orContext (msg : String) (x : Option α) :
    (orContext msg x).toOption = x := by
  cases x <;> rfl

@[simp] theorem toOption_withContext (msg : String) (x : Except String α) :
    (withContext msg x).toOption = x.toOption := by
  cases x <;> rfl

@[simp] theorem toOption_bind {β : Type} (x : Except String α) (f : α → Except String β) :
    (x >>= f).toOption = x.toOption.bind fun a => (f a).toOption := by
  cases x <;> rfl

@[simp] theorem toOption_pure (a : α) : (pure a : Except String α).toOption = some a := rfl

theorem toOption_eq_some {x : Except String α} {a : α} : x.toOption = some a ↔ x = .ok a := by
  cases x <;> simp [Except.toOption]

theorem toOption_eq_none {x : Except String α} : x.toOption = none ↔ ∃ e, x = .error e := by
  cases x <;> simp [Except.toOption]

end Context

/-! ### Headers -/

/-- A section header with its name and its flags. -/
structure SectionTable extends PeSection where
  /-- The name, if it is a text. -/
  name : Option (List Char)
  /-- What may be done with its bytes. -/
  characteristics : BitVec 32
  deriving DecidableEq

/-- What is asked of the optional header of a program. -/
structure ProgramHeader where
  /-- Bytes of the image. -/
  sizeOfImage : BitVec 32
  /-- Bytes of the headers. -/
  sizeOfHeaders : BitVec 32
  /-- The directory of imports. -/
  importTable : Option DataDirectory
  deriving DecidableEq

/-- A parsed program. -/
structure PeProgram where
  /-- Its addresses have 64 bits. -/
  is64 : Bool
  /-- The machine that it is for. -/
  machine : BitVec 16
  /-- Where the image wants to be. -/
  imageBase : BitVec 64
  /-- Where it begins, relative to the image. -/
  entry : BitVec 64
  /-- The sections, in the order of their headers. -/
  sections : List SectionTable
  /-- The optional header. -/
  optionalHeader : Option ProgramHeader
  deriving DecidableEq

/-- Bytes of the image. -/
def PeProgram.sizeOfImage (pe : PeProgram) : ℕ :=
  (pe.optionalHeader.map fun h => h.sizeOfImage.toNat).getD 0

/-- Bytes of the headers. -/
def PeProgram.sizeOfHeaders (pe : PeProgram) : ℕ :=
  (pe.optionalHeader.map fun h => h.sizeOfHeaders.toNat).getD 0

/-- `PeIdentity`, with no path. -/
structure PeIdentity where
  /-- Where the image wants to be. -/
  imageBase : ℕ
  /-- Where the program begins, relative to the image. -/
  entryRva : ℕ
  /-- Where the program begins. -/
  entryVa : ℕ
  /-- Bytes of the image. -/
  sizeOfImage : ℕ
  /-- Bytes of the headers. -/
  sizeOfHeaders : ℕ
  /-- The machine that it is for. -/
  machine : BitVec 16
  /-- Always true. -/
  isPe64 : Bool
  /-- The number of sections. -/
  sectionCount : ℕ

/-- `pe_identity_from_parsed`. -/
def peIdentityFromParsed (pe : PeProgram) : Except String PeIdentity :=
  if !pe.is64 then .error "expected PE64 image, got PE32"
  else do
    let entryVa ← orContext "entry point VA overflow"
      (checkedAdd pe.imageBase.toNat pe.entry.toNat)
    let optionalHeader ← orContext "PE image has no optional header" pe.optionalHeader
    return {
      imageBase := pe.imageBase.toNat
      entryRva := pe.entry.toNat
      entryVa := entryVa
      sizeOfImage := optionalHeader.sizeOfImage.toNat
      sizeOfHeaders := optionalHeader.sizeOfHeaders.toNat
      machine := pe.machine
      isPe64 := true
      sectionCount := pe.sections.length }

/-- What the identity is. -/
def PeProgram.identity (pe : PeProgram) : PeIdentity where
  imageBase := pe.imageBase.toNat
  entryRva := pe.entry.toNat
  entryVa := pe.imageBase.toNat + pe.entry.toNat
  sizeOfImage := pe.sizeOfImage
  sizeOfHeaders := pe.sizeOfHeaders
  machine := pe.machine
  isPe64 := true
  sectionCount := pe.sections.length

/-- There is an identity: addresses of 64 bits, an optional header, and a beginning below
`2 ^ 64`. -/
structure PeProgram.Identified (pe : PeProgram) : Prop where
  is64 : pe.is64 = true
  header : pe.optionalHeader.isSome
  entry : pe.imageBase.toNat + pe.entry.toNat < 2 ^ 64

theorem toOption_peIdentityFromParsed {pe : PeProgram} (h : pe.Identified) :
    (peIdentityFromParsed pe).toOption = some pe.identity := by
  obtain ⟨header, hheader⟩ := Option.isSome_iff_exists.mp h.header
  have hentry := checkedAdd_eq_some.mpr ⟨rfl, h.entry⟩
  rw [peIdentityFromParsed, h.is64, hheader, hentry]
  simp only [PeProgram.identity, PeProgram.sizeOfImage, PeProgram.sizeOfHeaders, hheader]
  rfl

theorem identified_of_ok {pe : PeProgram} {identity : PeIdentity}
    (h : peIdentityFromParsed pe = .ok identity) : pe.Identified := by
  rw [peIdentityFromParsed] at h
  cases h64 : pe.is64 with
  | false =>
    rw [h64] at h
    cases h
  | true =>
    rw [h64, Bool.not_true, if_neg Bool.false_ne_true] at h
    cases hentry : checkedAdd pe.imageBase.toNat pe.entry.toNat with
    | none =>
      rw [hentry] at h
      cases h
    | some entryVa =>
      cases hheader : pe.optionalHeader with
      | none =>
        rw [hentry, hheader] at h
        cases h
      | some header =>
        obtain ⟨rfl, hlt⟩ := checkedAdd_eq_some.mp hentry
        exact ⟨h64, by rw [hheader]; rfl, hlt⟩

theorem peIdentityFromParsed_eq_ok_iff {pe : PeProgram} {identity : PeIdentity} :
    peIdentityFromParsed pe = .ok identity ↔ pe.Identified ∧ identity = pe.identity := by
  constructor
  · intro h
    have hid := identified_of_ok h
    refine ⟨hid, ?_⟩
    have := toOption_eq_some.mp (toOption_peIdentityFromParsed hid)
    rw [h] at this
    exact Except.ok.inj this
  · rintro ⟨h, rfl⟩
    exact toOption_eq_some.mp (toOption_peIdentityFromParsed h)

/-! ### The plan of the sections -/

/-- `IMAGE_SCN_MEM_EXECUTE`. -/
def IMAGE_SCN_MEM_EXECUTE : BitVec 32 := 0x20000000

/-- `IMAGE_SCN_MEM_READ`. -/
def IMAGE_SCN_MEM_READ : BitVec 32 := 0x40000000

/-- `IMAGE_SCN_MEM_WRITE`. -/
def IMAGE_SCN_MEM_WRITE : BitVec 32 := 0x80000000

/-- `protect_from_section_characteristics`. -/
def protectFromSectionCharacteristics (characteristics : BitVec 32) : ℕ :=
  let x := characteristics &&& IMAGE_SCN_MEM_EXECUTE != 0
  let r := characteristics &&& IMAGE_SCN_MEM_READ != 0
  let w := characteristics &&& IMAGE_SCN_MEM_WRITE != 0
  match r, w, x with
  | _, true, true => Protect.pageExecuteReadwrite
  | true, false, true => Protect.pageExecuteRead
  | _, true, false => Protect.pageReadwrite
  | true, false, false => Protect.pageReadonly
  | false, false, true => Protect.pageExecuteRead
  | false, false, false => Protect.pageNoaccess

/-- `PeSectionMap`: a section and how it is protected in the end. -/
structure PeSectionMap where
  /-- The name. -/
  name : List Char
  /-- The header. -/
  header : SectionTable
  /-- The protection. -/
  finalProtect : ℕ

/-- `PeMapPlan`. -/
structure PeMapPlan where
  /-- Where the image wants to be. -/
  imageBase : ℕ
  /-- Bytes of the image. -/
  sizeOfImage : ℕ
  /-- Bytes of the headers. -/
  headerSize : ℕ
  /-- The sections. -/
  sections : List PeSectionMap

/-- One turn of the loop of `pe_map_plan_from_parsed`. -/
def planSection (s : SectionTable) : Except String PeSectionMap := do
  let name ← orContext "failed to read section name" s.name
  return ⟨name, s, protectFromSectionCharacteristics s.characteristics⟩

/-- `pe_map_plan_from_parsed`. -/
def peMapPlanFromParsed (pe : PeProgram) : Except String PeMapPlan :=
  if !pe.is64 then .error "expected PE64 image, got PE32"
  else do
    let identity ← peIdentityFromParsed pe
    let sections ← pe.sections.mapM planSection
    return ⟨identity.imageBase, identity.sizeOfImage, identity.sizeOfHeaders, sections⟩

theorem sectionMaps_isSome_iff {sections : List SectionTable} :
    (sections.mapM planSection).toOption.isSome ↔ ∀ s ∈ sections, s.name.isSome := by
  induction sections with
  | nil => simp [Except.toOption, pure, Except.pure]
  | cons s rest ih =>
    rw [List.forall_mem_cons, ← ih, List.mapM_cons]
    cases hname : s.name with
    | none => simp [planSection, orContext, hname, bind, Except.bind, Except.toOption]
    | some name =>
      have hs : planSection s =
          .ok ⟨name, s, protectFromSectionCharacteristics s.characteristics⟩ := by
        rw [planSection, hname]
        rfl
      rw [hs]
      cases rest.mapM planSection <;> simp [bind, Except.bind, Except.toOption, pure, Except.pure]

/-- **A plan needs the name of every section.** -/
theorem peMapPlanFromParsed_isSome_iff {pe : PeProgram} (h : pe.Identified) :
    (peMapPlanFromParsed pe).toOption.isSome ↔ ∀ s ∈ pe.sections, s.name.isSome := by
  have hid := toOption_eq_some.mp (toOption_peIdentityFromParsed h)
  rw [← sectionMaps_isSome_iff, peMapPlanFromParsed, h.is64, Bool.not_true,
    if_neg Bool.false_ne_true, hid]
  cases pe.sections.mapM planSection <;>
    simp [bind, Except.bind, Except.toOption, pure, Except.pure]

/-! ### Reading the file -/

/-- `rva_to_file_offset_u64`. -/
def PeProgram.rvaToFileOffset (pe : PeProgram) (rva : ℕ) : Except String ℕ :=
  sectionOffset (pe.sections.map SectionTable.toPeSection) rva

/-- **The first section that has the address decides.** -/
theorem PeProgram.rvaToFileOffset_eq_ok_iff {pe : PeProgram} {rva off : ℕ} :
    pe.rvaToFileOffset rva = .ok off ↔ ∃ s, pe.sections.find? (fun s => s.Has rva) = some s ∧
      off = s.pointerToRawData.toNat + (rva - s.virtualAddress.toNat) := by
  rw [PeProgram.rvaToFileOffset, sectionOffset_eq_ok_iff, sectionOf, List.find?_map]
  constructor
  · rintro ⟨_, hfound, rfl⟩
    obtain ⟨s, hs, rfl⟩ := Option.map_eq_some_iff.mp hfound
    exact ⟨s, hs, rfl⟩
  · rintro ⟨s, hs, rfl⟩
    exact ⟨s.toPeSection, Option.map_eq_some_iff.mpr ⟨s, hs, rfl⟩, rfl⟩

/-- `read_array`. -/
def readArray (n : ℕ) (bytes : List UInt8) (offset : ℕ) : Except String (List UInt8) := do
  let stop ← orContext "read range overflow" (checkedAdd offset n)
  if stop ≤ bytes.length then return readAt bytes offset n
  else .error "read range is outside file"

/-- `read_u16`, `read_u32` and `read_u64`: a number of `n` bytes. -/
def readUint (n : ℕ) (bytes : List UInt8) (offset : ℕ) : Except String ℕ := do
  let raw ← readArray n bytes offset
  return fromLe raw

theorem readUint_eq_ok {n offset : ℕ} {bytes : List UInt8} (h : offset + n ≤ bytes.length)
    (hlt : offset + n < 2 ^ 64) :
    readUint n bytes offset = .ok (fromLe (readAt bytes offset n)) := by
  rw [readUint, readArray, checkedAdd_eq_some.mpr ⟨rfl, hlt⟩]
  simp only [orContext, bind, Except.bind, if_pos h]
  rfl

/-- `checked_add_usize`. -/
def checkedAddUsize (left right : ℕ) : Except String ℕ :=
  orContext "usize addition overflow" (checkedAdd left right)

/-- `read_c_string_at_offset`. -/
def readCStringAtOffset (bytes : List UInt8) (offset : ℕ) : Except String (List Char) :=
  if bytes.length < offset then .error "string offset is outside file"
  else do
    let tail := bytes.drop offset
    let stop ← orContext "unterminated C string" (tail.findIdx? (· = 0))
    orContext "C string is not valid UTF-8" (fromUtf8 (tail.take stop))

/-- `read_c_string_at_rva`. -/
def readCStringAtRva (pe : PeProgram) (bytes : List UInt8) (rva : ℕ) :
    Except String (List Char) := do
  let offset ← pe.rvaToFileOffset rva
  readCStringAtOffset bytes offset

/-! ### Imports -/

/-- `PeImportSummary`. -/
structure PeImportSummary where
  /-- The library. -/
  library : List Char
  /-- The name, empty if the import is by its number. -/
  name : List Char
  /-- The number, or the hint that comes with the name. -/
  ordinal : ℕ
  /-- The slot of its address. -/
  iatSlotVa : ℕ
  /-- The slot of its address, relative to the image. -/
  iatSlotRva : ℕ
  /-- Where the hint and the name are. -/
  hintNameRva : Option ℕ
  deriving DecidableEq

section Imports

variable (pe : PeProgram) (bytes : List UInt8)

/-- What a thunk says, for the slot at `iatSlotRva`. -/
def importOfThunk (library : List Char) (thunkValue iatSlotVa iatSlotRva : ℕ) :
    Except String PeImportSummary :=
  if thunkValue.testBit 63 then
    return ⟨library, [], thunkValue % 0x10000, iatSlotVa, iatSlotRva, none⟩
  else if 2 ^ 32 ≤ thunkValue then .error "hint/name RVA does not fit u32"
  else do
    let hintNameOffset ← withContext s!"failed to map hint/name RVA {hex32 thunkValue}"
      (pe.rvaToFileOffset thunkValue)
    let hint ← readUint 2 bytes hintNameOffset
    let nameOffset ← checkedAddUsize hintNameOffset 2
    let name ← readCStringAtOffset bytes nameOffset
    return ⟨library, name, hint, iatSlotVa, iatSlotRva, some thunkValue⟩

/-- `read_import_thunks`, from the thunk with number `index` on. The numbers end at `2 ^ 61`. -/
def readImportThunks (library : List Char) (lookupThunkRva firstThunkRva index : ℕ) :
    Except String (List PeImportSummary) :=
  if hindex : 2 ^ 61 ≤ index then .error "lookup thunk index overflow"
  else do
    let lookupEntryRva ← orContext "lookup thunk RVA overflow"
      (checkedAdd lookupThunkRva (index * 8))
    let lookupEntryOffset ← withContext
      s!"failed to map lookup thunk RVA {hex32 lookupEntryRva}" (pe.rvaToFileOffset lookupEntryRva)
    let thunkValue ← readUint 8 bytes lookupEntryOffset
    if thunkValue = 0 then return []
    else
      let iatSlotRva ← orContext "IAT slot RVA overflow" (checkedAdd firstThunkRva (index * 8))
      let iatSlotVa ← orContext "IAT slot VA overflow"
        (checkedAdd pe.imageBase.toNat iatSlotRva)
      let imported ← importOfThunk pe bytes library thunkValue iatSlotVa iatSlotRva
      let rest ← readImportThunks library lookupThunkRva firstThunkRva (index + 1)
      return imported :: rest
termination_by 2 ^ 61 - index

/-- The loop of `inspect_pe_imports_from_parsed`, from the descriptor at `descriptorRva` on. -/
def readImportDescriptors (descriptorRva : ℕ) : Except String (List PeImportSummary) := do
  let descriptorOffset ← withContext
    s!"failed to map import descriptor RVA {hex32 descriptorRva}" (pe.rvaToFileOffset descriptorRva)
  let originalFirstThunk ← readUint 4 bytes descriptorOffset
  let _timeDateStamp ← readUint 4 bytes (← checkedAddUsize descriptorOffset 4)
  let _forwarderChain ← readUint 4 bytes (← checkedAddUsize descriptorOffset 8)
  let nameRva ← readUint 4 bytes (← checkedAddUsize descriptorOffset 12)
  let firstThunk ← readUint 4 bytes (← checkedAddUsize descriptorOffset 16)
  if originalFirstThunk = 0 ∧ nameRva = 0 ∧ firstThunk = 0 then return []
  else
    let library ← withContext s!"failed to read DLL name at RVA {hex32 nameRva}"
      (readCStringAtRva pe bytes nameRva)
    let lookupThunk := if originalFirstThunk = 0 then firstThunk else originalFirstThunk
    let imports ← readImportThunks pe bytes library lookupThunk firstThunk 0
    if _ : 2 ^ 32 ≤ descriptorRva + 20 then .error "import descriptor RVA overflow"
    else
      let rest ← readImportDescriptors (descriptorRva + 20)
      return imports ++ rest
termination_by 2 ^ 32 - descriptorRva

/-- `inspect_pe_imports_from_parsed`. -/
def inspectPeImportsFromParsed : Except String (List PeImportSummary) :=
  if !pe.is64 then .error "expected PE64 image, got PE32"
  else do
    let importDirectory ← orContext "PE image has no import directory"
      (pe.optionalHeader.bind fun h => h.importTable)
    if importDirectory.virtualAddress = 0 then return []
    else readImportDescriptors pe bytes importDirectory.virtualAddress.toNat

end Imports

end Wie
