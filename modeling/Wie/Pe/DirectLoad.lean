import Wie.Pe.LoadedImage

/-!
# Two loaders

A program is loaded into a buffer of its own, or straight into the memory of the guest through a
writer. Both copy the headers and the sections, read the imports from the file, and write what the
resolver says into the slots of the imports. Where the writer fails exactly outside a buffer of
zeros, a step of the one fails exactly where the step of the other does. The second one has a plan
of the sections besides, and there is none where a section has no readable name.

## Main definitions

* `buildLoadedImageWithFakeImportsWith`, `loadPeDirectFromBytes` — the loaders
* `GuestBuffer` — a buffer somewhere in the memory of the guest
* `LoadersAgree`, `Loadable` — both succeed with the same image; a program that can be loaded

## Main results

* `toOption_writeSection`, `toOption_patchDirect` — step by step, the same is written
* `loadersAgree_iff` — the loaders agree unless a program can be loaded whose plan cannot be made
-/

namespace Wie

/-! ### The loaders -/

/-- `PePatchedImport`. -/
structure PePatchedImport where
  /-- The library. -/
  library : List Char
  /-- The name, or a label with the number. -/
  name : List Char
  /-- The slot of its address. -/
  iatSlotVa : ℕ
  /-- The slot of its address, relative to the image. -/
  iatSlotRva : ℕ
  /-- What was written there. -/
  fakeTargetVa : BitVec 64
  deriving DecidableEq

/-- What is noted of an import that was patched. -/
def PeImportSummary.patched (i : PeImportSummary) (fakeTargetVa : BitVec 64) : PePatchedImport where
  library := i.library
  name := if i.name = [] then "ORDINAL ".toList ++ Nat.toDigits 10 i.ordinal else i.name
  iatSlotVa := i.iatSlotVa
  iatSlotRva := i.iatSlotRva
  fakeTargetVa := fakeTargetVa

/-- What a load has made: the image or the memory, the patched imports, and what has become of the
resolver. -/
structure Loaded (τ σ : Type) where
  /-- The image or the memory. -/
  memory : τ
  /-- The patched imports. -/
  patched : List PePatchedImport
  /-- The resolver. -/
  resolver : σ

section Loaders

variable {τ σ : Type} (memWrite : ℕ → List UInt8 → τ → Except String τ)
  (fakeTarget : PeImportSummary → σ → Except String (BitVec 64 × σ))

/-- `patch_loaded_image_imports_with`. -/
def patchLoadedImageImportsWith :
    List PeImportSummary → List UInt8 → σ → Except String (Loaded (List UInt8) σ)
  | [], image, st => return ⟨image, [], st⟩
  | i :: rest, image, st => do
    let target ← fakeTarget i st
    let slotOffset := i.iatSlotRva
    let slotEnd ← orContext "IAT slot write range overflow" (checkedAdd slotOffset 8)
    if image.length < slotEnd then .error "IAT slot is outside loaded image"
    else
      let image := copyInto image slotOffset (toLe 8 target.1.toNat)
      let r ← patchLoadedImageImportsWith rest image target.2
      return ⟨r.memory, i.patched target.1 :: r.patched, r.resolver⟩

/-- `build_loaded_image_with_fake_imports_with`, of a parsed file. -/
def buildLoadedImageWithFakeImportsWith (pe : PeProgram) (bytes : List UInt8) (st : σ) :
    Except String (PeLoadedImageSummary × Loaded (List UInt8) σ) := do
  let built ← buildLoadedImageFromParsed pe bytes
  let imports ← inspectPeImportsFromParsed pe bytes
  let r ← patchLoadedImageImportsWith fakeTarget imports built.1 st
  return (built.2, r)

/-- One turn of the loop over sections of `load_pe_direct_from_bytes`. -/
def writeSection (bytes : List UInt8) (imageBase : ℕ) (mem : τ) (s : SectionTable) :
    Except String τ :=
  let rawOffset := s.pointerToRawData.toNat
  let rawSize := s.sizeOfRawData.toNat
  if rawSize = 0 then return mem
  else do
    let va ← orContext "section VA overflow" (checkedAdd imageBase s.virtualAddress.toNat)
    let rawEnd ← orContext "section source range overflow" (checkedAdd rawOffset rawSize)
    if bytes.length < rawEnd then .error "section raw data outside file"
    else
      let name := String.ofList (s.name.getD "<unnamed>".toList)
      withContext s!"failed to write section `{name}` to guest memory"
        (memWrite va (readAt bytes rawOffset rawSize) mem)

/-- `patch_loaded_image_imports_direct`. -/
def patchLoadedImageImportsDirect (imageBase : ℕ) :
    List PeImportSummary → τ → σ → Except String (Loaded τ σ)
  | [], mem, st => return ⟨mem, [], st⟩
  | i :: rest, mem, st => do
    let target ← fakeTarget i st
    let slotVa ← orContext "IAT slot VA overflow" (checkedAdd imageBase i.iatSlotRva)
    let mem ← withContext "failed to patch IAT slot in guest memory"
      (memWrite slotVa (toLe 8 target.1.toNat) mem)
    let r ← patchLoadedImageImportsDirect imageBase rest mem target.2
    return ⟨r.memory, i.patched target.1 :: r.patched, r.resolver⟩

/-- `load_pe_direct_from_bytes`, of a parsed file. -/
def loadPeDirectFromBytes (pe : PeProgram) (bytes : List UInt8) (imageBase imageSize : ℕ) (mem : τ)
    (st : σ) : Except String (PeLoadedImageSummary × PeMapPlan × Loaded τ σ) :=
  if !pe.is64 then .error "expected PE64 image, got PE32"
  else do
    let identity ← peIdentityFromParsed pe
    let mapPlan ← peMapPlanFromParsed pe
    let headerSize := identity.sizeOfHeaders
    if bytes.length < headerSize then .error "size_of_headers is larger than file size"
    else
      let mem ← withContext "failed to write PE headers to guest memory"
        (memWrite imageBase (bytes.take headerSize) mem)
      let mem ← pe.sections.foldlM (writeSection memWrite bytes imageBase) mem
      let imports ← inspectPeImportsFromParsed pe bytes
      let r ← patchLoadedImageImportsDirect memWrite fakeTarget imageBase imports mem st
      return (⟨identity.imageBase, identity.entryRva, identity.entryVa, imageSize, headerSize,
        identity.sectionCount⟩, mapPlan, r)

end Loaders

/-! ### A buffer of the guest -/

/-- A buffer of `len` bytes at `base`, below `2 ^ 64`. -/
structure GuestBuffer (base len : ℕ) where
  /-- What it holds. -/
  bytes : List UInt8
  length_eq : bytes.length = len
  fits : base + len ≤ 2 ^ 64

namespace GuestBuffer

variable {base len : ℕ}

/-- A buffer of zeros. -/
def zeroed (base len : ℕ) (fits : base + len ≤ 2 ^ 64) : GuestBuffer base len :=
  ⟨List.replicate len 0, List.length_replicate, fits⟩

theorem length_copyInto_bytes (b : GuestBuffer base len) {va : ℕ} {data : List UInt8}
    (h : base ≤ va ∧ va + data.length ≤ base + len) :
    (copyInto b.bytes (va - base) data).length = len := by
  rw [length_copyInto, b.length_eq]
  rw [b.length_eq]
  omega

/-- A write fails exactly when it leaves the buffer. -/
def write (va : ℕ) (data : List UInt8) (b : GuestBuffer base len) :
    Except String (GuestBuffer base len) :=
  if h : base ≤ va ∧ va + data.length ≤ base + len then
    .ok ⟨copyInto b.bytes (va - base) data, b.length_copyInto_bytes h, b.fits⟩
  else .error "outside the buffer"

theorem toOption_write (b : GuestBuffer base len) (off : ℕ) (data : List UInt8) :
    (b.write (base + off) data).toOption.map bytes =
      if off + data.length ≤ len then some (copyInto b.bytes off data) else none := by
  rw [write]
  by_cases h : off + data.length ≤ len
  · rw [dif_pos ⟨by omega, by omega⟩, if_pos h]
    exact congrArg (fun k => some (copyInto b.bytes k data)) (Nat.add_sub_cancel_left base off)
  · rw [dif_neg (by omega), if_neg h]
    rfl

end GuestBuffer

/-! ### Step by step -/

section Steps

variable {σ : Type} {base len : ℕ} {file : List UInt8}
  (fakeTarget : PeImportSummary → σ → Except String (BitVec 64 × σ))

/-- **A section is written where it is copied**, and not at all where it is not. -/
theorem toOption_writeSection (b : GuestBuffer base len) (s : SectionTable) :
    (writeSection GuestBuffer.write file base b s).toOption.map GuestBuffer.bytes =
      (copySection file b.bytes s.toPeSection).toOption := by
  rw [toOption_copySection, b.length_eq, writeSection]
  by_cases hraw : s.sizeOfRawData = 0
  · rw [if_pos (PeSection.toNat_sizeOfRawData_eq_zero.mpr hraw), if_pos (.inl hraw),
      PeSection.raw_eq_nil hraw, copyInto_nil]
    rfl
  · have hsize := mt PeSection.toNat_sizeOfRawData_eq_zero.mp hraw
    have hbuffer := b.fits
    have hfits : s.Fits file.length len ↔
        s.pointerToRawData.toNat + s.sizeOfRawData.toNat ≤ file.length ∧
          s.virtualAddress.toNat + s.sizeOfRawData.toNat ≤ len :=
      or_iff_right hraw
    have hend : checkedAdd s.pointerToRawData.toNat s.sizeOfRawData.toNat =
        some (s.pointerToRawData.toNat + s.sizeOfRawData.toNat) :=
      checkedAdd_eq_some.mpr ⟨rfl, by omega⟩
    rw [if_neg hsize, hend]
    by_cases hva : base + s.virtualAddress.toNat < 2 ^ 64
    · rw [checkedAdd_eq_some.mpr ⟨rfl, hva⟩]
      simp only [orContext, bind, Except.bind]
      by_cases hfile : file.length < s.pointerToRawData.toNat + s.sizeOfRawData.toNat
      · rw [if_pos hfile, if_neg fun h => absurd (hfits.mp h).1 (by omega)]
        rfl
      · have hlen : (s.raw file).length = s.sizeOfRawData.toNat := by
          rw [PeSection.raw, length_readAt]
          omega
        rw [if_neg hfile, toOption_withContext, ← PeSection.raw, b.toOption_write, hlen]
        refine if_congr ?_ rfl rfl
        rw [hfits]
        exact ⟨fun h => ⟨Nat.not_lt.mp hfile, h⟩, fun h => h.2⟩
    · -- past `2 ^ 64` there is no buffer
      rw [checkedAdd_eq_none.mpr (Nat.not_lt.mp hva),
        if_neg fun h => absurd (hfits.mp h).2 (by omega)]
      rfl

/-- Loops whose steps agree agree. -/
theorem toOption_foldlM_map {α β γ : Type} {f : β → α → Except String β}
    {g : γ → α → Except String γ} {π : β → γ}
    (h : ∀ b a, (f b a).toOption.map π = (g (π b) a).toOption) (l : List α) (b : β) :
    (l.foldlM f b).toOption.map π = (l.foldlM g (π b)).toOption := by
  induction l generalizing b with
  | nil => rfl
  | cons a l ih =>
    rw [List.foldlM_cons, List.foldlM_cons, toOption_bind, toOption_bind, ← h]
    cases hf : (f b a).toOption with
    | none => rfl
    | some b' => exact ih b'

theorem toOption_writeSections (file : List UInt8) (b : GuestBuffer base len)
    (sections : List SectionTable) :
    (sections.foldlM (writeSection GuestBuffer.write file base) b).toOption.map GuestBuffer.bytes =
      (copySections file sections b.bytes).toOption :=
  toOption_foldlM_map (g := fun image s => copySection file image s.toPeSection)
    (π := GuestBuffer.bytes) toOption_writeSection sections b

/-- **The slots of imports are patched alike.** -/
theorem toOption_patchDirect (hlen : len < 2 ^ 64) (imports : List PeImportSummary)
    (b : GuestBuffer base len) (st : σ) :
    (patchLoadedImageImportsDirect GuestBuffer.write fakeTarget base imports b st).toOption.map
        (fun r => (⟨r.memory.bytes, r.patched, r.resolver⟩ : Loaded (List UInt8) σ)) =
      (patchLoadedImageImportsWith fakeTarget imports b.bytes st).toOption := by
  induction imports generalizing b st with
  | nil => rfl
  | cons i rest ih =>
    rw [patchLoadedImageImportsDirect, patchLoadedImageImportsWith]
    cases fakeTarget i st with
    | error e => rfl
    | ok target =>
      have hbuffer := b.fits
      have hwrite := b.toOption_write i.iatSlotRva (toLe 8 target.1.toNat)
      rw [length_toLe] at hwrite
      by_cases hslot : i.iatSlotRva + 8 ≤ len
      · rw [if_pos hslot, Option.map_eq_some_iff] at hwrite
        obtain ⟨b', hwrite, hbytes⟩ := hwrite
        rw [toOption_eq_some] at hwrite
        have hva := checkedAdd_eq_some.mpr ⟨rfl, (by omega : base + i.iatSlotRva < 2 ^ 64)⟩
        have hend := checkedAdd_eq_some.mpr ⟨rfl, (by omega : i.iatSlotRva + 8 < 2 ^ 64)⟩
        have hrest := ih b' target.2
        simp only [bind, Except.bind, orContext, withContext, hva, hend, hwrite, b.length_eq,
          if_neg (Nat.not_lt.mpr hslot), ← hbytes]
        cases hdirect : patchLoadedImageImportsDirect GuestBuffer.write fakeTarget base rest b'
            target.2 with
        | error e =>
          rw [hdirect] at hrest
          obtain ⟨e', hfail⟩ := toOption_eq_none.mp hrest.symm
          rw [hfail]
          rfl
        | ok r =>
          rw [hdirect] at hrest
          rw [toOption_eq_some.mp hrest.symm]
          rfl
      · rw [if_neg hslot, Option.map_eq_none_iff, toOption_eq_none] at hwrite
        obtain ⟨e, hwrite⟩ := hwrite
        simp only [bind, Except.bind]
        cases hend : checkedAdd i.iatSlotRva 8 with
        | none =>
          cases hva : checkedAdd base i.iatSlotRva with
          | none => rfl
          | some va =>
            obtain ⟨rfl, -⟩ := checkedAdd_eq_some.mp hva
            simp only [orContext, withContext, hwrite]
            rfl
        | some slotEnd =>
          have hout : b.bytes.length < slotEnd := by
            rw [b.length_eq, ← (checkedAdd_eq_some.mp hend).1]
            omega
          cases hva : checkedAdd base i.iatSlotRva with
          | none =>
            simp only [orContext, if_pos hout]
            rfl
          | some va =>
            obtain ⟨rfl, -⟩ := checkedAdd_eq_some.mp hva
            simp only [orContext, withContext, hwrite, if_pos hout]
            rfl

end Steps

/-! ### The loads -/

section Loads

variable {σ : Type} {base : ℕ}

/-- Both loaders succeed, with the same image and the same patched imports, or none of them does. -/
def LoadersAgree (pe : PeProgram) (file : List UInt8)
    (fakeTarget : PeImportSummary → σ → Except String (BitVec 64 × σ)) (st : σ)
    (buffer : GuestBuffer base pe.sizeOfImage) : Prop :=
  (loadPeDirectFromBytes GuestBuffer.write fakeTarget pe file base pe.sizeOfImage buffer
      st).toOption.map (fun r => (r.2.2.memory.bytes, r.2.2.patched)) =
    (buildLoadedImageWithFakeImportsWith fakeTarget pe file st).toOption.map
      fun r => (r.2.memory, r.2.patched)

/-- The resolver has an address for every import. -/
inductive ResolvesAll (fakeTarget : PeImportSummary → σ → Except String (BitVec 64 × σ)) :
    List PeImportSummary → σ → Prop
  | nil (st : σ) : ResolvesAll fakeTarget [] st
  | cons {i : PeImportSummary} {rest : List PeImportSummary} {st : σ} {target : BitVec 64 × σ}
      (first : fakeTarget i st = .ok target) (others : ResolvesAll fakeTarget rest target.2) :
      ResolvesAll fakeTarget (i :: rest) st

/-- A program that can be loaded: its headers and sections are inside the file and the image, its
imports can be read, their slots are inside the image, and they are resolved. -/
structure Loadable (pe : PeProgram) (file : List UInt8)
    (fakeTarget : PeImportSummary → σ → Except String (BitVec 64 × σ)) (st : σ) : Prop where
  placed : pe.Placed file
  imports : ∃ imports, inspectPeImportsFromParsed pe file = .ok imports ∧
    ResolvesAll fakeTarget imports st ∧ ∀ i ∈ imports, i.iatSlotRva + 8 ≤ pe.sizeOfImage

variable {pe : PeProgram} {file : List UInt8}
  {fakeTarget : PeImportSummary → σ → Except String (BitVec 64 × σ)} {st : σ}

theorem sizeOfImage_lt (pe : PeProgram) : pe.sizeOfImage < 2 ^ 32 := by
  rw [PeProgram.sizeOfImage]
  cases pe.optionalHeader with
  | none => decide
  | some h => exact h.sizeOfImage.isLt

theorem patchWith_isSome_iff
    (fakeTarget : PeImportSummary → σ → Except String (BitVec 64 × σ))
    (imports : List PeImportSummary) (st : σ) {image : List UInt8} (hlen : image.length < 2 ^ 32) :
    (patchLoadedImageImportsWith fakeTarget imports image st).toOption.isSome ↔
      ResolvesAll fakeTarget imports st ∧ ∀ i ∈ imports, i.iatSlotRva + 8 ≤ image.length := by
  induction imports generalizing image st with
  | nil =>
    constructor
    · intro _
      exact ⟨.nil st, List.forall_mem_nil _⟩
    · intro _
      rfl
  | cons i rest ih =>
    rw [patchLoadedImageImportsWith, List.forall_mem_cons]
    cases htarget : fakeTarget i st with
    | error e =>
      constructor
      · intro h
        cases h
      · rintro ⟨h, -⟩
        cases h with
        | cons first => rw [htarget] at first; cases first
    | ok target =>
      have hresolves : ResolvesAll fakeTarget (i :: rest) st ↔
          ResolvesAll fakeTarget rest target.2 := by
        constructor
        · intro h
          cases h with
          | cons first others =>
            rw [htarget] at first
            cases first
            exact others
        · exact .cons htarget
      rw [hresolves]
      by_cases hslot : i.iatSlotRva + 8 ≤ image.length
      · have hend := checkedAdd_eq_some.mpr ⟨rfl, (by omega : i.iatSlotRva + 8 < 2 ^ 64)⟩
        have hcopied : (copyInto image i.iatSlotRva (toLe 8 target.1.toNat)).length =
            image.length := length_copyInto (by rw [length_toLe]; exact hslot)
        have hrest := ih target.2 (hcopied.trans_lt hlen)
        rw [hcopied] at hrest
        simp only [hend, orContext, bind, Except.bind, if_neg (Nat.not_lt.mpr hslot), hslot,
          true_and]
        rw [← hrest]
        cases patchLoadedImageImportsWith fakeTarget rest
          (copyInto image i.iatSlotRva (toLe 8 target.1.toNat)) target.2 <;> rfl
      · constructor
        · intro h
          cases hend : checkedAdd i.iatSlotRva 8 with
          | none =>
            simp only [hend, orContext, bind, Except.bind] at h
            cases h
          | some slotEnd =>
            have hout : image.length < slotEnd := by
              rw [← (checkedAdd_eq_some.mp hend).1]
              omega
            simp only [hend, orContext, bind, Except.bind, if_pos hout] at h
            cases h
        · rintro ⟨-, h, -⟩
          exact absurd h hslot

/-- **The buffered loader succeeds exactly on what can be loaded.** -/
theorem buffered_isSome_iff :
    (buildLoadedImageWithFakeImportsWith fakeTarget pe file st).toOption.isSome ↔
      Loadable pe file fakeTarget st := by
  rw [buildLoadedImageWithFakeImportsWith]
  cases hbuild : buildLoadedImageFromParsed pe file with
  | error e =>
    constructor
    · intro h
      cases h
    · intro h
      have := buildLoadedImageFromParsed_eq_ok_iff.mpr ⟨h.placed, rfl, rfl⟩
      rw [hbuild] at this
      cases this
  | ok built =>
    obtain ⟨hplaced, -, -⟩ := buildLoadedImageFromParsed_eq_ok_iff.mp hbuild
    have hlen := length_loadedImage hbuild
    cases himports : inspectPeImportsFromParsed pe file with
    | error e =>
      constructor
      · intro h
        cases h
      · intro h
        obtain ⟨imports, h, -⟩ := h.imports
        rw [himports] at h
        cases h
    | ok imports =>
      have hpatch := patchWith_isSome_iff fakeTarget imports st
        (hlen.trans_lt (sizeOfImage_lt pe))
      rw [hlen] at hpatch
      have hloadable : Loadable pe file fakeTarget st ↔
          ResolvesAll fakeTarget imports st ∧ ∀ i ∈ imports, i.iatSlotRva + 8 ≤ pe.sizeOfImage := by
        constructor
        · intro h
          obtain ⟨imports', h, hslots⟩ := h.imports
          rw [himports] at h
          cases h
          exact hslots
        · intro h
          exact ⟨hplaced, imports, himports, h⟩
      rw [hloadable, ← hpatch]
      simp only [bind, Except.bind]
      cases patchLoadedImageImportsWith fakeTarget imports built.1 st <;> rfl

/-- **The direct loader needs a plan.** -/
theorem name_isSome_of_direct {buffer : GuestBuffer base pe.sizeOfImage}
    (h : (loadPeDirectFromBytes GuestBuffer.write fakeTarget pe file base pe.sizeOfImage buffer
      st).toOption.isSome) : ∀ s ∈ pe.sections, s.name.isSome := by
  rw [loadPeDirectFromBytes] at h
  cases h64 : pe.is64 with
  | false =>
    rw [h64] at h
    cases h
  | true =>
    rw [h64, Bool.not_true, if_neg Bool.false_ne_true, toOption_bind] at h
    cases hid : peIdentityFromParsed pe with
    | error e =>
      rw [hid] at h
      cases h
    | ok identity =>
      have hplan := peMapPlanFromParsed_isSome_iff (peIdentityFromParsed_eq_ok_iff.mp hid).1
      rw [← hplan]
      cases hmap : peMapPlanFromParsed pe with
      | error e =>
        rw [hid, hmap] at h
        cases h
      | ok plan => rfl

/-- **With a plan, the loaders agree.** -/
theorem loadersAgree_of_names (hnames : ∀ s ∈ pe.sections, s.name.isSome)
    {buffer : GuestBuffer base pe.sizeOfImage}
    (hzero : buffer.bytes = List.replicate pe.sizeOfImage 0) :
    LoadersAgree pe file fakeTarget st buffer := by
  rw [LoadersAgree, loadPeDirectFromBytes, buildLoadedImageWithFakeImportsWith,
    buildLoadedImageFromParsed]
  by_cases hid : pe.Identified
  · have hok := toOption_eq_some.mp (toOption_peIdentityFromParsed hid)
    obtain ⟨plan, hplan⟩ :=
      Option.isSome_iff_exists.mp ((peMapPlanFromParsed_isSome_iff hid).mpr hnames)
    rw [toOption_eq_some] at hplan
    rw [hid.is64, Bool.not_true, if_neg Bool.false_ne_true, if_neg Bool.false_ne_true, hok, hplan]
    simp only [bind, Except.bind]
    by_cases hfile : file.length < pe.sizeOfHeaders
    · rw [if_pos (by exact hfile), if_pos (by exact hfile)]
      rfl
    · rw [if_neg (by exact hfile), if_neg (by exact hfile)]
      have hwrite := buffer.toOption_write 0 (file.take pe.sizeOfHeaders)
      rw [Nat.add_zero, Nat.zero_add, List.length_take, Nat.min_eq_left (Nat.not_lt.mp hfile),
        hzero] at hwrite
      by_cases himage : pe.sizeOfImage < pe.sizeOfHeaders
      · rw [if_neg (by omega), Option.map_eq_none_iff, toOption_eq_none] at hwrite
        obtain ⟨e, hwrite⟩ := hwrite
        rw [if_pos (by exact himage), PeProgram.identity, hwrite]
        rfl
      · rw [if_pos (Nat.not_lt.mp himage), Option.map_eq_some_iff] at hwrite
        obtain ⟨b, hwrite, hbytes⟩ := hwrite
        rw [toOption_eq_some] at hwrite
        have hsections := toOption_writeSections file b pe.sections
        rw [hbytes] at hsections
        rw [if_neg (by exact himage), PeProgram.identity, hwrite]
        simp only [withContext]
        cases hwritten : pe.sections.foldlM (writeSection GuestBuffer.write file base) b with
        | error e =>
          rw [hwritten] at hsections
          obtain ⟨e', hcopied⟩ := toOption_eq_none.mp hsections.symm
          rw [hcopied]
          rfl
        | ok mem =>
          rw [hwritten] at hsections
          rw [toOption_eq_some.mp hsections.symm]
          simp only [pure, Except.pure]
          cases inspectPeImportsFromParsed pe file with
          | error e => rfl
          | ok imports =>
            have hlen : pe.sizeOfImage < 2 ^ 64 := (sizeOfImage_lt pe).trans (by decide)
            have hpatch := toOption_patchDirect fakeTarget hlen imports mem st
            simp only
            cases hdirect : patchLoadedImageImportsDirect GuestBuffer.write fakeTarget base imports
                mem st with
            | error e =>
              rw [hdirect] at hpatch
              obtain ⟨e', hfail⟩ := toOption_eq_none.mp hpatch.symm
              rw [hfail]
              rfl
            | ok r =>
              rw [hdirect] at hpatch
              rw [toOption_eq_some.mp hpatch.symm]
              rfl
  · cases h64 : pe.is64 with
    | false => rfl
    | true =>
      rw [Bool.not_true, if_neg Bool.false_ne_true, if_neg Bool.false_ne_true]
      cases hok : peIdentityFromParsed pe with
      | error e => rfl
      | ok identity => exact absurd (peIdentityFromParsed_eq_ok_iff.mp hok).1 hid

/-- **The loaders agree unless a program can be loaded whose plan cannot be made.** -/
theorem loadersAgree_iff {buffer : GuestBuffer base pe.sizeOfImage}
    (hzero : buffer.bytes = List.replicate pe.sizeOfImage 0) :
    LoadersAgree pe file fakeTarget st buffer ↔
      (Loadable pe file fakeTarget st → ∀ s ∈ pe.sections, s.name.isSome) := by
  constructor
  · intro hagree hloadable
    have hbuffered := buffered_isSome_iff.mpr hloadable
    have hdirect : (loadPeDirectFromBytes GuestBuffer.write fakeTarget pe file base pe.sizeOfImage
        buffer st).toOption.isSome := by
      rw [LoadersAgree] at hagree
      rw [← Option.isSome_map (f := fun r => (r.2.2.memory.bytes, r.2.2.patched)), hagree,
        Option.isSome_map]
      exact hbuffered
    exact name_isSome_of_direct hdirect
  · intro h
    by_cases hnames : ∀ s ∈ pe.sections, s.name.isSome
    · exact loadersAgree_of_names hnames hzero
    · -- without a plan the direct loader fails, and the other one has nothing to load
      have hdirect : ¬(loadPeDirectFromBytes GuestBuffer.write fakeTarget pe file base
          pe.sizeOfImage buffer st).toOption.isSome := mt name_isSome_of_direct hnames
      have hbuffered := mt buffered_isSome_iff.mp fun hloadable => hnames (h hloadable)
      rw [Option.not_isSome_iff_eq_none] at hdirect hbuffered
      rw [LoadersAgree, hdirect, hbuffered]
      rfl

end Loads

/-! ### A section with no name -/

/-- A program that imports nothing, and whose section has a name that is no text. -/
def unnamedProgram : PeProgram where
  is64 := true
  machine := 0x8664
  imageBase := 0x180000000
  entry := 0
  sections := [⟨⟨0x1000, 0x200, 0x200, 0x200⟩, none, 0xc0000040⟩]
  optionalHeader := some ⟨0x2000, 0x200, some ⟨0x1000, 20⟩⟩

/-- Its headers: a byte 0xff in the name of the section, and the directory of imports. -/
def unnamedHeaders : List UInt8 :=
  copyInto
    (copyInto (dllHeaders 0x2000 ⟨0, 0⟩ ⟨0, 0⟩
      (unnamedProgram.sections.map SectionTable.toPeSection)) 0x148 [0xff])
    0xd0 (DataDirectory.bytes ⟨0x1000, 20⟩)

/-- Its file. -/
def unnamedFile : List UInt8 := unnamedHeaders ++ List.replicate 0x200 0

/-- A resolver that has no address for anything. -/
def noTarget (_ : PeImportSummary) (_ : Unit) : Except String (BitVec 64 × Unit) :=
  .error "unresolved"

theorem placed_unnamed : unnamedProgram.Placed unnamedFile where
  is64 := rfl
  header := rfl
  entry := by decide
  headersInFile := by decide +kernel
  headersInImage := by decide
  sections := by decide +kernel

/-- The fields of the descriptor at 0x200 are zero. -/
theorem readUint_unnamed : ∀ offset ∈ [0x200, 0x204, 0x208, 0x20c, 0x210],
    readUint 4 unnamedFile offset = .ok 0 := by
  intro offset hoffset
  have hlen : unnamedFile.length = 0x400 := by decide +kernel
  have hbound : ∀ offset ∈ [0x200, 0x204, 0x208, 0x20c, 0x210], offset + 4 ≤ 0x400 := by decide
  have hzero : ∀ offset ∈ [0x200, 0x204, 0x208, 0x20c, 0x210],
      fromLe (readAt unnamedFile offset 4) = 0 := by decide +kernel
  have := hbound offset hoffset
  rw [readUint_eq_ok (by omega) (by omega), hzero offset hoffset]

/-- The only descriptor is the last one. -/
theorem imports_unnamed : inspectPeImportsFromParsed unnamedProgram unnamedFile = .ok [] := by
  have hoffset : unnamedProgram.rvaToFileOffset 0x1000 = .ok 0x200 :=
    PeProgram.rvaToFileOffset_eq_ok_iff.mpr ⟨_, rfl, rfl⟩
  have hdirectory : inspectPeImportsFromParsed unnamedProgram unnamedFile =
      readImportDescriptors unnamedProgram unnamedFile 0x1000 := rfl
  have hadd : ∀ n < 0x100, checkedAddUsize 0x200 n = .ok (0x200 + n) := by
    intro n hn
    rw [checkedAddUsize, checkedAdd_eq_some.mpr ⟨rfl, by omega⟩]
    rfl
  rw [hdirectory, readImportDescriptors, hoffset]
  simp only [withContext, bind, Except.bind, hadd 4 (by decide), hadd 8 (by decide),
    hadd 12 (by decide), hadd 16 (by decide), Nat.reduceAdd,
    readUint_unnamed 0x200 (by decide), readUint_unnamed 0x204 (by decide),
    readUint_unnamed 0x208 (by decide), readUint_unnamed 0x20c (by decide),
    readUint_unnamed 0x210 (by decide)]
  rfl

theorem loadable_unnamed : Loadable unnamedProgram unnamedFile noTarget () :=
  ⟨placed_unnamed, [], imports_unnamed, .nil (), List.forall_mem_nil _⟩

theorem loadersAgree_iff_unnamed :
    LoadersAgree unnamedProgram unnamedFile noTarget ()
        (.zeroed 0x180000000 unnamedProgram.sizeOfImage (by decide)) ↔
      (Loadable unnamedProgram unnamedFile noTarget () →
        ∀ s ∈ unnamedProgram.sections, s.name.isSome) :=
  loadersAgree_iff rfl

/-- The direct loader fails where the buffered one loads a section with no name. -/
theorem not_loadersAgree : ¬∀ (pe : PeProgram) (file : List UInt8)
    (fakeTarget : PeImportSummary → Unit → Except String (BitVec 64 × Unit)) (base : ℕ)
    (buffer : GuestBuffer base pe.sizeOfImage), buffer.bytes = List.replicate pe.sizeOfImage 0 →
      LoadersAgree pe file fakeTarget () buffer := by
  intro h
  have hagree := h unnamedProgram unnamedFile noTarget 0x180000000
    (.zeroed 0x180000000 unnamedProgram.sizeOfImage (by decide)) rfl
  have hbuffered := buffered_isSome_iff.mpr loadable_unnamed
  rw [LoadersAgree] at hagree
  rw [← Option.isSome_map (f := fun r => (r.2.memory, r.2.patched)), ← hagree,
    Option.isSome_map] at hbuffered
  have hname := name_isSome_of_direct hbuffered _ (List.mem_singleton.mpr rfl)
  cases hname

end Wie
