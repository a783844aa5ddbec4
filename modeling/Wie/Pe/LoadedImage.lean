import Mathlib.Data.List.Pairwise
import Wie.Pe.Program

/-!
# The image of a program

The buffered loader: headers and sections are copied into a buffer of zeros. A byte of the image is
the one that the last section put there, or a byte of the headers, or zero. What is read from the
file in place of the image is found with the greater of the two sizes of a section, of which only
the bytes in the file are copied.

## Main definitions

* `copySection`, `buildLoadedImageFromParsed` — the loader
* `loadedByte` — a byte of the image
* `ReadsAgree`, `TailsAgree` — the file has what the image has; its bytes past a section do

## Main results

* `getElem?_loadedImage` — what the image holds
* `readsAgree_iff` — the file is a picture of the image exactly when its bytes past sections are
* `readAt_loadedImage` — several bytes at once
-/

namespace Wie

/-! ### The loader -/

/-- `PeLoadedImageSummary`. -/
structure PeLoadedImageSummary where
  /-- Where the image wants to be. -/
  imageBase : ℕ
  /-- Where the program begins, relative to the image. -/
  entryRva : ℕ
  /-- Where the program begins. -/
  entryPointVa : ℕ
  /-- Bytes of the image. -/
  imageSize : ℕ
  /-- Bytes of the headers that were copied. -/
  headerSize : ℕ
  /-- The number of sections. -/
  sectionCount : ℕ
  deriving DecidableEq

/-- `copy_section`. -/
def copySection (source image : List UInt8) (s : PeSection) : Except String (List UInt8) :=
  let rawOffset := s.pointerToRawData.toNat
  let rawSize := s.sizeOfRawData.toNat
  let virtualAddress := s.virtualAddress.toNat
  let virtualSize := s.virtualSize.toNat
  let bytesToCopy := min rawSize (max virtualSize rawSize)
  if bytesToCopy = 0 then .ok image
  else do
    let sourceEnd ← orContext "section source range overflow" (checkedAdd rawOffset bytesToCopy)
    let imageEnd ← orContext "section image range overflow" (checkedAdd virtualAddress bytesToCopy)
    if source.length < sourceEnd then .error "section raw range is outside file"
    else if image.length < imageEnd then .error "section virtual range is outside image"
    else return copyInto image virtualAddress (readAt source rawOffset bytesToCopy)

/-- The loop over sections. -/
def copySections (source : List UInt8) (sections : List SectionTable) (image : List UInt8) :
    Except String (List UInt8) :=
  sections.foldlM (fun image s => copySection source image s.toPeSection) image

/-- `build_loaded_image_from_parsed`. -/
def buildLoadedImageFromParsed (pe : PeProgram) (bytes : List UInt8) :
    Except String (List UInt8 × PeLoadedImageSummary) :=
  if !pe.is64 then .error "expected PE64 image, got PE32"
  else do
    let identity ← peIdentityFromParsed pe
    let imageSize := identity.sizeOfImage
    let headerSize := identity.sizeOfHeaders
    if bytes.length < headerSize then .error "size_of_headers is larger than file size"
    else if imageSize < headerSize then .error "failed to slice image headers"
    else
      let image ← copySections bytes pe.sections
        (copyInto (List.replicate imageSize 0) 0 (bytes.take headerSize))
      return (image, ⟨identity.imageBase, identity.entryRva, identity.entryVa, imageSize,
        headerSize, identity.sectionCount⟩)

/-! ### What a section puts into the image -/

namespace PeSection

/-- The bytes of the section are inside the file and the image. -/
def Fits (s : PeSection) (fileSize imageSize : ℕ) : Prop :=
  s.sizeOfRawData = 0 ∨ (s.pointerToRawData.toNat + s.sizeOfRawData.toNat ≤ fileSize ∧
    s.virtualAddress.toNat + s.sizeOfRawData.toNat ≤ imageSize)

instance (s : PeSection) (fileSize imageSize : ℕ) : Decidable (s.Fits fileSize imageSize) :=
  inferInstanceAs (Decidable (_ ∨ _))

/-- The bytes of the section. -/
def raw (s : PeSection) (file : List UInt8) : List UInt8 :=
  readAt file s.pointerToRawData.toNat s.sizeOfRawData.toNat

/-- The file has the byte of the section at an address. -/
def RawHas (s : PeSection) (rva : ℕ) : Prop :=
  s.virtualAddress.toNat ≤ rva ∧ rva < s.virtualAddress.toNat + s.sizeOfRawData.toNat

instance (s : PeSection) (rva : ℕ) : Decidable (s.RawHas rva) :=
  inferInstanceAs (Decidable (_ ∧ _))

/-- Where the file has the byte at an address. -/
def offsetOf (s : PeSection) (rva : ℕ) : ℕ :=
  s.pointerToRawData.toNat + (rva - s.virtualAddress.toNat)

variable {s : PeSection} {file image : List UInt8} {rva n m : ℕ}

theorem RawHas.has (h : s.RawHas rva) : s.Has rva := by
  refine ⟨h.1, ?_⟩
  have := h.2
  rw [mappedEnd]
  omega

theorem toNat_sizeOfRawData_eq_zero : s.sizeOfRawData.toNat = 0 ↔ s.sizeOfRawData = 0 := by
  rw [← BitVec.toNat_inj]
  rfl

theorem raw_eq_nil (h : s.sizeOfRawData = 0) (file : List UInt8) : s.raw file = [] := by
  rw [raw, toNat_sizeOfRawData_eq_zero.mpr h]
  exact List.take_zero

theorem length_raw (h : s.Fits file.length n) : (s.raw file).length = s.sizeOfRawData.toNat := by
  rw [raw, length_readAt]
  rcases h with h | h
  · rw [toNat_sizeOfRawData_eq_zero.mpr h, Nat.zero_min]
  · omega

end PeSection

theorem copyInto_nil (c : List UInt8) (off : ℕ) : copyInto c off [] = c := by
  simp [copyInto]

section Copy

variable {s : PeSection} {file image : List UInt8} {sections : List SectionTable} {rva : ℕ}

/-- **A section is copied exactly when it is inside the file and the image.** -/
theorem toOption_copySection (file image : List UInt8) (s : PeSection) :
    (copySection file image s).toOption =
      if s.Fits file.length image.length then
        some (copyInto image s.virtualAddress.toNat (s.raw file))
      else none := by
  have hmin : min s.sizeOfRawData.toNat (max s.virtualSize.toNat s.sizeOfRawData.toNat) =
      s.sizeOfRawData.toNat := by omega
  rw [copySection, hmin]
  by_cases hraw : s.sizeOfRawData = 0
  · rw [if_pos (PeSection.toNat_sizeOfRawData_eq_zero.mpr hraw), if_pos (.inl hraw),
      PeSection.raw_eq_nil hraw, copyInto_nil]
    rfl
  · have hp := s.pointerToRawData.isLt
    have hv := s.virtualAddress.isLt
    have hr := s.sizeOfRawData.isLt
    have hsource : checkedAdd s.pointerToRawData.toNat s.sizeOfRawData.toNat =
        some (s.pointerToRawData.toNat + s.sizeOfRawData.toNat) :=
      checkedAdd_eq_some.mpr ⟨rfl, by omega⟩
    have himage : checkedAdd s.virtualAddress.toNat s.sizeOfRawData.toNat =
        some (s.virtualAddress.toNat + s.sizeOfRawData.toNat) :=
      checkedAdd_eq_some.mpr ⟨rfl, by omega⟩
    rw [if_neg (mt PeSection.toNat_sizeOfRawData_eq_zero.mp hraw), hsource, himage]
    simp only [orContext, bind, Except.bind]
    by_cases hfile : file.length < s.pointerToRawData.toNat + s.sizeOfRawData.toNat
    · rw [if_pos hfile, if_neg]
      · rfl
      · rintro (h | h)
        · exact hraw h
        · omega
    · rw [if_neg hfile]
      by_cases hout : image.length < s.virtualAddress.toNat + s.sizeOfRawData.toNat
      · rw [if_pos hout, if_neg]
        · rfl
        · rintro (h | h)
          · exact hraw h
          · omega
      · rw [if_neg hout, if_pos (.inr ⟨by omega, by omega⟩)]
        rfl

theorem length_copyInto_raw (h : s.Fits file.length image.length) :
    (copyInto image s.virtualAddress.toNat (s.raw file)).length = image.length := by
  rcases h with h | h
  · rw [PeSection.raw_eq_nil h, copyInto_nil]
  · refine length_copyInto ?_
    rw [PeSection.length_raw (.inr h)]
    exact h.2

/-- The sections, one after the other. -/
def putSections (file : List UInt8) (sections : List SectionTable) (image : List UInt8) :
    List UInt8 :=
  sections.foldl (fun image s => copyInto image s.virtualAddress.toNat (s.raw file)) image

theorem copySections_eq_ok_iff {image' : List UInt8} :
    copySections file sections image = .ok image' ↔
      (∀ s ∈ sections, s.Fits file.length image.length) ∧
        image' = putSections file sections image := by
  induction sections generalizing image with
  | nil =>
    constructor
    · intro h
      cases h
      exact ⟨List.forall_mem_nil _, rfl⟩
    · rintro ⟨-, rfl⟩
      rfl
  | cons s rest ih =>
    have hstep := toOption_copySection file image s.toPeSection
    rw [copySections, List.foldlM_cons, List.forall_mem_cons]
    by_cases hfits : s.Fits file.length image.length
    · rw [if_pos hfits, toOption_eq_some] at hstep
      rw [hstep]
      refine ih.trans ?_
      rw [length_copyInto_raw hfits]
      simp only [hfits, true_and]
      rfl
    · rw [if_neg hfits, toOption_eq_none] at hstep
      obtain ⟨e, hstep⟩ := hstep
      rw [hstep]
      constructor
      · intro h
        cases h
      · rintro ⟨h, -⟩
        exact absurd h.1 hfits

theorem length_putSections (h : ∀ s ∈ sections, s.Fits file.length image.length) :
    (putSections file sections image).length = image.length := by
  induction sections generalizing image with
  | nil => rfl
  | cons s rest ih =>
    obtain ⟨hs, hrest⟩ := List.forall_mem_cons.mp h
    have hlen := length_copyInto_raw hs
    rw [← hlen] at hrest ⊢
    exact ih hrest

theorem getD_copyInto_raw (h : s.Fits file.length image.length) (rva : ℕ) :
    (copyInto image s.virtualAddress.toNat (s.raw file)).getD rva 0 =
      if s.RawHas rva then file.getD (s.offsetOf rva) 0 else image.getD rva 0 := by
  have hlen := PeSection.length_raw h
  rcases h with h | h
  · have hno : ¬s.RawHas rva := by
      rw [PeSection.RawHas, PeSection.toNat_sizeOfRawData_eq_zero.mpr h]
      omega
    rw [PeSection.raw_eq_nil h, copyInto_nil, if_neg hno]
  · rw [getD_copyInto (by rw [hlen]; exact h.2), hlen]
    by_cases hrva : s.RawHas rva
    · have hin : rva - s.virtualAddress.toNat < (s.raw file).length := by
        have := hrva.1
        have := hrva.2
        omega
      refine (if_pos hrva).trans ?_
      rw [if_pos hrva, List.getD_eq_getElem _ _ hin]
      exact getElem_readAt hin
    · exact (if_neg hrva).trans (if_neg hrva).symm

/-- **The last section that has a byte in the file puts it into the image.** -/
theorem getD_putSections (h : ∀ s ∈ sections, s.Fits file.length image.length) (rva : ℕ) :
    (putSections file sections image).getD rva 0 =
      ((sections.reverse.find? fun s => s.RawHas rva).map fun s =>
        file.getD (s.offsetOf rva) 0).getD (image.getD rva 0) := by
  induction sections generalizing image with
  | nil => rfl
  | cons s rest ih =>
    obtain ⟨hs, hrest⟩ := List.forall_mem_cons.mp h
    have hlen := length_copyInto_raw hs
    rw [← hlen] at hrest
    rw [putSections, List.foldl_cons, ← putSections, ih hrest, getD_copyInto_raw hs,
      List.reverse_cons, List.find?_append]
    cases rest.reverse.find? fun s => s.RawHas rva with
    | some s' => rfl
    | none =>
      by_cases hrva : s.RawHas rva
      · rw [if_pos hrva]
        simp [hrva]
      · rw [if_neg hrva]
        simp [hrva]

end Copy

/-! ### The image -/

namespace PeProgram

/-- The headers and every section are inside the file and the image. -/
structure Placed (pe : PeProgram) (file : List UInt8) : Prop extends pe.Identified where
  headersInFile : pe.sizeOfHeaders ≤ file.length
  headersInImage : pe.sizeOfHeaders ≤ pe.sizeOfImage
  sections : ∀ s ∈ pe.sections, s.Fits file.length pe.sizeOfImage

/-- The headers, and zeros after them. -/
def headerImage (pe : PeProgram) (file : List UInt8) : List UInt8 :=
  copyInto (List.replicate pe.sizeOfImage 0) 0 (file.take pe.sizeOfHeaders)

/-- What the summary of a load is. -/
def summary (pe : PeProgram) : PeLoadedImageSummary where
  imageBase := pe.imageBase.toNat
  entryRva := pe.entry.toNat
  entryPointVa := pe.imageBase.toNat + pe.entry.toNat
  imageSize := pe.sizeOfImage
  headerSize := pe.sizeOfHeaders
  sectionCount := pe.sections.length

variable {pe : PeProgram} {file image : List UInt8} {rva : ℕ}

theorem length_headerImage (hfile : pe.sizeOfHeaders ≤ file.length)
    (himage : pe.sizeOfHeaders ≤ pe.sizeOfImage) :
    (pe.headerImage file).length = pe.sizeOfImage := by
  have hlen : (file.take pe.sizeOfHeaders).length = pe.sizeOfHeaders := by
    rw [List.length_take, Nat.min_eq_left hfile]
  rw [headerImage, length_copyInto]
  · exact List.length_replicate
  · rw [hlen, List.length_replicate]
    omega

theorem getD_headerImage (hfile : pe.sizeOfHeaders ≤ file.length)
    (himage : pe.sizeOfHeaders ≤ pe.sizeOfImage) (rva : ℕ) :
    (pe.headerImage file).getD rva 0 = if rva < pe.sizeOfHeaders then file.getD rva 0 else 0 := by
  have hlen : (file.take pe.sizeOfHeaders).length = pe.sizeOfHeaders := by
    rw [List.length_take, Nat.min_eq_left hfile]
  rw [headerImage, getD_copyInto (by rw [hlen, List.length_replicate]; omega), hlen]
  by_cases hrva : rva < pe.sizeOfHeaders
  · rw [if_pos ⟨Nat.zero_le _, by omega⟩, if_pos hrva, Nat.sub_zero]
    simp [List.getD_eq_getElem?_getD, List.getElem?_take_of_lt hrva]
  · rw [if_neg (by omega), if_neg hrva]
    simp [List.getD_eq_getElem?_getD]

/-- A byte of the image: the one of the last section that has it in the file, or a byte of the
headers, or zero. -/
def loadedByte (pe : PeProgram) (file : List UInt8) (rva : ℕ) : UInt8 :=
  ((pe.sections.reverse.find? fun s => s.RawHas rva).map fun s =>
    file.getD (s.offsetOf rva) 0).getD (if rva < pe.sizeOfHeaders then file.getD rva 0 else 0)

end PeProgram

section Image

variable {pe : PeProgram} {file image : List UInt8} {summary : PeLoadedImageSummary} {rva : ℕ}

/-- **An image is built exactly when everything is inside the file and the image.** -/
theorem buildLoadedImageFromParsed_eq_ok_iff :
    buildLoadedImageFromParsed pe file = .ok (image, summary) ↔
      pe.Placed file ∧ image = putSections file pe.sections (pe.headerImage file) ∧
        summary = pe.summary := by
  rw [buildLoadedImageFromParsed]
  by_cases hid : pe.Identified
  · have hok := toOption_eq_some.mp (toOption_peIdentityFromParsed hid)
    rw [hid.is64, Bool.not_true, if_neg Bool.false_ne_true, hok]
    simp only [bind, Except.bind]
    by_cases hfile : file.length < pe.sizeOfHeaders
    · rw [if_pos (by exact hfile)]
      constructor
      · intro h
        cases h
      · intro h
        exact absurd h.1.headersInFile (by omega)
    · rw [if_neg (by exact hfile)]
      by_cases himage : pe.sizeOfImage < pe.sizeOfHeaders
      · rw [if_pos (by exact himage)]
        constructor
        · intro h
          cases h
        · intro h
          exact absurd h.1.headersInImage (by omega)
      · rw [if_neg (by exact himage)]
        have hlen := pe.length_headerImage (Nat.not_lt.mp hfile) (Nat.not_lt.mp himage)
        have hcopy := @copySections_eq_ok_iff file (pe.headerImage file) pe.sections
        rw [hlen] at hcopy
        have hsame : copyInto (List.replicate pe.identity.sizeOfImage 0) 0
            (file.take pe.identity.sizeOfHeaders) = pe.headerImage file := rfl
        rw [hsame]
        constructor
        · intro h
          cases hcopied : copySections file pe.sections (pe.headerImage file) with
          | error e =>
            rw [hcopied] at h
            cases h
          | ok copied =>
            rw [hcopied] at h
            cases h
            obtain ⟨hfits, rfl⟩ := hcopy.mp hcopied
            exact ⟨⟨hid, Nat.not_lt.mp hfile, Nat.not_lt.mp himage, hfits⟩, rfl, rfl⟩
        · rintro ⟨h, rfl, rfl⟩
          rw [hcopy.mpr ⟨h.sections, rfl⟩]
          rfl
  · constructor
    · intro h
      cases h64 : pe.is64 with
      | false =>
        rw [h64] at h
        cases h
      | true =>
        rw [h64, Bool.not_true, if_neg Bool.false_ne_true] at h
        cases hok : peIdentityFromParsed pe with
        | error e =>
          rw [hok] at h
          cases h
        | ok identity => exact absurd (peIdentityFromParsed_eq_ok_iff.mp hok).1 hid
    · intro h
      exact absurd h.1.toIdentified hid

/-- **What the image holds.** -/
theorem getD_loadedImage (h : buildLoadedImageFromParsed pe file = .ok (image, summary)) (rva : ℕ) :
    image.getD rva 0 = pe.loadedByte file rva := by
  obtain ⟨hplaced, rfl, -⟩ := buildLoadedImageFromParsed_eq_ok_iff.mp h
  have hlen := pe.length_headerImage hplaced.headersInFile hplaced.headersInImage
  rw [getD_putSections (by rw [hlen]; exact hplaced.sections),
    pe.getD_headerImage hplaced.headersInFile hplaced.headersInImage]
  rfl

theorem length_loadedImage (h : buildLoadedImageFromParsed pe file = .ok (image, summary)) :
    image.length = pe.sizeOfImage := by
  obtain ⟨hplaced, rfl, -⟩ := buildLoadedImageFromParsed_eq_ok_iff.mp h
  have hlen := pe.length_headerImage hplaced.headersInFile hplaced.headersInImage
  rw [length_putSections (by rw [hlen]; exact hplaced.sections), hlen]

/-! ### The file in place of the image -/

/-- No address is in two sections. -/
def SectionsApart (s t : SectionTable) : Prop := ∀ rva, s.Has rva → ¬t.Has rva

instance : Std.Symm SectionsApart := ⟨fun _ _ h rva ht hs => h rva hs ht⟩

/-- Wherever the file is read for an address, it has what the image has. -/
structure ReadsAgree (pe : PeProgram) (file image : List UInt8) : Prop where
  /-- One byte. -/
  byte : ∀ rva off, pe.rvaToFileOffset rva = .ok off → off < file.length → image[rva]? = file[off]?
  /-- A field of a descriptor, a thunk or a name: its bytes are in the file one after the other. -/
  field : ∀ rva off n, (∀ i < n, pe.rvaToFileOffset (rva + i) = .ok (off + i)) →
    off + n ≤ file.length → readAt image rva n = readAt file off n

/-- What the file has after the bytes of a section, up to its virtual size, is zero, or the headers
if the section is in their place; and this is inside the image. -/
def PeProgram.TailsAgree (pe : PeProgram) (file : List UInt8) : Prop :=
  ∀ s ∈ pe.sections, ∀ i, s.sizeOfRawData.toNat ≤ i → i < s.virtualSize.toNat →
    s.pointerToRawData.toNat + i < file.length →
      s.virtualAddress.toNat + i < pe.sizeOfImage ∧
        file.getD (s.pointerToRawData.toNat + i) 0 =
          if s.virtualAddress.toNat + i < pe.sizeOfHeaders then
            file.getD (s.virtualAddress.toNat + i) 0
          else 0

theorem eq_of_has {sections : List SectionTable} (hapart : sections.Pairwise SectionsApart)
    {s t : SectionTable} (hs : s ∈ sections) (ht : t ∈ sections) (hsrva : s.Has rva)
    (htrva : t.Has rva) : s = t := by
  by_contra hne
  exact hapart.forall hs ht hne rva hsrva htrva

theorem find?_has {sections : List SectionTable} (hapart : sections.Pairwise SectionsApart)
    {s : SectionTable} (hs : s ∈ sections) (hrva : s.Has rva) :
    sections.find? (fun s => s.Has rva) = some s := by
  cases hfound : sections.find? (fun s => s.Has rva) with
  | none => exact absurd hrva (by simpa using List.find?_eq_none.mp hfound s hs)
  | some t =>
    have ht : t.Has rva := by simpa using List.find?_some hfound
    rw [eq_of_has hapart (List.mem_of_find?_eq_some hfound) hs ht hrva]

/-- A byte of the only section that has an address. -/
theorem loadedByte_eq (hapart : pe.sections.Pairwise SectionsApart) {s : SectionTable}
    (hs : s ∈ pe.sections) (hrva : s.Has rva) : pe.loadedByte file rva =
      if s.RawHas rva then file.getD (s.offsetOf rva) 0
      else if rva < pe.sizeOfHeaders then file.getD rva 0 else 0 := by
  rw [PeProgram.loadedByte]
  cases hfound : pe.sections.reverse.find? (fun s => s.RawHas rva) with
  | none =>
    have hno : ¬s.RawHas rva := by
      simpa using List.find?_eq_none.mp hfound s (List.mem_reverse.mpr hs)
    rw [if_neg hno]
    rfl
  | some t =>
    have ht : t.RawHas rva := by simpa using List.find?_some hfound
    have hmem := List.mem_reverse.mp (List.mem_of_find?_eq_some hfound)
    obtain rfl := eq_of_has hapart hs hmem hrva ht.has
    rw [if_pos ht]
    rfl

theorem getElem?_eq_iff {i j : ℕ} {u v : List UInt8} (hj : j < v.length) :
    u[i]? = v[j]? ↔ i < u.length ∧ u.getD i 0 = v.getD j 0 := by
  rw [List.getElem?_eq_getElem hj, List.getD_eq_getElem _ _ hj]
  constructor
  · intro h
    obtain ⟨hi, h⟩ := List.getElem?_eq_some_iff.mp h
    exact ⟨hi, by rw [List.getD_eq_getElem _ _ hi, h]⟩
  · rintro ⟨hi, h⟩
    rw [List.getD_eq_getElem _ _ hi] at h
    rw [List.getElem?_eq_getElem hi, h]

/-- Bytes that agree one by one agree. -/
theorem readAt_eq_of_getElem? {i j n : ℕ} {u v : List UInt8} (h : ∀ k < n, u[i + k]? = v[j + k]?) :
    readAt u i n = readAt v j n := by
  refine List.ext_getElem? fun k => ?_
  rw [readAt, readAt]
  by_cases hk : k < n
  · rw [List.getElem?_take_of_lt hk, List.getElem?_take_of_lt hk, List.getElem?_drop,
      List.getElem?_drop, h k hk]
  · rw [List.getElem?_eq_none, List.getElem?_eq_none] <;> rw [List.length_take] <;> omega

/-- A byte of a section, in the file and in the image. -/
theorem byte_eq_iff (hapart : pe.sections.Pairwise SectionsApart)
    (h : buildLoadedImageFromParsed pe file = .ok (image, summary)) {s : SectionTable}
    (hs : s ∈ pe.sections) (hrva : s.Has rva) (hfile : s.offsetOf rva < file.length) :
    image[rva]? = file[s.offsetOf rva]? ↔ s.RawHas rva ∨ (rva < pe.sizeOfImage ∧
      file.getD (s.offsetOf rva) 0 = if rva < pe.sizeOfHeaders then file.getD rva 0 else 0) := by
  rw [getElem?_eq_iff hfile, length_loadedImage h, getD_loadedImage h,
    loadedByte_eq hapart hs hrva]
  by_cases hraw : s.RawHas rva
  · have hin : rva < pe.sizeOfImage := by
      have hbounds := hraw
      rw [PeSection.RawHas] at hbounds
      rcases (buildLoadedImageFromParsed_eq_ok_iff.mp h).1.sections s hs with hzero | hfits
      · rw [PeSection.toNat_sizeOfRawData_eq_zero.mpr hzero] at hbounds
        omega
      · omega
    simp [hraw, hin]
  · rw [if_neg hraw]
    simp only [hraw, false_or]
    exact and_congr_right fun _ => eq_comm

/-- **The file is a picture of the image exactly when what it has after the bytes of each section
is.** -/
theorem readsAgree_iff (hapart : pe.sections.Pairwise SectionsApart)
    (h : buildLoadedImageFromParsed pe file = .ok (image, summary)) :
    ReadsAgree pe file image ↔ pe.TailsAgree file := by
  constructor
  · intro hreads s hs i hraw hvirtual hfile
    have hrva : s.Has (s.virtualAddress.toNat + i) := by
      refine ⟨by omega, ?_⟩
      rw [PeSection.mappedEnd]
      omega
    have hnot : ¬s.RawHas (s.virtualAddress.toNat + i) := fun hin => by
      have := hin.2
      omega
    have hoff : s.offsetOf (s.virtualAddress.toNat + i) = s.pointerToRawData.toNat + i := by
      rw [PeSection.offsetOf, Nat.add_sub_cancel_left]
    have hbyte := hreads.byte _ _
      (PeProgram.rvaToFileOffset_eq_ok_iff.mpr ⟨s, find?_has hapart hs hrva, rfl⟩)
    rw [← PeSection.offsetOf] at hbyte
    rw [← hoff] at hfile ⊢
    exact ((byte_eq_iff hapart h hs hrva hfile).mp (hbyte hfile)).resolve_left hnot
  · intro htails
    have hbyte : ∀ rva off, pe.rvaToFileOffset rva = .ok off → off < file.length →
        image[rva]? = file[off]? := by
      intro rva off hoff hfile
      obtain ⟨s, hfound, rfl⟩ := PeProgram.rvaToFileOffset_eq_ok_iff.mp hoff
      have hs := List.mem_of_find?_eq_some hfound
      have hrva : s.Has rva := by simpa using List.find?_some hfound
      refine (byte_eq_iff hapart h hs hrva hfile).mpr ?_
      by_cases hraw : s.RawHas rva
      · exact .inl hraw
      · obtain ⟨i, rfl⟩ := Nat.exists_eq_add_of_le hrva.1
        have htail := hrva.2
        rw [PeSection.RawHas] at hraw
        rw [PeSection.mappedEnd] at htail
        rw [PeSection.offsetOf, Nat.add_sub_cancel_left]
        rw [Nat.add_sub_cancel_left] at hfile
        exact .inr (htails s hs i (by omega) (by omega) hfile)
    refine ⟨hbyte, fun rva off n hoff hfile => readAt_eq_of_getElem? fun i hi => ?_⟩
    exact hbyte _ _ (hoff i hi) (by omega)

/-! ### A section with a tail -/

/-- A program: its first section has 0x400 bytes of which the file has 0x200, and the next section
comes after these in the file. -/
def tailProgram : PeProgram where
  is64 := true
  machine := 0x8664
  imageBase := 0x180000000
  entry := 0
  sections := [⟨⟨0x1000, 0x400, 0x200, 0x200⟩, some [], 0xc0000040⟩,
    ⟨⟨0x2000, 0x200, 0x200, 0x400⟩, some [], 0xc0000040⟩]
  optionalHeader := some ⟨0x3000, 0x200, none⟩

/-- Its file. -/
def tailProgramFile : List UInt8 :=
  dllHeaders 0x3000 ⟨0, 0⟩ ⟨0, 0⟩ (tailProgram.sections.map SectionTable.toPeSection) ++
    List.replicate 0x200 0 ++ List.replicate 0x200 0xc3

theorem sectionsApart_tail : tailProgram.sections.Pairwise SectionsApart := by
  refine .cons ?_ (.cons (fun t ht => nomatch ht) .nil)
  intro t ht rva hs htrva
  rw [List.mem_singleton.mp ht] at htrva
  have h1 : rva < 0x1400 := hs.2
  have h2 : 0x2000 ≤ rva := htrva.1
  omega

theorem placed_tail : tailProgram.Placed tailProgramFile where
  is64 := rfl
  header := rfl
  entry := by decide
  headersInFile := by decide +kernel
  headersInImage := by decide
  sections := by decide +kernel

/-- The image of the program. -/
theorem build_tail : buildLoadedImageFromParsed tailProgram tailProgramFile =
    .ok (putSections tailProgramFile tailProgram.sections (tailProgram.headerImage tailProgramFile),
      tailProgram.summary) :=
  buildLoadedImageFromParsed_eq_ok_iff.mpr ⟨placed_tail, rfl, rfl⟩

theorem readsAgree_tail :
    ReadsAgree tailProgram tailProgramFile (putSections tailProgramFile tailProgram.sections
      (tailProgram.headerImage tailProgramFile)) ↔ tailProgram.TailsAgree tailProgramFile :=
  readsAgree_iff sectionsApart_tail build_tail

/-- The tail of a section is read from the section that is next in the file. -/
theorem not_readsAgree : ¬∀ (pe : PeProgram) (file image : List UInt8)
    (summary : PeLoadedImageSummary), pe.sections.Pairwise SectionsApart →
      buildLoadedImageFromParsed pe file = .ok (image, summary) → ReadsAgree pe file image := by
  intro h
  have hbyte := (h _ _ _ _ sectionsApart_tail build_tail).byte 0x1200 0x400
    (PeProgram.rvaToFileOffset_eq_ok_iff.mpr ⟨_, rfl, rfl⟩) (by decide +kernel)
  rw [getElem?_eq_iff (by decide +kernel), getD_loadedImage build_tail] at hbyte
  exact absurd hbyte.2 (by decide +kernel)

end Image

end Wie
