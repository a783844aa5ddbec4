import Mathlib.Data.List.Pairwise
import Wie.Lib.Patches
import Wie.Pe.Image

/-!
# Base relocations

A DLL that is loaded away from its preferred base has a difference added to certain fields of its
image. The fields are listed in blocks of the relocation directory. The old value of a field is read
from the file, the new one is written to the image, and a field that is not in both is passed over.

## Main definitions

* `applyRelocations` — what the loader does
* `Pe.relocEntries` — the entries of the directory
* `Relocated` — what is to become of the image

## Main results

* `applyRelocations_ne_none` — the loop of blocks ends
* `applyRelocations_relocated_iff` — when the right fields are moved
-/

namespace Wie

variable {pe : Pe} {file data image image' : List UInt8} {delta : BitVec 64}

/-! ### The loader -/

/-- `i32::try_from(delta).unwrap_or(0)`. -/
def deltaI32 (delta : BitVec 64) : BitVec 32 :=
  if -2 ^ 31 ≤ delta.toInt ∧ delta.toInt < 2 ^ 31 then delta.setWidth 32 else 0

/-- A field of `n` bytes: the number in the file with another one added, put into the image. -/
def relocateField (pe : Pe) (file : List UInt8) (n amount : ℕ) (targetRva : BitVec 32)
    (image : List UInt8) : List UInt8 :=
  match pe.rvaToFileOffset targetRva with
  | .error _ => image
  | .ok targetFileOff =>
    if file.length < targetFileOff + n then image
    else
      let original := fromLe (readAt file targetFileOff n)
      if image.length < targetRva.toNat + n then image
      else copyInto image targetRva.toNat (toLe n (original + amount))

/-- One entry. -/
def applyEntry (pe : Pe) (file : List UInt8) (delta : BitVec 64) (pageRva : BitVec 32)
    (entry : BitVec 16) (image : List UInt8) : Except String (List UInt8) :=
  let type := entry.toNat / 2 ^ 12
  let targetRva := pageRva + .ofNat 32 (entry.toNat % 2 ^ 12)
  match type with
  | 0 => .ok image
  | 3 => .ok (relocateField pe file 4 (deltaI32 delta).toNat targetRva image)
  | 10 => .ok (relocateField pe file 8 delta.toNat targetRva image)
  | _ => .error s!"unsupported relocation type {type} at RVA {hex targetRva.toNat}"

/-- The loop over `count` entries of a block. -/
def entryLoop (pe : Pe) (file data : List UInt8) (delta : BitVec 64) (pageRva : BitVec 32) :
    ℕ → ℕ → List UInt8 → Except String (List UInt8)
  | 0, _, image => .ok image
  | count + 1, entryOff, image =>
    if data.length < entryOff + 2 then
      .error s!"relocation entry at offset {entryOff} exceeds block data"
    else
      match applyEntry pe file delta pageRva (readU16Le data entryOff) image with
      | .error e => .error e
      | .ok image => entryLoop pe file data delta pageRva count (entryOff + 2) image

/-- The loop over blocks; `none` when it has not ended. -/
def blockLoop (pe : Pe) (file data : List UInt8) (delta : BitVec 64) :
    ℕ → ℕ → List UInt8 → Option (Except String (List UInt8))
  | 0, _, _ => none
  | fuel + 1, offset, image =>
    if data.length < offset + 8 then some (.ok image)
    else
      let pageRva := readU32Le data offset
      let blockSize := (readU32Le data (offset + 4)).toNat
      if blockSize = 0 then some (.ok image)
      else if blockSize < 8 then some (.error s!"invalid relocation block size: {blockSize}")
      else
        match entryLoop pe file data delta pageRva ((blockSize - 8) / 2) (offset + 8) image with
        | .error e => some (.error e)
        | .ok image =>
          if data.length ≤ offset + blockSize then some (.ok image)
          else blockLoop pe file data delta fuel (offset + blockSize) image

/-- The bytes of the relocation directory. -/
def Pe.relocData (pe : Pe) (file : List UInt8) : Except String (List UInt8) :=
  match pe.optionalHeader with
  | none => .error "no optional header for relocation processing"
  | some header =>
    match header.baseRelocationTable with
    | none => .error "no base relocation directory"
    | some relocDir =>
      if relocDir.virtualAddress = 0 ∨ relocDir.size = 0 then
        .error "DLL has no relocation table; cannot load at a different base"
      else
        match pe.rvaToFileOffset relocDir.virtualAddress with
        | .error _ => .error "relocation table RVA outside file"
        | .ok relocOffset =>
          if file.length < relocOffset + relocDir.size.toNat then
            .error "relocation data extends beyond file"
          else .ok (readAt file relocOffset relocDir.size.toNat)

/-- `apply_relocations`. -/
def applyRelocations (pe : Pe) (file image : List UInt8) (delta : BitVec 64) :
    Option (Except String (List UInt8)) :=
  if delta = 0 then some (.ok image)
  else
    match pe.relocData file with
    | .error e => some (.error e)
    | .ok data => blockLoop pe file data delta (data.length + 1) 0 image

/-! ### The directory -/

/-- An entry: its type and the address of its field. -/
structure RelocEntry where
  /-- The type. -/
  type : ℕ
  /-- The address. -/
  rva : BitVec 32
  deriving DecidableEq

namespace RelocEntry

/-- The bytes of the field. -/
def width (e : RelocEntry) : ℕ := if e.type = 3 then 4 else if e.type = 10 then 8 else 0

/-- An entry as it is in the directory. -/
def ofWord (pageRva : BitVec 32) (entry : BitVec 16) : RelocEntry :=
  ⟨entry.toNat / 2 ^ 12, pageRva + .ofNat 32 (entry.toNat % 2 ^ 12)⟩

end RelocEntry

/-- The entries of a block, as many as there are. -/
def blockEntries (data : List UInt8) (pageRva : BitVec 32) : ℕ → ℕ → List RelocEntry
  | 0, _ => []
  | count + 1, entryOff =>
    if data.length < entryOff + 2 then []
    else .ofWord pageRva (readU16Le data entryOff) :: blockEntries data pageRva count (entryOff + 2)

/-- The entries of all blocks from an offset on. -/
def directoryEntries (data : List UInt8) : ℕ → ℕ → List RelocEntry
  | 0, _ => []
  | fuel + 1, offset =>
    let blockSize := (readU32Le data (offset + 4)).toNat
    if data.length < offset + 8 ∨ blockSize < 8 then []
    else blockEntries data (readU32Le data offset) ((blockSize - 8) / 2) (offset + 8) ++
      directoryEntries data fuel (offset + blockSize)

/-- The entries of the relocation directory. -/
def Pe.relocEntries (pe : Pe) (file : List UInt8) : List RelocEntry :=
  match pe.relocData file with
  | .error _ => []
  | .ok data => directoryEntries data (data.length + 1) 0

/-- The number that an image has at an address. -/
def imageField (image : List UInt8) (e : RelocEntry) : ℕ := fromLe (readAt image e.rva.toNat e.width)

/-- **What is to become of an image.** -/
structure Relocated (entries : List RelocEntry) (delta : BitVec 64) (image image' : List UInt8) :
    Prop where
  /-- Each field is in the image and has moved. -/
  moved : ∀ e ∈ entries, e.width ≠ 0 → e.rva.toNat + e.width ≤ image.length ∧
    imageField image' e = (imageField image e + delta.toNat) % 256 ^ e.width
  /-- The image keeps its size. -/
  size : image'.length = image.length
  /-- All other bytes stay. -/
  frame : ∀ i, (∀ e ∈ entries, i < e.rva.toNat ∨ e.rva.toNat + e.width ≤ i) →
    image'.getD i 0 = image.getD i 0

/-- The fields of two entries do not overlap. -/
def FieldsApart (e e' : RelocEntry) : Prop :=
  e.width = 0 ∨ e'.width = 0 ∨ e.rva.toNat + e.width ≤ e'.rva.toNat ∨
    e'.rva.toNat + e'.width ≤ e.rva.toNat

/-! ### What the loader writes -/

namespace RelocEntry

/-- The number that the file has for a field. -/
def fileField (pe : Pe) (file : List UInt8) (e : RelocEntry) : Option ℕ :=
  match pe.rvaToFileOffset e.rva with
  | .error _ => none
  | .ok off => if file.length < off + e.width then none else some (fromLe (readAt file off e.width))

/-- The number that is added. -/
def amount (delta : BitVec 64) (e : RelocEntry) : ℕ :=
  if e.type = 3 then (deltaI32 delta).toNat else delta.toNat

/-- What an entry writes to an image of `n` bytes. -/
def patch (pe : Pe) (file : List UInt8) (delta : BitVec 64) (n : ℕ) (e : RelocEntry) :
    Option (ℕ × List UInt8) :=
  if e.width = 0 ∨ n < e.rva.toNat + e.width then none
  else (e.fileField pe file).map fun v => (e.rva.toNat, toLe e.width (v + e.amount delta))

variable {e : RelocEntry} {n : ℕ} {p : ℕ × List UInt8}

theorem patch_eq_some (h : e.patch pe file delta n = some p) : e.width ≠ 0 ∧
    e.rva.toNat + e.width ≤ n ∧ p.1 = e.rva.toNat ∧ p.2.length = e.width ∧
    ∃ v, e.fileField pe file = some v ∧ p.2 = toLe e.width (v + e.amount delta) := by
  rw [patch] at h
  split_ifs at h with hc
  obtain ⟨v, hv, rfl⟩ := Option.map_eq_some_iff.mp h
  exact ⟨by omega, by omega, rfl, length_toLe .., v, hv, rfl⟩

end RelocEntry

theorem relocateField_eq {e : RelocEntry} (hw : e.width ≠ 0) :
    relocateField pe file e.width (e.amount delta) e.rva image =
      patchAll (e.patch pe file delta image.length).toList image := by
  rw [relocateField, RelocEntry.patch, RelocEntry.fileField]
  cases pe.rvaToFileOffset e.rva with
  | error m =>
    simp only [Option.map_none, ite_self]
    rfl
  | ok off =>
    simp only
    by_cases hfile : file.length < off + e.width
    · rw [if_pos hfile, if_pos hfile, Option.map_none, ite_self]
      rfl
    · rw [if_neg hfile, if_neg hfile]
      by_cases himage : image.length < e.rva.toNat + e.width
      · rw [if_pos himage, if_pos (.inr himage)]
        rfl
      · rw [if_neg himage, if_neg (by omega)]
        rfl

/-- An entry that is accepted. -/
theorem applyEntry_eq_ok {pageRva : BitVec 32} {entry : BitVec 16}
    (h : applyEntry pe file delta pageRva entry image = .ok image') : image' =
      patchAll ((RelocEntry.ofWord pageRva entry).patch pe file delta image.length).toList image := by
  rw [applyEntry] at h
  split at h
  · rename_i ht
    cases h
    have hw : (RelocEntry.ofWord pageRva entry).width = 0 := by
      rw [RelocEntry.width, RelocEntry.ofWord, ht]
      rfl
    rw [RelocEntry.patch, if_pos (.inl hw)]
    rfl
  · rename_i ht
    cases h
    have hw : (RelocEntry.ofWord pageRva entry).width = 4 := by
      rw [RelocEntry.width, RelocEntry.ofWord, ht]
      rfl
    have ha : (RelocEntry.ofWord pageRva entry).amount delta = (deltaI32 delta).toNat :=
      if_pos ht
    rw [← relocateField_eq (by omega), hw, ha]
    rfl
  · rename_i ht
    cases h
    have hw : (RelocEntry.ofWord pageRva entry).width = 8 := by
      rw [RelocEntry.width, RelocEntry.ofWord, ht]
      rfl
    have ha : (RelocEntry.ofWord pageRva entry).amount delta = delta.toNat := by
      rw [RelocEntry.amount, RelocEntry.ofWord, ht]
      rfl
    rw [← relocateField_eq (by omega), hw, ha]
    rfl
  · cases h

theorem patchesFit_entries (pe : Pe) (file : List UInt8) (delta : BitVec 64) (n : ℕ)
    (entries : List RelocEntry) :
    PatchesFit n (entries.filterMap (RelocEntry.patch pe file delta n)) := by
  intro p hp
  obtain ⟨e, -, he⟩ := List.mem_filterMap.mp hp
  obtain ⟨-, hfit, h1, h2, -⟩ := RelocEntry.patch_eq_some he
  omega

theorem length_patch (e : RelocEntry) :
    (patchAll (e.patch pe file delta image.length).toList image).length = image.length := by
  have h := patchesFit_entries pe file delta image.length [e]
  rw [List.filterMap_cons, List.filterMap_nil] at h
  cases hp : e.patch pe file delta image.length with
  | none => rfl
  | some p =>
    rw [hp] at h
    exact length_patchAll h

theorem patchAll_cons_entry (e : RelocEntry) (entries : List RelocEntry) :
    patchAll ((e :: entries).filterMap (RelocEntry.patch pe file delta image.length)) image =
      patchAll (entries.filterMap (RelocEntry.patch pe file delta image.length))
        (patchAll (e.patch pe file delta image.length).toList image) := by
  rw [List.filterMap_cons]
  cases e.patch pe file delta image.length with
  | none => rfl
  | some p => rfl

/-- The entries of a block. -/
theorem entryLoop_eq_ok {pageRva : BitVec 32} {count entryOff : ℕ}
    (h : entryLoop pe file data delta pageRva count entryOff image = .ok image') :
    image' = patchAll ((blockEntries data pageRva count entryOff).filterMap
      (RelocEntry.patch pe file delta image.length)) image ∧ image'.length = image.length := by
  induction count generalizing entryOff image with
  | zero =>
    cases h
    exact ⟨rfl, rfl⟩
  | succ count ih =>
    rw [entryLoop] at h
    split_ifs at h with hoff
    rw [blockEntries, if_neg hoff, patchAll_cons_entry]
    cases he : applyEntry pe file delta pageRva (readU16Le data entryOff) image with
    | error m =>
      rw [he] at h
      cases h
    | ok image₁ =>
      rw [he] at h
      obtain rfl := applyEntry_eq_ok he
      obtain ⟨hpatch, hlen⟩ := ih h
      rw [length_patch] at hpatch hlen
      exact ⟨hpatch, hlen⟩

theorem directoryEntries_of_le {fuel offset : ℕ} (h : data.length < offset + 8) :
    directoryEntries data fuel offset = [] := by
  cases fuel with
  | zero => rfl
  | succ fuel => rw [directoryEntries, if_pos (.inl h)]

/-- **The blocks.** -/
theorem blockLoop_eq_ok {fuel offset : ℕ}
    (h : blockLoop pe file data delta fuel offset image = some (.ok image')) :
    image' = patchAll ((directoryEntries data fuel offset).filterMap
      (RelocEntry.patch pe file delta image.length)) image := by
  induction fuel generalizing offset image with
  | zero => cases h
  | succ fuel ih =>
    rw [blockLoop] at h
    by_cases hend : data.length < offset + 8
    · rw [if_pos hend] at h
      cases h
      rw [directoryEntries_of_le hend]
      rfl
    · rw [if_neg hend] at h
      by_cases hzero : (readU32Le data (offset + 4)).toNat = 0
      · simp only [if_pos hzero] at h
        cases h
        rw [directoryEntries, if_pos (.inr (by omega))]
        rfl
      · simp only [if_neg hzero] at h
        by_cases hsmall : (readU32Le data (offset + 4)).toNat < 8
        · rw [if_pos hsmall] at h
          cases h
        · rw [if_neg hsmall] at h
          rw [directoryEntries, if_neg (by omega)]
          cases he : entryLoop pe file data delta (readU32Le data offset)
              (((readU32Le data (offset + 4)).toNat - 8) / 2) (offset + 8) image with
          | error m =>
            rw [he] at h
            cases h
          | ok image₁ =>
            obtain ⟨rfl, hlen⟩ := entryLoop_eq_ok he
            rw [he] at h
            simp only at h
            rw [List.filterMap_append, patchAll, List.foldl_append]
            split_ifs at h with hlast
            · cases h
              rw [directoryEntries_of_le (by omega)]
              rfl
            · have hrest := ih h
              rw [hlen] at hrest
              exact hrest

/-- **The loop of blocks ends**: each block has at least eight bytes. -/
theorem blockLoop_ne_none {fuel offset : ℕ} (h : data.length < offset + 8 + fuel) :
    blockLoop pe file data delta (fuel + 1) offset image ≠ none := by
  induction fuel generalizing offset image with
  | zero =>
    rw [blockLoop, if_pos (by omega)]
    exact Option.some_ne_none _
  | succ fuel ih =>
    rw [blockLoop]
    split_ifs with hend
    · exact Option.some_ne_none _
    · simp only
      by_cases hzero : (readU32Le data (offset + 4)).toNat = 0
      · rw [if_pos hzero]
        exact Option.some_ne_none _
      · rw [if_neg hzero]
        by_cases hsmall : (readU32Le data (offset + 4)).toNat < 8
        · rw [if_pos hsmall]
          exact Option.some_ne_none _
        · rw [if_neg hsmall]
          cases entryLoop pe file data delta (readU32Le data offset)
              (((readU32Le data (offset + 4)).toNat - 8) / 2) (offset + 8) image with
          | error m => exact Option.some_ne_none _
          | ok image₁ =>
            by_cases hlast : data.length ≤ offset + (readU32Le data (offset + 4)).toNat
            · simp only [if_pos hlast]
              exact Option.some_ne_none _
            · simp only [if_neg hlast]
              exact ih (by omega)

/-- **The loader ends**, whatever the directory says. -/
theorem applyRelocations_ne_none (pe : Pe) (file image : List UInt8) (delta : BitVec 64) :
    applyRelocations pe file image delta ≠ none := by
  rw [applyRelocations]
  by_cases hd : delta = 0
  · rw [if_pos hd]
    exact Option.some_ne_none _
  · rw [if_neg hd]
    cases pe.relocData file with
    | error e => exact Option.some_ne_none _
    | ok data => exact blockLoop_ne_none (by omega)

/-- **What the loader writes.** -/
theorem applyRelocations_eq_ok (hd : delta ≠ 0)
    (h : applyRelocations pe file image delta = some (.ok image')) :
    image' = patchAll ((pe.relocEntries file).filterMap
      (RelocEntry.patch pe file delta image.length)) image := by
  rw [applyRelocations, if_neg hd] at h
  rw [Pe.relocEntries]
  cases hdata : pe.relocData file with
  | error e =>
    rw [hdata] at h
    cases h
  | ok data =>
    rw [hdata] at h
    exact blockLoop_eq_ok h

/-- The image stays as long as it was. -/
theorem length_applyRelocations (hd : delta ≠ 0)
    (h : applyRelocations pe file image delta = some (.ok image')) :
    image'.length = image.length := by
  rw [applyRelocations_eq_ok hd h]
  exact length_patchAll (patchesFit_entries pe file delta image.length _)

/-! ### The fields -/

/-- When the field of an entry is moved: it is in the image, and the file has the old value for it.
A difference that is no number of 32 bits is not added to a field of four bytes, and then the file
must have the new value. -/
def FieldAgrees (pe : Pe) (file image : List UInt8) (delta : BitVec 64) (e : RelocEntry) : Prop :=
  e.rva.toNat + e.width ≤ image.length ∧ (delta ≠ 0 →
    if e.type = 3 ∧ ¬(-2 ^ 31 ≤ delta.toInt ∧ delta.toInt < 2 ^ 31) then
      match e.fileField pe file with
      | some v => v = (imageField image e + delta.toNat) % 2 ^ 32
      | none => delta.toNat % 2 ^ 32 = 0
    else e.fileField pe file = some (imageField image e))

instance : Std.Symm FieldsApart where
  symm a b hab := by
    rw [FieldsApart] at hab ⊢
    omega

theorem imageField_lt (image : List UInt8) (e : RelocEntry) :
    imageField image e < 256 ^ e.width :=
  fromLe_readAt_lt ..

theorem RelocEntry.fileField_lt {e : RelocEntry} {v : ℕ} (h : e.fileField pe file = some v) :
    v < 256 ^ e.width := by
  rw [fileField] at h
  split at h
  · cases h
  · split_ifs at h with hlen
    cases h
    exact fromLe_readAt_lt ..

/-- **A field after the loader.** -/
theorem imageField_of_ok {entries : List RelocEntry} (hapart : entries.Pairwise FieldsApart)
    {e : RelocEntry} (he : e ∈ entries) :
    imageField (patchAll (entries.filterMap (RelocEntry.patch pe file delta image.length)) image) e =
      (e.patch pe file delta image.length).elim (imageField image e) fun p => fromLe p.2 := by
  have hfit := patchesFit_entries pe file delta image.length entries
  cases hp : e.patch pe file delta image.length with
  | some p =>
    obtain ⟨-, -, h1, h2, -⟩ := RelocEntry.patch_eq_some hp
    have hps : (entries.filterMap (RelocEntry.patch pe file delta image.length)).Pairwise
        PatchesApart := by
      refine List.Pairwise.filterMap _ (fun a b hab q hq q' hq' => ?_) hapart
      obtain ⟨hw1, -, h1, h2, -⟩ := RelocEntry.patch_eq_some hq
      obtain ⟨hw2, -, h3, h4, -⟩ := RelocEntry.patch_eq_some hq'
      rw [FieldsApart] at hab
      rw [PatchesApart]
      omega
    have := readAt_patchAll hfit hps (List.mem_filterMap.mpr ⟨e, he, hp⟩)
    rw [imageField, ← h1, ← h2, this, Option.elim_some]
  | none =>
    refine congrArg fromLe (readAt_congr (length_patchAll hfit) fun i h1 h2 => ?_)
    refine getD_patchAll_of_notMem hfit fun q hq => ?_
    obtain ⟨e', he', hq⟩ := List.mem_filterMap.mp hq
    obtain ⟨hw', -, h3, h4, -⟩ := RelocEntry.patch_eq_some hq
    have hne : e ≠ e' := by
      rintro rfl
      rw [hp] at hq
      cases hq
    have := hapart.forall he he' hne
    rw [FieldsApart] at this
    omega

theorem toNat_deltaI32 {delta : BitVec 64} (h : -2 ^ 31 ≤ delta.toInt ∧ delta.toInt < 2 ^ 31) :
    (deltaI32 delta).toNat = delta.toNat % 2 ^ 32 := by
  rw [deltaI32, if_pos h, BitVec.toNat_setWidth]

/-- A difference of 32 bits that is not zero does not vanish in 32 bits. -/
theorem delta_mod_ne_zero (hd : delta ≠ 0) (h : -2 ^ 31 ≤ delta.toInt ∧ delta.toInt < 2 ^ 31) :
    delta.toNat % 2 ^ 32 ≠ 0 := by
  intro h0
  refine hd (BitVec.eq_of_toNat_eq ?_)
  have hlt := delta.isLt
  rw [BitVec.toInt_eq_toNat_cond] at h
  have hz : (0 : BitVec 64).toNat = 0 := rfl
  rw [hz]
  split_ifs at h with hc <;> omega

/-- **When a field is moved.** -/
theorem moved_iff {e : RelocEntry} (hd : delta ≠ 0) (hw : e.width ≠ 0)
    (hin : e.rva.toNat + e.width ≤ image.length) :
    (e.patch pe file delta image.length).elim (imageField image e) (fun p => fromLe p.2) =
        (imageField image e + delta.toNat) % 256 ^ e.width ↔
      FieldAgrees pe file image delta e := by
  have himage := imageField_lt image e
  have hdelta : delta.toNat ≠ 0 := fun h0 => hd (BitVec.eq_of_toNat_eq h0)
  have hlt := delta.isLt
  have htype : e.type = 3 ∧ e.width = 4 ∨ e.type ≠ 3 ∧ e.width = 8 := by
    rw [RelocEntry.width] at hw ⊢
    split_ifs at hw ⊢ with h3 h10
    · exact .inl ⟨h3, rfl⟩
    · exact .inr ⟨h3, rfl⟩
    · exact absurd rfl hw
  rw [FieldAgrees, RelocEntry.patch, if_neg (by omega)]
  refine Iff.trans ?_ (Iff.trans (forall_prop_of_true hd).symm (and_iff_right hin).symm)
  cases hv : e.fileField pe file with
  | none =>
    rw [Option.map_none, Option.elim_none]
    rcases htype with ⟨h3, h4⟩ | ⟨h3, h8⟩
    · rw [h4] at himage ⊢
      by_cases hfits : -2 ^ 31 ≤ delta.toInt ∧ delta.toInt < 2 ^ 31
      · have := delta_mod_ne_zero hd hfits
        rw [if_neg fun h => h.2 hfits]
        exact iff_of_false (by omega) (by simp)
      · rw [if_pos ⟨h3, hfits⟩]
        simp only
        omega
    · rw [h8] at himage ⊢
      rw [if_neg fun h => h3 h.1]
      exact iff_of_false (by omega) (by simp)
  | some v =>
    have hvlt := RelocEntry.fileField_lt hv
    rw [Option.map_some, Option.elim_some]
    simp only [fromLe_toLe, RelocEntry.amount]
    rcases htype with ⟨h3, h4⟩ | ⟨h3, h8⟩
    · rw [h4] at himage hvlt ⊢
      rw [if_pos h3]
      by_cases hfits : -2 ^ 31 ≤ delta.toInt ∧ delta.toInt < 2 ^ 31
      · rw [if_neg fun h => h.2 hfits, toNat_deltaI32 hfits, Option.some_inj]
        omega
      · have hzero : (deltaI32 delta).toNat = 0 := by
          rw [deltaI32, if_neg hfits]
          rfl
        rw [if_pos ⟨h3, hfits⟩, hzero]
        omega
    · rw [h8] at himage hvlt ⊢
      rw [if_neg h3, if_neg fun h => h3 h.1, Option.some_inj]
      omega

/-- **When the right fields are moved.** -/
theorem relocated_iff (h : applyRelocations pe file image delta = some (.ok image'))
    (hapart : (pe.relocEntries file).Pairwise FieldsApart) :
    Relocated (pe.relocEntries file) delta image image' ↔
      ∀ e ∈ pe.relocEntries file, e.width ≠ 0 → FieldAgrees pe file image delta e := by
  by_cases hd : delta = 0
  · -- nothing is done
    have himage : image' = image := by
      rw [applyRelocations, if_pos hd] at h
      cases h
      rfl
    subst himage
    constructor
    · exact fun hr e he hw => ⟨(hr.moved e he hw).1, fun hne => absurd hd hne⟩
    · refine fun ha => ⟨fun e he hw => ⟨(ha e he hw).1, ?_⟩, rfl, fun _ _ => rfl⟩
      have hz : (0 : BitVec 64).toNat = 0 := rfl
      rw [hd, hz, Nat.add_zero, Nat.mod_eq_of_lt (imageField_lt ..)]
  · obtain rfl := applyRelocations_eq_ok hd h
    have hfit := patchesFit_entries pe file delta image.length (pe.relocEntries file)
    constructor
    · intro hr e he hw
      obtain ⟨hin, hm⟩ := hr.moved e he hw
      rw [imageField_of_ok hapart he] at hm
      exact (moved_iff hd hw hin).mp hm
    · refine fun ha => ⟨fun e he hw => ⟨(ha e he hw).1, ?_⟩, length_patchAll hfit, fun i hi => ?_⟩
      · rw [imageField_of_ok hapart he]
        exact (moved_iff hd hw (ha e he hw).1).mpr (ha e he hw)
      · refine getD_patchAll_of_notMem hfit fun p hp => ?_
        obtain ⟨e, he, hp⟩ := List.mem_filterMap.mp hp
        obtain ⟨-, -, h1, h2, -⟩ := RelocEntry.patch_eq_some hp
        have := hi e he
        omega

/-- **When the loader moves exactly the fields that are listed**: it always ends, and where it
succeeds and the fields do not overlap, that is so when each field agrees. -/
theorem applyRelocations_relocated_iff (pe : Pe) (file image : List UInt8) (delta : BitVec 64) :
    applyRelocations pe file image delta ≠ none ∧
      ∀ image', applyRelocations pe file image delta = some (.ok image') →
        (pe.relocEntries file).Pairwise FieldsApart →
        (Relocated (pe.relocEntries file) delta image image' ↔
          ∀ e ∈ pe.relocEntries file, e.width ≠ 0 → FieldAgrees pe file image delta e) :=
  ⟨applyRelocations_ne_none pe file image delta, fun _ h hapart => relocated_iff h hapart⟩

/-- An entry of a directory that moves a field of eight bytes, and an entry that fills up. -/
def oneFieldData (page field : ℕ) : List UInt8 :=
  toLe 4 page ++ toLe 4 12 ++ toLe 2 (10 * 2 ^ 12 + field) ++ toLe 2 0

/-- A file that is its own image: eight bytes and a directory that names them. -/
def flatFile : List UInt8 := toLe 8 0x180000010 ++ oneFieldData 0 0

/-- The headers of `flatFile`. -/
def flatPe : Pe := ⟨[⟨0, 20, 20, 0⟩], some ⟨none, some ⟨8, 12⟩⟩⟩

theorem applyRelocations_relocated_flat : ∃ image',
    applyRelocations flatPe flatFile flatFile 0x10000 = some (.ok image') ∧
      Relocated (flatPe.relocEntries flatFile) 0x10000 flatFile image' := by
  have hentries : flatPe.relocEntries flatFile = [⟨10, 0⟩, ⟨0, 0⟩] := by decide +kernel
  refine ⟨toLe 8 0x180010010 ++ oneFieldData 0 0, by decide +kernel,
    ((applyRelocations_relocated_iff flatPe flatFile flatFile 0x10000).2 _ (by decide +kernel)
      ?_).mpr ?_⟩
  · rw [hentries]
    exact .cons (by simp [FieldsApart, RelocEntry.width]) (.cons (by simp) .nil)
  · rw [hentries]
    intro e he hw
    obtain rfl | rfl : e = ⟨10, 0⟩ ∨ e = ⟨0, 0⟩ := by simpa using he
    · refine ⟨by decide, fun _ => ?_⟩
      rw [if_neg (by decide)]
      decide +kernel
    · exact absurd rfl hw

/-! ### A field in the tail of a section -/

/-- What a section puts into an image: its bytes of the file, and zeros up to its virtual size. -/
def PeSection.patches (file : List UInt8) (s : PeSection) : List (ℕ × List UInt8) :=
  let rawSize := s.sizeOfRawData.toNat
  let va := s.virtualAddress.toNat
  let tail := s.virtualSize.toNat - max rawSize 1
  [(va, readAt file s.pointerToRawData.toNat rawSize), (va + max rawSize 1, List.replicate tail 0)]

/-- An image as it is built from a file. -/
def freshImage (pe : Pe) (file : List UInt8) (sizeOfHeaders sizeOfImage : ℕ) : List UInt8 :=
  patchAll ((0, file.take sizeOfHeaders) :: pe.sections.flatMap (PeSection.patches file))
    (List.replicate sizeOfImage 0)

/-- A DLL: its `.data` section has 0x400 bytes of which the file has 0x200, and its `.reloc` section
names a field past these. -/
def tailPe : Pe where
  sections := [⟨0x1000, 0x400, 0x200, 0x200⟩, ⟨0x2000, 12, 0x200, 0x400⟩]
  optionalHeader := some ⟨none, some ⟨0x2000, 12⟩⟩

/-- Its file. -/
def tailFile : List UInt8 :=
  dllHeaders 0x3000 ⟨0, 0⟩ ⟨0x2000, 12⟩ tailPe.sections ++ List.replicate 0x200 0 ++
    oneFieldData 0x1000 0x200 ++ List.replicate 0x1f4 0

theorem freshImage_tail : readAt (freshImage tailPe tailFile 0x200 0x3000) 0x1200 8 =
    List.replicate 8 0 := by
  decide +kernel

theorem relocEntries_tail : tailPe.relocEntries tailFile = [⟨10, 0x1200⟩, ⟨0, 0x1000⟩] := by
  decide +kernel

/-- A field in the tail of a section gets what is next in the file. -/
theorem not_applyRelocations_relocated : ¬∀ (pe : Pe) (file : List UInt8)
    (sizeOfHeaders sizeOfImage : ℕ) (delta : BitVec 64) (image' : List UInt8),
    applyRelocations pe file (freshImage pe file sizeOfHeaders sizeOfImage) delta =
        some (.ok image') →
      (pe.relocEntries file).Pairwise FieldsApart →
      Relocated (pe.relocEntries file) delta (freshImage pe file sizeOfHeaders sizeOfImage)
        image' := by
  intro h
  have hok : ∃ image', applyRelocations tailPe tailFile (freshImage tailPe tailFile 0x200 0x3000)
      0x10000 = some (.ok image') := by
    have hdata : tailPe.relocData tailFile = .ok (oneFieldData 0x1000 0x200) := by decide +kernel
    rw [applyRelocations, if_neg (by decide), hdata]
    exact ⟨_, rfl⟩
  obtain ⟨image', hok⟩ := hok
  have hapart : (tailPe.relocEntries tailFile).Pairwise FieldsApart := by
    rw [relocEntries_tail]
    exact .cons (by simp [FieldsApart, RelocEntry.width]) (.cons (by simp) .nil)
  have hagree := (relocated_iff hok hapart).mp (h _ _ _ _ _ _ hok hapart) ⟨10, 0x1200⟩
    (by rw [relocEntries_tail]; exact List.mem_cons_self) (by decide)
  have hfield := hagree.2 (by decide)
  rw [if_neg (by decide)] at hfield
  have hzero : imageField (freshImage tailPe tailFile 0x200 0x3000) ⟨10, 0x1200⟩ = 0 := by
    have hrva : readAt (freshImage tailPe tailFile 0x200 0x3000)
        (RelocEntry.mk 10 0x1200).rva.toNat (RelocEntry.mk 10 0x1200).width = _ := freshImage_tail
    rw [imageField, hrva]
    rfl
  have hnext : (RelocEntry.mk 10 0x1200).fileField tailPe tailFile = some 0xc00001000 := by
    decide +kernel
  rw [hzero, hnext] at hfield
  cases hfield

end Wie
