import Mathlib.Data.List.GetD
import Wie.Lib.LastPut
import Wie.Lib.Text
import Wie.Pe.Image

/-!
# Exports of a DLL

The export directory has three tables: addresses, names, and for each name the index of its address.
The loader goes over the names once and puts what it finds into two maps, one by name in lower case
and one by ordinal. Forwarders, whose address is inside the directory itself, are passed over.

## Main definitions

* `parseDllExports` — what the loader does
* `LoadedModule.getExportVa`, `LoadedModule.getExportVaByOrdinal` — the two ways to look up
* `HasExports` — the directory and its tables are in the file

## Main results

* `getExportVa_faithful` — what is found is what the directory has
-/

namespace Wie

/-! ### The loader -/

/-- What is used of an export directory. -/
structure ExportDirectory where
  /-- The ordinal of the first address. -/
  ordinalBase : BitVec 32
  /-- The number of addresses. -/
  numberOfFunctions : BitVec 32
  /-- The number of names. -/
  numberOfNames : BitVec 32
  /-- Where the addresses are. -/
  addressTableRva : BitVec 32
  /-- Where the addresses of the names are. -/
  namePointerRva : BitVec 32
  /-- Where the indices of the names are. -/
  ordinalTableRva : BitVec 32
  deriving DecidableEq

/-- The fields of a directory. -/
def ExportDirectory.read (slice : List UInt8) : ExportDirectory where
  ordinalBase := readU32Le slice 0x10
  numberOfFunctions := readU32Le slice 0x14
  numberOfNames := readU32Le slice 0x18
  addressTableRva := readU32Le slice 0x1c
  namePointerRva := readU32Le slice 0x20
  ordinalTableRva := readU32Le slice 0x24

/-- An address is inside the directory, where the names of forwarders are. -/
def DataDirectory.Forwards (exportDir : DataDirectory) (rva : BitVec 64) : Prop :=
  exportDir.virtualAddress.toNat ≤ rva.toNat ∧
    rva.toNat < exportDir.virtualAddress.toNat + exportDir.size.toNat

instance (exportDir : DataDirectory) (rva : BitVec 64) : Decidable (exportDir.Forwards rva) :=
  inferInstanceAs (Decidable (_ ∧ _))

/-- `DllExports`. -/
structure DllExports where
  /-- From names in lower case to addresses. -/
  byName : List Char → Option (BitVec 64)
  /-- From ordinals to addresses. -/
  byOrdinal : BitVec 16 → Option (BitVec 64)
  /-- The ordinal of the first address. -/
  ordinalBase : BitVec 16
  /-- The number of addresses. -/
  exportCount : BitVec 16

/-- `DllExports::default`. -/
def DllExports.default : DllExports := ⟨fun _ => none, fun _ => none, 0, 0⟩

/-- `u16::try_from(n).unwrap_or(0)`. -/
def toU16 (n : ℕ) : BitVec 16 := if n < 2 ^ 16 then .ofNat 16 n else 0

/-- The address of an entry of a table: `rva.wrapping_add(i.wrapping_mul(size))`. -/
def tableRva (rva : BitVec 32) (i size : ℕ) : BitVec 32 := rva + .ofNat 32 i * .ofNat 32 size

section Loader

variable (pe : Pe) (file : List UInt8) (exportDir : DataDirectory) (d : ExportDirectory)

/-- An entry of the address table, with zero for a forwarder. -/
def addressEntry (i : ℕ) : BitVec 64 :=
  let rva : BitVec 64 :=
    match pe.rvaToFileOffset (tableRva d.addressTableRva i 4) with
    | .ok off => if off + 4 ≤ file.length then (readU32Le file off).setWidth 64 else 0
    | .error _ => 0
  if rva ≠ 0 ∧ exportDir.Forwards rva then 0 else rva

/-- The name at an address. -/
def exportName (nameRva : BitVec 32) : Option (List Char) :=
  match pe.rvaToFileOffset nameRva with
  | .error _ => none
  | .ok nameOff =>
    let nameBytes := cStringIn (file.drop nameOff)
    if nameBytes ≠ [] then fromUtf8 nameBytes else none

/-- One turn of the loop over names. -/
def nameEntry (addressTable : List (BitVec 64)) (i : ℕ)
    (byName : List Char → Option (BitVec 64)) (byOrdinal : BitVec 16 → Option (BitVec 64)) :
    (List Char → Option (BitVec 64)) × (BitVec 16 → Option (BitVec 64)) :=
  match pe.rvaToFileOffset (tableRva d.ordinalTableRva i 2),
    pe.rvaToFileOffset (tableRva d.namePointerRva i 4) with
  | .ok ordOff, .ok npOff =>
    if file.length < ordOff + 2 ∨ file.length < npOff + 4 then (byName, byOrdinal)
    else
      let nameRva := readU32Le file npOff
      let ordinalIdx := readU16Le file ordOff
      let ordinal := toU16 d.ordinalBase.toNat + ordinalIdx
      let functionRva := addressTable.getD ordinalIdx.toNat 0
      let byName :=
        match exportName pe file nameRva with
        | some name =>
          if functionRva ≠ 0 then
            Function.update byName (toAsciiLowercase name) (some functionRva)
          else byName
        | none => byName
      let byOrdinal :=
        if functionRva ≠ 0 then Function.update byOrdinal ordinal (some functionRva) else byOrdinal
      (byName, byOrdinal)
  | _, _ => (byName, byOrdinal)

/-- The two loops. -/
def exportLoops : DllExports :=
  let addressTable :=
    (List.range d.numberOfFunctions.toNat).map (addressEntry pe file exportDir d)
  let maps := (List.range d.numberOfNames.toNat).foldl
    (fun maps i => nameEntry pe file d addressTable i maps.1 maps.2)
    (fun _ => none, fun _ => none)
  ⟨maps.1, maps.2, toU16 d.ordinalBase.toNat, toU16 d.numberOfFunctions.toNat⟩

end Loader

/-- `parse_dll_exports`. -/
def parseDllExports (pe : Pe) (file : List UInt8) : Except String DllExports :=
  match pe.optionalHeader with
  | none => .error "no optional header"
  | some header =>
    match header.exportTable with
    | none => .error "no export directory"
    | some exportDir =>
      if exportDir.virtualAddress = 0 then .ok .default
      else
        match pe.rvaToFileOffset exportDir.virtualAddress with
        | .error _ =>
          .error s!"export dir RVA {hex exportDir.virtualAddress.toNat} outside file"
        | .ok exportOffset =>
          let exportSlice := file.drop exportOffset
          if exportSlice.length < 40 then
            .error s!"export directory too short: {exportSlice.length} bytes"
          else .ok (exportLoops pe file exportDir (.read exportSlice))

/-- `LoadedModule`. -/
structure LoadedModule where
  /-- The handle. -/
  handle : BitVec 64
  /-- Where the image is. -/
  imageBase : BitVec 64
  /-- The bytes of the image. -/
  imageSize : ℕ
  /-- The entry point, zero if there is none. -/
  entryRva : BitVec 64
  /-- The name in lower case. -/
  name : List Char
  /-- The path that the guest gave. -/
  guestPath : List Char
  /-- The path on the host. -/
  hostPath : List UInt8
  /-- How often the module was loaded. -/
  refCount : BitVec 64
  /-- The exports; the source has their four fields here. -/
  exports : DllExports

/-- The address of what a map has, if it has something that is not zero. -/
def exportVa (imageBase : BitVec 64) : Option (BitVec 64) → Option (BitVec 64)
  | none => none
  | some rva => if rva = 0 then none else some (imageBase + rva)

theorem exportVa_eq_some_iff {imageBase va : BitVec 64} {found : Option (BitVec 64)} :
    exportVa imageBase found = some va ↔ ∃ rva, found = some rva ∧ rva ≠ 0 ∧ va = imageBase + rva := by
  cases found with
  | none => simp [exportVa]
  | some rva =>
    rw [exportVa]
    by_cases hz : rva = 0
    · simp [hz]
    · rw [if_neg hz]
      constructor
      · intro h
        exact ⟨rva, rfl, hz, (Option.some_inj.mp h).symm⟩
      · rintro ⟨r, hr, -, rfl⟩
        rw [Option.some_inj.mp hr]

namespace LoadedModule

/-- `get_export_va`. -/
def getExportVa (m : LoadedModule) (name : List Char) : Option (BitVec 64) :=
  exportVa m.imageBase (m.exports.byName (toAsciiLowercase name))

/-- `get_export_va_by_ordinal`. -/
def getExportVaByOrdinal (m : LoadedModule) (ordinal : BitVec 16) : Option (BitVec 64) :=
  exportVa m.imageBase (m.exports.byOrdinal ordinal)

end LoadedModule

/-! ### The directory -/

section Directory

variable (pe : Pe) (file : List UInt8) (exportDir : DataDirectory) (d : ExportDirectory)

/-- An entry of the address table. -/
def eatEntry (k : ℕ) : Option (BitVec 64) :=
  (pe.rawData file (d.addressTableRva.toNat + 4 * k) 4).map fun b => .ofNat 64 (fromLe b)

/-- The index of an address that goes with a name. -/
def nameOrdinal (i : ℕ) : Option ℕ :=
  (pe.rawData file (d.ordinalTableRva.toNat + 2 * i) 2).map fromLe

/-- Where a name is. -/
def namePointer (i : ℕ) : Option (BitVec 32) :=
  (pe.rawData file (d.namePointerRva.toNat + 4 * i) 4).map fun b => .ofNat 32 (fromLe b)

/-- The bytes of a name. -/
def nameBytes (i : ℕ) : Option (List UInt8) := (namePointer pe file d i).bind (pe.cString file)

/-- The address that an index exports: it is not zero and is no forwarder. -/
def exportOf (k : ℕ) : Option (BitVec 64) :=
  if k < d.numberOfFunctions.toNat then
    (eatEntry pe file d k).filter fun rva => rva ≠ 0 ∧ ¬exportDir.Forwards rva
  else none

/-- What an entry of the table of names exports, under its name in lower case. A name that is empty
or is no text exports nothing. -/
def exportNamed (i : ℕ) : Option (List Char × BitVec 64) :=
  (((nameBytes pe file d i).filter (· ≠ [])).bind fromUtf8).bind fun name =>
    (nameOrdinal pe file d i).bind fun k =>
      (exportOf pe file exportDir d k).map fun rva => (toAsciiLowercase name, rva)

/-- What an entry of the table of names exports, under its ordinal. -/
def exportNumbered (i : ℕ) : Option (BitVec 16 × BitVec 64) :=
  (nameOrdinal pe file d i).bind fun k =>
    (exportOf pe file exportDir d k).map fun rva => (.ofNat 16 (d.ordinalBase.toNat + k), rva)

/-- **A file has an export directory**, and the directory, its three tables and the names are in
data that sections have in the file. -/
structure HasExports : Prop where
  /-- The optional header says where the directory is. -/
  header : ∃ header, pe.optionalHeader = some header ∧ header.exportTable = some exportDir
  /-- The directory is not at zero, which says that there is none. -/
  present : exportDir.virtualAddress ≠ 0
  /-- The directory. -/
  directory : ∃ b, pe.rawData file exportDir.virtualAddress.toNat 40 = some b ∧ d = .read b
  /-- All ordinals have 16 bits. -/
  ordinals : d.numberOfFunctions.toNat + d.ordinalBase.toNat ≤ 2 ^ 16
  /-- The addresses. -/
  addressTable : ∀ k < d.numberOfFunctions.toNat, eatEntry pe file d k ≠ none
  /-- The indices. -/
  ordinalTable : ∀ i < d.numberOfNames.toNat, nameOrdinal pe file d i ≠ none
  /-- The names. -/
  names : ∀ i < d.numberOfNames.toNat, nameBytes pe file d i ≠ none

end Directory

/-! ### The loops -/

variable {pe : Pe} {file : List UInt8} {exportDir : DataDirectory} {d : ExportDirectory}

theorem tableRva_eq (rva : BitVec 32) (i size : ℕ) :
    tableRva rva i size = .ofNat 32 (rva.toNat + size * i) := by
  rw [tableRva, BitVec.ofNat_add, BitVec.ofNat_mul, BitVec.ofNat_toNat, BitVec.setWidth_eq,
    BitVec.mul_comm]

theorem setWidth_readU32Le (buf : List UInt8) (off : ℕ) :
    (readU32Le buf off).setWidth 64 = .ofNat 64 (fromLe (readAt buf off 4)) := by
  have hlt := fromLe_readAt_lt buf off 4
  apply BitVec.eq_of_toNat_eq
  rw [readU32Le, BitVec.toNat_setWidth, BitVec.toNat_ofNat, BitVec.toNat_ofNat]
  omega

theorem exportOf_ne_zero {k : ℕ} {rva : BitVec 64}
    (h : exportOf pe file exportDir d k = some rva) : rva ≠ 0 := by
  rw [exportOf] at h
  split_ifs at h
  exact (of_decide_eq_true (Option.filter_eq_some_iff.mp h).2).1

/-- An entry of the address table. -/
theorem addressEntry_eq (h : HasExports pe file exportDir d) {k : ℕ}
    (hk : k < d.numberOfFunctions.toNat) :
    addressEntry pe file exportDir d k = (exportOf pe file exportDir d k).getD 0 := by
  obtain ⟨rva, hrva⟩ := Option.ne_none_iff_exists'.mp (h.addressTable k hk)
  rw [exportOf, if_pos hk, hrva]
  obtain ⟨b, hb, rfl⟩ := Option.map_eq_some_iff.mp hrva
  obtain ⟨off, hoff, hfit, rfl⟩ := Pe.rawData_eq_some hb (by decide) (tableRva_eq ..)
  rw [addressEntry, hoff]
  simp only [if_pos hfit, setWidth_readU32Le]
  by_cases hz : (BitVec.ofNat 64 (fromLe (readAt file off 4))) = 0
  · rw [if_neg fun hc => hc.1 hz, Option.filter_some, if_neg (by simp [hz])]
    exact hz
  · by_cases hf : exportDir.Forwards (.ofNat 64 (fromLe (readAt file off 4)))
    · rw [if_pos ⟨hz, hf⟩, Option.filter_some, if_neg (by simp [hf])]
      rfl
    · rw [if_neg fun hc => hf hc.2, Option.filter_some, if_pos (decide_eq_true ⟨hz, hf⟩)]
      rfl

/-- The address table. -/
theorem getD_addressTable (h : HasExports pe file exportDir d) (k : ℕ) :
    ((List.range d.numberOfFunctions.toNat).map (addressEntry pe file exportDir d)).getD k 0 =
      (exportOf pe file exportDir d k).getD 0 := by
  rcases Nat.lt_or_ge k d.numberOfFunctions.toNat with hk | hk
  · rw [← addressEntry_eq h hk, List.getD_eq_getElem _ _ (by simpa using hk), List.getElem_map,
      List.getElem_range]
  · rw [List.getD_eq_default _ _ (by simpa using hk), exportOf, if_neg (by omega)]
    rfl

theorem exportName_eq {nameRva : BitVec 32} {b : List UInt8}
    (h : pe.cString file nameRva = some b) :
    exportName pe file nameRva = ((some b).filter (· ≠ [])).bind fromUtf8 := by
  obtain ⟨off, hoff, hb⟩ := Pe.cString_eq_some h
  rw [exportName, hoff]
  simp only [hb, Option.filter_some]
  by_cases hne : b = []
  · rw [if_neg (not_not.mpr hne), if_neg (by simpa using hne)]
    rfl
  · rw [if_pos hne, if_pos (decide_eq_true hne)]
    rfl

theorem toNat_readU16Le (buf : List UInt8) (off : ℕ) :
    (readU16Le buf off).toNat = fromLe (readAt buf off 2) := by
  rw [readU16Le, BitVec.toNat_ofNat]
  exact Nat.mod_eq_of_lt (fromLe_readAt_lt buf off 2)

/-- The ordinal of an export does not wrap. -/
theorem ordinal_eq (h : HasExports pe file exportDir d) {k : ℕ} {rva : BitVec 64}
    (hk : exportOf pe file exportDir d k = some rva) :
    d.ordinalBase.toNat + k < 2 ^ 16 ∧
      toU16 d.ordinalBase.toNat + .ofNat 16 k = .ofNat 16 (d.ordinalBase.toNat + k) := by
  have hlt : k < d.numberOfFunctions.toNat := by
    by_contra hge
    rw [exportOf, if_neg hge] at hk
    cases hk
  have := h.ordinals
  rw [toU16, if_pos (by omega), BitVec.ofNat_add]
  exact ⟨by omega, rfl⟩

/-- **One turn of the loop** puts what the entry exports. -/
theorem nameEntry_eq (h : HasExports pe file exportDir d) {i : ℕ}
    (hi : i < d.numberOfNames.toNat) (byName : List Char → Option (BitVec 64))
    (byOrdinal : BitVec 16 → Option (BitVec 64)) :
    nameEntry pe file d ((List.range d.numberOfFunctions.toNat).map
        (addressEntry pe file exportDir d)) i byName byOrdinal =
      (putAll byName (exportNamed pe file exportDir d i).toList,
        putAll byOrdinal (exportNumbered pe file exportDir d i).toList) := by
  obtain ⟨k, hk⟩ := Option.ne_none_iff_exists'.mp (h.ordinalTable i hi)
  obtain ⟨name, hname⟩ := Option.ne_none_iff_exists'.mp (h.names i hi)
  obtain ⟨nameRva, hrva, hstring⟩ := Option.bind_eq_some_iff.mp hname
  rw [exportNamed, exportNumbered, hk, hname, ← exportName_eq hstring]
  obtain ⟨b, hb, rfl⟩ := Option.map_eq_some_iff.mp hk
  obtain ⟨ordOff, hordOff, hordFit, rfl⟩ := Pe.rawData_eq_some hb (by decide) (tableRva_eq ..)
  obtain ⟨c, hc, rfl⟩ := Option.map_eq_some_iff.mp hrva
  obtain ⟨npOff, hnpOff, hnpFit, rfl⟩ := Pe.rawData_eq_some hc (by decide) (tableRva_eq ..)
  have hin : ¬(file.length < ordOff + 2 ∨ file.length < npOff + 4) := by omega
  have hidx : readU16Le file ordOff = .ofNat 16 (fromLe (readAt file ordOff 2)) := rfl
  have hptr : readU32Le file npOff = .ofNat 32 (fromLe (readAt file npOff 4)) := rfl
  rw [nameEntry, hordOff, hnpOff]
  simp only [if_neg hin, toNat_readU16Le, hptr, getD_addressTable h, Option.bind_some]
  cases hexp : exportOf pe file exportDir d (fromLe (readAt file ordOff 2)) with
  | none =>
    -- a forwarder, or no address
    simp only [Option.getD_none, ne_eq, not_true_eq_false, if_false, Option.map_none]
    cases exportName pe file (.ofNat 32 (fromLe (readAt file npOff 4))) with
    | none => rfl
    | some name => rfl
  | some rva =>
    have hne := exportOf_ne_zero hexp
    simp only [Option.getD_some, if_pos hne, Option.map_some, hidx, (ordinal_eq h hexp).2]
    cases exportName pe file (.ofNat 32 (fromLe (readAt file npOff 4))) with
    | none => rfl
    | some name => rfl

/-- **The two maps.** -/
theorem exportLoops_maps (h : HasExports pe file exportDir d) :
    (exportLoops pe file exportDir d).byName = putAll (fun _ => none)
        ((List.range d.numberOfNames.toNat).filterMap (exportNamed pe file exportDir d)) ∧
      (exportLoops pe file exportDir d).byOrdinal = putAll (fun _ => none)
        ((List.range d.numberOfNames.toNat).filterMap (exportNumbered pe file exportDir d)) := by
  have hloop : ∀ n ≤ d.numberOfNames.toNat, (List.range n).foldl
      (fun maps i => nameEntry pe file d ((List.range d.numberOfFunctions.toNat).map
        (addressEntry pe file exportDir d)) i maps.1 maps.2) (fun _ => none, fun _ => none) =
      (putAll (fun _ => none) ((List.range n).filterMap (exportNamed pe file exportDir d)),
        putAll (fun _ => none) ((List.range n).filterMap (exportNumbered pe file exportDir d))) := by
    intro n hn
    induction n with
    | zero => rfl
    | succ n ih =>
      rw [filterMap_range_succ, filterMap_range_succ, putAll_append, putAll_append,
        List.range_succ, List.foldl_append, ih (by omega), List.foldl_cons, List.foldl_nil,
        nameEntry_eq h (by omega)]
  have := hloop _ le_rfl
  exact ⟨congrArg Prod.fst this, congrArg Prod.snd this⟩

theorem parseDllExports_eq (h : HasExports pe file exportDir d) :
    parseDllExports pe file = .ok (exportLoops pe file exportDir d) := by
  obtain ⟨header, hheader, htable⟩ := h.header
  obtain ⟨b, hb, hd⟩ := h.directory
  have hofNat : exportDir.virtualAddress = .ofNat 32 exportDir.virtualAddress.toNat := by simp
  obtain ⟨off, hoff, hfit, rfl⟩ := Pe.rawData_eq_some hb (by decide) hofNat
  have hlen : ¬(file.drop off).length < 40 := by
    rw [List.length_drop]
    omega
  have hread : ExportDirectory.read (file.drop off) = d := by
    rw [hd, readAt, ExportDirectory.read, ExportDirectory.read, readU32Le_take (by decide),
      readU32Le_take (by decide), readU32Le_take (by decide), readU32Le_take (by decide),
      readU32Le_take (by decide), readU32Le_take (by decide)]
  rw [parseDllExports, hheader]
  simp only [htable, if_neg h.present, hoff, if_neg hlen, hread]

/-! ### Looking up -/

section Lookup

variable {m : LoadedModule} {va : BitVec 64}

/-- The names of the directory export no zero. -/
theorem exportNamed_ne_zero {i : ℕ} {key : List Char} {rva : BitVec 64}
    (h : exportNamed pe file exportDir d i = some (key, rva)) : rva ≠ 0 := by
  obtain ⟨name, -, h⟩ := Option.bind_eq_some_iff.mp h
  obtain ⟨k, -, h⟩ := Option.bind_eq_some_iff.mp h
  obtain ⟨rva', hrva, h⟩ := Option.map_eq_some_iff.mp h
  cases h
  exact exportOf_ne_zero hrva

theorem exportNumbered_eq_some {i : ℕ} {o : BitVec 16} {rva : BitVec 64}
    (h : exportNumbered pe file exportDir d i = some (o, rva)) :
    ∃ k, nameOrdinal pe file d i = some k ∧ exportOf pe file exportDir d k = some rva ∧
      o = .ofNat 16 (d.ordinalBase.toNat + k) := by
  obtain ⟨k, hk, h⟩ := Option.bind_eq_some_iff.mp h
  obtain ⟨rva', hrva, h⟩ := Option.map_eq_some_iff.mp h
  cases h
  exact ⟨k, hk, hrva, rfl⟩

/-- **What is found by a name**: the last entry of the directory with that name decides, where
capital and small letters are the same. -/
theorem getExportVa_eq_some_iff (h : HasExports pe file exportDir d)
    (hm : m.exports = exportLoops pe file exportDir d) (s : List Char) :
    m.getExportVa s = some va ↔ ∃ i rva, LastPut (exportNamed pe file exportDir d)
      d.numberOfNames.toNat (toAsciiLowercase s) rva i ∧ va = m.imageBase + rva := by
  rw [LoadedModule.getExportVa, exportVa_eq_some_iff, hm, (exportLoops_maps h).1]
  constructor
  · rintro ⟨rva, hrva, -, rfl⟩
    obtain ⟨i, hi⟩ := (putAll_range_eq_some_iff _ _).mp hrva
    exact ⟨i, rva, hi, rfl⟩
  · rintro ⟨i, rva, hi, rfl⟩
    exact ⟨rva, (putAll_range_eq_some_iff _ _).mpr ⟨i, hi⟩, exportNamed_ne_zero hi.2.1, rfl⟩

/-- What is found by an ordinal. -/
theorem getExportVaByOrdinal_eq_some_iff (h : HasExports pe file exportDir d)
    (hm : m.exports = exportLoops pe file exportDir d) (o : BitVec 16) :
    m.getExportVaByOrdinal o = some va ↔ ∃ k rva, o.toNat = d.ordinalBase.toNat + k ∧
      exportOf pe file exportDir d k = some rva ∧
      (∃ i < d.numberOfNames.toNat, nameOrdinal pe file d i = some k) ∧
      va = m.imageBase + rva := by
  rw [LoadedModule.getExportVaByOrdinal, exportVa_eq_some_iff, hm, (exportLoops_maps h).2]
  constructor
  · rintro ⟨rva, hrva, -, rfl⟩
    obtain ⟨i, hi, hput, -⟩ := (putAll_range_eq_some_iff _ _).mp hrva
    obtain ⟨k, hk, hexp, rfl⟩ := exportNumbered_eq_some hput
    refine ⟨k, rva, ?_, hexp, ⟨i, hi, hk⟩, rfl⟩
    rw [BitVec.toNat_ofNat, Nat.mod_eq_of_lt (ordinal_eq h hexp).1]
  · rintro ⟨k, rva, ho, hexp, ⟨i, hi, hk⟩, rfl⟩
    have hkey : o = .ofNat 16 (d.ordinalBase.toNat + k) := by
      apply BitVec.eq_of_toNat_eq
      rw [ho, BitVec.toNat_ofNat, Nat.mod_eq_of_lt (ordinal_eq h hexp).1]
    have hput : exportNumbered pe file exportDir d i = some (o, rva) := by
      rw [exportNumbered, hk, Option.bind_some, hexp, hkey]
      rfl
    -- the last entry with this ordinal has the same index of an address
    obtain ⟨w, j, hj⟩ := exists_lastPut ⟨i, hi, rva, hput⟩
    obtain ⟨k', -, hexp', hkey'⟩ := exportNumbered_eq_some hj.2.1
    have hk' : k' = k := by
      have := congrArg BitVec.toNat hkey'
      rw [ho, BitVec.toNat_ofNat, Nat.mod_eq_of_lt (ordinal_eq h hexp').1] at this
      omega
    rw [hk', hexp, Option.some_inj] at hexp'
    subst hexp'
    exact ⟨rva, (putAll_range_eq_some_iff _ _).mpr ⟨j, hj⟩, exportOf_ne_zero hexp, rfl⟩

end Lookup

/-- **What is found is what the directory has.** An ordinal finds only the address that goes with it,
and finds it if the address has a name. A name finds the address of the last entry with that name,
where capital and small letters are the same. -/
theorem getExportVa_faithful (h : HasExports pe file exportDir d) :
    ∃ exports, parseDllExports pe file = .ok exports ∧
      ∀ m : LoadedModule, m.exports = exports →
        (∀ o va, m.getExportVaByOrdinal o = some va → ∃ k rva,
          o.toNat = d.ordinalBase.toNat + k ∧ exportOf pe file exportDir d k = some rva ∧
            va = m.imageBase + rva) ∧
        (∀ o k rva, BitVec.toNat o = d.ordinalBase.toNat + k →
          exportOf pe file exportDir d k = some rva →
            (∃ i < d.numberOfNames.toNat, nameOrdinal pe file d i = some k) →
              m.getExportVaByOrdinal o = some (m.imageBase + rva)) ∧
        ∀ s va, m.getExportVa s = some va ↔ ∃ i rva,
          LastPut (exportNamed pe file exportDir d) d.numberOfNames.toNat (toAsciiLowercase s)
            rva i ∧ va = m.imageBase + rva := by
  refine ⟨_, parseDllExports_eq h, fun m hm => ⟨fun o va ho => ?_, fun o k rva ho hexp hlisted => ?_,
    fun s va => getExportVa_eq_some_iff h hm s⟩⟩
  · obtain ⟨k, rva, hk, hexp, -, hva⟩ := (getExportVaByOrdinal_eq_some_iff h hm o).mp ho
    exact ⟨k, rva, hk, hexp, hva⟩
  · exact (getExportVaByOrdinal_eq_some_iff h hm o).mpr ⟨k, rva, ho, hexp, hlisted, rfl⟩

/-! ### A DLL with one export -/

/-- A DLL with one section. -/
def fooPe : Pe where
  sections := [⟨0x1000, 0x200, 0x200, 0x200⟩]
  optionalHeader := some ⟨some ⟨0x1000, 0x36⟩, none⟩

/-- Its export directory: `Foo` is at 0x1100 and has the ordinal one. -/
def fooDirectory : ExportDirectory := ⟨1, 1, 1, 0x1028, 0x102c, 0x1030⟩

/-- Its file. -/
def fooFile : List UInt8 :=
  dllHeaders 0x2000 ⟨0x1000, 0x36⟩ ⟨0, 0⟩ fooPe.sections ++
    resize (toLe 16 0 ++ toLe 4 1 ++ toLe 4 1 ++ toLe 4 1 ++ toLe 4 0x1028 ++ toLe 4 0x102c ++
      toLe 4 0x1030 ++ toLe 4 0x1100 ++ toLe 4 0x1032 ++ toLe 2 0 ++ [0x46, 0x6f, 0x6f, 0]) 0x200

theorem hasExports_foo : HasExports fooPe fooFile ⟨0x1000, 0x36⟩ fooDirectory where
  header := ⟨_, rfl, rfl⟩
  present := by decide
  directory := ⟨readAt fooFile 0x200 40, by decide +kernel, by decide +kernel⟩
  ordinals := by decide
  addressTable := by decide +kernel
  ordinalTable := by decide +kernel
  names := by decide +kernel

theorem nameBytes_foo : nameBytes fooPe fooFile fooDirectory 0 = some (asBytes ['F', 'o', 'o']) := by
  decide +kernel

theorem exportNamed_foo : exportNamed fooPe fooFile ⟨0x1000, 0x36⟩ fooDirectory 0 =
    some (['f', 'o', 'o'], 0x1100) := by
  have hordinal : nameOrdinal fooPe fooFile fooDirectory 0 = some 0 := by decide +kernel
  have hexport : exportOf fooPe fooFile ⟨0x1000, 0x36⟩ fooDirectory 0 = some 0x1100 := by
    decide +kernel
  have hname : fromUtf8 (asBytes ['F', 'o', 'o']) = some ['F', 'o', 'o'] :=
    fromUtf8_eq_some_iff.mpr rfl
  rw [exportNamed, nameBytes_foo, Option.filter_some, if_pos (by decide +kernel), Option.bind_some,
    hname, hordinal]
  simp only [Option.bind_some, hexport]
  decide

/-- The module. -/
def fooModule : LoadedModule where
  handle := 0x6f000000
  imageBase := 0x180000000
  imageSize := 0x2000
  entryRva := 0
  name := "foo.dll".toList
  guestPath := "foo.dll".toList
  hostPath := []
  refCount := 1
  exports := exportLoops fooPe fooFile ⟨0x1000, 0x36⟩ fooDirectory

theorem exports_foo :
    fooModule.exports = exportLoops fooPe fooFile ⟨0x1000, 0x36⟩ fooDirectory := by
  rw [fooModule]

theorem getExportVa_faithful_foo :
    fooModule.getExportVa ['F', 'o', 'o'] = some 0x180001100 ∧
      fooModule.getExportVaByOrdinal 1 = some 0x180001100 ∧
      fooModule.getExportVaByOrdinal 2 = none := by
  obtain ⟨exports, hparse, h⟩ := getExportVa_faithful hasExports_foo
  have hexports : fooModule.exports = exports := by
    rw [parseDllExports_eq hasExports_foo, ← exports_foo] at hparse
    exact Except.ok.inj hparse
  obtain ⟨hsound, hcomplete, hname⟩ := h fooModule hexports
  refine ⟨(hname _ _).mpr ⟨0, 0x1100, ⟨by decide, exportNamed_foo, fun j hj hlt => ?_⟩, by decide⟩,
    hcomplete 1 0 0x1100 (by decide) (by decide +kernel) ⟨0, by decide, by decide +kernel⟩, ?_⟩
  · have : j < 1 := hlt
    omega
  · -- the table has one entry only
    cases hv : fooModule.getExportVaByOrdinal 2 with
    | none => rfl
    | some va =>
      obtain ⟨k, rva, hk, hexp, -⟩ := hsound 2 va hv
      have hk1 : k = 1 := by
        have : (2 : BitVec 16).toNat = 1 + k := hk
        have : (2 : BitVec 16).toNat = 2 := rfl
        omega
      subst hk1
      cases hexp

/-- A name is found in small letters too, although the directory does not have it so. -/
theorem not_getExportVa_spelled : ¬∀ (pe : Pe) (file : List UInt8) (exportDir : DataDirectory)
    (d : ExportDirectory), HasExports pe file exportDir d →
      ∀ m : LoadedModule, parseDllExports pe file = .ok m.exports →
        ∀ s, (m.getExportVa s).isSome ↔ ∃ i < d.numberOfNames.toNat,
          nameBytes pe file d i = some (asBytes s) ∧
            ∃ k rva, nameOrdinal pe file d i = some k ∧
              exportOf pe file exportDir d k = some rva := by
  intro h
  have hfound : fooModule.getExportVa ['f', 'o', 'o'] = some 0x180001100 := by
    refine (getExportVa_eq_some_iff hasExports_foo exports_foo _).mpr
      ⟨0, 0x1100, ⟨by decide, exportNamed_foo, fun j hj hlt => ?_⟩, by decide⟩
    have : j < 1 := hlt
    omega
  have hparse : parseDllExports fooPe fooFile = .ok fooModule.exports := by
    rw [exports_foo]
    exact parseDllExports_eq hasExports_foo
  obtain ⟨i, hi, hspelled, -⟩ := (h _ _ _ _ hasExports_foo fooModule hparse ['f', 'o', 'o']).mp
    (by rw [hfound]; rfl)
  have hi0 : i = 0 := by
    have : i < 1 := hi
    omega
  subst hi0
  rw [nameBytes_foo] at hspelled
  exact absurd hspelled (by decide)

end Wie
