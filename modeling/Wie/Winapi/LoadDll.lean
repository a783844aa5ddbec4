import Wie.Pe.DirectLoad
import Wie.Winapi.ModuleTable
import Wie.Winapi.Reloc

/-!
# Loading a DLL

`load_dll` takes a module handle, maps memory for the image, fills it, resolves the imports through
a callback, registers the module and sets the protections. Nothing that was done is undone when a
later stage fails. What is left over is at least the handle: it is taken before the first stage that
can fail on account of anything but the file.

The engine is given by the four operations that the loader uses. Each of them may change the engine
and fail all the same. The parser of PE files is a parameter.

## Main definitions

* `EngineOps`, `LoadState` — what the loader works on
* `loadDll` — the loader, with a definition for each stage
* `AllOrNothing` — a load that fails has changed nothing
* `prepare`, `StagesSucceed` — what comes before the handle, and that everything after it succeeds

## Main results

* `enters_loadStages`, `nextModuleHandle_loadDll` — no stage gives the handle back
* `allOrNothing_iff` — when a load is all or nothing
-/

namespace Wie

/-! ### The state -/

/-- The operations of a `CpuEngine` that the loader uses, with the engine as they leave it. -/
structure EngineOps (τ : Type) where
  /-- `mem_map`. -/
  memMap : BitVec 64 → (size perms : ℕ) → τ → Except String Unit × τ
  /-- `mem_write`. -/
  memWrite : BitVec 64 → List UInt8 → τ → Except String Unit × τ
  /-- `mem_read`. -/
  memRead : BitVec 64 → (len : ℕ) → τ → Except String (List UInt8) × τ
  /-- `virtual_protect`. -/
  virtualProtect : BitVec 64 → (size protect : ℕ) → τ → Except String ℕ × τ

/-- What a load reads and writes. -/
structure LoadState (τ σ : Type) where
  /-- The engine: pages, protections and bytes of the guest. -/
  engine : τ
  /-- `loaded_modules`. -/
  loadedModules : ModuleTable
  /-- `next_module_handle`. -/
  nextModuleHandle : BitVec 64
  /-- What the callback has captured. -/
  resolver : σ

/-- A stage of a load; what it wrote before an error stays written. -/
abbrev Load (τ σ α : Type) := ExceptT String (StateM (LoadState τ σ)) α

/-- A parsed DLL: what it has in common with a program, and the directories of its exports and
relocations. -/
structure ParsedDll where
  /-- Headers, sections and imports. -/
  program : PeProgram
  /-- The directories, if there is an optional header. -/
  tables : Option OptionalHeader

/-- The file as the stages for exports and relocations see it. -/
def ParsedDll.pe (dll : ParsedDll) : Pe :=
  ⟨dll.program.sections.map SectionTable.toPeSection, dll.tables⟩

/-- `DllLoadResult`. -/
structure DllLoadResult where
  /-- The module. -/
  module : LoadedModule
  /-- Where the image is. -/
  imageBase : BitVec 64
  /-- The libraries it needs. -/
  dependencies : List (List Char)

/-- What `load_dll` is called with, and the file on the host. -/
structure LoadRequest where
  /-- The file, if it can be read. -/
  file : Option (List UInt8)
  /-- The last component of the host path, if it is a text. -/
  fileName : Option (List Char)
  /-- The host path. -/
  hostPath : List UInt8
  /-- The path that the guest gave. -/
  guestPath : List Char

variable {τ σ α β : Type}

namespace Load

/-- A result that changes nothing. -/
def ofExcept (x : Except String α) : Load τ σ α := fun s => (x, s)

/-- An operation of the engine. -/
def onEngine (msg : String) (op : τ → Except String α × τ) : Load τ σ α :=
  fun s => (withContext msg (op s.engine).1, { s with engine := (op s.engine).2 })

/-- The context of an error. -/
def context (msg : String) (x : Load τ σ α) : Load τ σ α :=
  fun s => (withContext msg (x s).1, (x s).2)

/-- **What comes next** starts where the stage before it has left off. -/
theorem bind_apply (x : Load τ σ α) (f : α → Load τ σ β) (s : LoadState τ σ) :
    (x >>= f) s =
      match x s with
      | (.error e, s') => (.error e, s')
      | (.ok a, s') => f a s' := by
  show ExceptT.bindCont f (x s).1 (x s).2 = _
  rcases x s with ⟨_ | a, s'⟩ <;> rfl

theorem bind_eq_ok {x : Load τ σ α} {f : α → Load τ σ β} {s s' : LoadState τ σ} {b : β} :
    (x >>= f) s = (.ok b, s') ↔ ∃ a s₁, x s = (.ok a, s₁) ∧ f a s₁ = (.ok b, s') := by
  rw [bind_apply]
  rcases x s with ⟨e | a, s₁⟩
  · constructor
    · intro h
      cases h
    · rintro ⟨a, s₂, h, -⟩
      cases h
  · constructor
    · intro h
      exact ⟨a, s₁, rfl, h⟩
    · rintro ⟨a', s₂, h, hf⟩
      cases h
      exact hf

theorem ofExcept_eq_ok {x : Except String α} {s s' : LoadState τ σ} {a : α} :
    ofExcept x s = (.ok a, s') ↔ x = .ok a ∧ s' = s := by
  rw [ofExcept, Prod.mk.injEq, @eq_comm _ s s']

end Load

theorem withContext_eq_ok {msg : String} {x : Except String α} {a : α} :
    withContext msg x = .ok a ↔ x = .ok a := by
  cases x <;> simp [withContext]

theorem Load.context_eq_ok {msg : String} {x : Load τ σ α} {s s' : LoadState τ σ} {a : α} :
    x.context msg s = (.ok a, s') ↔ x s = (.ok a, s') := by
  rw [context, Prod.mk.injEq, withContext_eq_ok, ← Prod.mk.injEq]
  exact Iff.rfl

/-! ### The stages -/

section Stages

variable (eng : EngineOps τ)

/-- Step 1, before anything is changed. -/
def prepare (parse : List UInt8 → Option ParsedDll) (req : LoadRequest) :
    Except String (List UInt8 × ParsedDll × PeIdentity) := do
  let path := String.ofList (fromUtf8Lossy req.hostPath)
  let bytes ← orContext s!"failed to read DLL: {path}" req.file
  let dll ← orContext "failed to parse PE DLL" (parse bytes)
  if !dll.program.is64 then .error "expected PE64 DLL, got PE32"
  else do
    let identity ← withContext "failed to parse PE identity" (peIdentityFromParsed dll.program)
    return (bytes, dll, identity)

/-- Step 2: a module handle. -/
def takeHandle : Load τ σ (BitVec 64) := fun s =>
  match checkedAdd s.nextModuleHandle.toNat 0x1000 with
  | none => (.error "module handle overflow", s)
  | some next => (.ok s.nextModuleHandle, { s with nextModuleHandle := .ofNat 64 next })

/-- Step 3: memory for the image, at its preferred base or at an address made from the handle. -/
def mapDllImage (preferredBase handle : BitVec 64) (size : ℕ) : Load τ σ (BitVec 64) := fun s =>
  match eng.memMap preferredBase size Perm.all s.engine with
  | (.ok _, engine) => (.ok preferredBase, { s with engine })
  | (.error _, engine) =>
    match eng.memMap (handle &&& ~~~0xfff) size Perm.all engine with
    | (.ok _, engine) => (.ok (handle &&& ~~~0xfff), { s with engine })
    | (.error _, engine) =>
      (.error "failed to map DLL image memory at alternative base", { s with engine })

/-- Step 4: the headers. -/
def writeHeaders (bytes : List UInt8) (sizeOfHeaders : ℕ) (imageBase : BitVec 64) :
    Load τ σ Unit :=
  let headerSize := min sizeOfHeaders bytes.length
  if headerSize > 0 then
    .onEngine "failed to write DLL headers" (eng.memWrite imageBase (bytes.take headerSize))
  else pure ()

/-- Step 4: the bytes of a section, as many as the file has. -/
def writeRawData (bytes : List UInt8) (va : BitVec 64) (s : SectionTable) : Load τ σ Unit :=
  let rawOffset := s.pointerToRawData.toNat
  let rawSize := s.sizeOfRawData.toNat
  let name := String.ofList (s.name.getD ['?'])
  if rawSize > 0 then
    let stop := min (rawOffset + rawSize) bytes.length
    .onEngine s!"failed to write section {name}"
      (eng.memWrite va (readAt bytes rawOffset (stop - rawOffset)))
  else pure ()

/-- Step 4: zeros behind the bytes of a section. -/
def zeroFillTail (va : BitVec 64) (s : SectionTable) : Load τ σ Unit :=
  let rawSizeRounded := max s.sizeOfRawData.toNat 1
  let virtualSize := s.virtualSize.toNat
  let name := String.ofList (s.name.getD ['?'])
  if virtualSize > rawSizeRounded then
    .onEngine s!"failed to zero-fill section {name}"
      (eng.memWrite (va + .ofNat 64 rawSizeRounded)
        (List.replicate (virtualSize - rawSizeRounded) 0))
  else pure ()

/-- Step 4: a section. -/
def writeDllSection (bytes : List UInt8) (imageBase : BitVec 64) (s : SectionTable) :
    Load τ σ Unit := do
  let va := imageBase + s.virtualAddress.setWidth 64
  writeRawData eng bytes va s
  zeroFillTail eng va s

/-- Step 4: the loop over sections. -/
def writeDllSections (bytes : List UInt8) (imageBase : BitVec 64) :
    List SectionTable → Load τ σ Unit
  | [] => pure ()
  | s :: rest => do
    writeDllSection eng bytes imageBase s
    writeDllSections bytes imageBase rest

/-- Step 5: relocations, if the image is not at its preferred base. The loop of
`apply_relocations` always ends. -/
def relocateImage (bytes : List UInt8) (dll : ParsedDll) (size : ℕ)
    (imageBase preferredBase : BitVec 64) : Load τ σ Unit := do
  let delta := imageBase - preferredBase
  if delta ≠ 0 then
    let image ← .onEngine "failed to read back DLL image for relocation"
      (eng.memRead imageBase size)
    let image ← .ofExcept ((applyRelocations dll.pe bytes image delta).getD (.ok image))
    .onEngine "failed to write relocated DLL image" (eng.memWrite imageBase image)

/-- `is_ucrt_library`. -/
def isUcrtLibrary (library : List Char) : Bool :=
  let l := toAsciiLowercase library
  "api-ms-win-crt-".toList.isPrefixOf l || l = "ucrtbase.dll".toList || l = "msvcrt.dll".toList

/-- The libraries of imports, each once, without those of the C runtime. -/
def dependenciesOf : (seen : List (List Char)) → List PeImportSummary → List (List Char)
  | _, [] => []
  | seen, i :: rest =>
    let lower := toAsciiLowercase i.library
    if lower ∈ seen then dependenciesOf seen rest
    else if isUcrtLibrary i.library then dependenciesOf (lower :: seen) rest
    else i.library :: dependenciesOf (lower :: seen) rest

/-- Step 6: the loop over imports. The callback is called with library, name and slot. -/
def patchImports
    (resolveImport : List Char → List Char → BitVec 64 → σ → Except String (BitVec 64) × σ)
    (imageBase : BitVec 64) : List PeImportSummary → Load τ σ Unit
  | [] => pure ()
  | i :: rest => do
    let name := if i.name = [] then "ORDINAL ".toList ++ Nat.toDigits 10 i.ordinal else i.name
    let iatVa := imageBase + .ofNat 64 i.iatSlotRva
    let label := String.ofList (i.library ++ '!' :: name)
    let target ← fun s =>
      let r := resolveImport i.library name iatVa s.resolver
      (withContext s!"failed to resolve import {label}" r.1, { s with resolver := r.2 })
    .onEngine "failed to patch DLL IAT slot" (eng.memWrite iatVa (toLe 8 target.toNat))
    patchImports resolveImport imageBase rest

/-- Step 7: the module is entered under its name. -/
def registerModule (module : LoadedModule) : Load τ σ Unit := fun s =>
  (.ok (), { s with loadedModules := s.loadedModules.insert module })

/-- `page_align_image_range`. -/
def pageAlignImageRange (rva len sizeOfImage : ℕ) : Option (ℕ × ℕ) :=
  if len = 0 ∨ sizeOfImage ≤ rva then none
  else
    let stop := min (satAdd rva len) sizeOfImage
    let start := rva / 0x1000 * 0x1000
    let imgEnd := satMul ((sizeOfImage + 0xfff) / 0x1000) 0x1000
    let endAligned := min (min (satMul ((stop + 0xfff) / 0x1000) 0x1000) (max imgEnd stop)) imgEnd
    if endAligned ≤ start then none else some (start, endAligned)

/-- A part of the image gets its protection; there may be no such part. -/
def protectRange (msg : String) (imageBase : BitVec 64) (range : Option (ℕ × ℕ)) (protect : ℕ) :
    Load τ σ Unit :=
  match range with
  | none => pure ()
  | some (start, stop) =>
    if stop - start > 0 then do
      let _ ← .onEngine msg
        (eng.virtualProtect (.ofNat 64 (satAdd imageBase.toNat start)) (stop - start) protect)
    else pure ()

/-- The loop over sections of `apply_pe_section_protects`. -/
def protectSections (plan : PeMapPlan) (imageBase : BitVec 64) :
    List PeSectionMap → Load τ σ Unit
  | [] => pure ()
  | sec :: rest => do
    protectRange eng s!"DLL section {String.ofList sec.name} protect" imageBase
      (pageAlignImageRange sec.header.virtualAddress.toNat sec.header.virtualSize.toNat
        plan.sizeOfImage) sec.finalProtect
    protectSections plan imageBase rest

/-- Step 8: `apply_pe_section_protects`. -/
def applyPeSectionProtects (plan : PeMapPlan) (imageBase : BitVec 64) : Load τ σ Unit := do
  if plan.sizeOfImage ≠ 0 then
    let _ ← .onEngine "DLL gap NOACCESS protect"
      (eng.virtualProtect imageBase plan.sizeOfImage Protect.pageNoaccess)
    protectRange eng "DLL headers protect" imageBase
      (pageAlignImageRange 0 plan.headerSize plan.sizeOfImage) Protect.pageReadonly
    protectSections eng plan imageBase plan.sections

/-! ### The loader -/

variable (parse : List UInt8 → Option ParsedDll)
  (resolveImport : List Char → List Char → BitVec 64 → σ → Except String (BitVec 64) × σ)

/-- The name that a module is entered under. -/
def LoadRequest.moduleName (req : LoadRequest) : List Char :=
  toAsciiLowercase (req.fileName.getD "unknown.dll".toList)

/-- The descriptor of the module. -/
def LoadRequest.module (req : LoadRequest) (identity : PeIdentity) (handle imageBase : BitVec 64)
    (exports : DllExports) : LoadedModule where
  handle := handle
  imageBase := imageBase
  imageSize := identity.sizeOfImage
  entryRva := .ofNat 64 identity.entryRva
  name := req.moduleName
  guestPath := req.guestPath
  hostPath := req.hostPath
  refCount := 1
  exports := exports

/-- Steps 4 to 8. -/
def fillImage (req : LoadRequest) (bytes : List UInt8) (dll : ParsedDll) (identity : PeIdentity)
    (handle imageBase : BitVec 64) : Load τ σ DllLoadResult := do
  let preferredBase : BitVec 64 := .ofNat 64 identity.imageBase
  let plan ← .ofExcept (withContext "failed to build DLL map plan"
    (peMapPlanFromParsed dll.program))
  writeHeaders eng bytes identity.sizeOfHeaders imageBase
  writeDllSections eng bytes imageBase dll.program.sections
  relocateImage eng bytes dll identity.sizeOfImage imageBase preferredBase
  let imports ← .ofExcept (withContext "failed to parse DLL imports"
    (inspectPeImportsFromParsed dll.program bytes))
  patchImports eng resolveImport imageBase imports
  let exports ← .ofExcept (withContext "failed to parse DLL exports" (parseDllExports dll.pe bytes))
  registerModule (req.module identity handle imageBase exports)
  .context "failed to apply DLL section protects" (applyPeSectionProtects eng plan imageBase)
  return ⟨req.module identity handle imageBase exports, imageBase, dependenciesOf [] imports⟩

/-- Steps 3 to 8. -/
def loadStages (req : LoadRequest) (bytes : List UInt8) (dll : ParsedDll) (identity : PeIdentity)
    (handle : BitVec 64) : Load τ σ DllLoadResult := do
  let imageBase ← mapDllImage eng (.ofNat 64 identity.imageBase) handle identity.sizeOfImage
  fillImage eng resolveImport req bytes dll identity handle imageBase

/-- `load_dll`. -/
def loadDll (req : LoadRequest) : Load τ σ DllLoadResult := do
  let parsed ← .ofExcept (prepare parse req)
  let handle ← takeHandle
  loadStages eng resolveImport req parsed.1 parsed.2.1 parsed.2.2 handle

end Stages

/-! ### What is left over -/

namespace Load

/-- The stage leaves the modules and the counter of handles alone. -/
def Keeps (x : Load τ σ α) : Prop :=
  ∀ s, (x s).2.loadedModules = s.loadedModules ∧ (x s).2.nextModuleHandle = s.nextModuleHandle

theorem Keeps.bind {x : Load τ σ α} {f : α → Load τ σ β} (hx : x.Keeps) (hf : ∀ a, (f a).Keeps) :
    (x >>= f).Keeps := by
  intro s
  have hs := hx s
  rw [bind_apply]
  rcases hxs : x s with ⟨_ | a, s'⟩
  · rw [hxs] at hs
    exact hs
  · rw [hxs] at hs
    exact ⟨(hf a s').1.trans hs.1, (hf a s').2.trans hs.2⟩

theorem Keeps.pure (a : α) : (Pure.pure a : Load τ σ α).Keeps := fun _ => ⟨rfl, rfl⟩

theorem Keeps.ofExcept (x : Except String α) : (Load.ofExcept x : Load τ σ α).Keeps :=
  fun _ => ⟨rfl, rfl⟩

theorem Keeps.onEngine (msg : String) (op : τ → Except String α × τ) :
    (Load.onEngine msg op : Load τ σ α).Keeps := fun _ => ⟨rfl, rfl⟩

theorem Keeps.context (msg : String) {x : Load τ σ α} (hx : x.Keeps) : (x.context msg).Keeps := hx

theorem Keeps.ite {x y : Load τ σ α} {p : Prop} [Decidable p] (hx : x.Keeps) (hy : y.Keeps) :
    (if p then x else y).Keeps := by
  split
  · exact hx
  · exact hy

/-- The stage leaves the counter of handles alone. It enters a module that `M` holds of, or fails
before that; what it returns is told of the module by `R`. -/
def Enters (M : LoadedModule → Prop) (R : LoadedModule → α → Prop) (x : Load τ σ α) : Prop :=
  ∀ s, (x s).2.nextModuleHandle = s.nextModuleHandle ∧
    ((x s).2.loadedModules = s.loadedModules ∧ (∃ e, (x s).1 = .error e) ∨
      ∃ m, M m ∧ (x s).2.loadedModules = s.loadedModules.insert m ∧ ∀ a, (x s).1 = .ok a → R m a)

theorem Enters.mono {M M' : LoadedModule → Prop} {R R' : LoadedModule → α → Prop} {x : Load τ σ α}
    (h : x.Enters M R) (hM : ∀ m, M m → M' m) (hR : ∀ m a, R m a → R' m a) : x.Enters M' R' := by
  intro s
  refine ⟨(h s).1, (h s).2.imp id ?_⟩
  rintro ⟨m, hm, htable, ha⟩
  exact ⟨m, hM m hm, htable, fun a he => hR m a (ha a he)⟩

/-- Nothing is entered before the next stage. -/
theorem Keeps.enters {M : LoadedModule → Prop} {R : LoadedModule → β → Prop} {x : Load τ σ α}
    {f : α → Load τ σ β} (hx : x.Keeps) (hf : ∀ a, (f a).Enters M R) : (x >>= f).Enters M R := by
  intro s
  have hs := hx s
  rw [bind_apply]
  rcases hxs : x s with ⟨e | a, s'⟩
  · rw [hxs] at hs
    exact ⟨hs.2, .inl ⟨hs.1, e, rfl⟩⟩
  · rw [hxs] at hs
    have ha := hf a s'
    rw [hs.1, hs.2] at ha
    exact ha

/-- The module has been entered, and what comes next lets it be. -/
theorem enters_register {M : LoadedModule → Prop} {R : LoadedModule → α → Prop} {m : LoadedModule}
    {y : Load τ σ Unit} {a : α} (hm : M m) (hy : y.Keeps) (ha : R m a) :
    (registerModule m >>= fun _ => y >>= fun _ => (pure a : Load τ σ α)).Enters M R := by
  intro s
  have hentered := hy { s with loadedModules := s.loadedModules.insert m }
  have hregister : (registerModule m >>= fun _ => y >>= fun _ => (pure a : Load τ σ α)) s =
      (y >>= fun _ => (pure a : Load τ σ α))
        { s with loadedModules := s.loadedModules.insert m } := by
    rw [bind_apply]
    rfl
  rw [hregister, bind_apply]
  rcases hys : y { s with loadedModules := s.loadedModules.insert m } with ⟨e | u, s'⟩
  · rw [hys] at hentered
    exact ⟨hentered.2, .inr ⟨m, hm, hentered.1, fun a' h => by cases h⟩⟩
  · rw [hys] at hentered
    refine ⟨hentered.2, .inr ⟨m, hm, hentered.1, fun a' h => ?_⟩⟩
    cases h
    exact ha

end Load

section Stages

open Load

variable (eng : EngineOps τ)
  (resolveImport : List Char → List Char → BitVec 64 → σ → Except String (BitVec 64) × σ)

theorem keeps_mapDllImage (preferredBase handle : BitVec 64) (size : ℕ) :
    (mapDllImage eng preferredBase handle size : Load τ σ _).Keeps := by
  intro s
  rw [mapDllImage]
  split
  · exact ⟨rfl, rfl⟩
  · split <;> exact ⟨rfl, rfl⟩

theorem keeps_writeHeaders (bytes : List UInt8) (n : ℕ) (imageBase : BitVec 64) :
    (writeHeaders eng bytes n imageBase : Load τ σ _).Keeps :=
  .ite (.onEngine _ _) (.pure ())

theorem keeps_writeDllSection (bytes : List UInt8) (imageBase : BitVec 64) (sec : SectionTable) :
    (writeDllSection eng bytes imageBase sec : Load τ σ _).Keeps :=
  .bind (.ite (.onEngine _ _) (.pure ())) fun _ => .ite (.onEngine _ _) (.pure ())

theorem keeps_writeDllSections (bytes : List UInt8) (imageBase : BitVec 64) :
    ∀ sections, (writeDllSections eng bytes imageBase sections : Load τ σ _).Keeps
  | [] => .pure ()
  | s :: rest =>
    .bind (keeps_writeDllSection eng bytes imageBase s) fun _ =>
      keeps_writeDllSections bytes imageBase rest

theorem keeps_relocateImage (bytes : List UInt8) (dll : ParsedDll) (size : ℕ)
    (imageBase preferredBase : BitVec 64) :
    (relocateImage eng bytes dll size imageBase preferredBase : Load τ σ _).Keeps :=
  .ite (.bind (.onEngine _ _) fun _ => .bind (.ofExcept _) fun _ => .onEngine _ _) (.pure ())

theorem keeps_patchImports (imageBase : BitVec 64) :
    ∀ imports, (patchImports eng resolveImport imageBase imports).Keeps
  | [] => .pure ()
  | _ :: rest =>
    .bind (fun _ => ⟨rfl, rfl⟩) fun _ => .bind (.onEngine _ _) fun _ =>
      keeps_patchImports imageBase rest

theorem keeps_protectRange (msg : String) (imageBase : BitVec 64) (range : Option (ℕ × ℕ))
    (protect : ℕ) : (protectRange eng msg imageBase range protect : Load τ σ _).Keeps := by
  cases range with
  | none => exact .pure ()
  | some r => exact .ite (.bind (.onEngine _ _) fun _ => .pure ()) (.pure ())

theorem keeps_protectSections (plan : PeMapPlan) (imageBase : BitVec 64) :
    ∀ sections, (protectSections eng plan imageBase sections : Load τ σ _).Keeps
  | [] => .pure ()
  | _ :: rest =>
    .bind (keeps_protectRange eng _ imageBase _ _) fun _ =>
      keeps_protectSections plan imageBase rest

theorem keeps_applyPeSectionProtects (plan : PeMapPlan) (imageBase : BitVec 64) :
    (applyPeSectionProtects eng plan imageBase : Load τ σ _).Keeps :=
  .ite (.bind (.onEngine _ _) fun _ => .bind (keeps_protectRange eng _ imageBase _ _) fun _ =>
    keeps_protectSections eng plan imageBase _) (.pure ())

/-- One of the last stages enters the module. -/
theorem enters_fillImage (req : LoadRequest) (bytes : List UInt8) (dll : ParsedDll)
    (identity : PeIdentity) (handle imageBase : BitVec 64) :
    (fillImage eng resolveImport req bytes dll identity handle imageBase).Enters
      (fun m => (m.handle = handle ∧ m.name = req.moduleName ∧ m.refCount = 1) ∧
        m.imageBase = imageBase ∧ m.imageSize = identity.sizeOfImage)
      (fun m r => r.module = m ∧ r.imageBase = imageBase) :=
  (Keeps.ofExcept _).enters fun plan =>
    (keeps_writeHeaders eng bytes _ imageBase).enters fun _ =>
      (keeps_writeDllSections eng bytes imageBase _).enters fun _ =>
        (keeps_relocateImage eng bytes dll _ imageBase _).enters fun _ =>
          (Keeps.ofExcept _).enters fun _ =>
            (keeps_patchImports eng resolveImport imageBase _).enters fun _ =>
              (Keeps.ofExcept _).enters fun _ =>
                enters_register ⟨⟨rfl, rfl, rfl⟩, rfl, rfl⟩
                  (.context _ (keeps_applyPeSectionProtects eng plan imageBase)) ⟨rfl, rfl⟩

/-- **No stage gives the handle back.** -/
theorem enters_loadStages (req : LoadRequest) (bytes : List UInt8) (dll : ParsedDll)
    (identity : PeIdentity) (handle : BitVec 64) :
    (loadStages eng resolveImport req bytes dll identity handle).Enters
      (fun m => m.handle = handle ∧ m.name = req.moduleName ∧ m.refCount = 1)
      (fun m r => r.module = m) :=
  (keeps_mapDllImage eng _ handle _).enters fun imageBase =>
    (enters_fillImage eng resolveImport req bytes dll identity handle imageBase).mono
      (fun _ h => h.1) fun _ _ h => h.1

end Stages

/-! ### All or nothing -/

section AllOrNothing

variable (eng : EngineOps τ) (parse : List UInt8 → Option ParsedDll)
  (resolveImport : List Char → List Char → BitVec 64 → σ → Except String (BitVec 64) × σ)
  (req : LoadRequest) (s : LoadState τ σ)

/-- The guest is as it was: its pages, their protections and bytes, the modules and the counter of
handles. What the callback keeps for itself is not part of it. -/
structure LoadState.Same (s s' : LoadState τ σ) : Prop where
  engine : s'.engine = s.engine
  loadedModules : s'.loadedModules = s.loadedModules
  nextModuleHandle : s'.nextModuleHandle = s.nextModuleHandle

/-- **A load that fails has changed nothing.** -/
def AllOrNothing : Prop :=
  ∀ e s', loadDll eng parse resolveImport req s = (.error e, s') → s.Same s'

/-- The state behind the handle. -/
def LoadState.handleTaken (s : LoadState τ σ) : LoadState τ σ :=
  { s with nextModuleHandle := .ofNat 64 (s.nextModuleHandle.toNat + 0x1000) }

theorem LoadState.handleTaken_loadedModules (s : LoadState τ σ) :
    s.handleTaken.loadedModules = s.loadedModules := by
  rw [handleTaken]

/-- Every stage after the handle succeeds, each on what the one before it has left. -/
def StagesSucceed (bytes : List UInt8) (dll : ParsedDll) (identity : PeIdentity) : Prop :=
  let preferredBase : BitVec 64 := .ofNat 64 identity.imageBase
  ∃ imageBase s₁, mapDllImage eng preferredBase s.nextModuleHandle identity.sizeOfImage
      s.handleTaken = (.ok imageBase, s₁) ∧
    ∃ plan, peMapPlanFromParsed dll.program = .ok plan ∧
    ∃ s₂, writeHeaders eng bytes identity.sizeOfHeaders imageBase s₁ = (.ok (), s₂) ∧
    ∃ s₃, writeDllSections eng bytes imageBase dll.program.sections s₂ = (.ok (), s₃) ∧
    ∃ s₄, relocateImage eng bytes dll identity.sizeOfImage imageBase preferredBase s₃ =
      (.ok (), s₄) ∧
    ∃ imports, inspectPeImportsFromParsed dll.program bytes = .ok imports ∧
    ∃ s₅, patchImports eng resolveImport imageBase imports s₄ = (.ok (), s₅) ∧
    ∃ exports, parseDllExports dll.pe bytes = .ok exports ∧
    ∃ s₆, applyPeSectionProtects eng plan imageBase (registerModule
      (req.module identity s.nextModuleHandle imageBase exports) s₅).2 = (.ok (), s₆)

variable {eng parse resolveImport req s}

/-- What comes before the handle is about the file. -/
theorem prepare_eq_ok {p : List UInt8 × ParsedDll × PeIdentity} (h : prepare parse req = .ok p) :
    req.file = some p.1 ∧ parse p.1 = some p.2.1 ∧
      peIdentityFromParsed p.2.1.program = .ok p.2.2 := by
  obtain ⟨bytes, dll, identity⟩ := p
  rw [prepare] at h
  cases hfile : req.file with
  | none =>
    rw [hfile] at h
    cases h
  | some file =>
    cases hparse : parse file with
    | none =>
      rw [hfile] at h
      simp only [orContext, bind, Except.bind, hparse] at h
      cases h
    | some parsed =>
      rw [hfile] at h
      simp only [orContext, bind, Except.bind, hparse] at h
      split at h
      · cases h
      · cases hid : peIdentityFromParsed parsed.program with
        | error e =>
          rw [hid] at h
          cases h
        | ok found =>
          rw [hid] at h
          cases h
          exact ⟨rfl, hparse, hid⟩

/-- What a load returns. -/
theorem loadDll_result {r : DllLoadResult} {s' : LoadState τ σ}
    (h : loadDll eng parse resolveImport req s = (.ok r, s')) :
    ∃ p imports handle imageBase exports, prepare parse req = .ok p ∧
      inspectPeImportsFromParsed p.2.1.program p.1 = .ok imports ∧
      r = ⟨req.module p.2.2 handle imageBase exports, imageBase, dependenciesOf [] imports⟩ := by
  simp only [loadDll, loadStages, fillImage, Load.bind_eq_ok, Load.ofExcept_eq_ok,
    withContext_eq_ok, Load.context_eq_ok] at h
  obtain ⟨p, _, ⟨hp, rfl⟩, handle, _, -, imageBase, _, -, _, _, -, _, _, -, _, _, -, _, _, -,
    imports, _, ⟨himports, rfl⟩, _, _, -, exports, _, -, _, _, -, _, _, -, hr⟩ := h
  cases hr
  exact ⟨p, imports, handle, imageBase, exports, hp, himports, rfl⟩

/-- The stages after the handle, taken together. -/
theorem loadStages_eq_ok_iff {bytes : List UInt8} {dll : ParsedDll} {identity : PeIdentity} :
    (∃ r s', loadStages eng resolveImport req bytes dll identity s.nextModuleHandle s.handleTaken =
      (.ok r, s')) ↔ StagesSucceed eng resolveImport req s bytes dll identity := by
  simp only [loadStages, fillImage, Load.bind_eq_ok, Load.ofExcept_eq_ok, withContext_eq_ok,
    Load.context_eq_ok]
  constructor
  · rintro ⟨r, s', imageBase, s₁, hmap, plan, _, ⟨hplan, rfl⟩, ⟨⟩, s₂, hheaders, ⟨⟩, s₃,
      hsections, ⟨⟩, s₄, hreloc, imports, _, ⟨himports, rfl⟩, ⟨⟩, s₅, hpatch, exports, _,
      ⟨hexports, rfl⟩, ⟨⟩, s₆, hregister, ⟨⟩, s₇, hprotect, -⟩
    cases hregister
    exact ⟨imageBase, _, hmap, plan, hplan, s₂, hheaders, s₃, hsections, _, hreloc, imports,
      himports, _, hpatch, exports, hexports, s₇, hprotect⟩
  · rintro ⟨imageBase, s₁, hmap, plan, hplan, s₂, hheaders, s₃, hsections, s₄, hreloc, imports,
      himports, s₅, hpatch, exports, hexports, s₆, hprotect⟩
    exact ⟨_, s₆, imageBase, s₁, hmap, plan, s₁, ⟨hplan, rfl⟩, (), s₂, hheaders, (), s₃,
      hsections, (), s₄, hreloc, imports, s₄, ⟨himports, rfl⟩, (), s₅, hpatch, exports, s₅,
      ⟨hexports, rfl⟩, (), _, rfl, (), s₆, hprotect, rfl⟩

theorem loadDll_of_error {e : String} (h : prepare parse req = .error e) :
    loadDll eng parse resolveImport req s = (.error e, s) := by
  rw [loadDll, Load.bind_apply, h]
  rfl

theorem loadDll_of_overflow {p : List UInt8 × ParsedDll × PeIdentity}
    (h : prepare parse req = .ok p) (ho : 2 ^ 64 ≤ s.nextModuleHandle.toNat + 0x1000) :
    loadDll eng parse resolveImport req s = (.error "module handle overflow", s) := by
  have htake : (takeHandle : Load τ σ _) s = (.error "module handle overflow", s) := by
    have hadd : checkedAdd s.nextModuleHandle.toNat 0x1000 = none := checkedAdd_eq_none.mpr ho
    delta takeHandle
    rw [hadd]
  rw [loadDll, Load.bind_apply, h]
  dsimp only [Load.ofExcept]
  rw [Load.bind_apply, htake]

theorem loadDll_of_handle {p : List UInt8 × ParsedDll × PeIdentity}
    (h : prepare parse req = .ok p) (ho : s.nextModuleHandle.toNat + 0x1000 < 2 ^ 64) :
    loadDll eng parse resolveImport req s =
      loadStages eng resolveImport req p.1 p.2.1 p.2.2 s.nextModuleHandle s.handleTaken := by
  have htake : (takeHandle : Load τ σ _) s = (.ok s.nextModuleHandle, s.handleTaken) := by
    have hadd : checkedAdd s.nextModuleHandle.toNat 0x1000 =
      some (s.nextModuleHandle.toNat + 0x1000) := checkedAdd_eq_some.mpr ⟨rfl, ho⟩
    delta takeHandle
    rw [hadd, LoadState.handleTaken]
  rw [loadDll, Load.bind_apply, h]
  dsimp only [Load.ofExcept]
  rw [Load.bind_apply, htake]

/-- **A handle is taken for good**, whether the load fails or not. -/
theorem nextModuleHandle_loadDll {p : List UInt8 × ParsedDll × PeIdentity}
    (h : prepare parse req = .ok p) (ho : s.nextModuleHandle.toNat + 0x1000 < 2 ^ 64) :
    (loadDll eng parse resolveImport req s).2.nextModuleHandle =
      s.handleTaken.nextModuleHandle := by
  rw [loadDll_of_handle h ho]
  exact (enters_loadStages eng resolveImport req p.1 p.2.1 p.2.2 s.nextModuleHandle s.handleTaken).1

/-- **What a load does to the table**: nothing if it fails early, and else it enters a module with
the handle that it has taken. -/
theorem loadDll_table (eng : EngineOps τ) (parse : List UInt8 → Option ParsedDll)
    (resolveImport : List Char → List Char → BitVec 64 → σ → Except String (BitVec 64) × σ)
    (req : LoadRequest) (s : LoadState τ σ) {x : Except String DllLoadResult} {s' : LoadState τ σ}
    (h : loadDll eng parse resolveImport req s = (x, s')) :
    (s'.loadedModules = s.loadedModules ∧
        s.nextModuleHandle.toNat ≤ s'.nextModuleHandle.toNat ∧ ∃ e, x = .error e) ∨
      ∃ m : LoadedModule,
        (m.handle = s.nextModuleHandle ∧ m.name = req.moduleName ∧ m.refCount = 1) ∧
        s'.loadedModules = s.loadedModules.insert m ∧
        s.nextModuleHandle.toNat < s'.nextModuleHandle.toNat ∧ ∀ r, x = .ok r → r.module = m := by
  cases hp : prepare parse req with
  | error e =>
    rw [loadDll_of_error hp] at h
    cases h
    exact .inl ⟨rfl, le_rfl, e, rfl⟩
  | ok p =>
    rcases Nat.lt_or_ge (s.nextModuleHandle.toNat + 0x1000) (2 ^ 64) with ho | ho
    · have htaken : s.handleTaken.nextModuleHandle.toNat = s.nextModuleHandle.toNat + 0x1000 := by
        rw [LoadState.handleTaken, BitVec.toNat_ofNat, Nat.mod_eq_of_lt ho]
      rw [loadDll_of_handle hp ho] at h
      have hstages := enters_loadStages eng resolveImport req p.1 p.2.1 p.2.2 s.nextModuleHandle
        s.handleTaken
      rw [h, LoadState.handleTaken_loadedModules] at hstages
      have hlt : s.nextModuleHandle.toNat < s'.nextModuleHandle.toNat := by
        have hnext := (congrArg BitVec.toNat hstages.1).trans htaken
        exact hnext ▸ Nat.lt_add_of_pos_right (by decide)
      rcases hstages.2 with ⟨htable, e, he⟩ | ⟨m, hm, htable, hr⟩
      · exact .inl ⟨htable, hlt.le, e, he⟩
      · exact .inr ⟨m, hm, htable, hlt, hr⟩
    · rw [loadDll_of_overflow hp ho] at h
      cases h
      exact .inl ⟨rfl, le_rfl, _, rfl⟩

/-- Taking a handle moves the counter. -/
theorem handleTaken_ne (ho : s.nextModuleHandle.toNat + 0x1000 < 2 ^ 64) :
    s.handleTaken.nextModuleHandle ≠ s.nextModuleHandle := by
  intro h
  have h' := congrArg BitVec.toNat h
  rw [LoadState.handleTaken, BitVec.toNat_ofNat, Nat.mod_eq_of_lt ho] at h'
  omega

/-- **When a load is all or nothing**: it fails before the handle is taken, for what is in the file
or because there is no handle left, or every stage after that succeeds. -/
theorem allOrNothing_iff :
    AllOrNothing eng parse resolveImport req s ↔
      (∃ e, prepare parse req = .error e) ∨ 2 ^ 64 ≤ s.nextModuleHandle.toNat + 0x1000 ∨
        ∃ p, prepare parse req = .ok p ∧
          StagesSucceed eng resolveImport req s p.1 p.2.1 p.2.2 := by
  cases hp : prepare parse req with
  | error e =>
    refine iff_of_true ?_ (.inl ⟨e, rfl⟩)
    intro e' s' h
    rw [loadDll_of_error hp] at h
    cases h
    exact ⟨rfl, rfl, rfl⟩
  | ok p =>
    rcases Nat.lt_or_ge (s.nextModuleHandle.toNat + 0x1000) (2 ^ 64) with ho | ho
    · have htaken : (loadDll eng parse resolveImport req s).2.nextModuleHandle =
        s.handleTaken.nextModuleHandle := nextModuleHandle_loadDll hp ho
      rw [AllOrNothing]
      rw [loadDll_of_handle hp ho] at htaken ⊢
      rcases hrun : loadStages eng resolveImport req p.1 p.2.1 p.2.2 s.nextModuleHandle
        s.handleTaken with ⟨e | r, s'⟩
      · -- the handle is gone
        rw [hrun] at htaken
        refine iff_of_false (fun h => ?_) ?_
        · exact handleTaken_ne ho (htaken.symm.trans (h e s' rfl).nextModuleHandle)
        · rintro (⟨e', he⟩ | hlt | ⟨q, hq, hs⟩)
          · cases he
          · omega
          · cases hq
            obtain ⟨r, s'', hok⟩ := loadStages_eq_ok_iff.mpr hs
            rw [hrun] at hok
            cases hok
      · refine iff_of_true (fun e s'' h => by cases h) (.inr (.inr ⟨p, rfl, ?_⟩))
        exact loadStages_eq_ok_iff.mp ⟨r, s', hrun⟩
    · refine iff_of_true ?_ (.inr (.inl ho))
      intro e' s' h
      rw [loadDll_of_overflow hp ho] at h
      cases h
      exact ⟨rfl, rfl, rfl⟩

end AllOrNothing

/-! ### A DLL with an unnamed section -/

/-- A guest: the byte and the protection of every address that is mapped. -/
abbrev GuestPages := BitVec 64 → Option (UInt8 × ℕ)

/-- The addresses from `base` on are all mapped. -/
def GuestPages.mapped (m : GuestPages) (base : BitVec 64) (len : ℕ) : Bool :=
  (List.range len).all fun i => (m (base + .ofNat 64 i)).isSome

/-- An engine that is nothing but its guest. Mapping what is mapped already is an error. -/
def guestPagesEngine : EngineOps GuestPages where
  memMap base size _ m :=
    if (List.range size).any fun i => (m (base + .ofNat 64 i)).isSome then
      (.error "already mapped", m)
    else (.ok (), fun a =>
      if (a - base).toNat < size then some (0, Protect.pageExecuteReadwrite) else m a)
  memWrite base bytes m :=
    if m.mapped base bytes.length then
      (.ok (), fun a => (m a).map fun p => (bytes.getD (a - base).toNat p.1, p.2))
    else (.error "write to memory that is not mapped", m)
  memRead base len m :=
    if m.mapped base len then
      (.ok ((List.range len).map fun i => ((m (base + .ofNat 64 i)).getD (0, 0)).1), m)
    else (.error "read from memory that is not mapped", m)
  virtualProtect base size protect m :=
    if m.mapped base size then
      (.ok ((m base).getD (0, 0)).2,
        fun a => (m a).map fun p => (p.1, if (a - base).toNat < size then protect else p.2))
    else (.error "protection of memory that is not mapped", m)

/-- A parser that knows one file. -/
def parseUnnamed (bytes : List UInt8) : Option ParsedDll :=
  if bytes = unnamedFile then some ⟨unnamedProgram, some ⟨none, none⟩⟩ else none

/-- The file is there, and is to be loaded. -/
def unnamedRequest : LoadRequest where
  file := some unnamedFile
  fileName := some "unnamed.dll".toList
  hostPath := "unnamed.dll".toUTF8.toList
  guestPath := "C:\\unnamed.dll".toList

/-- No module has been loaded, and nothing is mapped. -/
def freshLoadState : LoadState GuestPages Unit where
  engine := fun _ => none
  loadedModules := []
  nextModuleHandle := REAL_MODULE_HANDLE_BASE
  resolver := ()

/-- A callback that has an address for no import. -/
def resolveNothing (_ _ : List Char) (_ : BitVec 64) (_ : Unit) :
    Except String (BitVec 64) × Unit :=
  (.error "unresolved", ())

theorem prepare_unnamed : prepare parseUnnamed unnamedRequest =
    .ok (unnamedFile, ⟨unnamedProgram, some ⟨none, none⟩⟩, unnamedProgram.identity) := by
  have hid : peIdentityFromParsed unnamedProgram = .ok unnamedProgram.identity := rfl
  have hparse : parseUnnamed unnamedFile = some ⟨unnamedProgram, some ⟨none, none⟩⟩ := if_pos rfl
  rw [prepare, unnamedRequest]
  simp only [orContext, hparse, hid, withContext, bind, Except.bind]
  rfl

/-- The plan of the protections cannot be made, and the image has been mapped by then. -/
theorem not_allOrNothing : ¬∀ (eng : EngineOps GuestPages) (parse : List UInt8 → Option ParsedDll)
    (resolveImport : List Char → List Char → BitVec 64 → Unit → Except String (BitVec 64) × Unit)
    (req : LoadRequest) (s : LoadState GuestPages Unit),
    AllOrNothing eng parse resolveImport req s := by
  intro h
  have hfresh := allOrNothing_iff.mp
    (h guestPagesEngine parseUnnamed resolveNothing unnamedRequest freshLoadState)
  rw [prepare_unnamed] at hfresh
  rcases hfresh with ⟨e, he⟩ | hlt | ⟨p, hp, hstages⟩
  · cases he
  · exact absurd hlt (by decide)
  · cases hp
    obtain ⟨-, -, -, plan, hplan, -⟩ := hstages
    cases hplan

end Wie
