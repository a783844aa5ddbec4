import Wie.Winapi.Engine
import Wie.Winapi.GuestPath
import Wie.Winapi.LoadDll

/-!
# Modules by name and by handle

The calls by which a guest loads a module, looks up what it exports and frees it again. A name is
first taken for the main module, then for one of the modules that the system stands in for, then for
one that is in the table; only then a file is looked for. The libraries that a file needs are loaded
after it, and the load fails if one of them does. Nothing bounds how deep that goes, so that the
function here has a bound and no result beyond it.

An address that has been looked up is kept under the name of the procedure alone.

Which file a name stands for is a parameter of each call, since the host may change its files. The
addresses of the system's own procedures are a parameter too.

## Main definitions

* `ModuleEnv`, `ModuleState` — what the calls are made in
* `resolveOrLoadDll`, `handleLoadLibrary`, `handleFreeLibrary`, `handleGetProcAddress` — the calls
* `LoadsFresh` — no file is loaded whose name is in the table

## Main results

* `resolveOrLoadDll_rule` — what each of its steps does, a load does
-/

namespace Wie

/-- `ERROR_MOD_NOT_FOUND`. -/
def ERROR_MOD_NOT_FOUND : ℕ := 126

/-- `ERROR_PROC_NOT_FOUND`. -/
def ERROR_PROC_NOT_FOUND : ℕ := 127

/-! ### Names of modules -/

/-- `FAKE_KERNEL32_MODULE`. -/
def FAKE_KERNEL32_MODULE : BitVec 64 := 0x61000000

/-- `FAKE_USER32_MODULE`. -/
def FAKE_USER32_MODULE : BitVec 64 := 0x61001000

/-- `FAKE_GDI32_MODULE`. -/
def FAKE_GDI32_MODULE : BitVec 64 := 0x61002000

/-- `FAKE_COMCTL32_MODULE`. -/
def FAKE_COMCTL32_MODULE : BitVec 64 := 0x61003000

/-- `FAKE_ADVAPI32_MODULE`. -/
def FAKE_ADVAPI32_MODULE : BitVec 64 := 0x61004000

/-- `FAKE_SHELL32_MODULE`. -/
def FAKE_SHELL32_MODULE : BitVec 64 := 0x61005000

/-- `FAKE_COMDLG32_MODULE`. -/
def FAKE_COMDLG32_MODULE : BitVec 64 := 0x61006000

/-- `FAKE_WINMM_MODULE`. -/
def FAKE_WINMM_MODULE : BitVec 64 := 0x61007000

/-- The modules that the system stands in for. -/
def fakeModules : List (List Char × BitVec 64) :=
  [("kernel32.dll".toList, FAKE_KERNEL32_MODULE), ("user32.dll".toList, FAKE_USER32_MODULE),
    ("gdi32.dll".toList, FAKE_GDI32_MODULE), ("comctl32.dll".toList, FAKE_COMCTL32_MODULE),
    ("advapi32.dll".toList, FAKE_ADVAPI32_MODULE), ("shell32.dll".toList, FAKE_SHELL32_MODULE),
    ("comdlg32.dll".toList, FAKE_COMDLG32_MODULE), ("winmm.dll".toList, FAKE_WINMM_MODULE)]

/-- `normalize_module_name`. -/
def normalizeModuleName (name : List Char) : List Char :=
  let slashed := (trimMatches (· = QUOTE) (trim name)).map fun c => if c = BACKSLASH then '/' else c
  toAsciiLowercase ((slashed.splitOn '/').getLastD name)

variable {τ σ : Type}

/-- What stays the same while the guest runs. -/
structure ModuleEnv (τ σ : Type) where
  /-- The operations of the engine. -/
  eng : EngineOps τ
  /-- The parser of PE files. -/
  parse : List UInt8 → Option ParsedDll
  /-- `import_resolver`, if there is one. -/
  importResolver :
    Option (List Char → List Char → BitVec 64 → σ → Except String (BitVec 64) × σ)
  /-- `image_base` of the main module. -/
  imageBase : BitVec 64
  /-- `main_module_file_name`. -/
  mainModuleFileName : List Char
  /-- `main_module_path`. -/
  mainModulePath : List Char
  /-- The procedures of the system, under their names in lower case. -/
  fakeProcs : List Char → Option (BitVec 64)

namespace ModuleEnv

variable (env : ModuleEnv τ σ)

/-- `is_main_module_name`. -/
def isMainModuleName (name : List Char) : Bool :=
  let norm := normalizeModuleName name
  norm = [] || norm = normalizeModuleName env.mainModuleFileName ||
    pathsEqualCi name env.mainModulePath

/-- `resolve_loaded_module_handle`. -/
def resolveLoadedModuleHandle (name : List Char) : BitVec 64 :=
  if env.isMainModuleName name then env.imageBase
  else (fakeModules.lookup (normalizeModuleName name)).getD 0

/-- `resolve_get_proc_address`. Names are compared in lower case there. -/
def resolveGetProcAddress (procName : List Char) : Option (BitVec 64) :=
  env.fakeProcs (toAsciiLowercase procName)

end ModuleEnv

/-! ### The state -/

/-- `GetProcAddressCacheEntry`. -/
structure GetProcAddressCacheEntry where
  /-- The name that was asked for. -/
  name : List Char
  /-- The module that was asked. -/
  moduleHandle : BitVec 64
  /-- The address that was found. -/
  address : BitVec 64
  /-- How often it was found. -/
  hitCount : ℕ

/-- What the calls read and write. -/
structure ModuleState (τ σ : Type) extends LoadState τ σ where
  /-- `get_proc_address_cache`, by names in lower case. -/
  getProcAddressCache : List Char → Option GetProcAddressCacheEntry
  /-- `last_error`. -/
  lastError : ℕ

/-! ### Loading -/

section Calls

variable (env : ModuleEnv τ σ) (find : List Char → Option LoadRequest)

/-- Steps 1 to 3 of `resolve_or_load_dll`: names that need no file. -/
def resolveKnown (name : List Char) (s : ModuleState τ σ) :
    Option (BitVec 64 × ModuleState τ σ) :=
  if trimMatches (· = QUOTE) (trim name) = [] then
    some (0, { s with lastError := ERROR_MOD_NOT_FOUND })
  else if env.isMainModuleName name then some (env.imageBase, s)
  else if env.resolveLoadedModuleHandle name ≠ 0 then
    some (env.resolveLoadedModuleHandle name, s)
  else
    match s.loadedModules.lookup (normalizeModuleName name) with
    | some module =>
      some (module.handle, { s with
        loadedModules := s.loadedModules.setRefCount module.name
          (.ofNat 64 (satAdd module.refCount.toNat 1)) })
    | none => none

/-- The loop over dependencies; `load` is the function itself. -/
def loadDependencies (load : List Char → ModuleState τ σ → Option (BitVec 64 × ModuleState τ σ))
    (handle : BitVec 64) :
    List (List Char) → ModuleState τ σ → Option (BitVec 64 × ModuleState τ σ)
  | [], s => some (handle, s)
  | dep :: rest, s =>
    match load dep s with
    | none => none
    | some r =>
      if r.1 = 0 then some (0, { r.2 with lastError := ERROR_MOD_NOT_FOUND })
      else loadDependencies load handle rest r.2

/-- `resolve_or_load_dll`, at most `fuel` files deep. `find` is `resolve_dll_path`, with what is in
the file that it finds. -/
def resolveOrLoadDll : ℕ → List Char → ModuleState τ σ → Option (BitVec 64 × ModuleState τ σ)
  | 0, _, _ => none
  | fuel + 1, name, s =>
    match resolveKnown env name s with
    | some r => some r
    | none =>
      match env.importResolver, find name with
      | some resolver, some req =>
        match loadDll env.eng env.parse resolver req s.toLoadState with
        | (.ok r, l) =>
          loadDependencies (resolveOrLoadDll fuel) r.module.handle r.dependencies
            { s with toLoadState := l }
        | (.error _, l) => some (0, { s with toLoadState := l, lastError := ERROR_MOD_NOT_FOUND })
      | _, _ => some (0, { s with lastError := ERROR_MOD_NOT_FOUND })

/-- How `LoadLibraryA` and `LoadLibraryW` end. -/
def endLoadLibrary (r : BitVec 64 × ModuleState τ σ) : BitVec 64 × ModuleState τ σ :=
  (r.1, { r.2 with lastError := if r.1 = 0 then ERROR_MOD_NOT_FOUND else 0 })

/-- `LoadLibraryA` and `LoadLibraryW`; there is no name if the pointer is null. -/
def handleLoadLibrary (fuel : ℕ) (name : Option (List Char)) (s : ModuleState τ σ) :
    Option (BitVec 64 × ModuleState τ σ) :=
  match name with
  | none => some (0, { s with lastError := ERROR_MOD_NOT_FOUND })
  | some name => (resolveOrLoadDll env find fuel name s).map endLoadLibrary

/-! ### Freeing -/

/-- A module whose count has come to zero goes, with what was looked up in it. -/
def unloadModule (module : LoadedModule) (s : ModuleState τ σ) : ModuleState τ σ :=
  { s with
    engine := (env.eng.virtualProtect module.imageBase module.imageSize Protect.pageNoaccess
      s.engine).2
    getProcAddressCache := fun name =>
      (s.getProcAddressCache name).filter fun entry => entry.moduleHandle ≠ module.handle
    loadedModules := s.loadedModules.erase module.name }

/-- `FreeLibrary`. -/
def handleFreeLibrary (handle : BitVec 64) (s : ModuleState τ σ) : BitVec 64 × ModuleState τ σ :=
  if handle = 0 then (0, { s with lastError := ERROR_INVALID_HANDLE })
  else if REAL_MODULE_HANDLE_BASE ≤ handle then
    match s.loadedModules.byHandle handle with
    | none => (0, { s with lastError := ERROR_INVALID_HANDLE })
    | some module =>
      let refCount := if module.refCount > 0 then module.refCount - 1 else module.refCount
      if refCount = 0 then (1, { unloadModule env module s with lastError := 0 })
      else (1, { s with
        loadedModules := s.loadedModules.setRefCount module.name refCount
        lastError := 0 })
  else (1, { s with lastError := 0 })

/-! ### Looking up -/

/-- What `GetProcAddress` is asked for. -/
inductive ProcName
  /-- A number; the pointer is at most 0xffff. -/
  | ordinal (n : BitVec 16)
  /-- The text that the pointer points to. -/
  | text (name : List Char)
deriving DecidableEq

namespace ProcName

/-- `proc_name`, which is a label for a number. -/
def label : ProcName → List Char
  | ordinal n => "ORDINAL 0x".toList ++ Nat.toDigits 16 n.toNat
  | text name => name

/-- `name_key`. -/
def key (p : ProcName) : List Char := toAsciiLowercase p.label

end ProcName

/-- An export of a module. -/
def LoadedModule.exportOf (m : LoadedModule) : ProcName → Option (BitVec 64)
  | .ordinal n => m.getExportVaByOrdinal n
  | .text name => m.getExportVa name

/-- What a module has under a name: an export of the module that is loaded under this handle, or a
procedure of the system. -/
def ModuleEnv.procAddress (modules : ModuleTable) (handle : BitVec 64) (p : ProcName) :
    Option (BitVec 64) :=
  if REAL_MODULE_HANDLE_BASE ≤ handle then
    (modules.byHandle handle).bind fun m => m.exportOf p
  else env.resolveGetProcAddress p.label

/-- `GetProcAddress`. -/
def handleGetProcAddress (handle : BitVec 64) (p : ProcName) (s : ModuleState τ σ) :
    BitVec 64 × ModuleState τ σ :=
  match s.getProcAddressCache p.key with
  | some cached =>
    (cached.address, { s with
      getProcAddressCache := Function.update s.getProcAddressCache p.key
        (some { cached with hitCount := satAdd cached.hitCount 1 })
      lastError := 0 })
  | none =>
    match env.procAddress s.loadedModules handle p with
    | some address =>
      (address, { s with
        getProcAddressCache := Function.update s.getProcAddressCache p.key
          (some ⟨p.label, handle, address, 1⟩)
        lastError := 0 })
    | none => (0, { s with lastError := ERROR_PROC_NOT_FOUND })

/-! ### What a load does -/

/-- The files that are needed after a file, each loaded in the state that the ones before it have
left, are all `fresh`. -/
def DepsFresh (load : List Char → ModuleState τ σ → Option (BitVec 64 × ModuleState τ σ))
    (fresh : List Char → ModuleState τ σ → Prop) : List (List Char) → ModuleState τ σ → Prop
  | [], _ => True
  | dep :: rest, s =>
    fresh dep s ∧ ∀ r, load dep s = some r → r.1 ≠ 0 → DepsFresh load fresh rest r.2

/-- No file is loaded whose name is in the table already, neither for `name` nor for what it
needs. -/
def LoadsFresh : ℕ → List Char → ModuleState τ σ → Prop
  | 0, _, _ => True
  | fuel + 1, name, s =>
    resolveKnown env name s = none → ∀ resolver, env.importResolver = some resolver →
      ∀ req, find name = some req →
        s.loadedModules.lookup req.moduleName = none ∧
        ∀ r l, loadDll env.eng env.parse resolver req s.toLoadState = (.ok r, l) →
          DepsFresh (resolveOrLoadDll env find fuel) (LoadsFresh fuel) r.dependencies
            { s with toLoadState := l }

variable {env find} {P : ModuleState τ σ → ModuleState τ σ → Prop}

theorem loadDependencies_rule {load : List Char → ModuleState τ σ →
      Option (BitVec 64 × ModuleState τ σ)} {fresh : List Char → ModuleState τ σ → Prop}
    (hrefl : ∀ s, P s s) (htrans : ∀ {s s' s''}, P s s' → P s' s'' → P s s'')
    (herror : ∀ s n, P s { s with lastError := n })
    (hload : ∀ name s r, fresh name s → load name s = some r → P s r.2) {handle : BitVec 64} :
    ∀ {deps : List (List Char)} {s : ModuleState τ σ} {r : BitVec 64 × ModuleState τ σ},
      DepsFresh load fresh deps s → loadDependencies load handle deps s = some r → P s r.2
  | [], s, r, _, h => by
    cases h
    exact hrefl s
  | dep :: rest, s, r, hfresh, h => by
    rw [loadDependencies] at h
    cases hdep : load dep s with
    | none =>
      rw [hdep] at h
      cases h
    | some r' =>
      have hfirst := hload dep s r' hfresh.1 hdep
      rw [hdep] at h
      by_cases hz : r'.1 = 0
      · simp only [hz, if_true] at h
        cases h
        exact htrans hfirst (herror _ _)
      · simp only [hz, if_false] at h
        exact htrans hfirst (loadDependencies_rule hrefl htrans herror hload
          (hfresh.2 r' hdep hz) h)

/-- **What each of its steps does, a load does**: the names that need no file, and the loads of
single files, which are all of names that are not in the table. -/
theorem resolveOrLoadDll_rule (hrefl : ∀ s, P s s)
    (htrans : ∀ {s s' s''}, P s s' → P s' s'' → P s s'')
    (herror : ∀ s n, P s { s with lastError := n })
    (hknown : ∀ name s r, resolveKnown env name s = some r → P s r.2)
    (hfile : ∀ resolver req s x l, env.importResolver = some resolver →
      s.loadedModules.lookup req.moduleName = none →
      loadDll env.eng env.parse resolver req s.toLoadState = (x, l) →
      P s { s with toLoadState := l }) :
    ∀ {fuel : ℕ} {name : List Char} {s : ModuleState τ σ} {r : BitVec 64 × ModuleState τ σ},
      LoadsFresh env find fuel name s → resolveOrLoadDll env find fuel name s = some r → P s r.2
  | 0, _, _, _, _, h => by cases h
  | fuel + 1, name, s, r, hfresh, h => by
    rw [resolveOrLoadDll] at h
    cases hk : resolveKnown env name s with
    | some r' =>
      rw [hk] at h
      cases h
      exact hknown name s _ hk
    | none =>
      rw [hk] at h
      cases hresolver : env.importResolver with
      | none =>
        simp only [hresolver] at h
        cases h
        exact herror _ _
      | some resolver =>
        cases hreq : find name with
        | none =>
          simp only [hresolver, hreq] at h
          cases h
          exact herror _ _
        | some req =>
          obtain ⟨hnew, hdeps⟩ := hfresh hk resolver hresolver req hreq
          simp only [hresolver, hreq] at h
          rcases hload : loadDll env.eng env.parse resolver req s.toLoadState with ⟨e | d, l⟩
          · have hfirst := hfile resolver req s _ l hresolver hnew hload
            rw [hload] at h
            cases h
            exact htrans hfirst (herror _ _)
          · have hfirst := hfile resolver req s _ l hresolver hnew hload
            rw [hload] at h
            exact htrans hfirst (loadDependencies_rule hrefl htrans herror
              (fun name s r hf hr => resolveOrLoadDll_rule hrefl htrans herror hknown hfile hf hr)
              (hdeps d l hload) h)

end Calls

end Wie
