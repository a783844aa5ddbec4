import Wie.Lib.Reach
import Wie.Winapi.LoadRuns
import Wie.Winapi.RefCounts

/-!
# References over runs

Libraries are loaded and freed in turn. The counts stay right as long as every module is looked up
under the name that it is entered under, no load fails half way, and no module goes that needs
others: what a load has entered stays when it fails, and a module that goes takes nothing off the
counts of the others. A name without its ending is one that a module is not entered under; it finds
no module, and the file is loaded again.

## Main definitions

* `RefCall`, `RefReach` — loads and frees, with how many there have been
* `RefGuard` — what is asked of a load and of a free
* `RefsBalanced` — files are mapped once, handles and counts are right

## Main results

* `refs_balanced` — references balance in every run under the guard
* `not_refs_balanced` — a run that is not under it
-/

namespace Wie

variable {τ σ : Type}

/-! ### Runs -/

/-- The state of the calls, with how often each module was loaded and freed. -/
structure RefState (τ σ : Type) extends ModuleState τ σ where
  /-- Loads that have returned the module. -/
  loads : List Char → ℕ
  /-- Frees of the module. -/
  frees : List Char → ℕ

/-- A load or a free. -/
inductive RefCall where
  /-- `LoadLibrary`, at most `fuel` files deep. -/
  | load (fuel : ℕ) (name : Option (List Char))
  /-- `FreeLibrary`. -/
  | free (handle : BitVec 64)

/-- One more for a module. -/
def countOne (f : List Char → ℕ) (module : Option LoadedModule) : List Char → ℕ :=
  fun n => f n + if module.map LoadedModule.name = some n then 1 else 0

section Runs

variable (env : ModuleEnv τ σ) (host : DllHost)

/-- The module that a load has returned. -/
def loadedModule (name : Option (List Char)) (r : BitVec 64 × ModuleState τ σ) :
    Option LoadedModule :=
  name.bind fun name => if env.NeedsFile name then r.2.loadedModules.byHandle r.1 else none

/-- What a load or a free leads to. -/
def RefStep (s : RefState τ σ) : RefCall → RefState τ σ → Prop
  | .load fuel name, s' =>
    ∃ r, handleLoadLibrary env (host.find env.mainModulePath) fuel name s.toModuleState = some r ∧
      s' = ⟨r.2, countOne s.loads (loadedModule env name r), s.frees⟩
  | .free handle, s' =>
    s' = ⟨(handleFreeLibrary env handle s.toModuleState).2, s.loads,
      countOne s.frees (freedModule handle s.toModuleState)⟩

/-- A load is under the guard. A module that goes with a free needs no others. -/
def RefGuard (s : ModuleState τ σ) : RefCall → Prop
  | .load fuel (some name) => LoadGuard env host fuel name s
  | .load _ none => True
  | .free handle => ∀ m, freedModule handle s = some m → m.refCount = 1 → env.needs host m = []

/-- No module has been loaded or freed. -/
structure RefBoot (s : RefState τ σ) : Prop where
  modules : s.loadedModules = []
  handles : s.nextModuleHandle = REAL_MODULE_HANDLE_BASE
  loads : ∀ n, s.loads n = 0
  frees : ∀ n, s.frees n = 0

/-- The states that loads and frees lead to. -/
def RefReach (guard : ModuleState τ σ → RefCall → Prop) : RefState τ σ → Prop :=
  GuardedReach RefBoot (fun s c => guard s.toModuleState c) (RefStep env host)

/-- **References balance.** No file is there twice, and a load replaces no module. A name of the
file of a module gives its handle, and maps nothing. A module is there as long as there have been
more loads, and are more modules that need it, than there have been frees. A load that returns
nothing has left the modules alone. -/
structure RefsBalanced (guard : ModuleState τ σ → RefCall → Prop) (s : RefState τ σ) : Prop where
  files : s.loadedModules.Pairwise fun a b => a.hostPath ≠ b.hostPath
  stays : ∀ fuel name r, guard s.toModuleState (.load fuel name) →
    handleLoadLibrary env (host.find env.mainModulePath) fuel name s.toModuleState = some r →
      ModuleTable.Persists (fun _ => True) s.loadedModules r.2.loadedModules
  sameHandle : ∀ fuel name r, guard s.toModuleState (.load fuel (some name)) →
    handleLoadLibrary env (host.find env.mainModulePath) fuel (some name) s.toModuleState =
        some r → ∀ path, resolveDllPath host env.mainModulePath name = some path →
      ∀ m ∈ s.loadedModules, m.hostPath = path → r.1 = m.handle ∧ r.2.engine = s.engine
  counted : ∀ n, (∃ m ∈ s.loadedModules, m.name = n) ↔
    s.frees n < s.loads n + dependents env host s.loadedModules n
  nothing : ∀ fuel name r, guard s.toModuleState (.load fuel name) →
    handleLoadLibrary env (host.find env.mainModulePath) fuel name s.toModuleState = some r →
      r.1 = 0 → r.2.loadedModules = s.loadedModules ∧ r.2.engine = s.engine

variable {env host}

/-- What holds in every state of a run under the guard. -/
structure RefInv (env : ModuleEnv τ σ) (host : DllHost) (s : RefState τ σ) : Prop where
  ok : RefOk s.toModuleState
  balance : ∀ n, refsOf s.loadedModules n + s.frees n =
    s.loads n + dependents env host s.loadedModules n

theorem refInv_boot {s : RefState τ σ} (h : RefBoot s) : RefInv env host s := by
  refine ⟨⟨?_, ?_, ?_, ?_⟩, fun n => ?_⟩
  · rw [h.modules]
    exact ModuleTable.ok_nil _
  · rw [h.handles]
  · rw [h.modules]
    exact List.forall_mem_nil _
  · rw [h.modules]
    exact List.forall_mem_nil _
  · rw [h.modules, h.loads, h.frees]
    rfl

/-- A load of a name is a load of its file. -/
theorem handleLoadLibrary_eq_some {s : ModuleState τ σ} {fuel : ℕ} {name : List Char}
    {r : BitVec 64 × ModuleState τ σ}
    (h : handleLoadLibrary env (host.find env.mainModulePath) fuel (some name) s = some r) :
    ∃ r', resolveOrLoadDll env (host.find env.mainModulePath) fuel name s = some r' ∧
      r.1 = r'.1 ∧ ∃ e, r.2 = { r'.2 with lastError := e } := by
  obtain ⟨r', hr', rfl⟩ := Option.map_eq_some_iff.mp h
  exact ⟨r', hr', rfl, _, rfl⟩

theorem handleLoadLibrary_counts {s : ModuleState τ σ} {fuel : ℕ} {name : List Char}
    {r : BitVec 64 × ModuleState τ σ} (hguard : LoadGuard env host fuel name s) (hok : RefOk s)
    (h : handleLoadLibrary env (host.find env.mainModulePath) fuel (some name) s = some r) :
    LoadOutcome env host name s r := by
  obtain ⟨r', hr', hhandle, e, hstate⟩ := handleLoadLibrary_eq_some h
  obtain ⟨hfailed, hhad, hgained, hfound⟩ := resolveOrLoadDll_counts hguard hok hr'
  rw [← hhandle] at hfailed hhad hgained hfound
  refine ⟨fun hz => ?_, hhad, fun hne => ?_, fun hne hneeds => ?_⟩
  · obtain ⟨e', he'⟩ := hfailed hz
    exact ⟨e, by rw [hstate, he']⟩
  · obtain ⟨hok', hstays, hcounts⟩ := hgained hne
    rw [hstate]
    exact ⟨hok'.lastError e, hstays, hcounts⟩
  · rw [hstate]
    exact hfound hne hneeds

/-- A load that returns a module counts for it. -/
theorem loadedModule_counts {s : ModuleState τ σ} {name n : List Char}
    {r : BitVec 64 × ModuleState τ σ} (h : LoadOutcome env host name s r) (hne : r.1 ≠ 0) :
    (if (loadedModule env (some name) r).map LoadedModule.name = some n then 1 else 0) =
      (env.realNames host [name]).count n := by
  show (if (if env.NeedsFile name then r.2.loadedModules.byHandle r.1 else none).map
    LoadedModule.name = some n then 1 else 0) = _
  by_cases hneeds : env.NeedsFile name
  · obtain ⟨m, hm, hhandle, hname⟩ := h.found hne hneeds
    rw [if_pos hneeds, ((h.gained hne).ok.ok.byHandle_eq_some_iff).mpr ⟨hm, hhandle⟩,
      realNames_of_needsFile hneeds, Option.map_some, hname, List.count_singleton]
    simp only [Option.some_inj, beq_iff_eq]
  · rw [if_neg hneeds, realNames_of_not hneeds]
    rfl

theorem RefInv.load {s : RefState τ σ} {fuel : ℕ} {name : List Char}
    {r : BitVec 64 × ModuleState τ σ} (hi : RefInv env host s)
    (hguard : LoadGuard env host fuel name s.toModuleState)
    (h : handleLoadLibrary env (host.find env.mainModulePath) fuel (some name) s.toModuleState =
      some r) :
    RefInv env host ⟨r.2, countOne s.loads (loadedModule env (some name) r), s.frees⟩ := by
  have houtcome := handleLoadLibrary_counts hguard hi.ok h
  by_cases hz : r.1 = 0
  · obtain ⟨e, he⟩ := houtcome.failed hz
    have hnone : loadedModule env (some name) r = none := by
      show (if env.NeedsFile name then r.2.loadedModules.byHandle r.1 else none) = none
      split
      · rw [hz, he]
        refine List.find?_eq_none.mpr fun m hm => ?_
        simpa using hi.ok.handle_ne_zero hm
      · rfl
    rw [hnone, he]
    exact ⟨hi.ok.lastError e, hi.balance⟩
  · have hgained := houtcome.gained hz
    refine ⟨hgained.ok, fun n => ?_⟩
    have hbefore := hi.balance n
    have hcounts := hgained.counts n
    show refsOf r.2.loadedModules n + s.frees n = s.loads n +
      (if (loadedModule env (some name) r).map LoadedModule.name = some n then 1 else 0) +
        dependents env host r.2.loadedModules n
    rw [loadedModule_counts houtcome hz]
    omega

theorem RefInv.free {s : RefState τ σ} {handle : BitVec 64} (hi : RefInv env host s)
    (hguard : ∀ m, freedModule handle s.toModuleState = some m → m.refCount = 1 →
      env.needs host m = []) :
    RefInv env host ⟨(handleFreeLibrary env handle s.toModuleState).2, s.loads,
      countOne s.frees (freedModule handle s.toModuleState)⟩ := by
  cases hfreed : freedModule handle s.toModuleState with
  | none =>
    obtain ⟨htable, hnext⟩ := loadedModules_free_of_none env hfreed
    refine ⟨hi.ok.congr htable hnext, fun n => ?_⟩
    show refsOf (handleFreeLibrary env handle s.toModuleState).2.loadedModules n + s.frees n =
      s.loads n + dependents env host
        (handleFreeLibrary env handle s.toModuleState).2.loadedModules n
    rw [htable]
    exact hi.balance n
  | some m =>
    obtain ⟨hok, hcounts⟩ := freed_counts hi.ok hfreed (hguard m hfreed)
    refine ⟨hok, fun n => ?_⟩
    obtain ⟨hrefs, hdependents⟩ := hcounts n
    have hbefore := hi.balance n
    show refsOf (handleFreeLibrary env handle s.toModuleState).2.loadedModules n +
        (s.frees n + if some m.name = some n then 1 else 0) =
      s.loads n + dependents env host
        (handleFreeLibrary env handle s.toModuleState).2.loadedModules n
    rw [hdependents]
    have hone : (if some m.name = some n then 1 else 0) = if n = m.name then 1 else 0 := by
      simp only [Option.some_inj, eq_comm]
    omega

/-- **One step** of a run. -/
theorem RefInv.step {s s' : RefState τ σ} {c : RefCall} (hi : RefInv env host s)
    (hguard : RefGuard env host s.toModuleState c) (hs : RefStep env host s c s') :
    RefInv env host s' := by
  cases c with
  | load fuel name =>
    obtain ⟨r, hr, rfl⟩ := hs
    cases name with
    | none =>
      cases hr
      exact ⟨hi.ok.lastError _, hi.balance⟩
    | some name => exact hi.load hguard hr
  | free handle =>
    cases hs
    exact hi.free hguard

/-- A name that is spelled as the module of its file is entered. -/
theorem resolveKnown_of_spelled {s : ModuleState τ σ} (hok : RefOk s) {name : List Char}
    {path : List UInt8} {m : LoadedModule} (hs : Spelled env host s.loadedModules name)
    (hpath : resolveDllPath host env.mainModulePath name = some path) (hm : m ∈ s.loadedModules)
    (hfile : m.hostPath = path) :
    ∃ s', resolveKnown env name s = some (m.handle, s') ∧ s'.engine = s.engine := by
  have hname : m.name = fileModuleName path := hfile ▸ hok.named m hm
  obtain ⟨hneeds, hspelled⟩ := hs path hpath m hm (.inl hname)
  have hfound : ∀ m', s.loadedModules.lookup (normalizeModuleName name) = some m' → m' = m := by
    intro m' hm'
    obtain ⟨hmem, hname'⟩ := ModuleTable.lookup_eq_some hm'
    exact hok.ok.eq_of_name hmem hm (hname'.trans (hspelled.trans hname.symm))
  cases hk : resolveKnown env name s with
  | none =>
    have hnone := (resolveKnown_eq_none hk).2
    exact absurd (hname.trans hspelled.symm) (ModuleTable.lookup_eq_none.mp hnone m hm)
  | some r =>
    rcases resolveKnown_cases hk with ⟨hempty, -, -⟩ | ⟨hnone, -, -⟩ | ⟨-, m', hm', rfl⟩
    · -- a blank name stands for the main module
      have hblank : normalizeModuleName name = [] := by
        rw [normalizeModuleName, hempty]
        rfl
      have hmain : env.isMainModuleName name = true := by
        simp [ModuleEnv.isMainModuleName, hblank]
      rw [hneeds.1] at hmain
      cases hmain
    · exact absurd hneeds hnone
    · obtain rfl := hfound m' hm'
      exact ⟨_, rfl, rfl⟩

/-- **References balance** in every run under the guard. -/
theorem refs_balanced {s : RefState τ σ} (h : RefReach env host (RefGuard env host) s) :
    RefsBalanced env host (RefGuard env host) s := by
  have hi : RefInv env host s := GuardedReach.invariant (fun _ => refInv_boot)
    (fun _ _ _ hi hg hs => hi.step hg hs) h
  refine ⟨?_, ?_, ?_, fun n => ?_, ?_⟩
  · -- two modules of one file would have one name
    refine (List.pairwise_map.mp hi.ok.ok.names).imp_of_mem fun {a b} ha hb hne hfile => hne ?_
    rw [hi.ok.named a ha, hi.ok.named b hb, hfile]
  · intro fuel name r hguard hr
    cases name with
    | none =>
      cases hr
      exact .refl
    | some name =>
      have houtcome := handleLoadLibrary_counts hguard hi.ok hr
      by_cases hz : r.1 = 0
      · obtain ⟨e, he⟩ := houtcome.failed hz
        rw [he]
        exact .refl
      · exact (houtcome.gained hz).stays
  · intro fuel name r hguard hr path hpath m hm hfile
    obtain ⟨r', hr', hhandle, e, hstate⟩ := handleLoadLibrary_eq_some hr
    cases fuel with
    | zero => cases hr'
    | succ fuel =>
      obtain ⟨s', hk, hengine⟩ := resolveKnown_of_spelled hi.ok hguard.1 hpath hm hfile
      rw [resolveOrLoadDll, hk] at hr'
      cases hr'
      rw [hstate]
      exact ⟨hhandle, hengine⟩
  · have hbalance := hi.balance n
    rw [← refsOf_pos_iff hi.ok.pos]
    omega
  · intro fuel name r hguard hr hz
    cases name with
    | none =>
      cases hr
      exact ⟨rfl, rfl⟩
    | some name =>
      obtain ⟨e, he⟩ := (handleLoadLibrary_counts hguard hi.ok hr).failed hz
      rw [he]
      exact ⟨rfl, rfl⟩

end Runs

/-! ### One file under two names -/

open GuestMemory

/-- A guest whose main module is beside the file. -/
def twinEnv : ModuleEnv (Option GuestMemory) Unit where
  eng := memoryEngine .fourK
  parse := parseTwin
  importResolver := some resolveNothing
  imageBase := 0x140000000
  mainModuleFileName := "main.exe".toList
  mainModulePath := "C:\\App\\main.exe".toList
  fakeProcs := fun _ => none

/-- Where the file is. -/
def twinPath : List UInt8 := asBytes "/app/twin.dll".toList

/-- A host with one file. -/
def twinHost : DllHost where
  volumes := ⟨none, none⟩
  isFile path := path = twinPath
  read path := if path = twinPath then some twinFile else none
  mainModuleHostDir := some (asBytes "/app".toList)

/-- Nothing has been loaded. -/
def twinBoot : RefState (Option GuestMemory) Unit where
  toLoadState := twinStart
  getProcAddressCache := fun _ => none
  lastError := 0
  loads := fun _ => 0
  frees := fun _ => 0

theorem refBoot_twin : RefBoot twinBoot := ⟨rfl, rfl, fun _ => rfl, fun _ => rfl⟩

/-- The load of a name, which needs no other file. -/
def loadName (name : List Char) (s : RefState (Option GuestMemory) Unit) :
    Option (BitVec 64 × ModuleState (Option GuestMemory) Unit) :=
  handleLoadLibrary twinEnv (twinHost.find twinEnv.mainModulePath) 1 (some name) s.toModuleState

/-- The state after the first load. -/
def loadedTwin (name : List Char) : RefState (Option GuestMemory) Unit :=
  ((loadName name twinBoot).map fun r =>
    ⟨r.2, countOne twinBoot.loads (loadedModule twinEnv (some name) r), twinBoot.frees⟩).getD
      twinBoot

theorem refStep_twin {name : List Char} (h : (loadName name twinBoot).isSome) :
    RefStep twinEnv twinHost twinBoot (.load 1 (some name)) (loadedTwin name) := by
  obtain ⟨r, hr⟩ := Option.isSome_iff_exists.mp h
  refine ⟨r, hr, ?_⟩
  rw [loadedTwin, hr]
  rfl

theorem exists_eq_ok {α β : Type} {x : Except String α × β} (h : x.1.toOption.isSome) :
    ∃ a s, x = (.ok a, s) := by
  obtain ⟨e | a, s⟩ := x
  · cases h
  · exact ⟨a, s, rfl⟩

/-- The name of the file is a name to load it by. -/
theorem loadGuard_twin : LoadGuard twinEnv twinHost 1 "twin.dll".toList twinBoot.toModuleState := by
  refine ⟨fun _ _ _ hm => absurd hm List.not_mem_nil, ?_, ?_⟩
  · intro m hm
    cases hm
  intro _ resolver hresolver req hreq p hp _
  cases hresolver
  have hpath : resolveDllPath twinHost twinEnv.mainModulePath "twin.dll".toList =
      some twinPath := by
    decide +kernel
  rw [DllHost.find, hpath] at hreq
  cases hreq
  have hfile : twinHost.read twinPath = some twinFile := by simp [twinHost]
  have hnone : fileDependencies parseTwin (some twinFile) = [] := by decide +kernel
  cases (prepare_twin hfile).symm.trans hp
  show _ ∧
    (twinEnv.realNames twinHost (fileDependencies parseTwin (twinHost.read twinPath))).Nodup ∧
    ∀ r l, _ → DepsFresh _ _ (fileDependencies parseTwin (twinHost.read twinPath)) _
  rw [hfile, hnone]
  refine ⟨?_, .nil, fun _ _ _ => trivial⟩
  refine loadStages_eq_ok_iff.mp (exists_eq_ok ?_)
  decide +kernel

/-- One load by the name of the file. -/
theorem refs_balanced_twin : (loadedTwin "twin.dll".toList).loads "twin.dll".toList = 1 ∧
    (loadedTwin "twin.dll".toList).loadedModules.length = 1 ∧
    RefsBalanced twinEnv twinHost (RefGuard twinEnv twinHost) (loadedTwin "twin.dll".toList) :=
  ⟨by decide +kernel, by decide +kernel,
    refs_balanced (GuardedReach.step (.init refBoot_twin)
      (show RefGuard twinEnv twinHost _ (.load 1 (some _)) from loadGuard_twin)
      (refStep_twin (by decide +kernel)))⟩

/-- The file is loaded a second time when its name comes without the ending again. -/
theorem not_refs_balanced : ¬∀ (env : ModuleEnv (Option GuestMemory) Unit) (host : DllHost)
    (s : RefState (Option GuestMemory) Unit), RefReach env host (fun _ _ => True) s →
      RefsBalanced env host (fun _ _ => True) s := by
  intro h
  have hreach : RefReach twinEnv twinHost (fun _ _ => True) (loadedTwin "twin".toList) :=
    .step (.init refBoot_twin) trivial (refStep_twin (by decide +kernel))
  have hpath : resolveDllPath twinHost twinEnv.mainModulePath "twin".toList = some twinPath := by
    decide +kernel
  have hfirst : ∃ m ∈ (loadedTwin "twin".toList).loadedModules,
      m.hostPath = twinPath ∧ m.handle = 0x6f000000 := by
    decide +kernel
  have hsecond : (loadName "twin".toList (loadedTwin "twin".toList)).map (·.1) =
      some 0x6f001000 := by
    decide +kernel
  obtain ⟨m, hm, hfile, hhandle⟩ := hfirst
  obtain ⟨r, hr, hr1⟩ := Option.map_eq_some_iff.mp hsecond
  have hsame := ((h twinEnv twinHost _ hreach).sameHandle 1 _ r trivial hr twinPath hpath m hm
    hfile).1
  rw [hr1, hhandle] at hsame
  exact absurd hsame (by decide)

end Wie
