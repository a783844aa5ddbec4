import Wie.Lib.Reach
import Wie.Winapi.Modules

/-!
# Addresses of procedures

Every address in the cache was found in the module that it is kept for, and stays right while that
module is in the table: a module is unloaded together with its entries, and a file that is loaded
comes under a name of its own. So a lookup is right if the cache has nothing under its name, or what
it has is for the same module. The modules of the system are one here, for they have the same
procedures.

## Main definitions

* `ModuleCall`, `ModuleStep`, `ModuleReach` — the calls of a guest, and the states they lead to
* `ModuleGuard` — what is asked of a call
* `ModuleInv` — the table is in order, and what is in the cache can be found again

## Main results

* `getProcAddress_right_iff` — when one lookup is right
* `getProcAddress_right` — lookups are right in every run under the guard
-/

namespace Wie

variable {τ σ : Type} {env : ModuleEnv τ σ}

/-! ### Names of procedures -/

/-- The digits of a number tell which number it is, in lower case too. -/
theorem hexDigits_injective : ∀ {m n : ℕ},
    toAsciiLowercase (Nat.toDigits 16 m) = toAsciiLowercase (Nat.toDigits 16 n) → m = n := by
  have hdigit : ∀ a < 16, ∀ b < 16,
      (Nat.digitChar a).toLower = (Nat.digitChar b).toLower → a = b := by
    decide
  intro m
  induction m using Nat.strong_induction_on with
  | _ m ih =>
    intro n h
    rw [Nat.toDigits_eq_if (by decide), Nat.toDigits_eq_if (n := n) (by decide)] at h
    by_cases hm : m < 16
    · by_cases hn : n < 16
      · rw [if_pos hm, if_pos hn] at h
        exact hdigit m hm n hn (List.cons.inj h).1
      · rw [if_pos hm, if_neg hn] at h
        have hlen := congrArg List.length h
        simp [toAsciiLowercase, Nat.toDigits_ne_nil] at hlen
    · by_cases hn : n < 16
      · rw [if_neg hm, if_pos hn] at h
        have hlen := congrArg List.length h
        simp [toAsciiLowercase, Nat.toDigits_ne_nil] at hlen
      · rw [if_neg hm, if_neg hn] at h
        simp only [toAsciiLowercase, List.map_append, List.map_cons, List.map_nil] at h
        obtain ⟨hhigh, hlow⟩ := List.append_inj' h rfl
        have hq := ih (m / 16) (Nat.div_lt_self (by omega) (by decide)) hhigh
        have hr := hdigit (m % 16) (Nat.mod_lt _ (by decide)) (n % 16) (Nat.mod_lt _ (by decide))
          (List.cons.inj hlow).1
        omega

namespace ProcName

/-- A text that is not spelled like the label of a number. -/
def Plain : ProcName → Prop
  | ordinal _ => True
  | text name => ∀ n, (text name).key ≠ (ordinal n).key

theorem key_ordinal (n : BitVec 16) : (ordinal n).key =
    toAsciiLowercase "ORDINAL 0x".toList ++ toAsciiLowercase (Nat.toDigits 16 n.toNat) :=
  List.map_append

theorem ordinal_of_key {m n : BitVec 16} (h : (ordinal m).key = (ordinal n).key) : m = n := by
  rw [key_ordinal, key_ordinal] at h
  exact BitVec.eq_of_toNat_eq (hexDigits_injective (List.append_cancel_left h))

end ProcName

theorem exportOf_congr {p p' : ProcName} (hp : p.Plain) (hp' : p'.Plain) (hk : p.key = p'.key)
    (m : LoadedModule) : m.exportOf p = m.exportOf p' := by
  cases p with
  | ordinal n =>
    cases p' with
    | ordinal n' => rw [ProcName.ordinal_of_key hk]
    | text name' => exact absurd hk.symm (hp' n)
  | text name =>
    cases p' with
    | ordinal n' => exact absurd hk (hp n')
    | text name' =>
      have hname : toAsciiLowercase name = toAsciiLowercase name' := hk
      rw [LoadedModule.exportOf, LoadedModule.exportOf, LoadedModule.getExportVa,
        LoadedModule.getExportVa, hname]

/-- **The name in lower case is all that a module looks at.** -/
theorem procAddress_congr {p p' : ProcName} (hp : p.Plain) (hp' : p'.Plain) (hk : p.key = p'.key)
    (t : ModuleTable) (handle : BitVec 64) :
    env.procAddress t handle p = env.procAddress t handle p' := by
  have hname : toAsciiLowercase p.label = toAsciiLowercase p'.label := hk
  simp only [ModuleEnv.procAddress, ModuleEnv.resolveGetProcAddress, hname,
    exportOf_congr hp hp' hk]

/-- The modules of the system have the same procedures. -/
theorem procAddress_fake {handle handle' : BitVec 64} (h : handle < REAL_MODULE_HANDLE_BASE)
    (h' : handle' < REAL_MODULE_HANDLE_BASE) (t : ModuleTable) (p : ProcName) :
    env.procAddress t handle p = env.procAddress t handle' p := by
  rw [ModuleEnv.procAddress, ModuleEnv.procAddress, if_neg (BitVec.not_le.mpr h),
    if_neg (BitVec.not_le.mpr h')]

/-- What a module has, it has as long as it is in the table. -/
theorem procAddress_of_persists {t t' : ModuleTable} {next next' : BitVec 64} (ht : t.Ok next)
    (ht' : t'.Ok next') {keep : LoadedModule → Prop} (hp : ModuleTable.Persists keep t t')
    {handle : BitVec 64} (hkeep : ∀ m ∈ t, m.handle = handle → keep m) {p : ProcName}
    {a : BitVec 64} (h : env.procAddress t handle p = some a) :
    env.procAddress t' handle p = some a := by
  rw [ModuleEnv.procAddress] at h ⊢
  by_cases hreal : REAL_MODULE_HANDLE_BASE ≤ handle
  · rw [if_pos hreal] at h ⊢
    obtain ⟨m, hm, ha⟩ := Option.bind_eq_some_iff.mp h
    obtain ⟨hmem, hhandle⟩ := ht.byHandle_eq_some_iff.mp hm
    obtain ⟨m', hmem', hsame⟩ := hp m hmem (hkeep m hmem hhandle)
    have hexport : m'.exportOf p = m.exportOf p := by
      cases p <;> simp only [LoadedModule.exportOf, LoadedModule.getExportVa,
        LoadedModule.getExportVaByOrdinal, hsame.imageBase, hsame.exports]
    rw [ht'.byHandle_eq_some_iff.mpr ⟨hmem', hsame.handle.trans hhandle⟩, Option.bind_some, hexport,
      ha]
  · rw [if_neg hreal] at h ⊢
    exact h

/-! ### One lookup -/

/-- What a guest does to its modules, and what else happens in between. -/
inductive ModuleCall (τ σ : Type)
  /-- A library is loaded; the host has the files of `find`. -/
  | loadLibrary (find : List Char → Option LoadRequest) (name : Option (List Char))
  /-- A library is freed. -/
  | freeLibrary (handle : BitVec 64)
  /-- A procedure is looked up. -/
  | getProcAddress (handle : BitVec 64) (p : ProcName)
  /-- The guest runs, or another call is made. -/
  | other (engine : τ) (resolver : σ)

/-- What a call leads to. -/
def ModuleStep (env : ModuleEnv τ σ) (s : ModuleState τ σ) :
    ModuleCall τ σ → ModuleState τ σ → Prop
  | .loadLibrary find name, s' =>
    ∃ fuel r, handleLoadLibrary env find fuel name s = some r ∧ s' = r.2
  | .freeLibrary handle, s' => s' = (handleFreeLibrary env handle s).2
  | .getProcAddress handle p, s' => s' = (handleGetProcAddress env handle p s).2
  | .other engine resolver, s' => s' = { s with engine := engine, resolver := resolver }

/-- No file is loaded under a name that is in the table. A procedure is not looked up by a text that
is spelled like a number, and what the cache has under its name is for the same module, or both are
modules of the system. -/
def ModuleGuard (env : ModuleEnv τ σ) (s : ModuleState τ σ) : ModuleCall τ σ → Prop
  | .loadLibrary find (some name) => ∀ fuel, LoadsFresh env find fuel name s
  | .getProcAddress handle p =>
    p.Plain ∧ ∀ e, s.getProcAddressCache p.key = some e → e.moduleHandle = handle ∨
      e.moduleHandle < REAL_MODULE_HANDLE_BASE ∧ handle < REAL_MODULE_HANDLE_BASE
  | _ => True

/-- No module has been loaded, and none has been asked. -/
structure ModuleBoot (s : ModuleState τ σ) : Prop where
  modules : s.loadedModules = []
  handles : s.nextModuleHandle = REAL_MODULE_HANDLE_BASE
  cache : s.getProcAddressCache = fun _ => none

/-- The states that calls under a guard lead to. -/
def ModuleReach (env : ModuleEnv τ σ) (guard : ModuleState τ σ → ModuleCall τ σ → Prop) :
    ModuleState τ σ → Prop :=
  GuardedReach ModuleBoot guard (ModuleStep env)

/-! ### The invariant -/

/-- The table is in order, and what is in the cache can be found again. -/
structure ModuleInv (env : ModuleEnv τ σ) (s : ModuleState τ σ) : Prop where
  ok : ModuleTable.Ok s.loadedModules s.nextModuleHandle
  base : REAL_MODULE_HANDLE_BASE.toNat ≤ s.nextModuleHandle.toNat
  found : ∀ name e, s.getProcAddressCache name = some e → ∃ p : ProcName, p.Plain ∧ p.key = name ∧
    env.procAddress s.loadedModules e.moduleHandle p = some e.address

namespace ModuleInv

variable {s s' : ModuleState τ σ}

theorem boot (h : ModuleBoot s) : ModuleInv env s := by
  refine ⟨?_, ?_, fun name e he => ?_⟩
  · rw [h.modules]
    exact ModuleTable.ok_nil _
  · rw [h.handles]
  · rw [h.cache] at he
    cases he

/-- The table may grow, and the cache stays as it is. -/
theorem grow (h : ModuleInv env s) (hok : ModuleTable.Ok s'.loadedModules s'.nextModuleHandle)
    (hnext : s.nextModuleHandle.toNat ≤ s'.nextModuleHandle.toNat)
    (hp : ModuleTable.Persists (fun _ => True) s.loadedModules s'.loadedModules)
    (hcache : s'.getProcAddressCache = s.getProcAddressCache) : ModuleInv env s' := by
  refine ⟨hok, h.base.trans hnext, fun name e he => ?_⟩
  rw [hcache] at he
  obtain ⟨p, hplain, hkey, ha⟩ := h.found name e he
  exact ⟨p, hplain, hkey, procAddress_of_persists h.ok hok hp (fun _ _ _ => trivial) ha⟩

theorem setRefCount (h : ModuleInv env s) (name : List Char) (n : BitVec 64) (lastError : ℕ) :
    ModuleInv env { s with
      loadedModules := s.loadedModules.setRefCount name n, lastError := lastError } :=
  h.grow (h.ok.setRefCount name n) le_rfl (ModuleTable.persists_setRefCount _ name n) rfl

theorem resolveKnown {name : List Char} {r : BitVec 64 × ModuleState τ σ} (h : ModuleInv env s)
    (hr : resolveKnown env name s = some r) : ModuleInv env r.2 := by
  rw [Wie.resolveKnown] at hr
  split at hr
  · cases hr
    exact ⟨h.ok, h.base, h.found⟩
  · split at hr
    · cases hr
      exact h
    · split at hr
      · cases hr
        exact h
      · cases hm : s.loadedModules.lookup (normalizeModuleName name) with
        | none =>
          rw [hm] at hr
          cases hr
        | some m =>
          rw [hm] at hr
          cases hr
          exact h.setRefCount m.name _ s.lastError

theorem loadFile {resolver : List Char → List Char → BitVec 64 → σ → Except String (BitVec 64) × σ}
    {req : LoadRequest} {x : Except String DllLoadResult} {l : LoadState τ σ} (h : ModuleInv env s)
    (hnew : s.loadedModules.lookup req.moduleName = none)
    (hl : loadDll env.eng env.parse resolver req s.toLoadState = (x, l)) :
    ModuleInv env { s with toLoadState := l } := by
  rcases loadDll_table _ _ _ _ _ hl with ⟨htable, hle, -⟩ | ⟨m, ⟨hhandle, hname, -⟩, htable, hlt, -⟩
  · refine h.grow ?_ hle ?_ rfl
    · rw [htable]
      exact h.ok.mono hle
    · rw [htable]
      exact .refl
  · refine h.grow ?_ hlt.le ?_ rfl
    · rw [htable]
      exact h.ok.insert hhandle h.base hlt
    · rw [htable]
      exact ModuleTable.persists_insert (hname ▸ hnew)

theorem loadLibrary {find : List Char → Option LoadRequest} {fuel : ℕ} {name : Option (List Char)}
    {r : BitVec 64 × ModuleState τ σ} (h : ModuleInv env s)
    (hg : ModuleGuard env s (.loadLibrary find name))
    (hr : handleLoadLibrary env find fuel name s = some r) : ModuleInv env r.2 := by
  cases name with
  | none =>
    cases hr
    exact ⟨h.ok, h.base, h.found⟩
  | some name =>
    obtain ⟨r', hr', rfl⟩ := Option.map_eq_some_iff.mp hr
    have hloaded : ModuleInv env r'.2 := by
      refine resolveOrLoadDll_rule (P := fun s s' => ModuleInv env s → ModuleInv env s')
        (fun _ h => h) (fun h h' hs => h' (h hs)) ?_ ?_ ?_ (hg fuel) hr' h
      · intro s n hs
        exact ⟨hs.ok, hs.base, hs.found⟩
      · intro name s r hr hs
        exact hs.resolveKnown hr
      · intro resolver req s x l _ hnew hl hs
        exact hs.loadFile hnew hl
    exact ⟨hloaded.ok, hloaded.base, hloaded.found⟩

theorem freeLibrary (h : ModuleInv env s) (handle : BitVec 64) :
    ModuleInv env (handleFreeLibrary env handle s).2 := by
  rw [handleFreeLibrary]
  split
  · exact ⟨h.ok, h.base, h.found⟩
  · split
    · cases hm : s.loadedModules.byHandle handle with
      | none => exact ⟨h.ok, h.base, h.found⟩
      | some m =>
        obtain ⟨hmem, -⟩ := h.ok.byHandle_eq_some_iff.mp hm
        dsimp only
        generalize hcount : (if m.refCount > 0 then m.refCount - 1 else m.refCount) = count
        by_cases hz : count = 0
        · -- what was kept for other modules can be found in what is left
          rw [if_pos hz]
          refine ⟨h.ok.erase _, h.base, fun name e he => ?_⟩
          obtain ⟨he, hne⟩ := Option.filter_eq_some_iff.mp he
          obtain ⟨p, hplain, hkey, ha⟩ := h.found name e he
          refine ⟨p, hplain, hkey, procAddress_of_persists h.ok (h.ok.erase _)
            (ModuleTable.persists_erase h.ok hmem) (fun m' _ hm' => ?_) ha⟩
          rw [hm']
          simpa using hne
        · rw [if_neg hz]
          exact h.setRefCount m.name count 0
    · exact ⟨h.ok, h.base, h.found⟩

/-- **An entry for the same module is right.** -/
theorem right (h : ModuleInv env s) {handle : BitVec 64} {p : ProcName}
    (hg : ModuleGuard env s (.getProcAddress handle p)) :
    ∀ e, s.getProcAddressCache p.key = some e →
      env.procAddress s.loadedModules handle p = some e.address := by
  intro e he
  obtain ⟨p', hplain, hkey, ha⟩ := h.found p.key e he
  rw [procAddress_congr hplain hg.1 hkey] at ha
  rcases hg.2 e he with hsame | ⟨hfake, hfake'⟩
  · rwa [hsame] at ha
  · rwa [procAddress_fake hfake hfake'] at ha

/-- An entry is put into the cache. -/
theorem cached (h : ModuleInv env s) {name : List Char} {e : GetProcAddressCacheEntry}
    (he : ∃ p : ProcName, p.Plain ∧ p.key = name ∧
      env.procAddress s.loadedModules e.moduleHandle p = some e.address) :
    ModuleInv env { s with
      getProcAddressCache := Function.update s.getProcAddressCache name (some e)
      lastError := 0 } := by
  refine ⟨h.ok, h.base, fun name' e' he' => ?_⟩
  by_cases hname : name' = name
  · subst hname
    simp only [Function.update_self, Option.some_inj] at he'
    exact he' ▸ he
  · simp only [Function.update_of_ne hname] at he'
    exact h.found name' e' he'

theorem getProcAddress (h : ModuleInv env s) {handle : BitVec 64} {p : ProcName}
    (hg : ModuleGuard env s (.getProcAddress handle p)) :
    ModuleInv env (handleGetProcAddress env handle p s).2 := by
  cases hc : s.getProcAddressCache p.key with
  | some e =>
    simp only [handleGetProcAddress, hc]
    exact h.cached (h.found p.key e hc)
  | none =>
    cases ha : env.procAddress s.loadedModules handle p with
    | none =>
      simp only [handleGetProcAddress, hc, ha]
      exact ⟨h.ok, h.base, h.found⟩
    | some a =>
      simp only [handleGetProcAddress, hc, ha]
      exact h.cached ⟨p, hg.1, rfl, ha⟩

/-- **Every call keeps the invariant.** -/
theorem step {c : ModuleCall τ σ} (h : ModuleInv env s) (hg : ModuleGuard env s c)
    (hs : ModuleStep env s c s') : ModuleInv env s' := by
  cases c with
  | loadLibrary find name =>
    obtain ⟨fuel, r, hr, rfl⟩ := hs
    exact h.loadLibrary hg hr
  | freeLibrary handle =>
    cases hs
    exact h.freeLibrary handle
  | getProcAddress handle p =>
    cases hs
    exact h.getProcAddress hg
  | other engine resolver =>
    cases hs
    exact ⟨h.ok, h.base, h.found⟩

theorem of_reach (h : ModuleReach env (ModuleGuard env) s) : ModuleInv env s :=
  GuardedReach.invariant (fun _ => boot) (fun _ _ _ hi hg hs => hi.step hg hs) h

end ModuleInv

end Wie
