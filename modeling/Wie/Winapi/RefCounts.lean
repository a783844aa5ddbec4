import Wie.Winapi.DllSearch

/-!
# Counts of modules

A module counts the calls that have loaded it and the modules that need it. The count goes up when a
name is looked up that stands for the module, so it is right as long as every module is looked up
under the name that it is entered under. A load is told of here by what it does to the counts: one
reference more for the module that it returns, and one for each module that is needed by one that
the load has entered.

## Main definitions

* `refsOf`, `dependents` — the count of a name, and how many modules need it
* `LoadGuard` — what is asked of a load
* `LoadOutcome` — what a load has done to the counts

## Main results

* `resolveOrLoadDll_counts` — one load
* `freed_counts` — one free
-/

namespace Wie

variable {τ σ : Type}

/-! ### Counts -/

/-- The count of the module with this name. -/
def refsOf (t : ModuleTable) (name : List Char) : ℕ :=
  (t.lookup name).elim 0 fun m => m.refCount.toNat

/-- How many modules need the one with this name. -/
def dependents (env : ModuleEnv τ σ) (host : DllHost) (t : ModuleTable) (name : List Char) : ℕ :=
  t.countP fun m => (env.needs host m).contains name

section Tables

variable {env : ModuleEnv τ σ} {host : DllHost} {t : ModuleTable} {m : LoadedModule}
  {name n : List Char} {next : BitVec 64}

theorem lookup_insert (t : ModuleTable) (m : LoadedModule) (n : List Char) :
    (t.insert m).lookup n = if n = m.name then some m else t.lookup n := by
  rw [ModuleTable.lookup, ModuleTable.insert, List.find?_cons]
  by_cases h : n = m.name
  · simp [h]
  · rw [if_neg h, decide_eq_false (Ne.symm h)]
    dsimp only
    rw [List.find?_filter, ModuleTable.lookup]
    congr 1
    funext m'
    by_cases hn : m'.name = n
    · simp [hn, h]
    · simp [hn]

theorem refsOf_insert (t : ModuleTable) (m : LoadedModule) (n : List Char) :
    refsOf (t.insert m) n = if n = m.name then m.refCount.toNat else refsOf t n := by
  rw [refsOf, lookup_insert, refsOf]
  split <;> rfl

theorem refsOf_erase (t : ModuleTable) (name n : List Char) :
    refsOf (t.erase name) n = if n = name then 0 else refsOf t n := by
  have hlookup : (t.erase name).lookup n = if n = name then none else t.lookup n := by
    rw [ModuleTable.lookup, ModuleTable.erase, List.find?_filter]
    split
    · rename_i h
      rw [List.find?_eq_none]
      intro m' _
      simp [h]
    · rename_i h
      rw [ModuleTable.lookup]
      congr 1
      funext m'
      by_cases hn : m'.name = n
      · simp [hn, h]
      · simp [hn]
  rw [refsOf, hlookup, refsOf]
  split <;> rfl

theorem refsOf_setRefCount (h : t.lookup name = some m) (k : BitVec 64) (n : List Char) :
    refsOf (t.setRefCount name k) n = if n = name then k.toNat else refsOf t n := by
  have hlookup : (t.setRefCount name k).lookup n =
      (t.lookup n).map fun m => if m.name = name then { m with refCount := k } else m := by
    rw [ModuleTable.lookup, ModuleTable.setRefCount, List.find?_map, ModuleTable.lookup]
    congr 2
    funext m'
    show decide ((if m'.name = name then { m' with refCount := k } else m').name = n) = _
    split <;> rfl
  rw [refsOf, hlookup, refsOf]
  by_cases hn : n = name
  · rw [if_pos hn, hn, h, Option.map_some, if_pos (ModuleTable.lookup_eq_some h).2]
    rfl
  · rw [if_neg hn]
    cases hl : t.lookup n with
    | none => rfl
    | some m' =>
      have hname : m'.name ≠ name := (ModuleTable.lookup_eq_some hl).2 ▸ hn
      rw [Option.map_some, if_neg hname]

theorem refsOf_pos_iff (hpos : ∀ m ∈ t, 0 < m.refCount.toNat) :
    0 < refsOf t n ↔ ∃ m ∈ t, m.name = n := by
  rw [refsOf]
  cases h : t.lookup n with
  | none =>
    refine iff_of_false (lt_irrefl 0) ?_
    rintro ⟨m, hm, hname⟩
    exact ModuleTable.lookup_eq_none.mp h m hm hname
  | some m =>
    obtain ⟨hm, hname⟩ := ModuleTable.lookup_eq_some h
    exact iff_of_true (hpos m hm) ⟨m, hm, hname⟩

/-- A module is entered under a new name. -/
theorem dependents_insert (h : t.lookup m.name = none) (n : List Char) :
    dependents env host (t.insert m) n =
      dependents env host t n + if n ∈ env.needs host m then 1 else 0 := by
  have hrest : t.filter (·.name ≠ m.name) = t :=
    List.filter_eq_self.mpr fun m' hm' => by simpa using ModuleTable.lookup_eq_none.mp h m' hm'
  rw [dependents, ModuleTable.insert, hrest, List.countP_cons, dependents]
  simp only [List.contains_iff_mem]

theorem dependents_setRefCount (t : ModuleTable) (name n : List Char) (k : BitVec 64) :
    dependents env host (t.setRefCount name k) n = dependents env host t n := by
  rw [dependents, ModuleTable.setRefCount, List.countP_map, dependents]
  refine List.countP_congr fun m _ => ?_
  show (env.needs host (if m.name = name then { m with refCount := k } else m)).contains n = _ ↔ _
  split <;> rfl

/-- A module goes that needs no others. -/
theorem dependents_erase (h : ∀ m ∈ t, m.name = name → env.needs host m = []) (n : List Char) :
    dependents env host (t.erase name) n = dependents env host t n := by
  rw [dependents, ModuleTable.erase, List.countP_filter, dependents]
  refine List.countP_congr fun m hm => ?_
  by_cases hname : m.name = name
  · simp [h m hm hname]
  · simp [hname]

end Tables

/-! ### What is asked of a load -/

section Load

variable (env : ModuleEnv τ σ) (host : DllHost)

/-- If the name is of a file, and the module of the file, or one that has the name, is in the table,
then the module is entered under this name. -/
def Spelled (t : ModuleTable) (name : List Char) : Prop :=
  ∀ path, resolveDllPath host env.mainModulePath name = some path →
    ∀ m ∈ t, m.name = fileModuleName path ∨ m.name = normalizeModuleName name →
      env.NeedsFile name ∧ normalizeModuleName name = fileModuleName path

/-- The name can be had: it is known, or there is a file that can be read and parsed, and a handle
for it. -/
def Had (name : List Char) (s : ModuleState τ σ) : Prop :=
  trimMatches (· = QUOTE) (trim name) ≠ [] ∧ (env.isMainModuleName name → env.imageBase ≠ 0) ∧
    (resolveKnown env name s = none → env.importResolver.isSome ∧
      ∃ req p, host.find env.mainModulePath name = some req ∧ prepare env.parse req = .ok p ∧
        s.nextModuleHandle.toNat + 0x1000 < 2 ^ 64)

/-- What is asked of the load of a name. It is spelled as it is entered, its count is not at its
greatest. If a file is loaded, then no stage fails after the first, and what the file needs can be
had, under one name for each module. -/
def LoadGuard : ℕ → List Char → ModuleState τ σ → Prop
  | 0, _, _ => True
  | fuel + 1, name, s =>
    Spelled env host s.loadedModules name ∧
    (∀ m, s.loadedModules.lookup (normalizeModuleName name) = some m →
      m.refCount.toNat + 1 < 2 ^ 64) ∧
    (resolveKnown env name s = none → ∀ resolver, env.importResolver = some resolver →
      ∀ req, host.find env.mainModulePath name = some req →
        ∀ p, prepare env.parse req = .ok p → s.nextModuleHandle.toNat + 0x1000 < 2 ^ 64 →
          StagesSucceed env.eng resolver req s.toLoadState p.1 p.2.1 p.2.2 ∧
          (env.realNames host (fileDependencies env.parse req.file)).Nodup ∧
          ∀ r l, loadDll env.eng env.parse resolver req s.toLoadState = (.ok r, l) →
            DepsFresh (resolveOrLoadDll env (host.find env.mainModulePath) fuel)
              (fun dep s => Had env host dep s ∧ LoadGuard fuel dep s)
              (fileDependencies env.parse req.file) { s with toLoadState := l })

/-! ### What a load does to the counts -/

/-- The table is in order: every module is there under the name of its file, and is in use. -/
structure RefOk (s : ModuleState τ σ) : Prop where
  ok : ModuleTable.Ok s.loadedModules s.nextModuleHandle
  base : REAL_MODULE_HANDLE_BASE.toNat ≤ s.nextModuleHandle.toNat
  pos : ∀ m ∈ s.loadedModules, 0 < m.refCount.toNat
  named : ∀ m ∈ s.loadedModules, m.name = fileModuleName m.hostPath

/-- Modules stay, and as many references are new as there are modules that need one, and names of
modules in `names`. -/
structure Gained (s s' : ModuleState τ σ) (names : List (List Char)) : Prop where
  ok : RefOk s'
  stays : ModuleTable.Persists (fun _ => True) s.loadedModules s'.loadedModules
  counts : ∀ n, refsOf s'.loadedModules n + dependents env host s.loadedModules n =
    refsOf s.loadedModules n + dependents env host s'.loadedModules n + names.count n

variable {env host} {s s' s'' : ModuleState τ σ} {names names' : List (List Char)}

theorem Gained.refl (h : RefOk s) : Gained env host s s [] :=
  ⟨h, .refl, fun _ => rfl⟩

theorem Gained.trans (h : Gained env host s s' names) (h' : Gained env host s' s'' names') :
    Gained env host s s'' (names ++ names') where
  ok := h'.ok
  stays := h.stays.trans h'.stays
  counts n := by
    have h1 := h.counts n
    have h2 := h'.counts n
    rw [List.count_append]
    omega

/-- Where a name is known without a file. -/
theorem resolveKnown_cases {name : List Char} {r : BitVec 64 × ModuleState τ σ}
    (h : resolveKnown env name s = some r) :
    (trimMatches (· = QUOTE) (trim name) = [] ∧ r.1 = 0 ∧
        r.2 = { s with lastError := ERROR_MOD_NOT_FOUND }) ∨
      (¬env.NeedsFile name ∧ r.2 = s ∧
        (env.isMainModuleName name = true ∧ r.1 = env.imageBase ∨ r.1 ≠ 0)) ∨
      (env.NeedsFile name ∧ ∃ m, s.loadedModules.lookup (normalizeModuleName name) = some m ∧
        r = (m.handle, { s with
          loadedModules := s.loadedModules.setRefCount m.name
            (.ofNat 64 (satAdd m.refCount.toNat 1)) })) := by
  rw [resolveKnown] at h
  split at h
  · rename_i hempty
    cases h
    exact .inl ⟨hempty, rfl, rfl⟩
  · split at h
    · rename_i hmain
      cases h
      have hnone : ¬env.NeedsFile name := by
        intro hf
        rw [hf.1] at hmain
        cases hmain
      exact .inr (.inl ⟨hnone, rfl, .inl ⟨hmain, rfl⟩⟩)
    · rename_i hmain
      split at h
      · rename_i hfake
        cases h
        exact .inr (.inl ⟨fun hf => hfake hf.2, rfl, .inr hfake⟩)
      · rename_i hfake
        refine .inr (.inr ⟨⟨Bool.not_eq_true _ ▸ hmain, not_not.mp hfake⟩, ?_⟩)
        split at h
        · rename_i m hm
          cases h
          exact ⟨m, hm, rfl⟩
        · cases h

theorem resolveKnown_eq_none {name : List Char} (h : resolveKnown env name s = none) :
    env.NeedsFile name ∧ s.loadedModules.lookup (normalizeModuleName name) = none := by
  rw [resolveKnown] at h
  split at h
  · cases h
  · split at h
    · cases h
    · rename_i hmain
      split at h
      · cases h
      · rename_i hfake
        refine ⟨⟨Bool.not_eq_true _ ▸ hmain, not_not.mp hfake⟩, ?_⟩
        split at h
        · cases h
        · assumption

theorem realNames_cons (dep : List Char) (rest : List (List Char)) :
    env.realNames host (dep :: rest) = env.realNames host [dep] ++ env.realNames host rest := by
  rw [ModuleEnv.realNames, ModuleEnv.realNames, ModuleEnv.realNames, ← List.map_append,
    ← List.filter_append]
  rfl

theorem realNames_of_needsFile {name : List Char} (h : env.NeedsFile name) :
    env.realNames host [name] = [env.standsFor host name] := by
  simp [ModuleEnv.realNames, h]

theorem realNames_of_not {name : List Char} (h : ¬env.NeedsFile name) :
    env.realNames host [name] = [] := by
  simp [ModuleEnv.realNames, h]

theorem RefOk.congr (h : RefOk s) (htable : s'.loadedModules = s.loadedModules)
    (hnext : s'.nextModuleHandle = s.nextModuleHandle) : RefOk s' := by
  refine ⟨?_, hnext ▸ h.base, ?_, ?_⟩
  · rw [htable, hnext]
    exact h.ok
  · rw [htable]
    exact h.pos
  · rw [htable]
    exact h.named

theorem RefOk.lastError (h : RefOk s) (e : ℕ) : RefOk { s with lastError := e } := h.congr rfl rfl

theorem RefOk.setRefCount (h : RefOk s) {name : List Char} {k : BitVec 64} (hk : 0 < k.toNat)
    (htable : s'.loadedModules = s.loadedModules.setRefCount name k)
    (hnext : s'.nextModuleHandle = s.nextModuleHandle) : RefOk s' := by
  refine ⟨?_, hnext ▸ h.base, ?_, ?_⟩
  · rw [htable, hnext]
    exact h.ok.setRefCount name k
  · intro m' hm'
    rw [htable] at hm'
    obtain ⟨m, hm, rfl⟩ := ModuleTable.mem_setRefCount.mp hm'
    split
    · exact hk
    · exact h.pos m hm
  · intro m' hm'
    rw [htable] at hm'
    obtain ⟨m, hm, rfl⟩ := ModuleTable.mem_setRefCount.mp hm'
    split <;> exact h.named m hm

theorem RefOk.erase (h : RefOk s) {name : List Char}
    (htable : s'.loadedModules = s.loadedModules.erase name)
    (hnext : s'.nextModuleHandle = s.nextModuleHandle) : RefOk s' := by
  refine ⟨?_, hnext ▸ h.base, ?_, ?_⟩
  · rw [htable, hnext]
    exact h.ok.erase name
  · intro m hm
    rw [htable] at hm
    exact h.pos m (ModuleTable.mem_erase.mp hm).1
  · intro m hm
    rw [htable] at hm
    exact h.named m (ModuleTable.mem_erase.mp hm).1

/-- A module that is in the table gets one more reference. -/
theorem gained_setRefCount (h : RefOk s) {m : LoadedModule} {name : List Char}
    (hm : s.loadedModules.lookup name = some m) (hlt : m.refCount.toNat + 1 < 2 ^ 64) :
    Gained env host s { s with
      loadedModules := s.loadedModules.setRefCount m.name
        (.ofNat 64 (satAdd m.refCount.toNat 1)) } [name] := by
  obtain ⟨hmem, hname⟩ := ModuleTable.lookup_eq_some hm
  have hcount : (BitVec.ofNat 64 (satAdd m.refCount.toNat 1)).toNat = m.refCount.toNat + 1 := by
    rw [satAdd_of_lt hlt, BitVec.toNat_ofNat, Nat.mod_eq_of_lt hlt]
  refine ⟨h.setRefCount (hcount ▸ Nat.succ_pos _) rfl rfl,
    ModuleTable.persists_setRefCount _ _ _, ?_⟩
  · intro n
    rw [hname]
    show refsOf (s.loadedModules.setRefCount name _) n + _ = _ +
      dependents env host (s.loadedModules.setRefCount name _) n + _
    rw [refsOf_setRefCount hm, dependents_setRefCount, hcount, List.count_singleton]
    by_cases hn : n = name
    · have hrefs : refsOf s.loadedModules n = m.refCount.toNat := by
        rw [refsOf, hn, hm]
        rfl
      rw [if_pos hn, hrefs, hn]
      simp
      omega
    · rw [if_neg hn, beq_false_of_ne (Ne.symm hn)]
      rfl

/-- A file has been loaded; what it needs is still to come. -/
theorem refOk_insert (h : RefOk s) {m : LoadedModule} {l : LoadState τ σ}
    (hhandle : m.handle = s.nextModuleHandle) (hcount : m.refCount = 1)
    (hnamed : m.name = fileModuleName m.hostPath)
    (htable : l.loadedModules = s.loadedModules.insert m)
    (hlt : s.nextModuleHandle.toNat < l.nextModuleHandle.toNat) :
    RefOk { s with toLoadState := l } := by
  have hmem : ∀ m' ∈ ({ s with toLoadState := l } : ModuleState τ σ).loadedModules,
      m' = m ∨ m' ∈ s.loadedModules := by
    intro m' hm'
    have hm' : m' ∈ s.loadedModules.insert m := htable ▸ hm'
    exact (ModuleTable.mem_insert.mp hm').imp id And.left
  refine ⟨?_, h.base.trans hlt.le, ?_, ?_⟩
  · show ModuleTable.Ok l.loadedModules l.nextModuleHandle
    rw [htable]
    exact h.ok.insert hhandle h.base hlt
  · intro m' hm'
    rcases hmem m' hm' with rfl | hm'
    · rw [hcount]
      decide
    · exact h.pos m' hm'
  · intro m' hm'
    rcases hmem m' hm' with rfl | hm'
    · exact hnamed
    · exact h.named m' hm'

/-- **A file and what it needs**: each module that it needs has one reference more, and one more
module that needs it. -/
theorem gained_insert {m : LoadedModule} {l : LoadState τ σ}
    (hnew : s.loadedModules.lookup m.name = none) (hcount : m.refCount = 1)
    (htable : l.loadedModules = s.loadedModules.insert m) (hnodup : (env.needs host m).Nodup)
    (hdeps : Gained env host { s with toLoadState := l } s' (env.needs host m)) :
    Gained env host s s' [m.name] := by
  have hinsert : ({ s with toLoadState := l } : ModuleState τ σ).loadedModules =
    s.loadedModules.insert m := htable
  refine ⟨hdeps.ok, ?_, fun n => ?_⟩
  · refine ModuleTable.Persists.trans (ModuleTable.persists_insert hnew) ?_
    have hstays := hdeps.stays
    rwa [hinsert] at hstays
  · have hn := hdeps.counts n
    have hrefs : refsOf s.loadedModules m.name = 0 := by
      rw [refsOf, hnew]
      rfl
    rw [hinsert, refsOf_insert, dependents_insert hnew, hnodup.count] at hn
    rw [List.count_singleton]
    by_cases hname : n = m.name
    · rw [if_pos hname, hcount] at hn
      rw [hname] at hn ⊢
      simp only [hrefs, beq_self_eq_true, if_true] at hn ⊢
      have : (1 : BitVec 64).toNat = 1 := rfl
      omega
    · rw [if_neg hname] at hn
      rw [beq_false_of_ne (Ne.symm hname)]
      simp only [Bool.false_eq_true, if_false]
      omega

variable (env host) in
/-- What a load has done: nothing, or the module that the name stands for is there with one
reference more. -/
structure LoadOutcome (name : List Char) (s : ModuleState τ σ) (r : BitVec 64 × ModuleState τ σ) :
    Prop where
  failed : r.1 = 0 → ∃ e, r.2 = { s with lastError := e }
  had : Had env host name s → r.1 ≠ 0
  gained : r.1 ≠ 0 → Gained env host s r.2 (env.realNames host [name])
  found : r.1 ≠ 0 → env.NeedsFile name →
    ∃ m ∈ r.2.loadedModules, m.handle = r.1 ∧ m.name = env.standsFor host name

/-- The loop over what a file needs. -/
theorem loadDependencies_gained
    {load : List Char → ModuleState τ σ → Option (BitVec 64 × ModuleState τ σ)}
    {guard : List Char → ModuleState τ σ → Prop}
    (hload : ∀ dep s r, guard dep s → RefOk s → load dep s = some r → LoadOutcome env host dep s r)
    {handle : BitVec 64} (deps : List (List Char)) {s : ModuleState τ σ}
    {r : BitVec 64 × ModuleState τ σ}
    (hguard : DepsFresh load (fun dep s => Had env host dep s ∧ guard dep s) deps s) (hok : RefOk s)
    (h : loadDependencies load handle deps s = some r) :
    r.1 = handle ∧ Gained env host s r.2 (env.realNames host deps) := by
  induction deps generalizing s with
  | nil =>
    cases h
    exact ⟨rfl, .refl hok⟩
  | cons dep rest ih =>
    obtain ⟨⟨hhad, hdep⟩, hrest⟩ := hguard
    rw [loadDependencies] at h
    cases hfirst : load dep s with
    | none =>
      rw [hfirst] at h
      cases h
    | some r' =>
      have houtcome := hload dep s r' hdep hok hfirst
      have hne := houtcome.had hhad
      rw [hfirst] at h
      simp only [hne, if_false] at h
      have hgained := houtcome.gained hne
      obtain ⟨hhandle, hgained'⟩ := ih (hrest r' hfirst hne) hgained.ok h
      rw [realNames_cons]
      exact ⟨hhandle, hgained.trans hgained'⟩

theorem RefOk.handle_ne_zero (h : RefOk s) {m : LoadedModule} (hm : m ∈ s.loadedModules) :
    m.handle ≠ 0 := by
  intro hz
  have hbase := (h.ok.given m hm).1
  rw [hz] at hbase
  exact absurd hbase (by decide)

/-- A module that is found is the one that the name stands for. -/
theorem standsFor_of_lookup {name : List Char} {m : LoadedModule}
    (hs : Spelled env host s.loadedModules name)
    (hm : s.loadedModules.lookup (normalizeModuleName name) = some m) :
    env.standsFor host name = normalizeModuleName name := by
  obtain ⟨hmem, hname⟩ := ModuleTable.lookup_eq_some hm
  rw [ModuleEnv.standsFor]
  cases hpath : resolveDllPath host env.mainModulePath name with
  | none => rfl
  | some path => exact (hs path hpath m hmem (.inr hname)).2.symm

/-- A name that needs no file. -/
theorem loadOutcome_known {name : List Char} {r : BitVec 64 × ModuleState τ σ} (hok : RefOk s)
    (hs : Spelled env host s.loadedModules name)
    (hlt : ∀ m, s.loadedModules.lookup (normalizeModuleName name) = some m →
      m.refCount.toNat + 1 < 2 ^ 64)
    (h : resolveKnown env name s = some r) : LoadOutcome env host name s r := by
  rcases resolveKnown_cases h with ⟨hempty, hzero, hstate⟩ | ⟨hnone, hstate, hr⟩ |
    ⟨hneeds, m, hm, rfl⟩
  · exact ⟨fun _ => ⟨_, hstate⟩, fun hhad => absurd hempty hhad.1, fun hne => absurd hzero hne,
      fun hne => absurd hzero hne⟩
  · refine ⟨fun _ => ⟨s.lastError, hstate⟩, fun hhad => ?_, fun _ => ?_,
      fun _ hneeds => absurd hneeds hnone⟩
    · rcases hr with ⟨hmain, hbase⟩ | hne
      · rw [hbase]
        exact hhad.2.1 hmain
      · exact hne
    · rw [realNames_of_not hnone, hstate]
      exact .refl hok
  · obtain ⟨hmem, hname⟩ := ModuleTable.lookup_eq_some hm
    have hne := hok.handle_ne_zero hmem
    have hstands := standsFor_of_lookup hs hm
    refine ⟨fun hz => absurd hz hne, fun _ => hne, fun _ => ?_, fun _ _ => ?_⟩
    · rw [realNames_of_needsFile hneeds, hstands]
      exact gained_setRefCount hok hm (hlt m hm)
    · refine ⟨_, ModuleTable.mem_setRefCount.mpr ⟨m, hmem, rfl⟩, ?_, ?_⟩
      · rw [if_pos rfl]
      · rw [if_pos rfl, hstands]
        exact hname

/-- A file that cannot be loaded has changed nothing. -/
theorem eq_of_loadDll_error
    {resolver : List Char → List Char → BitVec 64 → σ → Except String (BitVec 64) × σ}
    {req : LoadRequest} {e : String} {l : LoadState τ σ}
    (hwhole : ∀ p, prepare env.parse req = .ok p → s.nextModuleHandle.toNat + 0x1000 < 2 ^ 64 →
      StagesSucceed env.eng resolver req s.toLoadState p.1 p.2.1 p.2.2)
    (h : loadDll env.eng env.parse resolver req s.toLoadState = (.error e, l)) :
    l = s.toLoadState ∧ ∀ p, prepare env.parse req = .ok p →
      2 ^ 64 ≤ s.nextModuleHandle.toNat + 0x1000 := by
  cases hp : prepare env.parse req with
  | error e' =>
    rw [loadDll_of_error hp] at h
    cases h
    exact ⟨rfl, fun p hp' => by cases hp'⟩
  | ok p =>
    rcases Nat.lt_or_ge (s.nextModuleHandle.toNat + 0x1000) (2 ^ 64) with ho | ho
    · obtain ⟨r, l', hok⟩ := loadStages_eq_ok_iff.mpr (hwhole p hp ho)
      rw [loadDll_of_handle hp ho, hok] at h
      cases h
    · rw [loadDll_of_overflow hp ho] at h
      cases h
      exact ⟨rfl, fun _ _ => ho⟩

/-- What a file that has been loaded needs. -/
theorem dependencies_of_loadDll
    {resolver : List Char → List Char → BitVec 64 → σ → Except String (BitVec 64) × σ}
    {req : LoadRequest} {r : DllLoadResult} {l : LoadState τ σ}
    (h : loadDll env.eng env.parse resolver req s.toLoadState = (.ok r, l)) :
    r.module.hostPath = req.hostPath ∧ r.dependencies = fileDependencies env.parse req.file := by
  obtain ⟨p, imports, handle, imageBase, exports, hp, himports, rfl⟩ := loadDll_result h
  obtain ⟨hfile, hparse, -⟩ := prepare_eq_ok hp
  refine ⟨rfl, ?_⟩
  simp only [fileDependencies, hfile, hparse, himports]

/-- A file that has been loaded, and then what it needs. -/
theorem loadOutcome_file {fuel : ℕ} {name : List Char} {path : List UInt8}
    {resolver : List Char → List Char → BitVec 64 → σ → Except String (BitVec 64) × σ}
    {d : DllLoadResult} {l : LoadState τ σ} {r : BitVec 64 × ModuleState τ σ}
    (ih : ∀ dep s r, LoadGuard env host fuel dep s → RefOk s →
      resolveOrLoadDll env (host.find env.mainModulePath) fuel dep s = some r →
        LoadOutcome env host dep s r)
    (hok : RefOk s) (hs : Spelled env host s.loadedModules name) (hneeds : env.NeedsFile name)
    (hlookup : s.loadedModules.lookup (normalizeModuleName name) = none)
    (hpath : resolveDllPath host env.mainModulePath name = some path)
    (hload : loadDll env.eng env.parse resolver (host.request env.mainModulePath name path)
      s.toLoadState = (.ok d, l))
    (hnodup : (env.realNames host (fileDependencies env.parse (host.read path))).Nodup)
    (hfresh : DepsFresh (resolveOrLoadDll env (host.find env.mainModulePath) fuel)
      (fun dep s => Had env host dep s ∧ LoadGuard env host fuel dep s)
      (fileDependencies env.parse (host.read path)) { s with toLoadState := l })
    (h : loadDependencies (resolveOrLoadDll env (host.find env.mainModulePath) fuel)
      d.module.handle d.dependencies { s with toLoadState := l } = some r) :
    LoadOutcome env host name s r := by
  obtain ⟨hpath', hdeps⟩ := dependencies_of_loadDll hload
  obtain ⟨m, ⟨hhandle, hname, hcount⟩, htable, hnext, rfl⟩ :
      ∃ m : LoadedModule, (m.handle = s.nextModuleHandle ∧
        m.name = fileModuleName path ∧ m.refCount = 1) ∧
        l.loadedModules = s.loadedModules.insert m ∧
        s.nextModuleHandle.toNat < l.nextModuleHandle.toNat ∧ d.module = m := by
    rcases loadDll_table _ _ _ _ _ hload with ⟨-, -, e, he⟩ | ⟨m, hm, htable, hlt, hr⟩
    · cases he
    · exact ⟨m, hm, htable, hlt, hr d rfl⟩
  -- nothing that is in the table has the name of the file
  have hnew : s.loadedModules.lookup d.module.name = none := by
    cases hold : s.loadedModules.lookup d.module.name with
    | none => rfl
    | some m₀ =>
      obtain ⟨hmem, hname₀⟩ := ModuleTable.lookup_eq_some hold
      have hsame := (hs path hpath m₀ hmem (.inl (hname₀.trans hname))).2
      rw [hsame, ← hname, hold] at hlookup
      cases hlookup
  have hnamed : d.module.name = fileModuleName d.module.hostPath := by
    rw [hpath']
    exact hname
  have hneeded : env.needs host d.module =
      env.realNames host (fileDependencies env.parse (host.read path)) := by
    rw [ModuleEnv.needs, hpath']
    rfl
  rw [hdeps] at h
  obtain ⟨hr, hgained⟩ := loadDependencies_gained ih _ hfresh
    (refOk_insert hok hhandle hcount hnamed htable hnext) h
  have hstands : env.standsFor host name = d.module.name := by
    rw [ModuleEnv.standsFor, hpath, hname]
  have hmem : d.module ∈ ({ s with toLoadState := l } : ModuleState τ σ).loadedModules := by
    show _ ∈ l.loadedModules
    rw [htable]
    exact ModuleTable.mem_insert.mpr (.inl rfl)
  have hne : r.1 ≠ 0 := by
    rw [hr]
    exact (refOk_insert hok hhandle hcount hnamed htable hnext).handle_ne_zero hmem
  refine ⟨fun hz => absurd hz hne, fun _ => hne, fun _ => ?_, fun _ _ => ?_⟩
  · rw [realNames_of_needsFile hneeds, hstands]
    exact gained_insert hnew hcount htable (hneeded ▸ hnodup) (hneeded ▸ hgained)
  · obtain ⟨m', hm', hsame⟩ := hgained.stays _ hmem trivial
    exact ⟨m', hm', hsame.handle.trans hr.symm, hsame.name.trans hstands.symm⟩

/-- **What a load does to the counts.** -/
theorem resolveOrLoadDll_counts : ∀ {fuel : ℕ} {name : List Char} {s : ModuleState τ σ}
    {r : BitVec 64 × ModuleState τ σ}, LoadGuard env host fuel name s → RefOk s →
      resolveOrLoadDll env (host.find env.mainModulePath) fuel name s = some r →
        LoadOutcome env host name s r
  | 0, _, _, _, _, _, h => by cases h
  | fuel + 1, name, s, r, hguard, hok, h => by
    obtain ⟨hs, hlt, hfile⟩ := hguard
    rw [resolveOrLoadDll] at h
    cases hk : resolveKnown env name s with
    | some r' =>
      rw [hk] at h
      cases h
      exact loadOutcome_known hok hs hlt hk
    | none =>
      obtain ⟨hneeds, hlookup⟩ := resolveKnown_eq_none hk
      rw [hk] at h
      cases hresolver : env.importResolver with
      | none =>
        simp only [hresolver] at h
        cases h
        refine ⟨fun _ => ⟨_, rfl⟩, fun hhad => ?_, fun hne => absurd rfl hne,
          fun hne => absurd rfl hne⟩
        have hsome := (hhad.2.2 hk).1
        rw [hresolver] at hsome
        cases hsome
      | some resolver =>
        cases hreq : host.find env.mainModulePath name with
        | none =>
          simp only [hresolver, hreq] at h
          cases h
          refine ⟨fun _ => ⟨_, rfl⟩, fun hhad => ?_, fun hne => absurd rfl hne,
            fun hne => absurd rfl hne⟩
          obtain ⟨-, req, p, hreq', -⟩ := hhad.2.2 hk
          rw [hreq] at hreq'
          cases hreq'
        | some req =>
          have hwhole := hfile hk resolver hresolver req hreq
          obtain ⟨path, hpath, rfl⟩ := Option.map_eq_some_iff.mp hreq
          simp only [hresolver, hreq] at h
          rcases hload : loadDll env.eng env.parse resolver _ s.toLoadState with ⟨e | d, l⟩
          · rw [hload] at h
            cases h
            obtain ⟨rfl, hover⟩ := eq_of_loadDll_error (fun p hp ho => (hwhole p hp ho).1) hload
            refine ⟨fun _ => ⟨_, rfl⟩, fun hhad => ?_, fun hne => absurd rfl hne,
              fun hne => absurd rfl hne⟩
            obtain ⟨-, req, p, hreq', hp, ho⟩ := hhad.2.2 hk
            rw [hreq] at hreq'
            cases hreq'
            exact absurd ho (Nat.not_lt.mpr (hover p hp))
          · rw [hload] at h
            obtain ⟨p, -, -, -, -, hp, -, -⟩ := loadDll_result hload
            have ho : s.nextModuleHandle.toNat + 0x1000 < 2 ^ 64 := by
              by_contra hover
              rw [loadDll_of_overflow hp (Nat.not_lt.mp hover)] at hload
              cases hload
            obtain ⟨-, hnodup, hfresh⟩ := hwhole p hp ho
            exact loadOutcome_file (fun _ _ _ hg hok h => resolveOrLoadDll_counts hg hok h) hok hs
              hneeds hlookup hpath hload hnodup (hfresh d l hload) h

end Load

/-! ### What a free does to the counts -/

section Free

variable {env : ModuleEnv τ σ} {host : DllHost} {s : ModuleState τ σ} {handle : BitVec 64}

/-- The module that a handle is of. -/
def freedModule (handle : BitVec 64) (s : ModuleState τ σ) : Option LoadedModule :=
  if REAL_MODULE_HANDLE_BASE ≤ handle then s.loadedModules.byHandle handle else none

variable (env) in
theorem loadedModules_free_of_none (h : freedModule handle s = none) :
    (handleFreeLibrary env handle s).2.loadedModules = s.loadedModules ∧
      (handleFreeLibrary env handle s).2.nextModuleHandle = s.nextModuleHandle := by
  rw [handleFreeLibrary]
  split
  · exact ⟨rfl, rfl⟩
  · split
    · rename_i hreal
      rw [freedModule, if_pos hreal] at h
      rw [h]
      exact ⟨rfl, rfl⟩
    · exact ⟨rfl, rfl⟩

variable (env) in
theorem loadedModules_free_of_some {m : LoadedModule} (hpos : 0 < m.refCount.toNat)
    (h : freedModule handle s = some m) :
    (handleFreeLibrary env handle s).2.nextModuleHandle = s.nextModuleHandle ∧
      (handleFreeLibrary env handle s).2.loadedModules =
        if m.refCount = 1 then s.loadedModules.erase m.name
        else s.loadedModules.setRefCount m.name (m.refCount - 1) := by
  rw [freedModule] at h
  split at h
  · rename_i hreal
    have hne : handle ≠ 0 := by
      rintro rfl
      exact absurd hreal (by decide)
    have hgt : m.refCount > 0 := hpos
    have hlast : m.refCount - 1 = 0 ↔ m.refCount = 1 := by
      constructor
      · intro h
        bv_omega
      · intro h
        rw [h]
        rfl
    rw [handleFreeLibrary, if_neg hne, if_pos hreal, h]
    simp only [if_pos hgt]
    by_cases h1 : m.refCount = 1
    · rw [if_pos (hlast.mpr h1), if_pos h1]
      exact ⟨rfl, rfl⟩
    · rw [if_neg (mt hlast.mp h1), if_neg h1]
      exact ⟨rfl, rfl⟩
  · cases h

/-- **What a free does to the counts**, if the module that goes needs no others. -/
theorem freed_counts (hok : RefOk s) {m : LoadedModule} (h : freedModule handle s = some m)
    (hlast : m.refCount = 1 → env.needs host m = []) :
    RefOk (handleFreeLibrary env handle s).2 ∧ ∀ n,
      refsOf (handleFreeLibrary env handle s).2.loadedModules n +
          (if n = m.name then 1 else 0) = refsOf s.loadedModules n ∧
        dependents env host (handleFreeLibrary env handle s).2.loadedModules n =
          dependents env host s.loadedModules n := by
  have hmem : m ∈ s.loadedModules := by
    rw [freedModule] at h
    split at h
    · exact ((hok.ok.byHandle_eq_some_iff).mp h).1
    · cases h
  have hpos := hok.pos m hmem
  have hlookup : s.loadedModules.lookup m.name = some m := by
    cases hl : s.loadedModules.lookup m.name with
    | none => exact absurd rfl (ModuleTable.lookup_eq_none.mp hl m hmem)
    | some m' =>
      obtain ⟨hmem', hname⟩ := ModuleTable.lookup_eq_some hl
      rw [hok.ok.eq_of_name hmem' hmem hname]
  have hrefs : refsOf s.loadedModules m.name = m.refCount.toNat := by
    rw [refsOf, hlookup]
    rfl
  obtain ⟨hnext, htable⟩ := loadedModules_free_of_some env hpos h
  by_cases h1 : m.refCount = 1
  · rw [if_pos h1] at htable
    refine ⟨hok.erase htable hnext, fun n => ?_⟩
    rw [htable, refsOf_erase]
    refine ⟨?_, dependents_erase (fun m' hm' hname => ?_) n⟩
    · by_cases hn : n = m.name
      · rw [if_pos hn, if_pos hn, hn, hrefs, h1]
        rfl
      · rw [if_neg hn, if_neg hn]
        rfl
    · rw [hok.ok.eq_of_name hm' hmem hname]
      exact hlast h1
  · rw [if_neg h1] at htable
    have hne : m.refCount.toNat ≠ 1 := fun he => h1 (BitVec.eq_of_toNat_eq he)
    have hdec : (m.refCount - 1).toNat = m.refCount.toNat - 1 := by
      rw [BitVec.toNat_sub]
      have := m.refCount.isLt
      have : (1 : BitVec 64).toNat = 1 := rfl
      omega
    refine ⟨hok.setRefCount (by omega) htable hnext, fun n => ?_⟩
    rw [htable, refsOf_setRefCount hlookup, dependents_setRefCount]
    refine ⟨?_, rfl⟩
    by_cases hn : n = m.name
    · rw [if_pos hn, if_pos hn, hn, hrefs, hdec]
      omega
    · rw [if_neg hn, if_neg hn]
      rfl

end Free

end Wie
