import Mathlib.Data.List.Nodup
import Wie.Winapi.Exports

/-!
# The table of modules

The modules that are loaded, each under its name. The table is a list here, in the order in which
the source goes through its map; that order decides nothing as long as no two modules have a handle
in common.

## Main definitions

* `ModuleTable` — the table, with what the source does to it
* `ModuleTable.Ok` — names and handles differ, and handles come from the counter
* `ModuleTable.Persists` — the modules of one table are in another

## Main results

* `ModuleTable.byHandle_eq_some_iff` — a handle finds the one module that has it
* `Ok.insert`, `Ok.erase`, `Ok.setRefCount` — the table stays in order
-/

namespace Wie

/-- `REAL_MODULE_HANDLE_BASE`, the first handle. -/
def REAL_MODULE_HANDLE_BASE : BitVec 64 := 0x6f000000

/-- `loaded_modules`, a map from names to modules. -/
abbrev ModuleTable := List LoadedModule

namespace ModuleTable

/-- `get` and `get_mut`. -/
def lookup (t : ModuleTable) (name : List Char) : Option LoadedModule := t.find? (·.name = name)

/-- `insert`, which takes the place of a module with the same name. -/
def insert (t : ModuleTable) (m : LoadedModule) : ModuleTable :=
  m :: t.filter (·.name ≠ m.name)

/-- `remove`. -/
def erase (t : ModuleTable) (name : List Char) : ModuleTable := t.filter (·.name ≠ name)

/-- The first module with a handle. -/
def byHandle (t : ModuleTable) (handle : BitVec 64) : Option LoadedModule :=
  t.find? (·.handle = handle)

/-- The count of the module with this name is changed in place. -/
def setRefCount (t : ModuleTable) (name : List Char) (n : BitVec 64) : ModuleTable :=
  t.map fun m => if m.name = name then { m with refCount := n } else m

variable {t t' t'' : ModuleTable} {m m' : LoadedModule} {name : List Char} {next : BitVec 64}

theorem lookup_eq_some (h : t.lookup name = some m) : m ∈ t ∧ m.name = name :=
  ⟨List.mem_of_find?_eq_some h, by simpa using List.find?_some h⟩

theorem lookup_eq_none : t.lookup name = none ↔ ∀ m ∈ t, m.name ≠ name := by
  simp [lookup]

theorem mem_insert : m' ∈ t.insert m ↔ m' = m ∨ m' ∈ t ∧ m'.name ≠ m.name := by
  simp [insert]

theorem mem_erase : m ∈ t.erase name ↔ m ∈ t ∧ m.name ≠ name := by
  simp [erase]

theorem mem_setRefCount {n : BitVec 64} : m' ∈ t.setRefCount name n ↔
    ∃ m ∈ t, (if m.name = name then { m with refCount := n } else m) = m' := by
  simp [setRefCount]

/-! ### Tables in order -/

/-- No two modules share a name or a handle, and every handle has been given out before `next`. -/
structure Ok (t : ModuleTable) (next : BitVec 64) : Prop where
  names : (t.map LoadedModule.name).Nodup
  handles : (t.map LoadedModule.handle).Nodup
  given : ∀ m ∈ t, REAL_MODULE_HANDLE_BASE.toNat ≤ m.handle.toNat ∧ m.handle.toNat < next.toNat

theorem ok_nil (next : BitVec 64) : Ok [] next := ⟨.nil, .nil, List.forall_mem_nil _⟩

namespace Ok

theorem eq_of_name (h : t.Ok next) (hm : m ∈ t) (hm' : m' ∈ t) (hn : m.name = m'.name) : m = m' :=
  List.inj_on_of_nodup_map h.names hm hm' hn

theorem eq_of_handle (h : t.Ok next) (hm : m ∈ t) (hm' : m' ∈ t) (hh : m.handle = m'.handle) :
    m = m' :=
  List.inj_on_of_nodup_map h.handles hm hm' hh

/-- **A handle finds the one module that has it**, wherever the module is. -/
theorem byHandle_eq_some_iff (h : t.Ok next) {handle : BitVec 64} :
    t.byHandle handle = some m ↔ m ∈ t ∧ m.handle = handle := by
  constructor
  · intro hf
    exact ⟨List.mem_of_find?_eq_some hf, by simpa using List.find?_some hf⟩
  · rintro ⟨hm, rfl⟩
    cases hf : t.byHandle m.handle with
    | none => exact absurd (List.find?_eq_none.mp hf m hm) (by simp)
    | some m' =>
      have hm' : m'.handle = m.handle := by simpa using List.find?_some hf
      rw [h.eq_of_handle (List.mem_of_find?_eq_some hf) hm hm']

theorem mono (h : t.Ok next) {next' : BitVec 64} (hle : next.toNat ≤ next'.toNat) : t.Ok next' :=
  ⟨h.names, h.handles, fun m hm => ⟨(h.given m hm).1, (h.given m hm).2.trans_le hle⟩⟩

theorem sublist (h : t.Ok next) (hs : t'.Sublist t) : t'.Ok next :=
  ⟨h.names.sublist (hs.map _), h.handles.sublist (hs.map _), fun m hm => h.given m (hs.subset hm)⟩

/-- A module gets the next handle. -/
theorem insert (h : t.Ok next) {next' : BitVec 64} (hm : m.handle = next)
    (hbase : REAL_MODULE_HANDLE_BASE.toNat ≤ next.toNat) (hlt : next.toNat < next'.toNat) :
    (t.insert m).Ok next' := by
  have hrest : Ok (t.filter (·.name ≠ m.name)) next := h.sublist List.filter_sublist
  refine ⟨List.nodup_cons.mpr ⟨?_, hrest.names⟩, List.nodup_cons.mpr ⟨?_, hrest.handles⟩, ?_⟩
  · intro hmem
    obtain ⟨m', hm', heq⟩ := List.mem_map.mp hmem
    exact absurd heq (by simpa using (List.mem_filter.mp hm').2)
  · intro hmem
    obtain ⟨m', hm', heq⟩ := List.mem_map.mp hmem
    have hlt' := (hrest.given m' hm').2
    rw [heq, hm] at hlt'
    exact lt_irrefl _ hlt'
  · intro m' hm'
    rcases List.mem_cons.mp hm' with rfl | hm'
    · exact ⟨hm ▸ hbase, hm ▸ hlt⟩
    · exact ⟨(hrest.given m' hm').1, (hrest.given m' hm').2.trans hlt⟩

theorem erase (h : t.Ok next) (name : List Char) : (t.erase name).Ok next :=
  h.sublist List.filter_sublist

theorem setRefCount (h : t.Ok next) (name : List Char) (n : BitVec 64) :
    (t.setRefCount name n).Ok next := by
  have hnames : (t.setRefCount name n).map LoadedModule.name = t.map LoadedModule.name := by
    rw [ModuleTable.setRefCount, List.map_map]
    refine List.map_congr_left fun m _ => ?_
    show (if m.name = name then { m with refCount := n } else m).name = m.name
    split <;> rfl
  have hhandles : (t.setRefCount name n).map LoadedModule.handle = t.map LoadedModule.handle := by
    rw [ModuleTable.setRefCount, List.map_map]
    refine List.map_congr_left fun m _ => ?_
    show (if m.name = name then { m with refCount := n } else m).handle = m.handle
    split <;> rfl
  refine ⟨hnames ▸ h.names, hhandles ▸ h.handles, fun m' hm' => ?_⟩
  obtain ⟨m, hm, rfl⟩ := mem_setRefCount.mp hm'
  split <;> exact h.given m hm

end Ok

/-! ### What stays in a table -/

/-- The same image under the same name and handle; its count may be another. -/
structure SameImage (m m' : LoadedModule) : Prop where
  name : m'.name = m.name
  handle : m'.handle = m.handle
  imageBase : m'.imageBase = m.imageBase
  exports : m'.exports = m.exports

/-- The modules of `t` that `keep` holds of are in `t'`. -/
def Persists (keep : LoadedModule → Prop) (t t' : ModuleTable) : Prop :=
  ∀ m ∈ t, keep m → ∃ m' ∈ t', SameImage m m'

theorem SameImage.refl (m : LoadedModule) : SameImage m m := ⟨rfl, rfl, rfl, rfl⟩

theorem SameImage.trans {a b c : LoadedModule} (h : SameImage a b) (h' : SameImage b c) :
    SameImage a c :=
  ⟨h'.name.trans h.name, h'.handle.trans h.handle, h'.imageBase.trans h.imageBase,
    h'.exports.trans h.exports⟩

theorem Persists.refl {keep : LoadedModule → Prop} : Persists keep t t :=
  fun m hm _ => ⟨m, hm, .refl m⟩

theorem Persists.trans (h : Persists (fun _ => True) t t')
    (h' : Persists (fun _ => True) t' t'') : Persists (fun _ => True) t t'' := by
  intro m hm _
  obtain ⟨m', hm', hs⟩ := h m hm trivial
  obtain ⟨m'', hm'', hs'⟩ := h' m' hm' trivial
  exact ⟨m'', hm'', hs.trans hs'⟩

/-- A module that comes under a new name. -/
theorem persists_insert (h : t.lookup m.name = none) : Persists (fun _ => True) t (t.insert m) :=
  fun m' hm' _ => ⟨m', mem_insert.mpr (.inr ⟨hm', lookup_eq_none.mp h m' hm'⟩), .refl m'⟩

theorem persists_setRefCount (t : ModuleTable) (name : List Char) (n : BitVec 64) :
    Persists (fun _ => True) t (t.setRefCount name n) := by
  intro m hm _
  refine ⟨_, mem_setRefCount.mpr ⟨m, hm, rfl⟩, ?_⟩
  split
  · exact ⟨rfl, rfl, rfl, rfl⟩
  · exact .refl m

theorem persists_erase (h : t.Ok next) (hm : m ∈ t) :
    Persists (fun m' => m'.handle ≠ m.handle) t (t.erase m.name) := by
  intro m' hm' hne
  refine ⟨m', mem_erase.mpr ⟨hm', fun heq => hne ?_⟩, .refl m'⟩
  rw [h.eq_of_name hm' hm heq]

end ModuleTable

end Wie
