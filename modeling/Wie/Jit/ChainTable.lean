import Mathlib.Data.Fintype.Basic
import Wie.Jit.Ctx
import Wie.Lib.Probing
import Wie.Lib.Reach

/-!
# The chain table

Where a compiled block goes on to an address, it looks up the function compiled for it: first in a
cache of the last four edges, then in an open-addressing table. Functions are put into the table,
and the cache is filled by lookups.

The table always has the function that was put in last, if it has one at all. The cache has the
function of the lookup that filled it, and putting another one into the table does not reach it.

## Main definitions

* `ChainTables` — the table and the cache
* `ChainTables.chainTableInsert`, `ChainTables.chainLookup`, `ChainTables.wieJitChainLookup`
* `ChainRun` — with what was put in last for each address
* `ChainRun.Right` — lookups find that or nothing

## Main results

* `chain_lookup_right_iff` — when all lookups of a run are right
-/

namespace Wie

/-! ### The table and the cache -/

/-- Slots of the chain table. -/
def CHAIN_SLOTS : ℕ := 512

/-- Slots of the cache. -/
def EDGE_IC_SLOTS : ℕ := 4

/-- How many slots a lookup tries. -/
def CHAIN_PROBES : ℕ := 16

instance neZeroChainSlots : NeZero CHAIN_SLOTS := ⟨Nat.succ_ne_zero 511⟩

instance neZeroEdgeIcSlots : NeZero EDGE_IC_SLOTS := ⟨Nat.succ_ne_zero 3⟩

/-- The chain table and the cache of edges. Zero is no address, and no function. -/
structure ChainTables where
  /-- Addresses of the table. -/
  chainVa : Fin CHAIN_SLOTS → BitVec 64
  /-- Their functions. -/
  chainFn : Fin CHAIN_SLOTS → BitVec 64
  /-- Addresses of the cache. -/
  edgeIcVa : Fin EDGE_IC_SLOTS → BitVec 64
  /-- Their functions. -/
  edgeIcFn : Fin EDGE_IC_SLOTS → BitVec 64
  /-- Whose turn it is to be replaced. -/
  edgeIcRr : BitVec 64

/-- `chain_hash`. -/
def chainHash (va : BitVec 64) : Fin CHAIN_SLOTS :=
  after ⟨0, Nat.pos_of_ne_zero (NeZero.ne _)⟩ (va * 0x9E3779B97F4A7C15).toNat

namespace ChainTables

/-- `chain_table_insert`. The slot is that of `place`: the loop tries all of them, and overwrites
the hashed one when none will do. -/
def chainTableInsert (t : ChainTables) (va fn : BitVec 64) : ChainTables :=
  if va = 0 ∨ fn = 0 then t
  else
    let i := place 0 chainHash t.chainVa va
    { t with
      chainVa := Function.update t.chainVa i va
      chainFn := Function.update t.chainFn i fn }

/-- `invalidate_chain_and_shadow`, with the whole of `chain_table_clear`. -/
def clear : ChainTables := ⟨fun _ => 0, fun _ => 0, fun _ => 0, fun _ => 0, 0⟩

/-- `chain_lookup` of the trampolines. -/
def chainLookup (t : ChainTables) (va : BitVec 64) : BitVec 64 :=
  if va = 0 then 0
  else
    match probe (stops 0 t.chainVa va) CHAIN_PROBES (chainHash va) with
    | some i => if t.chainVa i = va then t.chainFn i else 0
    | none => 0

/-- The entry of the cache for an address. -/
def edgeIcFind (t : ChainTables) (va : BitVec 64) : Option (Fin EDGE_IC_SLOTS) :=
  (List.finRange EDGE_IC_SLOTS).find? fun i => t.edgeIcVa i = va ∧ t.edgeIcFn i ≠ 0

/-- The slot that is replaced next. -/
def edgeIcVictim (t : ChainTables) : Fin EDGE_IC_SLOTS :=
  ⟨t.edgeIcRr.toNat % EDGE_IC_SLOTS, Nat.mod_lt _ (Nat.pos_of_ne_zero (NeZero.ne _))⟩

/-- A new entry of the cache. -/
def edgeIcInstall (t : ChainTables) (va fn : BitVec 64) : ChainTables :=
  { t with
    edgeIcVa := Function.update t.edgeIcVa t.edgeIcVictim va
    edgeIcFn := Function.update t.edgeIcFn t.edgeIcVictim fn
    edgeIcRr := t.edgeIcRr + 1 }

/-- `wie_jit_chain_lookup`. -/
def wieJitChainLookup (t : ChainTables) (va : BitVec 64) : BitVec 64 × ChainTables :=
  if va = 0 then (0, t)
  else
    match t.edgeIcFind va with
    | some i => (t.edgeIcFn i, t)
    | none =>
      let f := t.chainLookup va
      if f = 0 then (0, t) else (f, t.edgeIcInstall va f)

end ChainTables

/-! ### Runs -/

/-- What is done to the tables. -/
inductive ChainAction
  /-- `chain_table_insert`. -/
  | insert (va fn : BitVec 64)
  /-- `wie_jit_chain_lookup`. -/
  | lookup (va : BitVec 64)
  /-- `chain_lookup` of the trampolines. -/
  | trampolineLookup (va : BitVec 64)
  /-- Everything is cleared. -/
  | clear

/-- The tables, and for each address the function inserted last since they were cleared; zero if
there is none. -/
structure ChainRun where
  /-- The tables. -/
  tables : ChainTables
  /-- What was inserted last. -/
  latest : BitVec 64 → BitVec 64

namespace ChainRun

/-- At first nothing has been inserted. -/
def start : ChainRun := ⟨.clear, fun _ => 0⟩

/-- One action. -/
def next (s : ChainRun) : ChainAction → ChainRun
  | .insert va fn => ⟨s.tables.chainTableInsert va fn,
      if va = 0 ∨ fn = 0 then s.latest else Function.update s.latest va fn⟩
  | .lookup va => ⟨(s.tables.wieJitChainLookup va).2, s.latest⟩
  | .trampolineLookup _ => s
  | .clear => start

/-- **Lookups are right**: what they find for an address was inserted last for it. -/
def Right (s : ChainRun) : Prop :=
  ∀ va, ((s.tables.wieJitChainLookup va).1 ≠ 0 → (s.tables.wieJitChainLookup va).1 = s.latest va) ∧
    (s.tables.chainLookup va ≠ 0 → s.tables.chainLookup va = s.latest va)

/-- No function is inserted for an address that the cache has with another. -/
def Current (s : ChainRun) : ChainAction → Prop
  | .insert va fn => va = 0 ∨ fn = 0 ∨ ∀ i, s.tables.edgeIcVa i = va → s.tables.edgeIcFn i ≠ 0 →
      s.tables.edgeIcFn i = fn
  | _ => True

instance decidableCurrent (s : ChainRun) : ∀ a, Decidable (s.Current a)
  | .insert va fn => inferInstanceAs (Decidable (va = 0 ∨ fn = 0 ∨ ∀ i,
      s.tables.edgeIcVa i = va → s.tables.edgeIcFn i ≠ 0 → s.tables.edgeIcFn i = fn))
  | .lookup _ => .isTrue trivial
  | .trampolineLookup _ => .isTrue trivial
  | .clear => .isTrue trivial

/-- What holds in every run. -/
structure Inv (s : ChainRun) : Prop where
  /-- Every address of the table can be found. -/
  probed : Probed 0 chainHash s.tables.chainVa
  /-- The table has what was inserted last. -/
  latest : ∀ j, s.tables.chainVa j ≠ 0 → s.tables.chainFn j = s.latest (s.tables.chainVa j)
  /-- No address is in the cache twice. -/
  once : ∀ i j, s.tables.edgeIcVa i ≠ 0 → s.tables.edgeIcFn i ≠ 0 → s.tables.edgeIcFn j ≠ 0 →
    s.tables.edgeIcVa i = s.tables.edgeIcVa j → i = j

/-- The cache has what was inserted last too. -/
def CacheLatest (s : ChainRun) : Prop :=
  ∀ i, s.tables.edgeIcVa i ≠ 0 → s.tables.edgeIcFn i ≠ 0 →
    s.tables.edgeIcFn i = s.latest (s.tables.edgeIcVa i)

/-! ### Lookups -/

variable {s : ChainRun} {va fn : BitVec 64} {i : Fin EDGE_IC_SLOTS}

/-- What the table gives out is a function that it has. -/
theorem exists_of_chainLookup {t : ChainTables} (h : t.chainLookup va ≠ 0) :
    va ≠ 0 ∧ ∃ j, t.chainVa j = va ∧ t.chainFn j = t.chainLookup va := by
  rw [ChainTables.chainLookup] at h ⊢
  split at h
  · exact absurd rfl h
  · rename_i hva
    rw [if_neg hva]
    split at h
    · rename_i j hj
      split at h
      · rename_i hkey
        exact ⟨hva, j, hkey, by rw [if_pos hkey]⟩
      · exact absurd rfl h
    · exact absurd rfl h

/-- The table is right. -/
theorem Inv.chainLookup (h : Inv s) (hf : s.tables.chainLookup va ≠ 0) :
    s.tables.chainLookup va = s.latest va := by
  obtain ⟨hva, j, hj, hfn⟩ := exists_of_chainLookup hf
  rw [← hfn, h.latest j (by rwa [hj]), hj]

theorem edgeIcFind_eq_some {t : ChainTables} (h : t.edgeIcFind va = some i) :
    t.edgeIcVa i = va ∧ t.edgeIcFn i ≠ 0 := by
  have := List.find?_some h
  exact of_decide_eq_true this

theorem edgeIcFind_eq_none {t : ChainTables} (h : t.edgeIcFind va = none) (hi : t.edgeIcVa i = va) :
    t.edgeIcFn i = 0 := by
  by_contra hfn
  have := List.find?_eq_none.mp h i (List.mem_finRange i)
  exact this (decide_eq_true ⟨hi, hfn⟩)

/-- The cache comes first. -/
theorem wieJitChainLookup_of_some {t : ChainTables} (hva : va ≠ 0) (h : t.edgeIcFind va = some i) :
    t.wieJitChainLookup va = (t.edgeIcFn i, t) := by
  rw [ChainTables.wieJitChainLookup, if_neg hva, h]

/-- **Lookups are right just if the cache is up to date.** -/
theorem Inv.right_iff (h : Inv s) : s.Right ↔ s.CacheLatest := by
  constructor
  · intro hr i hva hfn
    have hfind : s.tables.edgeIcFind (s.tables.edgeIcVa i) = some i := by
      cases hf : s.tables.edgeIcFind (s.tables.edgeIcVa i) with
      | none => exact absurd (edgeIcFind_eq_none hf rfl) hfn
      | some j =>
        obtain ⟨hj, hjfn⟩ := edgeIcFind_eq_some hf
        rw [h.once i j hva hfn hjfn hj.symm]
    have := (hr (s.tables.edgeIcVa i)).1
    rw [wieJitChainLookup_of_some hva hfind] at this
    exact this hfn
  · intro hc va
    refine ⟨fun hf => ?_, h.chainLookup⟩
    rw [ChainTables.wieJitChainLookup] at hf ⊢
    split at hf
    · exact absurd rfl hf
    · rename_i hva
      rw [if_neg hva]
      split at hf
      · rename_i i hi
        obtain ⟨rfl, hfn⟩ := edgeIcFind_eq_some hi
        exact hc i hva hfn
      · dsimp only at hf ⊢
        split at hf
        · exact absurd rfl hf
        · rename_i hne
          rw [if_neg hne]
          exact h.chainLookup hne

/-! ### Actions -/

theorem inv_start : Inv start where
  probed := probed_empty
  latest _ h := absurd rfl h
  once _ _ h := absurd rfl h

theorem Inv.insert (h : Inv s) (va fn : BitVec 64) : Inv (s.next (.insert va fn)) := by
  rw [next, ChainTables.chainTableInsert]
  by_cases hz : va = 0 ∨ fn = 0
  · rw [if_pos hz, if_pos hz]
    exact h
  · rw [if_neg hz, if_neg hz]
    have hva : va ≠ 0 := fun hva => hz (.inl hva)
    refine ⟨h.probed.update hva, fun j hj => ?_, h.once⟩
    dsimp only at hj ⊢
    by_cases hjp : j = place 0 chainHash s.tables.chainVa va
    · rw [hjp, Function.update_self, Function.update_self, Function.update_self]
    · rw [Function.update_of_ne hjp] at hj ⊢
      rw [Function.update_of_ne hjp, h.latest j hj, Function.update_of_ne]
      exact fun hkey => hjp (h.probed.eq_place hkey hva)

/-- A lookup fills the cache with what the table has, or changes nothing. -/
theorem wieJitChainLookup_snd (t : ChainTables) (va : BitVec 64) :
    (t.wieJitChainLookup va).2 = t ∨ (va ≠ 0 ∧ t.edgeIcFind va = none ∧ t.chainLookup va ≠ 0 ∧
      (t.wieJitChainLookup va).2 = t.edgeIcInstall va (t.chainLookup va)) := by
  rw [ChainTables.wieJitChainLookup]
  split
  · exact .inl rfl
  · rename_i hva
    split
    · exact .inl rfl
    · rename_i hnone
      dsimp only
      split
      · exact .inl rfl
      · rename_i hne
        exact .inr ⟨hva, hnone, hne, rfl⟩

theorem Inv.lookup (h : Inv s) (va : BitVec 64) : Inv (s.next (.lookup va)) := by
  rw [next]
  rcases wieJitChainLookup_snd s.tables va with heq | ⟨hva, hnone, hne, heq⟩
  · rw [heq]
    exact h
  · rw [heq]
    refine ⟨h.probed, h.latest, fun i j hi hfi hfj hij => ?_⟩
    simp only [ChainTables.edgeIcInstall, Function.update_apply] at hi hfi hfj hij
    by_cases hiv : i = s.tables.edgeIcVictim
    · by_cases hjv : j = s.tables.edgeIcVictim
      · rw [hiv, hjv]
      · rw [if_pos hiv, if_neg hjv] at hij
        rw [if_neg hjv] at hfj
        exact absurd (edgeIcFind_eq_none hnone hij.symm) hfj
    · rw [if_neg hiv] at hi hfi hij
      by_cases hjv : j = s.tables.edgeIcVictim
      · rw [if_pos hjv] at hij
        exact absurd (edgeIcFind_eq_none hnone hij) hfi
      · rw [if_neg hjv] at hfj hij
        exact h.once i j hi hfi hfj hij

/-- **What holds in every run.** -/
theorem Inv.next (h : Inv s) : ∀ a, Inv (s.next a)
  | .insert va fn => h.insert va fn
  | .lookup va => h.lookup va
  | .trampolineLookup _ => h
  | .clear => inv_start

/-- An insertion leaves the cache up to date just if it has nothing else for the address. -/
theorem cacheLatest_insert_iff (hc : s.CacheLatest) (va fn : BitVec 64) :
    (s.next (.insert va fn)).CacheLatest ↔ s.Current (.insert va fn) := by
  rw [CacheLatest, Current, next, ChainTables.chainTableInsert]
  by_cases hva : va = 0
  · rw [if_pos (.inl hva), if_pos (.inl hva)]
    exact iff_of_true hc (.inl hva)
  by_cases hfn : fn = 0
  · rw [if_pos (.inr hfn), if_pos (.inr hfn)]
    exact iff_of_true hc (.inr (.inl hfn))
  have hz : ¬(va = 0 ∨ fn = 0) := not_or.mpr ⟨hva, hfn⟩
  rw [if_neg hz, if_neg hz, or_iff_right hva, or_iff_right hfn]
  refine forall_congr' fun i => ?_
  dsimp only
  by_cases hi : s.tables.edgeIcVa i = va
  · rw [hi, Function.update_self, imp_iff_right hva, imp_iff_right rfl]
  · rw [Function.update_of_ne hi]
    exact iff_of_true (hc i) fun h => absurd h hi

/-- A lookup leaves the cache up to date. -/
theorem Inv.cacheLatest_lookup (h : Inv s) (hc : s.CacheLatest) (va : BitVec 64) :
    (s.next (.lookup va)).CacheLatest := by
  rw [ChainRun.next]
  rcases wieJitChainLookup_snd s.tables va with heq | ⟨hva, hnone, hne, heq⟩
  · rw [heq]
    exact hc
  · rw [heq]
    intro i
    show Function.update s.tables.edgeIcVa s.tables.edgeIcVictim va i ≠ 0 →
      Function.update s.tables.edgeIcFn s.tables.edgeIcVictim _ i ≠ 0 →
      Function.update s.tables.edgeIcFn s.tables.edgeIcVictim _ i =
        s.latest (Function.update s.tables.edgeIcVa s.tables.edgeIcVictim va i)
    by_cases hi : i = s.tables.edgeIcVictim
    · rw [hi, Function.update_self, Function.update_self]
      exact fun _ _ => h.chainLookup hne
    · rw [Function.update_of_ne hi, Function.update_of_ne hi]
      exact hc i

theorem Inv.right_next_iff (h : Inv s) (hr : s.Right) (a : ChainAction) :
    (s.next a).Right ↔ s.Current a := by
  rw [(h.next a).right_iff]
  rw [h.right_iff] at hr
  cases a with
  | insert va fn => exact cacheLatest_insert_iff hr va fn
  | lookup va => exact iff_of_true (h.cacheLatest_lookup hr va) trivial
  | trampolineLookup va => exact iff_of_true hr trivial
  | clear => exact iff_of_true (fun i hi => absurd rfl hi) trivial

theorem right_start : start.Right := inv_start.right_iff.mpr fun _ hi => absurd rfl hi

/-- **When all lookups of a run are right**: whatever is inserted, looked up and cleared, they are so
on the way just if no insertion is for an address that the cache has with another function. -/
theorem chain_lookup_right_iff (as : List ChainAction) :
    (∀ bs, bs <+: as → (bs.foldl next start).Right) ↔ Allowed Current next start as := by
  have hI : ∀ s a, Inv s → Inv (next s a) := fun _ a h => h.next a
  exact forall_prefix_iff_allowed hI (fun _ a h hr => h.right_next_iff hr a) inv_start right_start

/-- **The cache keeps the first of two functions.** -/
theorem not_chain_lookup_right : ¬∀ as : List ChainAction, (as.foldl next start).Right := by
  intro h
  have := (h [.insert 0x1000 0x10, .lookup 0x1000, .insert 0x1000 0x20] 0x1000).1
  revert this
  decide +kernel

end ChainRun

end Wie
