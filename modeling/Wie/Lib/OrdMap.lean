import Mathlib.Data.List.Pairwise
import Mathlib.Order.Lattice
import Mathlib.Tactic.Common

/-!
# Finite maps in key order

A finite map over a linear order, held as its entries in strictly increasing key order. The order
is a field of the map, so nothing below carries a sortedness hypothesis.

The operations are the ones an ordered map offers beyond a plain one: the greatest entry at or
below a key, the greatest entry strictly below it, and the keys of a half-open range. Each is
specified by membership alone, which is the only form the developments on top of this one use:
the entry list itself is never unfolded outside this file.

## Main definitions

* `OrdMap` — the map, with its order as a field
* `OrdMap.insert`, `erase`, `eraseAll`, `get?` — the plain operations
* `OrdMap.floor?`, `below?`, `keysIn` — the ordered ones

## Main results

* `OrdMap.mem_insert`, `mem_erase`, `mem_eraseAll` — entries after an update
* `OrdMap.get?_eq_some`, `floor?_eq_some`, `below?_eq_some` — what a query returns
-/

namespace Wie

variable {κ ν : Type} [LinearOrder κ]

/-- A finite map held as its entries in strictly increasing key order. -/
structure OrdMap (κ ν : Type) [LinearOrder κ] where
  /-- The entries, smallest key first. -/
  entries : List (κ × ν)
  /-- Keys increase strictly, so no key occurs twice. -/
  sorted : entries.Pairwise fun a b => a.1 < b.1

namespace OrdMap

instance : Membership (κ × ν) (OrdMap κ ν) := ⟨fun m e => e ∈ m.entries⟩

theorem mem_def {m : OrdMap κ ν} {e : κ × ν} : e ∈ m ↔ e ∈ m.entries := Iff.rfl

instance [DecidableEq ν] (e : κ × ν) (m : OrdMap κ ν) : Decidable (e ∈ m) :=
  inferInstanceAs (Decidable (e ∈ m.entries))

@[ext] theorem ext {m n : OrdMap κ ν} (h : m.entries = n.entries) : m = n := by
  cases m; cases n; cases h; rfl

instance [DecidableEq ν] : DecidableEq (OrdMap κ ν) := fun _ _ =>
  decidable_of_iff _ OrdMap.ext_iff.symm

/-- The map with no entry. -/
def empty : OrdMap κ ν := ⟨[], .nil⟩

@[simp] theorem not_mem_empty (e : κ × ν) : e ∉ (empty : OrdMap κ ν) := List.not_mem_nil

/-- A key determines its value. -/
theorem value_unique {m : OrdMap κ ν} {k : κ} {v w : ν} (hv : (k, v) ∈ m) (hw : (k, w) ∈ m) :
    v = w := by
  by_contra hne
  have hsym : Std.Symm fun a b : κ × ν => a.1 ≠ b.1 := ⟨fun _ _ h => h.symm⟩
  have key : m.entries.Pairwise fun a b => a.1 ≠ b.1 := m.sorted.imp fun h => h.ne
  exact key.forall hv hw (by simpa using hne) rfl

/-! ### Updating -/

/-- Bind `k` to `v`, replacing what it was bound to. -/
def insert (m : OrdMap κ ν) (k : κ) (v : ν) : OrdMap κ ν where
  entries := m.entries.filter (fun e => decide (e.1 < k)) ++
    (k, v) :: m.entries.filter (fun e => decide (k < e.1))
  sorted := by
    refine List.pairwise_append.mpr ⟨m.sorted.filter _, ?_, ?_⟩
    · refine List.pairwise_cons.mpr ⟨fun e he => ?_, m.sorted.filter _⟩
      simpa using (List.mem_filter.mp he).2
    · intro a ha b hb
      have hak : a.1 < k := by simpa using (List.mem_filter.mp ha).2
      rcases List.mem_cons.mp hb with rfl | hb
      · exact hak
      · exact hak.trans (by simpa using (List.mem_filter.mp hb).2)

/-- Remove the binding of `k`, if there is one. -/
def erase (m : OrdMap κ ν) (k : κ) : OrdMap κ ν where
  entries := m.entries.filter fun e => decide (e.1 ≠ k)
  sorted := m.sorted.filter _

/-- Remove the bindings of the keys `ks`, one after the other. -/
def eraseAll (m : OrdMap κ ν) (ks : List κ) : OrdMap κ ν := ks.foldl erase m

theorem mem_insert {m : OrdMap κ ν} {k : κ} {v : ν} {e : κ × ν} :
    e ∈ m.insert k v ↔ e = (k, v) ∨ (e.1 ≠ k ∧ e ∈ m) := by
  simp only [mem_def, insert, List.mem_append, List.mem_cons, List.mem_filter, decide_eq_true_eq,
    ne_iff_lt_or_gt]
  tauto

theorem mem_erase {m : OrdMap κ ν} {k : κ} {e : κ × ν} : e ∈ m.erase k ↔ e.1 ≠ k ∧ e ∈ m := by
  simp only [mem_def, erase, List.mem_filter, decide_eq_true_eq]
  tauto

theorem mem_eraseAll {m : OrdMap κ ν} {ks : List κ} {e : κ × ν} :
    e ∈ m.eraseAll ks ↔ e.1 ∉ ks ∧ e ∈ m := by
  induction ks generalizing m with
  | nil => simp [eraseAll]
  | cons k ks ih =>
    change e ∈ (m.erase k).eraseAll ks ↔ _
    rw [ih, mem_erase, List.mem_cons]
    tauto

/-! ### Queries -/

/-- The value bound to `k`. -/
def get? (m : OrdMap κ ν) (k : κ) : Option ν :=
  (m.entries.find? fun e => decide (e.1 = k)).map Prod.snd

/-- The entry with the greatest key among those satisfying `p`. -/
def last? (m : OrdMap κ ν) (p : κ → Bool) : Option (κ × ν) :=
  (m.entries.filter fun e => p e.1).getLast?

/-- The entry with the greatest key at or below `k`. -/
def floor? (m : OrdMap κ ν) (k : κ) : Option (κ × ν) := m.last? fun x => decide (x ≤ k)

/-- The entry with the greatest key strictly below `k`. -/
def below? (m : OrdMap κ ν) (k : κ) : Option (κ × ν) := m.last? fun x => decide (x < k)

/-- The keys in `[lo, hi)`, smallest first. -/
def keysIn (m : OrdMap κ ν) (lo hi : κ) : List κ :=
  (m.entries.filter fun e => decide (lo ≤ e.1 ∧ e.1 < hi)).map Prod.fst

/-- The values, in key order. -/
def values (m : OrdMap κ ν) : List ν := m.entries.map Prod.snd

theorem get?_eq_some {m : OrdMap κ ν} {k : κ} {v : ν} : m.get? k = some v ↔ (k, v) ∈ m := by
  constructor
  · intro h
    obtain ⟨⟨k', v'⟩, he, rfl⟩ := Option.map_eq_some_iff.mp h
    have hk : k' = k := by simpa using List.find?_some he
    exact hk ▸ List.mem_of_find?_eq_some he
  · intro h
    cases hf : m.entries.find? fun e => decide (e.1 = k) with
    | none => simpa using List.find?_eq_none.mp hf (k, v) h
    | some e =>
      obtain ⟨k', w⟩ := e
      have hk : k' = k := by simpa using List.find?_some hf
      have hw : (k, w) ∈ m := hk ▸ List.mem_of_find?_eq_some hf
      simp [get?, hf, value_unique hw h]

theorem last?_eq_some {m : OrdMap κ ν} {p : κ → Bool} {e : κ × ν} :
    m.last? p = some e ↔ e ∈ m ∧ p e.1 ∧ ∀ f ∈ m, p f.1 → f.1 ≤ e.1 := by
  unfold last?
  have hs : (m.entries.filter fun f => p f.1).Pairwise fun a b => a.1 < b.1 := m.sorted.filter _
  constructor
  · intro h
    obtain ⟨l, hl⟩ := List.getLast?_eq_some_iff.mp h
    have hmem : e ∈ m.entries.filter fun f => p f.1 := by simp [hl]
    refine ⟨(List.mem_filter.mp hmem).1, (List.mem_filter.mp hmem).2, fun f hf hp => ?_⟩
    have hf' : f ∈ m.entries.filter fun f => p f.1 := List.mem_filter.mpr ⟨hf, hp⟩
    rw [hl] at hf' hs
    rcases List.mem_append.mp hf' with hf' | hf'
    · exact ((List.pairwise_append.mp hs).2.2 f hf' e (by simp)).le
    · rw [List.mem_singleton.mp hf']
  · rintro ⟨hm, hp, hmax⟩
    cases hl : (m.entries.filter fun f => p f.1).getLast? with
    | none =>
      rw [List.getLast?_eq_none_iff] at hl
      exact absurd (List.mem_filter.mpr ⟨hm, hp⟩) (by rw [hl]; simp)
    | some e' =>
      obtain ⟨l, hl'⟩ := List.getLast?_eq_some_iff.mp hl
      have hmem : e' ∈ m.entries.filter fun f => p f.1 := by simp [hl']
      have hle : e'.1 ≤ e.1 := hmax e' (List.mem_filter.mp hmem).1 (List.mem_filter.mp hmem).2
      have hem : e ∈ m.entries.filter fun f => p f.1 := List.mem_filter.mpr ⟨hm, hp⟩
      rw [hl'] at hem hs
      rcases List.mem_append.mp hem with he | he
      · exact absurd ((List.pairwise_append.mp hs).2.2 e he e' (by simp)) hle.not_gt
      · rw [List.mem_singleton.mp he]

theorem last?_eq_none {m : OrdMap κ ν} {p : κ → Bool} :
    m.last? p = none ↔ ∀ f ∈ m, ¬ p f.1 := by
  rw [last?, List.getLast?_eq_none_iff, List.filter_eq_nil_iff]
  exact Iff.rfl

theorem floor?_eq_some {m : OrdMap κ ν} {k : κ} {e : κ × ν} :
    m.floor? k = some e ↔ e ∈ m ∧ e.1 ≤ k ∧ ∀ f ∈ m, f.1 ≤ k → f.1 ≤ e.1 := by
  simp only [floor?, last?_eq_some, decide_eq_true_eq]

theorem floor?_eq_none {m : OrdMap κ ν} {k : κ} : m.floor? k = none ↔ ∀ f ∈ m, k < f.1 := by
  simp only [floor?, last?_eq_none, decide_eq_true_eq, not_le]

theorem below?_eq_some {m : OrdMap κ ν} {k : κ} {e : κ × ν} :
    m.below? k = some e ↔ e ∈ m ∧ e.1 < k ∧ ∀ f ∈ m, f.1 < k → f.1 ≤ e.1 := by
  simp only [below?, last?_eq_some, decide_eq_true_eq]

theorem below?_eq_none {m : OrdMap κ ν} {k : κ} : m.below? k = none ↔ ∀ f ∈ m, k ≤ f.1 := by
  simp only [below?, last?_eq_none, decide_eq_true_eq, not_lt]

theorem mem_keysIn {m : OrdMap κ ν} {lo hi k : κ} :
    k ∈ m.keysIn lo hi ↔ (∃ v, (k, v) ∈ m) ∧ lo ≤ k ∧ k < hi := by
  simp only [keysIn, List.mem_map, List.mem_filter, decide_eq_true_eq, Prod.exists, mem_def]
  constructor
  · rintro ⟨k', v, ⟨hm, hr⟩, rfl⟩
    exact ⟨⟨v, hm⟩, hr⟩
  · rintro ⟨⟨v, hm⟩, hr⟩
    exact ⟨k, v, ⟨hm, hr⟩, rfl⟩

theorem mem_values {m : OrdMap κ ν} {v : ν} : v ∈ m.values ↔ ∃ k, (k, v) ∈ m := by
  simp [values, mem_def]

end OrdMap

end Wie
