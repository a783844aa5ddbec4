import Mathlib.Data.List.Count
import Mathlib.Data.List.Perm.Basic
import Wie.Lib.OrdMap

/-!
# Counters that vanish at zero

A map from keys to counters that stop at a bound, where a key that counts nothing has no entry. It
counts how often each key occurs in a collection that changes by whole lists of keys, so that asking
whether a key occurs is asking whether it has an entry.

A counter that has reached its bound no longer knows how far down it has to be counted. So what is
asked is that no key occurs more often than the bound.

## Main definitions

* `Tally.add`, `Tally.sub`, `Tally.addAll`, `Tally.subAll` — counting up and down
* `Tallies` — the map has the counts of a function

## Main results

* `Tallies.addAll`, `Tallies.subAll` — the counts after a list of keys
* `OrdMap.perm_insert`, `OrdMap.perm_erase` — the entries of a map after an update, up to order
-/

namespace Wie

variable {κ ν : Type} [LinearOrder κ]

/-! ### Entries after an update -/

namespace OrdMap

theorem nodup_entries (m : OrdMap κ ν) : m.entries.Nodup :=
  m.sorted.imp fun {a b} h => show a ≠ b from fun he => (he ▸ h).ne rfl

/-- The entries after an update are the new one and those of the other keys. -/
theorem perm_insert (m : OrdMap κ ν) (k : κ) (v : ν) :
    (m.insert k v).entries.Perm ((k, v) :: (m.erase k).entries) := by
  have hnot : (k, v) ∉ (m.erase k).entries := fun h => (mem_erase.mp h).1 rfl
  refine (List.perm_ext_iff_of_nodup (nodup_entries _)
    (List.nodup_cons.mpr ⟨hnot, nodup_entries _⟩)).mpr fun e => ?_
  rw [List.mem_cons]
  exact mem_insert.trans (or_congr_right mem_erase.symm)

/-- The entries of a map are that of a key and those of the other keys. -/
theorem perm_erase {m : OrdMap κ ν} {k : κ} {v : ν} (h : m.get? k = some v) :
    m.entries.Perm ((k, v) :: (m.erase k).entries) := by
  have hmem := get?_eq_some.mp h
  have hnot : (k, v) ∉ (m.erase k).entries := fun h => (mem_erase.mp h).1 rfl
  refine (List.perm_ext_iff_of_nodup (nodup_entries _)
    (List.nodup_cons.mpr ⟨hnot, nodup_entries _⟩)).mpr fun e => ?_
  rw [List.mem_cons]
  constructor
  · intro he
    by_cases hk : e.1 = k
    · obtain ⟨k', w⟩ := e
      obtain rfl : k' = k := hk
      exact .inl (by rw [value_unique he hmem])
    · exact .inr (mem_erase.mpr ⟨hk, he⟩)
  · rintro (rfl | he)
    · exact hmem
    · exact (mem_erase.mp he).2

theorem erase_of_get?_eq_none {m : OrdMap κ ν} {k : κ} (h : m.get? k = none) : m.erase k = m := by
  refine OrdMap.ext (List.filter_eq_self.mpr fun e he => ?_)
  refine decide_eq_true fun hk => ?_
  have : m.get? k = some e.2 := get?_eq_some.mpr (hk ▸ he)
  rw [h] at this
  cases this

theorem get?_insert (m : OrdMap κ ν) (k k' : κ) (v : ν) :
    (m.insert k v).get? k' = if k' = k then some v else m.get? k' := by
  refine Option.ext fun w => ?_
  rw [get?_eq_some, mem_insert]
  split_ifs with h
  · simp [h, eq_comm]
  · simp [h, get?_eq_some]

theorem get?_erase (m : OrdMap κ ν) (k k' : κ) :
    (m.erase k).get? k' = if k' = k then none else m.get? k' := by
  refine Option.ext fun w => ?_
  rw [get?_eq_some, mem_erase]
  split_ifs with h
  · simp [h]
  · simp [h, get?_eq_some]

@[simp] theorem get?_empty (k : κ) : (empty : OrdMap κ ν).get? k = none := rfl

end OrdMap

/-! ### Counting -/

namespace Tally

/-- One more of `k`; counters stop at `top`. -/
def add (top : ℕ) (m : OrdMap κ ℕ) (k : κ) : OrdMap κ ℕ :=
  match m.get? k with
  | some c => m.insert k (min (c + 1) top)
  | none => m.insert k 1

/-- One fewer of `k`, if there is any. -/
def sub (m : OrdMap κ ℕ) (k : κ) : OrdMap κ ℕ :=
  match m.get? k with
  | some c => if c > 1 then m.insert k (c - 1) else m.erase k
  | none => m

/-- One more of every key of a list. -/
def addAll (top : ℕ) (m : OrdMap κ ℕ) (ks : List κ) : OrdMap κ ℕ := ks.foldl (add top) m

/-- One fewer of every key of a list. -/
def subAll (m : OrdMap κ ℕ) (ks : List κ) : OrdMap κ ℕ := ks.foldl sub m

end Tally

/-- The counters are those of `f`, and what counts nothing has no entry. -/
def Tallies (m : OrdMap κ ℕ) (f : κ → ℕ) : Prop :=
  ∀ k, m.get? k = if f k = 0 then none else some (f k)

namespace Tallies

variable {m : OrdMap κ ℕ} {f g : κ → ℕ} {top : ℕ} {k : κ}

theorem congr (h : Tallies m f) (hfg : ∀ k, f k = g k) : Tallies m g := by
  intro k
  rw [← hfg]
  exact h k

theorem empty : Tallies (OrdMap.empty : OrdMap κ ℕ) fun _ => 0 := fun _ => rfl

/-- What occurs has an entry, and nothing else has. -/
theorem isSome_iff (h : Tallies m f) : (m.get? k).isSome = true ↔ f k ≠ 0 := by
  rw [h k]
  split_ifs with h0 <;> simp [h0]

/-- Setting one counter, to a value that is not zero or by taking the entry away. -/
theorem set (h : Tallies m f) {m' : OrdMap κ ℕ} {c : ℕ}
    (hk : m'.get? k = if c = 0 then none else some c)
    (hrest : ∀ k', k' ≠ k → m'.get? k' = m.get? k') : Tallies m' (Function.update f k c) := by
  intro k'
  by_cases hk' : k' = k
  · rw [hk', Function.update_self, hk]
  · rw [Function.update_of_ne hk', hrest k' hk', h k']

theorem add (h : Tallies m f) (hk : f k < top) :
    Tallies (Tally.add top m k) (Function.update f k (f k + 1)) := by
  have hget := h k
  have hins {c : ℕ} (hc : c = f k + 1) :
      Tallies (m.insert k c) (Function.update f k (f k + 1)) := by
    refine h.set ?_ fun k' hk' => by rw [OrdMap.get?_insert, if_neg hk']
    rw [OrdMap.get?_insert, if_pos rfl, hc, if_neg (Nat.succ_ne_zero _)]
  rw [Tally.add]
  split_ifs at hget with h0
  · rw [hget]
    exact hins (by rw [h0])
  · rw [hget]
    exact hins (Nat.min_eq_left hk)

theorem sub (h : Tallies m f) (k : κ) :
    Tallies (Tally.sub m k) (Function.update f k (f k - 1)) := by
  have hget := h k
  rw [Tally.sub]
  split_ifs at hget with h0
  · rw [hget]
    exact h.set (by rw [hget, h0]; rfl) fun _ _ => rfl
  · rw [hget]
    show Tallies (if f k > 1 then m.insert k (f k - 1) else m.erase k) _
    split_ifs with h1
    · refine h.set ?_ fun k' hk' => by rw [OrdMap.get?_insert, if_neg hk']
      rw [OrdMap.get?_insert, if_pos rfl, if_neg (by omega)]
    · refine h.set ?_ fun k' hk' => by rw [OrdMap.get?_erase, if_neg hk']
      rw [OrdMap.get?_erase, if_pos rfl, if_pos (by omega)]

/-- **Counting up over a list.** -/
theorem addAll : ∀ (ks : List κ) {m : OrdMap κ ℕ} {f : κ → ℕ}, Tallies m f →
    (∀ k, f k + ks.count k ≤ top) →
    Tallies (Tally.addAll top m ks) fun k => f k + ks.count k := by
  intro ks
  induction ks with
  | nil => exact fun h _ => h
  | cons k ks ih =>
    intro m f h hle
    have hk : f k < top := by
      have := hle k
      rw [List.count_cons_self] at this
      omega
    have hcount (k' : κ) : Function.update f k (f k + 1) k' + ks.count k' =
        f k' + (k :: ks).count k' := by
      rw [Function.update_apply]
      split_ifs with h'
      · rw [h', List.count_cons_self]
        omega
      · rw [List.count_cons_of_ne (Ne.symm h')]
    exact (ih (h.add hk) fun k' => by rw [hcount]; exact hle k').congr hcount

/-- **Counting down over a list.** -/
theorem subAll : ∀ (ks : List κ) {m : OrdMap κ ℕ} {f : κ → ℕ}, Tallies m f →
    Tallies (Tally.subAll m ks) fun k => f k - ks.count k := by
  intro ks
  induction ks with
  | nil => exact fun h => h
  | cons k ks ih =>
    intro m f h
    have hcount (k' : κ) : Function.update f k (f k - 1) k' - ks.count k' =
        f k' - (k :: ks).count k' := by
      rw [Function.update_apply]
      split_ifs with h'
      · rw [h', List.count_cons_self]
        omega
      · rw [List.count_cons_of_ne (Ne.symm h')]
    exact (ih (h.sub k)).congr hcount

end Tallies

end Wie
