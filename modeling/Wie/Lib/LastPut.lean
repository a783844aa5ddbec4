import Mathlib.Logic.Function.Basic
import Mathlib.Data.List.Basic

/-!
# Maps that a loop fills

A loop over `0, …, n - 1` puts at most one pair into a map at each index. What the map has for a key
in the end is the value of the last index that put the key.

## Main definitions

* `putAll` — put one pair after the other
* `LastPut` — an index is the last one that puts a key, and the value

## Main results

* `putAll_range_eq_some_iff` — what the map has in the end
-/

namespace Wie

variable {κ ν : Type*} {k : κ} {v : ν}

/-- The index `i` below `n` puts `v` for `k`, and no later one puts `k`. -/
def LastPut (put : ℕ → Option (κ × ν)) (n : ℕ) (k : κ) (v : ν) (i : ℕ) : Prop :=
  i < n ∧ put i = some (k, v) ∧ ∀ j, i < j → j < n → ∀ w, put j ≠ some (k, w)

/-- An index that does not put the key does not matter. -/
theorem lastPut_succ_iff {put : ℕ → Option (κ × ν)} {n i : ℕ} (h : ∀ w, put n ≠ some (k, w)) :
    LastPut put (n + 1) k v i ↔ LastPut put n k v i := by
  constructor
  · rintro ⟨h1, h2, h3⟩
    have hne : i ≠ n := by
      rintro rfl
      exact h v h2
    exact ⟨by omega, h2, fun j hj hjn => h3 j hj (by omega)⟩
  · rintro ⟨h1, h2, h3⟩
    refine ⟨by omega, h2, fun j hj hjn => ?_⟩
    rcases Nat.lt_succ_iff_lt_or_eq.mp hjn with hlt | rfl
    · exact h3 j hj hlt
    · exact h

/-- A key that is put is put by a last index. -/
theorem exists_lastPut {put : ℕ → Option (κ × ν)} {n : ℕ} (h : ∃ i < n, ∃ w, put i = some (k, w)) :
    ∃ w i, LastPut put n k w i := by
  induction n with
  | zero =>
    obtain ⟨i, hi, -⟩ := h
    exact absurd hi (Nat.not_lt_zero i)
  | succ n ih =>
    by_cases hn : ∃ w, put n = some (k, w)
    · obtain ⟨w, hw⟩ := hn
      exact ⟨w, n, Nat.lt_succ_self n, hw, fun j _ _ => by omega⟩
    · obtain ⟨i, hi, w, hw⟩ := h
      have hne : i ≠ n := by
        rintro rfl
        exact hn ⟨w, hw⟩
      obtain ⟨w', i', hlast⟩ := ih ⟨i, by omega, w, hw⟩
      exact ⟨w', i', (lastPut_succ_iff fun w hw => hn ⟨w, hw⟩).mpr hlast⟩

theorem filterMap_range_succ {α : Type*} (f : ℕ → Option α) (n : ℕ) :
    (List.range (n + 1)).filterMap f = (List.range n).filterMap f ++ (f n).toList := by
  rw [List.range_succ, List.filterMap_append, List.filterMap_cons, List.filterMap_nil]
  cases f n with
  | none => rfl
  | some a => rfl

variable [DecidableEq κ] {m : κ → Option ν}

/-- Put one pair after the other into a map. -/
def putAll (m : κ → Option ν) (pairs : List (κ × ν)) : κ → Option ν :=
  pairs.foldl (fun m p => Function.update m p.1 (some p.2)) m

theorem putAll_nil (m : κ → Option ν) : putAll m [] = m := rfl

theorem putAll_append (m : κ → Option ν) (ps qs : List (κ × ν)) :
    putAll m (ps ++ qs) = putAll (putAll m ps) qs :=
  List.foldl_append

theorem putAll_toList (m : κ → Option ν) (p : Option (κ × ν)) : putAll m p.toList k =
    match p with
    | some p => if k = p.1 then some p.2 else m k
    | none => m k := by
  cases p with
  | none => rfl
  | some p => exact Function.update_apply m p.1 (some p.2) k

/-- **What the map has in the end.** -/
theorem putAll_range_eq_some_iff (put : ℕ → Option (κ × ν)) (n : ℕ) :
    putAll (fun _ => none) ((List.range n).filterMap put) k = some v ↔
      ∃ i, LastPut put n k v i := by
  induction n with
  | zero => exact iff_of_false (by simp [putAll_nil]) fun ⟨i, h⟩ => absurd h.1 (Nat.not_lt_zero i)
  | succ n ih =>
    rw [filterMap_range_succ, putAll_append, putAll_toList]
    cases hput : put n with
    | none => exact ih.trans (exists_congr fun i => (lastPut_succ_iff (by simp [hput])).symm)
    | some p =>
      obtain ⟨k', v'⟩ := p
      simp only
      by_cases hk : k = k'
      · subst hk
        rw [if_pos rfl]
        constructor
        · intro h
          exact ⟨n, by omega, by rw [hput, Option.some_inj.mp h], fun j _ _ => by omega⟩
        · rintro ⟨i, h1, h2, h3⟩
          rcases Nat.lt_succ_iff_lt_or_eq.mp h1 with hlt | rfl
          · exact absurd hput (h3 n hlt (Nat.lt_succ_self n) v')
          · rw [hput] at h2
            exact congrArg (fun p => p.map Prod.snd) h2
      · have hother : ∀ w, put n ≠ some (k, w) := by
          intro w hw
          rw [hput] at hw
          exact hk (congrArg Prod.fst (Option.some_inj.mp hw)).symm
        rw [if_neg hk]
        exact ih.trans (exists_congr fun i => (lastPut_succ_iff hother).symm)

end Wie
