import Mathlib.Data.List.Pairwise
import Mathlib.Algebra.Order.Ring.Nat
import Mathlib.Tactic.Common

/-!
# Ordered lists of disjoint extents

A list of objects that each occupy a half-open range `[lo a, hi a)` of the natural numbers, in
increasing order and pairwise disjoint. Tables of allocations and sets of mappings both have this
shape, so the type of the objects and the two ends are parameters.

The three questions asked of such a list are whether inserting keeps it ordered, whether removing
does, and which element holds a given point. The last one is answered twice: by scanning, and by
bisection on the lower ends, which is where order is needed.

## Main definitions

* `Extents` — the list is in order, its elements non-empty and pairwise disjoint
* `insertBy` — insert before the first element with a greater lower end
* `bisect` — the number of lower ends at or below a point, by bisection

## Main results

* `Extents.insertBy`, `Extents.eraseP` — updates keep the order
* `Extents.unique` — a point is held by at most one element
* `bisect_spec` — what bisection returns on an ordered list
-/

namespace Wie

variable {α : Type} {lo hi : α → ℕ}

/-- The elements of `l` occupy non-empty ranges `[lo a, hi a)`, in increasing order and without
overlap. -/
structure Extents (lo hi : α → ℕ) (l : List α) : Prop where
  /-- No range is empty. -/
  pos : ∀ a ∈ l, lo a < hi a
  /-- Each range ends at or before the start of every later one. -/
  apart : l.Pairwise fun a b => hi a ≤ lo b

namespace Extents

theorem nil : Extents lo hi ([] : List α) := ⟨by simp, .nil⟩

theorem of_cons {a : α} {l : List α} (h : Extents lo hi (a :: l)) : Extents lo hi l :=
  ⟨fun b hb => h.pos b (List.mem_cons_of_mem _ hb), (List.pairwise_cons.mp h.apart).2⟩

theorem head_le {a b : α} {l : List α} (h : Extents lo hi (a :: l)) (hb : b ∈ l) :
    hi a ≤ lo b :=
  (List.pairwise_cons.mp h.apart).1 b hb

theorem sublist {l l' : List α} (h : Extents lo hi l) (hs : l'.Sublist l) : Extents lo hi l' :=
  ⟨fun a ha => h.pos a (hs.subset ha), h.apart.sublist hs⟩

/-- Two members are the same, or one ends before the other starts. -/
theorem trichotomy {l : List α} (h : Extents lo hi l) {a b : α} (ha : a ∈ l) (hb : b ∈ l) :
    a = b ∨ hi a ≤ lo b ∨ hi b ≤ lo a := by
  induction l with
  | nil => simp at ha
  | cons c l ih =>
    rcases List.mem_cons.mp ha with rfl | ha' <;> rcases List.mem_cons.mp hb with rfl | hb'
    · exact .inl rfl
    · exact .inr (.inl (h.head_le hb'))
    · exact .inr (.inr (h.head_le ha'))
    · exact ih h.of_cons ha' hb'

/-- A point is held by at most one member. -/
theorem unique {l : List α} (h : Extents lo hi l) {a b : α} (ha : a ∈ l) (hb : b ∈ l) {x : ℕ}
    (hxa : lo a ≤ x ∧ x < hi a) (hxb : lo b ≤ x ∧ x < hi b) : a = b := by
  rcases h.trichotomy ha hb with rfl | h | h
  · rfl
  · omega
  · omega

/-- Members with one lower end are one member. -/
theorem eq_of_lo_eq {l : List α} (h : Extents lo hi l) {a b : α} (ha : a ∈ l) (hb : b ∈ l)
    (hab : lo a = lo b) : a = b :=
  h.unique ha hb ⟨le_rfl, h.pos a ha⟩ ⟨hab.ge, hab ▸ h.pos b hb⟩

end Extents

/-! ### Inserting and removing -/

/-- Insert `x` before the first element whose lower end is greater. -/
def insertBy (lo : α → ℕ) (x : α) : List α → List α
  | [] => [x]
  | a :: l => if lo x < lo a then x :: a :: l else a :: insertBy lo x l

theorem mem_insertBy {x y : α} {l : List α} : y ∈ insertBy lo x l ↔ y = x ∨ y ∈ l := by
  induction l with
  | nil => simp [insertBy]
  | cons a l ih =>
    unfold insertBy
    split
    · simp
    · rw [List.mem_cons, ih, List.mem_cons]
      tauto

/-- An element apart from every member can be inserted. -/
theorem Extents.insertBy {l : List α} (h : Extents lo hi l) {x : α} (hx : lo x < hi x)
    (hd : ∀ a ∈ l, hi a ≤ lo x ∨ hi x ≤ lo a) : Extents lo hi (insertBy lo x l) := by
  induction l with
  | nil => exact ⟨by simpa [Wie.insertBy] using hx, by simp [Wie.insertBy]⟩
  | cons a l ih =>
    have hpa := h.pos a (by simp)
    have hda := hd a (by simp)
    unfold Wie.insertBy
    split
    · -- `x` starts before `a`, hence ends before `a` and everything after it
      refine ⟨?_, List.pairwise_cons.mpr ⟨fun b hb => ?_, h.apart⟩⟩
      · intro b hb
        rcases List.mem_cons.mp hb with rfl | hb
        · exact hx
        · exact h.pos b hb
      · rcases List.mem_cons.mp hb with rfl | hb
        · omega
        · have := h.head_le hb
          omega
    · have ih' := ih h.of_cons fun b hb => hd b (List.mem_cons_of_mem _ hb)
      refine ⟨?_, List.pairwise_cons.mpr ⟨fun b hb => ?_, ih'.apart⟩⟩
      · intro b hb
        rcases List.mem_cons.mp hb with rfl | hb
        · exact hpa
        · exact ih'.pos b hb
      · rcases mem_insertBy.mp hb with rfl | hb
        · omega
        · exact h.head_le hb

/-- Removing the member with lower end `k` removes nothing else. -/
theorem Extents.mem_eraseP_lo {l : List α} (h : Extents lo hi l) {k : ℕ} {b : α} :
    b ∈ l.eraseP (fun a => decide (lo a = k)) ↔ b ∈ l ∧ lo b ≠ k := by
  induction l with
  | nil => simp
  | cons a l ih =>
    by_cases hk : lo a = k
    · rw [List.eraseP_cons_of_pos (by simpa using hk), List.mem_cons]
      refine ⟨fun hb => ⟨.inr hb, ?_⟩, ?_⟩
      · have := h.head_le hb
        have := h.pos a (by simp)
        omega
      · rintro ⟨rfl | hb, hne⟩
        · exact absurd hk hne
        · exact hb
    · rw [List.eraseP_cons_of_neg (by simpa using hk), List.mem_cons, List.mem_cons, ih h.of_cons]
      constructor
      · rintro (rfl | ⟨hb, hne⟩)
        · exact ⟨.inl rfl, hk⟩
        · exact ⟨.inr hb, hne⟩
      · rintro ⟨rfl | hb, hne⟩
        · exact .inl rfl
        · exact .inr ⟨hb, hne⟩

/-! ### Bisection -/

/-- Bisect for the number of elements whose lower end is at or below `x`, within the window
`[i, j)`. The first argument bounds the number of rounds; the width of the window is enough. -/
def bisect (lo : α → ℕ) (l : List α) (x : ℕ) : ℕ → ℕ → ℕ → ℕ
  | 0, i, _ => i
  | fuel + 1, i, j =>
    if i < j then
      match l[i + (j - i) / 2]? with
      | none => i
      | some a =>
        if lo a ≤ x then bisect lo l x fuel (i + (j - i) / 2 + 1) j
        else bisect lo l x fuel i (i + (j - i) / 2)
    else i

/-- `r` separates the lower ends at or below `x` from those above it. -/
def Separates (lo : α → ℕ) (l : List α) (x r : ℕ) : Prop :=
  r ≤ l.length ∧ (∀ k a, k < r → l[k]? = some a → lo a ≤ x) ∧
    ∀ k a, r ≤ k → l[k]? = some a → x < lo a

theorem Extents.lo_mono {l : List α} (h : Extents lo hi l) {i j : ℕ} {a b : α}
    (ha : l[i]? = some a) (hb : l[j]? = some b) (hij : i ≤ j) : lo a ≤ lo b := by
  rcases Nat.eq_or_lt_of_le hij with rfl | hlt
  · rw [ha] at hb
    cases hb
    exact le_rfl
  · obtain ⟨hi', rfl⟩ := List.getElem?_eq_some_iff.mp ha
    obtain ⟨hj', rfl⟩ := List.getElem?_eq_some_iff.mp hb
    have h1 := List.pairwise_iff_getElem.mp h.apart i j hi' hj' hlt
    have h2 := h.pos l[i] (List.getElem_mem _)
    omega

/-- Bisection keeps the window between the two parts, so that when the window closes its position
separates them. -/
theorem bisect_spec {l : List α} (h : Extents lo hi l) (x : ℕ) : ∀ fuel i j : ℕ,
    j - i ≤ fuel → i ≤ j → j ≤ l.length →
    (∀ k a, k < i → l[k]? = some a → lo a ≤ x) →
    (∀ k a, j ≤ k → l[k]? = some a → x < lo a) →
    Separates lo l x (bisect lo l x fuel i j) := by
  intro fuel
  induction fuel with
  | zero =>
    intro i j hf hij hj hl hr
    obtain rfl : i = j := by omega
    exact ⟨hj, hl, hr⟩
  | succ fuel ih =>
    intro i j hf hij hj hl hr
    unfold bisect
    by_cases hlt : i < j
    · rw [if_pos hlt]
      have hmid : i + (j - i) / 2 < l.length := by omega
      rw [List.getElem?_eq_getElem hmid]
      have hget := List.getElem?_eq_getElem hmid
      dsimp only
      split
      · rename_i hle
        refine ih _ _ (by omega) (by omega) hj (fun k a hk ha => ?_) hr
        exact (h.lo_mono ha hget (by omega)).trans hle
      · rename_i hgt
        refine ih _ _ (by omega) (by omega) (by omega) hl fun k a hk ha => ?_
        have := h.lo_mono hget ha hk
        omega
    · rw [if_neg hlt]
      obtain rfl : i = j := by omega
      exact ⟨hj, hl, hr⟩

/-- The element just before the separating position is the only one that can hold `x`. -/
theorem Extents.getElem?_pred_of_separates {l : List α} (h : Extents lo hi l) {x r : ℕ}
    (hs : Separates lo l x r) {a : α} (ha : a ∈ l) (hx : lo a ≤ x ∧ x < hi a) :
    ∃ k, r = k + 1 ∧ l[k]? = some a := by
  obtain ⟨i, hi', rfl⟩ := List.getElem_of_mem ha
  have hget := List.getElem?_eq_getElem hi'
  have hir : i < r := by
    by_contra hge
    have := hs.2.2 i _ (by omega) hget
    omega
  refine ⟨r - 1, by omega, ?_⟩
  have hlast : i = r - 1 := by
    by_contra hne
    -- the next element also starts at or below `x`, yet it starts at or past the end of this one
    have hi1 : i + 1 < l.length := by have := hs.1; omega
    have hb := hs.2.1 (i + 1) _ (by omega) (List.getElem?_eq_getElem hi1)
    have := List.pairwise_iff_getElem.mp h.apart i (i + 1) hi' hi1 (by omega)
    omega
  rw [← hlast]
  exact hget

end Wie
