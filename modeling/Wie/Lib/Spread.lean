import Mathlib.Tactic.Common
import Mathlib.Algebra.Order.Ring.Nat

/-!
# Growing a range by jumps

A range around a point is grown to both sides, as far as a property of the points holds and a limit
permits. The property is not tested point by point: a question about one point is answered by the
end of a stretch on which it holds, and the range grows by that stretch at once.

Nothing is asked of the stretches. They may overlap, and they may end before the property does.

## Main definitions

* `spreadDown`, `spreadUp` — the two loops
* `StretchDown`, `StretchUp` — the answers are right

## Main results

* `spreadDown_spec`, `spreadUp_spec` — the range that is reached is maximal
-/

namespace Wie

variable {P : ℕ → Prop} {ask : ℕ → Option ℕ} {lo hi : ℕ}

/-- Move `i` down to `lo`, as long as the point below `i` has an answer. The first argument bounds
the number of rounds. -/
def spreadDown (ask : ℕ → Option ℕ) (lo : ℕ) : ℕ → ℕ → ℕ
  | 0, i => i
  | fuel + 1, i =>
    if lo < i then
      match ask (i - 1) with
      | some start => spreadDown ask lo fuel (max start lo)
      | none => i
    else i

/-- Move `i` up to `hi`, as long as the point at `i` has an answer. The first argument bounds the
number of rounds. -/
def spreadUp (ask : ℕ → Option ℕ) (hi : ℕ) : ℕ → ℕ → ℕ
  | 0, i => i
  | fuel + 1, i =>
    if i < hi then
      match ask i with
      | some stop => spreadUp ask hi fuel (min stop hi)
      | none => i
    else i

/-- An answer is the first point of a stretch up to the point asked for; there is none exactly
where the property fails. -/
structure StretchDown (P : ℕ → Prop) (ask : ℕ → Option ℕ) : Prop where
  /-- The stretch holds the point, and the property holds on it. -/
  some : ∀ {p start}, ask p = some start → start ≤ p ∧ ∀ q, start ≤ q → q ≤ p → P q
  /-- Without an answer the property fails. -/
  none : ∀ {p}, ask p = none → ¬ P p

/-- An answer is the end of a stretch from the point asked for; there is none exactly where the
property fails. -/
structure StretchUp (P : ℕ → Prop) (ask : ℕ → Option ℕ) : Prop where
  /-- The stretch holds the point, and the property holds on it. -/
  some : ∀ {p stop}, ask p = some stop → p < stop ∧ ∀ q, p ≤ q → q < stop → P q
  /-- Without an answer the property fails. -/
  none : ∀ {p}, ask p = none → ¬ P p

/-- **Growing down reaches the first point of the range**: the property holds on what was added,
and at the point below it fails, or is outside the limit. -/
theorem spreadDown_spec (h : StretchDown P ask) {fuel i : ℕ} (hlo : lo ≤ i)
    (hfuel : i - lo ≤ fuel) :
    lo ≤ spreadDown ask lo fuel i ∧ spreadDown ask lo fuel i ≤ i ∧
      (∀ q, spreadDown ask lo fuel i ≤ q → q < i → P q) ∧
      (lo < spreadDown ask lo fuel i → ¬ P (spreadDown ask lo fuel i - 1)) := by
  induction fuel generalizing i with
  | zero =>
    have hi : i = lo := by omega
    subst hi
    exact ⟨le_rfl, le_rfl, fun q h1 h2 => absurd h2 (not_lt.mpr h1),
      fun h1 => absurd h1 (lt_irrefl _)⟩
  | succ fuel ih =>
    rw [spreadDown]
    split
    · rename_i hlt
      split
      · rename_i start hask
        obtain ⟨hle, hall⟩ := h.some hask
        have hdown : max start lo ≤ i - 1 := max_le hle (by omega)
        obtain ⟨h1, h2, h3, h4⟩ := ih (i := max start lo) (le_max_right _ _) (by omega)
        refine ⟨h1, by omega, fun q hq hqi => ?_, h4⟩
        by_cases hin : q < max start lo
        · exact h3 q hq hin
        · have hmax := le_max_left start lo
          exact hall q (by omega) (by omega)
      · rename_i hask
        exact ⟨hlo, le_rfl, fun q h1 h2 => absurd h2 (not_lt.mpr h1), fun _ => h.none hask⟩
    · exact ⟨hlo, le_rfl, fun q h1 h2 => absurd h2 (not_lt.mpr h1), fun h1 => by contradiction⟩

/-- **Growing up reaches the end of the range**: the property holds on what was added, and at the
end it fails, or the end is the limit. -/
theorem spreadUp_spec (h : StretchUp P ask) {fuel i : ℕ} (hhi : i ≤ hi) (hfuel : hi - i ≤ fuel) :
    i ≤ spreadUp ask hi fuel i ∧ spreadUp ask hi fuel i ≤ hi ∧
      (∀ q, i ≤ q → q < spreadUp ask hi fuel i → P q) ∧
      (spreadUp ask hi fuel i < hi → ¬ P (spreadUp ask hi fuel i)) := by
  induction fuel generalizing i with
  | zero =>
    have hi' : i = hi := by omega
    subst hi'
    exact ⟨le_rfl, le_rfl, fun q h1 h2 => absurd h2 (not_lt.mpr h1),
      fun h1 => absurd h1 (lt_irrefl _)⟩
  | succ fuel ih =>
    rw [spreadUp]
    split
    · rename_i hlt
      split
      · rename_i stop hask
        obtain ⟨hle, hall⟩ := h.some hask
        have hup : i < min stop hi := lt_min hle hlt
        obtain ⟨h1, h2, h3, h4⟩ := ih (i := min stop hi) (min_le_right _ _) (by omega)
        refine ⟨by omega, h2, fun q hiq hq => ?_, h4⟩
        by_cases hin : q < min stop hi
        · have hmin := min_le_left stop hi
          exact hall q hiq (by omega)
        · exact h3 q (by omega) hq
      · rename_i hask
        exact ⟨le_rfl, hhi, fun q h1 h2 => absurd h2 (not_lt.mpr h1), fun _ => h.none hask⟩
    · exact ⟨le_rfl, hhi, fun q h1 h2 => absurd h2 (not_lt.mpr h1), fun h1 => by contradiction⟩

end Wie
