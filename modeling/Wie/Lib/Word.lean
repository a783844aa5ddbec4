import Mathlib.Tactic.Common
import Mathlib.Algebra.Order.Ring.Nat

/-!
# Sixty-four-bit arithmetic on natural numbers

Addresses, lengths and counters are natural numbers below `2 ^ 64`. Only the operations that can
see the bound are given names: the ones that stick at the top, the ones that fail past it, and
rounding to a multiple, whose upward form sticks.

Everything is total. A number above the bound is not an error here; it makes the checked
operations fail, which is what the callers want to know about it.

## Main definitions

* `satAdd`, `satMul`, `checkedAdd` — arithmetic that sees the bound
* `alignDown`, `alignUp` — rounding to a multiple

## Main results

* `checkedAdd_eq_some` — a checked sum is the sum, and it is below the bound
* `alignUp_eq_of_lt` — rounding up is exact whenever it stays below the bound
-/

namespace Wie

/-- Addition that sticks at `2 ^ 64 - 1`. -/
def satAdd (a b : ℕ) : ℕ := min (a + b) (2 ^ 64 - 1)

/-- Multiplication that sticks at `2 ^ 64 - 1`. -/
def satMul (a b : ℕ) : ℕ := min (a * b) (2 ^ 64 - 1)

/-- Addition in 32 bits that stops at the top. -/
def satAdd32 (a b : ℕ) : ℕ := min (a + b) (2 ^ 32 - 1)

/-- Addition that fails at `2 ^ 64`. -/
def checkedAdd (a b : ℕ) : Option ℕ := if a + b < 2 ^ 64 then some (a + b) else none

theorem satAdd_of_lt {a b : ℕ} (h : a + b < 2 ^ 64) : satAdd a b = a + b := by
  unfold satAdd
  omega

theorem satAdd_le (a b : ℕ) : satAdd a b ≤ a + b := min_le_left _ _

theorem satAdd_lt (a b : ℕ) : satAdd a b < 2 ^ 64 := by
  unfold satAdd
  omega

theorem satMul_of_lt {a b : ℕ} (h : a * b < 2 ^ 64) : satMul a b = a * b := by
  unfold satMul
  omega

@[simp] theorem checkedAdd_eq_some {a b c : ℕ} :
    checkedAdd a b = some c ↔ a + b = c ∧ c < 2 ^ 64 := by
  unfold checkedAdd
  split <;> simp <;> omega

@[simp] theorem checkedAdd_eq_none {a b : ℕ} : checkedAdd a b = none ↔ 2 ^ 64 ≤ a + b := by
  unfold checkedAdd
  split <;> simp <;> omega

/-! ### Rounding -/

/-- Round `x` down to a multiple of `gran`. -/
def alignDown (x gran : ℕ) : ℕ := if gran = 0 then x else x / gran * gran

/-- Round `x` up to a multiple of `gran`, sticking at `2 ^ 64 - 1`. -/
def alignUp (x gran : ℕ) : ℕ :=
  if gran = 0 then x
  else if x % gran = 0 then x
  else satAdd x (gran - x % gran)

theorem alignDown_le (x gran : ℕ) : alignDown x gran ≤ x := by
  unfold alignDown
  split
  · exact le_rfl
  · exact Nat.div_mul_le_self x gran

theorem alignDown_dvd {gran : ℕ} (hg : 0 < gran) (x : ℕ) : gran ∣ alignDown x gran := by
  rw [alignDown, if_neg (by omega)]
  exact dvd_mul_left _ _

theorem lt_alignDown_add {gran : ℕ} (hg : 0 < gran) (x : ℕ) : x < alignDown x gran + gran := by
  rw [alignDown, if_neg (by omega)]
  have := Nat.lt_div_mul_add hg (a := x)
  omega

/-- Rounding up either sticks at the top or is the least multiple at or above `x`. -/
theorem alignUp_cases {gran : ℕ} (hg : 0 < gran) (x : ℕ) :
    alignUp x gran = 2 ^ 64 - 1 ∨
      (gran ∣ alignUp x gran ∧ x ≤ alignUp x gran ∧ alignUp x gran < x + gran) := by
  unfold alignUp
  rw [if_neg (by omega)]
  have hmod := Nat.mod_lt x hg
  split
  · rename_i h
    exact .inr ⟨Nat.dvd_of_mod_eq_zero h, le_rfl, by omega⟩
  · by_cases hs : x + (gran - x % gran) < 2 ^ 64
    · rw [satAdd_of_lt hs]
      refine .inr ⟨?_, by omega, by omega⟩
      refine ⟨x / gran + 1, ?_⟩
      have := Nat.div_add_mod x gran
      rw [Nat.mul_add, Nat.mul_one]
      omega
    · exact .inl (by unfold satAdd; omega)

theorem le_alignUp {x : ℕ} (hx : x < 2 ^ 64) (gran : ℕ) : x ≤ alignUp x gran := by
  unfold alignUp satAdd
  split
  · exact le_rfl
  · split <;> omega

theorem alignUp_lt {x gran : ℕ} (hx : x < 2 ^ 64) : alignUp x gran < 2 ^ 64 := by
  unfold alignUp
  split
  · exact hx
  · split
    · exact hx
    · exact satAdd_lt _ _

/-- The addresses of one unit of size `gran` have one quotient. -/
theorem div_eq_of_mod_eq_zero {x y gran : ℕ} (hg : 0 < gran) (hx : x % gran = 0) (h1 : x ≤ y)
    (h2 : y < x + gran) : x / gran = y / gran := by
  symm
  rw [Nat.div_eq_iff hg, Nat.div_mul_cancel (Nat.dvd_of_mod_eq_zero hx)]
  omega

end Wie
