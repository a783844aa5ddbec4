import Mathlib.Data.Fintype.Basic

/-!
# Register banks

A bank holds one value for each of `n` registers, and a mask is a set of registers. Copies between
two banks go under a mask, and code that stores to some registers only is a partial bank.

## Main definitions

* `Bank.merge` — the copy of one bank into another under a mask
* `Bank.patch` — a bank after the stores of a partial one
* `Bank.stored` — the registers a partial bank stores to
-/

namespace Wie

/-- One value for each of `n` registers. -/
abbrev Bank (n : ℕ) (α : Type) := Fin n → α

/-- The registers of a bank of 16 are written as numerals. -/
instance neZeroRegs : @NeZero ℕ Zero.ofOfNat0 16 := ⟨Nat.succ_ne_zero 15⟩

namespace Bank

variable {n : ℕ} {α : Type} {m : Finset (Fin n)} {a b : Bank n α} {i : Fin n}

/-- `old` with the registers of `m` taken from `new`. -/
def merge (m : Finset (Fin n)) (new old : Bank n α) : Bank n α :=
  fun i => if i ∈ m then new i else old i

/-- `old` after the stores of `w`. -/
def patch (w : Bank n (Option α)) (old : Bank n α) : Bank n α := fun i => (w i).getD (old i)

/-- The registers `w` stores to. -/
def stored (w : Bank n (Option α)) : Finset (Fin n) := Finset.univ.filter fun i => (w i).isSome

theorem merge_of_mem (h : i ∈ m) : merge m a b i = a i := if_pos h

theorem merge_of_notMem (h : i ∉ m) : merge m a b i = b i := if_neg h

@[simp]
theorem merge_univ (a b : Bank n α) : merge Finset.univ a b = a := by
  funext i
  exact merge_of_mem (Finset.mem_univ i)

/-- A copy gives the new bank when the registers it leaves out agree already. -/
theorem merge_eq_left (h : ∀ i ∉ m, b i = a i) : merge m a b = a := by
  funext i
  by_cases hi : i ∈ m
  · exact merge_of_mem hi
  · rw [merge_of_notMem hi, h i hi]

@[simp]
theorem mem_stored {w : Bank n (Option α)} : i ∈ stored w ↔ (w i).isSome = true := by
  simp [stored]

theorem patch_of_stored {w : Bank n (Option α)} (h : i ∈ stored w) (a b : Bank n α) :
    patch w a i = patch w b i := by
  obtain ⟨v, hv⟩ := Option.isSome_iff_exists.mp (mem_stored.mp h)
  simp [patch, hv]

theorem patch_of_notStored {w : Bank n (Option α)} (h : i ∉ stored w) (a : Bank n α) :
    patch w a i = a i := by
  rw [mem_stored, Option.not_isSome_iff_eq_none] at h
  simp [patch, h]

end Bank

end Wie
