import Mathlib.Data.Nat.Notation
import Mathlib.Tactic.Common

/-!
# Steps until one fails

A step changes a state or fails and leaves it. So many steps are made one after the other, up to the
first that fails.

## Main definitions

* `iterateOk` — so many steps
* `FailsAt` — the first step that fails

## Main results

* `iterateOk_add` — some steps and then more
* `iterateOk_cases` — all steps are made, or one of them is the first that fails
-/

namespace Wie

variable {σ ε : Type} {step : σ → Except ε σ} {s s' : σ} {e : ε} {n k i : ℕ}

/-- `n` steps, up to the first that fails. -/
def iterateOk (step : σ → Except ε σ) : ℕ → σ → Except ε Unit × σ
  | 0, s => (.ok (), s)
  | n + 1, s =>
    match iterateOk step n s with
    | (.ok (), s₁) =>
      match step s₁ with
      | .ok s₂ => (.ok (), s₂)
      | .error e => (.error e, s₁)
    | (.error e, s₁) => (.error e, s₁)

/-- `i` steps are made, and the next one fails. -/
def FailsAt (step : σ → Except ε σ) (s : σ) (i : ℕ) (e : ε) (s' : σ) : Prop :=
  iterateOk step i s = (.ok (), s') ∧ step s' = .error e

theorem iterateOk_succ_ok (h : iterateOk step n s = (.ok (), s')) (s₂ : σ) (hs : step s' = .ok s₂) :
    iterateOk step (n + 1) s = (.ok (), s₂) := by
  rw [iterateOk, h]
  simp only [hs]

theorem iterateOk_succ_iff {s₂ : σ} : iterateOk step (n + 1) s = (.ok (), s₂) ↔
    ∃ s', iterateOk step n s = (.ok (), s') ∧ step s' = .ok s₂ := by
  constructor
  · intro h
    rw [iterateOk] at h
    rcases hn : iterateOk step n s with ⟨_ | ⟨⟩, s'⟩
    · rw [hn] at h
      cases h
    · rw [hn] at h
      cases hs : step s' with
      | error e =>
        simp only [hs] at h
        cases h
      | ok s₁ =>
        simp only [hs] at h
        cases h
        exact ⟨s', rfl, hs⟩
  · rintro ⟨s', h, hs⟩
    exact iterateOk_succ_ok h s₂ hs

theorem FailsAt.succ (h : FailsAt step s i e s') : iterateOk step (i + 1) s = (.error e, s') := by
  rw [iterateOk, h.1]
  simp only [h.2]

theorem iterateOk_error_add (h : iterateOk step n s = (.error e, s')) (k : ℕ) :
    iterateOk step (n + k) s = (.error e, s') := by
  induction k with
  | zero => exact h
  | succ k ih => rw [Nat.add_succ, iterateOk, ih]

/-- **Some steps and then more.** -/
theorem iterateOk_add (h : iterateOk step n s = (.ok (), s')) (k : ℕ) :
    iterateOk step (n + k) s = iterateOk step k s' := by
  induction k with
  | zero => exact h
  | succ k ih => rw [Nat.add_succ, iterateOk, ih, iterateOk]

/-- A first step and then the others. -/
theorem iterateOk_cons (hs : step s = .ok s') (n : ℕ) :
    iterateOk step (n + 1) s = iterateOk step n s' := by
  rw [Nat.add_comm]
  exact iterateOk_add (iterateOk_succ_ok rfl s' hs) n

/-- Where fewer steps fail, more do too. -/
theorem FailsAt.of_lt (h : FailsAt step s i e s') (hi : i < n) :
    iterateOk step n s = (.error e, s') := by
  rw [← Nat.add_sub_of_le hi]
  exact iterateOk_error_add h.succ (n - (i + 1))

/-- **All steps are made, or one of them is the first that fails.** -/
theorem iterateOk_cases (step : σ → Except ε σ) (n : ℕ) (s : σ) :
    (∃ s', iterateOk step n s = (.ok (), s')) ∨ ∃ i < n, ∃ e s', FailsAt step s i e s' := by
  induction n with
  | zero => exact .inl ⟨s, rfl⟩
  | succ n ih =>
    rcases ih with ⟨s', h⟩ | ⟨i, hi, hf⟩
    · cases hs : step s' with
      | ok s₂ => exact .inl ⟨s₂, iterateOk_succ_ok h s₂ hs⟩
      | error e => exact .inr ⟨n, n.lt_succ_self, e, s', h, hs⟩
    · exact .inr ⟨i, Nat.lt_succ_of_lt hi, hf⟩

/-- Fewer steps are made too. -/
theorem iterateOk_of_le (h : iterateOk step n s = (.ok (), s')) (hk : k ≤ n) :
    ∃ s₁, iterateOk step k s = (.ok (), s₁) := by
  rcases iterateOk_cases step k s with hok | ⟨i, hi, e, s₁, hf⟩
  · exact hok
  · cases (hf.of_lt (Nat.lt_of_lt_of_le hi hk)).symm.trans h

/-- There is one first step that fails. -/
theorem FailsAt.unique {e' : ε} {s₁ : σ} (h : FailsAt step s i e s') (h' : FailsAt step s k e' s₁) :
    i = k := by
  rcases Nat.lt_trichotomy i k with hlt | heq | hlt
  · cases (h.of_lt hlt).symm.trans h'.1
  · exact heq
  · cases (h'.of_lt hlt).symm.trans h.1

/-- The first step that fails, after some that do not. -/
theorem FailsAt.add_iff (h : iterateOk step n s = (.ok (), s')) {s₁ : σ} :
    FailsAt step s (n + i) e s₁ ↔ FailsAt step s' i e s₁ := by
  rw [FailsAt, FailsAt, iterateOk_add h]

end Wie
