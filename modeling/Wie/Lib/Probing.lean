import Mathlib.Algebra.Order.Ring.Nat
import Mathlib.Logic.Function.Basic

/-!
# Linear probing

A table of slots, each with a key or empty. A key is looked for from the slot on that its hash
names, and slots wrap around. Keys are never taken out, but a full table gives up some key for a new
one.

What a table has to guarantee is that there is no empty slot between where a key is looked for and
where it is, and that no key is there twice.

## Main definitions

* `after` — the slot so many places on
* `probe` — the first slot that qualifies
* `Probed` — the guarantee
* `place` — where a key goes

## Main results

* `Probed.update` — the guarantee is kept
* `Probed.eq_place` — a key that is there is replaced
-/

namespace Wie

variable {K : Type} {n : ℕ} [NeZero n]

/-! ### Slots -/

/-- The slot `d` places on from `i`. -/
def after (i : Fin n) (d : ℕ) : Fin n :=
  ⟨(i.val + d) % n, Nat.mod_lt _ (Nat.pos_of_ne_zero (NeZero.ne n))⟩

@[simp]
theorem after_zero (i : Fin n) : after i 0 = i := Fin.ext (Nat.mod_eq_of_lt i.isLt)

theorem after_after (i : Fin n) (d e : ℕ) : after (after i d) e = after i (d + e) := by
  apply Fin.ext
  show ((i.val + d) % n + e) % n = (i.val + (d + e)) % n
  rw [Nat.mod_add_mod, Nat.add_assoc]

/-- Every slot is some places on. -/
theorem exists_after_eq (i j : Fin n) : ∃ d < n, after i d = j := by
  have hi := i.isLt
  have hj := j.isLt
  rcases Nat.lt_or_ge j.val i.val with h | h
  · refine ⟨j.val + n - i.val, by omega, Fin.ext ?_⟩
    show (i.val + (j.val + n - i.val)) % n = j.val
    rw [show i.val + (j.val + n - i.val) = j.val + n by omega, Nat.add_mod_right,
      Nat.mod_eq_of_lt hj]
  · refine ⟨j.val - i.val, by omega, Fin.ext ?_⟩
    show (i.val + (j.val - i.val)) % n = j.val
    rw [Nat.add_sub_cancel' h, Nat.mod_eq_of_lt hj]

/-! ### Probes -/

/-- The first of `fuel` slots from `i` on that qualifies. -/
def probe (p : Fin n → Bool) : ℕ → Fin n → Option (Fin n)
  | 0, _ => none
  | fuel + 1, i => if p i then some i else probe p fuel (after i 1)

theorem probe_eq_some {p : Fin n → Bool} {fuel : ℕ} {i j : Fin n} (h : probe p fuel i = some j) :
    p j = true ∧ ∃ d < fuel, after i d = j ∧ ∀ e < d, p (after i e) = false := by
  induction fuel generalizing i with
  | zero => cases h
  | succ fuel ih =>
    rw [probe] at h
    split at h
    · rename_i hp
      cases h
      exact ⟨hp, 0, Nat.succ_pos _, after_zero _, fun e he => absurd he (Nat.not_lt_zero e)⟩
    · rename_i hp
      obtain ⟨hj, d, hd, rfl, hbefore⟩ := ih h
      refine ⟨hj, d + 1, Nat.succ_lt_succ hd, ?_, fun e he => ?_⟩
      · rw [after_after, Nat.add_comm]
      · cases e with
        | zero =>
          rw [after_zero]
          exact (Bool.not_eq_true _).mp hp
        | succ e =>
          have := hbefore e (Nat.lt_of_succ_lt_succ he)
          rwa [after_after, Nat.add_comm] at this

theorem probe_eq_none {p : Fin n → Bool} {fuel : ℕ} {i : Fin n} (h : probe p fuel i = none)
    {d : ℕ} (hd : d < fuel) : p (after i d) = false := by
  induction fuel generalizing i d with
  | zero => exact absurd hd (Nat.not_lt_zero d)
  | succ fuel ih =>
    rw [probe] at h
    split at h
    · cases h
    · rename_i hp
      cases d with
      | zero =>
        rw [after_zero]
        exact (Bool.not_eq_true _).mp hp
      | succ d =>
        have := ih h (Nat.lt_of_succ_lt_succ hd)
        rwa [after_after, Nat.add_comm] at this

/-! ### Tables -/

/-- **Every key can be found**, and only in one slot. -/
structure Probed (empty : K) (hash : K → Fin n) (key : Fin n → K) : Prop where
  /-- There is no empty slot on the way. -/
  path : ∀ j, key j ≠ empty → ∃ d, after (hash (key j)) d = j ∧
    ∀ e < d, key (after (hash (key j)) e) ≠ empty
  /-- No key is there twice. -/
  inj : ∀ i j, key i ≠ empty → key i = key j → i = j

variable {empty k : K} {hash : K → Fin n} {key : Fin n → K}

theorem probed_empty : Probed empty hash fun _ => empty where
  path _ h := absurd rfl h
  inj _ _ h := absurd rfl h

variable [DecidableEq K]

/-- Whether a probe for a key ends at a slot. -/
def stops (empty : K) (key : Fin n → K) (k : K) (i : Fin n) : Bool :=
  decide (key i = empty ∨ key i = k)

/-- Where a key goes: to the first slot that is empty or has it, and else to that of its hash. -/
def place (empty : K) (hash : K → Fin n) (key : Fin n → K) (k : K) : Fin n :=
  (probe (stops empty key k) n (hash k)).getD (hash k)

/-- The slots before the one where a key goes are not empty. -/
theorem exists_after_eq_place : ∃ d, after (hash k) d = place empty hash key k ∧
    ∀ e < d, key (after (hash k) e) ≠ empty := by
  rw [place]
  cases h : probe (stops empty key k) n (hash k) with
  | none => exact ⟨0, after_zero _, fun e he => absurd he (Nat.not_lt_zero e)⟩
  | some j =>
    obtain ⟨-, d, -, hd, hbefore⟩ := probe_eq_some h
    exact ⟨d, hd, fun e he hempty => of_decide_eq_false (hbefore e he) (.inl hempty)⟩

/-- **A key that is there is replaced.** -/
theorem Probed.eq_place (h : Probed empty hash key) {j : Fin n} (hj : key j = k)
    (hk : k ≠ empty) : j = place empty hash key k := by
  rw [place]
  cases hp : probe (stops empty key k) n (hash k) with
  | none =>
    obtain ⟨d, hd, rfl⟩ := exists_after_eq (hash k) j
    exact absurd (.inr hj) (of_decide_eq_false (probe_eq_none hp hd))
  | some i =>
    obtain ⟨hi, d, -, hd, hbefore⟩ := probe_eq_some hp
    rcases of_decide_eq_true hi with hempty | hki
    · -- the probe would have come to `j` first
      obtain ⟨d', hd', hfull⟩ := h.path j (by rwa [hj])
      rw [hj] at hd' hfull
      rcases Nat.lt_trichotomy d d' with hlt | rfl | hlt
      · have := hfull d hlt
        rw [hd] at this
        exact absurd hempty this
      · exact hd'.symm.trans hd
      · have := hbefore d' hlt
        rw [hd'] at this
        exact absurd (.inr hj) (of_decide_eq_false this)
    · exact h.inj j i (by rwa [hj]) (hj.trans hki.symm)

/-- **The guarantee is kept.** -/
theorem Probed.update (h : Probed empty hash key) (hk : k ≠ empty) :
    Probed empty hash (Function.update key (place empty hash key k) k) := by
  obtain ⟨i, hi⟩ : ∃ i, i = place empty hash key k := ⟨_, rfl⟩
  have hfull (j : Fin n) (hj : key j ≠ empty) : Function.update key i k j ≠ empty := by
    by_cases hji : j = i
    · rw [hji, Function.update_self]
      exact hk
    · rwa [Function.update_of_ne hji]
  rw [← hi]
  refine ⟨fun j hj => ?_, fun j j' hj heq => ?_⟩
  · by_cases hji : j = i
    · rw [hji, Function.update_self, hi]
      obtain ⟨d, hd, hbefore⟩ : ∃ d, after (hash k) d = place empty hash key k ∧
          ∀ e < d, key (after (hash k) e) ≠ empty := exists_after_eq_place
      exact ⟨d, hd, fun e he => hi ▸ hfull _ (hbefore e he)⟩
    · rw [Function.update_of_ne hji] at hj ⊢
      obtain ⟨d, hd, hbefore⟩ := h.path j hj
      exact ⟨d, hd, fun e he => hfull _ (hbefore e he)⟩
  · by_cases hji : j = i
    · by_cases hji' : j' = i
      · rw [hji, hji']
      · rw [hji, Function.update_self, Function.update_of_ne hji'] at heq
        exact absurd ((h.eq_place heq.symm hk).trans hi.symm) hji'
    · rw [Function.update_of_ne hji] at hj heq
      by_cases hji' : j' = i
      · rw [hji', Function.update_self] at heq
        exact absurd ((h.eq_place heq hk).trans hi.symm) hji
      · rw [Function.update_of_ne hji'] at heq
        exact h.inj j j' hj heq

end Wie
