import Mathlib.Data.BitVec
import Mathlib.Data.Nat.Init

/-!
# Words as lanes

A word is read as lanes of equal width, the lowest first. Bitwise operations go lane by lane, and a
shift by whole lanes moves them. A word is given by its lanes.

## Main definitions

* `lane` — one lane of a word
* `ofLanes` — the word with given lanes

## Main results

* `lane_or`, `lane_and`, `lane_shiftLeft`, `lane_ushiftRight` — lanes of results
* `eq_ofLanes_iff` — a word is given by its lanes
-/

namespace Wie

variable {n w c j k : ℕ} {v v' : BitVec n} {g g' : ℕ → BitVec w}

/-- The lane `k` of `w` bits. -/
def lane (w : ℕ) (v : BitVec n) (k : ℕ) : BitVec w := v.extractLsb' (w * k) w

/-- The word of `n` bits with given lanes. -/
def ofLanes (n : ℕ) (g : ℕ → BitVec w) : BitVec n :=
  .ofNat n (Nat.ofBits fun i : Fin n => (g (i / w)).getLsbD (i % w))

theorem getLsbD_lane {i : ℕ} (hi : i < w) : (lane w v k).getLsbD i = v.getLsbD (w * k + i) := by
  rw [lane, BitVec.getLsbD_extractLsb', decide_eq_true hi, Bool.true_and]

theorem getLsbD_ofLanes {i : ℕ} (hi : i < n) :
    (ofLanes n g).getLsbD i = (g (i / w)).getLsbD (i % w) := by
  rw [ofLanes, BitVec.getLsbD_ofNat, decide_eq_true hi, Bool.true_and,
    Nat.testBit_ofBits_lt _ _ hi]

/-- **Lanes of a word given by its lanes.** -/
theorem lane_ofLanes (hk : w * k + w ≤ n) : lane w (ofLanes n g) k = g k := by
  apply BitVec.eq_of_getLsbD_eq
  intro i hi
  have hdiv : (w * k + i) / w = k := by
    rw [Nat.mul_add_div (by omega), Nat.div_eq_of_lt hi, Nat.add_zero]
  have hmod : (w * k + i) % w = i := by
    rw [Nat.mul_add_mod, Nat.mod_eq_of_lt hi]
  rw [getLsbD_lane hi, getLsbD_ofLanes (by omega), hdiv, hmod]

/-- **A word is given by its lanes.** -/
theorem eq_ofLanes_iff (hn : n = w * c) : v = ofLanes n g ↔ ∀ k < c, lane w v k = g k := by
  constructor
  · rintro rfl k hk
    refine lane_ofLanes ?_
    calc w * k + w = w * (k + 1) := (Nat.mul_succ w k).symm
      _ ≤ w * c := Nat.mul_le_mul_left w hk
      _ = n := hn.symm
  · intro h
    apply BitVec.eq_of_getLsbD_eq
    intro i hi
    have hw : 0 < w := by
      rcases Nat.eq_zero_or_pos w with rfl | hw
      · rw [Nat.zero_mul] at hn
        omega
      · exact hw
    have hlane := h (i / w) (Nat.div_lt_of_lt_mul (hn ▸ hi))
    rw [getLsbD_ofLanes hi, ← hlane, getLsbD_lane (Nat.mod_lt i hw), Nat.div_add_mod]

theorem ofLanes_eq_iff (hn : n = w * c) : ofLanes n g = ofLanes n g' ↔ ∀ k < c, g k = g' k := by
  rw [eq_ofLanes_iff hn]
  refine forall₂_congr fun k hk => ?_
  rw [lane_ofLanes]
  calc w * k + w = w * (k + 1) := (Nat.mul_succ w k).symm
    _ ≤ w * c := Nat.mul_le_mul_left w hk
    _ = n := hn.symm

/-! ### Lanes of results -/

@[simp] theorem lane_zero (w k : ℕ) : lane w 0#n k = 0#w := BitVec.extractLsb'_zero

@[simp] theorem lane_or (w : ℕ) (a b : BitVec n) (k : ℕ) :
    lane w (a ||| b) k = lane w a k ||| lane w b k := BitVec.extractLsb'_or

@[simp] theorem lane_and (w : ℕ) (a b : BitVec n) (k : ℕ) :
    lane w (a &&& b) k = lane w a k &&& lane w b k := BitVec.extractLsb'_and

theorem lane_ushiftRight (v : BitVec n) (j k : ℕ) :
    lane w (v >>> (w * j)) k = lane w v (j + k) := by
  apply BitVec.eq_of_getLsbD_eq
  intro i hi
  rw [getLsbD_lane hi, getLsbD_lane hi, BitVec.getLsbD_ushiftRight, Nat.mul_add, Nat.add_assoc]

theorem lane_shiftLeft (hk : w * k + w ≤ n) (v : BitVec n) (j : ℕ) :
    lane w (v <<< (w * j)) k = if j ≤ k then lane w v (k - j) else 0 := by
  apply BitVec.eq_of_getLsbD_eq
  intro i hi
  have hin : w * k + i < n := by omega
  rw [getLsbD_lane hi, BitVec.getLsbD_shiftLeft, decide_eq_true hin, Bool.true_and]
  by_cases hjk : j ≤ k
  · have hle : w * j ≤ w * k := Nat.mul_le_mul_left w hjk
    have hsub : w * k + i - w * j = w * (k - j) + i := by
      rw [Nat.mul_sub]
      omega
    have hnot : ¬w * k + i < w * j := by omega
    rw [if_pos hjk, getLsbD_lane hi, hsub, decide_eq_false hnot, Bool.not_false, Bool.true_and]
  · have hle : w * (k + 1) ≤ w * j := Nat.mul_le_mul_left w (Nat.lt_of_not_le hjk)
    have hlt : w * k + i < w * j := by
      rw [Nat.mul_succ] at hle
      omega
    rw [if_neg hjk, decide_eq_true hlt, Bool.not_true, Bool.false_and]
    exact BitVec.getLsbD_zero.symm

/-- A word that is widened. -/
theorem lane_setWidth {m : ℕ} (u : BitVec m) (hm : m ≤ w) (hk : w * k + w ≤ n) :
    lane w (u.setWidth n) k = if k = 0 then u.setWidth w else 0 := by
  apply BitVec.eq_of_getLsbD_eq
  intro i hi
  have hin : w * k + i < n := by omega
  rw [getLsbD_lane hi, BitVec.getLsbD_setWidth, decide_eq_true hin, Bool.true_and]
  by_cases hzero : k = 0
  · rw [if_pos hzero, hzero, Nat.mul_zero, Nat.zero_add, BitVec.getLsbD_setWidth,
      decide_eq_true hi, Bool.true_and]
  · have hge : w ≤ w * k := Nat.le_mul_of_pos_right w (Nat.pos_of_ne_zero hzero)
    rw [if_neg hzero, BitVec.getLsbD_of_ge u _ (by omega)]
    exact BitVec.getLsbD_zero.symm

end Wie
