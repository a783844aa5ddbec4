import Wie.Lib.Copying

/-!
# Widening bytes in place

Bytes are read one after the other, and each is written as two, the second of which is zero. Where
the two ranges overlap, a byte may be read after it was written over.

What is left is the wide form of the source exactly if each byte that is read too late was written
over with what it was.

## Main definitions

* `Flat.widen` — the loop
* `zeroExtend` — the wide form
* `Flat.Undisturbed` — the condition

## Main results

* `Flat.widen_eq_put_iff` — the loop writes the wide form exactly under the condition
-/

namespace Wie

/-- Each byte, and a zero after it. -/
def zeroExtend (bs : List UInt8) : List UInt8 := bs.flatMap fun b => [b, 0]

namespace Flat

variable {m m' : Flat} {a b n x : ℕ}

/-- Widen `n` bytes at `a` to `b`, from the first to the last. -/
def widen (m : Flat) (a b : ℕ) : ℕ → Flat
  | 0 => m
  | n + 1 => (m.set b 2 (m.byte a).toNat).widen (a + 1) (b + 2) n

/-- A byte of the source that is written over before it is read gets the value it had. -/
def Undisturbed (m : Flat) (a b n : ℕ) : Prop :=
  ∀ i < n, b ≤ a + i → a + i < b + 2 * i →
    m.byte (a + i) = if (a + i - b) % 2 = 0 then m.byte (a + (a + i - b) / 2) else 0

/-! ### The wide form -/

@[simp] theorem length_zeroExtend (bs : List UInt8) : (zeroExtend bs).length = 2 * bs.length := by
  simp [zeroExtend, List.length_flatMap, Nat.mul_comm]

theorem zeroExtend_append (xs ys : List UInt8) :
    zeroExtend (xs ++ ys) = zeroExtend xs ++ zeroExtend ys := List.flatMap_append ..

theorem toLe_two (v : UInt8) : toLe 2 v.toNat = [v, 0] := by
  have hlt := v.toNat_lt
  have hlow : UInt8.ofNat v.toNat = v := UInt8.ofNat_toNat
  have hhigh : v.toNat / 256 = 0 := Nat.div_eq_of_lt hlt
  simp [toLe, hlow, hhigh]

theorem zeroExtend_getD (bs : List UInt8) (j : ℕ) :
    (zeroExtend bs).getD j 0 = if j % 2 = 0 then bs.getD (j / 2) 0 else 0 := by
  induction bs generalizing j with
  | nil => simp [zeroExtend]
  | cons v bs ih =>
    change (v :: 0 :: zeroExtend bs).getD j 0 = _
    rcases j with _ | _ | j
    · rfl
    · rfl
    · have hmod : (j + 1 + 1) % 2 = j % 2 := by omega
      have hdiv : (j + 1 + 1) / 2 = j / 2 + 1 := by omega
      rw [List.getD_cons_succ, List.getD_cons_succ, ih, hmod, hdiv, List.getD_cons_succ]

/-! ### The loop -/

@[simp] theorem readable_widen (m : Flat) (a b n : ℕ) : (m.widen a b n).readable = m.readable := by
  induction n generalizing m a b with
  | zero => rfl
  | succ n ih => rw [widen, ih, readable_set]

@[simp] theorem writable_widen (m : Flat) (a b n : ℕ) : (m.widen a b n).writable = m.writable := by
  induction n generalizing m a b with
  | zero => rfl
  | succ n ih => rw [widen, ih, writable_set]

/-- The last round. -/
theorem widen_succ (m : Flat) (a b n : ℕ) : m.widen a b (n + 1) =
    (m.widen a b n).set (b + 2 * n) 2 ((m.widen a b n).byte (a + n)).toNat := by
  induction n generalizing m a b with
  | zero => rfl
  | succ n ih =>
    have ha : a + 1 + n = a + (n + 1) := by omega
    have hb : b + 2 + 2 * n = b + 2 * (n + 1) := by omega
    rw [widen, ih, ← widen, ha, hb]

theorem byte_widen_of_notMem (h : x < b ∨ b + 2 * n ≤ x) : (m.widen a b n).byte x = m.byte x := by
  induction n with
  | zero => rfl
  | succ n ih => rw [widen_succ, byte_set_of_notMem (by omega), ih (by omega)]

/-- The second byte is zero. -/
theorem byte_widen_odd {i : ℕ} (h : i < n) : (m.widen a b n).byte (b + 2 * i + 1) = 0 := by
  induction n with
  | zero => omega
  | succ n ih =>
    rw [widen_succ]
    rcases Nat.lt_succ_iff_lt_or_eq.mp h with hlt | rfl
    · rw [byte_set_of_notMem (by omega), ih hlt]
    · rw [set, byte_put (i := 1) (by rw [length_toLe]; omega)]
      simp [toLe_two]

theorem bytes_succ (m : Flat) (a n : ℕ) : m.bytes a (n + 1) = m.bytes a n ++ [m.byte (a + n)] := by
  rw [bytes_add]
  rfl

/-- The wide form, one byte further. -/
theorem put_zeroExtend_succ (m : Flat) (a b n : ℕ) : m.put b (zeroExtend (m.bytes a (n + 1))) =
    (m.put b (zeroExtend (m.bytes a n))).set (b + 2 * n) 2 (m.byte (a + n)).toNat := by
  have happ := put_append m b (zeroExtend (m.bytes a n)) [m.byte (a + n), 0]
  rw [length_zeroExtend, length_bytes] at happ
  rw [bytes_succ, zeroExtend_append, set, toLe_two]
  exact happ.symm

/-- What is read in a round, if all went well before. -/
theorem byte_put_zeroExtend (h : b ≤ a + n → a + n < b + 2 * n →
      m.byte (a + n) = if (a + n - b) % 2 = 0 then m.byte (a + (a + n - b) / 2) else 0) :
    (m.put b (zeroExtend (m.bytes a n))).byte (a + n) = m.byte (a + n) := by
  by_cases hin : b ≤ a + n ∧ a + n < b + 2 * n
  · rw [h hin.1 hin.2]
    change (if _ then _ else _) = _
    rw [if_pos (by rw [length_zeroExtend, length_bytes]; exact hin), zeroExtend_getD]
    split
    · rw [getD_bytes m a (by omega)]
    · rfl
  · exact byte_put_of_notMem (by
      rw [length_zeroExtend, length_bytes]
      omega)

/-- **The loop writes the wide form exactly under the condition.** -/
theorem widen_eq_put_iff : (m.widen a b n).byte = (m.put b (zeroExtend (m.bytes a n))).byte ↔
    m.Undisturbed a b n := by
  induction n with
  | zero =>
    rw [bytes, List.range_zero, List.map_nil]
    exact ⟨fun _ i hi => absurd hi (Nat.not_lt_zero i), fun _ =>
      congrArg byte (put_nil m b).symm⟩
  | succ n ih =>
    have hlen : (zeroExtend (m.bytes a n)).length = 2 * n := by
      rw [length_zeroExtend, length_bytes]
    rw [widen_succ, put_zeroExtend_succ]
    constructor
    · intro h
      -- the rounds before did the same, since the last one is beside them
      have hprev : (m.widen a b n).byte = (m.put b (zeroExtend (m.bytes a n))).byte := by
        funext x
        by_cases hx : x < b + 2 * n ∨ b + 2 * n + 2 ≤ x
        · have := congrFun h x
          rwa [byte_set_of_notMem hx, byte_set_of_notMem hx] at this
        · rw [byte_widen_of_notMem (by omega), byte_put_of_notMem (by omega)]
      have hread : (m.widen a b n).byte (a + n) = m.byte (a + n) := by
        have hx := congrFun h (b + 2 * n + 0)
        rw [set, set, byte_put (by rw [length_toLe]; omega), byte_put (by rw [length_toLe]; omega)]
          at hx
        simpa [toLe_two] using hx
      intro i hi h1 h2
      rcases Nat.lt_succ_iff_lt_or_eq.mp hi with hlt | rfl
      · exact ih.mp hprev i hlt h1 h2
      · have hin : (m.put b (zeroExtend (m.bytes a i))).byte (a + i) =
            (zeroExtend (m.bytes a i)).getD (a + i - b) 0 :=
          if_pos ⟨h1, by rw [hlen]; exact h2⟩
        rw [← hread, hprev, hin, zeroExtend_getD]
        split
        · rw [getD_bytes m a (by omega)]
        · rfl
    · intro h
      have hprev := ih.mpr fun i hi => h i (Nat.lt_succ_of_lt hi)
      rw [hprev, byte_put_zeroExtend (h n (Nat.lt_succ_self n))]
      funext x
      change (if _ then _ else (m.widen a b n).byte x) = if _ then _ else _
      rw [hprev]

/-- The loop in memories that agree off a region, from which nothing is read. -/
theorem AgreeOff.widen {R : Set ℕ} (h : AgreeOff R m m')
    (hoff : ∀ x, a ≤ x → x < a + n → x ∉ R) : AgreeOff R (m.widen a b n) (m'.widen a b n) := by
  induction n with
  | zero => exact h
  | succ n ih =>
    have hn := ih fun x h1 h2 => hoff x h1 (by omega)
    rw [widen_succ, widen_succ, hn.byte (a + n) (hoff _ (by omega) (by omega))]
    exact hn.put _ _

end Flat

end Wie
