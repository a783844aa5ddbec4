import Wie.Lib.Bytes

/-!
# LEB128

Numbers written in groups of seven bits, lowest first, every byte but the last with its high bit
set. An encoding need not be the shortest one, so a number at an address is a relation: some list
of groups stands there. A signed number has its sign in the highest bit of the last group.

## Main definitions

* `lebBytes` — the bytes of a list of groups
* `ulebValue`, `slebValue` — the numbers it stands for
* `UlebAt`, `SlebAt` — a number of at most nine groups at an address
* `ulebGroups`, `slebGroups` — the shortest groups of a number

## Main results

* `ulebValue_ulebGroups`, `slebValue_slebGroups` — they stand for it
* `length_ulebGroups_le`, `length_slebGroups_le` — which numbers fit a number of groups
-/

namespace Wie

/-- The bytes of groups of seven bits. -/
def lebBytes : List ℕ → List UInt8
  | [] => []
  | [g] => [UInt8.ofNat g]
  | g :: h :: gs => UInt8.ofNat (g + 128) :: lebBytes (h :: gs)

/-- The unsigned number. -/
def ulebValue (gs : List ℕ) : ℕ := Nat.ofDigits 128 gs

/-- The signed number. -/
def slebValue (gs : List ℕ) : ℤ :=
  if 64 ≤ gs.getLastD 0 then (ulebValue gs : ℤ) - 2 ^ (7 * gs.length) else ulebValue gs

/-- Groups of seven bits, at least one and at most `n`. -/
structure Groups (n : ℕ) (gs : List ℕ) : Prop where
  /-- There is a last byte. -/
  ne_nil : gs ≠ []
  /-- There are not too many. -/
  length_le : gs.length ≤ n
  /-- A group has seven bits. -/
  lt : ∀ g ∈ gs, g < 128

/-- An unsigned number stands at `a` and ends before `b`. -/
def UlebAt (m : ByteMap) (a v b : ℕ) : Prop :=
  ∃ gs, Groups 9 gs ∧ m.Holds a (lebBytes gs) ∧ v = ulebValue gs ∧ b = a + gs.length

/-- A signed number stands at `a` and ends before `b`. -/
def SlebAt (m : ByteMap) (a : ℕ) (v : ℤ) (b : ℕ) : Prop :=
  ∃ gs, Groups 9 gs ∧ m.Holds a (lebBytes gs) ∧ v = slebValue gs ∧ b = a + gs.length

@[simp] theorem length_lebBytes : ∀ gs, (lebBytes gs).length = gs.length
  | [] => rfl
  | [_] => rfl
  | _ :: h :: gs => congrArg (· + 1) (length_lebBytes (h :: gs))

theorem ulebValue_cons (g : ℕ) (gs : List ℕ) : ulebValue (g :: gs) = g + 128 * ulebValue gs := by
  simp [ulebValue, Nat.ofDigits_cons]

/-- Groups below the last add to the value of the others, with its sign. -/
theorem slebValue_cons (g : ℕ) {gs : List ℕ} (h : gs ≠ []) :
    slebValue (g :: gs) = g + 128 * slebValue gs := by
  obtain ⟨x, xs, rfl⟩ := List.exists_cons_of_ne_nil h
  have hpow : (2 : ℤ) ^ (7 * (g :: x :: xs).length) = 128 * 2 ^ (7 * (x :: xs).length) := by
    rw [List.length_cons (a := g), Nat.mul_succ, pow_add]
    ring
  simp only [slebValue, List.getLastD_cons, ulebValue_cons g, hpow]
  split
  · push_cast
    ring
  · push_cast
    rfl

theorem Groups.tail {n g h : ℕ} {gs : List ℕ} (hg : Groups (n + 1) (g :: h :: gs)) :
    Groups n (h :: gs) where
  ne_nil := List.cons_ne_nil h gs
  length_le := Nat.le_of_succ_le_succ hg.length_le
  lt := fun x hx => hg.lt x (.tail g hx)

theorem Groups.ulebValue_lt {n : ℕ} {gs : List ℕ} (h : Groups n gs) :
    ulebValue gs < 2 ^ (7 * n) := by
  have h1 := Nat.ofDigits_lt_base_pow_length (b := 128) (by decide) h.lt
  have h2 : 128 ^ gs.length ≤ 128 ^ n := Nat.pow_le_pow_right (by decide) h.length_le
  rw [pow_mul, show (2 : ℕ) ^ 7 = 128 from rfl]
  exact h1.trans_le h2

theorem UlebAt.lt {m : ByteMap} {a v b : ℕ} (h : UlebAt m a v b) : v < 2 ^ 63 := by
  obtain ⟨gs, hg, -, rfl, -⟩ := h
  exact hg.ulebValue_lt

theorem Groups.slebValue_bounds {n : ℕ} {gs : List ℕ} (h : Groups n gs) :
    -2 ^ (7 * n) ≤ slebValue gs ∧ slebValue gs < 2 ^ (7 * n) := by
  have h1 : (ulebValue gs : ℤ) < 2 ^ (7 * n) := by exact_mod_cast h.ulebValue_lt
  have h2 : (2 : ℤ) ^ (7 * gs.length) ≤ 2 ^ (7 * n) :=
    pow_le_pow_right₀ (by norm_num) (Nat.mul_le_mul_left 7 h.length_le)
  have h3 : (0 : ℤ) < 2 ^ (7 * gs.length) := by positivity
  rw [slebValue]
  split <;> constructor <;> omega

theorem UlebAt.lt_end {m : ByteMap} {a v b : ℕ} (h : UlebAt m a v b) : a < b := by
  obtain ⟨gs, hg, -, -, rfl⟩ := h
  have := List.length_pos_iff.mpr hg.ne_nil
  omega

theorem SlebAt.bounds {m : ByteMap} {a : ℕ} {v : ℤ} {b : ℕ} (h : SlebAt m a v b) :
    -2 ^ 63 ≤ v ∧ v < 2 ^ 63 := by
  obtain ⟨gs, hg, -, rfl, -⟩ := h
  exact hg.slebValue_bounds

theorem SlebAt.lt_end {m : ByteMap} {a : ℕ} {v : ℤ} {b : ℕ} (h : SlebAt m a v b) : a < b := by
  obtain ⟨gs, hg, -, -, rfl⟩ := h
  have := List.length_pos_iff.mpr hg.ne_nil
  omega

/-! ### The shortest encoding -/

/-- The groups of an unsigned number: as long as more than seven bits are left, there is another
one. -/
def ulebGroups (v : ℕ) : List ℕ :=
  if v < 128 then [v] else v % 128 :: ulebGroups (v / 128)
termination_by v

/-- The groups of a signed number: the last one has room for the sign. -/
def slebGroups (z : ℤ) : List ℕ :=
  if -64 ≤ z ∧ z < 64 then [(z % 128).toNat] else (z % 128).toNat :: slebGroups (z / 128)
termination_by z.natAbs
decreasing_by omega

theorem ulebGroups_of_lt {v : ℕ} (h : v < 128) : ulebGroups v = [v] := by
  rw [ulebGroups, if_pos h]

theorem ulebGroups_of_le {v : ℕ} (h : 128 ≤ v) :
    ulebGroups v = v % 128 :: ulebGroups (v / 128) := by
  rw [ulebGroups, if_neg (by omega)]

theorem slebGroups_of_fits {z : ℤ} (h : -64 ≤ z ∧ z < 64) : slebGroups z = [(z % 128).toNat] := by
  rw [slebGroups, if_pos h]

theorem slebGroups_of_not_fits {z : ℤ} (h : ¬(-64 ≤ z ∧ z < 64)) :
    slebGroups z = (z % 128).toNat :: slebGroups (z / 128) := by
  rw [slebGroups, if_neg h]

theorem ulebGroups_ne_nil (v : ℕ) : ulebGroups v ≠ [] := by
  rw [ulebGroups]
  split <;> exact List.cons_ne_nil _ _

theorem slebGroups_ne_nil (z : ℤ) : slebGroups z ≠ [] := by
  rw [slebGroups]
  split <;> exact List.cons_ne_nil _ _

theorem lt_of_mem_ulebGroups (v : ℕ) : ∀ g ∈ ulebGroups v, g < 128 := by
  induction v using Nat.strongRecOn with
  | ind v ih =>
    intro g hg
    by_cases h : v < 128
    · rw [ulebGroups_of_lt h, List.mem_singleton] at hg
      omega
    · rw [ulebGroups_of_le (by omega), List.mem_cons] at hg
      rcases hg with rfl | hg
      · omega
      · exact ih (v / 128) (by omega) g hg

theorem lt_of_mem_slebGroups (z : ℤ) : ∀ g ∈ slebGroups z, g < 128 := by
  induction z using slebGroups.induct with
  | case1 z h =>
    intro g hg
    rw [slebGroups_of_fits h, List.mem_singleton] at hg
    omega
  | case2 z h ih =>
    intro g hg
    rw [slebGroups_of_not_fits h, List.mem_cons] at hg
    rcases hg with rfl | hg
    · omega
    · exact ih g hg

/-- **The shortest groups stand for the number.** -/
theorem ulebValue_ulebGroups (v : ℕ) : ulebValue (ulebGroups v) = v := by
  induction v using Nat.strongRecOn with
  | ind v ih =>
    by_cases h : v < 128
    · rw [ulebGroups_of_lt h, ulebValue, Nat.ofDigits_singleton]
    · rw [ulebGroups_of_le (by omega), ulebValue_cons, ih (v / 128) (by omega)]
      omega

/-- **The shortest groups stand for the number**, with its sign. -/
theorem slebValue_slebGroups (z : ℤ) : slebValue (slebGroups z) = z := by
  induction z using slebGroups.induct with
  | case1 z h =>
    rw [slebGroups_of_fits h, slebValue, ulebValue, Nat.ofDigits_singleton]
    simp only [List.getLastD_cons, List.getLastD_nil, List.length_singleton]
    split <;> omega
  | case2 z h ih =>
    rw [slebGroups_of_not_fits h, slebValue_cons _ (slebGroups_ne_nil _), ih]
    omega

/-- Each group makes room for seven bits. -/
theorem length_ulebGroups_le (n v : ℕ) :
    (ulebGroups v).length ≤ n + 1 ↔ v < 2 ^ (7 * (n + 1)) := by
  induction n generalizing v with
  | zero =>
    by_cases h : v < 128
    · simp [ulebGroups_of_lt h, h]
    · have := List.length_pos_iff.mpr (ulebGroups_ne_nil (v / 128))
      rw [ulebGroups_of_le (by omega), List.length_cons]
      omega
  | succ n ih =>
    have hpow : 2 ^ (7 * (n + 1 + 1)) = 128 * 2 ^ (7 * (n + 1)) := by
      rw [Nat.mul_succ, pow_add]
      ring
    have hpos := Nat.two_pow_pos (7 * (n + 1))
    rw [hpow]
    by_cases h : v < 128
    · rw [ulebGroups_of_lt h, List.length_singleton]
      omega
    · have := ih (v / 128)
      rw [ulebGroups_of_le (by omega), List.length_cons]
      omega

/-- One bit of them is the sign. -/
theorem length_slebGroups_le (n : ℕ) (z : ℤ) :
    (slebGroups z).length ≤ n + 1 ↔ -2 ^ (7 * n + 6) ≤ z ∧ z < 2 ^ (7 * n + 6) := by
  induction n generalizing z with
  | zero =>
    by_cases h : -64 ≤ z ∧ z < 64
    · rw [slebGroups_of_fits h, List.length_singleton]
      omega
    · have := List.length_pos_iff.mpr (slebGroups_ne_nil (z / 128))
      rw [slebGroups_of_not_fits h, List.length_cons]
      omega
  | succ n ih =>
    have hpow : (2 : ℤ) ^ (7 * (n + 1) + 6) = 128 * 2 ^ (7 * n + 6) := by
      rw [show 7 * (n + 1) + 6 = (7 * n + 6) + 7 by ring, pow_add]
      ring
    have hpos : (0 : ℤ) < 2 ^ (7 * n + 6) := by positivity
    rw [hpow]
    by_cases h : -64 ≤ z ∧ z < 64
    · rw [slebGroups_of_fits h, List.length_singleton]
      omega
    · have := ih (z / 128)
      rw [slebGroups_of_not_fits h, List.length_cons]
      omega

/-- The groups of a number that is not too large. -/
theorem groups_ulebGroups {n v : ℕ} (h : v < 2 ^ (7 * (n + 1))) :
    Groups (n + 1) (ulebGroups v) where
  ne_nil := ulebGroups_ne_nil v
  length_le := (length_ulebGroups_le n v).mpr h
  lt := lt_of_mem_ulebGroups v

theorem groups_slebGroups {n : ℕ} {z : ℤ} (h : -2 ^ (7 * n + 6) ≤ z ∧ z < 2 ^ (7 * n + 6)) :
    Groups (n + 1) (slebGroups z) where
  ne_nil := slebGroups_ne_nil z
  length_le := (length_slebGroups_le n z).mpr h
  lt := lt_of_mem_slebGroups z

end Wie
