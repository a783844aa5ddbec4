import Mathlib.Data.Nat.Digits.Defs
import Mathlib.Algebra.Order.Ring.Nat
import Mathlib.Tactic.Ring
import Mathlib.Tactic.Common

/-!
# Byte strings and the numbers they stand for

Little-endian numbers, and memories that hold a byte at some addresses and none at the others. A
read of a range succeeds when every address of it holds a byte.

## Main definitions

* `fromLe`, `toLe` — bytes as a number, lowest byte first, and back
* `ByteMap.read`, `ByteMap.write` — ranges of bytes
* `ByteMap.Holds` — a range holds given bytes

## Main results

* `fromLe_toLe` — the number comes back
* `ByteMap.read_eq_some` — what a read returns is what the range holds
* `ByteMap.holds_write`, `ByteMap.Holds.write` — read after write, at the range and beside it
-/

namespace Wie

/-! ### Little-endian numbers -/

/-- Bytes as a number, lowest first. -/
def fromLe (bs : List UInt8) : ℕ := Nat.ofDigits 256 (bs.map UInt8.toNat)

/-- The `n` lowest bytes of a number, lowest first. -/
def toLe : ℕ → ℕ → List UInt8
  | 0, _ => []
  | n + 1, v => UInt8.ofNat v :: toLe n (v / 256)

@[simp] theorem fromLe_nil : fromLe [] = 0 := rfl

theorem fromLe_cons (b : UInt8) (bs : List UInt8) :
    fromLe (b :: bs) = b.toNat + 256 * fromLe bs := by
  simp [fromLe, Nat.ofDigits_cons]

theorem fromLe_lt (bs : List UInt8) : fromLe bs < 256 ^ bs.length := by
  have h : ∀ d ∈ bs.map UInt8.toNat, d < 256 := by
    intro d hd
    obtain ⟨b, -, rfl⟩ := List.mem_map.mp hd
    exact b.toNat_lt
  simpa [fromLe] using Nat.ofDigits_lt_base_pow_length (by decide : 1 < 256) h

theorem fromLe_append (xs ys : List UInt8) :
    fromLe (xs ++ ys) = fromLe xs + 256 ^ xs.length * fromLe ys := by
  simp [fromLe, Nat.ofDigits_append]

@[simp] theorem length_toLe (n v : ℕ) : (toLe n v).length = n := by
  induction n generalizing v with
  | zero => rfl
  | succ n ih => rw [toLe, List.length_cons, ih]

/-- **The bytes of a number are that number**, up to the bytes left out. -/
theorem fromLe_toLe (n v : ℕ) : fromLe (toLe n v) = v % 256 ^ n := by
  induction n generalizing v with
  | zero => simp [toLe, Nat.mod_one]
  | succ n ih =>
    have hb : (UInt8.ofNat v).toNat = v % 256 := by simp
    rw [toLe, fromLe_cons, ih, hb, pow_succ', Nat.mod_mul]

theorem fromLe_toLe_of_lt {n v : ℕ} (h : v < 256 ^ n) : fromLe (toLe n v) = v := by
  rw [fromLe_toLe, Nat.mod_eq_of_lt h]

/-- **A number with the bytes of a list has those bytes.** -/
theorem toLe_fromLe (bs : List UInt8) : toLe bs.length (fromLe bs) = bs := by
  induction bs with
  | nil => rfl
  | cons b bs ih =>
    have hlow : UInt8.ofNat (b.toNat + 256 * fromLe bs) = b := by
      apply UInt8.toNat_inj.mp
      have := b.toNat_lt
      rw [UInt8.toNat_ofNat']
      omega
    have hhigh : (b.toNat + 256 * fromLe bs) / 256 = fromLe bs := by
      have := b.toNat_lt
      omega
    rw [fromLe_cons, List.length_cons, toLe, hlow, hhigh, ih]

/-- Only the lowest bytes of a number count. -/
theorem toLe_mod (n v : ℕ) : toLe n (v % 256 ^ n) = toLe n v := by
  have h := toLe_fromLe (toLe n v)
  rwa [length_toLe, fromLe_toLe] at h

theorem toLe_zero (n : ℕ) : toLe n 0 = List.replicate n 0 := by
  induction n with
  | zero => rfl
  | succ n ih => rw [toLe, Nat.zero_div, ih, List.replicate_succ]; rfl

/-! ### Memories -/

/-- A memory: the byte at an address, if there is one. -/
abbrev ByteMap := ℕ → Option UInt8

namespace ByteMap

variable {m : ByteMap} {a n : ℕ} {bs : List UInt8}

/-- The `n` bytes from `a` on. -/
def read (m : ByteMap) : ℕ → ℕ → Option (List UInt8)
  | _, 0 => some []
  | a, n + 1 => do
    let b ← m a
    let bs ← read m (a + 1) n
    some (b :: bs)

/-- Put bytes at `a`. -/
def write (m : ByteMap) (a : ℕ) (bs : List UInt8) : ByteMap :=
  fun x => if a ≤ x ∧ x < a + bs.length then bs[x - a]? else m x

/-- The bytes from `a` on start with `bs`. -/
def Holds (m : ByteMap) (a : ℕ) (bs : List UInt8) : Prop :=
  ∀ i (h : i < bs.length), m (a + i) = some bs[i]

instance : Decidable (m.Holds a bs) :=
  inferInstanceAs (Decidable (∀ i (h : i < bs.length), m (a + i) = some bs[i]))

@[simp] theorem holds_nil : m.Holds a [] := fun _ h => absurd h (Nat.not_lt_zero _)

theorem holds_cons {b : UInt8} : m.Holds a (b :: bs) ↔ m a = some b ∧ m.Holds (a + 1) bs := by
  refine ⟨fun h => ⟨h 0 (Nat.zero_lt_succ _), fun i hi => ?_⟩, fun ⟨h0, h⟩ i hi => ?_⟩
  · have := h (i + 1) (Nat.succ_lt_succ hi)
    rwa [show a + (i + 1) = a + 1 + i by omega] at this
  · cases i with
    | zero => exact h0
    | succ i =>
      have := h i (Nat.lt_of_succ_lt_succ hi)
      rwa [show a + 1 + i = a + (i + 1) by omega] at this

theorem holds_append {cs : List UInt8} :
    m.Holds a (bs ++ cs) ↔ m.Holds a bs ∧ m.Holds (a + bs.length) cs := by
  induction bs generalizing a with
  | nil => simp
  | cons b bs ih =>
    rw [List.cons_append, holds_cons, holds_cons, ih, and_assoc, List.length_cons,
      show a + 1 + bs.length = a + (bs.length + 1) by omega]

/-- **A read returns what the range holds**, and fails if some address of it holds nothing. -/
theorem read_eq_some : m.read a n = some bs ↔ bs.length = n ∧ m.Holds a bs := by
  induction n generalizing a bs with
  | zero =>
    rw [read, Option.some.injEq]
    exact ⟨fun h => by simp [← h], fun h => (List.length_eq_zero_iff.mp h.1).symm⟩
  | succ n ih =>
    rw [read]
    cases bs with
    | nil => cases m a <;> cases m.read (a + 1) n <;> simp
    | cons b bs =>
      rw [holds_cons, List.length_cons, Nat.add_right_cancel_iff, ← and_assoc, and_right_comm,
        ← ih]
      cases m a <;> cases m.read (a + 1) n <;> simp [and_comm]

theorem Holds.read (h : m.Holds a bs) (hn : bs.length = n) : m.read a n = some bs :=
  read_eq_some.mpr ⟨hn, h⟩

theorem holds_write (m : ByteMap) (a : ℕ) (bs : List UInt8) : (m.write a bs).Holds a bs := by
  intro i hi
  rw [write, if_pos ⟨by omega, by omega⟩, Nat.add_sub_cancel_left, List.getElem?_eq_getElem hi]

theorem write_of_notMem {x : ℕ} (h : x < a ∨ a + bs.length ≤ x) : m.write a bs x = m x :=
  if_neg (by omega)

/-- A write beside a range leaves it alone. -/
theorem Holds.write {b : ℕ} {cs : List UInt8} (h : m.Holds a bs)
    (hd : a + bs.length ≤ b ∨ b + cs.length ≤ a) : (m.write b cs).Holds a bs := by
  intro i hi
  rw [write_of_notMem (by omega)]
  exact h i hi

theorem Holds.congr {m' : ByteMap} (h : m.Holds a bs)
    (heq : ∀ x, a ≤ x → x < a + bs.length → m' x = m x) : m'.Holds a bs := by
  intro i hi
  rw [heq (a + i) (by omega) (by omega)]
  exact h i hi

end ByteMap

end Wie
