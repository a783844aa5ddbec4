import Mathlib.Tactic.NormNum
import Wie.Cpu.Integer

/-!
# Widths of operands

The interpreter keeps operands of one, two, four and eight bytes in words of 64 bits. What masks,
sign bits and sign extension do to such a word, said of the number it is for.

## Main definitions

* `IsWidth` — the widths
* `signedOf` — a number of some bits with a sign
* `onAl` — an instruction on a register

## Main results

* `toNat_and_mask`, `toInt_sextOf` — the mask is a remainder, sign extension a number with a sign
* `sign_digit` — the digit of the sign
-/

namespace Wie

open Rflags

/-- The widths of operands. -/
def IsWidth (size : ℕ) : Prop := size = 1 ∨ size = 2 ∨ size = 4 ∨ size = 8

/-- A number of some bits with a sign. -/
def signedOf (bits n : ℕ) : ℤ := if n < 2 ^ (bits - 1) then n else n - 2 ^ bits

theorem signedOf_eq {bits H : ℕ} (hH : 2 ^ (bits - 1) = H) (hbits : 2 ^ bits = 2 * H) (n : ℕ) :
    signedOf bits n = if n < H then (n : ℤ) else n - 2 * H := by
  have hbz : (2 : ℤ) ^ bits = 2 * H := by exact_mod_cast hbits
  rw [signedOf, hH, hbz]

variable {size : ℕ}

/-- The bits of a width, of which the sign is one. -/
theorem IsWidth.bits (h : IsWidth size) :
    2 ^ (8 * size) = 2 * 2 ^ (8 * size - 1) ∧ ∃ k, 2 ^ (8 * size - 1) = 64 * k ∧ 0 < k := by
  rcases h with rfl | rfl | rfl | rfl
  · exact ⟨rfl, 2, rfl, by decide⟩
  · exact ⟨rfl, 2 ^ 9, rfl, by decide⟩
  · exact ⟨rfl, 2 ^ 25, rfl, by decide⟩
  · exact ⟨rfl, 2 ^ 57, rfl, by decide⟩

theorem IsWidth.lt_bits (h : IsWidth size) : 8 * size - 1 < 64 := by
  rcases h with rfl | rfl | rfl | rfl <;> decide

theorem IsWidth.pos (h : IsWidth size) : 0 < 8 * size := by
  rcases h with rfl | rfl | rfl | rfl <;> decide

theorem IsWidth.le (h : IsWidth size) : size ≤ 8 := by
  rcases h with rfl | rfl | rfl | rfl <;> decide

/-- A number of the width is a word. -/
theorem IsWidth.dvd (h : IsWidth size) : 2 ^ (8 * size) ∣ 2 ^ 64 := by
  rcases h with rfl | rfl | rfl | rfl <;> decide

theorem toNat_and_mask (h : IsWidth size) (v : BitVec 64) :
    (v &&& sizeMask size).toNat = v.toNat % 2 ^ (8 * size) := by
  rw [BitVec.toNat_and]
  rcases h with rfl | rfl | rfl | rfl
  · exact Nat.and_two_pow_sub_one_eq_mod _ 8
  · exact Nat.and_two_pow_sub_one_eq_mod _ 16
  · exact Nat.and_two_pow_sub_one_eq_mod _ 32
  · exact Nat.and_two_pow_sub_one_eq_mod _ 64

theorem toNat_and_mask_lt (h : IsWidth size) (v : BitVec 64) :
    (v &&& sizeMask size).toNat < 2 ^ (8 * size) := by
  rw [toNat_and_mask h]
  exact Nat.mod_lt _ (Nat.two_pow_pos _)

/-- A word that is a number of the width. -/
theorem and_mask_eq_self (h : IsWidth size) {v : BitVec 64} (hv : v.toNat < 2 ^ (8 * size)) :
    v &&& sizeMask size = v := by
  apply BitVec.eq_of_toNat_eq
  rw [toNat_and_mask h, Nat.mod_eq_of_lt hv]

theorem toNat_sizeMask (h : IsWidth size) : (sizeMask size).toNat = 2 ^ (8 * size) - 1 := by
  rcases h with rfl | rfl | rfl | rfl <;> rfl

theorem signBit_eq (h : IsWidth size) : signBit size = .twoPow 64 (8 * size - 1) := by
  rcases h with rfl | rfl | rfl | rfl <;> decide

theorem isWidth_iff_mem : IsWidth size ↔ size ∈ [1, 2, 4, 8] := by
  simp only [IsWidth, List.mem_cons, List.not_mem_nil, or_false]

theorem IsWidth.mem (h : IsWidth size) : size ∈ [1, 2, 4, 8] := isWidth_iff_mem.mp h

theorem isWidth_of_mem (h : size ∈ [1, 2, 4, 8]) : IsWidth size := isWidth_iff_mem.mpr h

/-- A difference is zero where two numbers of the width are equal. -/
theorem sub_and_mask_eq_zero (h : IsWidth size) {a b : BitVec 64} (ha : a &&& sizeMask size = a)
    (hb : b &&& sizeMask size = b) : (a - b) &&& sizeMask size = 0 ↔ a = b := by
  have ha' := toNat_and_mask_lt h a
  have hb' := toNat_and_mask_lt h b
  rw [ha] at ha'
  rw [hb] at hb'
  have hzero : (0 : BitVec 64).toNat = 0 := rfl
  rw [← BitVec.toNat_inj, ← BitVec.toNat_inj, toNat_and_mask h, BitVec.toNat_sub, hzero]
  rcases h with rfl | rfl | rfl | rfl <;> simp only [Nat.reduceMul, Nat.reducePow] at * <;> omega

/-- **Sign extension.** -/
theorem toInt_sextOf (h : IsWidth size) (v : BitVec 64) :
    (sextOf v size).toInt = signedOf (8 * size) (v.toNat % 2 ^ (8 * size)) := by
  rw [sextOf, BitVec.toInt_sshiftRight, BitVec.toInt_eq_toNat_cond, BitVec.toNat_shiftLeft,
    Nat.shiftLeft_eq, Int.shiftRight_eq_div_pow, signedOf]
  have hv := v.isLt
  rcases h with rfl | rfl | rfl | rfl <;> simp only [Nat.reduceMul, Nat.reduceSub] <;>
    split_ifs <;> omega

/-! ### Digits -/

/-- A bit of a number is a digit of it. -/
theorem getLsbD_eq (v : BitVec 64) (k : ℕ) : v.getLsbD k = decide (v.toNat / 2 ^ k % 2 = 1) :=
  Nat.testBit_eq_decide_div_mod_eq

theorem and_twoPow_ne_zero (v : BitVec 64) {k : ℕ} (hk : k < 64) :
    decide (v &&& .twoPow 64 k ≠ 0) = v.getLsbD k := by
  rw [← has_twoPow v hk, has]
  exact Bool.eq_iff_iff.mpr (by simp)

/-- The digit of the sign. -/
theorem sign_digit (h : IsWidth size) (v : BitVec 64) :
    (v &&& sizeMask size).getLsbD (8 * size - 1) =
      decide (2 ^ (8 * size - 1) ≤ (v &&& sizeMask size).toNat) := by
  have hlt : (v &&& sizeMask size).toNat < 2 ^ (8 * size) := by
    rw [toNat_and_mask h]
    exact Nat.mod_lt _ (Nat.two_pow_pos _)
  rw [getLsbD_eq, decide_eq_decide]
  rcases h with rfl | rfl | rfl | rfl <;> simp only [Nat.reduceMul, Nat.reduceSub] at hlt ⊢ <;> omega

theorem sign_eq (h : IsWidth size) (v : BitVec 64) :
    decide (v &&& sizeMask size &&& signBit size ≠ 0) =
      decide (2 ^ (8 * size - 1) ≤ (v &&& sizeMask size).toNat) := by
  have hk := h.lt_bits
  rw [signBit_eq h, and_twoPow_ne_zero _ hk, sign_digit h]

/-- Two pairs of numbers with different signs. -/
theorem signs_differ (h : IsWidth size) (a b c d : BitVec 64) :
    decide ((a &&& sizeMask size ^^^ b &&& sizeMask size) &&&
      (c &&& sizeMask size ^^^ d &&& sizeMask size) &&& signBit size ≠ 0) =
    decide (¬(2 ^ (8 * size - 1) ≤ (a &&& sizeMask size).toNat ↔
        2 ^ (8 * size - 1) ≤ (b &&& sizeMask size).toNat) ∧
      ¬(2 ^ (8 * size - 1) ≤ (c &&& sizeMask size).toNat ↔
        2 ^ (8 * size - 1) ≤ (d &&& sizeMask size).toNat)) := by
  have hk := h.lt_bits
  rw [signBit_eq h, and_twoPow_ne_zero _ hk, BitVec.getLsbD_and, BitVec.getLsbD_xor,
    BitVec.getLsbD_xor, sign_digit h, sign_digit h, sign_digit h, sign_digit h, Bool.eq_iff_iff]
  simp only [Bool.and_eq_true, bne_iff_ne, ne_eq, decide_eq_decide, decide_eq_true_eq]

/-! ### Instructions on a register -/

/-- A memory that is never there. -/
def noMemory : MemDevice Unit where
  read _ _ _ := none
  write _ _ _ := none
  fetchAdd _ _ _ _ := none
  fill _ _ _ := none
  copy _ _ _ _ := none

/-- An instruction on AL and a number. -/
def onAl (value : BitVec 64) : Insn where
  mnemonic := .nop
  ops := [.register, .immediate8]
  opRegister _ := .gpr8 0
  memoryBase := .none
  memoryIndex := .none
  memoryIndexScale := 1
  memoryDisplacement64 := 0
  memorySize := .uInt8
  nearBranchTarget := 0
  movsdXmmCode := false
  len := 2
  nextIp := 0x402
  ip := 0x400
  immediate _ := value
  hasLockPrefix := false
  hasRepPrefix := false
  hasRepePrefix := false
  hasRepnePrefix := false

/-- An instruction on two registers. -/
def onRegisters (dst src : Register) : Insn :=
  { onAl 0 with
    ops := [.register, .register]
    opRegister := fun n => if n = 0 then dst else src }

/-- Registers with a number in RAX and with flags. -/
def withRax (rax f : BitVec 64) : RegFile where
  gpr n := if n = 0 then rax else 0
  xmm _ := 0
  rip := 0x400
  rflags := f

end Wie
