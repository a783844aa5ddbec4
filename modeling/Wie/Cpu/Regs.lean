import Wie.Jit.Insn
import Wie.Mem.Protect

/-!
# Registers and flags of the interpreter

How the interpreter reads and writes registers of all widths, and how it sets flags.

## Main definitions

* `Rflags.put`, `Rflags.has` — one flag
* `logicFlags`, `addFlags`, `subFlags` — the flags of a result
* `RegFile.readReg`, `RegFile.writeReg` — registers and their parts

## Main results

* `Rflags.has_put` — a flag after a flag is set
* `has_zf_addFlags`, `has_zf_subFlags` — when a result is zero
-/

namespace Wie

/-! ### Flags -/

namespace Rflags

/-- Carry. -/
def CF : BitVec 64 := .twoPow 64 0

/-- Parity. -/
def PF : BitVec 64 := .twoPow 64 2

/-- Adjust. -/
def AF : BitVec 64 := .twoPow 64 4

/-- Zero. -/
def ZF : BitVec 64 := .twoPow 64 6

/-- Sign. -/
def SF : BitVec 64 := .twoPow 64 7

/-- Direction. -/
def DF : BitVec 64 := .twoPow 64 10

/-- Overflow. -/
def OF : BitVec 64 := .twoPow 64 11

/-- The reserved bit that is always set. -/
def ALWAYS1 : BitVec 64 := .twoPow 64 1

/-- `RegFile::flag`. -/
def has (f mask : BitVec 64) : Bool := f &&& mask != 0

/-- `RegFile::set_flag`. -/
def put (f mask : BitVec 64) (on : Bool) : BitVec 64 :=
  (if on then f ||| mask else f &&& ~~~mask) ||| ALWAYS1

theorem has_twoPow (f : BitVec 64) {k : ℕ} (hk : k < 64) : has f (.twoPow 64 k) = f.getLsbD k := by
  rw [has, BitVec.and_twoPow]
  cases f.getLsbD k with
  | false => rfl
  | true =>
    rw [if_pos rfl, bne_iff_ne]
    intro h
    have := congrArg (BitVec.getLsbD · k) h
    simp [hk] at this

/-- **A flag after a flag is set.** -/
theorem has_put (f : BitVec 64) {k j : ℕ} (on : Bool) (hj : j < 64) (h1 : j ≠ 1) :
    has (put f (.twoPow 64 k) on) (.twoPow 64 j) =
      if j = k then on else has f (.twoPow 64 j) := by
  rw [has_twoPow _ hj, has_twoPow _ hj, put, ALWAYS1, BitVec.getLsbD_or, BitVec.getLsbD_twoPow]
  have hone : decide (1 = j) = false := decide_eq_false (Ne.symm h1)
  rw [hone, Bool.and_false, Bool.or_false]
  cases on with
  | true =>
    rw [if_pos rfl, BitVec.getLsbD_or, BitVec.getLsbD_twoPow]
    by_cases hjk : j = k
    · rw [if_pos hjk, decide_eq_true (hjk ▸ hj), decide_eq_true hjk.symm, Bool.and_self,
        Bool.or_true]
    · rw [if_neg hjk, decide_eq_false (Ne.symm hjk), Bool.and_false, Bool.or_false]
  | false =>
    rw [if_neg Bool.false_ne_true, BitVec.getLsbD_and, BitVec.getLsbD_not, BitVec.getLsbD_twoPow,
      decide_eq_true hj, Bool.true_and]
    by_cases hjk : j = k
    · rw [if_pos hjk, decide_eq_true (hjk ▸ hj), decide_eq_true hjk.symm, Bool.and_self,
        Bool.not_true, Bool.and_false]
    · rw [if_neg hjk, decide_eq_false (Ne.symm hjk), Bool.and_false, Bool.not_false, Bool.and_true]

end Rflags

open Rflags

/-- `size_mask`. -/
def sizeMask : ℕ → BitVec 64
  | 1 => 0xff
  | 2 => 0xffff
  | 4 => 0xffffffff
  | _ => .allOnes 64

theorem and_sizeMask_eight (v : BitVec 64) : v &&& sizeMask 8 = v := BitVec.and_allOnes

theorem toNat_and_sizeMask {n : ℕ} (hn : n = 4 ∨ n = 8) (v : BitVec 64) :
    (v &&& sizeMask n).toNat = v.toNat % 2 ^ (8 * n) := by
  rw [BitVec.toNat_and]
  rcases hn with rfl | rfl
  · exact Nat.and_two_pow_sub_one_eq_mod _ 32
  · exact Nat.and_two_pow_sub_one_eq_mod _ 64

/-- The sign bit of a size. Shifts take their count modulo the width. -/
def signBit (size : ℕ) : BitVec 64 := 1 <<< ((size * 8 - 1) % 64)

/-- `parity_even`. -/
def parityEven (byte : BitVec 8) : Bool := (List.range 8).countP byte.getLsbD % 2 = 0

/-- `set_logic_flags`. -/
def logicFlags (f result : BitVec 64) (size : ℕ) : BitVec 64 :=
  let v := result &&& sizeMask size
  let f := put f ZF (v = 0)
  let f := put f SF (v &&& signBit size ≠ 0)
  let f := put f PF (parityEven (v.setWidth 8))
  let f := put f CF false
  put f OF false

/-- `set_add_flags`. -/
def addFlags (f dst src result : BitVec 64) (size : ℕ) : BitVec 64 :=
  let mask := sizeMask size
  let d := dst &&& mask
  let s := src &&& mask
  let r := result &&& mask
  let f := put f CF (mask.toNat < d.toNat + s.toNat)
  let f := put f ZF (r = 0)
  let f := put f SF (r &&& signBit size ≠ 0)
  let f := put f PF (parityEven (r.setWidth 8))
  let f := put f OF ((d ^^^ r) &&& (s ^^^ r) &&& signBit size ≠ 0)
  put f AF ((d ^^^ s ^^^ r) &&& 0x10 ≠ 0)

/-- `set_sub_flags`. -/
def subFlags (f dst src result : BitVec 64) (size : ℕ) : BitVec 64 :=
  let mask := sizeMask size
  let d := dst &&& mask
  let s := src &&& mask
  let r := result &&& mask
  let f := put f CF (d < s)
  let f := put f ZF (r = 0)
  let f := put f SF (r &&& signBit size ≠ 0)
  let f := put f PF (parityEven (r.setWidth 8))
  let f := put f OF ((d ^^^ s) &&& (d ^^^ r) &&& signBit size ≠ 0)
  put f AF ((d ^^^ s ^^^ r) &&& 0x10 ≠ 0)

theorem has_zf_addFlags (f dst src result : BitVec 64) (size : ℕ) :
    has (addFlags f dst src result size) ZF = decide (result &&& sizeMask size = 0) := by
  simp only [addFlags, CF, ZF, SF, PF, OF, AF, has_put _ _ (j := 6) (by decide) (by decide)]
  rfl

theorem has_zf_subFlags (f dst src result : BitVec 64) (size : ℕ) :
    has (subFlags f dst src result size) ZF = decide (result &&& sizeMask size = 0) := by
  simp only [subFlags, CF, ZF, SF, PF, OF, AF, has_put _ _ (j := 6) (by decide) (by decide)]
  rfl

/-! ### Registers -/

/-- The registers with a second byte are among all registers. -/
theorem Register.four_le : 4 ≤ 16 := by decide

/-- `gpr_index` of the full register. The number of the instruction pointer is that of RAX, and
other registers of eight bytes have numbers too. -/
def Register.gprIndex : Register → Except CpuError (Fin 16)
  | .gpr64 i | .gpr32 i | .gpr16 i | .gpr8 i => .ok i
  | .gpr8h i => .ok (i.castLE Register.four_le)
  | .rip | .eip => .ok 0
  | .other size n =>
    if h : n < 16 ∧ size = 8 then .ok ⟨n, h.1⟩ else .error (.message s!"not a 64-bit GPR: {n}")
  | .none | .xmm _ => .error (.message "not a 64-bit GPR")

namespace RegFile

/-- `set_gpr`. -/
def setGpr (r : RegFile) (i : Fin 16) (v : BitVec 64) : RegFile :=
  { r with gpr := Function.update r.gpr i v }

/-- Another word of flags. -/
def setRflags (r : RegFile) (f : BitVec 64) : RegFile := { r with rflags := f }

@[simp] theorem setGpr_gpr_self (r : RegFile) (i : Fin 16) (v : BitVec 64) :
    (r.setGpr i v).gpr i = v := Function.update_self ..

@[simp] theorem setGpr_rflags (r : RegFile) (i : Fin 16) (v : BitVec 64) :
    (r.setGpr i v).rflags = r.rflags := rfl

@[simp] theorem setRflags_gpr (r : RegFile) (f : BitVec 64) : (r.setRflags f).gpr = r.gpr := rfl

@[simp] theorem setRflags_rflags (r : RegFile) (f : BitVec 64) : (r.setRflags f).rflags = f := rfl

theorem setGpr_setGpr (r : RegFile) (a b : BitVec 64) (i : Fin 16) :
    (r.setGpr i a).setGpr i b = r.setGpr i b := by
  rw [setGpr, setGpr, setGpr, Function.update_idem]

theorem setGpr_comm (r : RegFile) (a b : BitVec 64) {i j : Fin 16} (h : i ≠ j) :
    (r.setGpr i a).setGpr j b = (r.setGpr j b).setGpr i a := by
  rw [setGpr, setGpr, setGpr, setGpr]
  exact congrArg (fun g => { r with gpr := g }) (Function.update_comm h ..)

theorem setGpr_gpr_of_ne (r : RegFile) (a : BitVec 64) {i j : Fin 16} (h : j ≠ i) :
    (r.setGpr i a).gpr j = r.gpr j := Function.update_of_ne h ..

/-- `flag`. -/
def flag (r : RegFile) (mask : BitVec 64) : Bool := has r.rflags mask

/-- `set_flag`. -/
def setFlag (r : RegFile) (mask : BitVec 64) (on : Bool) : RegFile :=
  r.setRflags (put r.rflags mask on)

/-- `read_reg`. -/
def readReg (r : RegFile) (reg : Register) : Except CpuError (BitVec 64) :=
  match reg with
  | .none => .ok 0
  | .rip => .ok r.rip
  | .gpr8h _ => reg.gprIndex.map fun i => r.gpr i >>> 8 &&& 0xff
  | _ => reg.gprIndex.bind fun i =>
    match reg.size with
    | 1 => .ok (r.gpr i &&& 0xff)
    | 2 => .ok (r.gpr i &&& 0xffff)
    | 4 => .ok (r.gpr i &&& 0xffffffff)
    | 8 => .ok (r.gpr i)
    | size => .error (.message s!"unsupported register size {size}")

/-- `write_reg`. Writes of four bytes clear the upper half. -/
def writeReg (r : RegFile) (reg : Register) (v : BitVec 64) : Except CpuError RegFile :=
  match reg with
  | .none => .ok r
  | .rip => .ok { r with rip := v }
  | .gpr8h _ => reg.gprIndex.map fun i =>
    r.setGpr i (r.gpr i &&& ~~~0xff00#64 ||| (v &&& 0xff) <<< 8)
  | _ => reg.gprIndex.bind fun i =>
    match reg.size with
    | 1 => .ok (r.setGpr i (r.gpr i &&& ~~~0xff#64 ||| v &&& 0xff))
    | 2 => .ok (r.setGpr i (r.gpr i &&& ~~~0xffff#64 ||| v &&& 0xffff))
    | 4 => .ok (r.setGpr i (v &&& 0xffffffff))
    | 8 => .ok (r.setGpr i v)
    | size => .error (.message s!"unsupported register size {size}")

theorem readReg_setRflags (r : RegFile) (f : BitVec 64) (reg : Register) :
    (r.setRflags f).readReg reg = r.readReg reg := by
  cases reg <;> rfl

/-- `read_xmm`. -/
def readXmm (r : RegFile) : Register → Except CpuError (BitVec 128)
  | .xmm i =>
    if h : i.val < 16 then .ok (r.xmm ⟨i, h⟩) else .error (.message s!"XMM index {i} OOB")
  | _ => .error (.message "not an XMM register")

/-- `write_xmm`. -/
def writeXmm (r : RegFile) (reg : Register) (v : BitVec 128) : Except CpuError RegFile :=
  match reg with
  | .xmm i =>
    if h : i.val < 16 then .ok { r with xmm := Function.update r.xmm ⟨i, h⟩ v }
    else .error (.message s!"XMM index {i} OOB")
  | _ => .error (.message "not an XMM register")

end RegFile

end Wie
