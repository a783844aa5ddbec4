import Mathlib.Data.BitVec
import Wie.Cpu.Width

/-!
# Parts of registers

A general register of 64 bits has parts with names of their own. A part of four bytes that is
written clears the upper half of the register; smaller ones leave the rest of it.

## Main definitions

* `Register.IsGpr` — the general registers and their parts
* `RegFile.part`, `RegFile.putPart` — what a part holds, and registers with another value in it

## Main results

* `RegFile.readReg_part`, `RegFile.writeReg_part` — how the interpreter reads and writes them
* `RegFile.part_putPart`, `RegFile.putPart_comm` — parts that have been written
-/

namespace Wie

namespace Register

/-- A general register or a part of one. -/
def IsGpr : Register → Prop
  | gpr64 _ | gpr32 _ | gpr16 _ | gpr8 _ | gpr8h _ => True
  | _ => False

/-- The register that it is a part of. -/
def index : Register → Fin 16
  | gpr64 i | gpr32 i | gpr16 i | gpr8 i => i
  | gpr8h i => i.castLE four_le
  | _ => 0

/-- The part of 64 bits. -/
def slice (g : BitVec 64) : Register → BitVec 64
  | gpr64 _ => g
  | gpr32 _ => (g.setWidth 32).setWidth 64
  | gpr16 _ => (g.setWidth 16).setWidth 64
  | gpr8 _ => (g.setWidth 8).setWidth 64
  | gpr8h _ => (g.extractLsb' 8 8).setWidth 64
  | _ => 0

/-- The 64 bits with another part. Four bytes clear the upper half. -/
def merge (g v : BitVec 64) : Register → BitVec 64
  | gpr64 _ => v
  | gpr32 _ => (v.setWidth 32).setWidth 64
  | gpr16 _ => g.extractLsb' 16 48 ++ v.setWidth 16
  | gpr8 _ => g.extractLsb' 8 56 ++ v.setWidth 8
  | gpr8h _ => g.extractLsb' 16 48 ++ v.setWidth 8 ++ g.setWidth 8
  | _ => g

end Register

/-! ### Bits of masks -/

section Masks

variable {k l : ℕ} {g v : BitVec 64}

theorem getLsbD_lowMask (m : BitVec 64) (hm : m.toNat = 2 ^ k - 1) (i : ℕ) :
    m.getLsbD i = decide (i < k) := by
  rw [BitVec.getLsbD, hm, Nat.testBit_two_pow_sub_one]

theorem and_lowMask (v m : BitVec 64) (hm : m.toNat = 2 ^ k - 1) :
    v &&& m = (v.setWidth k).setWidth 64 := by
  apply BitVec.eq_of_getLsbD_eq
  intro i hi
  rw [BitVec.getLsbD_and, getLsbD_lowMask m hm, BitVec.getLsbD_setWidth, BitVec.getLsbD_setWidth,
    decide_eq_true hi, Bool.true_and, Bool.and_comm]

/-- The bits of 64 bits with other lower ones. -/
theorem getLsbD_low {i : ℕ} (g v : BitVec 64) (hkl : l + k = 64) (hi : i < 64) :
    (g.extractLsb' k l ++ v.setWidth k).getLsbD i = if i < k then v.getLsbD i else g.getLsbD i := by
  rw [BitVec.getLsbD_append, BitVec.getLsbD_setWidth, BitVec.getLsbD_extractLsb']
  by_cases hik : i < k
  · rw [if_pos hik, if_pos hik, decide_eq_true hik, Bool.true_and]
  · have hl : i - k < l := by omega
    rw [if_neg hik, if_neg hik, decide_eq_true hl, Bool.true_and,
      Nat.add_sub_cancel' (not_lt.mp hik)]

theorem setWidth_low (g v : BitVec 64) (hkl : l + k = 64) :
    (g.extractLsb' k l ++ v.setWidth k).setWidth k = v.setWidth k := by
  apply BitVec.eq_of_getLsbD_eq
  intro i hi
  rw [BitVec.getLsbD_setWidth, getLsbD_low g v hkl (by omega), if_pos hi, BitVec.getLsbD_setWidth]

/-- The lower bits are other ones. -/
theorem merge_append (g v m : BitVec 64) (hm : m.toNat = 2 ^ k - 1) (hkl : l + k = 64) :
    g &&& ~~~m ||| v &&& m = (g.extractLsb' k l ++ v.setWidth k).setWidth 64 := by
  apply BitVec.eq_of_getLsbD_eq
  intro i hi
  rw [BitVec.getLsbD_or, BitVec.getLsbD_and, BitVec.getLsbD_and, BitVec.getLsbD_not,
    getLsbD_lowMask m hm, BitVec.getLsbD_setWidth, getLsbD_low g v hkl hi, decide_eq_true hi]
  by_cases hik : i < k <;> simp [hik]

/-- The bits of 64 bits with another second byte. -/
theorem getLsbD_second {i : ℕ} (g v : BitVec 64) (hi : i < 64) :
    (g.extractLsb' 16 48 ++ v.setWidth 8 ++ g.setWidth 8 : BitVec 64).getLsbD i =
      if 8 ≤ i ∧ i < 16 then v.getLsbD (i - 8) else g.getLsbD i := by
  rw [BitVec.getLsbD_append, BitVec.getLsbD_append, BitVec.getLsbD_setWidth,
    BitVec.getLsbD_setWidth, BitVec.getLsbD_extractLsb']
  rcases Nat.lt_or_ge i 8 with h8 | h8
  · have hout : ¬(8 ≤ i ∧ i < 16) := by omega
    rw [if_pos h8, if_neg hout, decide_eq_true h8, Bool.true_and]
  · rw [if_neg (not_lt.mpr h8)]
    rcases Nat.lt_or_ge i 16 with h16 | h16
    · have hlt : i - 8 < 8 := by omega
      rw [if_pos hlt, if_pos ⟨h8, h16⟩, decide_eq_true hlt, Bool.true_and]
    · have hge : ¬i - 8 < 8 := by omega
      have hout : ¬(8 ≤ i ∧ i < 16) := by omega
      have hlt : i - 8 - 8 < 48 := by omega
      have hback : 16 + (i - 8 - 8) = i := by omega
      rw [if_neg hge, if_neg hout, decide_eq_true hlt, Bool.true_and, hback]

/-- The second byte is another one. -/
theorem merge_second (g v : BitVec 64) : g &&& ~~~0xff00#64 ||| (v &&& 0xff#64) <<< 8 =
    g.extractLsb' 16 48 ++ v.setWidth 8 ++ g.setWidth 8 := by
  have hmask : 0xff00#64 = 0xff#64 <<< 8 := rfl
  apply BitVec.eq_of_getLsbD_eq
  intro i hi
  rw [getLsbD_second g v hi, BitVec.getLsbD_or, BitVec.getLsbD_and, BitVec.getLsbD_not, hmask,
    BitVec.getLsbD_shiftLeft, BitVec.getLsbD_shiftLeft, BitVec.getLsbD_and,
    getLsbD_lowMask (k := 8) 0xff#64 rfl, decide_eq_true hi]
  rcases Nat.lt_or_ge i 8 with h8 | h8
  · simp [h8, Nat.not_le.mpr h8]
  · have hiff : i - 8 < 8 ↔ i < 16 := by omega
    by_cases h16 : i < 16 <;> simp [h8, Nat.not_lt.mpr h8, hiff, h16]

end Masks

/-! ### Parts that have been written -/

namespace Register

variable {reg reg' : Register} (g a b v : BitVec 64)

theorem slice_merge (h : reg.IsGpr) : reg.slice (reg.merge g v) = v &&& sizeMask reg.size := by
  cases reg with
  | gpr64 i => exact (and_sizeMask_eight v).symm
  | gpr32 i =>
    show (((v.setWidth 32).setWidth 64).setWidth 32).setWidth 64 = v &&& 0xffffffff#64
    have h32 : ((v.setWidth 32).setWidth 64).setWidth 32 = v.setWidth 32 := by
      rw [BitVec.setWidth_setWidth_of_le _ (by decide : 32 ≤ 64), BitVec.setWidth_eq]
    rw [and_lowMask (k := 32) _ _ rfl, h32]
  | gpr16 i =>
    show ((g.extractLsb' 16 48 ++ v.setWidth 16).setWidth 16).setWidth 64 = v &&& 0xffff#64
    rw [and_lowMask (k := 16) _ _ rfl, setWidth_low g v rfl]
  | gpr8 i =>
    show ((g.extractLsb' 8 56 ++ v.setWidth 8).setWidth 8).setWidth 64 = v &&& 0xff#64
    rw [and_lowMask (k := 8) _ _ rfl, setWidth_low g v rfl]
  | gpr8h i =>
    show (BitVec.extractLsb' 8 8
      (g.extractLsb' 16 48 ++ v.setWidth 8 ++ g.setWidth 8 : BitVec 64)).setWidth 64 = v &&& 0xff#64
    rw [and_lowMask (k := 8) _ _ rfl]
    apply BitVec.eq_of_getLsbD_eq
    intro j hj
    rw [BitVec.getLsbD_setWidth, BitVec.getLsbD_setWidth, BitVec.getLsbD_setWidth,
      BitVec.getLsbD_extractLsb']
    by_cases hj8 : j < 8
    · rw [getLsbD_second g v (by omega), if_pos (by omega), Nat.add_sub_cancel_left]
    · rw [decide_eq_false hj8]
      simp
  | none | rip | eip | xmm | other => exact h.elim

theorem merge_merge : reg.merge (reg.merge g a) b = reg.merge g b := by
  apply BitVec.eq_of_getLsbD_eq
  intro j hj
  cases reg with
  | gpr16 i =>
    show (BitVec.extractLsb' 16 48 (_ : BitVec 64) ++ _ : BitVec 64).getLsbD j =
      (BitVec.extractLsb' 16 48 g ++ _ : BitVec 64).getLsbD j
    rw [getLsbD_low _ _ rfl hj, getLsbD_low _ _ rfl hj]
    by_cases h : j < 16
    · rw [if_pos h, if_pos h]
    · rw [if_neg h, if_neg h]
      exact (getLsbD_low g a rfl hj).trans (if_neg h)
  | gpr8 i =>
    show (BitVec.extractLsb' 8 56 (_ : BitVec 64) ++ _ : BitVec 64).getLsbD j =
      (BitVec.extractLsb' 8 56 g ++ _ : BitVec 64).getLsbD j
    rw [getLsbD_low _ _ rfl hj, getLsbD_low _ _ rfl hj]
    by_cases h : j < 8
    · rw [if_pos h, if_pos h]
    · rw [if_neg h, if_neg h]
      exact (getLsbD_low g a rfl hj).trans (if_neg h)
  | gpr8h i =>
    refine (getLsbD_second _ b hj).trans (Eq.trans ?_ (getLsbD_second g b hj).symm)
    by_cases h : 8 ≤ j ∧ j < 16
    · rw [if_pos h, if_pos h]
    · rw [if_neg h, if_neg h]
      exact (getLsbD_second g a hj).trans (if_neg h)
  | gpr64 | gpr32 | none | rip | eip | xmm | other => rfl

/-- The two bytes of a register. -/
theorem merge_second_comm (i : Fin 16) (j : Fin 4) :
    (gpr8h j).merge ((gpr8 i).merge g a) b = (gpr8 i).merge ((gpr8h j).merge g b) a := by
  apply BitVec.eq_of_getLsbD_eq
  intro l hl
  refine (getLsbD_second _ b hl).trans (Eq.trans ?_ (getLsbD_low _ a rfl hl).symm)
  rcases Nat.lt_or_ge l 8 with h8 | h8
  · rw [if_neg (by omega), if_pos h8]
    exact (getLsbD_low g a rfl hl).trans (if_pos h8)
  · rw [if_neg (not_lt.mpr h8)]
    refine Eq.trans ?_ (getLsbD_second g b hl).symm
    by_cases h16 : l < 16
    · rw [if_pos ⟨h8, h16⟩, if_pos ⟨h8, h16⟩]
    · rw [if_neg (by omega), if_neg (by omega)]
      exact (getLsbD_low g a rfl hl).trans (if_neg (not_lt.mpr h8))

/-- Of one register and one size are only its two bytes. -/
theorem two_bytes (hreg : reg ≠ reg') (hsize : reg.size = reg'.size) (hi : reg.index = reg'.index)
    (h : reg.IsGpr) (h' : reg'.IsGpr) :
    (∃ i j, reg = gpr8 i ∧ reg' = gpr8h j) ∨ ∃ i j, reg = gpr8h j ∧ reg' = gpr8 i := by
  cases reg with
  | gpr64 i =>
    cases reg' with
    | gpr64 j => exact absurd (congrArg gpr64 hi) hreg
    | gpr32 | gpr16 | gpr8 | gpr8h => cases hsize
    | none | rip | eip | xmm | other => exact h'.elim
  | gpr32 i =>
    cases reg' with
    | gpr32 j => exact absurd (congrArg gpr32 hi) hreg
    | gpr64 | gpr16 | gpr8 | gpr8h => cases hsize
    | none | rip | eip | xmm | other => exact h'.elim
  | gpr16 i =>
    cases reg' with
    | gpr16 j => exact absurd (congrArg gpr16 hi) hreg
    | gpr64 | gpr32 | gpr8 | gpr8h => cases hsize
    | none | rip | eip | xmm | other => exact h'.elim
  | gpr8 i =>
    cases reg' with
    | gpr8 j => exact absurd (congrArg gpr8 hi) hreg
    | gpr8h j => exact .inl ⟨i, j, rfl, rfl⟩
    | gpr64 | gpr32 | gpr16 => cases hsize
    | none | rip | eip | xmm | other => exact h'.elim
  | gpr8h i =>
    cases reg' with
    | gpr8 j => exact .inr ⟨j, i, rfl, rfl⟩
    | gpr8h j => exact absurd (congrArg gpr8h (Fin.castLE_injective four_le hi)) hreg
    | gpr64 | gpr32 | gpr16 => cases hsize
    | none | rip | eip | xmm | other => exact h'.elim
  | none | rip | eip | xmm | other => exact h.elim

/-- A part that is written as it was. Four bytes still clear the upper half. -/
theorem merge_slice_eq_iff (h : reg.IsGpr) :
    reg.merge g (reg.slice g) = g ↔ (reg.size = 4 → g.toNat < 2 ^ 32) := by
  cases reg with
  | gpr64 i => exact iff_of_true rfl fun hs => absurd hs (show ¬8 = 4 by decide)
  | gpr32 i =>
    have hmerge : ((gpr32 i).merge g ((gpr32 i).slice g)).toNat = g.toNat % 2 ^ 32 := by
      show ((((g.setWidth 32).setWidth 64).setWidth 32).setWidth 64).toNat = _
      simp only [BitVec.toNat_setWidth]
      omega
    rw [← BitVec.toNat_inj, hmerge]
    constructor
    · intro heq _
      omega
    · intro hlt
      exact Nat.mod_eq_of_lt (hlt rfl)
  | gpr16 i =>
    refine iff_of_true (BitVec.eq_of_getLsbD_eq fun j hj => ?_) fun hs =>
      absurd hs (show ¬2 = 4 by decide)
    refine (getLsbD_low g _ rfl hj).trans ?_
    by_cases h16 : j < 16
    · rw [if_pos h16, slice, BitVec.getLsbD_setWidth, BitVec.getLsbD_setWidth, decide_eq_true h16,
        decide_eq_true hj, Bool.true_and, Bool.true_and]
    · rw [if_neg h16]
  | gpr8 i =>
    refine iff_of_true (BitVec.eq_of_getLsbD_eq fun j hj => ?_) fun hs =>
      absurd hs (show ¬1 = 4 by decide)
    refine (getLsbD_low g _ rfl hj).trans ?_
    by_cases h8 : j < 8
    · rw [if_pos h8, slice, BitVec.getLsbD_setWidth, BitVec.getLsbD_setWidth, decide_eq_true h8,
        decide_eq_true hj, Bool.true_and, Bool.true_and]
    · rw [if_neg h8]
  | gpr8h i =>
    refine iff_of_true (BitVec.eq_of_getLsbD_eq fun j hj => ?_) fun hs =>
      absurd hs (show ¬1 = 4 by decide)
    refine (getLsbD_second g _ hj).trans ?_
    by_cases h8 : 8 ≤ j ∧ j < 16
    · have hlt : j - 8 < 8 := by omega
      have hlt' : j - 8 < 64 := by omega
      rw [if_pos h8, slice, BitVec.getLsbD_setWidth, BitVec.getLsbD_extractLsb', decide_eq_true hlt,
        decide_eq_true hlt', Bool.true_and, Bool.true_and, Nat.add_sub_cancel' h8.1]
    · rw [if_neg h8]
  | none | rip | eip | xmm | other => exact h.elim

theorem toNat_slice_lt : (reg.slice g).toNat < 2 ^ (8 * reg.size) := by
  cases reg with
  | gpr64 i => exact g.isLt
  | gpr32 i | gpr16 i | gpr8 i | gpr8h i =>
    rw [slice, BitVec.toNat_setWidth]
    exact (Nat.mod_le ..).trans_lt (BitVec.isLt _)
  | none | rip | eip | xmm | other => exact Nat.two_pow_pos _

end Register

namespace RegFile

variable {r : RegFile} {reg reg' : Register} {a b v : BitVec 64}

/-- What a register holds. -/
def part (r : RegFile) (reg : Register) : BitVec 64 := reg.slice (r.gpr reg.index)

/-- Registers with another value in one. -/
def putPart (r : RegFile) (v : BitVec 64) (reg : Register) : RegFile :=
  r.setGpr reg.index (reg.merge (r.gpr reg.index) v)

/-- **How a register is read.** -/
theorem readReg_part (h : reg.IsGpr) : r.readReg reg = .ok (r.part reg) := by
  cases reg with
  | gpr64 i => rfl
  | gpr32 i =>
    show Except.ok (r.gpr i &&& 0xffffffff#64) = _
    rw [and_lowMask (k := 32) _ _ rfl]
    rfl
  | gpr16 i =>
    show Except.ok (r.gpr i &&& 0xffff#64) = _
    rw [and_lowMask (k := 16) _ _ rfl]
    rfl
  | gpr8 i =>
    show Except.ok (r.gpr i &&& 0xff#64) = _
    rw [and_lowMask (k := 8) _ _ rfl]
    rfl
  | gpr8h i =>
    show Except.ok (r.gpr (i.castLE Register.four_le) >>> 8 &&& 0xff#64) = _
    rw [and_lowMask (k := 8) _ _ rfl, BitVec.setWidth_ushiftRight_eq_extractLsb]
    rfl
  | none | rip | eip | xmm | other => exact h.elim

/-- **How a register is written.** -/
theorem writeReg_part (h : reg.IsGpr) : r.writeReg reg v = .ok (r.putPart v reg) := by
  cases reg with
  | gpr64 i => rfl
  | gpr32 i =>
    show Except.ok (r.setGpr i (v &&& 0xffffffff#64)) = _
    rw [and_lowMask (k := 32) _ _ rfl]
    rfl
  | gpr16 i =>
    show Except.ok (r.setGpr i (r.gpr i &&& ~~~0xffff#64 ||| v &&& 0xffff#64)) = _
    rw [merge_append (k := 16) (l := 48) _ _ _ rfl rfl, BitVec.setWidth_eq]
    rfl
  | gpr8 i =>
    show Except.ok (r.setGpr i (r.gpr i &&& ~~~0xff#64 ||| v &&& 0xff#64)) = _
    rw [merge_append (k := 8) (l := 56) _ _ _ rfl rfl, BitVec.setWidth_eq]
    rfl
  | gpr8h i =>
    show Except.ok (r.setGpr _ (r.gpr _ &&& ~~~0xff00#64 ||| (v &&& 0xff#64) <<< 8)) = _
    rw [merge_second]
    rfl
  | none | rip | eip | xmm | other => exact h.elim

/-! ### Registers after a part is written -/

theorem part_putPart (h : reg.IsGpr) : (r.putPart v reg).part reg = v &&& sizeMask reg.size := by
  rw [part, putPart, setGpr_gpr_self, Register.slice_merge _ _ h]

theorem putPart_putPart : (r.putPart a reg).putPart b reg = r.putPart b reg := by
  rw [putPart, putPart, setGpr_gpr_self, setGpr_setGpr, Register.merge_merge]
  rfl

/-- **Different parts of one size.** -/
theorem putPart_comm (hreg : reg ≠ reg') (hsize : reg.size = reg'.size) (h : reg.IsGpr)
    (h' : reg'.IsGpr) : (r.putPart a reg).putPart b reg' = (r.putPart b reg').putPart a reg := by
  by_cases hi : reg.index = reg'.index
  · have hmerge : reg'.merge (reg.merge (r.gpr reg.index) a) b =
        reg.merge (reg'.merge (r.gpr reg.index) b) a := by
      rcases Register.two_bytes hreg hsize hi h h' with ⟨i, j, rfl, rfl⟩ | ⟨i, j, rfl, rfl⟩
      · exact Register.merge_second_comm ..
      · exact (Register.merge_second_comm ..).symm
    rw [putPart, putPart, putPart, putPart, ← hi, setGpr_gpr_self, setGpr_gpr_self, setGpr_setGpr,
      setGpr_setGpr, hmerge]
  · rw [putPart, putPart, putPart, putPart, setGpr_gpr_of_ne _ _ (Ne.symm hi),
      setGpr_gpr_of_ne _ _ hi, setGpr_comm _ _ _ hi]

theorem putPart_part_iff (h : reg.IsGpr) :
    r.putPart (r.part reg) reg = r ↔ (reg.size = 4 → (r.gpr reg.index).toNat < 2 ^ 32) := by
  rw [← Register.merge_slice_eq_iff _ h, putPart, part]
  constructor
  · intro heq
    have := congrArg (fun r : RegFile => r.gpr reg.index) heq
    rwa [setGpr_gpr_self] at this
  · intro heq
    rw [heq, setGpr, Function.update_eq_self]

theorem toNat_part_lt (r : RegFile) (reg : Register) : (r.part reg).toNat < 2 ^ (8 * reg.size) :=
  Register.toNat_slice_lt _

theorem part_setRflags (g : BitVec 64) : (r.setRflags g).part reg = r.part reg := rfl

theorem putPart_setRflags (g : BitVec 64) :
    (r.setRflags g).putPart v reg = (r.putPart v reg).setRflags g := rfl

end RegFile

end Wie
