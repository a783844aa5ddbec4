import Wie.Cpu.Exchange
import Wie.Cpu.SumFlags

/-!
# Conditions after a comparison

CMP sets the flags of a difference, and a conditional jump, move or set looks at them. There are two
computations of the flags, that of the interpreter and the one the compiler emits, and four readers
of them: a table for each kind of instruction in the interpreter, and one in the compiler.

Both computations set the flags the conditions look at in the same way, and each condition is then
the comparison its name says, of the operands at their width.

## Main definitions

* `flagsSub`, `cmpFlags`, `flagCond` — what the compiler emits
* `CondCode.Compares` — the comparisons

## Main results

* `has_flagsSub` — the two computations agree
* `CondCode.holds_cmp` — each condition is its comparison
* `conditions_after_cmp` — in all four tables
-/

namespace Wie

open Rflags

/-! ### What the compiler emits -/

/-- `flags_sub`. -/
def flagsSub (old dst src result : BitVec 64) (bits : ℕ) : BitVec 64 :=
  let d := maskWidth dst bits
  let s := maskWidth src bits
  let r := maskWidth result bits
  let f := clearFlags old (CF ||| ZF ||| SF ||| PF ||| OF ||| AF)
  let f := f ||| selectFlag (d < s) CF
  let f := flagsZsPf f r bits
  let sb := 1 <<< min (bits - 1) 63
  let f := f ||| selectFlag ((d ^^^ s) &&& (d ^^^ r) &&& sb ≠ 0) OF
  f ||| selectFlag ((d ^^^ s ^^^ r) &&& 0x10 ≠ 0) AF

/-- The flags after the CMP of `lower_cmp_test_lazy`, once they are needed. -/
def cmpFlags (old aRaw bRaw : BitVec 64) (bits : ℕ) : BitVec 64 :=
  let a := maskWidth aRaw bits
  let b := maskWidth bRaw bits
  let res := maskWidth (a - b) bits
  flagsSub old a b res bits

/-- `flag_set`. -/
def flagSet (rflags bit : BitVec 64) : Bool := rflags &&& bit ≠ 0

/-- `bool_to_i64`. -/
def boolToI64 (b : Bool) : BitVec 64 := if b then 1 else 0

/-- `flag_cond`. Other mnemonics are not compiled. -/
def flagCond (rflags : BitVec 64) (m : Mnemonic) : Option Bool :=
  let zf1 := boolToI64 (flagSet rflags ZF)
  let cf1 := boolToI64 (flagSet rflags CF)
  let sf1 := boolToI64 (flagSet rflags SF)
  let of1 := boolToI64 (flagSet rflags OF)
  let pf1 := boolToI64 (flagSet rflags PF)
  let notZf := zf1 ^^^ 1
  let notCf := cf1 ^^^ 1
  let notOf := of1 ^^^ 1
  let notSf := sf1 ^^^ 1
  let notPf := pf1 ^^^ 1
  let cond : CondCode → BitVec 64
    | .e => zf1
    | .ne => notZf
    | .a => notCf &&& notZf
    | .ae => notCf
    | .b => cf1
    | .be => cf1 ||| zf1
    | .g => notZf &&& boolToI64 (sf1 = of1)
    | .ge => boolToI64 (sf1 = of1)
    | .l => boolToI64 (sf1 ≠ of1)
    | .le => zf1 ||| boolToI64 (sf1 ≠ of1)
    | .o => of1
    | .no => notOf
    | .s => sf1
    | .ns => notSf
    | .p => pf1
    | .np => notPf
  match m with
  | .jcc cc | .cmovcc cc | .setcc cc => some (cond cc ≠ 0)
  | _ => none

/-! ### Bits as words -/

@[simp] theorem boolToI64_xor_one (b : Bool) : boolToI64 b ^^^ 1#64 = boolToI64 !b := by
  cases b <;> rfl

@[simp] theorem boolToI64_and (a b : Bool) : boolToI64 a &&& boolToI64 b = boolToI64 (a && b) := by
  cases a <;> cases b <;> rfl

@[simp] theorem boolToI64_or (a b : Bool) : boolToI64 a ||| boolToI64 b = boolToI64 (a || b) := by
  cases a <;> cases b <;> rfl

@[simp] theorem boolToI64_inj {a b : Bool} : boolToI64 a = boolToI64 b ↔ a = b := by
  cases a <;> cases b <;> decide

@[simp] theorem boolToI64_eq_zero {b : Bool} : boolToI64 b = 0#64 ↔ b = false := by
  cases b <;> decide

theorem flagSet_eq (f bit : BitVec 64) : flagSet f bit = has f bit := by
  simp [flagSet, has, bne, Bool.beq_eq_decide_eq]

/-- **The table of the compiler is that of the interpreter.** -/
theorem flagCond_eq (r : RegFile) (cc : CondCode) {m : Mnemonic}
    (hm : m = .jcc cc ∨ m = .cmovcc cc ∨ m = .setcc cc) :
    flagCond r.rflags m = some (cc.holds r) := by
  have hset : ∀ bit, flagSet r.rflags bit = r.flag bit := fun bit => flagSet_eq r.rflags bit
  have hcond : flagCond r.rflags m = flagCond r.rflags (.jcc cc) := by
    rcases hm with rfl | rfl | rfl <;> rfl
  rw [hcond]
  simp only [flagCond, hset]
  cases cc <;> simp [CondCode.holds, bne, Bool.beq_eq_decide_eq]

/-! ### One computation and the other -/

/-- A flag after one is selected. -/
theorem has_or_selectFlag (f : BitVec 64) (on : Bool) {k j : ℕ} (hj : j < 64) :
    has (f ||| selectFlag on (.twoPow 64 k)) (.twoPow 64 j) =
      (has f (.twoPow 64 j) || decide (j = k) && on) := by
  rw [has_twoPow _ hj, has_twoPow _ hj, BitVec.getLsbD_or]
  by_cases hjk : j = k
  · rw [hjk, getLsbD_selectFlag_self on (hjk ▸ hj), decide_eq_true rfl, Bool.true_and]
  · rw [getLsbD_selectFlag on (Ne.symm hjk), decide_eq_false hjk, Bool.false_and]

/-- A flag after some are cleared. -/
theorem has_clearFlags (f bits : BitVec 64) {j : ℕ} (hj : j < 64) :
    has (clearFlags f bits) (.twoPow 64 j) = (has f (.twoPow 64 j) && !bits.getLsbD j) := by
  rw [has_twoPow _ hj, has_twoPow _ hj, clearFlags, BitVec.getLsbD_and, BitVec.getLsbD_not,
    decide_eq_true hj, Bool.true_and]

variable {size : ℕ}

theorem maskWidth_size (h : IsWidth size) (v : BitVec 64) :
    maskWidth v (8 * size) = v &&& sizeMask size := by
  rcases h with rfl | rfl | rfl | rfl
  · rfl
  · rfl
  · rfl
  · exact (and_sizeMask_eight v).symm

theorem signBit_size (h : IsWidth size) :
    (1 <<< min (8 * size - 1) 63 : BitVec 64) = signBit size := by
  rcases h with rfl | rfl | rfl | rfl <;> rfl

/-- Parity by folding. -/
theorem fold_parity (v : BitVec 64) :
    pfFlag v = selectFlag (parityEven (v.setWidth 8)) PF := by
  have hall : ∀ n : Fin 256, pfFlag ((BitVec.ofFin n : BitVec 8).setWidth 64) =
      selectFlag (parityEven (.ofFin n)) PF := by decide +kernel
  have hlow : maskWidth v 8 = maskWidth ((v.setWidth 8).setWidth 64) 8 := by
    apply BitVec.eq_of_toNat_eq
    rw [maskWidth_size (.inl rfl), maskWidth_size (.inl rfl), toNat_and_mask (.inl rfl),
      toNat_and_mask (.inl rfl), BitVec.toNat_setWidth, BitVec.toNat_setWidth]
    omega
  have h := hall (v.setWidth 8).toFin
  rw [pfFlag] at h ⊢
  rw [hlow]
  exact h

theorem has_flagsZsPf (f v : BitVec 64) (h : IsWidth size) {j : ℕ} (hj : j < 64) :
    has (flagsZsPf f v (8 * size)) (.twoPow 64 j) =
      if j = 6 then decide (v &&& sizeMask size = 0)
      else if j = 7 then decide (v &&& sizeMask size &&& signBit size ≠ 0)
      else if j = 2 then parityEven ((v &&& sizeMask size).setWidth 8)
      else has f (.twoPow 64 j) := by
  simp only [flagsZsPf, fold_parity, maskWidth_size h, signBit_size h, ZF, SF, PF,
    has_or_selectFlag _ _ hj, has_clearFlags _ _ hj]
  rw [BitVec.getLsbD_or, BitVec.getLsbD_or, BitVec.getLsbD_twoPow, BitVec.getLsbD_twoPow,
    BitVec.getLsbD_twoPow]
  split_ifs with h6 h7 h2
  · simp [h6]
  · simp [h7]
  · simp [h2]
  · simp [h6, h7, h2, Ne.symm h6, Ne.symm h7, Ne.symm h2]

/-- The flags that SUB sets. -/
def SUB_FLAGS : List ℕ := [0, 2, 4, 6, 7, 11]

/-- **The compiler sets the flags as the interpreter does.** -/
theorem has_flagsSub (h : IsWidth size) (f d s v : BitVec 64) {j : ℕ} (hj : j ∈ SUB_FLAGS) :
    has (flagsSub f d s v (8 * size)) (.twoPow 64 j) =
      has (subFlags f d s v size) (.twoPow 64 j) := by
  have hlt : j < 64 := by
    revert j
    decide
  have hone : j ≠ 1 := by
    revert j
    decide
  have hmask : v &&& sizeMask size &&& sizeMask size = v &&& sizeMask size := by
    rw [BitVec.and_assoc, BitVec.and_self]
  simp only [flagsSub, subFlags, maskWidth_size h, signBit_size h, CF, PF, AF, ZF, SF, OF,
    has_or_selectFlag _ _ hlt, has_flagsZsPf _ _ h hlt, has_clearFlags _ _ hlt, hmask]
  simp only [has_put _ _ hlt hone]
  simp only [SUB_FLAGS, List.mem_cons, List.not_mem_nil, or_false] at hj
  rcases hj with rfl | rfl | rfl | rfl | rfl | rfl <;> simp

/-- The conditions look at no other flags. -/
theorem flagCond_congr {f g : BitVec 64}
    (h : ∀ j ∈ SUB_FLAGS, has f (.twoPow 64 j) = has g (.twoPow 64 j)) (m : Mnemonic) :
    flagCond f m = flagCond g m := by
  have hzf : has f ZF = has g ZF := h 6 (by decide)
  have hcf : has f CF = has g CF := h 0 (by decide)
  have hsf : has f SF = has g SF := h 7 (by decide)
  have hof : has f OF = has g OF := h 11 (by decide)
  have hpf : has f PF = has g PF := h 2 (by decide)
  simp only [flagCond, flagSet_eq, hzf, hcf, hsf, hof, hpf]

/-- Operands that are cut to the width already. -/
theorem subFlags_masked (f x y : BitVec 64) (h : IsWidth size) :
    subFlags f (x &&& sizeMask size) (y &&& sizeMask size)
      ((x &&& sizeMask size) - (y &&& sizeMask size) &&& sizeMask size) size =
        subFlags f x y (x - y) size := by
  have hidem : ∀ v : BitVec 64, v &&& sizeMask size &&& sizeMask size = v &&& sizeMask size := by
    intro v
    rw [BitVec.and_assoc, BitVec.and_self]
  have hsub : (x &&& sizeMask size) - (y &&& sizeMask size) &&& sizeMask size =
      (x - y) &&& sizeMask size := by
    apply BitVec.eq_of_toNat_eq
    rw [toNat_and_mask h, toNat_and_mask h, BitVec.toNat_sub, BitVec.toNat_sub, toNat_and_mask h,
      toNat_and_mask h]
    have hx := x.isLt
    have hy := y.isLt
    rcases h with rfl | rfl | rfl | rfl <;> simp only [Nat.reduceMul, Nat.reducePow] <;> omega
  simp only [subFlags, hidem, hsub]

/-- **The flags after CMP.** -/
theorem has_cmpFlags (h : IsWidth size) (f x y : BitVec 64) {j : ℕ} (hj : j ∈ SUB_FLAGS) :
    has (cmpFlags f x y (8 * size)) (.twoPow 64 j) =
      has (ArithOp.cmp.flags f x y size) (.twoPow 64 j) := by
  simp only [cmpFlags, has_flagsSub h _ _ _ _ hj, maskWidth_size h]
  rw [subFlags_masked f x y h]
  rfl

/-! ### The comparisons -/

/-- What the name of a condition says of the operands of a comparison. -/
def CondCode.Compares {w : ℕ} (a b : BitVec w) : CondCode → Prop
  | .e => a = b
  | .ne => a ≠ b
  | .a => b < a
  | .ae => b ≤ a
  | .b => a < b
  | .be => a ≤ b
  | .g => b.toInt < a.toInt
  | .ge => b.toInt ≤ a.toInt
  | .l => a.toInt < b.toInt
  | .le => a.toInt ≤ b.toInt
  | .o => a.ssubOverflow b = true
  | .no => a.ssubOverflow b = false
  | .s => (a - b).toInt < 0
  | .ns => 0 ≤ (a - b).toInt
  | .p => parityEven ((a - b).setWidth 8) = true
  | .np => parityEven ((a - b).setWidth 8) = false

instance {w : ℕ} (a b : BitVec w) : DecidablePred (CondCode.Compares a b)
  | .e => inferInstanceAs (Decidable (a = b))
  | .ne => inferInstanceAs (Decidable (a ≠ b))
  | .a => inferInstanceAs (Decidable (b < a))
  | .ae => inferInstanceAs (Decidable (b ≤ a))
  | .b => inferInstanceAs (Decidable (a < b))
  | .be => inferInstanceAs (Decidable (a ≤ b))
  | .g => inferInstanceAs (Decidable (b.toInt < a.toInt))
  | .ge => inferInstanceAs (Decidable (b.toInt ≤ a.toInt))
  | .l => inferInstanceAs (Decidable (a.toInt < b.toInt))
  | .le => inferInstanceAs (Decidable (a.toInt ≤ b.toInt))
  | .o => inferInstanceAs (Decidable (a.ssubOverflow b = true))
  | .no => inferInstanceAs (Decidable (a.ssubOverflow b = false))
  | .s => inferInstanceAs (Decidable ((a - b).toInt < 0))
  | .ns => inferInstanceAs (Decidable (0 ≤ (a - b).toInt))
  | .p => inferInstanceAs (Decidable (parityEven ((a - b).setWidth 8) = true))
  | .np => inferInstanceAs (Decidable (parityEven ((a - b).setWidth 8) = false))

/-- An operand cut to its width, with a sign. -/
theorem toInt_setWidth_size (h : IsWidth size) (x : BitVec 64) :
    (x.setWidth (8 * size)).toInt =
      if (x &&& sizeMask size).toNat < 2 ^ (8 * size - 1) then
        ((x &&& sizeMask size).toNat : ℤ)
      else (x &&& sizeMask size).toNat - 2 * (2 ^ (8 * size - 1) : ℕ) := by
  obtain ⟨hbits, -⟩ := h.bits
  have hcast : ((2 ^ (8 * size) : ℕ) : ℤ) = 2 * (2 ^ (8 * size - 1) : ℕ) := by exact_mod_cast hbits
  rw [BitVec.toInt_eq_toNat_cond, BitVec.toNat_setWidth, toNat_and_mask h, hcast]
  have hiff : 2 * (x.toNat % 2 ^ (8 * size)) < 2 ^ (8 * size) ↔
      x.toNat % 2 ^ (8 * size) < 2 ^ (8 * size - 1) := by omega
  simp only [hiff]

/-- What the conditions look at after a comparison: the operands, the difference, and which of
them have a sign. -/
structure Compared (r : RegFile) (D S R H : ℕ) : Prop where
  /-- The operands are below twice the sign. -/
  dst : D < 2 * H
  /-- Both of them. -/
  src : S < 2 * H
  /-- The difference is as well. -/
  result : R < 2 * H
  /-- It borrows or does not. -/
  borrow : R + S = D ∨ R + S = D + 2 * H
  /-- Carry. -/
  cf : r.flag CF = decide (D < S)
  /-- Zero. -/
  zf : r.flag ZF = decide (R = 0)
  /-- Sign. -/
  sf : r.flag SF = decide (H ≤ R)
  /-- Overflow. -/
  of : r.flag OF = decide (¬(H ≤ D ↔ H ≤ S) ∧ ¬(H ≤ D ↔ H ≤ R))

theorem compared_subFlags (h : IsWidth size) (r : RegFile) (x y : BitVec 64) :
    Compared (r.setRflags (subFlags r.rflags x y (x - y) size)) (x &&& sizeMask size).toNat
      (y &&& sizeMask size).toNat ((x - y) &&& sizeMask size).toNat (2 ^ (8 * size - 1)) := by
  obtain ⟨hbits, -⟩ := h.bits
  have hlt : ∀ v : BitVec 64, (v &&& sizeMask size).toNat < 2 * 2 ^ (8 * size - 1) := by
    intro v
    rw [← hbits]
    exact toNat_and_mask_lt h v
  refine ⟨hlt x, hlt y, hlt _, ?_, ?_, ?_, ?_, ?_⟩
  · rw [toNat_and_mask h, toNat_and_mask h, toNat_and_mask h, ← hbits, BitVec.toNat_sub]
    have hx := x.isLt
    have hy := y.isLt
    rcases h with rfl | rfl | rfl | rfl <;> simp only [Nat.reduceMul, Nat.reducePow] <;> omega
  · exact has_cf_subFlags ..
  · refine (has_zf_subFlags ..).trans (decide_eq_decide.mpr ?_)
    rw [← BitVec.toNat_inj]
    rfl
  · exact (has_sf_subFlags ..).trans (sign_eq h _)
  · exact (has_of_subFlags ..).trans (signs_differ h ..)

/-- The difference cut to the width. -/
theorem setWidth_sub_size (h : IsWidth size) (x y : BitVec 64) :
    x.setWidth (8 * size) - y.setWidth (8 * size) = (x - y).setWidth (8 * size) := by
  apply BitVec.eq_of_toNat_eq
  rw [BitVec.toNat_sub, BitVec.toNat_setWidth, BitVec.toNat_setWidth, BitVec.toNat_setWidth,
    BitVec.toNat_sub]
  have hx := x.isLt
  have hy := y.isLt
  rcases h with rfl | rfl | rfl | rfl <;> simp only [Nat.reduceMul, Nat.reducePow] <;> omega

/-- The lowest byte of an operand. -/
theorem setWidth_setWidth_size (h : IsWidth size) (v : BitVec 64) :
    (v &&& sizeMask size).setWidth 8 = (v.setWidth (8 * size)).setWidth 8 := by
  apply BitVec.eq_of_toNat_eq
  rw [BitVec.toNat_setWidth, toNat_and_mask h, BitVec.toNat_setWidth, BitVec.toNat_setWidth]

/-- Overflow of a difference, by the signs. -/
theorem ssubOverflow_size_iff {D S R H : ℕ} {r : RegFile} (hc : Compared r D S R H) :
    ((H : ℤ) ≤ (if D < H then (D : ℤ) else D - 2 * H) - (if S < H then (S : ℤ) else S - 2 * H) ∨
      (if D < H then (D : ℤ) else D - 2 * H) - (if S < H then (S : ℤ) else S - 2 * H) < -H) ↔
      r.flag OF = true := by
  obtain ⟨hD, hS, hR, hb, -, -, -, hof⟩ := hc
  rw [hof, decide_eq_true_iff]
  split_ifs <;> omega

/-- **After a comparison each condition is what its name says.** -/
theorem CondCode.holds_cmp (h : IsWidth size) (r : RegFile) (x y : BitVec 64) (cc : CondCode) :
    cc.holds (r.setRflags (subFlags r.rflags x y (x - y) size)) = true ↔
      cc.Compares (x.setWidth (8 * size)) (y.setWidth (8 * size)) := by
  have hc := compared_subFlags h r x y
  have hov := ssubOverflow_size_iff hc
  have hpf : (r.setRflags (subFlags r.rflags x y (x - y) size)).flag PF =
      parityEven (((x - y).setWidth (8 * size)).setWidth 8) :=
    (has_pf_subFlags ..).trans (congrArg parityEven (setWidth_setWidth_size h _))
  have hdef : ∀ v : BitVec 64, (v.setWidth (8 * size)).toNat = (v &&& sizeMask size).toNat := by
    intro v
    rw [BitVec.toNat_setWidth, toNat_and_mask h]
  generalize r.setRflags (subFlags r.rflags x y (x - y) size) = r' at hc hov hpf ⊢
  have hne : x.setWidth (8 * size) = y.setWidth (8 * size) ↔
      (x &&& sizeMask size).toNat = (y &&& sizeMask size).toNat := by
    rw [← BitVec.toNat_inj, hdef, hdef]
  have hover : (x.setWidth (8 * size)).ssubOverflow (y.setWidth (8 * size)) = r'.flag OF := by
    have hcast : (2 : ℤ) ^ (8 * size - 1) = ((2 ^ (8 * size - 1) : ℕ) : ℤ) := by push_cast; rfl
    rw [Bool.eq_iff_iff, ← hov, BitVec.ssubOverflow, Bool.or_eq_true, decide_eq_true_iff,
      decide_eq_true_iff, toInt_setWidth_size h, toInt_setWidth_size h, hcast]
  obtain ⟨hD, hS, hR, hb, hcf, hzf, hsf, hof⟩ := hc
  have hx := toInt_setWidth_size h x
  have hy := toInt_setWidth_size h y
  have hr := toInt_setWidth_size h (x - y)
  have hx' := hdef x
  have hy' := hdef y
  generalize (x &&& sizeMask size).toNat = D at *
  generalize (y &&& sizeMask size).toNat = S at *
  generalize ((x - y) &&& sizeMask size).toNat = R at *
  generalize 2 ^ (8 * size - 1) = H at *
  cases cc <;>
    simp only [CondCode.holds, CondCode.Compares, setWidth_sub_size h, hx, hy, hr, hne,
      BitVec.lt_def, BitVec.le_def, hx', hy', hcf, hzf, hsf, hover, hof, hpf, ne_eq,
      Bool.and_eq_true, Bool.or_eq_true, Bool.not_eq_true', decide_eq_true_iff, decide_eq_false_iff_not,
      beq_iff_eq, bne_iff_ne, decide_eq_decide]
  case e | ne | a | ae | be => omega
  -- with a sign: SF and OF differ exactly where the first operand is the smaller one
  case g | ge | l | le | s | ns => split_ifs <;> omega

/-- **All four tables.** After `CMP a, b` on operands of any width, the three tables of the
interpreter and that of the compiler say of each condition whether the comparison holds. -/
theorem conditions_after_cmp (h : IsWidth size) (r : RegFile) (x y : BitVec 64) (cc : CondCode) :
    let a := x.setWidth (8 * size)
    let b := y.setWidth (8 * size)
    let after := r.setRflags (ArithOp.cmp.flags r.rflags x y size)
    let emitted := cmpFlags r.rflags x y (8 * size)
    (condFromJcc (.jcc cc) after = true ↔ cc.Compares a b) ∧
      (condFromCmov (.cmovcc cc) after = true ↔ cc.Compares a b) ∧
      (condFromSetcc (.setcc cc) after = true ↔ cc.Compares a b) ∧
      ∀ m, m = .jcc cc ∨ m = .cmovcc cc ∨ m = .setcc cc →
        (flagCond emitted m = some true ↔ cc.Compares a b) ∧
          (flagCond emitted m = some false ↔ ¬cc.Compares a b) := by
  intro a b after emitted
  have hholds : cc.holds after = true ↔ cc.Compares a b := CondCode.holds_cmp h r x y cc
  refine ⟨hholds, hholds, hholds, fun m hm => ?_⟩
  have hemitted : flagCond emitted m = some (cc.holds after) :=
    (flagCond_congr (fun _ hj => has_cmpFlags h r.rflags x y hj) m).trans (flagCond_eq after cc hm)
  rw [hemitted, Option.some.injEq, Option.some.injEq, ← hholds, Bool.not_eq_true]
  exact ⟨Iff.rfl, Iff.rfl⟩

/-- Bytes on both sides of zero: -128 is less than 1, and 0x80 is above it. -/
theorem conditions_after_cmp_bytes :
    flagCond (cmpFlags 0 0x80 1 8) (.jcc .l) = some true ∧
      flagCond (cmpFlags 0 0x80 1 8) (.jcc .a) = some true := by
  have h := fun cc => conditions_after_cmp (.inl rfl) (withRax 0 0) 0x80 1 cc
  have hless := ((h .l).2.2.2 _ (.inl rfl)).1.mpr (by decide)
  have habove := ((h .a).2.2.2 _ (.inl rfl)).1.mpr (by decide)
  exact ⟨hless, habove⟩

end Wie
