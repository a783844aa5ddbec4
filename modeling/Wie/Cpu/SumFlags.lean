import Wie.Cpu.Width

/-!
# Flags of sums and differences

What a processor makes of a sum or a difference with a carry: the flags are those of the exact
number. The interpreter works with words of 64 bits that are cut to the width of the operands, and
its flags come from bits of the operands and of the result.

The interpreter adds the carry to the second operand first. Where that operand ends with four ones,
the carry out of its lowest four bits is lost.

## Main definitions

* `ExactSum` — a sum or difference of numbers with a carry
* `SumFlags` — a result with its flags

## Main results

* `ArithOp.sumFlags_iff` — when the flags of `exec_arith` are right
* `execSums_exact_iff` — the same for a run of each instruction
-/

namespace Wie

open Rflags

/-! ### The numbers -/

/-- A sum or a difference, with a carry. -/
structure ExactSum where
  /-- A difference. -/
  sub : Bool
  /-- The first number. -/
  dst : ℕ
  /-- The second number. -/
  src : ℕ
  /-- The carry. -/
  carry : Bool

namespace ExactSum

variable (e : ExactSum)

/-- The sum or difference of two numbers and the carry. -/
def of (d s : ℤ) : ℤ := if e.sub then d - s - e.carry.toNat else d + s + e.carry.toNat

/-- The number. -/
def value : ℤ := e.of e.dst e.src

/-- The number, if the operands have signs. -/
def signedValue (bits : ℕ) : ℤ := e.of (signedOf bits e.dst) (signedOf bits e.src)

/-- The number made of the lowest four bits. -/
def nibble : ℤ := e.of (e.dst % 16 : ℕ) (e.src % 16 : ℕ)

/-- A carry or a borrow. -/
def CarriesOut (bits : ℕ) : Prop := e.value < 0 ∨ 2 ^ bits ≤ e.value

/-- Not a number of some bits with a sign. -/
def Overflows (bits : ℕ) : Prop :=
  e.signedValue bits < -2 ^ (bits - 1) ∨ 2 ^ (bits - 1) ≤ e.signedValue bits

/-- A carry or a borrow of the lowest four bits. -/
def Adjusts : Prop := e.nibble < 0 ∨ 16 ≤ e.nibble

theorem of_add (d s : ℕ) (c : Bool) (x y : ℤ) :
    (⟨false, d, s, c⟩ : ExactSum).of x y = x + y + c.toNat := rfl

theorem of_sub (d s : ℕ) (c : Bool) (x y : ℤ) :
    (⟨true, d, s, c⟩ : ExactSum).of x y = x - y - c.toNat := rfl

instance (bits : ℕ) : Decidable (e.CarriesOut bits) := inferInstanceAs (Decidable (_ ∨ _))

instance (bits : ℕ) : Decidable (e.Overflows bits) := inferInstanceAs (Decidable (_ ∨ _))

instance : Decidable e.Adjusts := inferInstanceAs (Decidable (_ ∨ _))

end ExactSum

/-- **A result and its flags**, but for the carry. -/
structure SumFlags (bits : ℕ) (e : ExactSum) (f v : BitVec 64) : Prop where
  /-- The result. -/
  value : (v.toNat : ℤ) = e.value % 2 ^ bits
  /-- Overflow. -/
  overflow : has f OF = decide (e.Overflows bits)
  /-- The carry of the lowest four bits. -/
  adjust : has f AF = decide e.Adjusts
  /-- Zero. -/
  zero : has f ZF = decide (v = 0)
  /-- The sign. -/
  sign : has f SF = decide (2 ^ (bits - 1) ≤ v.toNat)
  /-- Parity. -/
  parity : has f PF = parityEven (v.setWidth 8)

/-! ### Single flags -/

variable {f d s v : BitVec 64} {size : ℕ}

section Flags

variable (f d s v : BitVec 64) (size : ℕ)

theorem has_cf_addFlags : has (addFlags f d s v size) CF = decide ((sizeMask size).toNat <
    (d &&& sizeMask size).toNat + (s &&& sizeMask size).toNat) := by
  simp only [addFlags, CF, ZF, SF, PF, OF, AF, has_put _ _ (j := 0) (by decide) (by decide)]
  rfl

theorem has_sf_addFlags : has (addFlags f d s v size) SF =
    decide (v &&& sizeMask size &&& signBit size ≠ 0) := by
  simp only [addFlags, CF, ZF, SF, PF, OF, AF, has_put _ _ (j := 7) (by decide) (by decide)]
  rfl

theorem has_pf_addFlags : has (addFlags f d s v size) PF =
    parityEven ((v &&& sizeMask size).setWidth 8) := by
  simp only [addFlags, CF, ZF, SF, PF, OF, AF, has_put _ _ (j := 2) (by decide) (by decide)]
  rfl

theorem has_of_addFlags : has (addFlags f d s v size) OF =
    decide ((d &&& sizeMask size ^^^ v &&& sizeMask size) &&&
      (s &&& sizeMask size ^^^ v &&& sizeMask size) &&& signBit size ≠ 0) := by
  simp only [addFlags, CF, ZF, SF, PF, OF, AF, has_put _ _ (j := 11) (by decide) (by decide)]
  rfl

theorem has_af_addFlags : has (addFlags f d s v size) AF =
    decide ((d &&& sizeMask size ^^^ s &&& sizeMask size ^^^ v &&& sizeMask size) &&& 0x10 ≠ 0) := by
  simp only [addFlags, CF, ZF, SF, PF, OF, AF, has_put _ _ (j := 4) (by decide) (by decide)]
  rfl

theorem has_cf_subFlags : has (subFlags f d s v size) CF =
    decide ((d &&& sizeMask size) < (s &&& sizeMask size)) := by
  simp only [subFlags, CF, ZF, SF, PF, OF, AF, has_put _ _ (j := 0) (by decide) (by decide)]
  rfl

theorem has_sf_subFlags : has (subFlags f d s v size) SF =
    decide (v &&& sizeMask size &&& signBit size ≠ 0) := by
  simp only [subFlags, CF, ZF, SF, PF, OF, AF, has_put _ _ (j := 7) (by decide) (by decide)]
  rfl

theorem has_pf_subFlags : has (subFlags f d s v size) PF =
    parityEven ((v &&& sizeMask size).setWidth 8) := by
  simp only [subFlags, CF, ZF, SF, PF, OF, AF, has_put _ _ (j := 2) (by decide) (by decide)]
  rfl

theorem has_of_subFlags : has (subFlags f d s v size) OF =
    decide ((d &&& sizeMask size ^^^ s &&& sizeMask size) &&&
      (d &&& sizeMask size ^^^ v &&& sizeMask size) &&& signBit size ≠ 0) := by
  simp only [subFlags, CF, ZF, SF, PF, OF, AF, has_put _ _ (j := 11) (by decide) (by decide)]
  rfl

theorem has_af_subFlags : has (subFlags f d s v size) AF =
    decide ((d &&& sizeMask size ^^^ s &&& sizeMask size ^^^ v &&& sizeMask size) &&& 0x10 ≠ 0) := by
  simp only [subFlags, CF, ZF, SF, PF, OF, AF, has_put _ _ (j := 4) (by decide) (by decide)]
  rfl

end Flags

/-- The fifth digits of three numbers. -/
theorem nibbles_differ (a b c : BitVec 64) : decide ((a ^^^ b ^^^ c) &&& 0x10 ≠ 0) =
    decide ((a.toNat / 16 + b.toNat / 16 + c.toNat / 16) % 2 = 1) := by
  have hbit : (0x10 : BitVec 64) = .twoPow 64 4 := by decide
  rw [hbit, and_twoPow_ne_zero _ (by decide), BitVec.getLsbD_xor, BitVec.getLsbD_xor, getLsbD_eq,
    getLsbD_eq, getLsbD_eq]
  have ha := Nat.mod_two_eq_zero_or_one (a.toNat / 2 ^ 4)
  have hb := Nat.mod_two_eq_zero_or_one (b.toNat / 2 ^ 4)
  have hc := Nat.mod_two_eq_zero_or_one (c.toNat / 2 ^ 4)
  rw [Nat.add_mod, Nat.add_mod (a.toNat / 16)]
  rcases ha with ha | ha <;> rcases hb with hb | hb <;> rcases hc with hc | hc <;>
    simp [ha, hb, hc] at ha hb hc ⊢

/-! ### Sums and differences -/

section Numbers

variable {D S R c H : ℕ}

/-- Overflow of a sum shows in the signs. -/
theorem add_overflow (hD : D < 2 * H) (hS : S < 2 * H) (hR : R = D + S + c ∨ R + 2 * H = D + S + c)
    (hlt : R < 2 * H) (hc : c ≤ 1) :
    (¬(H ≤ D ↔ H ≤ R) ∧ ¬(H ≤ S ↔ H ≤ R)) ↔
      ((if D < H then (D : ℤ) else D - 2 * H) + (if S < H then (S : ℤ) else S - 2 * H) + c < -H ∨
        H ≤ (if D < H then (D : ℤ) else D - 2 * H) + (if S < H then (S : ℤ) else S - 2 * H) + c) := by
  split_ifs <;> omega

/-- Overflow of a difference shows in the signs. -/
theorem sub_overflow (hD : D < 2 * H) (hS : S < 2 * H) (hR : R + S = D ∨ R + S = D + 2 * H)
    (hlt : R < 2 * H) :
    (¬(H ≤ D ↔ H ≤ S) ∧ ¬(H ≤ D ↔ H ≤ R)) ↔
      ((if D < H then (D : ℤ) else D - 2 * H) - (if S < H then (S : ℤ) else S - 2 * H) < -H ∨
        H ≤ (if D < H then (D : ℤ) else D - 2 * H) - (if S < H then (S : ℤ) else S - 2 * H)) := by
  split_ifs <;> omega

/-- Overflow of a difference with a borrow shows in the result. -/
theorem sbb_overflow (hD : D < 2 * H) (hS : S < 2 * H)
    (hR : R + S + c = D ∨ R + S + c = D + 2 * H) (hlt : R < 2 * H) :
    (if D < H then (D : ℤ) else D - 2 * H) - (if S < H then (S : ℤ) else S - 2 * H) - c ≠
        (if R < H then (R : ℤ) else R - 2 * H) ↔
      ((if D < H then (D : ℤ) else D - 2 * H) - (if S < H then (S : ℤ) else S - 2 * H) - c < -H ∨
        H ≤ (if D < H then (D : ℤ) else D - 2 * H) -
          (if S < H then (S : ℤ) else S - 2 * H) - c) := by
  split_ifs <;> omega

/-- A carry out of the lowest four bits shows in the next ones. -/
theorem add_adjust {k : ℕ} (hk : H = 64 * k) (hR : R = D + S + c ∨ R + 2 * H = D + S + c)
    (hc : c ≤ 1) : (D / 16 + S / 16 + R / 16) % 2 = 1 ↔ 16 ≤ D % 16 + S % 16 + c := by
  omega

/-- A borrow of the lowest four bits shows in the next ones. -/
theorem sub_adjust {k : ℕ} (hk : H = 64 * k) (hR : R + S + c = D ∨ R + S + c = D + 2 * H)
    (hc : c ≤ 1) : (D / 16 + S / 16 + R / 16) % 2 = 1 ↔ D % 16 < S % 16 + c := by
  omega

end Numbers

/-- Two words of flags are the same but for the carry. -/
def SameButCarry (g f : BitVec 64) : Prop :=
  ∀ j < 64, j ≠ 0 → j ≠ 1 → has g (.twoPow 64 j) = has f (.twoPow 64 j)

theorem sameButCarry_put (f : BitVec 64) (on : Bool) : SameButCarry (put f CF on) f := by
  intro j hj h0 h1
  rw [CF, has_put f on hj h1, if_neg h0]

variable {g : BitVec 64} {c : Bool}

/-- A remainder of a sum of three. -/
theorem sum_cases {D S R H c : ℕ} (hD : D < 2 * H) (hS : S < 2 * H) (hc : c ≤ 1)
    (hR : R = (D + S + c) % (2 * H)) : R < 2 * H ∧ (R = D + S + c ∨ R + 2 * H = D + S + c) := by
  have hH : 0 < 2 * H := by omega
  refine ⟨hR ▸ Nat.mod_lt _ hH, ?_⟩
  rcases Nat.lt_or_ge (D + S + c) (2 * H) with hlt | hge
  · exact .inl (hR.trans (Nat.mod_eq_of_lt hlt))
  · rw [Nat.mod_eq_sub_mod hge, Nat.mod_eq_of_lt (by omega)] at hR
    exact .inr (by omega)

/-- Overflow, in terms of the sign bit. -/
theorem overflows_iff {bits H : ℕ} (e : ExactSum) (hH : 2 ^ (bits - 1) = H)
    (hbits : 2 ^ bits = 2 * H) : e.Overflows bits ↔
      e.of (if e.dst < H then (e.dst : ℤ) else e.dst - 2 * H)
          (if e.src < H then (e.src : ℤ) else e.src - 2 * H) < -H ∨
        H ≤ e.of (if e.dst < H then (e.dst : ℤ) else e.dst - 2 * H)
          (if e.src < H then (e.src : ℤ) else e.src - 2 * H) := by
  have hHz : (2 : ℤ) ^ (bits - 1) = H := by exact_mod_cast hH
  rw [ExactSum.Overflows, ExactSum.signedValue, signedOf_eq hH hbits, signedOf_eq hH hbits, hHz]

/-- **The flags of a sum**, where the carry is added to the second operand first. -/
theorem sumFlags_addFlags_iff (h : IsWidth size) {d s s' v : BitVec 64}
    (hd : d.toNat < 2 ^ (8 * size)) (hs : s.toNat < 2 ^ (8 * size))
    (hs' : (s' &&& sizeMask size).toNat = (s.toNat + c.toNat) % 2 ^ (8 * size))
    (hv : (v &&& sizeMask size).toNat = (d.toNat + s.toNat + c.toNat) % 2 ^ (8 * size))
    (hg : SameButCarry g (addFlags f d s' v size)) :
    SumFlags (8 * size) ⟨false, d.toNat, s.toNat, c⟩ g (v &&& sizeMask size) ↔
      ¬(c = true ∧ s.toNat % 16 = 15) := by
  obtain ⟨hbits, k, hk, hpos⟩ := h.bits
  have hc := Bool.toNat_le c
  have hdm : d &&& sizeMask size = d := and_mask_eq_self h hd
  have hof := (hg 11 (by decide) (by decide) (by decide)).trans (has_of_addFlags f d s' v size)
  have haf := (hg 4 (by decide) (by decide) (by decide)).trans (has_af_addFlags f d s' v size)
  have hzf := (hg 6 (by decide) (by decide) (by decide)).trans (has_zf_addFlags f d s' v size)
  have hsf := (hg 7 (by decide) (by decide) (by decide)).trans (has_sf_addFlags f d s' v size)
  have hpf := (hg 2 (by decide) (by decide) (by decide)).trans (has_pf_addFlags f d s' v size)
  rw [signs_differ h, hdm] at hof
  rw [nibbles_differ, hdm] at haf
  rw [sign_eq h] at hsf
  rw [hbits] at hd hs hs' hv
  obtain ⟨hlt, hR⟩ := sum_cases hd hs hc hv
  have hsum : (s' &&& sizeMask size).toNat = (0 + s.toNat + c.toNat) % (2 * 2 ^ (8 * size - 1)) := by
    rw [hs', Nat.zero_add]
  obtain ⟨hlt', hS'⟩ := sum_cases (by omega) hs hc hsum
  constructor
  · rintro hflags ⟨rfl, h15⟩
    have hadjusts : (⟨false, d.toNat, s.toNat, true⟩ : ExactSum).Adjusts := by
      rw [ExactSum.Adjusts, ExactSum.nibble, ExactSum.of_add]
      simp only [Bool.toNat_true]
      omega
    have htrue := haf.symm.trans hflags.adjust
    rw [decide_eq_true hadjusts, decide_eq_true_iff] at htrue
    rw [Bool.toNat_true] at hR hS'
    omega
  · intro hcond
    have hcarry : ¬(c.toNat = 1 ∧ s.toNat % 16 = 15) := by
      rintro ⟨h1, h15⟩
      cases c with
      | true => exact hcond ⟨rfl, h15⟩
      | false => cases h1
    refine ⟨?_, ?_, ?_, hzf, hsf, hpf⟩
    · rw [hv, ← hbits]
      push_cast
      rfl
    · refine hof.trans (decide_eq_decide.mpr ?_)
      rw [overflows_iff _ rfl hbits, ExactSum.of_add, ← add_overflow hd hs hR hlt hc]
      have hsign : 2 ^ (8 * size - 1) ≤ (s' &&& sizeMask size).toNat ↔
          2 ^ (8 * size - 1) ≤ s.toNat := by omega
      rw [hsign]
    · refine haf.trans (decide_eq_decide.mpr ?_)
      have hadd := add_adjust hk hR hc
      rw [ExactSum.Adjusts, ExactSum.nibble, ExactSum.of_add]
      simp only
      omega

/-- **The flags of a difference.** -/
theorem sumFlags_subFlags (h : IsWidth size) {d s v : BitVec 64}
    (hd : d.toNat < 2 ^ (8 * size)) (hs : s.toNat < 2 ^ (8 * size))
    (hv : (v &&& sizeMask size).toNat + s.toNat + c.toNat = d.toNat ∨
      (v &&& sizeMask size).toNat + s.toNat + c.toNat = d.toNat + 2 ^ (8 * size))
    (hg : ∀ j < 64, j ≠ 0 → j ≠ 1 → j ≠ 11 →
      has g (.twoPow 64 j) = has (subFlags f d s v size) (.twoPow 64 j))
    (hof : has g OF = decide ((⟨true, d.toNat, s.toNat, c⟩ : ExactSum).Overflows (8 * size))) :
    SumFlags (8 * size) ⟨true, d.toNat, s.toNat, c⟩ g (v &&& sizeMask size) := by
  obtain ⟨hbits, k, hk, hpos⟩ := h.bits
  have hc := Bool.toNat_le c
  have hlt := toNat_and_mask_lt h v
  have hdm : d &&& sizeMask size = d := and_mask_eq_self h hd
  have hsm : s &&& sizeMask size = s := and_mask_eq_self h hs
  refine ⟨?_, hof, ?_, ?_, ?_, ?_⟩
  · have hM : (2 : ℤ) ^ (8 * size) = ((2 ^ (8 * size) : ℕ) : ℤ) := by push_cast; rfl
    rw [ExactSum.value, ExactSum.of_sub, hM]
    simp only
    rcases hv with hv | hv
    · rw [Int.emod_eq_of_lt (by omega) (by omega)]
      omega
    · rw [← Int.add_emod_right, Int.emod_eq_of_lt (by omega) (by omega)]
      omega
  · have haf := (hg 4 (by decide) (by decide) (by decide) (by decide)).trans
      (has_af_subFlags f d s v size)
    rw [nibbles_differ, hdm, hsm] at haf
    have hsub := sub_adjust hk (hbits ▸ hv) hc
    refine haf.trans (decide_eq_decide.mpr ?_)
    rw [ExactSum.Adjusts, ExactSum.nibble, ExactSum.of_sub]
    simp only
    omega
  · exact (hg 6 (by decide) (by decide) (by decide) (by decide)).trans
      (has_zf_subFlags f d s v size)
  · exact ((hg 7 (by decide) (by decide) (by decide) (by decide)).trans
      (has_sf_subFlags f d s v size)).trans (sign_eq h v)
  · exact (hg 2 (by decide) (by decide) (by decide) (by decide)).trans
      (has_pf_subFlags f d s v size)

/-- Overflow of a difference without a borrow. -/
theorem overflow_subFlags (h : IsWidth size) {d s v : BitVec 64}
    (hd : d.toNat < 2 ^ (8 * size)) (hs : s.toNat < 2 ^ (8 * size))
    (hv : (v &&& sizeMask size).toNat + s.toNat = d.toNat ∨
      (v &&& sizeMask size).toNat + s.toNat = d.toNat + 2 ^ (8 * size)) :
    has (subFlags f d s v size) OF =
      decide ((⟨true, d.toNat, s.toNat, false⟩ : ExactSum).Overflows (8 * size)) := by
  obtain ⟨hbits, -⟩ := h.bits
  have hlt := toNat_and_mask_lt h v
  have hof := has_of_subFlags f d s v size
  rw [signs_differ h, and_mask_eq_self h hd, and_mask_eq_self h hs] at hof
  rw [hbits] at hd hs hv hlt
  refine hof.trans (decide_eq_decide.mpr ?_)
  rw [overflows_iff _ rfl hbits, ExactSum.of_sub, sub_overflow hd hs hv hlt, Bool.toNat_false,
    Nat.cast_zero, Int.sub_zero]

/-! ### Results -/

/-- A sum, cut to the width. -/
theorem toNat_add_mask (h : IsWidth size) (a b : BitVec 64) :
    ((a + b) &&& sizeMask size).toNat = (a.toNat + b.toNat) % 2 ^ (8 * size) := by
  rw [toNat_and_mask h, BitVec.toNat_add, Nat.mod_mod_of_dvd _ h.dvd]

/-- A difference, cut to the width. -/
theorem toNat_sub_mask (h : IsWidth size) {d s : BitVec 64} (c : Bool)
    (hd : d.toNat < 2 ^ (8 * size)) (hs : s.toNat < 2 ^ (8 * size)) :
    ((d - s - .ofNat 64 c.toNat) &&& sizeMask size).toNat + s.toNat + c.toNat = d.toNat ∨
      ((d - s - .ofNat 64 c.toNat) &&& sizeMask size).toNat + s.toNat + c.toNat =
        d.toNat + 2 ^ (8 * size) := by
  have hc := Bool.toNat_le c
  rw [toNat_and_mask h, BitVec.toNat_sub, BitVec.toNat_sub, BitVec.toNat_ofNat]
  rcases h with rfl | rfl | rfl | rfl <;> simp only [Nat.reduceMul] at hd hs ⊢ <;> omega

theorem carry_eq (f : BitVec 64) : carry f = .ofNat 64 (has f CF).toNat := by
  rw [carry]
  cases has f CF <;> rfl

/-! ### The operations -/

namespace ArithOp

/-- The operations that are sums or differences. -/
def IsSum (op : ArithOp) : Prop := op = add ∨ op = adc ∨ op = sub ∨ op = sbb ∨ op = cmp

/-- The exact sum or difference of an operation. -/
def exact (op : ArithOp) (f d s : BitVec 64) : ExactSum where
  sub := op ≠ add ∧ op ≠ adc
  dst := d.toNat
  src := s.toNat
  carry := (op = adc ∨ op = sbb) ∧ has f CF

theorem exact_add (f d s : BitVec 64) : add.exact f d s = ⟨false, d.toNat, s.toNat, false⟩ := by
  simp [exact]

theorem exact_adc (f d s : BitVec 64) :
    adc.exact f d s = ⟨false, d.toNat, s.toNat, has f CF⟩ := by
  simp [exact]

theorem exact_sub (f d s : BitVec 64) : sub.exact f d s = ⟨true, d.toNat, s.toNat, false⟩ := by
  simp [exact]

theorem exact_sbb (f d s : BitVec 64) : sbb.exact f d s = ⟨true, d.toNat, s.toNat, has f CF⟩ := by
  simp [exact]

theorem exact_cmp (f d s : BitVec 64) : cmp.exact f d s = ⟨true, d.toNat, s.toNat, false⟩ := by
  simp [exact]

section Operands

variable {d s : BitVec 64}

theorem sumFlags_add (h : IsWidth size) (hd : d.toNat < 2 ^ (8 * size))
    (hs : s.toNat < 2 ^ (8 * size)) :
    SumFlags (8 * size) (add.exact f d s) (add.flags f d s size)
      (add.result f d s &&& sizeMask size) := by
  have hs' : (s &&& sizeMask size).toNat = (s.toNat + false.toNat) % 2 ^ (8 * size) := by
    rw [toNat_and_mask h, Bool.toNat_false, Nat.add_zero]
  have hv : (add.result f d s &&& sizeMask size).toNat =
      (d.toNat + s.toNat + false.toNat) % 2 ^ (8 * size) := by
    rw [result, toNat_add_mask h, Bool.toNat_false, Nat.add_zero]
  rw [exact_add]
  exact (sumFlags_addFlags_iff h hd hs hs' hv fun j _ _ _ => rfl).mpr fun hc => by cases hc.1

theorem sumFlags_adc_iff (h : IsWidth size) (hd : d.toNat < 2 ^ (8 * size))
    (hs : s.toNat < 2 ^ (8 * size)) :
    SumFlags (8 * size) (adc.exact f d s) (adc.flags f d s size)
        (adc.result f d s &&& sizeMask size) ↔ ¬(has f CF = true ∧ s.toNat % 16 = 15) := by
  have hcarry : (carry f).toNat = (has f CF).toNat := by
    rw [carry_eq, BitVec.toNat_ofNat]
    cases has f CF <;> rfl
  have hs' : ((s + carry f) &&& sizeMask size).toNat =
      (s.toNat + (has f CF).toNat) % 2 ^ (8 * size) := by
    rw [toNat_add_mask h, hcarry]
  have hv : (adc.result f d s &&& sizeMask size).toNat =
      (d.toNat + s.toNat + (has f CF).toNat) % 2 ^ (8 * size) := by
    rw [result, toNat_add_mask h, BitVec.toNat_add, hcarry, Nat.add_mod, Nat.mod_mod_of_dvd _ h.dvd,
      ← Nat.add_mod]
  rw [exact_adc]
  exact sumFlags_addFlags_iff h hd hs hs' hv (sameButCarry_put _ _)

/-- Differences without a borrow. -/
theorem sumFlags_sub (h : IsWidth size) (hd : d.toNat < 2 ^ (8 * size))
    (hs : s.toNat < 2 ^ (8 * size)) :
    SumFlags (8 * size) ⟨true, d.toNat, s.toNat, false⟩ (subFlags f d s (d - s) size)
      ((d - s) &&& sizeMask size) := by
  have hv := toNat_sub_mask h false hd hs
  rw [Bool.toNat_false, Nat.add_zero, BitVec.sub_zero] at hv
  exact sumFlags_subFlags h hd hs hv (fun j _ _ _ _ => rfl) (overflow_subFlags h hd hs hv)

theorem sumFlags_sbb (h : IsWidth size) (hd : d.toNat < 2 ^ (8 * size))
    (hs : s.toNat < 2 ^ (8 * size)) :
    SumFlags (8 * size) (sbb.exact f d s) (sbb.flags f d s size)
      (sbb.result f d s &&& sizeMask size) := by
  have hv := toNat_sub_mask h (has f CF) hd hs
  rw [← carry_eq] at hv
  rw [exact_sbb]
  refine sumFlags_subFlags (f := f) h hd hs hv (fun j hj h0 h1 h11 => ?_) ?_
  · rw [flags, OF, has_put _ _ hj h1, if_neg h11, CF, has_put _ _ hj h1, if_neg h0]
  · obtain ⟨hbits, -⟩ := h.bits
    have hlt := toNat_and_mask_lt h (d - s - carry f)
    have hcarry : ((carry f).toNat : ℤ) = ((has f CF).toNat : ℤ) := by
      rw [carry_eq, BitVec.toNat_ofNat]
      cases has f CF <;> rfl
    rw [flags, OF, has_put _ _ (by decide) (by decide), if_pos rfl, decide_eq_decide,
      overflows_iff _ rfl hbits, ExactSum.of_sub, toInt_sextOf h, toInt_sextOf h, toInt_sextOf h,
      Nat.mod_eq_of_lt hd, Nat.mod_eq_of_lt hs, hcarry]
    have hr : (sbb.result f d s &&& sizeMask size).toNat % 2 ^ (8 * size) =
        (d - s - carry f &&& sizeMask size).toNat := Nat.mod_eq_of_lt hlt
    rw [hr, signedOf_eq rfl hbits, signedOf_eq rfl hbits, signedOf_eq rfl hbits]
    rw [hbits] at hd hs hv hlt
    exact sbb_overflow hd hs hv hlt

/-- **When the flags are right**: unless the second operand of a sum with a carry ends with four
ones. -/
theorem sumFlags_iff (h : IsWidth size) {op : ArithOp} (hop : op.IsSum)
    (hd : d.toNat < 2 ^ (8 * size)) (hs : s.toNat < 2 ^ (8 * size)) :
    SumFlags (8 * size) (op.exact f d s) (op.flags f d s size)
        (op.result f d s &&& sizeMask size) ↔
      ¬(op = adc ∧ has f CF = true ∧ s.toNat % 16 = 15) := by
  rcases hop with rfl | rfl | rfl | rfl | rfl
  · exact iff_of_true (sumFlags_add h hd hs) (by simp)
  · rw [sumFlags_adc_iff h hd hs]
    simp
  · refine iff_of_true ?_ (by simp)
    rw [exact_sub]
    exact sumFlags_sub h hd hs
  · exact iff_of_true (sumFlags_sbb h hd hs) (by simp)
  · refine iff_of_true ?_ (by simp)
    rw [exact_cmp]
    exact sumFlags_sub h hd hs

/-- **The carry** is right. -/
theorem has_cf_flags (h : IsWidth size) {op : ArithOp} (hop : op.IsSum)
    (hd : d.toNat < 2 ^ (8 * size)) (hs : s.toNat < 2 ^ (8 * size)) :
    has (op.flags f d s size) CF = decide ((op.exact f d s).CarriesOut (8 * size)) := by
  have hm := toNat_sizeMask h
  have hcarry : (carry f).toNat = (has f CF).toNat := by
    rw [carry_eq, BitVec.toNat_ofNat]
    cases has f CF <;> rfl
  have hM : (2 : ℤ) ^ (8 * size) = ((2 ^ (8 * size) : ℕ) : ℤ) := by push_cast; rfl
  have hsub := has_cf_subFlags f d s (d - s) size
  rw [and_mask_eq_self h hd, and_mask_eq_self h hs] at hsub
  rcases hop with rfl | rfl | rfl | rfl | rfl
  · have hadd := has_cf_addFlags f d s (d + s) size
    rw [and_mask_eq_self h hd, and_mask_eq_self h hs, hm] at hadd
    refine hadd.trans (decide_eq_decide.mpr ?_)
    rw [exact_add, ExactSum.CarriesOut, ExactSum.value, ExactSum.of_add, hM, Bool.toNat_false]
    simp only
    omega
  · rw [flags, CF, has_put _ _ (by decide) (by decide), if_pos rfl, decide_eq_decide, exact_adc,
      ExactSum.CarriesOut, ExactSum.value, ExactSum.of_add, hM, hm, hcarry]
    simp only
    omega
  · refine hsub.trans (decide_eq_decide.mpr ?_)
    rw [exact_sub, ExactSum.CarriesOut, ExactSum.value, ExactSum.of_sub, hM, BitVec.lt_def,
      Bool.toNat_false]
    simp only
    omega
  · have hflags : has (sbb.flags f d s size) CF =
        decide (d.toNat < s.toNat + (carry f).toNat) := by
      simp only [flags, CF, OF, has_put _ _ (j := 0) (by decide) (by decide)]
      rfl
    refine hflags.trans (decide_eq_decide.mpr ?_)
    rw [exact_sbb, ExactSum.CarriesOut, ExactSum.value, ExactSum.of_sub, hM, hcarry]
    simp only
    omega
  · refine hsub.trans (decide_eq_decide.mpr ?_)
    rw [exact_cmp, ExactSum.CarriesOut, ExactSum.value, ExactSum.of_sub, hM, BitVec.lt_def,
      Bool.toNat_false]
    simp only
    omega

end Operands

end ArithOp

/-! ### Increments, decrements and negations -/

section Single

variable {d : BitVec 64}

theorem and_one_sizeMask (h : IsWidth size) : (1 &&& sizeMask size : BitVec 64) = 1 := by
  rcases h with rfl | rfl | rfl | rfl <;> decide

theorem one_lt_width (h : IsWidth size) : 1 < 2 ^ (8 * size) := by
  rcases h with rfl | rfl | rfl | rfl <;> decide

theorem sumFlags_inc (h : IsWidth size) (hd : d.toNat < 2 ^ (8 * size)) :
    SumFlags (8 * size) ⟨false, d.toNat, 1, false⟩ (incDecFlags true f d size)
      (incDecResult true d &&& sizeMask size) := by
  have hs' : ((1 : BitVec 64) &&& sizeMask size).toNat =
      ((1 : BitVec 64).toNat + false.toNat) % 2 ^ (8 * size) := by
    rw [toNat_and_mask h, Bool.toNat_false, Nat.add_zero]
  have hv : (incDecResult true d &&& sizeMask size).toNat =
      (d.toNat + (1 : BitVec 64).toNat + false.toNat) % 2 ^ (8 * size) := by
    rw [incDecResult, if_pos rfl, toNat_add_mask h, Bool.toNat_false, Nat.add_zero]
  exact (sumFlags_addFlags_iff (s := 1) h hd (one_lt_width h) hs' hv (sameButCarry_put _ _)).mpr
    fun hc => by cases hc.1

theorem sumFlags_dec (h : IsWidth size) (hd : d.toNat < 2 ^ (8 * size)) :
    SumFlags (8 * size) ⟨true, d.toNat, 1, false⟩ (incDecFlags false f d size)
      (incDecResult false d &&& sizeMask size) := by
  have hv := toNat_sub_mask h (s := 1) false hd (one_lt_width h)
  rw [Bool.toNat_false, Nat.add_zero, BitVec.sub_zero] at hv
  have hsame := sameButCarry_put (subFlags f d 1 (d - 1) size) (has f CF)
  refine sumFlags_subFlags (s := 1) h hd (one_lt_width h) hv
    (fun j hj h0 h1 _ => hsame j hj h0 h1) ?_
  exact (hsame 11 (by decide) (by decide) (by decide)).trans
    (overflow_subFlags h hd (one_lt_width h) hv)

theorem sumFlags_neg (h : IsWidth size) (hd : d.toNat < 2 ^ (8 * size)) :
    SumFlags (8 * size) ⟨true, 0, d.toNat, false⟩ (negFlags f d size)
      (0 - d &&& sizeMask size) := by
  have hzero : (0 : BitVec 64).toNat < 2 ^ (8 * size) := Nat.two_pow_pos _
  have hv := toNat_sub_mask h (d := 0) false hzero hd
  rw [Bool.toNat_false, Nat.add_zero, BitVec.sub_zero] at hv
  have hsame := sameButCarry_put (subFlags f 0 d (0 - d) size) (d ≠ 0)
  refine sumFlags_subFlags (d := 0) h hzero hd hv (fun j hj h0 h1 _ => hsame j hj h0 h1) ?_
  exact (hsame 11 (by decide) (by decide) (by decide)).trans (overflow_subFlags h hzero hd hv)

/-- A negation borrows from every number but zero. -/
theorem has_cf_negFlags (d : BitVec 64) : has (negFlags f d size) CF =
    decide ((⟨true, 0, d.toNat, false⟩ : ExactSum).CarriesOut (8 * size)) := by
  rw [negFlags, CF, has_put _ _ (by decide) (by decide), if_pos rfl, decide_eq_decide,
    ExactSum.CarriesOut, ExactSum.value, ExactSum.of_sub, Bool.toNat_false]
  simp only [Nat.cast_zero]
  have hpos : (0 : ℤ) < 2 ^ (8 * size) := by positivity
  have hzero : d = 0 ↔ d.toNat = 0 := BitVec.toNat_eq
  rw [ne_eq, hzero]
  omega

end Single

/-! ### The instructions -/

/-- The instructions that add or subtract. -/
inductive SumInsn
  | add | adc | sub | sbb | cmp | inc | dec | neg
deriving DecidableEq

namespace SumInsn

/-- What is executed. -/
def exec (i : Insn) : SumInsn → Exec Unit
  | add => execArith i .add
  | adc => execArith i .adc
  | sub => execArith i .sub
  | sbb => execArith i .sbb
  | cmp => execArith i .cmp
  | inc => execIncDec i true
  | dec => execIncDec i false
  | neg => execNeg i

/-- The exact sum or difference. -/
def exact (k : SumInsn) (f d s : BitVec 64) : ExactSum :=
  match k with
  | add => ⟨false, d.toNat, s.toNat, false⟩
  | adc => ⟨false, d.toNat, s.toNat, has f CF⟩
  | sub | cmp => ⟨true, d.toNat, s.toNat, false⟩
  | sbb => ⟨true, d.toNat, s.toNat, has f CF⟩
  | inc => ⟨false, d.toNat, 1, false⟩
  | dec => ⟨true, d.toNat, 1, false⟩
  | neg => ⟨true, 0, d.toNat, false⟩

/-- The operation, for the instructions with two operands. -/
def arith : SumInsn → Option ArithOp
  | add => some .add
  | adc => some .adc
  | sub => some .sub
  | sbb => some .sbb
  | cmp => some .cmp
  | _ => none

/-- The flags afterwards. -/
def flags (k : SumInsn) (f d s : BitVec 64) (size : ℕ) : BitVec 64 :=
  match k with
  | add => ArithOp.add.flags f d s size
  | adc => ArithOp.adc.flags f d s size
  | sub => ArithOp.sub.flags f d s size
  | sbb => ArithOp.sbb.flags f d s size
  | cmp => ArithOp.cmp.flags f d s size
  | inc => incDecFlags true f d size
  | dec => incDecFlags false f d size
  | neg => negFlags f d size

/-- The result. -/
def value (k : SumInsn) (f d s : BitVec 64) (size : ℕ) : BitVec 64 :=
  (match k with
  | add => ArithOp.add.result f d s
  | adc => ArithOp.adc.result f d s
  | sub => ArithOp.sub.result f d s
  | sbb => ArithOp.sbb.result f d s
  | cmp => ArithOp.cmp.result f d s
  | inc => incDecResult true d
  | dec => incDecResult false d
  | neg => 0 - d) &&& sizeMask size

/-- The operands are read. -/
def Reads {W : Type} (k : SumInsn) (p : MemDevice W) (i : Insn) (r : RegFile) (w : W)
    (d s : BitVec 64) (w' : W) : Prop :=
  match k.arith with
  | some _ => ∃ w₁, (i.readOp 0).run p r w = some ((.ok d, r), w₁) ∧
      (i.readOp 1).run p r w₁ = some ((.ok s, r), w')
  | none => (i.readOp 0).run p r w = some ((.ok d, r), w')

/-- How the instruction ends: the result is stored, except by CMP. -/
def finish (k : SumInsn) (i : Insn) (v : BitVec 64) : Exec Unit :=
  if k = cmp then pure () else i.writeOp 0 v

/-- **The flags and the result are the architectural ones.** -/
structure Right (k : SumInsn) (size : ℕ) (f d s g v : BitVec 64) : Prop where
  /-- The result and the flags. -/
  flags : SumFlags (8 * size) (k.exact f d s) g v
  /-- The carry, which INC and DEC leave. -/
  carry : has g CF =
    if k = inc ∨ k = dec then has f CF else decide ((k.exact f d s).CarriesOut (8 * size))

/-! ### Their runs -/

section Runs

variable {W : Type} {p : MemDevice W} {i : Insn} {r : RegFile} {w w₁ w' : W} {d s : BitVec 64}

theorem run_execArith (op : ArithOp) (hsize : i.opSizeBytes 0 = .ok size)
    (hd : (i.readOp 0).run p r w = some ((.ok d, r), w₁))
    (hs : (i.readOp 1).run p r w₁ = some ((.ok s, r), w')) :
    (execArith i op).run p r w =
      (if op = .cmp then pure () else i.writeOp 0
        (op.result r.rflags (d &&& sizeMask size) (s &&& sizeMask size) &&& sizeMask size)).run p
        (r.setRflags (op.flags r.rflags (d &&& sizeMask size) (s &&& sizeMask size) size)) w' := by
  rw [execArith, hsize, Cmd.run_bind_of_run (Exec.run_lift_ok size), Cmd.run_bind_of_run hd, Cmd.run_bind_of_run hs]
  rfl

theorem run_execIncDec (up : Bool) (hsize : i.opSizeBytes 0 = .ok size)
    (hd : (i.readOp 0).run p r w = some ((.ok d, r), w')) :
    (execIncDec i up).run p r w =
      (i.writeOp 0 (incDecResult up (d &&& sizeMask size) &&& sizeMask size)).run p
        (r.setRflags (incDecFlags up r.rflags (d &&& sizeMask size) size)) w' := by
  rw [execIncDec, hsize, Cmd.run_bind_of_run (Exec.run_lift_ok size), Cmd.run_bind_of_run hd]
  rfl

theorem run_execNeg (hsize : i.opSizeBytes 0 = .ok size)
    (hd : (i.readOp 0).run p r w = some ((.ok d, r), w')) :
    (execNeg i).run p r w = (i.writeOp 0 (0 - (d &&& sizeMask size) &&& sizeMask size)).run p
      (r.setRflags (negFlags r.rflags (d &&& sizeMask size) size)) w' := by
  rw [execNeg, hsize, Cmd.run_bind_of_run (Exec.run_lift_ok size), Cmd.run_bind_of_run hd]
  rfl

/-- **What an instruction comes to.** -/
theorem run_exec (k : SumInsn) (hsize : i.opSizeBytes 0 = .ok size)
    (hr : k.Reads p i r w d s w') : (k.exec i).run p r w =
      (k.finish i (k.value r.rflags (d &&& sizeMask size) (s &&& sizeMask size) size)).run p
        (r.setRflags (k.flags r.rflags (d &&& sizeMask size) (s &&& sizeMask size) size)) w' := by
  cases k with
  | add => exact hr.elim fun w₁ h => run_execArith .add hsize h.1 h.2
  | adc => exact hr.elim fun w₁ h => run_execArith .adc hsize h.1 h.2
  | sub => exact hr.elim fun w₁ h => run_execArith .sub hsize h.1 h.2
  | sbb => exact hr.elim fun w₁ h => run_execArith .sbb hsize h.1 h.2
  | cmp => exact hr.elim fun w₁ h => run_execArith .cmp hsize h.1 h.2
  | inc => exact run_execIncDec true hsize hr
  | dec => exact run_execIncDec false hsize hr
  | neg => exact run_execNeg hsize hr

end Runs

/-! ### Their flags -/

theorem has_cf_incDecFlags (up : Bool) (f d : BitVec 64) (size : ℕ) :
    has (incDecFlags up f d size) CF = has f CF := by
  rw [incDecFlags, CF, has_put _ _ (by decide) (by decide), if_pos rfl]

/-- **When the flags are right**: unless the second operand of ADC ends with four ones and the carry
is set. -/
theorem right_iff (k : SumInsn) (h : IsWidth size) {d s : BitVec 64}
    (hd : d.toNat < 2 ^ (8 * size)) (hs : s.toNat < 2 ^ (8 * size)) :
    k.Right size f d s (k.flags f d s size) (k.value f d s size) ↔
      ¬(k = adc ∧ has f CF = true ∧ s.toNat % 16 = 15) := by
  have hsum (op : ArithOp) (hop : op.IsSum) := op.sumFlags_iff (f := f) h hop hd hs
  have hcarry (op : ArithOp) (hop : op.IsSum) := op.has_cf_flags (f := f) h hop hd hs
  cases k with
  | add =>
    refine iff_of_true ⟨?_, ?_⟩ (by simp)
    · have := (hsum .add (.inl rfl)).mpr (by simp)
      rwa [ArithOp.exact_add] at this
    · have := hcarry .add (.inl rfl)
      rwa [ArithOp.exact_add] at this
  | adc =>
    have hf := hsum .adc (.inr (.inl rfl))
    have hc := hcarry .adc (.inr (.inl rfl))
    rw [ArithOp.exact_adc] at hf hc
    constructor
    · rintro hr ⟨-, h15⟩
      exact hf.mp hr.flags ⟨rfl, h15⟩
    · intro h15
      exact ⟨hf.mpr fun hop => h15 ⟨rfl, hop.2⟩, hc⟩
  | sub =>
    refine iff_of_true ⟨?_, ?_⟩ (by simp)
    · have := (hsum .sub (.inr (.inr (.inl rfl)))).mpr (by simp)
      rwa [ArithOp.exact_sub] at this
    · have := hcarry .sub (.inr (.inr (.inl rfl)))
      rwa [ArithOp.exact_sub] at this
  | sbb =>
    refine iff_of_true ⟨?_, ?_⟩ (by simp)
    · have := (hsum .sbb (.inr (.inr (.inr (.inl rfl))))).mpr (by simp)
      rwa [ArithOp.exact_sbb] at this
    · have := hcarry .sbb (.inr (.inr (.inr (.inl rfl))))
      rwa [ArithOp.exact_sbb] at this
  | cmp =>
    refine iff_of_true ⟨?_, ?_⟩ (by simp)
    · have := (hsum .cmp (.inr (.inr (.inr (.inr rfl))))).mpr (by simp)
      rwa [ArithOp.exact_cmp] at this
    · have := hcarry .cmp (.inr (.inr (.inr (.inr rfl))))
      rwa [ArithOp.exact_cmp] at this
  | inc => exact iff_of_true ⟨sumFlags_inc h hd, has_cf_incDecFlags _ _ _ _⟩ (by simp)
  | dec => exact iff_of_true ⟨sumFlags_dec h hd, has_cf_incDecFlags _ _ _ _⟩ (by simp)
  | neg => exact iff_of_true ⟨sumFlags_neg h hd, has_cf_negFlags d⟩ (by simp)

end SumInsn

/-- **Additions and subtractions.** The instruction sets flags and stores a result, and they are the
architectural ones unless it is ADC, the carry is set, and its second operand ends with four
ones. -/
theorem execSums_exact_iff {W : Type} {p : MemDevice W} {i : Insn} {r : RegFile} {w w' : W}
    (k : SumInsn) {dst src : BitVec 64} (hsize : i.opSizeBytes 0 = .ok size) (h : IsWidth size)
    (hr : k.Reads p i r w dst src w') :
    let d := dst &&& sizeMask size
    let s := src &&& sizeMask size
    (k.exec i).run p r w =
        (k.finish i (k.value r.rflags d s size)).run p (r.setRflags (k.flags r.rflags d s size)) w' ∧
      (k.Right size r.rflags d s (k.flags r.rflags d s size) (k.value r.rflags d s size) ↔
        ¬(k = .adc ∧ has r.rflags CF = true ∧ s.toNat % 16 = 15)) := by
  intro d s
  exact ⟨SumInsn.run_exec k hsize hr,
    SumInsn.right_iff k h (toNat_and_mask_lt h dst) (toNat_and_mask_lt h src)⟩

/-- An addition with a carry. -/
theorem execSums_exact_adc :
    (SumInsn.adc.exec (onAl 0x7e)).run noMemory (withRax 1 3) () =
        (SumInsn.adc.finish (onAl 0x7e) 0x80).run noMemory
          ((withRax 1 3).setRflags (SumInsn.adc.flags 3 1 0x7e 1)) () ∧
      SumInsn.adc.Right 1 3 1 0x7e (SumInsn.adc.flags 3 1 0x7e 1) 0x80 := by
  have hsize : (onAl 0x7e).opSizeBytes 0 = .ok 1 := rfl
  have hreads : SumInsn.adc.Reads noMemory (onAl 0x7e) (withRax 1 3) () 1 0x7e () :=
    ⟨(), rfl, rfl⟩
  obtain ⟨hrun, hright⟩ := execSums_exact_iff .adc hsize (.inl rfl) hreads
  exact ⟨hrun, hright.mpr fun hc => absurd hc.2.2 (by decide)⟩

/-- **`adc al, 0x7f`** with a carry and nothing in AL overflows, and the flag is clear. -/
theorem not_execSums_exact : ¬∀ (k : SumInsn) (size : ℕ) (f d s : BitVec 64), IsWidth size →
    d.toNat < 2 ^ (8 * size) → s.toNat < 2 ^ (8 * size) →
      k.Right size f d s (k.flags f d s size) (k.value f d s size) := by
  intro hall
  have h := (hall .adc 1 3 0 0x7f (.inl rfl) (by decide) (by decide)).flags.overflow
  revert h
  decide +kernel

end Wie
