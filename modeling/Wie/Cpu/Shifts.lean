import Wie.Cpu.Width

/-!
# Shifts and rotations

What a processor makes of a shift: the count is cut to five bits, or six for operands of eight
bytes, and a count of zero does nothing. The interpreter cuts the count further, to less than the
width of the operand. For a rotation of eight or sixteen bits that is a rotation by as much, but the
shifted number is another one, and a count that comes to zero leaves the flags.

## Main definitions

* `ShiftKind.exact`, `ShiftKind.lastOut`, `ShiftKind.overflows` — the numbers and the bits
* `ShiftKind.Right` — a result with its flags
* `ShiftKind.Spared` — a count that is cut without harm

## Main results

* `ShiftKind.toNat_shift`, `ShiftKind.shift_snd` — counts less than the width
* `execShift_right_iff` — when a shift is right
-/

namespace Wie

open Rflags

/-! ### Numbers -/

/-- The lower part of a number before the upper part of it. -/
theorem or_mod_two_pow {d B j : ℕ} (hd : d < 2 ^ B) (hj : j ≤ B) (hB : B ≤ 64) :
    ((d * 2 ^ j % 2 ^ 64) ||| d / 2 ^ (B - j)) % 2 ^ B =
      d * 2 ^ j % 2 ^ B + d / 2 ^ (B - j) := by
  have hpow : 2 ^ j * 2 ^ (B - j) = 2 ^ B := by rw [← pow_add, Nat.add_sub_cancel' hj]
  have hhigh : d / 2 ^ (B - j) < 2 ^ j := by
    rw [Nat.div_lt_iff_lt_mul (Nat.two_pow_pos _), hpow]
    exact hd
  have hle : 2 ^ j ≤ 2 ^ B := Nat.pow_le_pow_right Nat.two_pos hj
  rw [Nat.or_mod_two_pow, Nat.mod_mod_of_dvd _ (pow_dvd_pow 2 hB),
    Nat.mod_eq_of_lt (hhigh.trans_le hle), Nat.mul_comm d, ← hpow, Nat.mul_mod_mul_left,
    Nat.two_pow_add_eq_or_of_lt hhigh]

/-- Numbers with a sign are known by their remainders. -/
theorem emod_inj {x y H : ℤ} (hx : -H ≤ x) (hx' : x < H) (hy : -H ≤ y) (hy' : y < H) :
    x % (2 * H) = y % (2 * H) ↔ x = y := by
  refine ⟨fun h => ?_, fun h => by rw [h]⟩
  have hdvd : 2 * H ∣ x - y := Int.dvd_of_emod_eq_zero
    (Int.emod_eq_emod_iff_emod_sub_eq_zero.mp h)
  have hzero := Int.eq_zero_of_abs_lt_dvd hdvd (abs_lt.mpr ⟨by omega, by omega⟩)
  omega

variable {size : ℕ} {d v f : BitVec 64} {k m : ℕ}

theorem toNat_and_mask_eq_toInt (h : IsWidth size) (v : BitVec 64) :
    (v &&& sizeMask size).toNat = (v.toInt % 2 ^ (8 * size)).toNat := by
  rw [toNat_and_mask h, BitVec.toInt_eq_toNat_cond]
  rcases h with rfl | rfl | rfl | rfl <;> simp only [Nat.reduceMul] <;> split_ifs <;> omega

theorem getLsbD_sizeMask (h : IsWidth size) (k : ℕ) :
    (sizeMask size).getLsbD k = decide (k < 8 * size) := by
  rw [BitVec.getLsbD, toNat_sizeMask h, Nat.testBit_two_pow_sub_one]

/-- A bit of the extension of a number. -/
theorem getLsbD_sextOf (h : IsWidth size) (d : BitVec 64) (hk : k < 8 * size) :
    (sextOf d size).getLsbD k = d.getLsbD k := by
  have hw := h.lt_bits
  have h64 : ¬64 ≤ k := by omega
  have hin : 64 - size * 8 + k < 64 := by omega
  have hout : ¬64 - size * 8 + k < 64 - size * 8 := by omega
  rw [sextOf, BitVec.getLsbD_sshiftRight, if_pos hin, BitVec.getLsbD_shiftLeft, decide_eq_false h64,
    decide_eq_true hin, decide_eq_false hout, Nat.add_sub_cancel_left]
  rfl

namespace ShiftKind

/-! ### What is right -/

/-- The rotations. -/
def IsRotate (kind : ShiftKind) : Prop := kind = rol ∨ kind = ror

instance (kind : ShiftKind) : Decidable kind.IsRotate := inferInstanceAs (Decidable (_ ∨ _))

/-- The number after a shift or a rotation. -/
def exact (kind : ShiftKind) (bits d m : ℕ) : ℕ :=
  match kind with
  | shl => d * 2 ^ m % 2 ^ bits
  | shr => d / 2 ^ m
  | sar => (signedOf bits d / 2 ^ m % 2 ^ bits).toNat
  | rol => d * 2 ^ (m % bits) % 2 ^ bits + d / 2 ^ (bits - m % bits)
  | ror => d / 2 ^ (m % bits) + d * 2 ^ (bits - m % bits) % 2 ^ bits

/-- The bit that goes out last. -/
def lastOut (kind : ShiftKind) (bits d m : ℕ) : Bool :=
  match kind with
  | shl => d.testBit (bits - m)
  | shr => d.testBit (m - 1)
  | sar => d.testBit (min (m - 1) (bits - 1))
  | rol => d.testBit ((bits - m % bits) % bits)
  | ror => d.testBit ((m - 1) % bits)

/-- The last bit is defined: SHL and SHR do not shift everything out. -/
def Defined (kind : ShiftKind) (bits m : ℕ) : Prop := kind = shl ∨ kind = shr → m < bits

/-- Overflow of a shift by one. -/
def overflows (kind : ShiftKind) (bits d v : ℕ) : Bool :=
  match kind with
  | shl => d.testBit (bits - 1) != v.testBit (bits - 1)
  | shr => d.testBit (bits - 1)
  | sar => false
  | rol => v.testBit (bits - 1) != v.testBit 0
  | ror => v.testBit (bits - 1) != v.testBit (bits - 2)

/-- Three flags are those of a number. -/
def SignsOf (bits : ℕ) (g v : BitVec 64) : Prop :=
  has g ZF = decide (v = 0) ∧ has g SF = v.toNat.testBit (bits - 1) ∧
    has g PF = parityEven (v.setWidth 8)

/-- **A shift by `m` is right**: `f` and `d` become `g` and `v`. -/
structure Right (kind : ShiftKind) (bits : ℕ) (f d : BitVec 64) (m : ℕ) (g v : BitVec 64) :
    Prop where
  /-- A count of zero does nothing. -/
  unchanged : m = 0 → g = f ∧ v = d
  /-- The number. -/
  value : m ≠ 0 → v.toNat = kind.exact bits d.toNat m
  /-- The carry. -/
  carry : m ≠ 0 → kind.Defined bits m → has g CF = kind.lastOut bits d.toNat m
  /-- The flags of the number. -/
  signs : m ≠ 0 → ¬kind.IsRotate → SignsOf bits g v
  /-- Rotations leave them. -/
  kept : m ≠ 0 → kind.IsRotate → has g ZF = has f ZF ∧ has g SF = has f SF ∧ has g PF = has f PF
  /-- Overflow. -/
  overflow : m = 1 → has g OF = kind.overflows bits d.toNat v.toNat

/-! ### Counts less than the width -/

/-- **The number** that the interpreter shifts. -/
theorem toNat_shift (kind : ShiftKind) (h : IsWidth size) (hd : d.toNat < 2 ^ (8 * size))
    (hk : k < 8 * size) :
    (kind.shift d k size).1.toNat = kind.exact (8 * size) d.toNat k := by
  have hw := h.lt_bits
  have hmod : k % (8 * size) = k := Nat.mod_eq_of_lt hk
  have hdiv (j : ℕ) : d.toNat / 2 ^ j < 2 ^ (8 * size) := (Nat.div_le_self _ _).trans_lt hd
  cases kind with
  | shl =>
    show ((d <<< k) &&& sizeMask size).toNat = _
    rw [toNat_and_mask h, BitVec.toNat_shiftLeft, Nat.shiftLeft_eq, Nat.mod_mod_of_dvd _ h.dvd]
    rfl
  | shr =>
    show ((d >>> k) &&& sizeMask size).toNat = _
    rw [toNat_and_mask h, BitVec.toNat_ushiftRight, Nat.shiftRight_eq_div_pow,
      Nat.mod_eq_of_lt (hdiv k)]
    rfl
  | sar =>
    show ((sextOf d size).sshiftRight k &&& sizeMask size).toNat = _
    rw [toNat_and_mask_eq_toInt h, BitVec.toInt_sshiftRight, Int.shiftRight_eq_div_pow,
      toInt_sextOf h, Nat.mod_eq_of_lt hd, exact]
    push_cast
    rfl
  | rol =>
    show ((d <<< k ||| d >>> (size * 8 - k)) &&& sizeMask size).toNat = _
    rw [toNat_and_mask h, BitVec.toNat_or, BitVec.toNat_shiftLeft, BitVec.toNat_ushiftRight,
      Nat.shiftLeft_eq, Nat.shiftRight_eq_div_pow, Nat.mul_comm size,
      or_mod_two_pow hd hk.le (by omega), exact, hmod]
  | ror =>
    show ((d >>> k ||| d <<< (size * 8 - k)) &&& sizeMask size).toNat = _
    have hback : 8 * size - (8 * size - k) = k := Nat.sub_sub_self hk.le
    have hor := or_mod_two_pow hd (Nat.sub_le (8 * size) k) (by omega)
    rw [hback] at hor
    rw [toNat_and_mask h, BitVec.or_comm, BitVec.toNat_or, BitVec.toNat_shiftLeft,
      BitVec.toNat_ushiftRight, Nat.shiftLeft_eq, Nat.shiftRight_eq_div_pow, Nat.mul_comm size,
      hor, exact, hmod, Nat.add_comm]

/-- **The carry** of the interpreter. -/
theorem shift_snd (kind : ShiftKind) (h : IsWidth size) (hd : d.toNat < 2 ^ (8 * size))
    (hk0 : k ≠ 0) (hk : k < 8 * size) :
    (kind.shift d k size).2 = kind.lastOut (8 * size) d.toNat k := by
  have hw := h.lt_bits
  have hmod : k % (8 * size) = k := Nat.mod_eq_of_lt hk
  cases kind with
  | shl =>
    show (decide (k ≤ size * 8) && (d <<< (k - 1) >>> (size * 8 - 1)).getLsbD 0) =
      d.getLsbD (8 * size - k)
    have hlow : 8 * size - 1 + 0 - (k - 1) = 8 * size - k := by omega
    rw [Nat.mul_comm size, decide_eq_true hk.le, Bool.true_and, BitVec.getLsbD_ushiftRight,
      BitVec.getLsbD_shiftLeft, decide_eq_true (by omega), decide_eq_false (by omega), hlow]
    simp
  | shr =>
    show (d >>> (k - 1)).getLsbD 0 = d.getLsbD (k - 1)
    rw [BitVec.getLsbD_ushiftRight, Nat.add_zero]
  | sar =>
    show (sextOf d size >>> (k - 1)).getLsbD 0 = d.getLsbD (min (k - 1) (8 * size - 1))
    rw [BitVec.getLsbD_ushiftRight, Nat.add_zero, getLsbD_sextOf h d (by omega),
      min_eq_left (by omega)]
  | rol =>
    show ((d <<< k ||| d >>> (size * 8 - k)) &&& sizeMask size).getLsbD 0 =
      d.getLsbD ((8 * size - k % (8 * size)) % (8 * size))
    rw [BitVec.getLsbD_and, getLsbD_sizeMask h, decide_eq_true (by omega), BitVec.getLsbD_or,
      BitVec.getLsbD_shiftLeft, BitVec.getLsbD_ushiftRight, decide_eq_true (by omega : 0 < k), hmod,
      Nat.mod_eq_of_lt (by omega), Nat.mul_comm size]
    simp
  | ror =>
    show (((d >>> k ||| d <<< (size * 8 - k)) &&& sizeMask size) >>> (size * 8 - 1)).getLsbD 0 =
      d.getLsbD ((k - 1) % (8 * size))
    have hhigh : d.getLsbD (k + (8 * size - 1)) = false :=
      Nat.testBit_lt_two_pow (hd.trans_le (Nat.pow_le_pow_right Nat.two_pos (by omega)))
    have hlow : 8 * size - 1 - (8 * size - k) = k - 1 := by omega
    rw [Nat.mul_comm size, BitVec.getLsbD_ushiftRight, Nat.add_zero, BitVec.getLsbD_and,
      getLsbD_sizeMask h, decide_eq_true (by omega), BitVec.getLsbD_or, BitVec.getLsbD_ushiftRight,
      hhigh, BitVec.getLsbD_shiftLeft, decide_eq_true (by omega), decide_eq_false (by omega), hlow,
      Nat.mod_eq_of_lt (by omega)]
    simp

/-! ### Flags -/

section Flags

variable (kind : ShiftKind) (f d : BitVec 64) (k size : ℕ)

theorem has_cf_shiftFlags : has (shiftFlags kind f d k size) CF = (kind.shift d k size).2 := by
  rw [shiftFlags]
  split_ifs <;> simp only [CF, OF, ZF, SF, PF, has_put _ _ (j := 0) (by decide) (by decide)] <;> rfl

/-- The carry and overflow apart, a rotation leaves the flags. -/
theorem has_shiftFlags_rotate (hkind : kind.IsRotate) {j : ℕ} (hj : j < 64) (h0 : j ≠ 0)
    (h1 : j ≠ 1) (h11 : j ≠ 11) :
    has (shiftFlags kind f d k size) (.twoPow 64 j) = has f (.twoPow 64 j) := by
  have hor : kind = rol ∨ kind = ror := hkind
  simp only [shiftFlags, if_pos hor]
  split_ifs
  · rw [OF, has_put _ _ hj h1, if_neg h11, CF, has_put _ _ hj h1, if_neg h0]
  · rw [CF, has_put _ _ hj h1, if_neg h0]

/-- The carry and overflow apart, a shift sets the flags of its result. -/
theorem has_shiftFlags_shift (hkind : ¬kind.IsRotate) {j : ℕ} (hj : j < 64) (h1 : j ≠ 1)
    (h11 : j ≠ 11) : has (shiftFlags kind f d k size) (.twoPow 64 j) =
      has (put (put (put (put f CF (kind.shift d k size).2) ZF ((kind.shift d k size).1 = 0)) SF
        ((kind.shift d k size).1 &&& signBit size ≠ 0)) PF
          (parityEven ((kind.shift d k size).1.setWidth 8))) (.twoPow 64 j) := by
  have hor : ¬(kind = rol ∨ kind = ror) := hkind
  simp only [shiftFlags, if_neg hor]
  split_ifs
  · rw [OF, has_put _ _ hj h1, if_neg h11]
  · rfl

theorem signs_shiftFlags (h : IsWidth size) (hkind : ¬kind.IsRotate) :
    SignsOf (8 * size) (shiftFlags kind f d k size) (kind.shift d k size).1 := by
  refine ⟨?_, ?_, ?_⟩
  · rw [ZF, has_shiftFlags_shift kind f d k size hkind (by decide) (by decide) (by decide)]
    simp only [SF, PF, ZF, has_put _ _ (j := 6) (by decide) (by decide)]
    rfl
  · rw [SF, has_shiftFlags_shift kind f d k size hkind (by decide) (by decide) (by decide)]
    simp only [SF, PF, has_put _ _ (j := 7) (by decide) (by decide)]
    rw [signBit_eq h]
    exact and_twoPow_ne_zero _ h.lt_bits
  · rw [PF, has_shiftFlags_shift kind f d k size hkind (by decide) (by decide) (by decide), PF,
      has_put _ _ (by decide) (by decide), if_pos rfl]

theorem kept_shiftFlags (hkind : kind.IsRotate) :
    has (shiftFlags kind f d k size) ZF = has f ZF ∧
      has (shiftFlags kind f d k size) SF = has f SF ∧
      has (shiftFlags kind f d k size) PF = has f PF :=
  ⟨has_shiftFlags_rotate kind f d k size hkind (by decide) (by decide) (by decide) (by decide),
    has_shiftFlags_rotate kind f d k size hkind (by decide) (by decide) (by decide) (by decide),
    has_shiftFlags_rotate kind f d k size hkind (by decide) (by decide) (by decide) (by decide)⟩

theorem has_of_shiftFlags : has (shiftFlags kind f d 1 size) OF =
    kind.overflow d (kind.shift d 1 size).1 size := by
  simp only [shiftFlags, if_true]
  rw [OF, has_put _ _ (by decide) (by decide), if_pos rfl]

end Flags

/-- A word of one bit. -/
theorem ushiftRight_eq_ofBool (h : IsWidth size) (hv : v.toNat < 2 ^ (8 * size)) :
    v >>> (8 * size - 1) = if v.getLsbD (8 * size - 1) then 1 else 0 := by
  have hlt : v.toNat / 2 ^ (8 * size - 1) < 2 := by
    obtain ⟨hbits, -⟩ := h.bits
    rw [Nat.div_lt_iff_lt_mul (Nat.two_pow_pos _), ← hbits]
    exact hv
  apply BitVec.eq_of_toNat_eq
  rw [BitVec.toNat_ushiftRight, Nat.shiftRight_eq_div_pow, getLsbD_eq]
  rcases Nat.le_one_iff_eq_zero_or_eq_one.mp (Nat.le_of_lt_succ hlt) with h0 | h0 <;> rw [h0] <;>
    rfl

theorem and_one_eq_ofBool (v : BitVec 64) : v &&& 1 = if v.getLsbD 0 then 1 else 0 := by
  apply BitVec.eq_of_toNat_eq
  have hmod : (v &&& 1).toNat = v.toNat % 2 := by
    rw [BitVec.toNat_and]
    exact Nat.and_two_pow_sub_one_eq_mod _ 1
  rw [hmod, getLsbD_eq, Nat.pow_zero, Nat.div_one]
  rcases Nat.mod_two_eq_zero_or_one v.toNat with h0 | h0 <;> rw [h0] <;> rfl

/-- **Overflow** of the interpreter. -/
theorem overflow_eq (kind : ShiftKind) (h : IsWidth size) (hv : v.toNat < 2 ^ (8 * size)) :
    kind.overflow d v size = kind.overflows (8 * size) d.toNat v.toNat := by
  have hw := h.lt_bits
  cases kind with
  | shl =>
    show decide ((v ^^^ d) &&& signBit size ≠ 0) = (d.getLsbD (8 * size - 1) != v.getLsbD _)
    rw [signBit_eq h, and_twoPow_ne_zero _ hw, BitVec.getLsbD_xor, bne_comm]
  | shr =>
    show decide (d &&& signBit size ≠ 0) = d.getLsbD (8 * size - 1)
    rw [signBit_eq h, and_twoPow_ne_zero _ hw]
  | sar => rfl
  | rol =>
    show decide (v >>> (size * 8 - 1) ^^^ v &&& 1 ≠ 0) = (v.getLsbD (8 * size - 1) != v.getLsbD 0)
    rw [Nat.mul_comm size, ushiftRight_eq_ofBool h hv, and_one_eq_ofBool]
    cases v.getLsbD (8 * size - 1) <;> cases v.getLsbD 0 <;> decide
  | ror =>
    show ((v >>> (size * 8 - 1)).getLsbD 0 != (v >>> (size * 8 - 2)).getLsbD 0) =
      (v.getLsbD (8 * size - 1) != v.getLsbD (8 * size - 2))
    rw [Nat.mul_comm size, BitVec.getLsbD_ushiftRight, BitVec.getLsbD_ushiftRight, Nat.add_zero,
      Nat.add_zero]

theorem shift_fst_lt (kind : ShiftKind) (h : IsWidth size) :
    (kind.shift d k size).1.toNat < 2 ^ (8 * size) := by
  cases kind <;> exact toNat_and_mask_lt h _

/-- **A count less than the width.** -/
theorem right_shift (kind : ShiftKind) (h : IsWidth size) (hd : d.toNat < 2 ^ (8 * size))
    (hk0 : k ≠ 0) (hk : k < 8 * size) :
    kind.Right (8 * size) f d k (shiftFlags kind f d k size) (kind.shift d k size).1 where
  unchanged h0 := absurd h0 hk0
  value _ := toNat_shift kind h hd hk
  carry _ _ := (has_cf_shiftFlags kind f d k size).trans (shift_snd kind h hd hk0 hk)
  signs _ hkind := signs_shiftFlags kind f d k size h hkind
  kept _ hkind := kept_shiftFlags kind f d k size hkind
  overflow h1 := by
    subst h1
    rw [has_of_shiftFlags, overflow_eq kind h (shift_fst_lt kind h)]

/-! ### Counts that are cut -/

section Cut

variable {bits n : ℕ}

/-- A shift by `k` leaves of a number what a shift of all of it leaves. -/
def Fills (kind : ShiftKind) (bits n k : ℕ) : Prop :=
  match kind with
  | shl => n % 2 ^ (bits - k) = 0
  | shr => n < 2 ^ k
  | sar => -2 ^ (k - 1) ≤ signedOf bits n ∧ signedOf bits n < 2 ^ (k - 1)
  | rol | ror => True

theorem signedOf_bounds (hb : 0 < bits) (hn : n < 2 ^ bits) :
    -2 ^ (bits - 1) ≤ signedOf bits n ∧ signedOf bits n < 2 ^ (bits - 1) := by
  have hpow : 2 ^ bits = 2 * 2 ^ (bits - 1) := by
    rw [← pow_succ', Nat.sub_add_cancel hb]
  rw [signedOf_eq rfl hpow]
  have hz : (2 : ℤ) ^ (bits - 1) = ((2 ^ (bits - 1) : ℕ) : ℤ) := by push_cast; rfl
  rw [hz]
  split_ifs <;> omega

theorem signedOf_neg_iff (hb : 0 < bits) (hn : n < 2 ^ bits) :
    signedOf bits n < 0 ↔ n.testBit (bits - 1) = true := by
  have hpow : 2 ^ bits = 2 * 2 ^ (bits - 1) := by
    rw [← pow_succ', Nat.sub_add_cancel hb]
  have hpos : 0 < 2 ^ (bits - 1) := Nat.two_pow_pos _
  have hlt : n / 2 ^ (bits - 1) < 2 := by
    rw [Nat.div_lt_iff_lt_mul hpos, ← hpow]
    exact hn
  have hge : 1 ≤ n / 2 ^ (bits - 1) ↔ 1 * 2 ^ (bits - 1) ≤ n := Nat.le_div_iff_mul_le hpos
  rw [signedOf_eq rfl hpow, Nat.testBit_eq_decide_div_mod_eq, decide_eq_true_iff]
  generalize n / 2 ^ (bits - 1) = q at hlt hge ⊢
  split_ifs <;> omega

/-- The bits of a number with a sign. -/
theorem testBit_signedOf (n : ℕ) {j : ℕ} (hj : j < bits) :
    n.testBit j = true ↔ signedOf bits n / 2 ^ j % 2 = 1 := by
  have hcast : ((n / 2 ^ j : ℕ) : ℤ) = (n : ℤ) / 2 ^ j := by push_cast; rfl
  rw [Nat.testBit_eq_decide_div_mod_eq, decide_eq_true_iff, signedOf]
  split_ifs with hlow
  · omega
  · have hpow : (2 : ℤ) ^ bits = 2 * 2 ^ (bits - j - 1) * 2 ^ j := by
      rw [← pow_succ', ← pow_add]
      congr 1
      omega
    have hsub : ((n : ℤ) - 2 ^ bits) / 2 ^ j = (n : ℤ) / 2 ^ j - 2 * 2 ^ (bits - j - 1) := by
      rw [hpow, sub_eq_add_neg, ← neg_mul, Int.add_mul_ediv_right _ _ (by positivity),
        ← sub_eq_add_neg]
    rw [hsub]
    omega

/-- Nothing but the sign is left. -/
theorem signedOf_div (hb : 0 < bits) (hn : n < 2 ^ bits) (hm : bits ≤ m) :
    signedOf bits n / 2 ^ m = if signedOf bits n < 0 then -1 else 0 := by
  obtain ⟨hlow, hhigh⟩ := signedOf_bounds hb hn
  have hle : (2 : ℤ) ^ (bits - 1) ≤ 2 ^ m := pow_le_pow_right₀ (by decide) (by omega)
  split_ifs with hneg
  · exact Int.ediv_eq_neg_one_of_neg_of_le hneg (by omega)
  · exact Int.ediv_eq_zero_of_lt (by omega) (by omega)

/-- Numbers with a sign are known by their bits. -/
theorem toNat_emod_inj (hb : 0 < bits) {x y : ℤ} (hx : -2 ^ (bits - 1) ≤ x)
    (hx' : x < 2 ^ (bits - 1)) (hy : -2 ^ (bits - 1) ≤ y) (hy' : y < 2 ^ (bits - 1)) :
    (x % 2 ^ bits).toNat = (y % 2 ^ bits).toNat ↔ x = y := by
  have hpow : (2 : ℤ) ^ bits = 2 * 2 ^ (bits - 1) := by
    rw [← pow_succ', Nat.sub_add_cancel hb]
  have hpos : (2 : ℤ) ^ bits ≠ 0 := by positivity
  rw [← emod_inj hx hx' hy hy', ← hpow]
  have h1 := Int.emod_nonneg x hpos
  have h2 := Int.emod_nonneg y hpos
  omega

/-- A quotient of a number with a sign is one. -/
theorem signedOf_div_bounds (hb : 0 < bits) (hn : n < 2 ^ bits) (k : ℕ) :
    -2 ^ (bits - 1) ≤ signedOf bits n / 2 ^ k ∧ signedOf bits n / 2 ^ k < 2 ^ (bits - 1) := by
  obtain ⟨hlow, hhigh⟩ := signedOf_bounds hb hn
  have hk : (1 : ℤ) ≤ 2 ^ k := one_le_pow₀ (by decide)
  have hpos : (0 : ℤ) < 2 ^ (bits - 1) := by positivity
  rw [Int.le_ediv_iff_mul_le (by omega), Int.ediv_lt_iff_lt_mul (by omega)]
  constructor <;> nlinarith

/-- SAR by `k` and the sign. -/
theorem sar_fills_iff (hb : 0 < bits) (hn : n < 2 ^ bits) (hm : bits ≤ m) (hk : k < bits) :
    (exact sar bits n k = exact sar bits n m ∧
      (k ≠ 0 → n.testBit (k - 1) = n.testBit (bits - 1))) ↔ Fills sar bits n k := by
  obtain ⟨hlow, hhigh⟩ := signedOf_div_bounds hb hn k
  obtain ⟨hlow', hhigh'⟩ := signedOf_div_bounds hb hn m
  rw [exact, exact, toNat_emod_inj hb hlow hhigh hlow' hhigh', signedOf_div hb hn hm, Fills]
  have hpos : (0 : ℤ) < 2 ^ (k - 1) := by positivity
  have h0 : 0 ≤ signedOf bits n / 2 ^ (k - 1) ↔ 0 * 2 ^ (k - 1) ≤ signedOf bits n :=
    Int.le_ediv_iff_mul_le hpos
  have h1 : -1 ≤ signedOf bits n / 2 ^ (k - 1) ↔ -1 * 2 ^ (k - 1) ≤ signedOf bits n :=
    Int.le_ediv_iff_mul_le hpos
  have h2 : signedOf bits n / 2 ^ (k - 1) < 1 ↔ signedOf bits n < 1 * 2 ^ (k - 1) :=
    Int.ediv_lt_iff_lt_mul hpos
  rcases Nat.eq_zero_or_pos k with rfl | hk0
  · simp only [Nat.zero_sub, pow_zero, Int.ediv_one, ne_eq, not_true_eq_false, false_imp_iff,
      and_true]
    split_ifs <;> omega
  · have hhalf : signedOf bits n / 2 ^ k = signedOf bits n / 2 ^ (k - 1) / 2 := by
      rw [Int.ediv_ediv_of_nonneg hpos.le, ← pow_succ, Nat.sub_add_cancel hk0]
    have hlast : k - 1 < bits := by omega
    have hbit := testBit_signedOf n hlast
    have hsign := signedOf_neg_iff hb hn
    rw [hhalf, Bool.eq_iff_iff, hbit, ← hsign]
    split_ifs <;> omega

/-- **A count that is cut without harm**, as far as the number and the carry go. -/
theorem fills_iff (kind : ShiftKind) (hb : 0 < bits) (hn : n < 2 ^ bits) (hm : bits ≤ m) :
    (kind.exact bits n (m % bits) = kind.exact bits n m ∧
      (m % bits ≠ 0 → kind.Defined bits m →
        kind.lastOut bits n (m % bits) = kind.lastOut bits n m)) ↔
      kind.Fills bits n (m % bits) := by
  have hk := Nat.mod_lt m hb
  have hmod : m % bits % bits = m % bits := Nat.mod_mod m bits
  cases kind with
  | shl =>
    have hall : n * 2 ^ m % 2 ^ bits = 0 :=
      Nat.mod_eq_zero_of_dvd (dvd_mul_of_dvd_right (pow_dvd_pow 2 hm) n)
    have hpow : 2 ^ bits = 2 ^ (m % bits) * 2 ^ (bits - m % bits) := by
      rw [← pow_add, Nat.add_sub_cancel' hk.le]
    have hcut : n * 2 ^ (m % bits) % 2 ^ bits = 0 ↔ n % 2 ^ (bits - m % bits) = 0 := by
      rw [hpow, Nat.mul_comm, Nat.mul_mod_mul_left, Nat.mul_eq_zero]
      exact or_iff_right (Nat.two_pow_pos _).ne'
    rw [exact, exact, hall, hcut]
    exact and_iff_left fun _ hdef => absurd (hdef (.inl rfl)) (by omega)
  | shr =>
    have hall : n / 2 ^ m = 0 :=
      Nat.div_eq_of_lt (hn.trans_le (Nat.pow_le_pow_right Nat.two_pos hm))
    rw [exact, exact, hall, Nat.div_eq_zero_iff_lt (Nat.two_pow_pos _)]
    exact and_iff_left fun _ hdef => absurd (hdef (.inr rfl)) (by omega)
  | sar =>
    rw [← sar_fills_iff hb hn hm hk]
    refine and_congr_right fun _ => forall_congr' fun hk0 => ?_
    rw [lastOut, lastOut, min_eq_left (by omega), min_eq_right (by omega)]
    exact ⟨fun h => h fun hc => by simp at hc, fun h _ => h⟩
  | rol =>
    refine iff_of_true ⟨?_, fun _ _ => ?_⟩ trivial
    · rw [exact, exact, hmod]
    · rw [lastOut, lastOut, hmod]
  | ror =>
    refine iff_of_true ⟨?_, fun hk0 _ => ?_⟩ trivial
    · rw [exact, exact, hmod]
    · have hlast : (m - 1) % bits = m % bits - 1 := by
        have hdiv := Nat.div_add_mod m bits
        have heq : m - 1 = m % bits - 1 + bits * (m / bits) := by omega
        rw [heq, Nat.add_mul_mod_self_left, Nat.mod_eq_of_lt (by omega)]
      rw [lastOut, lastOut, hlast, Nat.mod_eq_of_lt (by omega)]

theorem exact_zero (kind : ShiftKind) (hn : n < 2 ^ bits) :
    kind.exact bits n 0 = n := by
  cases kind with
  | shl => rw [exact, pow_zero, Nat.mul_one, Nat.mod_eq_of_lt hn]
  | shr => rw [exact, pow_zero, Nat.div_one]
  | sar =>
    rw [exact, pow_zero, Int.ediv_one, signedOf]
    split_ifs
    · rw [Int.emod_eq_of_lt (by omega) (by exact_mod_cast hn), Int.toNat_natCast]
    · rw [Int.sub_emod_right, Int.emod_eq_of_lt (by omega) (by exact_mod_cast hn),
        Int.toNat_natCast]
  | rol =>
    rw [exact, Nat.zero_mod, pow_zero, Nat.mul_one, Nat.mod_eq_of_lt hn, Nat.sub_zero,
      Nat.div_eq_of_lt hn, Nat.add_zero]
  | ror =>
    rw [exact, Nat.zero_mod, pow_zero, Nat.div_one, Nat.sub_zero, Nat.mul_mod_left, Nat.add_zero]

end Cut

/-- The flags are those of a shift that does not change the number. -/
def Stands (kind : ShiftKind) (bits : ℕ) (f d : BitVec 64) (m : ℕ) : Prop :=
  (¬kind.IsRotate → SignsOf bits f d) ∧
    (kind.Defined bits m → has f CF = kind.lastOut bits d.toNat m)

/-- **A count that is cut without harm**: it is less than the width, or nothing is lost. -/
def Spared (kind : ShiftKind) (bits : ℕ) (f d : BitVec 64) (m : ℕ) : Prop :=
  m < bits ∨ kind.Fills bits d.toNat (m % bits) ∧ (m % bits = 0 → kind.Stands bits f d m)

/-- The flags and the number afterwards. -/
def outcome (kind : ShiftKind) (f d : BitVec 64) (count size : ℕ) : BitVec 64 × BitVec 64 :=
  if count = 0 then (f, d) else (shiftFlags kind f d count size, (kind.shift d count size).1)

/-- **When a shift is right.** -/
theorem right_outcome_iff (kind : ShiftKind) (h : IsWidth size) (hd : d.toNat < 2 ^ (8 * size)) :
    kind.Right (8 * size) f d m (kind.outcome f d (m % (8 * size)) size).1
      (kind.outcome f d (m % (8 * size)) size).2 ↔ kind.Spared (8 * size) f d m := by
  have hw := h.lt_bits
  have hb : 8 ≤ 8 * size := by rcases h with rfl | rfl | rfl | rfl <;> decide
  have hk := Nat.mod_lt m (by omega : 0 < 8 * size)
  rcases Nat.lt_or_ge m (8 * size) with hlt | hge
  · refine iff_of_true ?_ (.inl hlt)
    rw [Nat.mod_eq_of_lt hlt, outcome]
    split_ifs with h0
    · subst h0
      exact ⟨fun _ => ⟨rfl, rfl⟩, fun h0 => absurd rfl h0, fun h0 => absurd rfl h0,
        fun h0 => absurd rfl h0, fun h0 => absurd rfl h0, fun h1 => absurd h1 (by decide)⟩
    · exact right_shift kind h hd h0 hlt
  · have hm0 : m ≠ 0 := by omega
    have hm1 : m ≠ 1 := by omega
    have hfills := kind.fills_iff (m := m) (by omega) hd hge
    rw [Spared, or_iff_right (by omega), ← hfills, outcome]
    split_ifs with h0
    · -- the interpreter does nothing
      have hzero := kind.exact_zero hd
      rw [h0]
      constructor
      · intro hr
        have hvalue := hr.value hm0
        exact ⟨⟨hzero.trans hvalue, fun hne => absurd rfl hne⟩,
          fun _ => ⟨hr.signs hm0, hr.carry hm0⟩⟩
      · rintro ⟨⟨hvalue, -⟩, hstands⟩
        obtain ⟨hsigns, hcarry⟩ := hstands rfl
        exact ⟨fun hm => absurd hm hm0, fun _ => hzero.symm.trans hvalue, fun _ => hcarry,
          fun _ => hsigns, fun _ _ => ⟨rfl, rfl, rfl⟩, fun hm => absurd hm hm1⟩
    · have hright := right_shift (f := f) kind h hd h0 hk
      have hvalue := hright.value h0
      have hcf := (has_cf_shiftFlags kind f d (m % (8 * size)) size).trans
        (shift_snd kind h hd h0 hk)
      constructor
      · intro hr
        exact ⟨⟨hvalue.symm.trans (hr.value hm0), fun _ hdef => hcf.symm.trans (hr.carry hm0 hdef)⟩,
          fun hz => absurd hz h0⟩
      · rintro ⟨⟨hexact, hlast⟩, -⟩
        exact ⟨fun hm => absurd hm hm0, fun _ => hvalue.trans hexact,
          fun _ hdef => hcf.trans (hlast h0 hdef), fun _ => hright.signs h0,
          fun _ => hright.kept h0, fun hm => absurd hm hm1⟩

end ShiftKind

/-! ### The instruction -/

/-- A count, cut to five bits, or six for operands of eight bytes. -/
def maskedCount (raw : BitVec 64) (size : ℕ) : ℕ := raw.toNat % if size = 8 then 64 else 32

/-- **The interpreter cuts a count to less than the width.** -/
theorem shiftCount_eq (h : IsWidth size) (raw : BitVec 64) :
    shiftCount raw size = maskedCount raw size % (8 * size) := by
  rcases h with rfl | rfl | rfl | rfl
  all_goals
    simp only [shiftCount, maskedCount, Nat.reduceMul, Nat.reduceEqDiff, if_true, if_false]
    omega

section Runs

variable {W : Type} {p : MemDevice W} {i : Insn} {r : RegFile} {w w₁ w' : W} {dst raw : BitVec 64}

/-- **Shifts and rotations.** The instruction sets flags and stores a number, or does nothing, and
that is what the processor does if and only if the count is cut without harm. -/
theorem execShift_right_iff (kind : ShiftKind) (hsize : i.opSizeBytes 0 = .ok size)
    (h : IsWidth size) (hd : (i.readOp 0).run p r w = some ((.ok dst, r), w₁))
    (hc : (i.readOp 1).run p r w₁ = some ((.ok raw, r), w')) :
    let d := dst &&& sizeMask size
    let m := maskedCount raw size
    let after := kind.outcome r.rflags d (m % (8 * size)) size
    (execShift i kind).run p r w =
        (if m % (8 * size) = 0 then pure () else i.writeOp 0 after.2).run p
          (r.setRflags after.1) w' ∧
      (kind.Right (8 * size) r.rflags d m after.1 after.2 ↔
        kind.Spared (8 * size) r.rflags d m) := by
  intro d m after
  refine ⟨?_, kind.right_outcome_iff h (toNat_and_mask_lt h dst)⟩
  rw [execShift, hsize, Cmd.run_bind_of_run (Exec.run_lift_ok size), Cmd.run_bind_of_run hd,
    Cmd.run_bind_of_run hc, shiftCount_eq h]
  simp only [after, ShiftKind.outcome]
  split_ifs <;> rfl

end Runs

/-- `shl al, 3`. -/
theorem execShift_right_shl :
    (execShift (onAl 3) .shl).run noMemory (withRax 0x21 2) () =
        ((onAl 3).writeOp 0 8).run noMemory
          ((withRax 0x21 2).setRflags (ShiftKind.shl.outcome 2 0x21 3 1).1) () ∧
      ShiftKind.shl.Right 8 2 0x21 3 (ShiftKind.shl.outcome 2 0x21 3 1).1 8 := by
  have hsize : (onAl 3).opSizeBytes 0 = .ok 1 := rfl
  have hd : ((onAl 3).readOp 0).run noMemory (withRax 0x21 2) () =
      some ((.ok 0x21, withRax 0x21 2), ()) := rfl
  have hc : ((onAl 3).readOp 1).run noMemory (withRax 0x21 2) () =
      some ((.ok 3, withRax 0x21 2), ()) := rfl
  obtain ⟨hrun, hright⟩ := execShift_right_iff .shl hsize (.inl rfl) hd hc
  exact ⟨hrun, hright.mpr (.inl (by decide))⟩

/-- **`shr al, 9`** leaves half of AL instead of nothing. -/
theorem not_execShift_right : ¬∀ (kind : ShiftKind) (size : ℕ) (f d raw : BitVec 64),
    IsWidth size → d.toNat < 2 ^ (8 * size) →
      kind.Right (8 * size) f d (maskedCount raw size)
        (kind.outcome f d (shiftCount raw size) size).1
        (kind.outcome f d (shiftCount raw size) size).2 := by
  intro hall
  have h := (hall .shr 1 2 0xff 9 (.inl rfl) (by decide)).value (by decide)
  revert h
  decide +kernel

end Wie
