import Wie.Cpu.Width

/-!
# Division

DIV and IDIV divide a number of twice the width by one of the width. A quotient that does not fit
the width is an error, like a divisor of zero.

The interpreter divides in a type of twice the width. It looks whether the quotient fits before it
stores it, except for IDIV by a byte, where the quotient is cut.

## Main definitions

* `dividendOf`, `quotientIn`, `remainderIn` — the numbers in the registers
* `DivisionLaw` — truncated division
* `DivRight` — what a division must come to

## Main results

* `divideWide_of_fits`, `divideByte_signed` — what the interpreter stores
* `execDiv_right_iff` — when a division is right
-/

namespace Wie

/-! ### Truncated division -/

/-- The division law: the remainder is less than the divisor, and zero or of the sign of the
dividend. -/
structure DivisionLaw (n d q r : ℤ) : Prop where
  /-- The dividend is made of the others. -/
  sum : n = q * d + r
  /-- The remainder is small. -/
  less : |r| < |d|
  /-- Its sign. -/
  sign : r = 0 ∨ r.sign = n.sign

theorem divisionLaw_tdiv (n : ℤ) {d : ℤ} (hd : d ≠ 0) :
    DivisionLaw n d (n.tdiv d) (n.tmod d) where
  sum := (Int.tdiv_mul_add_tmod n d).symm
  less := by
    rw [Int.abs_eq_natAbs, Int.abs_eq_natAbs, Int.natAbs_tmod]
    exact_mod_cast Nat.mod_lt _ (Int.natAbs_pos.mpr hd)
  sign := by
    have hsign := Int.sign_tmod n d
    split_ifs at hsign
    · exact .inl (Int.sign_eq_zero_iff_zero.mp hsign)
    · exact .inr hsign

/-- A number of some bits, with a sign or without. -/
def numberOf (signed : Bool) (bits n : ℕ) : ℤ := if signed then signedOf bits n else n

/-- A number has that many bits. -/
def Fits (signed : Bool) (bits : ℕ) (q : ℤ) : Prop :=
  if signed then -2 ^ (bits - 1) ≤ q ∧ q < 2 ^ (bits - 1) else 0 ≤ q ∧ q < 2 ^ bits

instance (signed : Bool) (bits : ℕ) (q : ℤ) : Decidable (Fits signed bits q) :=
  inferInstanceAs (Decidable (if signed then _ ∧ _ else _ ∧ _))

theorem fits_true {bits : ℕ} {q : ℤ} :
    Fits true bits q ↔ -2 ^ (bits - 1) ≤ q ∧ q < 2 ^ (bits - 1) := Iff.rfl

theorem fits_false {bits : ℕ} {q : ℤ} : Fits false bits q ↔ 0 ≤ q ∧ q < 2 ^ bits := Iff.rfl

theorem fits_numberOf {bits n : ℕ} (signed : Bool) (hb : 0 < bits) (hn : n < 2 ^ bits) :
    Fits signed bits (numberOf signed bits n) := by
  have hz : (n : ℤ) < 2 ^ bits := by exact_mod_cast hn
  cases signed with
  | false => exact ⟨Int.natCast_nonneg n, hz⟩
  | true =>
    have hpow : (2 : ℤ) ^ bits = 2 * 2 ^ (bits - 1) := by
      rw [← pow_succ', Nat.sub_add_cancel hb]
    have hlow : (n : ℤ) < 2 ^ (bits - 1) ↔ n < 2 ^ (bits - 1) := by exact_mod_cast Iff.rfl
    rw [fits_true, numberOf, if_pos rfl, signedOf]
    split_ifs <;> omega

/-- A quotient needs no more bits than the dividend, but for one. -/
theorem fits_tdiv {signed : Bool} {bits : ℕ} {n d : ℤ} (hn : Fits signed bits n) (hd : d ≠ 0)
    (hpos : signed = false → 0 < d) (hmin : ¬(signed = true ∧ n = -2 ^ (bits - 1) ∧ d = -1)) :
    Fits signed bits (n.tdiv d) := by
  have hle := Int.natAbs_tdiv_le_natAbs n d
  cases signed with
  | false =>
    obtain ⟨h0, hlt⟩ := hn
    have hq := Int.tdiv_nonneg h0 (hpos rfl).le
    exact ⟨hq, by omega⟩
  | true =>
    obtain ⟨hlow, hhigh⟩ := hn
    have hquot : (n.tdiv d).natAbs = n.natAbs / d.natAbs := Int.natAbs_tdiv n d
    rcases Nat.lt_or_ge d.natAbs 2 with h1 | h2
    · rcases (by omega : d = 1 ∨ d = -1) with rfl | rfl
      · rw [Int.tdiv_one]
        exact ⟨hlow, hhigh⟩
      · rw [Int.tdiv_neg, Int.tdiv_one]
        have hne : n ≠ -2 ^ (bits - 1) := fun hn => hmin ⟨rfl, hn, rfl⟩
        exact ⟨by omega, by omega⟩
    · have hhalf : n.natAbs / d.natAbs ≤ n.natAbs / 2 := Nat.div_le_div_left h2 (by decide)
      have hpow : (0 : ℤ) < 2 ^ (bits - 1) := by positivity
      exact ⟨by omega, by omega⟩

/-- A remainder needs no more bits than the divisor. -/
theorem fits_tmod {signed : Bool} {bits : ℕ} {n d : ℤ} (hd : Fits signed bits d) (h0 : d ≠ 0)
    (hpos : signed = false → 0 ≤ n) : Fits signed bits (n.tmod d) := by
  have hlt : (n.tmod d).natAbs < d.natAbs := by
    rw [Int.natAbs_tmod]
    exact Nat.mod_lt _ (Int.natAbs_pos.mpr h0)
  cases signed with
  | false =>
    have hnn := Int.tmod_nonneg d (hpos rfl)
    obtain ⟨hd0, hd1⟩ := hd
    exact ⟨hnn, by omega⟩
  | true =>
    obtain ⟨hlow, hhigh⟩ := hd
    exact ⟨by omega, by omega⟩

/-- The quotient fits a byte, in terms of the dividend. -/
def ByteQuotient (n d : ℤ) : Prop := -(129 * |d|) < n * d.sign ∧ n * d.sign < 128 * |d|

instance (n d : ℤ) : Decidable (ByteQuotient n d) := inferInstanceAs (Decidable (_ ∧ _))

theorem fits_byte_of_pos (n : ℤ) {d : ℤ} (hd : 0 < d) :
    Fits true 8 (n.tdiv d) ↔ -(129 * d) < n ∧ n < 128 * d := by
  have h128 : n / d < 128 ↔ n < 128 * d := Int.ediv_lt_iff_lt_mul hd
  have h129 : -n / d < 129 ↔ -n < 129 * d := Int.ediv_lt_iff_lt_mul hd
  rw [fits_true]
  rcases Int.le_total 0 n with hn | hn
  · rw [Int.tdiv_eq_ediv_of_nonneg hn]
    have hq := Int.ediv_nonneg hn hd.le
    norm_num
    omega
  · have hneg : n.tdiv d = -(-n / d) := by
      rw [← Int.tdiv_eq_ediv_of_nonneg (by omega), Int.neg_tdiv, Int.neg_neg]
    have hq : 0 ≤ -n / d := Int.ediv_nonneg (by omega) hd.le
    rw [hneg]
    norm_num
    omega

theorem fits_byte_iff (n : ℤ) {d : ℤ} (hd : d ≠ 0) :
    Fits true 8 (n.tdiv d) ↔ ByteQuotient n d := by
  rcases Int.lt_or_gt_of_ne hd with hneg | hpos
  · have hflip : n.tdiv d = (-n).tdiv (-d) := (Int.neg_tdiv_neg n d).symm
    rw [hflip, fits_byte_of_pos (-n) (by omega), ByteQuotient, Int.sign_eq_neg_one_of_neg hneg,
      abs_of_neg hneg, mul_neg_one]
  · rw [fits_byte_of_pos n hpos, ByteQuotient, Int.sign_eq_one_of_pos hpos, abs_of_pos hpos,
      mul_one]

/-! ### Registers -/

variable {size : ℕ} {r r' : RegFile} {d v : BitVec 64} {signed : Bool}

theorem readReg_sized (h : IsWidth size) (r : RegFile) (i : Fin 16) :
    r.readReg (sized size i) = .ok (r.gpr i &&& sizeMask size) := by
  rcases h with rfl | rfl | rfl | rfl
  · rfl
  · rfl
  · rfl
  · rw [and_sizeMask_eight]
    rfl

/-- Bits of a word that are taken from another. -/
theorem merge_mask (g v m : BitVec 64) : (g &&& ~~~m ||| v &&& m) &&& m = v &&& m := by
  apply BitVec.eq_of_getLsbD_eq
  intro k hk
  simp only [BitVec.getLsbD_and, BitVec.getLsbD_or, BitVec.getLsbD_not, decide_eq_true hk]
  cases g.getLsbD k <;> cases v.getLsbD k <;> cases m.getLsbD k <;> rfl

/-- **A part of a register** is written. -/
theorem writeReg_sized (h : IsWidth size) (r : RegFile) (i : Fin 16) (v : BitVec 64) :
    ∃ u, r.writeReg (sized size i) v = .ok (r.setGpr i u) ∧
      u.toNat % 2 ^ (8 * size) = v.toNat % 2 ^ (8 * size) := by
  rcases h with rfl | rfl | rfl | rfl
  · refine ⟨_, rfl, ?_⟩
    have hm := congrArg BitVec.toNat (merge_mask (r.gpr i) v 0xff)
    exact (toNat_and_mask (.inl rfl) _).symm.trans (hm.trans (toNat_and_mask (.inl rfl) v))
  · refine ⟨_, rfl, ?_⟩
    have hw : IsWidth 2 := .inr (.inl rfl)
    have hm := congrArg BitVec.toNat (merge_mask (r.gpr i) v 0xffff)
    exact (toNat_and_mask hw _).symm.trans (hm.trans (toNat_and_mask hw v))
  · refine ⟨_, rfl, ?_⟩
    have hw : IsWidth 4 := .inr (.inr (.inl rfl))
    have hm := toNat_and_mask hw v
    rw [sizeMask] at hm
    rw [hm, Nat.mod_mod]
  · exact ⟨_, rfl, rfl⟩

/-- The dividend: AX, or a pair of registers. -/
def dividendOf (r : RegFile) (size : ℕ) (signed : Bool) : ℤ :=
  numberOf signed (2 * (8 * size)) (if size = 1 then (r.gpr 0).toNat % 2 ^ 16
    else (r.gpr 2).toNat % 2 ^ (8 * size) * 2 ^ (8 * size) + (r.gpr 0).toNat % 2 ^ (8 * size))

/-- The quotient: the low part of RAX. -/
def quotientIn (r : RegFile) (size : ℕ) (signed : Bool) : ℤ :=
  numberOf signed (8 * size) ((r.gpr 0).toNat % 2 ^ (8 * size))

/-- The remainder: AH, or the low part of RDX. -/
def remainderIn (r : RegFile) (size : ℕ) (signed : Bool) : ℤ :=
  numberOf signed (8 * size)
    (if size = 1 then (r.gpr 0).toNat / 2 ^ 8 % 2 ^ 8 else (r.gpr 2).toNat % 2 ^ (8 * size))

/-- A number that fits is stored. -/
theorem numberOf_ofInt (h : IsWidth size) {q : ℤ} (hq : Fits signed (8 * size) q) :
    numberOf signed (8 * size) ((BitVec.ofInt 64 q).toNat % 2 ^ (8 * size)) = q := by
  rw [BitVec.toNat_ofInt]
  cases signed with
  | false =>
    rw [fits_false] at hq
    rw [numberOf, if_neg Bool.false_ne_true]
    rcases h with rfl | rfl | rfl | rfl <;> simp only [Nat.reduceMul] at hq ⊢ <;> omega
  | true =>
    rw [fits_true] at hq
    rw [numberOf, if_pos rfl, signedOf]
    rcases h with rfl | rfl | rfl | rfl <;> simp only [Nat.reduceMul, Nat.reduceSub] at hq ⊢ <;>
      split_ifs <;> omega

theorem fits_dividendOf (h : IsWidth size) (r : RegFile) (signed : Bool) :
    Fits signed (2 * (8 * size)) (dividendOf r size signed) := by
  rw [dividendOf]
  refine fits_numberOf signed ?_ ?_
  · rcases h with rfl | rfl | rfl | rfl <;> decide
  · rcases h with rfl | rfl | rfl | rfl <;>
      simp only [Nat.reduceMul, Nat.reduceEqDiff, if_true, if_false] <;> omega

/-! ### Wide divisions -/

section Wide

variable (hsize : size ≠ 1) (h : IsWidth size) (hd : d.toNat < 2 ^ (8 * size))

include hsize h

theorem wide_bits : (if size = 2 ∨ size = 4 then 8 * size else 64) = 8 * size := by
  rcases h with rfl | rfl | rfl | rfl
  · exact absurd rfl hsize
  all_goals rfl

/-- The dividend of a wide division. -/
theorem dividendOf_wide_false (r : RegFile) : dividendOf r size false =
    ((r.gpr 2 &&& sizeMask size).toNat * 2 ^ (8 * size) + (r.gpr 0 &&& sizeMask size).toNat : ℕ) := by
  rw [dividendOf, numberOf, if_neg Bool.false_ne_true, if_neg hsize, toNat_and_mask h,
    toNat_and_mask h]

/-- The dividend of a wide division with a sign. -/
theorem dividendOf_wide_true (r : RegFile) : dividendOf r size true =
    (sextOf (r.gpr 2 &&& sizeMask size) size).toInt * 2 ^ (8 * size) +
      (r.gpr 0 &&& sizeMask size).toNat := by
  rw [dividendOf, numberOf, if_pos rfl, if_neg hsize, toInt_sextOf h, toNat_and_mask h,
    toNat_and_mask h, Nat.mod_mod, signedOf, signedOf]
  rcases h with rfl | rfl | rfl | rfl
  · exact absurd rfl hsize
  all_goals
    simp only [Nat.reduceMul, Nat.reduceSub]
    split_ifs <;> omega

omit hsize in
/-- What is stored. -/
theorem store_wide (r : RegFile) (x y : BitVec 64) :
    ∃ r', (do
        let r ← r.writeReg (sized size 0) x
        r.writeReg (sized size 2) y) = Except.ok r' ∧
      (r'.gpr 0).toNat % 2 ^ (8 * size) = x.toNat % 2 ^ (8 * size) ∧
      (r'.gpr 2).toNat % 2 ^ (8 * size) = y.toNat % 2 ^ (8 * size) := by
  obtain ⟨u, hu, hux⟩ := writeReg_sized h r 0 x
  obtain ⟨u', hu', huy⟩ := writeReg_sized h (r.setGpr 0 u) 2 y
  refine ⟨(r.setGpr 0 u).setGpr 2 u', ?_, ?_, ?_⟩
  · rw [hu]
    exact hu'
  · exact hux
  · exact huy

/-- What a wide division stores. -/
theorem stored_wide (r : RegFile) {q m : ℤ} (hq : Fits signed (8 * size) q)
    (hm : Fits signed (8 * size) m) :
    ∃ r', (do
        let r ← r.writeReg (sized size 0) (.ofInt 64 q &&& sizeMask size)
        r.writeReg (sized size 2) (.ofInt 64 m &&& sizeMask size)) = Except.ok r' ∧
      quotientIn r' size signed = q ∧ remainderIn r' size signed = m := by
  obtain ⟨r', hr, h0, h2⟩ := store_wide h r (.ofInt 64 q &&& sizeMask size)
    (.ofInt 64 m &&& sizeMask size)
  refine ⟨r', hr, ?_, ?_⟩
  · rw [quotientIn, h0, toNat_and_mask h, Nat.mod_mod, numberOf_ofInt h hq]
  · rw [remainderIn, if_neg hsize, h2, toNat_and_mask h, Nat.mod_mod, numberOf_ofInt h hm]

include hd

/-- A wide division with a sign, in terms of the numbers. -/
theorem divideWide_true (r : RegFile) {n m : ℤ} (hn : dividendOf r size true = n)
    (hm : numberOf true (8 * size) d.toNat = m) : divideWide r d size true =
      (if n = -2 ^ (2 * (8 * size) - 1) ∧ m = -1 then .error (.message "idiv overflow")
      else if n.tdiv m < -2 ^ (8 * size - 1) ∨ 2 ^ (8 * size - 1) ≤ n.tdiv m then
        .error (.message "idiv overflow")
      else (do
        let r ← r.writeReg (sized size 0) (.ofInt 64 (n.tdiv m) &&& sizeMask size)
        r.writeReg (sized size 2) (.ofInt 64 (n.tmod m) &&& sizeMask size))) := by
  have hD : (sextOf d size).toInt = m := by
    rw [← hm, toInt_sextOf h, Nat.mod_eq_of_lt hd]
    rfl
  have h8 : 8 * size / 8 = size := Nat.mul_div_cancel_left _ (by decide)
  rw [dividendOf_wide_true hsize h] at hn
  rw [divideWide, wide_bits hsize h, readReg_sized h, readReg_sized h, ← hn, ← hD]
  simp only [h8]
  rfl

omit hd in
/-- A wide division without a sign, in terms of the numbers. -/
theorem divideWide_false (r : RegFile) {n : ℕ}
    (hn : (r.gpr 2 &&& sizeMask size).toNat * 2 ^ (8 * size) + (r.gpr 0 &&& sizeMask size).toNat = n) :
    divideWide r d size false =
      (if 2 ^ (8 * size) ≤ n / d.toNat then .error (.message "div overflow")
      else (do
        let r ← r.writeReg (sized size 0) (.ofNat 64 (n / d.toNat) &&& sizeMask size)
        r.writeReg (sized size 2) (.ofNat 64 (n % d.toNat) &&& sizeMask size))) := by
  rw [divideWide, wide_bits hsize h, readReg_sized h, readReg_sized h, ← hn]
  rfl

/-- **A wide division whose quotient does not fit.** -/
theorem divideWide_of_not_fits (r : RegFile) (signed : Bool)
    (hfit : ¬Fits signed (8 * size)
      ((dividendOf r size signed).tdiv (numberOf signed (8 * size) d.toNat))) :
    ∃ e, divideWide r d size signed = .error e := by
  cases signed with
  | true =>
    rw [divideWide_true hsize h hd r rfl rfl]
    split_ifs with hmin hq
    · exact ⟨_, rfl⟩
    · exact ⟨_, rfl⟩
    · rw [fits_true] at hfit
      omega
  | false =>
    rw [divideWide_false hsize h r rfl]
    split_ifs with hq
    · exact ⟨_, rfl⟩
    · rw [dividendOf_wide_false hsize h, numberOf, if_neg Bool.false_ne_true, ← Int.ofNat_tdiv,
        fits_false] at hfit
      refine absurd ⟨Int.natCast_nonneg _, ?_⟩ hfit
      exact_mod_cast Nat.lt_of_not_le hq

/-- **A wide division whose quotient fits.** -/
theorem divideWide_of_fits (r : RegFile) (signed : Bool)
    (h0 : numberOf signed (8 * size) d.toNat ≠ 0)
    (hfit : Fits signed (8 * size)
      ((dividendOf r size signed).tdiv (numberOf signed (8 * size) d.toNat))) :
    ∃ r', divideWide r d size signed = .ok r' ∧
      quotientIn r' size signed =
        (dividendOf r size signed).tdiv (numberOf signed (8 * size) d.toNat) ∧
      remainderIn r' size signed =
        (dividendOf r size signed).tmod (numberOf signed (8 * size) d.toNat) := by
  have hdfit := fits_numberOf signed h.pos hd
  have hmfit : Fits signed (8 * size)
      ((dividendOf r size signed).tmod (numberOf signed (8 * size) d.toNat)) := by
    refine fits_tmod hdfit h0 fun hs => ?_
    subst hs
    exact (fits_false.mp (fits_dividendOf h r false)).1
  cases signed with
  | true =>
    rw [divideWide_true hsize h hd r rfl rfl]
    obtain ⟨hlow, hhigh⟩ := fits_true.mp hfit
    have hmin : ¬(dividendOf r size true = -2 ^ (2 * (8 * size) - 1) ∧
        numberOf true (8 * size) d.toNat = -1) := by
      rintro ⟨hn, hm⟩
      rw [hn, hm, Int.tdiv_neg, Int.tdiv_one, Int.neg_neg] at hhigh
      exact absurd hhigh (not_lt.mpr (pow_le_pow_right₀ (by decide) (by have := h.pos; omega)))
    rw [if_neg hmin, if_neg (by omega)]
    exact stored_wide hsize h r hfit hmfit
  | false =>
    rw [divideWide_false hsize h r rfl]
    rw [dividendOf_wide_false hsize h, numberOf, if_neg Bool.false_ne_true, ← Int.ofNat_tdiv] at hfit ⊢
    rw [dividendOf_wide_false hsize h, numberOf, if_neg Bool.false_ne_true, ← Int.ofNat_tmod]
      at hmfit
    have hlt := (fits_false.mp hfit).2
    rw [if_neg (not_le.mpr (by exact_mod_cast hlt)), ← Int.ofNat_tmod]
    have hstored := stored_wide hsize h r hfit hmfit
    rw [BitVec.ofInt_natCast, BitVec.ofInt_natCast] at hstored
    exact hstored

end Wide

/-! ### Divisions by a byte -/

section Byte

theorem toNat_shiftLeft_or {x y : BitVec 64} (hx : x.toNat < 2 ^ 8) (hy : y.toNat < 2 ^ 8) :
    (x <<< 8 ||| y).toNat = 2 ^ 8 * x.toNat + y.toNat := by
  rw [BitVec.toNat_or, BitVec.toNat_shiftLeft, Nat.shiftLeft_eq, Nat.mod_eq_of_lt (by omega),
    Nat.mul_comm, Nat.two_pow_add_eq_or_of_lt hy]

/-- What a division by a byte stores. -/
theorem store_byte (r : RegFile) {x y : BitVec 64} (hx : x.toNat < 2 ^ 8) (hy : y.toNat < 2 ^ 8) :
    ∃ r', r.writeReg (.gpr16 0) (x <<< 8 ||| y) = .ok r' ∧ (r'.gpr 0).toNat % 2 ^ 8 = y.toNat ∧
      (r'.gpr 0).toNat / 2 ^ 8 % 2 ^ 8 = x.toNat := by
  obtain ⟨u, hu, hux⟩ := writeReg_sized (.inr (.inl rfl)) r 0 (x <<< 8 ||| y)
  rw [toNat_shiftLeft_or hx hy] at hux
  refine ⟨r.setGpr 0 u, hu, ?_, ?_⟩
  · show u.toNat % 2 ^ 8 = y.toNat
    omega
  · show u.toNat / 2 ^ 8 % 2 ^ 8 = x.toNat
    omega

theorem toNat_ax (r : RegFile) :
    (r.gpr 0 &&& 0xffff &&& 0xffff).toNat = (r.gpr 0).toNat % 2 ^ 16 := by
  have h (v : BitVec 64) : (v &&& 0xffff).toNat = v.toNat % 2 ^ 16 :=
    toNat_and_mask (.inr (.inl rfl)) v
  rw [h, h, Nat.mod_mod]

/-- A division by a byte without a sign, in terms of the numbers. -/
theorem divideByte_false (r : RegFile) (hd : d.toNat < 2 ^ 8) (h0 : d ≠ 0) :
    if (r.gpr 0).toNat % 2 ^ 16 / d.toNat < 2 ^ 8 then
      ∃ r', divideByte r d false = .ok r' ∧
        (r'.gpr 0).toNat % 2 ^ 8 = (r.gpr 0).toNat % 2 ^ 16 / d.toNat ∧
        (r'.gpr 0).toNat / 2 ^ 8 % 2 ^ 8 = (r.gpr 0).toNat % 2 ^ 16 % d.toNat
    else ∃ e, divideByte r d false = .error e := by
  have hread : divideByte r d false =
      if 0xff < (r.gpr 0 &&& 0xffff &&& 0xffff) / d then .error (.message "div overflow")
      else r.writeReg (.gpr16 0) (((r.gpr 0 &&& 0xffff &&& 0xffff) % d &&& 0xff) <<< 8 |||
        (r.gpr 0 &&& 0xffff &&& 0xffff) / d &&& 0xff) := rfl
  have hmask (v : BitVec 64) : (v &&& 0xff).toNat = v.toNat % 2 ^ 8 :=
    toNat_and_mask (.inl rfl) v
  have hpos : 0 < d.toNat := Nat.pos_of_ne_zero fun hz => h0 (BitVec.eq_of_toNat_eq hz)
  have hrem := Nat.mod_lt ((r.gpr 0).toNat % 2 ^ 16) hpos
  rw [hread]
  split_ifs with hlt hover hover
  · rw [BitVec.lt_def, BitVec.toNat_udiv, toNat_ax] at hover
    exact absurd hover (not_lt.mpr (Nat.le_of_lt_succ hlt))
  · obtain ⟨r', hr', hq, hm⟩ := store_byte r
      (x := (r.gpr 0 &&& 0xffff &&& 0xffff) % d &&& 0xff)
      (y := (r.gpr 0 &&& 0xffff &&& 0xffff) / d &&& 0xff)
      (by rw [hmask]; exact Nat.mod_lt _ (by decide)) (by rw [hmask]; exact Nat.mod_lt _ (by decide))
    rw [hmask, BitVec.toNat_udiv, toNat_ax, Nat.mod_eq_of_lt hlt] at hq
    rw [hmask, BitVec.toNat_umod, toNat_ax, Nat.mod_eq_of_lt (hrem.trans hd)] at hm
    exact ⟨r', hr', hq, hm⟩
  · exact ⟨_, rfl⟩
  · rw [BitVec.lt_def, BitVec.toNat_udiv, toNat_ax] at hover
    exact absurd (Nat.lt_succ_of_le (Nat.le_of_not_lt hover)) hlt

/-- The numbers of a division by a byte with a sign. -/
theorem byte_numbers (r : RegFile) (hd : d.toNat < 2 ^ 8) :
    ((r.gpr 0 &&& 0xffff &&& 0xffff).setWidth 16).toInt = dividendOf r 1 true ∧
      ((sextOf d 1).setWidth 16).toInt = numberOf true 8 d.toNat := by
  constructor
  · rw [BitVec.toInt_eq_toNat_cond, BitVec.toNat_setWidth, toNat_ax, Nat.mod_mod, dividendOf,
      numberOf, if_pos rfl, if_pos rfl, signedOf]
    simp only [Nat.reduceMul, Nat.reduceSub]
    split_ifs <;> omega
  · have hsext := toInt_sextOf (.inl rfl) d
    rw [Nat.mod_eq_of_lt hd, BitVec.toInt_eq_toNat_cond] at hsext
    rw [BitVec.toInt_eq_toNat_cond, BitVec.toNat_setWidth, numberOf, if_pos rfl]
    simp only [signedOf, Nat.reduceMul, Nat.reduceSub] at hsext ⊢
    split_ifs at hsext ⊢ <;> omega

/-- **A division by a byte with a sign** does not look whether the quotient fits. -/
theorem divideByte_true (r : RegFile) {n m : ℤ} (hd : d.toNat < 2 ^ 8)
    (hn : dividendOf r 1 true = n) (hm : numberOf true 8 d.toNat = m) :
    if n = -2 ^ 15 ∧ m = -1 then ∃ e, divideByte r d true = .error e
    else ∃ r', divideByte r d true = .ok r' ∧
      (r'.gpr 0).toNat % 2 ^ 8 = (n.tdiv m % 2 ^ 8).toNat ∧
      (r'.gpr 0).toNat / 2 ^ 8 % 2 ^ 8 = (n.tmod m % 2 ^ 8).toNat := by
  obtain ⟨hnum, hden⟩ := byte_numbers r hd
  have hread : divideByte r d true =
      if n = -2 ^ 15 ∧ m = -1 then .error (.message "idiv overflow")
      else r.writeReg (.gpr16 0) ((BitVec.ofInt 8 (n.tmod m)).setWidth 64 <<< 8 |||
        (BitVec.ofInt 8 (n.tdiv m)).setWidth 64) := by
    rw [← hn, ← hm, ← hnum, ← hden]
    rfl
  have hbyte (q : ℤ) : ((BitVec.ofInt 8 q).setWidth 64).toNat = (q % 2 ^ 8).toNat := by
    rw [BitVec.toNat_setWidth, BitVec.toNat_ofInt]
    omega
  have hlt (q : ℤ) : ((BitVec.ofInt 8 q).setWidth 64).toNat < 2 ^ 8 := by
    rw [hbyte]
    omega
  rw [hread]
  split_ifs
  · exact ⟨_, rfl⟩
  · obtain ⟨r', hr', hq, hrem⟩ := store_byte r (hlt (n.tmod m)) (hlt (n.tdiv m))
    rw [hbyte] at hq hrem
    exact ⟨r', hr', hq, hrem⟩

/-- A number that fits a byte is stored. -/
theorem signedOf_emod {q : ℤ} (hq : Fits true 8 q) : signedOf 8 (q % 2 ^ 8).toNat = q := by
  rw [fits_true] at hq
  rw [signedOf]
  simp only [Nat.reduceSub] at hq ⊢
  split_ifs <;> omega

end Byte

/-! ### Divisions -/

/-- What a division comes to. -/
def divideOrFail (ip : BitVec 64) (r : RegFile) (d : BitVec 64) (size : ℕ) (signed : Bool) :
    Except CpuError RegFile :=
  if d = 0 then
    let name := if signed then "idiv" else "div"
    .error (.message s!"{name} by zero at {hex ip.toNat}")
  else divide r d size signed

/-- **A division is right**: it fails if the divisor is zero or the quotient does not fit, and
otherwise leaves a quotient and a remainder. -/
structure DivRight (r : RegFile) (d : BitVec 64) (size : ℕ) (signed : Bool)
    (x : Except CpuError RegFile) : Prop where
  /-- Failures. -/
  fails : ∀ m : ℤ, m = numberOf signed (8 * size) d.toNat →
    m = 0 ∨ ¬Fits signed (8 * size) ((dividendOf r size signed).tdiv m) → ∃ e, x = .error e
  /-- Quotients and remainders. -/
  divides : ∀ m : ℤ, m = numberOf signed (8 * size) d.toNat → m ≠ 0 →
    Fits signed (8 * size) ((dividendOf r size signed).tdiv m) → ∃ r', x = .ok r' ∧
      DivisionLaw (dividendOf r size signed) m (quotientIn r' size signed)
        (remainderIn r' size signed)

/-- **No quotient is too big** for the type in which the interpreter divides, which is of twice the
width, but for one that it looks for. -/
structure HostFits (n m : ℤ) (bits : ℕ) (signed : Bool) : Prop where
  /-- The dividend. -/
  dividend : Fits signed (2 * bits) n
  /-- The quotient. -/
  quotient : m ≠ 0 → ¬(signed = true ∧ n = -2 ^ (2 * bits - 1) ∧ m = -1) →
    Fits signed (2 * bits) (n.tdiv m)
  /-- The remainder. -/
  remainder : m ≠ 0 → Fits signed bits (n.tmod m)

theorem numberOf_eq_zero_iff (hd : d.toNat < 2 ^ (8 * size)) :
    numberOf signed (8 * size) d.toNat = 0 ↔ d = 0 := by
  have hz : d = 0 ↔ d.toNat = 0 := BitVec.toNat_eq
  rw [hz]
  cases signed with
  | false => exact Int.natCast_eq_zero
  | true =>
    have hpos := Nat.two_pow_pos (8 * size - 1)
    have hcast : (d.toNat : ℤ) < 2 ^ (8 * size) := by exact_mod_cast hd
    rw [numberOf, if_pos rfl, signedOf]
    split_ifs <;> omega

theorem hostFits (h : IsWidth size) (hd : d.toNat < 2 ^ (8 * size)) (r : RegFile) (signed : Bool) :
    HostFits (dividendOf r size signed) (numberOf signed (8 * size) d.toNat) (8 * size) signed := by
  have hn := fits_dividendOf h r signed
  have hm := fits_numberOf signed h.pos hd
  refine ⟨hn, fun h0 hmin => fits_tdiv hn h0 (fun hs => ?_) hmin,
    fun h0 => fits_tmod hm h0 fun hs => ?_⟩
  · subst hs
    exact lt_of_le_of_ne (fits_false.mp hm).1 (Ne.symm h0)
  · subst hs
    exact (fits_false.mp hn).1

/-- IDIV by a byte. -/
theorem divRight_byte_iff (r : RegFile) (hd : d.toNat < 2 ^ 8) (hm0 : numberOf true 8 d.toNat ≠ 0) :
    DivRight r d 1 true (divideByte r d true) ↔ (1 = 1 → true = true → d ≠ 0 →
      ByteQuotient (dividendOf r 1 true) (signedOf 8 d.toNat) ∨
        dividendOf r 1 true = -2 ^ 15 ∧ signedOf 8 d.toNat = -1) := by
  have hbyte := divideByte_true r hd rfl rfl
  have hfits := fits_byte_iff (dividendOf r 1 true) hm0
  have hdz : d ≠ 0 := fun hz => hm0 (hz ▸ rfl)
  by_cases hmin : dividendOf r 1 true = -2 ^ 15 ∧ numberOf true 8 d.toNat = -1
  · -- `checked_div` fails
    rw [if_pos hmin] at hbyte
    refine iff_of_true ⟨fun m _ _ => hbyte, ?_⟩ fun _ _ _ => .inr hmin
    rintro m hm - hfit
    have hm1 : m = -1 := hm.trans hmin.2
    rw [hmin.1, hm1, fits_true] at hfit
    exact absurd hfit (by decide)
  · rw [if_neg hmin] at hbyte
    obtain ⟨r', hr', hq, hrem⟩ := hbyte
    constructor
    · intro hright _ _ _
      refine .inl (hfits.mp (by_contra fun hfit => ?_))
      obtain ⟨e, he⟩ := hright.fails _ rfl (.inr hfit)
      rw [hr'] at he
      cases he
    · intro hcond
      have hfit := hfits.mpr ((hcond rfl rfl hdz).resolve_right hmin)
      have hmfit : Fits true 8 ((dividendOf r 1 true).tmod (numberOf true 8 d.toNat)) :=
        fits_tmod (fits_numberOf true (by decide) hd) hm0 fun hs => by cases hs
      constructor
      · rintro m hm (hz | hnot)
        · exact absurd (hm.symm.trans hz) hm0
        · rw [hm] at hnot
          exact absurd hfit hnot
      · intro m hm _ _
        have hquot : quotientIn r' 1 true =
            (dividendOf r 1 true).tdiv (numberOf true 8 d.toNat) :=
          (congrArg (signedOf 8) hq).trans (signedOf_emod hfit)
        have hremainder : remainderIn r' 1 true =
            (dividendOf r 1 true).tmod (numberOf true 8 d.toNat) :=
          (congrArg (signedOf 8) hrem).trans (signedOf_emod hmfit)
        refine ⟨r', hr', ?_⟩
        rw [hm, hquot, hremainder]
        exact divisionLaw_tdiv _ hm0

/-- **When a division is right**: IDIV by a byte must have a quotient that fits, or be one of the
failures. -/
theorem divRight_iff (h : IsWidth size) (hd : d.toNat < 2 ^ (8 * size)) (ip : BitVec 64)
    (r : RegFile) (signed : Bool) :
    DivRight r d size signed (divideOrFail ip r d size signed) ↔
      (size = 1 → signed = true → d ≠ 0 →
        ByteQuotient (dividendOf r 1 true) (signedOf 8 d.toNat) ∨
          dividendOf r 1 true = -2 ^ 15 ∧ signedOf 8 d.toNat = -1) := by
  have hzero : numberOf signed (8 * size) d.toNat = 0 ↔ d = 0 := numberOf_eq_zero_iff hd
  by_cases h0 : d = 0
  · have hm := hzero.mpr h0
    refine iff_of_true ⟨fun m hmd _ => ?_, fun m hmd hne => absurd (hmd.trans hm) hne⟩
      fun _ _ hne => absurd h0 hne
    rw [divideOrFail, if_pos h0]
    exact ⟨_, rfl⟩
  have hm0 := hzero.not.mpr h0
  rw [divideOrFail, if_neg h0, divide]
  split_ifs with hsize
  · subst hsize
    cases signed with
    | false =>
      refine iff_of_true ?_ fun _ hs => by cases hs
      have hbyte := divideByte_false r hd h0
      have hn : dividendOf r 1 false = ((r.gpr 0).toNat % 2 ^ 16 : ℕ) := rfl
      have hm : numberOf false (8 * 1) d.toNat = (d.toNat : ℤ) := rfl
      constructor
      · rintro m rfl (hz | hfit)
        · exact absurd hz hm0
        · rw [hn, hm, ← Int.ofNat_tdiv, fits_false] at hfit
          rw [if_neg fun hlt => hfit ⟨Int.natCast_nonneg _, by exact_mod_cast hlt⟩] at hbyte
          exact hbyte
      · rintro m rfl - hfit
        rw [hn, hm, ← Int.ofNat_tdiv, fits_false] at hfit
        rw [if_pos (by exact_mod_cast hfit.2)] at hbyte
        obtain ⟨r', hr', hq, hrem⟩ := hbyte
        refine ⟨r', hr', ?_⟩
        have hlaw := divisionLaw_tdiv (dividendOf r 1 false) hm0
        rw [hn, hm, ← Int.ofNat_tdiv, ← Int.ofNat_tmod, ← hq, ← hrem] at hlaw
        exact hn ▸ hlaw
    | true =>
      exact divRight_byte_iff r hd hm0
  · refine iff_of_true ⟨?_, ?_⟩ fun hs => absurd hs hsize
    · rintro m rfl (hz | hfit)
      · exact absurd hz hm0
      · exact divideWide_of_not_fits hsize h hd r signed hfit
    · rintro m rfl - hfit
      obtain ⟨r', hr', hq, hrem⟩ := divideWide_of_fits hsize h hd r signed hm0 hfit
      refine ⟨r', hr', ?_⟩
      rw [hq, hrem]
      exact divisionLaw_tdiv _ hm0

section Runs

variable {W : Type} {p : MemDevice W} {i : Insn} {w w' : W} {divisor : BitVec 64}

/-- **DIV and IDIV.** The instruction fails with its registers unchanged, or stores what it has
divided; and that is right, unless it is IDIV by a byte whose quotient does not fit. No quotient is
too big for the host. -/
theorem execDiv_right_iff (signed : Bool) (hsize : i.opSizeBytes 0 = .ok size) (h : IsWidth size)
    (hd : (i.readOp 0).run p r w = some ((.ok divisor, r), w')) :
    let d := divisor &&& sizeMask size
    let x := divideOrFail i.ip r d size signed
    (execDiv i signed).run p r w = some (match x with
        | .ok r' => (.ok (), r')
        | .error e => (.error (.cpu e), r), w') ∧
      HostFits (dividendOf r size signed) (numberOf signed (8 * size) d.toNat) (8 * size) signed ∧
      (DivRight r d size signed x ↔ (size = 1 → signed = true → d ≠ 0 →
        ByteQuotient (dividendOf r 1 true) (signedOf 8 d.toNat) ∨
          dividendOf r 1 true = -2 ^ 15 ∧ signedOf 8 d.toNat = -1)) := by
  intro d x
  have hlt := toNat_and_mask_lt h divisor
  refine ⟨?_, hostFits h hlt r signed, divRight_iff h hlt i.ip r signed⟩
  rw [execDiv, hsize, Cmd.run_bind_of_run (Exec.run_lift_ok size), Cmd.run_bind_of_run hd]
  by_cases h0 : divisor &&& sizeMask size = 0
  · simp only [x, d, divideOrFail, if_pos h0]
    rfl
  · simp only [x, d, divideOrFail, if_neg h0]
    cases hx : divide r (divisor &&& sizeMask size) size signed with
    | ok r' =>
      exact Exec.run_update_ok (f := fun r => divide r (divisor &&& sizeMask size) size signed) hx w'
    | error e =>
      exact Exec.run_update_error (f := fun r => divide r (divisor &&& sizeMask size) size signed) hx
        w'

end Runs

/-- `idiv al`, of 254 by -2. -/
theorem execDiv_right_byte :
    HostFits 254 (-2) 8 true ∧
      DivRight (withRax 0xfe 2) 0xfe 1 true (divideOrFail 0x400 (withRax 0xfe 2) 0xfe 1 true) := by
  have hsize : (onAl 0).opSizeBytes 0 = .ok 1 := rfl
  have hd : ((onAl 0).readOp 0).run noMemory (withRax 0xfe 2) () =
      some ((.ok 0xfe, withRax 0xfe 2), ()) := rfl
  obtain ⟨-, hhost, hright⟩ := execDiv_right_iff true hsize (.inl rfl) hd
  exact ⟨hhost, hright.mpr fun _ _ _ => .inl (by decide +kernel)⟩

/-- **`idiv bl`** of 256 by 1 leaves a quotient of zero. -/
theorem not_execDiv_right : ¬∀ (ip : BitVec 64) (r : RegFile) (d : BitVec 64) (size : ℕ)
    (signed : Bool), IsWidth size → d.toNat < 2 ^ (8 * size) →
      DivRight r d size signed (divideOrFail ip r d size signed) := by
  intro hall
  obtain ⟨e, he⟩ := (hall 0 (withRax 0x100 2) 1 1 true (.inl rfl) (by decide)).fails 1 (by decide)
    (.inr (by decide))
  cases he

end Wie
