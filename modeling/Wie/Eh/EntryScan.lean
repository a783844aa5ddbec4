import Wie.Eh.Undo

/-!
# The first walk over an encoded prologue

Without a frame pointer `virtual_unwind` addresses saved registers from the stack pointer at
function entry, which its first walk computes. That walk does not skip the operands of saves. On a
prologue that saves a register it always ends above the stack pointer, which is the base the codes
mean.

## Main results

* `lt_entryRsp` — the first walk ends above the stack pointer
-/

namespace Wie

variable {rsp : ℕ}

theorem satAdd_le_of_le {a b n : ℕ} (h : a ≤ b) (ha : a < 2 ^ 64) : a ≤ satAdd b n := by
  unfold satAdd
  omega

theorem lt_satAdd {a n : ℕ} (h : 0 < n) (ha : a < 2 ^ 64 - 1) : a < satAdd a n := by
  unfold satAdd
  omega

/-- The walk only adds. -/
theorem le_entryRsp (k : ℕ) (ss : List Slot) (h : rsp < 2 ^ 64) : rsp ≤ entryRsp k ss rsp := by
  induction ss generalizing k rsp with
  | nil => cases k <;> exact le_rfl
  | cons s ss ih =>
    cases k with
    | succ k => exact ih k h
    | zero =>
      have hsat : rsp ≤ satAdd rsp (scanCode (.fromBytes s) ss).1 := satAdd_le_of_le le_rfl h
      exact hsat.trans (ih _ (satAdd_lt _ _))

theorem lt_entryRsp_satAdd {n : ℕ} (k : ℕ) (ss : List Slot) (hn : 0 < n) (h : rsp < 2 ^ 64 - 1) :
    rsp < entryRsp k ss (satAdd rsp n) :=
  (lt_satAdd hn h).trans_le (le_entryRsp k ss (satAdd_lt _ _))

theorem entryRsp_cons (s : Slot) (ss : List Slot) (rsp : ℕ) :
    entryRsp 0 (s :: ss) rsp = entryRsp (scanCode (.fromBytes s) ss).2 ss
      (satAdd rsp (scanCode (.fromBytes s) ss).1) := rfl

theorem entryRsp_quiet {s : Slot} {ss : List Slot} (h : scanCode (.fromBytes s) ss = (0, 0))
    (hr : rsp < 2 ^ 64) : entryRsp 0 (s :: ss) rsp = entryRsp 0 ss rsp := by
  rw [entryRsp, h]
  exact congrArg _ (satAdd_of_lt hr)

theorem lt_entryRsp_cons {s : Slot} {ss : List Slot} (h : 0 < (scanCode (.fromBytes s) ss).1)
    (hr : rsp < 2 ^ 64 - 1) : rsp < entryRsp 0 (s :: ss) rsp :=
  lt_entryRsp_satAdd _ ss h hr

/-- A code claims stack, or is an allocation with operands, or is passed over. -/
theorem scanCode_cases (c : UnwindCode) (rest : List Slot) :
    0 < (scanCode c rest).1 ∨
      scanCode c rest = (allocLargeSize c.opInfo rest, allocLargeSlots c.opInfo) ∨
      scanCode c rest = (0, 0) := by
  unfold scanCode
  split
  · exact .inl (Nat.succ_pos _)
  · exact .inr (.inl rfl)
  · exact .inl (by decide)
  · left
    unfold machFrameSize
    split <;> decide
  · exact .inr (.inr rfl)

/-! ### Operands taken for codes -/

/-- The next slot, if there is one, is not a number below 256. -/
def Loud (ss : List Slot) : Prop := ∀ s ∈ ss.head?, s.2 ≠ 0

theorem toNat_pos {b : UInt8} (h : b ≠ 0) : 0 < b.toNat :=
  Nat.pos_of_ne_zero fun hb => h (UInt8.toNat_inj.mp hb)

theorem operand16_pos {ss : List Slot} (hl : Loud ss) (hne : ss ≠ []) : 0 < operand16 ss := by
  obtain ⟨s, ss, rfl⟩ := List.exists_cons_of_ne_nil hne
  have := toNat_pos (hl s rfl)
  simp only [operand16, rawSlot, List.getElem?_cons_zero, fromLe_cons, fromLe_nil]
  omega

theorem operand32_pos {ss : List Slot} (hl : Loud ss) (hne : ss ≠ []) : 0 < operand32 ss := by
  obtain ⟨s, ss, rfl⟩ := List.exists_cons_of_ne_nil hne
  have := toNat_pos (hl s rfl)
  simp only [operand32, rawSlot, List.getElem?_cons_zero, List.cons_append, fromLe_cons]
  omega

theorem operand32_cons_pos {w : Slot} {ss : List Slot} (hl : Loud ss) (hne : ss ≠ []) :
    0 < operand32 (w :: ss) := by
  obtain ⟨s, ss, rfl⟩ := List.exists_cons_of_ne_nil hne
  have := toNat_pos (hl s rfl)
  simp only [operand32, rawSlot, List.getElem?_cons_zero, List.getElem?_cons_succ,
    List.cons_append, List.nil_append, fromLe_cons]
  omega

theorem allocLargeSize_pos {ss : List Slot} (info : Fin 16) (hl : Loud ss) (hne : ss ≠ []) :
    0 < allocLargeSize info ss := by
  unfold allocLargeSize
  split
  · have := operand16_pos hl hne
    omega
  · exact operand32_pos hl hne

theorem entryRsp_nil (k : ℕ) (rsp : ℕ) : entryRsp k [] rsp = rsp := by cases k <;> rfl

/-- One operand: the walk gets ahead, or passes it over. -/
theorem entryRsp_word (w : Slot) {ss : List Slot} (hl : Loud ss) (hr : rsp < 2 ^ 64 - 1) :
    rsp < entryRsp 0 (w :: ss) rsp ∨ entryRsp 0 (w :: ss) rsp = entryRsp 0 ss rsp := by
  rcases scanCode_cases (.fromBytes w) ss with h | h | h
  · exact .inl (lt_entryRsp_cons h hr)
  · by_cases hne : ss = []
    · subst hne
      have hsize : allocLargeSize (UnwindCode.fromBytes w).opInfo [] = 0 := by
        unfold allocLargeSize
        split <;> rfl
      right
      rw [entryRsp_cons, h, hsize, entryRsp_nil, entryRsp_nil]
      exact satAdd_of_lt (by omega)
    · refine .inl (lt_entryRsp_cons ?_ hr)
      rw [h]
      exact allocLargeSize_pos _ hl hne
  · exact .inr (entryRsp_quiet h (by omega))

/-- Two operands. -/
theorem entryRsp_word_word (w w' : Slot) {ss : List Slot} (hl : Loud ss) (hr : rsp < 2 ^ 64 - 1) :
    rsp < entryRsp 0 (w :: w' :: ss) rsp ∨ entryRsp 0 (w :: w' :: ss) rsp = entryRsp 0 ss rsp := by
  rcases scanCode_cases (.fromBytes w) (w' :: ss) with h | h | h
  · exact .inl (lt_entryRsp_cons h hr)
  · by_cases hpos : 0 < (scanCode (.fromBytes w) (w' :: ss)).1
    · exact .inl (lt_entryRsp_cons hpos hr)
    · right
      have hzero : allocLargeSize (UnwindCode.fromBytes w).opInfo (w' :: ss) = 0 := by
        rw [h] at hpos
        exact Nat.eq_zero_of_not_pos hpos
      have hsat : satAdd rsp 0 = rsp := satAdd_of_lt (by omega)
      rw [entryRsp_cons, h, hzero, hsat]
      by_cases hinfo : (UnwindCode.fromBytes w).opInfo = 0
      · simp only [allocLargeSlots, hinfo, if_true]
        rfl
      · rw [allocLargeSize, if_neg hinfo] at hzero
        have hnil : ss = [] := by
          by_contra hne
          exact absurd (operand32_cons_pos (w := w') hl hne) (by omega)
        subst hnil
        simp only [allocLargeSlots, hinfo, if_false]
        rfl
  · rw [entryRsp_quiet h (by omega)]
    exact entryRsp_word w' hl hr

/-! ### Prologues -/

open PrologOp

theorem codeSlot_snd {off : UInt8} {op info : ℕ} (h : 0 < op + 16 * info)
    (hlt : op + 16 * info < 256) : (codeSlot off op info).2 ≠ 0 := by
  intro h0
  have := congrArg UInt8.toNat h0
  simp only [codeSlot, UInt8.toNat_ofNat', UInt8.toNat_zero] at this
  omega

/-- The code of an operation is not zero: no operation that is zero pushes a register that has to
be kept. -/
theorem loud_slots {cs : Codes} (h : ∀ r ∈ cs.saved, r.Nonvolatile) : Loud cs.slots := by
  cases cs with
  | nil => exact fun s hs => by cases hs
  | cons c cs =>
    obtain ⟨off, op⟩ := c
    intro s hs
    cases op with
    | pushNonvol r =>
      obtain rfl := Option.some.inj hs
      have hr : r ∈ [3, 5, 6, 7, 12, 13, 14, 15] := h (.gpr r) (by simp [Codes.saved_cons, saved])
      have h0 : 0 < (r : ℕ) := by
        rcases Nat.eq_zero_or_pos (r : ℕ) with h0 | h0
        · obtain rfl : r = 0 := Fin.ext h0
          exact absurd hr (by decide)
        · exact h0
      exact codeSlot_snd (by omega) (by omega)
    | allocSmall n =>
      obtain rfl := Option.some.inj hs
      exact codeSlot_snd (by omega) (by omega)
    | allocLarge n =>
      obtain rfl := Option.some.inj hs
      exact codeSlot_snd (by omega) (by omega)
    | allocLargeFar n =>
      obtain rfl := Option.some.inj hs
      exact codeSlot_snd (by omega) (by omega)
    | setFpreg =>
      obtain rfl := Option.some.inj hs
      exact codeSlot_snd (by omega) (by omega)
    | saveNonvol r n =>
      obtain rfl := Option.some.inj hs
      exact codeSlot_snd (by omega) (by omega)
    | saveNonvolFar r n =>
      obtain rfl := Option.some.inj hs
      exact codeSlot_snd (by omega) (by omega)
    | saveXmm128 r n =>
      obtain rfl := Option.some.inj hs
      exact codeSlot_snd (by omega) (by omega)
    | saveXmm128Far r n =>
      obtain rfl := Option.some.inj hs
      exact codeSlot_snd (by omega) (by omega)

/-- The walk at a code that is not an operand. -/
theorem entryRsp_code (off : UInt8) {op info : ℕ} (ho : op < 16) (hi : info < 16)
    (ss : List Slot) :
    entryRsp 0 (codeSlot off op info :: ss) rsp =
      entryRsp (scanCode ⟨off.toNat, op, ⟨info, hi⟩⟩ ss).2 ss
        (satAdd rsp (scanCode ⟨off.toNat, op, ⟨info, hi⟩⟩ ss).1) := by
  rw [entryRsp_cons, fromBytes_codeSlot off ho hi]

/-- The walk at the code of a save. -/
theorem entryRsp_save (off : UInt8) {op info : ℕ} (ho : op ∈ [4, 5, 6, 7]) (hi : info < 16)
    (ss : List Slot) (hr : rsp < 2 ^ 64) :
    entryRsp 0 (codeSlot off op info :: ss) rsp = entryRsp 0 ss rsp := by
  have hlt : op < 16 := by
    simp only [List.mem_cons, List.not_mem_nil, or_false] at ho
    omega
  refine entryRsp_quiet ?_ hr
  rw [fromBytes_codeSlot off hlt hi]
  simp only [List.mem_cons, List.not_mem_nil, or_false] at ho
  rcases ho with rfl | rfl | rfl | rfl <;> rfl

variable {cs : Codes}

/-- The walk gets ahead of the stack pointer, unless the prologue does not lower it. -/
theorem entryRsp_slots (hnv : ∀ r ∈ cs.saved, r.Nonvolatile)
    (halloc : ∀ c ∈ cs, c.2 ≠ .allocLarge 0 ∧ c.2 ≠ .allocLargeFar 0) (hr : rsp < 2 ^ 64 - 1) :
    rsp < entryRsp 0 cs.slots rsp ∨ entryRsp 0 cs.slots rsp = rsp ∧ cs.total = 0 := by
  induction cs with
  | nil => exact .inr ⟨rfl, rfl⟩
  | cons c cs ih =>
    obtain ⟨off, op⟩ := c
    have hnv' : ∀ r ∈ Codes.saved cs, r.Nonvolatile := by
      intro r hr
      refine hnv r ?_
      rw [Codes.saved_cons]
      exact List.mem_append_right _ hr
    have hloud := loud_slots hnv'
    have ih := ih hnv' fun c hc => halloc c (.tail _ hc)
    have hslots : Codes.slots ((off, op) :: cs) = op.slots off ++ Codes.slots cs := rfl
    -- a save is passed over, or its operands are counted
    have hsave (hsize : op.size = 0) (h : rsp < entryRsp 0 (Codes.slots ((off, op) :: cs)) rsp ∨
        entryRsp 0 (Codes.slots ((off, op) :: cs)) rsp = entryRsp 0 (Codes.slots cs) rsp) :
        rsp < entryRsp 0 (Codes.slots ((off, op) :: cs)) rsp ∨
          entryRsp 0 (Codes.slots ((off, op) :: cs)) rsp = rsp ∧
            Codes.total ((off, op) :: cs) = 0 := by
      rcases h with h | h
      · exact .inl h
      · rw [h, Codes.total, hsize, Nat.zero_add]
        exact ih
    cases op with
    | pushNonvol r =>
      left
      rw [hslots, slots, List.cons_append, entryRsp_code off (by decide) r.isLt]
      exact lt_entryRsp_satAdd _ _ (Nat.succ_pos 7) hr
    | allocSmall n =>
      left
      rw [hslots, slots, List.cons_append, entryRsp_code off (by decide) n.isLt]
      exact lt_entryRsp_satAdd _ _ (Nat.succ_pos _) hr
    | allocLarge n =>
      left
      rw [hslots, slots, List.cons_append, entryRsp_code off (by decide) (by decide)]
      refine lt_entryRsp_satAdd _ _ ?_ hr
      have hn : n ≠ 0 := fun h0 => (halloc _ (.head _)).1 (by rw [h0])
      have hpos : 0 < n.toNat := Nat.pos_of_ne_zero fun h0 => hn (BitVec.eq_of_toNat_eq h0)
      change 0 < operand16 (wordSlot n.toNat :: Codes.slots cs) * 8
      rw [operand16_wordSlot]
      omega
    | allocLargeFar n =>
      left
      rw [hslots, slots, List.cons_append, entryRsp_code off (by decide) (by decide)]
      refine lt_entryRsp_satAdd _ _ ?_ hr
      have hn : n ≠ 0 := fun h0 => (halloc _ (.head _)).2 (by rw [h0])
      have hpos : 0 < n.toNat := Nat.pos_of_ne_zero fun h0 => hn (BitVec.eq_of_toNat_eq h0)
      change 0 < operand32 (dwordSlots n.toNat ++ Codes.slots cs)
      rwa [operand32_dwordSlots]
    | setFpreg =>
      refine hsave rfl (.inr ?_)
      rw [hslots, slots, List.cons_append]
      refine entryRsp_quiet ?_ (by omega)
      rw [fromBytes_codeSlot off (by decide) (by decide)]
      rfl
    | saveNonvol r n =>
      refine hsave rfl ?_
      rw [hslots, slots, List.cons_append, entryRsp_save off (by decide) r.isLt _ (by omega)]
      exact entryRsp_word _ hloud hr
    | saveNonvolFar r n =>
      refine hsave rfl ?_
      rw [hslots, slots, List.cons_append, entryRsp_save off (by decide) r.isLt _ (by omega)]
      exact entryRsp_word_word _ _ hloud hr
    | saveXmm128 r n =>
      refine hsave rfl ?_
      rw [hslots, slots, List.cons_append, entryRsp_save off (by decide) r.isLt _ (by omega)]
      exact entryRsp_word _ hloud hr
    | saveXmm128Far r n =>
      refine hsave rfl ?_
      rw [hslots, slots, List.cons_append, entryRsp_save off (by decide) r.isLt _ (by omega)]
      exact entryRsp_word_word _ _ hloud hr

/-- A small operand is taken for a push. -/
theorem lt_entryRsp_small {n : ℕ} (hn : n < 256) (ss : List Slot) (hr : rsp < 2 ^ 64 - 1) :
    rsp < entryRsp 0 (wordSlot n :: ss) rsp := by
  have hb : (wordSlot n).2 = 0 := by
    simp only [wordSlot, Nat.div_eq_of_lt hn]
    rfl
  refine lt_entryRsp_cons ?_ hr
  have hop : (UnwindCode.fromBytes (wordSlot n)).unwindOp = 0 := by
    rw [UnwindCode.fromBytes, hb]
    rfl
  unfold scanCode
  rw [hop]
  exact Nat.succ_pos 7

/-- **The first walk ends above the stack pointer** on a prologue that saves a register in its own
frame or in the home space. -/
theorem lt_entryRsp (hnv : ∀ r ∈ cs.saved, r.Nonvolatile)
    (halloc : ∀ c ∈ cs, c.2 ≠ .allocLarge 0 ∧ c.2 ≠ .allocLargeFar 0)
    (hfp : ¬ cs.SetsFp) (hsave : ∃ c ∈ cs, c.2.save ≠ none)
    (hinside : ∀ c ∈ cs, ∀ x, c.2.save = some x → x.2 + x.1.width ≤ cs.total + 40)
    (hr : rsp < 2 ^ 64 - 1) : rsp < entryRsp 0 cs.slots rsp := by
  rcases entryRsp_slots hnv halloc hr with h | ⟨-, htotal⟩
  · exact h
  -- nothing is pushed or allocated: the first code is a save, and its operand is small
  cases cs with
  | nil =>
    obtain ⟨c, hc, -⟩ := hsave
    exact absurd hc List.not_mem_nil
  | cons c cs =>
    obtain ⟨off, op⟩ := c
    rw [htotal] at hinside
    rw [Codes.total] at htotal
    have hx := hinside (off, op) (.head _)
    have hslots : Codes.slots ((off, op) :: cs) = op.slots off ++ Codes.slots cs := rfl
    have hlt : rsp < 2 ^ 64 := by omega
    cases op with
    | pushNonvol r => simp [size] at htotal
    | allocSmall n => simp [size] at htotal
    | allocLarge n =>
      have hn : n ≠ 0 := fun h0 => (halloc _ (.head _)).1 (by rw [h0])
      have h0 : n.toNat * 8 + Codes.total cs = 0 := htotal
      exact absurd (BitVec.eq_of_toNat_eq (by simp; omega)) hn
    | allocLargeFar n =>
      have hn : n ≠ 0 := fun h0 => (halloc _ (.head _)).2 (by rw [h0])
      have h0 : n.toNat + Codes.total cs = 0 := htotal
      exact absurd (BitVec.eq_of_toNat_eq (by simp; omega)) hn
    | setFpreg => exact absurd ⟨_, .head _, rfl⟩ hfp
    | saveNonvol r n =>
      have hx : n.toNat * 8 + 8 ≤ 0 + 40 := hx _ rfl
      rw [hslots, slots, List.cons_append, entryRsp_save off (by decide) r.isLt _ hlt]
      exact lt_entryRsp_small (by omega) _ hr
    | saveNonvolFar r n =>
      have hx : n.toNat + 8 ≤ 0 + 40 := hx _ rfl
      rw [hslots, slots, List.cons_append, entryRsp_save off (by decide) r.isLt _ hlt]
      exact lt_entryRsp_small (by omega) _ hr
    | saveXmm128 r n =>
      have hx : n.toNat * 16 + 16 ≤ 0 + 40 := hx _ rfl
      rw [hslots, slots, List.cons_append, entryRsp_save off (by decide) r.isLt _ hlt]
      exact lt_entryRsp_small (by omega) _ hr
    | saveXmm128Far r n =>
      have hx : n.toNat + 16 ≤ 0 + 40 := hx _ rfl
      rw [hslots, slots, List.cons_append, entryRsp_save off (by decide) r.isLt _ hlt]
      exact lt_entryRsp_small (by omega) _ hr

end Wie
