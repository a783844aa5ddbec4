import Wie.Cpu.Exec
import Wie.Cpu.FlatExec
import Wie.Lib.Lanes

/-!
# Moves and shuffles of XMM registers

What the moves and shuffles are to do, lane by lane, and what the interpreter computes. A scalar that
is loaded clears the rest of the register and one that comes from a register leaves it.

## Main definitions

* `SseOperand` — an XMM register, a general register or memory
* `SseInsn` — the instructions, with `SseInsn.after` for what they are to do
* `SseInsn.Right`, `SseInsn.Spared` — a right end, and when it is the end

## Main results

* `mergeSse_four`, `lowHalf_or`, `upper_or`, `shuffleDwords_eq` — what is computed, lane by lane
* `Insn.HasSseOperand.gives_readSseOp` — operands are read
* `Insn.gives_writeSseOp_xmm`, `Insn.gives_writeSseOp_memory` — operands are written
-/

namespace Wie

open Cmd GuestMemory Insn

/-! ### Operands -/

/-- What an operand is, when the instruction is executed. -/
inductive SseOperand
  /-- An XMM register. -/
  | xmm (k : Fin 16)
  /-- A general register. -/
  | gpr (reg : Register)
  /-- Memory at an address. -/
  | memory (a : BitVec 64)

/-- Legacy instructions name the first XMM registers. -/
theorem Register.sixteen_le : 16 ≤ 32 := by decide

/-- `write_xmm` of a register that there is. -/
def RegFile.putXmm (r : RegFile) (k : Fin 16) (v : BitVec 128) : RegFile :=
  { r with xmm := Function.update r.xmm k v }

namespace SseOperand

/-- Its value, of which memory has `n` bytes. -/
def value (n : ℕ) (r : RegFile) (f : Flat) : SseOperand → BitVec 128
  | xmm k => r.xmm k
  | gpr reg => (r.part reg).setWidth 128
  | memory a => .ofNat 128 (f.get a.toNat n)

/-- Registers and memory after it is another value. -/
def put (n : ℕ) (v : BitVec 128) (s : RegFile × Flat) : SseOperand → RegFile × Flat
  | xmm k => (s.1.putXmm k v, s.2)
  | gpr reg => (s.1.putPart (v.setWidth 64) reg, s.2)
  | memory a => (s.1, s.2.set a.toNat n v.toNat)

/-- It is memory. -/
def isMemory : SseOperand → Bool
  | memory _ => true
  | _ => false

/-- It can be read. -/
def Readable (n : ℕ) (f : Flat) : SseOperand → Prop
  | xmm _ | gpr _ => True
  | memory a => f.Rd a.toNat n

/-- It can be written. -/
def Writable (n : ℕ) (f : Flat) : SseOperand → Prop
  | xmm _ | gpr _ => True
  | memory a => f.Rw a.toNat n

end SseOperand

/-- **An operand of an instruction**, of which memory has `n` bytes. -/
def Insn.HasSseOperand (i : Insn) (op n : ℕ) (r : RegFile) : SseOperand → Prop
  | .xmm k => i.opKind op = .register ∧ i.opRegister op = .xmm (k.castLE Register.sixteen_le)
  | .gpr reg => i.opKind op = .register ∧ i.opRegister op = reg ∧ reg.IsGpr ∧ reg.size = n
  | .memory a =>
    i.opKind op = .memory ∧ i.opRegister op = .none ∧ i.memoryIndex ≠ .rip ∧
      i.effectiveAddress r = .ok a

/-! ### The instructions -/

/-- The instructions. -/
inductive SseInsn
  | movss | movsd | movd | movq
  /-- MOVAPS and the other moves of whole registers. -/
  | full
  | movhps | movhlps | movlhps | punpcklqdq | punpckhqdq
  /-- PSHUFD with its control byte. -/
  | pshufd (imm8 : BitVec 8)
  | pshufb
deriving DecidableEq

namespace SseInsn

/-- The mnemonics. -/
def mnemonics : SseInsn → List Mnemonic
  | movss => [.movss]
  | movsd => [.movsd]
  | movd => [.movd]
  | movq => [.movq]
  | full => [.movaps, .movups, .movdqa, .movdqu, .movapd, .movupd]
  | movhps => [.movhps]
  | movhlps => [.movhlps]
  | movlhps => [.movlhps]
  | punpcklqdq => [.punpcklqdq]
  | punpckhqdq => [.punpckhqdq]
  | pshufd _ => [.pshufd]
  | pshufb => [.pshufb]

/-- Bytes of a memory operand. -/
def size : SseInsn → ℕ
  | movss | movd => 4
  | movsd | movq | movhps => 8
  | _ => 16

/-- What is decoded. -/
structure Is (k : SseInsn) (i : Insn) : Prop where
  mnemonic : i.mnemonic ∈ k.mnemonics
  control : ∀ imm8, k = pshufd imm8 → i.opKind 2 = .immediate8 ∧ (i.immediate 2).setWidth 8 = imm8

/-- The forms that there are. -/
def Form (k : SseInsn) (dst src : SseOperand) : Prop :=
  match k, dst, src with
  | movss, .xmm _, .xmm _ | movss, .xmm _, .memory _ | movss, .memory _, .xmm _ => True
  | movsd, .xmm _, .xmm _ | movsd, .xmm _, .memory _ | movsd, .memory _, .xmm _ => True
  | movd, .xmm _, .gpr _ | movd, .gpr _, .xmm _ | movd, .xmm _, .memory _
  | movd, .memory _, .xmm _ => True
  | movq, .xmm _, .xmm _ | movq, .xmm _, .gpr _ | movq, .gpr _, .xmm _ | movq, .xmm _, .memory _
  | movq, .memory _, .xmm _ => True
  | full, .xmm _, .xmm _ | full, .xmm _, .memory _ | full, .memory _, .xmm _ => True
  | movhps, .xmm _, .memory _ | movhps, .memory _, .xmm _ => True
  | movhlps, .xmm _, .xmm _ | movlhps, .xmm _, .xmm _ => True
  | punpcklqdq, .xmm _, .xmm _ | punpcklqdq, .xmm _, .memory _ => True
  | punpckhqdq, .xmm _, .xmm _ | punpckhqdq, .xmm _, .memory _ => True
  | pshufd _, .xmm _, .xmm _ | pshufd _, .xmm _, .memory _ => True
  | pshufb, .xmm _, .xmm _ | pshufb, .xmm _, .memory _ => True
  | _, _, _ => False

/-- The lane that a control byte selects. -/
def selected (imm8 : BitVec 8) (k : ℕ) : ℕ := imm8.toNat / 4 ^ k % 4

/-- A byte of a register that is shuffled: zero, or the byte that the lowest bits select. -/
def shuffledByte (d s : BitVec 128) (k : ℕ) : BitVec 8 :=
  let control := lane 8 s k
  if control.msb then 0 else lane 8 d (control.toNat % 16)

/-- The value of an XMM register that held `d`, after `s` came from a register or from memory. -/
def result (k : SseInsn) (fromMemory : Bool) (d s : BitVec 128) : BitVec 128 :=
  match k with
  | movss => ofLanes 128 fun j =>
    if j = 0 then lane 32 s 0 else if fromMemory then 0 else lane 32 d j
  | movsd => ofLanes 128 fun j =>
    if j = 0 then lane 64 s 0 else if fromMemory then 0 else lane 64 d j
  | movd => ofLanes 128 fun j => if j = 0 then lane 32 s 0 else 0
  | movq => ofLanes 128 fun j => if j = 0 then lane 64 s 0 else 0
  | full => s
  | movhps | movlhps | punpcklqdq => ofLanes 128 fun j =>
    if j = 0 then lane 64 d 0 else lane 64 s 0
  | movhlps => ofLanes 128 fun j => if j = 0 then lane 64 s 1 else lane 64 d 1
  | punpckhqdq => ofLanes 128 fun j => if j = 0 then lane 64 d 1 else lane 64 s 1
  | pshufd imm8 => ofLanes 128 fun j => lane 32 s (selected imm8 j)
  | pshufb => ofLanes 128 (shuffledByte d s)

/-- What goes to memory or to a general register. -/
def stored (k : SseInsn) (s : BitVec 128) : BitVec 128 :=
  match k with
  | movhps => s >>> 64
  | _ => s

/-- **What is to be done.** -/
def after (k : SseInsn) (dst src : SseOperand) (r : RegFile) (f : Flat) : RegFile × Flat :=
  let s := src.value k.size r f
  match dst with
  | .xmm j => dst.put k.size (k.result src.isMemory (r.xmm j) s) (r, f)
  | _ => dst.put k.size (k.stored s) (r, f)

/-- **A right end**: of a run from `r` and `f` that says `x` and leaves `r'` and `f'`. -/
structure Right (k : SseInsn) (p : Platform) (i : Insn) (dst src : SseOperand) (r : RegFile)
    (f : Flat) (x : Except StepExecError Unit) (r' : RegFile) (f' : Flat) : Prop where
  /-- It succeeds. -/
  ok : x = .ok ()
  /-- What is to be done is done, and the next instruction is next. -/
  after : (r', f') = k.after dst src (r.setRip (.ofNat 64 i.nextIp)) f
  /-- A source in memory is read. -/
  reads : ∀ a, src = .memory a → (executeOne p i r).Loads a.toNat k.size

/-- **Where the interpreter is right.** -/
def Spared (k : SseInsn) (i : Insn) (dst src : SseOperand) (r : RegFile) (f : Flat) : Prop :=
  match k, dst, src with
  | movss, .xmm d, .memory _ => ∀ j < 3, lane 32 (r.xmm d) (j + 1) = 0
  | movsd, .xmm d, .memory _ | movq, .xmm d, _ => lane 64 (r.xmm d) 1 = 0
  | movq, .gpr _, _ => False
  | punpcklqdq, _, .memory _ | punpckhqdq, _, .memory _ => False
  | pshufd _, _, .memory _ | pshufb, _, .memory _ => False
  | pshufd imm8, _, _ =>
    let s := src.value 16 r f
    ∀ j < 4, lane 32 s (selected (i.memoryDisplacement64.setWidth 8) j) =
      lane 32 s (selected imm8 j)
  | pshufb, .xmm d, _ =>
    ∀ j < 16, lane 8 (r.xmm d) j = shuffledByte (r.xmm d) (src.value 16 r f) j
  | _, _, _ => True

end SseInsn

/-! ### Lanes of what the interpreter computes -/

section Lanes

variable {d s v : BitVec 128} {k n : ℕ}

theorem eq_dwords {g : ℕ → BitVec 32} (h : ∀ k < 4, lane 32 v k = g k) : v = ofLanes 128 g :=
  (eq_ofLanes_iff (n := 128) (w := 32) (c := 4) rfl).mpr h

theorem eq_qwords {g : ℕ → BitVec 64} (h : ∀ k < 2, lane 64 v k = g k) : v = ofLanes 128 g :=
  (eq_ofLanes_iff (n := 128) (w := 64) (c := 2) rfl).mpr h

theorem lane_lowBytes_four :
    ∀ k < 4, lane 32 (lowBytes 4) k = if k = 0 then .allOnes 32 else 0 := by
  decide

theorem lane_lowBytes_eight :
    ∀ k < 2, lane 64 (lowBytes 8) k = if k = 0 then .allOnes 64 else 0 := by
  decide

theorem lane_not_lowBytes_four :
    ∀ k < 4, lane 32 (~~~lowBytes 4) k = if k = 0 then 0 else .allOnes 32 := by
  decide

theorem lane_not_lowBytes_eight :
    ∀ k < 2, lane 64 (~~~lowBytes 8) k = if k = 0 then 0 else .allOnes 64 := by
  decide

/-- One of two words, by masks. -/
theorem or_masked {w : ℕ} (p : Prop) [Decidable p] (a b : BitVec w) :
    (a &&& if p then 0 else .allOnes w) ||| (b &&& if p then .allOnes w else 0) =
      if p then b else a := by
  have hzero (u : BitVec w) : u &&& 0 = 0 := BitVec.and_zero
  by_cases hp : p
  · simp only [if_pos hp, hzero, BitVec.and_allOnes]
    exact BitVec.zero_or
  · simp only [if_neg hp, hzero, BitVec.and_allOnes]
    exact BitVec.or_zero

theorem mergeSse_four : mergeSse d v 4 true =
    ofLanes 128 fun j => if j = 0 then lane 32 v 0 else lane 32 d j := by
  refine eq_dwords fun k hk => ?_
  have hmerge : mergeSse d v 4 true = d &&& ~~~(lowBytes 4) ||| v &&& lowBytes 4 := rfl
  rw [hmerge, lane_or, lane_and, lane_and, lane_lowBytes_four k hk, lane_not_lowBytes_four k hk,
    or_masked]
  by_cases hzero : k = 0 <;> simp [hzero]

theorem mergeSse_eight : mergeSse d v 8 true =
    ofLanes 128 fun j => if j = 0 then lane 64 v 0 else lane 64 d j := by
  refine eq_qwords fun k hk => ?_
  have hmerge : mergeSse d v 8 true = d &&& ~~~(lowBytes 8) ||| v &&& lowBytes 8 := rfl
  rw [hmerge, lane_or, lane_and, lane_and, lane_lowBytes_eight k hk, lane_not_lowBytes_eight k hk,
    or_masked]
  by_cases hzero : k = 0 <;> simp [hzero]

theorem and_lowBytes_sixteen (v : BitVec 128) : v &&& lowBytes 16 = v := BitVec.and_allOnes

theorem lane_lowHalf (v : BitVec 128) : ∀ k < 2,
    lane 64 (lowHalf v) k = if k = 0 then lane 64 v 0 else 0 := by
  intro k hk
  have hmask : lowHalf v = v &&& lowBytes 8 := rfl
  rw [hmask, lane_and, lane_lowBytes_eight k hk]
  by_cases hzero : k = 0
  · rw [if_pos hzero, if_pos hzero, BitVec.and_allOnes, hzero]
  · rw [if_neg hzero, if_neg hzero]
    exact BitVec.and_zero

/-- The lower half of one word below that of another. -/
theorem lowHalf_or (a b : BitVec 128) : lowHalf a ||| b <<< 64 =
    ofLanes 128 fun j => if j = 0 then lane 64 a 0 else lane 64 b 0 := by
  refine eq_qwords fun k hk => ?_
  have hshift : lane 64 (b <<< 64) k = if 1 ≤ k then lane 64 b (k - 1) else 0 :=
    lane_shiftLeft (by omega) b 1
  rw [lane_or, lane_lowHalf a k hk, hshift]
  obtain rfl | rfl : k = 0 ∨ k = 1 := by omega
  · simp
  · simp

/-- The upper half of a word, below the upper half of another. -/
theorem upper_or (a b : BitVec 128) : b &&& ~~~0xffffffffffffffff#128 ||| lowHalf (a >>> 64) =
    ofLanes 128 fun j => if j = 0 then lane 64 a 1 else lane 64 b 1 := by
  refine eq_qwords fun k hk => ?_
  have hmask : ~~~0xffffffffffffffff#128 = ~~~lowBytes 8 := rfl
  have hshift : lane 64 (a >>> 64) 0 = lane 64 a 1 := lane_ushiftRight a 1 0
  rw [hmask, lane_or, lane_and, lane_not_lowBytes_eight k hk, lane_lowHalf _ k hk, hshift]
  obtain rfl | rfl : k = 0 ∨ k = 1 := by omega
  · simp
  · rw [if_neg one_ne_zero, if_neg one_ne_zero, if_neg one_ne_zero, BitVec.and_allOnes]
    exact BitVec.or_zero

theorem lowHalf_or_lowHalf (a b : BitVec 128) : lowHalf a ||| lowHalf b <<< 64 =
    ofLanes 128 fun j => if j = 0 then lane 64 a 0 else lane 64 b 0 := by
  rw [lowHalf_or, lane_lowHalf b 0 (by decide), if_pos rfl]

/-- A word of 32 bits that is widened. -/
theorem widened_eq (u : BitVec 32) :
    u.setWidth 128 = ofLanes 128 fun j => if j = 0 then u else 0 := by
  refine eq_dwords fun k hk => ?_
  rw [lane_setWidth u (by decide) (by omega), BitVec.setWidth_eq]

theorem lane_setWidth_zero (u : BitVec 64) : lane 32 (u.setWidth 128) 0 = u.setWidth 32 := by
  apply BitVec.eq_of_getLsbD_eq
  intro i hi
  rw [getLsbD_lane hi, BitVec.getLsbD_setWidth, BitVec.getLsbD_setWidth,
    decide_eq_true (by omega : 32 * 0 + i < 128), decide_eq_true hi, Nat.mul_zero, Nat.zero_add]

/-- A dword that is moved to a lane. -/
theorem lane_moved (s : BitVec 128) (l j : ℕ) {k : ℕ} (hk : k < 4) :
    lane 32 ((s >>> (l * 32) &&& 0xffffffff) <<< (j * 32)) k =
      if k = j then lane 32 s l else 0 := by
  have hmask : ∀ k < 4, lane 32 (0xffffffff : BitVec 128) k =
      if k = 0 then .allOnes 32 else 0 := by decide
  rw [Nat.mul_comm j, Nat.mul_comm l, lane_shiftLeft (by omega)]
  by_cases hjk : j ≤ k
  · rw [if_pos hjk, lane_and, lane_ushiftRight, hmask _ (by omega)]
    by_cases heq : k = j
    · rw [if_pos heq, if_pos (by omega), BitVec.and_allOnes, heq, Nat.sub_self, Nat.add_zero]
    · rw [if_neg heq, if_neg (by omega)]
      exact BitVec.and_zero
  · rw [if_neg hjk, if_neg (by omega)]

/-- **What PSHUFD computes.** -/
theorem shuffleDwords_eq (s : BitVec 128) (imm8 : BitVec 8) :
    shuffleDwords s imm8 = ofLanes 128 fun j => lane 32 s (SseInsn.selected imm8 j) := by
  have hselected : ∀ j, (imm8 >>> (j * 2) &&& 3).toNat = SseInsn.selected imm8 j := by
    intro j
    rw [BitVec.toNat_and, BitVec.toNat_ushiftRight, Nat.shiftRight_eq_div_pow, Nat.mul_comm j,
      Nat.pow_mul]
    exact Nat.and_two_pow_sub_one_eq_mod _ 2
  refine eq_dwords fun k hk => ?_
  have hfold : shuffleDwords s imm8 = (0 : BitVec 128) |||
      (s >>> ((imm8 >>> (0 * 2) &&& 3).toNat * 32) &&& 0xffffffff) <<< (0 * 32) |||
      (s >>> ((imm8 >>> (1 * 2) &&& 3).toNat * 32) &&& 0xffffffff) <<< (1 * 32) |||
      (s >>> ((imm8 >>> (2 * 2) &&& 3).toNat * 32) &&& 0xffffffff) <<< (2 * 32) |||
      (s >>> ((imm8 >>> (3 * 2) &&& 3).toNat * 32) &&& 0xffffffff) <<< (3 * 32) := rfl
  rw [hfold]
  simp only [lane_or, lane_moved _ _ _ hk, hselected]
  obtain rfl | rfl | rfl | rfl : k = 0 ∨ k = 1 ∨ k = 2 ∨ k = 3 := by omega
  all_goals simp

end Lanes

/-! ### Operands of the interpreter -/

namespace RegFile

variable {r : RegFile} {reg : Register}

theorem readXmm_castLE (r : RegFile) (k : Fin 16) :
    r.readXmm (.xmm (k.castLE Register.sixteen_le)) = .ok (r.xmm k) := dif_pos k.isLt

theorem writeXmm_castLE (r : RegFile) (k : Fin 16) (v : BitVec 128) :
    r.writeXmm (.xmm (k.castLE Register.sixteen_le)) v = .ok (r.putXmm k v) := dif_pos k.isLt

theorem readReg_setRip (h : reg ≠ .rip) (v : BitVec 64) :
    (r.setRip v).readReg reg = r.readReg reg := by
  cases reg with
  | rip => exact absurd rfl h
  | _ => rfl

theorem putXmm_eq_iff {k : Fin 16} {v v' : BitVec 128} :
    r.putXmm k v = r.putXmm k v' ↔ v = v' := by
  constructor
  · intro h
    have := congrArg (fun r : RegFile => r.xmm k) h
    simpa [putXmm] using this
  · rintro rfl
    rfl

end RegFile

/-- The bytes of an operand that are read as `n` bytes. -/
def SseOperand.masked (n : ℕ) (r : RegFile) (f : Flat) : SseOperand → BitVec 128
  | xmm k => r.xmm k &&& lowBytes n
  | o => o.value n r f

namespace Insn

variable {i : Insn} {op n : ℕ} {r : RegFile} {f : Flat} {src : SseOperand} {env : HostEnv}
  {a : BitVec 64} {j : Fin 16} {v : BitVec 128} {b : Bool}

theorem effectiveAddress_setRip (h : i.memoryIndex ≠ .rip) (v : BitVec 64) :
    i.effectiveAddress (r.setRip v) = i.effectiveAddress r := by
  rw [effectiveAddress, effectiveAddress]
  by_cases hrip : i.memoryBase = .rip ∨ i.memoryBase = .eip
  · rw [if_pos hrip, if_pos hrip]
  · rw [if_neg hrip, if_neg hrip, RegFile.readReg_setRip fun hb => hrip (.inl hb),
      RegFile.readReg_setRip h]

theorem HasSseOperand.setRip (h : i.HasSseOperand op n r src) (v : BitVec 64) :
    i.HasSseOperand op n (r.setRip v) src := by
  cases src with
  | xmm k => exact h
  | gpr reg => exact h
  | memory a =>
    obtain ⟨hkind, hreg, hindex, ha⟩ := h
    exact ⟨hkind, hreg, hindex, (effectiveAddress_setRip hindex v).trans ha⟩

/-- **An operand is read.** -/
theorem HasSseOperand.gives_readSseOp (h : i.HasSseOperand op n r src) (hn : n ≤ 16)
    (hr : src.Readable n f) :
    (i.readSseOp op n).Gives env r f (.ok (src.masked n r f)) r f := by
  cases src with
  | xmm k =>
    obtain ⟨hkind, hreg⟩ := h
    rw [readSseOp, hkind, hreg]
    refine Exec.gives_regs.bind ?_
    rw [RegFile.readXmm_castLE]
    exact (Exec.gives_lift _).bind (Exec.gives_pure _)
  | gpr reg =>
    obtain ⟨hkind, rfl, hgpr, -⟩ := h
    have hxmm : (i.opRegister op).isXmm = false := by
      cases hreg : i.opRegister op with
      | xmm k =>
        rw [hreg] at hgpr
        exact hgpr.elim
      | _ => rfl
    rw [readSseOp, hkind]
    simp only [hxmm, Bool.false_eq_true, if_false]
    refine Exec.gives_regs.bind ?_
    rw [RegFile.readReg_part hgpr]
    exact (Exec.gives_lift _).bind (Exec.gives_pure _)
  | memory a =>
    obtain ⟨hkind, -, -, ha⟩ := h
    rw [readSseOp, hkind]
    refine (gives_address ha).bind ?_
    rw [if_neg (by omega)]
    exact (Exec.gives_load _ hr).bind (Exec.gives_pure _)

/-- **An XMM register is written.** -/
theorem gives_writeSseOp_xmm (h : i.HasSseOperand op n r (.xmm j)) (v : BitVec 128) (b : Bool) :
    (i.writeSseOp op v n b).Gives env r f (.ok ()) (r.putXmm j (mergeSse (r.xmm j) v n b)) f := by
  obtain ⟨hkind, hreg⟩ := h
  rw [writeSseOp, hkind, hreg]
  refine Exec.gives_update ?_
  rw [RegFile.readXmm_castLE]
  exact RegFile.writeXmm_castLE ..

/-- **Memory is written.** -/
theorem gives_writeSseOp_memory (h : i.HasSseOperand op n r (.memory a)) (hn : n ≤ 16)
    (hw : f.Rw a.toNat n) (v : BitVec 128) (b : Bool) :
    (i.writeSseOp op v n b).Gives env r f (.ok ()) r (f.set a.toNat n v.toNat) := by
  obtain ⟨hkind, -, -, ha⟩ := h
  have hlen : (toLe n v.toNat).length = n := length_toLe ..
  rw [writeSseOp, hkind]
  refine (gives_address ha).bind ?_
  rw [if_neg (by omega)]
  exact Exec.gives_store _ (hlen.symm ▸ hw)

end Insn

end Wie
