import Mathlib.Tactic.IntervalCases
import Wie.Cpu.Precise

/-!
# Restartable instructions

After a denied access the interpreter puts the instruction pointer back, so that the instruction
can be tried again. That is what it was before if the fault was precise.

Most instructions do what can be denied first. Those that set flags before they store a result are
not among them, nor are LEAVE and a POP to memory, which move RSP before.

## Main definitions

* `Restartable` — when the faults of an instruction are precise
* `stepInsn` — the instruction that a step executes

## Main results

* `preciseAt_executeMnemonic_iff` — that is when they are
* `guestStep_precise_iff` — for a step
-/

namespace Wie

open Cmd GuestMemory

section

variable {env : HostEnv} {m m' : GuestMemory} {p : Platform} {i : Insn} {r r' : RegFile}

/-! ### Instructions whose faults are precise -/

theorem precise_execMov (i : Insn) : Precise (guestFaulting env) (execMov i) :=
  (quiet_readOp i 1).bind_precise fun _ => precise_writeOp _ _ _

theorem precise_execMovzx (i : Insn) (sign : Bool) :
    Precise (guestFaulting env) (execMovzx i sign) :=
  (quiet_lift _).bind_precise fun _ => (quiet_lift _).bind_precise fun _ =>
    (quiet_readOp i 1).bind_precise fun _ => precise_writeOpSized _ _ _ _

theorem precise_execLea (i : Insn) : Precise (guestFaulting env) (execLea i) :=
  (quiet_address i).bind_precise fun _ => (noFault_update _).precise

theorem precise_execPush (i : Insn) : Precise (guestFaulting env) (execPush i) :=
  (quiet_readOp i 0).bind_precise fun _ => precise_pushN _ _

theorem precise_execCmov (i : Insn) (taken : Bool) :
    Precise (guestFaulting env) (execCmov i taken) := by
  cases taken with
  | true => exact (quiet_readOp i 1).bind_precise fun _ => precise_writeOp _ _ _
  | false => exact (noFault_pure _).precise

theorem precise_execTest (i : Insn) : Precise (guestFaulting env) (execTest i) :=
  (quiet_lift _).bind_precise fun _ => (quiet_readOp i 0).bind_precise fun _ =>
    (quiet_readOp i 1).bind_precise fun _ => (noFault_alter _).precise

theorem precise_execNot (i : Insn) : Precise (guestFaulting env) (execNot i) :=
  (quiet_lift _).bind_precise fun _ => (quiet_readOp i 0).bind_precise fun _ =>
    precise_writeOp _ _ _

/-- Here the flags are set after the result is stored. -/
theorem precise_execImul (i : Insn) : Precise (guestFaulting env) (execImul i) := by
  rw [execImul]
  split
  · exact (quiet_lift _).bind_precise fun _ => (quiet_readOp i 0).bind_precise fun _ =>
      (noFault_update _).precise
  · exact (quiet_lift _).bind_precise fun _ => (quiet_readOp i 0).bind_precise fun _ =>
      (quiet_readOp i 1).bind_precise fun _ =>
      (precise_writeOp _ _ _).bind_noFault fun _ => noFault_alter _
  · exact (quiet_lift _).bind_precise fun _ => (quiet_readOp i 1).bind_precise fun _ =>
      (quiet_readOp i 2).bind_precise fun _ =>
      (precise_writeOp _ _ _).bind_noFault fun _ => noFault_alter _
  · exact (quiet_fail _).precise

theorem precise_execMul (i : Insn) : Precise (guestFaulting env) (execMul i) :=
  (quiet_lift _).bind_precise fun _ => (quiet_readOp i 0).bind_precise fun _ =>
    (noFault_update _).precise

theorem precise_execDiv (i : Insn) (signed : Bool) :
    Precise (guestFaulting env) (execDiv i signed) := by
  refine (quiet_lift _).bind_precise fun size => (quiet_readOp i 0).bind_precise fun divisor => ?_
  dsimp only
  split
  · exact (quiet_fail _).precise
  · exact (noFault_update _).precise

theorem precise_execJmp (i : Insn) : Precise (guestFaulting env) (execJmp i) :=
  (quiet_branchTarget i).bind_precise fun _ => (noFault_alter _).precise

theorem precise_execJcc (i : Insn) (taken : Bool) :
    Precise (guestFaulting env) (execJcc i taken) := by
  cases taken with
  | true => exact (noFault_alter _).precise
  | false => exact (noFault_pure _).precise

theorem precise_execCall (i : Insn) (returnIp : BitVec 64) :
    Precise (guestFaulting env) (execCall i returnIp) :=
  (quiet_branchTarget i).bind_precise fun _ =>
    (precise_pushN _ _).bind_noFault fun _ => noFault_alter _

theorem precise_execRet (i : Insn) : Precise (guestFaulting env) (execRet i) := by
  refine (precise_popN 8).bind_noFault fun ret => ?_
  dsimp only
  split
  · exact (noFault_alter _).bind fun _ => noFault_alter _
  · exact noFault_alter _

theorem precise_execSseMov (i : Insn) (nbytes : ℕ) (scalarMerge : Bool) :
    Precise (guestFaulting env) (execSseMov i nbytes scalarMerge) :=
  (quiet_readSseOp i 1 nbytes).bind_precise fun _ => precise_writeSseOp _ _ _ _ _

theorem precise_execSseMovq (i : Insn) : Precise (guestFaulting env) (execSseMovq i) := by
  rw [execSseMovq]
  split
  · exact precise_execSseMov _ _ _
  · exact precise_execMov i

theorem precise_execSseMovd (i : Insn) : Precise (guestFaulting env) (execSseMovd i) := by
  rw [execSseMovd]
  split
  · dsimp only
    split
    · exact (quiet_address i).bind_precise fun _ => (quiet_readMemValue _ _).bind_precise fun _ =>
        (noFault_update _).precise
    · exact quiet_regs.bind_precise fun _ => (quiet_lift _).bind_precise fun _ =>
        (quiet_pure _).bind_precise fun _ => (noFault_update _).precise
  · split
    · refine quiet_regs.bind_precise fun _ => (quiet_lift _).bind_precise fun _ => ?_
      dsimp only
      split
      · exact (quiet_address i).bind_precise fun _ => precise_writeMemValue _ _ _
      · exact (noFault_update _).precise
    · exact (quiet_fail _).precise

theorem precise_execSseMovhps (i : Insn) : Precise (guestFaulting env) (execSseMovhps i) := by
  rw [execSseMovhps]
  split
  · exact (quiet_readSseOp i 1 8).bind_precise fun _ => (noFault_update _).precise
  · exact quiet_regs.bind_precise fun _ => (quiet_lift _).bind_precise fun _ =>
      precise_writeSseOp _ _ _ _ _

/-- What is computed from two operands of 128 bits is stored last. -/
theorem precise_sse (i : Insn) (nbytes : ℕ) (f : BitVec 128 → BitVec 128 → BitVec 128)
    (scalarMerge : Bool) : Precise (guestFaulting env) (do
      let a ← i.readSseOp 0 nbytes
      let b ← i.readSseOp 1 nbytes
      i.writeSseOp 0 (f a b) nbytes scalarMerge) :=
  (quiet_readSseOp i 0 nbytes).bind_precise fun _ =>
    (quiet_readSseOp i 1 nbytes).bind_precise fun _ => precise_writeSseOp _ _ _ _ _

theorem precise_execSseBitwise (i : Insn) (op : SseBitOp) :
    Precise (guestFaulting env) (execSseBitwise i op) := precise_sse i 16 op.apply false

theorem precise_execSseScalarFp (fp : FpUnit) (i : Insn) (op : FpOp) (isF64 : Bool) :
    Precise (guestFaulting env) (fp.execSseScalarFp i op isF64) :=
  precise_sse i _ (fun a b => fp.lane op isF64 a b 0) true

theorem precise_execSsePackedFp (fp : FpUnit) (i : Insn) (op : FpOp) (isF64 : Bool) :
    Precise (guestFaulting env) (fp.execSsePackedFp i op isF64) :=
  precise_sse i 16 (fp.packed op isF64) false

theorem precise_pushfq : Precise (guestFaulting env) (do
    let r ← regs
    pushN r.rflags 8) :=
  quiet_regs.bind_precise fun _ => precise_pushN _ _

theorem precise_popfq (f : BitVec 64 → RegFile → RegFile) : Precise (guestFaulting env) (do
    let v ← popN 8
    alter (f v)) :=
  (precise_popN 8).bind_noFault fun _ => noFault_alter _

/-! ### When instructions can be restarted -/

/-- **When the faults of an instruction are precise.** The registers are those it works on, with
the instruction pointer moved on. -/
def Restartable (i : Insn) (env : HostEnv) (m : GuestMemory) (r : RegFile) : Prop :=
  match i.mnemonic with
  | .add => i.ArithStays env m r .add
  | .adc => i.ArithStays env m r .adc
  | .sub => i.ArithStays env m r .sub
  | .sbb => i.ArithStays env m r .sbb
  | .xor => i.ArithStays env m r .xor
  | .or => i.ArithStays env m r .or
  | .and => i.ArithStays env m r .and
  | .inc => i.UnaryStays env m r (incDecFlags true r.rflags)
  | .dec => i.UnaryStays env m r (incDecFlags false r.rflags)
  | .neg => i.UnaryStays env m r (negFlags r.rflags)
  | .shl | .sal => i.BinaryStays env m r (shiftStays .shl r.rflags)
  | .shr => i.BinaryStays env m r (shiftStays .shr r.rflags)
  | .sar => i.BinaryStays env m r (shiftStays .sar r.rflags)
  | .rol => i.BinaryStays env m r (shiftStays .rol r.rflags)
  | .ror => i.BinaryStays env m r (shiftStays .ror r.rflags)
  | .cmpxchg => i.BinaryStays env m r fun d _ size => cmpxchgStays r d size
  | .bts | .btr | .btc => i.BitStays env m r
  | .pop => i.PopStays m r
  | .leave => LeaveStays m r
  | .xchg => i.XchgStays env m r
  | .xadd => i.XaddStays env m r
  | _ => True

theorem noFault_ins : NoFault (guestFaulting env)
    (if i.hasRepPrefix then alter (·.setGpr 1 0) else pure () : Exec Unit) := by
  split
  · exact noFault_alter _
  · exact noFault_pure _

/-- The instructions with numbers in place of names. -/
theorem precise_other (p : Platform) {n : ℕ} (hn : i.mnemonic = .other n) :
    Precise (guestFaulting env) (executeMnemonic p i) := by
  rw [executeMnemonic, hn]
  rcases Nat.lt_or_ge n 28 with hlt | hge
  · interval_cases n
    -- MOVHPS, then the shuffles of registers
    · exact precise_execSseMovhps i
    iterate 5 exact (noFault_update _).precise
    -- PSHUFB, and then products, quotients and extensions
    · exact (noFault_pure _).precise
    · exact precise_execMul i
    iterate 2 exact precise_execDiv i _
    iterate 2 exact (noFault_update _).precise
    -- flags, CPUID, RDTSC and IN
    iterate 6 exact (noFault_alter _).precise
    -- the string forms of IN, then OUT, its string forms, and what only concerns the x87
    iterate 3 exact noFault_ins.precise
    iterate 7 exact (noFault_pure _).precise
  · obtain ⟨k, rfl⟩ := Nat.exists_eq_add_of_le' hge
    exact (quiet_fail _).precise

/-- **When the faults of an instruction that is not a string instruction are precise.** -/
theorem preciseAt_executeMnemonic_iff (h : Inv env m) (p : Platform)
    (hs : Mnemonic.isString i = false) :
    PreciseAt (guestFaulting env) (executeMnemonic p i) r m ↔ Restartable i env m r := by
  have hall {x : Exec Unit} (hx : Precise (guestFaulting env) x) :
      PreciseAt (guestFaulting env) x r m ↔ True := iff_of_true (hx r m h) trivial
  by_cases hother : ∃ n, i.mnemonic = .other n
  · obtain ⟨n, hn⟩ := hother
    refine iff_of_true (precise_other p hn r m h) ?_
    rw [Restartable, hn]
    trivial
  rw [executeMnemonic, Restartable]
  rw [Mnemonic.isString] at hs
  cases hm : i.mnemonic with
  | add | adc | sub | sbb | xor | or | and => exact preciseAt_execArith_iff h (by decide)
  | inc | dec => exact preciseAt_execIncDec_iff h _
  | neg => exact preciseAt_execNeg_iff h
  | shl | sal | shr | sar | rol | ror => exact preciseAt_execShift_iff h _
  | cmpxchg => exact preciseAt_execCmpxchg_iff h
  | bts | btr | btc => exact preciseAt_execBit_iff h (by decide)
  | pop => exact preciseAt_execPop_iff h
  | leave => exact preciseAt_leave_iff h
  | xchg => exact preciseAt_execXchg_iff h
  | xadd => exact preciseAt_execXadd_iff h
  | mov => exact hall (precise_execMov i)
  | movzx | movsx | movsxd => exact hall (precise_execMovzx i _)
  | lea => exact hall (precise_execLea i)
  | push => exact hall (precise_execPush i)
  | cmp => exact hall (precise_execArith_cmp i)
  | test => exact hall (precise_execTest i)
  | not => exact hall (precise_execNot i)
  | imul => exact hall (precise_execImul i)
  | jmp => exact hall (precise_execJmp i)
  | call => exact hall (precise_execCall i _)
  | ret => exact hall (precise_execRet i)
  | jcc cc => exact hall (quiet_regs.bind_precise fun r => precise_execJcc i _)
  | cmovcc cc => exact hall (quiet_regs.bind_precise fun r => precise_execCmov i _)
  | setcc cc => exact hall (quiet_regs.bind_precise fun r => precise_writeOp i 0 _)
  | bt => exact hall (precise_execBit_bt i)
  | pushfq => exact hall precise_pushfq
  | popfq => exact hall (precise_popfq _)
  | nop | endbr64 | endbr32 => exact hall (noFault_pure _).precise
  | bswap | cdqe | cwde | cbw | cwd => exact hall (noFault_update _).precise
  | cld | std => exact hall (noFault_alter _).precise
  | movss | movaps | movups | movdqa | movdqu | movapd | movupd =>
    exact hall (precise_execSseMov i _ _)
  | movsd =>
    rw [hm] at hs
    simp only [Bool.not_eq_false'] at hs
    simp only [hs, if_true]
    exact hall (precise_execSseMov i _ _)
  | movq => exact hall (precise_execSseMovq i)
  | movd => exact hall (precise_execSseMovd i)
  | xorps | xorpd | pxor | andps | andpd | pand | orps | orpd | por | andnps | andnpd | pandn =>
    exact hall (precise_execSseBitwise i _)
  | addss | subss | mulss | divss | addsd | subsd | mulsd | divsd =>
    exact hall (precise_execSseScalarFp p.fp i _ _)
  | addps | subps | mulps | divps | addpd | subpd | mulpd | divpd =>
    exact hall (precise_execSsePackedFp p.fp i _ _)
  | retf | pushf | popf | enter | bsr | rcl | rcr => exact hall (quiet_fail _).precise
  | stosb | stosw | stosd | stosq | movsb | movsw | movsq | lodsb | lodsd | lodsq
  | scasb | scasw | scasd | scasq | cmpsb | cmpsw | cmpsd | cmpsq =>
    rw [hm] at hs
    cases hs
  | other n => exact absurd ⟨n, hm⟩ hother

theorem Insn.operand_congr (h : Inv env m) (hs : Same m m') {op : ℕ} {v : BitVec 64} :
    i.Operand env m' r op v ↔ i.Operand env m r op v :=
  ⟨(quiet_readOp i op).congr (hs.inv h) (hs.symm h.pages), (quiet_readOp i op).congr h hs⟩

theorem restartable_congr (h : Inv env m) (hs : Same m m') :
    Restartable i env m' r ↔ Restartable i env m r := by
  simp only [Restartable, Insn.ArithStays, Insn.UnaryStays, Insn.BinaryStays, Insn.FlagsStay,
    Insn.BitStays, Insn.PopStays, LeaveStays, Insn.XchgStays, Insn.XaddStays, Insn.SecondStays,
    Insn.operand_congr h hs, Insn.writeDenied_congr hs, hs.granted, hs.flat]

/-! ### One step -/

/-- The instruction that a step executes, if it comes to that. -/
def stepInsn (env : HostEnv) (p : Platform) (r : RegFile) (m : GuestMemory) : Option Insn :=
  match m.fetchInto env r.rip.toNat 15 with
  | (.ok bytes, _) => if p.hostStops r.rip then none else p.decode bytes r.rip
  | _ => none

/-- When the step reports a denied access, registers and guest memory are as they were. -/
def PreciseStep (env : HostEnv) (p : Platform) (r : RegFile) (m : GuestMemory) : Prop :=
  ∀ inv r' m', guestStep env p r m = some ((.ok (.invalidMemory inv), r'), m') →
    r' = r ∧ Same m m'

theorem same_fetchLoop (address len : ℕ) {m : GuestMemory} (h : Inv env m) :
    Same m (m.fetchLoop env address len).2 := by
  induction len generalizing m with
  | zero => exact .refl h.pages
  | succ len ih =>
    have hsame := h.same_checkAccess address (len + 1) .execute
    rw [fetchLoop]
    cases hc : m.pages.checkAccess address (len + 1) .execute with
    | mk v pages =>
      rw [hc] at hsame
      cases v with
      | ok u => exact hsame
      | error e => exact hsame.trans (ih (hsame.inv h))

theorem same_fetchInto (address want : ℕ) (h : Inv env m) :
    Same m (m.fetchInto env address want).2 := by
  rw [fetchInto]
  split
  · exact .refl h.pages
  · exact same_fetchLoop _ _ h

/-- What a step does once the instruction is known. -/
theorem executeStep_invalidMemory_iff {inv : InvalidMem} {m₁ : GuestMemory} :
    executeStep env p i r m = some ((.ok (.invalidMemory inv), r'), m₁) ↔
      ∃ r₁, (executeOne p i).run (device env) r m = some ((.error (.invalidMemory inv), r₁), m₁) ∧
        r' = r₁.setRip r.rip := by
  rw [executeStep]
  split
  · rename_i hx
    rw [hx]
    constructor
    · rintro ⟨⟩
    · rintro ⟨r₁, ⟨⟩, -⟩
  · rename_i hx
    rw [hx]
    constructor
    · rintro ⟨⟩
    · rintro ⟨r₁, ⟨⟩, -⟩
  · rename_i hx
    rw [hx]
    constructor
    · rintro ⟨⟩
      exact ⟨_, rfl, rfl⟩
    · rintro ⟨r₁, ⟨⟩, rfl⟩
      rfl
  · rename_i hx
    rw [hx]
    constructor
    · rintro ⟨⟩
    · rintro ⟨r₁, ⟨⟩, -⟩

/-- An instruction executed in a step. -/
theorem executeStep_precise_iff (h : Inv env m) (hs : Mnemonic.isString i = false) :
    (∀ inv r' m', executeStep env p i r m = some ((.ok (.invalidMemory inv), r'), m') →
      r' = r ∧ Same m m') ↔ Restartable i env m (r.setRip (.ofNat 64 i.nextIp)) := by
  rw [← preciseAt_executeMnemonic_iff h p hs]
  simp only [executeStep_invalidMemory_iff]
  constructor
  · rintro hall r₁ m₁ ⟨_, ⟨inv, rfl⟩, hx⟩
    obtain ⟨hr, hs⟩ := hall inv _ m₁ ⟨r₁, hx, rfl⟩
    refine ⟨?_, hs⟩
    show r₁.setRip _ = _
    rw [← hr]
    rfl
  · rintro hp inv r' m' ⟨r₁, hx, rfl⟩
    obtain ⟨hr, hs⟩ := hp r₁ m' ⟨_, ⟨inv, rfl⟩, hx⟩
    refine ⟨?_, hs⟩
    have := congrArg (RegFile.setRip · r.rip) hr
    exact this

/-- A step that executes an instruction. -/
theorem guestStep_of_insn (hi : stepInsn env p r m = some i) :
    guestStep env p r m = executeStep env p i r (m.fetchInto env r.rip.toNat 15).2 := by
  rw [stepInsn] at hi
  rw [guestStep]
  split at hi
  · rename_i bytes m₁ hf
    split at hi
    · cases hi
    · rename_i hstop
      simp only [hf, hi, if_neg hstop]
  · cases hi

/-- A step that executes none leaves everything as it was. -/
theorem guestStep_of_none {v : Except CpuError CpuStepResult} (hn : stepInsn env p r m = none)
    (h : guestStep env p r m = some ((v, r'), m')) :
    r' = r ∧ m' = (m.fetchInto env r.rip.toNat 15).2 := by
  rw [stepInsn] at hn
  rw [guestStep] at h
  split at h
  · cases h
  · rename_i e m₁ hf
    split at h
    · cases h
      exact ⟨rfl, (congrArg Prod.snd hf).symm⟩
    · cases h
      exact ⟨rfl, (congrArg Prod.snd hf).symm⟩
  · rename_i bytes m₁ hf
    simp only [hf] at hn
    dsimp only at h
    split at h
    · cases h
      exact ⟨rfl, (congrArg Prod.snd hf).symm⟩
    · rename_i hstop
      rw [if_neg hstop] at hn
      rw [hn] at h
      cases h
      exact ⟨rfl, (congrArg Prod.snd hf).symm⟩

/-- **When a step is precise**: for all registers and all guest memory that calls can lead to. Where
no instruction is executed, nothing is asked. -/
theorem guestStep_precise_iff (h : Reachable env AnyCall m) (p : Platform) (r : RegFile)
    (hs : ∀ i, stepInsn env p r m = some i → Mnemonic.isString i = false) :
    PreciseStep env p r m ↔ ∀ i, stepInsn env p r m = some i →
      Restartable i env m (r.setRip (.ofNat 64 i.nextIp)) := by
  have hinv : Inv env m := Reachable.inv h
  have hsame := same_fetchInto r.rip.toNat 15 hinv
  cases hi : stepInsn env p r m with
  | none =>
    refine iff_of_true (fun inv r' m' hstep => ?_) fun i hi => ?_
    · obtain ⟨rfl, rfl⟩ := guestStep_of_none hi hstep
      exact ⟨rfl, hsame⟩
    · cases hi
  | some i =>
    have hiff := executeStep_precise_iff (p := p) (r := r) (hsame.inv hinv) (hs i hi)
    rw [restartable_congr hinv hsame] at hiff
    rw [PreciseStep, guestStep_of_insn hi]
    constructor
    · intro hall j hj
      obtain rfl := Option.some.inj hj
      refine hiff.mp fun inv r' m' hx => ?_
      obtain ⟨hr, hs'⟩ := hall inv r' m' hx
      exact ⟨hr, (hsame.symm hinv.pages).trans hs'⟩
    · intro hre inv r' m' hx
      obtain ⟨hr, hs'⟩ := hiff.mpr (hre i rfl) inv r' m' hx
      exact ⟨hr, hsame.trans hs'⟩

end

/-! ### A store to a page that must not be written -/

/-- An instruction on the byte at RAX and AL. -/
def onByte (mnemonic : Mnemonic) (ip : BitVec 64) : Insn where
  mnemonic
  ops := [.memory, .register]
  opRegister := fun _ => .gpr8 0
  memoryBase := .gpr64 0
  memoryIndex := .none
  memoryIndexScale := 1
  memoryDisplacement64 := 0
  memorySize := .uInt8
  nearBranchTarget := 0
  movsdXmmCode := false
  len := 2
  nextIp := (ip + 2).toNat
  ip
  immediate := fun _ => 0
  hasLockPrefix := false
  hasRepPrefix := false
  hasRepePrefix := false
  hasRepnePrefix := false

/-- A platform that knows `add [rax], al` and `mov [rax], al`. -/
def byteStores : Platform where
  decode bytes ip :=
    if bytes.take 2 = [0x00, 0x00] then some (onByte .add ip)
    else if bytes.take 2 = [0x88, 0x00] then some (onByte .mov ip)
    else none
  fp := ⟨fun _ a _ => a, fun _ a _ => a⟩
  now := 0
  bulk := true
  hostStops := fun _ => false

/-- A page of code that begins with these bytes. -/
def codePage (bytes : List UInt8) : GuestMemory :=
  runAll .fourK (new .roomy)
    [.virtualAlloc 0x20000 0x1000 (memReserve + memCommit) Protect.pageReadwrite,
      .write 0x20000 bytes, .virtualProtect 0x20000 0x1000 Protect.pageExecuteRead]

/-- At its start, with RAX inside of it. -/
def atCodePage : RegFile := ⟨Function.update (fun _ => 0) 0 0x20800, fun _ => 0, 0x20000, 2⟩

/-- **A denied MOV** leaves everything as it was. -/
theorem guestStep_precise_mov : ∃ inv, PreciseStep .fourK byteStores atCodePage
      (codePage [0x88, 0x00]) ∧
    (guestStep .fourK byteStores atCodePage (codePage [0x88, 0x00])).map (fun v => v.1.1) =
      some (.ok (.invalidMemory inv)) := by
  have h : Reachable .fourK AnyCall (codePage [0x88, 0x00]) :=
    (reachable_new _).runAll _ (allMeet_anyCall _ _) (by decide +kernel)
  have hi : (stepInsn .fourK byteStores atCodePage (codePage [0x88, 0x00])).map
      (fun i => i.mnemonic) = some .mov := by decide +kernel
  have hmov (i : Insn) (h : stepInsn .fourK byteStores atCodePage (codePage [0x88, 0x00]) =
      some i) : i.mnemonic = .mov := by
    rw [h] at hi
    exact Option.some.inj hi
  refine ⟨⟨ACCESS_WRITE, 0x20800, 1, 0⟩, (guestStep_precise_iff h byteStores atCodePage
    fun i hi => ?_).mpr fun i hi => ?_, by decide +kernel⟩
  · rw [Mnemonic.isString, hmov i hi]
  · rw [Restartable, hmov i hi]
    trivial

/-- **A denied ADD** has set its flags. -/
theorem not_precise_add : ¬∀ (env : HostEnv) (m : GuestMemory) (p : Platform) (r : RegFile),
    Reachable env AnyCall m → (∀ i, stepInsn env p r m = some i → Mnemonic.isString i = false) →
      PreciseStep env p r m := by
  intro hall
  have h : Reachable .fourK AnyCall (codePage [0x00, 0x00]) :=
    (reachable_new _).runAll _ (allMeet_anyCall _ _) (by decide +kernel)
  have hi : (stepInsn .fourK byteStores atCodePage (codePage [0x00, 0x00])).map
      Mnemonic.isString = some false := by decide +kernel
  have hadd := hall _ _ byteStores atCodePage h fun i h => by
    rw [h] at hi
    exact Option.some.inj hi
  have hstep : (guestStep .fourK byteStores atCodePage (codePage [0x00, 0x00])).map
      (fun v => (v.1.1, v.1.2.rflags)) =
        some (.ok (.invalidMemory ⟨ACCESS_WRITE, 0x20800, 1, 0⟩), 0x46) := by decide +kernel
  obtain ⟨⟨⟨v, r⟩, m⟩, hstep, heq⟩ := Option.map_eq_some_iff.mp hstep
  obtain ⟨rfl, hr⟩ := Prod.mk.inj heq
  have := congrArg RegFile.rflags (hadd _ r m hstep).1
  rw [hr] at this
  revert this
  decide

end Wie
