import Wie.Cpu.Precise
import Wie.Jit.Decode
import Wie.Jit.Stub

/-!
# Micro-stubs and the instructions they stand for

A block of at most three instructions that looks like one of the known stubs is not compiled but
runs a trampoline. The trampoline does what the stub is known to do, and that is not in every case
what the instructions do.

Here the instructions of a block are interpreted one after the other, the trampoline runs on the
same registers and memory, and for each stub it is said when both leave the same.

## Main definitions

* `matchMicroStub` — the blocks that have a trampoline
* `runInsns` — the instructions of a block, interpreted in order
* `MicroStub.enter`, `Core.Shows` — a trampoline before and after
* `MicroStub.Agrees` — the blocks, registers and memories where nothing is lost

## Main results

* `MicroStub.exec_shows_iff` — these are all of them
* `not_exec_shows` — a trampoline that loses the flags
-/

namespace Wie

open Cmd GuestMemory Rflags

/-! ### Matching -/

/-- `is_plain_ret`. -/
def isPlainRet (i : Insn) : Bool := i.mnemonic = .ret ∧ i.opCount = 0

/-- `immediate32`, for the immediate numbers that a MOV to EAX or RAX can have. -/
def Insn.immediate32 (i : Insn) : BitVec 32 := (i.immediate 1).setWidth 32

/-- EAX and RAX. -/
def raxForms : List Register := [.gpr32 0, .gpr64 0]

/-- `classify_two_insn`. -/
def classifyTwoInsn (i : Insn) : Option MicroStub :=
  if i.mnemonic = .xor ∧ i.op0Kind = .register ∧ i.op1Kind = .register ∧
      i.opRegister 0 = i.opRegister 1 ∧ i.opRegister 0 ∈ raxForms then some .returnZero
  else if i.mnemonic = .mov ∧ i.op0Kind = .register ∧ i.op1Kind = .register ∧
      i.opRegister 0 = .gpr64 0 ∧ i.opRegister 1 = .gpr64 1 then some .identityRcx
  else if i.mnemonic = .mov ∧ i.op0Kind = .register ∧
      i.op1Kind ∈ [.immediate8, .immediate16, .immediate32, .immediate8to32, .immediate8to64,
        .immediate32to64] ∧ i.opRegister 0 ∈ raxForms then some (.returnImm32 i.immediate32)
  else none

/-- A memory operand that is just at RAX. -/
def Insn.atRax (i : Insn) : Bool :=
  i.memoryBase = .gpr64 0 ∧ i.memoryIndex = .none ∧ i.memoryDisplacement64 = 0

/-- `classify_three_insn`. -/
def classifyThreeInsn (a b : Insn) : Option MicroStub :=
  if ¬(a.mnemonic = .mov ∧ a.op0Kind = .register ∧ a.opRegister 0 = .gpr64 0 ∧
      a.op1Kind ∈ [.immediate64, .immediate32, .immediate32to64]) then none
  else if a.immediate 1 ≠ TEB_LAST_ERROR_VA then none
  else if b.mnemonic = .mov ∧ b.op0Kind = .register ∧ b.opRegister 0 ∈ raxForms ∧
      b.op1Kind = .memory ∧ b.atRax then some .getLastError
  else if b.mnemonic = .mov ∧ b.op0Kind = .memory ∧ b.op1Kind = .register ∧
      b.opRegister 1 ∈ [.gpr32 1, .gpr64 1] ∧ b.atRax then some .setLastError
  else none

/-- `match_micro_stub`. -/
def matchMicroStub (insns : List Insn) (term : Option BlockTerm) : Option MicroStub :=
  if term ≠ some .ret then none
  else
    match insns with
    | [r] => if isPlainRet r then some .ret else none
    | [a, r] => if isPlainRet r then classifyTwoInsn a else none
    | [a, b, r] => if isPlainRet r then classifyThreeInsn a b else none
    | _ => none

/-! ### Both ways to run a block -/

/-- The instructions one after the other, as long as none of them fails. -/
def runInsns (env : HostEnv) (p : Platform) : List Insn → RegFile → GuestMemory →
    Option (RegFile × GuestMemory)
  | [], r, m => some (r, m)
  | i :: insns, r, m =>
    match executeStep env p i r m with
    | some ((.ok .continue, r'), m') => runInsns env p insns r' m'
    | _ => none

/-- What the helpers do to guest memory; nothing is left of it when the process has ended. -/
def guestPort (env : HostEnv) : MemPort (Option GuestMemory) where
  load w a n :=
    match w.bind fun m => (device env).read m a.toNat n with
    | some (bytes, m) => (some m, bytes.map fun bs => .ofNat 64 (fromLe bs))
    | none => (none, none)
  store w a n v :=
    match w.bind fun m => (device env).write m a.toNat (toLe n v.toNat) with
    | some (ok, m) => (some m, ok)
    | none => (none, false)

/-- The context at the entry of a block. -/
def MicroStub.enter (r : RegFile) (m : GuestMemory) (shadow : Shadow) : Core (Option GuestMemory) :=
  ⟨r.gpr, r.rflags, r.rip, none, shadow, some m⟩

/-- The context shows the same registers, flags, instruction pointer and memory. -/
structure Core.Shows (c : Core (Option GuestMemory)) (r : RegFile) (m : GuestMemory) : Prop where
  fault : c.fault = none
  gpr : c.gpr = r.gpr
  rflags : c.rflags = r.rflags
  rip : c.rip = r.rip
  mem : ∃ m', c.mem = some m' ∧ m'.flat = m.flat

/-- **The blocks, registers and memories where a trampoline does what the instructions do.** XOR may
not change the flags. A returned number must be what the MOV leaves in RAX, and where no trampoline
is made for it, it must be found behind the first byte of the block. The last error must not be
loaded with more than its four bytes. Where it is stored, RAX must have been its address before, and
bytes stored beyond it must have been there before. -/
def MicroStub.Agrees (r : RegFile) (m : GuestMemory) : MicroStub → List Insn → Prop
  | .returnZero, _ => logicFlags r.rflags 0 8 = r.rflags
  | .returnImm32 imm, [i, _] =>
    i.immediate 1 &&& sizeMask (i.opRegister 0).size = imm.setWidth 64 ∧
      (imm ∈ imm32Table ∨ m.flat.loadLe (r.rip + 1).toNat 4 = some imm.toNat)
  | .getLastError, [_, i, _] => ∀ n, i.memoryOpSize = .ok n →
    m.flat.get TEB_LAST_ERROR_VA.toNat 4 =
      m.flat.get TEB_LAST_ERROR_VA.toNat n % 2 ^ (8 * (i.opRegister 0).size)
  | .setLastError, [_, i, _] => r.gpr 0 = TEB_LAST_ERROR_VA ∧ ∀ n, i.memoryOpSize = .ok n →
    m.flat.set TEB_LAST_ERROR_VA.toNat n (r.gpr 1 &&& sizeMask (i.opRegister 1).size).toNat =
      m.flat.set TEB_LAST_ERROR_VA.toNat 4 ((r.gpr 1).toNat % 2 ^ 32)
  | _, _ => True

/-! ### Loads and returns -/

section port

variable {env : HostEnv} {c : Core (Option GuestMemory)} {m m₁ m₂ m' : GuestMemory} {r r₁ r' : RegFile}
  {a : BitVec 64} {n : ℕ} {bytes : List UInt8} {p : Platform} {i : Insn}

theorem notFaulted (hf : c.fault = none) : ¬c.fault.isSome = true := by
  rw [hf]
  exact Bool.false_ne_true

theorem Core.load_of_some (ip : BitVec 64) (h : Inv env m) (hf : c.fault = none) (hm : c.mem = some m)
    (hn : n ∈ [4, 8]) (hl : m.flat.load a.toNat n = some bytes) :
    ∃ m₁, Same m m₁ ∧ c.load (guestPort env) a n ip =
      (.ofNat 64 (fromLe bytes), { c with mem := some m₁ }) := by
  obtain ⟨m₁, hr⟩ := (exists_device_read_iff h (some bytes)).mpr hl.symm
  refine ⟨m₁, (h.device_read hr).1, ?_⟩
  have hrange : ¬(n = 0 ∨ 8 < n) := by
    simp only [List.mem_cons, List.not_mem_nil, or_false] at hn
    omega
  rw [Core.load, if_neg (notFaulted hf), if_neg hrange]
  simp only [guestPort, hm, Option.bind_some, hr, Option.map_some]

theorem Core.load_of_none (ip : BitVec 64) (h : Inv env m) (hf : c.fault = none) (hm : c.mem = some m)
    (hn : n ∈ [4, 8]) (hl : m.flat.load a.toNat n = none) :
    (c.load (guestPort env) a n ip).2.fault.isSome := by
  obtain ⟨m₁, hr⟩ := (exists_device_read_iff h none).mpr hl.symm
  have hrange : ¬(n = 0 ∨ 8 < n) := by
    simp only [List.mem_cons, List.not_mem_nil, or_false] at hn
    omega
  rw [Core.load, if_neg (notFaulted hf), if_neg hrange]
  simp only [guestPort, hm, Option.bind_some, hr, Option.map_none]
  rfl

/-- A store of four bytes. -/
theorem Core.store_guest (env : HostEnv) (a v ip : BitVec 64) (hf : c.fault = none)
    (hm : c.mem = some m) :
    c.store (guestPort env) a 4 v ip =
      match (device env).write m a.toNat (toLe 4 v.toNat) with
      | some (true, m₁) => { c with mem := some m₁ }
      | some (false, m₁) => Core.setFault { c with mem := some m₁ } ip a 4 true
      | none => Core.setFault { c with mem := none } ip a 4 true := by
  rw [Core.store, if_neg (notFaulted hf), if_neg (by decide)]
  simp only [guestPort, hm, Option.bind_some]
  rcases (device env).write m a.toNat (toLe 4 v.toNat) with _ | ⟨_ | _, m₁⟩ <;> rfl

/-- A read that succeeds. -/
theorem run_readMemValue_ok {v : BitVec 64} (h : Inv env m)
    (hr : (readMemValue a n).run (device env) r m = some ((.ok v, r₁), m₁)) :
    r₁ = r ∧ Same m m₁ ∧ ∃ bytes, m.flat.load a.toNat n = some bytes ∧
      v = if n ∈ [1, 2, 4, 8] then .ofNat 64 (fromLe bytes) else 0 := by
  rw [readMemValue] at hr
  split at hr
  · cases hr
  · obtain ⟨⟨x, m₂⟩, hd, hr⟩ := Option.bind_eq_some_iff.mp hr
    obtain ⟨hs, rfl⟩ := h.device_read hd
    cases hl : m.flat.load a.toNat n with
    | none =>
      rw [hl] at hr
      cases hr
    | some bytes =>
      rw [hl] at hr
      cases hr
      exact ⟨rfl, hs, bytes, rfl, rfl⟩

/-- A write that succeeds. -/
theorem run_writeMemValue_ok {v : BitVec 64} (h : Inv env m)
    (hw : (writeMemValue a v n).run (device env) r m = some ((.ok (), r₁), m₁)) :
    r₁ = r ∧ Wrote env m a.toNat (toLe n v.toNat) m₁ := by
  rw [writeMemValue] at hw
  split at hw
  · cases hw
  · obtain ⟨⟨ok, m₂⟩, hd, hw⟩ := Option.bind_eq_some_iff.mp hw
    rcases h.device_write hd with ⟨rfl, hwrote⟩ | ⟨rfl, -⟩
    · cases hw
      exact ⟨rfl, hwrote⟩
    · cases hw

theorem run_popN_ok {v : BitVec 64} (h : Inv env m)
    (hr : (popN 8).run (device env) r m = some ((.ok v, r₁), m₁)) :
    r₁ = r.popped 8 ∧ Same m m₁ ∧ ∃ bytes, m.flat.load (r.gpr 4).toNat 8 = some bytes ∧
      v = .ofNat 64 (fromLe bytes) := by
  obtain ⟨r₀, hread, rfl⟩ := run_popN_iff.mp hr
  obtain ⟨rfl, hs, bytes, hl, rfl⟩ := run_readMemValue_ok h hread
  exact ⟨rfl, hs, bytes, hl, rfl⟩

/-- An instruction that is done. -/
theorem executeStep_continue_iff : executeStep env p i r m = some ((.ok .continue, r'), m') ↔
    (executeMnemonic p i).run (device env) (r.setRip (.ofNat 64 i.nextIp)) m =
      some ((.ok (), r'), m') := by
  have hone : (executeOne p i).run (device env) r m =
      (executeMnemonic p i).run (device env) (r.setRip (.ofNat 64 i.nextIp)) m := rfl
  rw [executeStep, hone]
  rcases (executeMnemonic p i).run (device env) (r.setRip (.ofNat 64 i.nextIp)) m with
    _ | ⟨⟨(inv | e) | ⟨⟩, r₂⟩, m₂⟩ <;> simp

/-- **A return that is done.** -/
theorem executeStep_ret (h : Inv env m) (hi : isPlainRet i = true)
    (hx : executeStep env p i r m = some ((.ok .continue, r'), m')) :
    ∃ bytes, m.flat.load (r.gpr 4).toNat 8 = some bytes ∧
      r' = (r.popped 8).setRip (.ofNat 64 (fromLe bytes)) ∧ Same m m' := by
  obtain ⟨hmn, hops⟩ := of_decide_eq_true hi
  rw [executeStep_continue_iff, executeMnemonic, hmn] at hx
  rcases run_bind_eq_some.mp hx with ⟨e, ⟨⟩, -⟩ | ⟨v, r₁, m₁, hpop, hx⟩
  obtain ⟨rfl, hs, bytes, hl, rfl⟩ := run_popN_ok h hpop
  rw [hops, if_neg (by omega)] at hx
  cases hx
  exact ⟨bytes, hl, rfl, hs⟩

/-- **A return of a trampoline.** -/
theorem Core.guestRet_of_some (h : Inv env m) (hf : c.fault = none) (hm : c.mem = some m)
    (hl : m.flat.load (c.gpr 4).toNat 8 = some bytes) :
    ∃ m₁, Same m m₁ ∧ (c.guestRet (guestPort env)).fault = none ∧
      (c.guestRet (guestPort env)).gpr = Function.update c.gpr 4 (c.gpr 4 + 8) ∧
      (c.guestRet (guestPort env)).rflags = c.rflags ∧
      (c.guestRet (guestPort env)).rip = .ofNat 64 (fromLe bytes) ∧
      (c.guestRet (guestPort env)).mem = some m₁ := by
  obtain ⟨m₁, hs, hc⟩ := Core.load_of_some c.rip h hf hm (by decide) hl
  refine ⟨m₁, hs, ?_⟩
  rw [Core.guestRet, if_neg (notFaulted hf)]
  simp only [hc]
  rw [if_neg (notFaulted hf)]
  exact ⟨hf, rfl, rfl, rfl, rfl⟩

theorem Core.guestRet_of_none (h : Inv env m) (hf : c.fault = none) (hm : c.mem = some m)
    (hl : m.flat.load (c.gpr 4).toNat 8 = none) :
    (c.guestRet (guestPort env)).fault.isSome := by
  have hload := Core.load_of_none c.rip h hf hm (by decide) hl
  rw [Core.guestRet, if_neg (notFaulted hf)]
  dsimp only
  rw [if_pos hload]
  exact hload

/-- **Returns agree just if there was agreement before.** -/
theorem Core.guestRet_shows_iff {c : Core (Option GuestMemory)} (h₁ : Inv env m₁) (h₂ : Inv env m₂)
    (hi : isPlainRet i = true)
    (hx : executeStep env p i r₁ m₁ = some ((.ok .continue, r'), m')) (hf : c.fault = none)
    (hm : c.mem = some m₂) (hsp : c.gpr 4 = r₁.gpr 4) :
    (c.guestRet (guestPort env)).Shows r' m' ↔
      c.gpr = r₁.gpr ∧ c.rflags = r₁.rflags ∧ m₂.flat = m₁.flat := by
  obtain ⟨bytes, hl, rfl, hs⟩ := executeStep_ret h₁ hi hx
  constructor
  · intro hshow
    rcases hl₂ : m₂.flat.load (c.gpr 4).toNat 8 with _ | bytes₂
    · have hfault := Core.guestRet_of_none h₂ hf hm hl₂
      exact absurd hfault (notFaulted hshow.fault)
    · obtain ⟨m₃, hs₃, -, hg, hfl, -, hm₃⟩ := Core.guestRet_of_some h₂ hf hm hl₂
      have hgpr : Function.update c.gpr 4 (c.gpr 4 + 8) =
          Function.update r₁.gpr 4 (r₁.gpr 4 + 8) := hg.symm.trans hshow.gpr
      refine ⟨?_, hfl.symm.trans hshow.rflags, ?_⟩
      · funext k
        by_cases hk : k = 4
        · rw [hk, hsp]
        · have := congrFun hgpr k
          rwa [Function.update_of_ne hk, Function.update_of_ne hk] at this
      · obtain ⟨m₄, hm₄, hflat⟩ := hshow.mem
        obtain rfl := Option.some.inj (hm₃.symm.trans hm₄)
        rw [← hs₃.flat, hflat, hs.flat]
  · rintro ⟨hg, hfl, hflat⟩
    rw [← hflat, ← hg] at hl
    obtain ⟨m₃, hs₃, h1, h2, h3, h4, h5⟩ := Core.guestRet_of_some h₂ hf hm hl
    refine ⟨h1, ?_, h3.trans hfl, h4, m₃, h5, ?_⟩
    · rw [h2, hg]
      rfl
    · rw [hs₃.flat, hflat, hs.flat]

/-! ### The other instructions -/

/-- What an instruction leaves, the instruction pointer apart. -/
def InsnLeaves (r : RegFile) (m : GuestMemory) (gpr : Gprs) (rflags : BitVec 64) (m' : GuestMemory) :
    Prop :=
  r.gpr = gpr ∧ r.rflags = rflags ∧ m = m'

theorem writeReg_raxForms {reg : Register} (hreg : reg ∈ raxForms) (r : RegFile) (v : BitVec 64) :
    r.writeReg reg v = .ok (r.setGpr 0 (v &&& sizeMask reg.size)) := by
  simp only [raxForms, List.mem_cons, List.not_mem_nil, or_false] at hreg
  rcases hreg with rfl | rfl
  · rfl
  · exact congrArg (fun x => Except.ok (r.setGpr 0 x)) (and_sizeMask_eight v).symm

/-- A MOV to EAX or RAX. -/
theorem executeStep_mov_rax (hmn : i.mnemonic = .mov) (hk : i.op0Kind = .register)
    (hreg : i.opRegister 0 ∈ raxForms)
    (hx : executeStep env p i r m = some ((.ok .continue, r'), m')) :
    ∃ v r₁, (i.readOp 1).run (device env) (r.setRip (.ofNat 64 i.nextIp)) m =
        some ((.ok v, r₁), m') ∧
      r' = r₁.setGpr 0 (v &&& sizeMask (i.opRegister 0).size) := by
  rw [executeStep_continue_iff, executeMnemonic, hmn] at hx
  rcases run_bind_eq_some.mp hx with ⟨e, ⟨⟩, -⟩ | ⟨v, r₁, m₁, hread, hw⟩
  have hk : i.opKind 0 = .register := hk
  obtain ⟨hwrite, rfl⟩ := (run_writeOp_register hk).mp hw
  rw [writeReg_raxForms hreg] at hwrite
  exact ⟨v, r₁, hread, (Except.ok.inj hwrite).symm⟩

/-- A MOV of an immediate number. -/
theorem executeStep_mov_immediate (hmn : i.mnemonic = .mov) (hk : i.op0Kind = .register)
    (hreg : i.opRegister 0 ∈ raxForms) (himm : Instruction.isImmKind i.op1Kind = true)
    (hx : executeStep env p i r m = some ((.ok .continue, r'), m')) :
    InsnLeaves r' m' (Function.update r.gpr 0 (i.immediate 1 &&& sizeMask (i.opRegister 0).size))
      r.rflags m := by
  obtain ⟨v, r₁, hread, rfl⟩ := executeStep_mov_rax hmn hk hreg hx
  have himm' : i.readOp 1 = pure (i.immediate 1) := by
    rw [Insn.readOp]
    rw [Instruction.op1Kind] at himm
    revert himm
    cases i.opKind 1 <;> simp [Instruction.isImmKind]
  rw [himm'] at hread
  cases hread
  exact ⟨rfl, rfl, rfl⟩

/-- `mov rax, rcx`. -/
theorem executeStep_mov_rcx (hmn : i.mnemonic = .mov) (hk : i.op0Kind = .register)
    (hk1 : i.op1Kind = .register) (h0 : i.opRegister 0 = .gpr64 0) (h1 : i.opRegister 1 = .gpr64 1)
    (hx : executeStep env p i r m = some ((.ok .continue, r'), m')) :
    InsnLeaves r' m' (Function.update r.gpr 0 (r.gpr 1)) r.rflags m := by
  have hreg : i.opRegister 0 ∈ raxForms := by rw [h0]; decide
  obtain ⟨v, r₁, hread, rfl⟩ := executeStep_mov_rax hmn hk hreg hx
  have hrcx : (r.setRip (.ofNat 64 i.nextIp)).readReg (i.opRegister 1) = .ok (r.gpr 1) := by
    rw [h1]
    rfl
  rw [Cmd.run, Insn.readOp_register hk1 hrcx] at hread
  cases hread
  refine ⟨?_, rfl, rfl⟩
  rw [h0]
  exact congrArg (Function.update r.gpr 0) (and_sizeMask_eight _)

/-- The flags of a result that is zero do not depend on its size. -/
theorem logicFlags_zero (f : BitVec 64) (size : ℕ) : logicFlags f 0 size = logicFlags f 0 8 := by
  have hz (x : BitVec 64) : (0 : BitVec 64) &&& x = 0 := BitVec.zero_and
  simp only [logicFlags, hz]

/-- `xor eax, eax` and `xor rax, rax`. -/
theorem executeStep_xor (hmn : i.mnemonic = .xor) (hk : i.op0Kind = .register)
    (hk1 : i.op1Kind = .register) (h01 : i.opRegister 0 = i.opRegister 1)
    (hreg : i.opRegister 0 ∈ raxForms)
    (hx : executeStep env p i r m = some ((.ok .continue, r'), m')) :
    InsnLeaves r' m' (Function.update r.gpr 0 0) (logicFlags r.rflags 0 8) m := by
  rw [executeStep_continue_iff, executeMnemonic, hmn] at hx
  obtain ⟨size, hsize, hx⟩ := run_lift_bind_ok hx
  have hv : ∃ v, (r.setRip (.ofNat 64 i.nextIp)).readReg (i.opRegister 0) = .ok v := by
    simp only [raxForms, List.mem_cons, List.not_mem_nil, or_false] at hreg
    rcases hreg with hr | hr <;> exact ⟨_, by rw [hr]; rfl⟩
  obtain ⟨v, hv⟩ := hv
  -- both operands are the same, so that the result is zero
  rcases run_bind_eq_some.mp hx with ⟨e, ⟨⟩, -⟩ | ⟨d, r₁, m₁, h0, hx⟩
  rw [Cmd.run, Insn.readOp_register hk hv] at h0
  cases h0
  rcases run_bind_eq_some.mp hx with ⟨e, ⟨⟩, -⟩ | ⟨d', r₁, m₁, h1, hx⟩
  rw [Cmd.run, Insn.readOp_register hk1 (h01 ▸ hv)] at h1
  cases h1
  have hx : (i.writeOp 0 (ArithOp.result .xor r.rflags (v &&& sizeMask size) (v &&& sizeMask size)
      &&& sizeMask size)).run (device env) ((r.setRip (.ofNat 64 i.nextIp)).setRflags
        (ArithOp.flags .xor r.rflags (v &&& sizeMask size) (v &&& sizeMask size) size)) m =
      some ((.ok (), r'), m') := hx
  rw [ArithOp.flags, ArithOp.result, BitVec.xor_self, BitVec.zero_and] at hx
  have hk : i.opKind 0 = .register := hk
  obtain ⟨hw, rfl⟩ := (run_writeOp_register hk).mp hx
  rw [writeReg_raxForms hreg, BitVec.zero_and] at hw
  obtain rfl := Except.ok.inj hw
  refine ⟨rfl, ?_, rfl⟩
  exact logicFlags_zero r.rflags size

theorem effectiveAddress_atRax (hrax : i.atRax = true) (r : RegFile) :
    i.effectiveAddress r = .ok (r.gpr 0) := by
  obtain ⟨hb, hx, hd⟩ := of_decide_eq_true hrax
  rw [Insn.effectiveAddress, hb, hx, hd]
  show Except.ok (0 + r.gpr 0 + 0 * _) = _
  simp

/-- A size that comes from the operand or from a register beside it. -/
theorem memoryOpSize_mem (h0 : i.op0Kind = .register → (i.opRegister 0).size ∈ [1, 2, 4, 8])
    (h1 : i.op1Kind = .register → (i.opRegister 1).size ∈ [1, 2, 4, 8])
    (hn : i.memoryOpSize = .ok n) : n ∈ [1, 2, 4, 8] := by
  rw [Insn.memoryOpSize] at hn
  split at hn
  all_goals first | (cases hn; decide) | skip
  split_ifs at hn with hr0 hr1 <;> cases hn
  · exact h0 hr0.2
  · exact h1 hr1.2

theorem size_mem_of_raxForms {reg : Register} (hreg : reg ∈ raxForms) :
    reg.size ∈ [1, 2, 4, 8] := by
  simp only [raxForms, List.mem_cons, List.not_mem_nil, or_false] at hreg
  rcases hreg with rfl | rfl <;> decide

/-- `mov eax, [rax]` and `mov rax, [rax]`. -/
theorem executeStep_mov_load (h : Inv env m) (hmn : i.mnemonic = .mov) (hk : i.op0Kind = .register)
    (hk1 : i.op1Kind = .memory) (hreg : i.opRegister 0 ∈ raxForms) (hrax : i.atRax = true)
    (hx : executeStep env p i r m = some ((.ok .continue, r'), m')) :
    ∃ n bytes m₁, i.memoryOpSize = .ok n ∧ n ∈ [1, 2, 4, 8] ∧
      m.flat.load (r.gpr 0).toNat n = some bytes ∧ Same m m₁ ∧
      InsnLeaves r' m' (Function.update r.gpr 0
        (.ofNat 64 (fromLe bytes) &&& sizeMask (i.opRegister 0).size)) r.rflags m₁ := by
  obtain ⟨v, r₁, hread, rfl⟩ := executeStep_mov_rax hmn hk hreg hx
  rw [Insn.readOp, show i.opKind 1 = .memory from hk1] at hread
  obtain ⟨a, ha, hread⟩ := run_lift_bind_ok (x := i.effectiveAddress _) hread
  rw [effectiveAddress_atRax hrax] at ha
  obtain rfl := Except.ok.inj ha
  obtain ⟨n, hn, hread⟩ := run_lift_bind_ok hread
  have hmem : n ∈ [1, 2, 4, 8] := memoryOpSize_mem (fun _ => size_mem_of_raxForms hreg)
    (fun hr => by rw [hk1] at hr; cases hr) hn
  obtain ⟨rfl, hs, bytes, hl, rfl⟩ := run_readMemValue_ok h hread
  rw [if_pos hmem]
  exact ⟨n, bytes, m', hn, hmem, hl, hs, rfl, rfl, rfl⟩

/-- `mov [rax], ecx` and `mov [rax], rcx`. -/
theorem executeStep_mov_store (h : Inv env m) (hmn : i.mnemonic = .mov) (hk : i.op0Kind = .memory)
    (hk1 : i.op1Kind = .register) (hreg : i.opRegister 1 ∈ [.gpr32 1, .gpr64 1])
    (hrax : i.atRax = true) (hx : executeStep env p i r m = some ((.ok .continue, r'), m')) :
    ∃ n m₁, i.memoryOpSize = .ok n ∧ n ∈ [1, 2, 4, 8] ∧
      Wrote env m (r.gpr 0).toNat (toLe n (r.gpr 1 &&& sizeMask (i.opRegister 1).size).toNat) m₁ ∧
      InsnLeaves r' m' r.gpr r.rflags m₁ := by
  rw [executeStep_continue_iff, executeMnemonic, hmn] at hx
  rcases run_bind_eq_some.mp hx with ⟨e, ⟨⟩, -⟩ | ⟨v, r₁, m₁, hread, hw⟩
  have hv : (r.setRip (.ofNat 64 i.nextIp)).readReg (i.opRegister 1) =
      .ok (r.gpr 1 &&& sizeMask (i.opRegister 1).size) := by
    simp only [List.mem_cons, List.not_mem_nil, or_false] at hreg
    rcases hreg with hr | hr <;> rw [hr]
    · rfl
    · exact congrArg Except.ok (and_sizeMask_eight _).symm
  have hsize : (i.opRegister 1).size ∈ [1, 2, 4, 8] := by
    simp only [List.mem_cons, List.not_mem_nil, or_false] at hreg
    rcases hreg with hr | hr <;> rw [hr] <;> decide
  rw [Cmd.run, Insn.readOp_register hk1 hv] at hread
  cases hread
  obtain ⟨n, hn, hw⟩ := run_lift_bind_ok hw
  rw [Insn.opSizeBytes, show i.opKind 0 = .memory from hk] at hn
  rw [Insn.writeOpSized, show i.opKind 0 = .memory from hk] at hw
  obtain ⟨a, ha, hw⟩ := run_lift_bind_ok (x := i.effectiveAddress _) hw
  rw [effectiveAddress_atRax hrax] at ha
  obtain rfl := Except.ok.inj ha
  have hmem : n ∈ [1, 2, 4, 8] := memoryOpSize_mem (fun hr => by rw [hk] at hr; cases hr)
    (fun _ => hsize) hn
  obtain ⟨rfl, hwrote⟩ := run_writeMemValue_ok h hw
  exact ⟨n, m', hn, hmem, hwrote, rfl, rfl, rfl⟩

/-! ### The stubs -/

theorem update_inj {k : Fin 16} {x y : BitVec 64} {g : Gprs} :
    (Function.update g k x : Gprs) = Function.update g k y ↔ x = y := by
  refine ⟨fun hu => ?_, fun hxy => by rw [hxy]⟩
  have := congrFun hu k
  rwa [Function.update_self, Function.update_self] at this

/-- The value of four bytes in a register. -/
theorem toNat_widen {k : ℕ} (hk : k < 2 ^ 32) :
    ((((BitVec.ofNat 64 k).setWidth 32).setWidth 64 : BitVec 64)).toNat = k := by
  simp only [BitVec.toNat_setWidth, BitVec.toNat_ofNat]
  omega

theorem loadLe_lt {a n k : ℕ} (hk : m.flat.loadLe a n = some k) : k < 256 ^ n := by
  obtain ⟨bytes, hl, rfl⟩ := Option.map_eq_some_iff.mp hk
  rw [Flat.load] at hl
  split_ifs at hl
  obtain rfl := Option.some.inj hl
  have := fromLe_lt (m.flat.bytes a n)
  rwa [Flat.length_bytes] at this

/-- A number of four bytes, loaded with a trampoline, and then the return. -/
theorem loadRet_shows_iff {c : Core (Option GuestMemory)} {k : ℕ} {addr : BitVec 64} {i : Insn}
    {v : BitVec 64} (h : Inv env m) (h₁ : Inv env m₁) (hi : isPlainRet i = true)
    (hx : executeStep env p i r₁ m₁ = some ((.ok .continue, r'), m')) (hf : c.fault = none)
    (hm : c.mem = some m) (hflat : m₁.flat = m.flat) (hleaves : r₁.gpr = Function.update c.gpr 0 v)
    (hflags : r₁.rflags = c.rflags) (hk : m.flat.loadLe addr.toNat 4 = some k) :
    Core.Shows (let (v, c) := c.load (guestPort env) addr 4 c.rip
      if c.fault.isSome then c
      else (c.setGpr 0 ((v.setWidth 32).setWidth 64)).guestRet (guestPort env)) r' m' ↔
        k = v.toNat := by
  have hlt : k < 2 ^ 32 := loadLe_lt hk
  obtain ⟨bytes, hl, rfl⟩ := Option.map_eq_some_iff.mp hk
  obtain ⟨m₂, hs, hc⟩ := Core.load_of_some c.rip h hf hm (by decide) hl
  simp only [hc]
  rw [if_neg (notFaulted hf)]
  have hsp : c.gpr 4 = r₁.gpr 4 := by
    rw [hleaves]
    rfl
  refine (Core.guestRet_shows_iff (c := Core.setGpr { c with mem := some m₂ } 0 _) h₁ (hs.inv h)
    hi hx hf rfl hsp).trans ?_
  rw [hleaves, hs.flat, hflat]
  refine ⟨fun hall => ?_, fun hv => ⟨?_, hflags.symm, rfl⟩⟩
  · have := congrArg BitVec.toNat (update_inj.mp hall.1)
    rwa [toNat_widen hlt] at this
  · refine update_inj.mpr (BitVec.eq_of_toNat_eq ?_)
    rw [toNat_widen hlt, hv]

theorem not_loadRet_shows {c : Core (Option GuestMemory)} {addr : BitVec 64} (h : Inv env m)
    (hf : c.fault = none) (hm : c.mem = some m) (hk : m.flat.loadLe addr.toNat 4 = none) :
    ¬Core.Shows (let (v, c) := c.load (guestPort env) addr 4 c.rip
      if c.fault.isSome then c
      else (c.setGpr 0 ((v.setWidth 32).setWidth 64)).guestRet (guestPort env)) r' m' := by
  have hfault := Core.load_of_none c.rip h hf hm (by decide) (Option.map_eq_none_iff.mp hk)
  dsimp only
  rw [if_pos hfault]
  exact fun hshow => notFaulted hshow.fault hfault

/-- The instructions of a block with its return. -/
theorem runInsns_cons_iff {insns : List Insn} : runInsns env p (i :: insns) r m = some (r', m') ↔
    ∃ r₁ m₁, executeStep env p i r m = some ((.ok .continue, r₁), m₁) ∧
      runInsns env p insns r₁ m₁ = some (r', m') := by
  rw [runInsns]
  split
  · rename_i r₁ m₁ hx
    rw [hx]
    constructor
    · exact fun hrun => ⟨r₁, m₁, rfl, hrun⟩
    · rintro ⟨_, _, ⟨⟩, hrun⟩
      exact hrun
  · rename_i hne
    refine ⟨fun hrun => absurd hrun.symm (Option.some_ne_none _), ?_⟩
    rintro ⟨r₁, m₁, hx, -⟩
    exact absurd hx (hne r₁ m₁)

/-- A return at the end of a block. -/
theorem runInsns_singleton_iff : runInsns env p [i] r m = some (r', m') ↔
    executeStep env p i r m = some ((.ok .continue, r'), m') := by
  rw [runInsns_cons_iff]
  constructor
  · rintro ⟨r₁, m₁, hx, ⟨⟩⟩
    exact hx
  · exact fun hx => ⟨r', m', hx, rfl⟩

variable {shadow : Shadow} {s : MicroStub} {j k : Insn}

theorem ret_shows (h : Inv env m) (hi : isPlainRet i = true)
    (hrun : runInsns env p [i] r m = some (r', m')) :
    (MicroStub.ret.exec (guestPort env) (MicroStub.enter r m shadow)).Shows r' m' :=
  (Core.guestRet_shows_iff (c := MicroStub.enter r m shadow) h h hi
    (runInsns_singleton_iff.mp hrun) rfl rfl rfl).mpr ⟨rfl, rfl, rfl⟩

/-- A block of two instructions whose first one leaves something in RAX only. -/
theorem setRax_shows_iff {v w f : BitVec 64} {r₁ : RegFile} {m₁ : GuestMemory} (h : Inv env m)
    (hi : isPlainRet i = true) (hrun : runInsns env p [i] r₁ m₁ = some (r', m'))
    (hleaves : InsnLeaves r₁ m₁ (Function.update r.gpr 0 v) f m) :
    (((MicroStub.enter r m shadow).setGpr 0 w).guestRet (guestPort env)).Shows r' m' ↔
      w = v ∧ r.rflags = f := by
  obtain ⟨hg, rfl, rfl⟩ := hleaves
  refine (Core.guestRet_shows_iff (c := (MicroStub.enter r m₁ shadow).setGpr 0 w) h h hi
    (runInsns_singleton_iff.mp hrun) rfl rfl ?_).trans ?_
  · rw [hg]
    rfl
  · rw [hg]
    exact ⟨fun hall => ⟨update_inj.mp hall.1, hall.2.1⟩,
      fun hall => ⟨update_inj.mpr hall.1, hall.2, rfl⟩⟩

theorem size_of_raxForms {reg : Register} (hreg : reg ∈ raxForms) : reg.size = 4 ∨ reg.size = 8 := by
  simp only [raxForms, List.mem_cons, List.not_mem_nil, or_false] at hreg
  rcases hreg with rfl | rfl
  · exact .inl rfl
  · exact .inr rfl

/-- The immediate operands that the stubs ask for. -/
theorem isImmKind_of_mem {kind : OpKind} (h : kind ∈ [.immediate64, .immediate32, .immediate32to64] ∨
    kind ∈ [.immediate8, .immediate16, .immediate32, .immediate8to32, .immediate8to64,
      .immediate32to64]) : Instruction.isImmKind kind = true := by
  revert h
  cases kind <;> simp [Instruction.isImmKind]

/-- The lower half of what a MOV leaves is the immediate number. -/
theorem immediate32_eq (hreg : j.opRegister 0 ∈ raxForms) :
    j.immediate32.toNat = (j.immediate 1 &&& sizeMask (j.opRegister 0).size).toNat % 2 ^ 32 := by
  have hsize := size_of_raxForms hreg
  rw [toNat_and_sizeMask hsize, Insn.immediate32, BitVec.toNat_setWidth]
  rcases hsize with hz | hz <;> rw [hz] <;> omega

/-- `mov eax, imm32; ret`. -/
theorem returnImm32_shows_iff (h : Inv env m) (hi : isPlainRet i = true)
    (hreg : j.opRegister 0 ∈ raxForms) {r₁ : RegFile} {m₁ : GuestMemory}
    (hrun : runInsns env p [i] r₁ m₁ = some (r', m'))
    (hleaves : InsnLeaves r₁ m₁ (Function.update r.gpr 0
      (j.immediate 1 &&& sizeMask (j.opRegister 0).size)) r.rflags m) :
    ((MicroStub.returnImm32 j.immediate32).exec (guestPort env)
      (MicroStub.enter r m shadow)).Shows r' m' ↔
        (MicroStub.returnImm32 j.immediate32).Agrees r m [j, i] := by
  have hlow := immediate32_eq hreg
  rw [MicroStub.Agrees]
  generalize j.immediate 1 &&& sizeMask (j.opRegister 0).size = v at hlow hleaves
  generalize j.immediate32 = imm at hlow
  have hwide : (imm.setWidth 64).toNat = imm.toNat := by
    rw [BitVec.toNat_setWidth]
    omega
  rw [MicroStub.exec]
  split_ifs with htable
  · -- the number has a trampoline of its own
    refine (setRax_shows_iff h hi hrun hleaves).trans ?_
    exact ⟨fun hall => ⟨hall.1.symm, .inl htable⟩, fun hall => ⟨hall.1.symm, rfl⟩⟩
  · rw [or_iff_right htable]
    rcases hk : m.flat.loadLe (r.rip + 1).toNat 4 with _ | k
    · refine iff_of_false (not_loadRet_shows (c := MicroStub.enter r m shadow) h rfl rfl hk) ?_
      rintro ⟨-, ⟨⟩⟩
    · have hlt := loadLe_lt hk
      obtain ⟨hg, hf, rfl⟩ := hleaves
      refine (loadRet_shows_iff (c := MicroStub.enter r m₁ shadow) h h hi
        (runInsns_singleton_iff.mp hrun) rfl rfl rfl hg hf hk).trans ?_
      constructor
      · rintro rfl
        have himm : v.toNat = imm.toNat := by omega
        exact ⟨BitVec.eq_of_toNat_eq (himm.trans hwide.symm), congrArg some himm⟩
      · rintro ⟨rfl, hk⟩
        rw [hwide]
        exact Option.some.inj hk

/-- **The stubs of two instructions.** -/
theorem two_shows_iff (h : Inv env m) (hi : isPlainRet i = true) (hs : classifyTwoInsn j = some s)
    (hrun : runInsns env p [j, i] r m = some (r', m')) :
    (s.exec (guestPort env) (MicroStub.enter r m shadow)).Shows r' m' ↔ s.Agrees r m [j, i] := by
  obtain ⟨r₁, m₁, hx, hrun⟩ := runInsns_cons_iff.mp hrun
  rw [classifyTwoInsn] at hs
  split_ifs at hs with hzero hid himm <;> cases hs
  · obtain ⟨hmn, h0, h1, h01, hreg⟩ := hzero
    refine (setRax_shows_iff h hi hrun (executeStep_xor hmn h0 h1 h01 hreg hx)).trans ?_
    exact ⟨fun hall => hall.2.symm, fun hf => ⟨rfl, hf.symm⟩⟩
  · obtain ⟨hmn, h0, h1, hr0, hr1⟩ := hid
    refine (setRax_shows_iff h hi hrun (executeStep_mov_rcx hmn h0 h1 hr0 hr1 hx)).trans ?_
    exact iff_of_true ⟨rfl, rfl⟩ trivial
  · obtain ⟨hmn, h0, h1, hreg⟩ := himm
    have hleaves := executeStep_mov_immediate hmn h0 hreg (isImmKind_of_mem (.inr h1)) hx
    exact returnImm32_shows_iff h hi hreg hrun hleaves

/-- A page is readable as a whole. -/
theorem load_of_load {a n k : ℕ} (hn : 0 < n) (hk : a % 0x1000 + k ≤ 0x1000)
    {bytes : List UInt8} (hl : m.flat.load a n = some bytes) :
    m.flat.load a k = some (m.flat.bytes a k) := by
  rw [Flat.load] at hl ⊢
  split_ifs at hl with hall
  refine if_pos (List.all_eq_true.mpr fun x hx => ?_)
  have h0 : m.flat.readable (a + 0) = true := List.all_eq_true.mp hall 0 (List.mem_range.mpr hn)
  have hx := List.mem_range.mp hx
  show m.pages.table.grants .read ((a + x) / 0x1000) = true
  rwa [show (a + x) / 0x1000 = (a + 0) / 0x1000 by omega]

theorem load_eq_bytes {a n : ℕ} {bytes : List UInt8} (hl : m.flat.load a n = some bytes) :
    bytes = m.flat.bytes a n := by
  rw [Flat.load] at hl
  split_ifs at hl
  exact (Option.some.inj hl).symm

/-- `mov rax, TEB_LAST_ERROR_VA; mov eax, [rax]; ret`. -/
theorem getLastError_shows_iff (h : Inv env m) (hi : isPlainRet i = true) {r₁ : RegFile}
    (hg₁ : r₁.gpr = Function.update r.gpr 0 TEB_LAST_ERROR_VA) (hf₁ : r₁.rflags = r.rflags)
    (hmn : j.mnemonic = .mov) (h0 : j.op0Kind = .register) (h1 : j.op1Kind = .memory)
    (hreg : j.opRegister 0 ∈ raxForms) (hrax : j.atRax = true)
    (hrun : runInsns env p [j, i] r₁ m = some (r', m')) :
    (MicroStub.getLastError.exec (guestPort env) (MicroStub.enter r m shadow)).Shows r' m' ↔
      MicroStub.getLastError.Agrees r m [k, j, i] := by
  obtain ⟨r₂, m₂, hx, hrun⟩ := runInsns_cons_iff.mp hrun
  obtain ⟨n, bytes, m₃, hn, hmem, hl, hs, hg₂, hf₂, rfl⟩ :=
    executeStep_mov_load h hmn h0 h1 hreg hrax hx
  rw [hg₁, Function.update_self] at hl
  rw [hg₁] at hg₂
  have hpos : 0 < n ∧ n ≤ 8 := by
    simp only [List.mem_cons, List.not_mem_nil, or_false] at hmem
    omega
  have hk : m.flat.loadLe TEB_LAST_ERROR_VA.toNat 4 = some (m.flat.get TEB_LAST_ERROR_VA.toNat 4) :=
    congrArg (Option.map fromLe) (load_of_load hpos.1 (by decide) hl)
  obtain rfl := load_eq_bytes hl
  have hval : (BitVec.ofNat 64 (fromLe (m.flat.bytes TEB_LAST_ERROR_VA.toNat n)) &&&
      sizeMask (j.opRegister 0).size).toNat =
        m.flat.get TEB_LAST_ERROR_VA.toNat n % 2 ^ (8 * (j.opRegister 0).size) := by
    have hlt : m.flat.get TEB_LAST_ERROR_VA.toNat n < 2 ^ 64 := by
      have h256 := fromLe_lt (m.flat.bytes TEB_LAST_ERROR_VA.toNat n)
      rw [Flat.length_bytes] at h256
      exact h256.trans_le (Nat.pow_le_pow_right (by decide) hpos.2)
    rw [toNat_and_sizeMask (size_of_raxForms hreg), BitVec.toNat_ofNat]
    exact congrArg (· % _) (Nat.mod_eq_of_lt hlt)
  rw [Function.update_idem] at hg₂
  refine (loadRet_shows_iff (c := MicroStub.enter r m shadow) h (hs.inv h) hi
    (runInsns_singleton_iff.mp hrun) rfl rfl hs.flat hg₂ (hf₂.trans hf₁) hk).trans ?_
  rw [hval]
  refine ⟨fun heq n' hn' => ?_, fun hall => hall n hn⟩
  cases hn.symm.trans hn'
  exact heq

/-- `mov rax, TEB_LAST_ERROR_VA; mov [rax], ecx; ret`. -/
theorem setLastError_shows_iff (h : Inv env m) (hi : isPlainRet i = true) {r₁ : RegFile}
    (hg₁ : r₁.gpr = Function.update r.gpr 0 TEB_LAST_ERROR_VA) (hf₁ : r₁.rflags = r.rflags)
    (hmn : j.mnemonic = .mov) (h0 : j.op0Kind = .memory) (h1 : j.op1Kind = .register)
    (hreg : j.opRegister 1 ∈ [.gpr32 1, .gpr64 1]) (hrax : j.atRax = true)
    (hrun : runInsns env p [j, i] r₁ m = some (r', m'))
    (hend : (MicroStub.setLastError.exec (guestPort env) (MicroStub.enter r m shadow)).mem ≠ none) :
    (MicroStub.setLastError.exec (guestPort env) (MicroStub.enter r m shadow)).Shows r' m' ↔
      MicroStub.setLastError.Agrees r m [k, j, i] := by
  obtain ⟨r₂, m₂, hx, hrun⟩ := runInsns_cons_iff.mp hrun
  obtain ⟨n, m₃, hn, hmem, hw, hg₂, hf₂, rfl⟩ := executeStep_mov_store h hmn h0 h1 hreg hrax hx
  have hpos : 0 < n := by
    simp only [List.mem_cons, List.not_mem_nil, or_false] at hmem
    omega
  have hrcx : r₁.gpr 1 = r.gpr 1 := by rw [hg₁]; rfl
  rw [hrcx, hg₁, Function.update_self] at hw
  have hval : toLe 4 (((r.gpr 1).setWidth 32).setWidth 64 : BitVec 64).toNat =
      toLe 4 ((r.gpr 1).toNat % 2 ^ 32) := by
    rw [BitVec.toNat_setWidth, BitVec.toNat_setWidth,
      Nat.mod_eq_of_lt (Nat.lt_of_lt_of_le (Nat.mod_lt _ (by decide)) (by decide))]
  have hstore := Core.store_guest env (c := MicroStub.enter r m shadow) TEB_LAST_ERROR_VA
    (((r.gpr 1).setWidth 32).setWidth 64) r.rip rfl rfl
  rw [hval] at hstore
  generalize hc : (MicroStub.enter r m shadow).store (guestPort env) TEB_LAST_ERROR_VA 4
    (((r.gpr 1).setWidth 32).setWidth 64) r.rip = c at hstore
  have hexec : MicroStub.setLastError.exec (guestPort env) (MicroStub.enter r m shadow) =
      if c.fault.isSome then c else c.guestRet (guestPort env) := by
    rw [← hc]
    rfl
  rw [hexec] at hend ⊢
  rcases hd : (device env).write m TEB_LAST_ERROR_VA.toNat (toLe 4 ((r.gpr 1).toNat % 2 ^ 32)) with
    _ | ⟨_ | _, m₄⟩ <;> rw [hd] at hstore <;> subst hstore
  · -- the process has ended
    exact absurd rfl hend
  · -- the page can be written, for the instructions have done so
    have hdenied := h.device_write_denied_iff.mp ⟨m₄, hd⟩
    refine absurd (fun x h1 h2 => ?_) hdenied
    rcases hw.granted with hnil | ⟨-, hg⟩
    · rw [← List.length_eq_zero_iff, length_toLe] at hnil
      omega
    · have hpage := hg TEB_LAST_ERROR_VA.toNat le_rfl (by rw [length_toLe]; omega)
      rw [length_toLe] at h2
      have ha : TEB_LAST_ERROR_VA.toNat = 0x68 := rfl
      rw [ha] at h1 h2 hpage
      rwa [show x / 0x1000 = 0x68 / 0x1000 by omega]
  · obtain ⟨-, hwrote⟩ | ⟨⟨⟩, -⟩ := h.device_write hd
    refine (Core.guestRet_shows_iff (c := { MicroStub.enter r m shadow with mem := some m₄ })
      (hw.inv h) (hwrote.inv h) hi (runInsns_singleton_iff.mp hrun) rfl rfl ?_).trans ?_
    · rw [hg₂, hg₁]
      rfl
    · rw [hg₂, hg₁, hf₂, hf₁, hw.flat, hwrote.flat]
      constructor
      · rintro ⟨hgpr, -, hflat⟩
        have h0 := congrFun hgpr 0
        rw [Function.update_self] at h0
        refine ⟨h0, fun n' hn' => ?_⟩
        cases hn.symm.trans hn'
        exact hflat.symm
      · rintro ⟨h0, hflat⟩
        refine ⟨?_, rfl, (hflat n hn).symm⟩
        rw [← h0, Function.update_eq_self]
        rfl

/-- **The stubs of three instructions.** -/
theorem three_shows_iff (h : Inv env m) (hi : isPlainRet i = true)
    (hs : classifyThreeInsn k j = some s) (hrun : runInsns env p [k, j, i] r m = some (r', m'))
    (hend : (s.exec (guestPort env) (MicroStub.enter r m shadow)).mem ≠ none) :
    (s.exec (guestPort env) (MicroStub.enter r m shadow)).Shows r' m' ↔
      s.Agrees r m [k, j, i] := by
  obtain ⟨r₁, m₁, hx, hrest⟩ := runInsns_cons_iff.mp hrun
  rw [classifyThreeInsn] at hs
  split_ifs at hs with hmov hva hget hset <;> cases hs
  all_goals
    obtain ⟨hmn, h0, hreg, hkind⟩ := hmov
    obtain ⟨hg₁, hf₁, rfl⟩ := executeStep_mov_immediate hmn h0 (by rw [hreg]; decide)
      (isImmKind_of_mem (.inl hkind)) hx
    rw [not_not.mp hva, hreg] at hg₁
  · obtain ⟨hmn, h0, hreg, h1, hrax⟩ := hget
    exact getLastError_shows_iff h hi hg₁ hf₁ hmn h0 h1 hreg hrax hrest
  · obtain ⟨hmn, h0, h1, hreg, hrax⟩ := hset
    exact setLastError_shows_iff h hi hg₁ hf₁ hmn h0 h1 hreg hrax hrest hend

/-- **When a trampoline leaves what the instructions leave**: for every block that has one, all
registers and all memory that calls can lead to, if the instructions do not fail and the process does
not end. -/
theorem MicroStub.exec_shows_iff (h : Reachable env AnyCall m) (p : Platform) (shadow : Shadow)
    {insns : List Insn} {term : Option BlockTerm} (hs : matchMicroStub insns term = some s)
    (hrun : runInsns env p insns r m = some (r', m'))
    (hend : (s.exec (guestPort env) (MicroStub.enter r m shadow)).mem ≠ none) :
    (s.exec (guestPort env) (MicroStub.enter r m shadow)).Shows r' m' ↔ s.Agrees r m insns := by
  have hinv : Inv env m := Reachable.inv h
  rcases insns with _ | ⟨a, _ | ⟨b, _ | ⟨c, _ | ⟨d, rest⟩⟩⟩⟩ <;> simp only [matchMicroStub] at hs
  · split_ifs at hs
  · split_ifs at hs with hterm hi
    cases hs
    exact iff_of_true (ret_shows hinv hi hrun) trivial
  · split_ifs at hs with hterm hi
    exact two_shows_iff hinv hi hs hrun
  · split_ifs at hs with hterm hi
    exact three_shows_iff hinv hi hs hrun hend
  · split_ifs at hs

end port

/-! ### A block whose flags are lost -/

/-- An instruction on registers and immediate numbers. -/
def onRegister (mnemonic : Mnemonic) (ops : List OpKind) (reg : Register) (immediate : BitVec 64) :
    Insn where
  mnemonic
  ops
  opRegister := fun _ => reg
  memoryBase := .none
  memoryIndex := .none
  memoryIndexScale := 1
  memoryDisplacement64 := 0
  memorySize := .other 0 0
  nearBranchTarget := 0
  movsdXmmCode := false
  len := 1
  nextIp := 0
  ip := 0
  immediate := fun _ => immediate
  hasLockPrefix := false
  hasRepPrefix := false
  hasRepePrefix := false
  hasRepnePrefix := false

/-- `xor eax, eax; ret`. -/
def xorRet : List Insn :=
  [onRegister .xor [.register, .register] (.gpr32 0) 0, onRegister .ret [] .none 0]

/-- `mov eax, 1; ret`. -/
def oneRet : List Insn :=
  [onRegister .mov [.register, .immediate32] (.gpr32 0) 1, onRegister .ret [] .none 0]

/-- A page for the stack. -/
def stackPage : GuestMemory :=
  runAll .fourK (new .roomy)
    [.virtualAlloc 0x20000 0x1000 (memReserve + memCommit) Protect.pageReadwrite]

theorem reachable_stackPage : Reachable .fourK AnyCall stackPage :=
  (reachable_new _).runAll _ (allMeet_anyCall _ _) (by decide +kernel)

/-- Registers with the stack pointer in that page. -/
def atStack : RegFile := ⟨Function.update (fun _ => 0) 4 0x20800, fun _ => 0, 0x401000, 2⟩

/-- No predictions. -/
def noShadow : Shadow := ⟨0, fun _ => 0⟩

/-- **A number that has a trampoline** is returned. -/
theorem exec_shows_one : ∃ r' m', runInsns .fourK noDecode oneRet atStack stackPage =
      some (r', m') ∧
    ((MicroStub.returnImm32 1).exec (guestPort .fourK)
      (MicroStub.enter atStack stackPage noShadow)).Shows r' m' := by
  obtain ⟨⟨r', m'⟩, hrun⟩ : ∃ v, runInsns .fourK noDecode oneRet atStack stackPage = some v :=
    Option.isSome_iff_exists.mp (by decide +kernel)
  have hstub : matchMicroStub oneRet (some .ret) = some (.returnImm32 1) := by decide
  refine ⟨r', m', hrun, (MicroStub.exec_shows_iff reachable_stackPage noDecode noShadow hstub hrun
    ?_).mpr ⟨by decide, .inl (by decide)⟩⟩
  rw [← Option.isSome_iff_ne_none]
  decide +kernel

/-- **Flags are lost**: XOR sets the zero flag and its trampoline does not. -/
theorem not_exec_shows : ¬∀ (env : HostEnv) (m m' : GuestMemory) (p : Platform) (shadow : Shadow)
    (insns : List Insn) (term : Option BlockTerm) (s : MicroStub) (r r' : RegFile),
    Reachable env AnyCall m → matchMicroStub insns term = some s →
      runInsns env p insns r m = some (r', m') →
      (s.exec (guestPort env) (MicroStub.enter r m shadow)).Shows r' m' := by
  intro hall
  have hflags : (runInsns .fourK noDecode xorRet atStack stackPage).map (fun v => v.1.rflags) =
      some 0x46 := by decide +kernel
  obtain ⟨⟨r', m'⟩, hrun, hr⟩ := Option.map_eq_some_iff.mp hflags
  have hshow := hall .fourK stackPage m' noDecode noShadow xorRet (some .ret) .returnZero atStack r'
    reachable_stackPage (by decide) hrun
  have hlost : (MicroStub.returnZero.exec (guestPort .fourK)
      (MicroStub.enter atStack stackPage noShadow)).rflags = 2 := by decide +kernel
  have := hshow.rflags
  rw [hlost, show r'.rflags = 0x46 from hr] at this
  revert this
  decide

end Wie
