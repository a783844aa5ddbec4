import Wie.Lib.Word
import Wie.Jit.Insn

/-!
# Forming a block

`decode_pure_gpr_block` reads guest code as data, fifteen bytes at a time, and collects instructions
until one that ends the block or cannot be lowered. The hook of the host is asked at the start of
the block only. A jump to the next address is dropped.

## Main definitions

* `classifyTerminator`, `isLowerable`, `isStringOp` — the instructions of a block
* `HookWindow.shouldHostStop`
* `decodePureGprBlock`
-/

namespace Wie

/-- Block exit control flow. -/
inductive BlockTerm
  /-- Unconditional near jump. -/
  | jmp (target : ℕ)
  /-- Conditional near jump. -/
  | jcc (cc : CondCode) (taken notTaken : ℕ)
  /-- Near call. -/
  | call (target returnIp : ℕ)
  /-- Near return. -/
  | ret
deriving DecidableEq

namespace Instruction

variable (i : Instruction)

/-- `is_near_branch`. -/
def isNearBranch : Bool :=
  match i.op0Kind with
  | .nearBranch16 | .nearBranch32 | .nearBranch64 => true
  | _ => false

/-- `classify_terminator`. -/
def classifyTerminator : Option BlockTerm :=
  match i.mnemonic with
  | .ret => if i.opCount ≥ 1 then none else some .ret
  | .call => if i.isNearBranch then some (.call i.nearBranchTarget i.nextIp) else none
  | .jmp => if i.isNearBranch then some (.jmp i.nearBranchTarget) else none
  | .jcc cc => if i.isNearBranch then some (.jcc cc i.nearBranchTarget i.nextIp) else none
  | _ => none

/-! ### Operands -/

/-- `is_imm_kind`. -/
def isImmKind : OpKind → Bool
  | .immediate8 | .immediate8_2nd | .immediate16 | .immediate32 | .immediate64
  | .immediate8to16 | .immediate8to32 | .immediate8to64 | .immediate32to64 => true
  | _ => false

/-- `mem_ea_ok`. -/
def memEaOk : Bool :=
  i.memoryIndex = .none || i.memoryIndexScale ∈ [1, 2, 4, 8]

/-- A size that the register of an operand may have. -/
def peerSizeOk (n : ℕ) : Bool := (i.opRegister n).size ∈ [1, 2, 4, 8]

/-- `mem_size_ok`. -/
def memSizeOk : Bool :=
  i.memorySize ∈ [.uInt8, .int8, .uInt16, .int16, .uInt32, .int32, .uInt64, .int64, .qwordOffset,
    .segPtr64] ||
  if i.op0Kind = .register then i.peerSizeOk 0
  else if i.op1Kind = .register then i.peerSizeOk 1 else false

/-- `mem_size_ok_sse`. -/
def memSizeOkSse : Bool := i.memorySize.size ∈ [4, 8, 16] || i.memSizeOk

/-- A memory operand for a general register. -/
def memOk : Bool := i.memEaOk && i.memSizeOk

/-- A memory operand for an XMM register. -/
def memOkSse : Bool := i.memEaOk && i.memSizeOkSse

/-! ### What can be lowered -/

/-- `sse_mov_is_lowerable`. -/
def sseMovIsLowerable : Bool :=
  match i.op0Kind, i.op1Kind with
  | .register, .register => (i.opRegister 0).isXmm && (i.opRegister 1).isXmm
  | .register, .memory => (i.opRegister 0).isXmm && i.memOkSse
  | .memory, .register => (i.opRegister 1).isXmm && i.memOkSse
  | _, _ => false

/-- `sse_movq_is_lowerable`. -/
def sseMovqIsLowerable : Bool :=
  let r0 := i.opRegister 0
  let r1 := i.opRegister 1
  match i.op0Kind, i.op1Kind with
  | .register, .register =>
    (r0.isXmm && r1.isXmm) || (r0.isXmm && r1.size == 8) || (r0.size == 8 && r1.isXmm)
  | .register, .memory => (r0.isXmm || r0.size == 8) && i.memOkSse
  | .memory, .register => (r1.isXmm || r1.size == 8) && i.memOkSse
  | _, _ => false

/-- `sse_movd_is_lowerable`. -/
def sseMovdIsLowerable : Bool :=
  let r0 := i.opRegister 0
  let r1 := i.opRegister 1
  match i.op0Kind, i.op1Kind with
  | .register, .register => (r0.isXmm && r1.size == 4) || (r0.size == 4 && r1.isXmm)
  | .register, .memory => r0.isXmm && i.memOkSse
  | .memory, .register => r1.isXmm && i.memOkSse
  | _, _ => false

/-- `sse_bitwise_is_lowerable`; the scalar and packed arithmetic has the same forms. -/
def sseBitwiseIsLowerable : Bool :=
  if i.op0Kind ≠ .register ∨ (i.opRegister 0).isXmm = false then false
  else
    match i.op1Kind with
    | .register => (i.opRegister 1).isXmm
    | .memory => i.memOkSse
    | _ => false

/-- `shift_is_lowerable`: the count is an immediate or CL. -/
def shiftIsLowerable : Bool :=
  let dstOk := match i.op0Kind with
    | .register => true
    | .memory => i.memOk
    | _ => false
  dstOk && if isImmKind i.op1Kind then true
    else if i.op1Kind = .register then
      i.opRegister 1 ∈ [.gpr8 1, .gpr16 1, .gpr32 1, .gpr64 1]
    else false

/-- `cmov_is_lowerable` and `movx_is_lowerable`: to a register, from a register or memory. -/
def toRegisterIsLowerable : Bool :=
  if i.op0Kind ≠ .register then false
  else
    match i.op1Kind with
    | .register => true
    | .memory => i.memOk
    | _ => false

/-- `setcc_is_lowerable` and `unary_is_lowerable`: a register or memory. -/
def unaryIsLowerable : Bool :=
  match i.op0Kind with
  | .register => true
  | .memory => i.memOk
  | _ => false

/-- `alu_is_lowerable` and `mov_is_lowerable`. -/
def aluIsLowerable : Bool :=
  match i.op0Kind, i.op1Kind with
  | .register, .register => true
  | .register, .memory | .memory, .register => i.memOk
  | .register, k => isImmKind k
  | .memory, k => isImmKind k && i.memOk
  | _, _ => false

/-- `imul_is_lowerable`: the forms with two and three operands. -/
def imulIsLowerable : Bool :=
  match i.opCount with
  | 2 => i.aluIsLowerable
  | 3 => i.toRegisterIsLowerable && isImmKind i.op2Kind
  | _ => false

/-- `xchg_is_lowerable`. -/
def xchgIsLowerable : Bool :=
  match i.op0Kind, i.op1Kind with
  | .register, .register => true
  | .register, .memory | .memory, .register => i.memOk
  | _, _ => false

/-- `push_is_lowerable`: no 16-bit registers. -/
def pushIsLowerable : Bool :=
  match i.op0Kind with
  | .register => (i.opRegister 0).size ≠ 2
  | .memory => i.memOk
  | k => isImmKind k

/-- `pop_is_lowerable`. -/
def popIsLowerable : Bool :=
  match i.op0Kind with
  | .register => (i.opRegister 0).size ≠ 2
  | .memory => i.memOk
  | _ => false

/-- `lea_is_simple`. -/
def leaIsSimple : Bool := i.op0Kind = .register && i.op1Kind = .memory && i.memEaOk

/-- `sse_movsd_is_sse`: the mnemonic is also that of a string instruction. -/
def sseMovsdIsSse : Bool := (i.opRegister 0).isXmm || (i.opRegister 1).isXmm || i.movsdXmmCode

/-- `is_lowerable`. -/
def isLowerable : Bool :=
  match i.mnemonic with
  | .nop | .endbr64 | .endbr32 | .cwde | .cdqe | .cbw | .cwd | .cld | .std | .pushfq | .popfq
  | .leave => true
  | .lea => i.leaIsSimple
  | .mov => i.aluIsLowerable
  | .movzx | .movsx | .movsxd => i.toRegisterIsLowerable
  | .push => i.pushIsLowerable
  | .pop => i.popIsLowerable
  | .bswap => i.op0Kind = .register && (i.opRegister 0).size ∈ [4, 8]
  | .add | .adc | .sub | .sbb | .xor | .and | .or | .cmp | .test | .bt | .bts | .btr | .btc =>
    i.aluIsLowerable
  | .inc | .dec | .not | .neg => i.unaryIsLowerable
  | .imul => i.imulIsLowerable
  | .xchg => i.xchgIsLowerable
  | .shl | .sal | .shr | .sar | .rol | .ror | .rcl | .rcr => i.shiftIsLowerable
  | .xadd | .cmpxchg =>
    match i.op0Kind, i.op1Kind with
    | .register, .register => true
    | .memory, .register => i.memOk
    | _, _ => false
  | .bsr =>
    match i.op0Kind, i.op1Kind with
    | .register, .register => true
    | .register, .memory => i.memOk
    | _, _ => false
  | .cmovcc _ => i.toRegisterIsLowerable
  | .setcc _ => i.unaryIsLowerable
  | .movaps | .movups | .movdqa | .movdqu | .movss | .movapd | .movupd => i.sseMovIsLowerable
  | .movsd => if i.sseMovsdIsSse then i.sseMovIsLowerable else true
  | .movq => i.sseMovqIsLowerable
  | .movd => i.sseMovdIsLowerable
  | .xorps | .xorpd | .pxor | .andps | .andpd | .pand | .orps | .orpd | .por | .andnps | .andnpd
  | .pandn | .addss | .subss | .mulss | .divss | .addsd | .subsd | .mulsd | .divsd | .addps | .subps
  | .mulps | .divps | .addpd | .subpd | .mulpd | .divpd => i.sseBitwiseIsLowerable
  | .stosb | .stosw | .stosd | .stosq | .movsb | .movsw | .movsq | .lodsb | .lodsd | .lodsq
  | .scasb | .scasw | .scasd | .scasq | .cmpsb | .cmpsw | .cmpsd | .cmpsq => true
  | .ret | .retf | .call | .jmp | .jcc _ | .pushf | .popf | .enter | .other _ => false

/-- `is_string_op`. -/
def isStringOp : Bool :=
  match i.mnemonic with
  | .stosb | .stosw | .stosd | .stosq | .movsb | .movsw | .movsq | .lodsb | .lodsd | .lodsq
  | .scasb | .scasw | .scasd | .scasq | .cmpsb | .cmpsw | .cmpsd | .cmpsq => true
  | .movsd => !i.sseMovsdIsSse
  | _ => false

end Instruction

/-! ### Hooks -/

/-- The hook window of the host, with its bitmap of stops. -/
structure HookWindow where
  /-- First address. -/
  begin_ : ℕ
  /-- Last address. -/
  end_ : ℕ
  /-- One bit for each address, set for a stop; empty when every address is one. -/
  stopBitmap : List UInt8

/-- `should_host_stop`. -/
def HookWindow.shouldHostStop (h : HookWindow) (address : ℕ) : Bool :=
  if h.stopBitmap = [] then decide (h.begin_ ≤ address ∧ address ≤ h.end_)
  else if address < h.begin_ then false
  else
    let offset := address - h.begin_
    if offset ≥ satAdd (h.end_ - h.begin_) 1 then false
    else
      match h.stopBitmap[offset / 8]? with
      | some byte => byte.toNat.testBit (offset % 8)
      | none => true

/-! ### The block -/

/-- The decoder: the instruction that the bytes begin with at an address, if they begin with a valid
one. -/
abbrev Decoder := List UInt8 → ℕ → Option Instruction

/-- The result of trying to form a block. -/
inductive BlockKind
  /-- A block that can be lowered. -/
  | pure (insns : List Instruction) (endRip bytesLen : ℕ) (term : Option BlockTerm)
  /-- Left to the interpreter. -/
  | notPure

/-- Most instructions of a block. -/
def MAX_BLOCK_INSNS : ℕ := 96

/-- Fewest instructions of a block that falls through. -/
def MIN_BLOCK_INSNS : ℕ := 2

/-- Bytes the decoder is given. -/
def FETCH_WINDOW : ℕ := 15

/-- The variables of the loop of `decode_pure_gpr_block`. -/
structure BlockScan where
  /-- Instructions so far. -/
  insns : List Instruction
  /-- Address of the next one. -/
  rip : ℕ
  /-- Bytes so far. -/
  bytesLen : ℕ
  /-- The terminator. -/
  term : Option BlockTerm

/-- A jump to the next instruction. -/
def Instruction.isSkip (i : Instruction) : Bool := i.classifyTerminator = some (.jmp i.nextIp)

/-- Where decoding ends after a terminator. -/
def BlockTerm.endRip (next : ℕ) : BlockTerm → ℕ
  | .jmp target | .call target _ => target
  | .jcc _ _ notTaken => notTaken
  | .ret => next

/-- The loop of `decode_pure_gpr_block`, with `rounds` rounds to go. -/
def scanBlock (decode : Decoder) (read : ℕ → ℕ → Option (List UInt8)) :
    (rounds : ℕ) → BlockScan → BlockScan
  | 0, s => s
  | rounds + 1, s =>
    match (read s.rip FETCH_WINDOW).bind fun buf => decode buf s.rip with
    | none => s
    | some i =>
      let bytesLen := satAdd32 s.bytesLen i.len
      match i.classifyTerminator with
      | some t =>
        if i.isSkip then scanBlock decode read rounds { s with rip := i.nextIp, bytesLen := bytesLen }
        else ⟨s.insns ++ [i], t.endRip i.nextIp, bytesLen, some t⟩
      | none =>
        if !i.isLowerable then s
        else
          let s := { s with insns := s.insns ++ [i], rip := i.nextIp, bytesLen := bytesLen }
          -- string instructions end a block
          if i.isStringOp then s else scanBlock decode read rounds s

/-- `decode_pure_gpr_block`. -/
def decodePureGprBlock (decode : Decoder) (read : ℕ → ℕ → Option (List UInt8))
    (hooks : Option HookWindow) (start : ℕ) : BlockKind :=
  if hooks.any (·.shouldHostStop start) then .notPure
  else
    let s := scanBlock decode read MAX_BLOCK_INSNS ⟨[], start, 0, none⟩
    let min := if s.term.isSome ∨ (s.insns.getLast?.any Instruction.isStringOp) then 1
      else MIN_BLOCK_INSNS
    if s.insns.length < min then .notPure else .pure s.insns s.rip s.bytesLen s.term

end Wie
