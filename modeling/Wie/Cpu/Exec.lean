import Wie.Cpu.Exchange
import Wie.Cpu.Integer
import Wie.Cpu.Sse
import Wie.Cpu.StringOps
import Wie.Mem.HostSpan

/-!
# The interpreter

One step fetches, decodes and executes an instruction. The instruction pointer is set to the next
instruction before execution and put back when the instruction fails; nothing else is.

The decoder is given, and so are floating-point arithmetic, the clock, the switch for long string
instructions and the addresses where the host takes over.

## Main definitions

* `Platform` — what is given
* `executeOne` — one instruction
* `GuestStep`, `guestStep` — one step on guest memory
-/

namespace Wie

open Cmd Rflags

/-! ### Mnemonics -/

namespace Mnemonic

/-! The rest of the mnemonics that only the interpreter tells apart. -/

@[match_pattern] abbrev mul : Mnemonic := .other 7
@[match_pattern] abbrev div : Mnemonic := .other 8
@[match_pattern] abbrev idiv : Mnemonic := .other 9
@[match_pattern] abbrev cdq : Mnemonic := .other 10
@[match_pattern] abbrev cqo : Mnemonic := .other 11
@[match_pattern] abbrev clc : Mnemonic := .other 12
@[match_pattern] abbrev stc : Mnemonic := .other 13
@[match_pattern] abbrev cmc : Mnemonic := .other 14
@[match_pattern] abbrev cpuid : Mnemonic := .other 15
@[match_pattern] abbrev rdtsc : Mnemonic := .other 16
@[match_pattern] abbrev inPort : Mnemonic := .other 17
@[match_pattern] abbrev insb : Mnemonic := .other 18
@[match_pattern] abbrev insw : Mnemonic := .other 19
@[match_pattern] abbrev insd : Mnemonic := .other 20
@[match_pattern] abbrev outPort : Mnemonic := .other 21
@[match_pattern] abbrev outsb : Mnemonic := .other 22
@[match_pattern] abbrev outsw : Mnemonic := .other 23
@[match_pattern] abbrev outsd : Mnemonic := .other 24
@[match_pattern] abbrev fnclex : Mnemonic := .other 25
@[match_pattern] abbrev fninit : Mnemonic := .other 26
@[match_pattern] abbrev finit : Mnemonic := .other 27

/-- String instructions; MOVSD is one when it does not name an XMM register. -/
def isString (i : Insn) : Bool :=
  match i.mnemonic with
  | .stosb | .stosw | .stosd | .stosq | .movsb | .movsw | .movsq | .lodsb | .lodsd | .lodsq
  | .scasb | .scasw | .scasd | .scasq | .cmpsb | .cmpsw | .cmpsd | .cmpsq => true
  | .movsd => !isSseMovsd i
  | _ => false

end Mnemonic

/-! ### One instruction -/

/-- What the interpreter is given. -/
structure Platform where
  /-- The decoder: the bytes at an address, if they are an instruction. -/
  decode : List UInt8 → BitVec 64 → Option Insn
  /-- Floating-point arithmetic. -/
  fp : FpUnit
  /-- The clock. -/
  now : BitVec 64
  /-- `string_host_bulk_enabled`. -/
  bulk : Bool
  /-- `should_host_stop` of the hook window, if there is one. -/
  hostStops : BitVec 64 → Bool

/-- A platform that decodes nothing. -/
def noDecode : Platform :=
  ⟨fun _ _ => none, ⟨fun _ a _ => a, fun _ a _ => a⟩, 0, true, fun _ => false⟩

/-- `exec_cbw` and its like: a register is the extension of a part of RAX. -/
def extendInto (reg : Register) (f : BitVec 64 → BitVec 64) : Exec Unit :=
  Exec.update fun r => r.writeReg reg (f (r.gpr 0))

/-- All ones when the part of RAX is negative. -/
def signFill (size : ℕ) (rax : BitVec 64) : BitVec 64 :=
  if (sextOf rax size).msb then sizeMask size else 0

/-- The instructions of `execute_one`. -/
def executeMnemonic (p : Platform) (i : Insn) : Exec Unit :=
  match i.mnemonic with
  | .nop | .fnclex | .fninit | .finit | .endbr64 | .endbr32 | .outPort | .outsb | .outsw | .outsd
  | .pshufb => pure ()
  | .mov => execMov i
  | .movzx => execMovzx i false
  | .movsx | .movsxd => execMovzx i true
  | .lea => execLea i
  | .push => execPush i
  | .pop => execPop i
  | .add => execArith i .add
  | .adc => execArith i .adc
  | .sub => execArith i .sub
  | .sbb => execArith i .sbb
  | .xor => execArith i .xor
  | .or => execArith i .or
  | .and => execArith i .and
  | .cmp => execArith i .cmp
  | .test => execTest i
  | .inc => execIncDec i true
  | .dec => execIncDec i false
  | .neg => execNeg i
  | .not => execNot i
  | .imul => execImul i
  | .mul => execMul i
  | .div => execDiv i false
  | .idiv => execDiv i true
  | .shl | .sal => execShift i .shl
  | .shr => execShift i .shr
  | .sar => execShift i .sar
  | .rol => execShift i .rol
  | .ror => execShift i .ror
  | .jmp => execJmp i
  | .call => execCall i (.ofNat 64 i.nextIp)
  | .ret => execRet i
  | .jcc cc => do
    let r ← regs
    execJcc i (condFromJcc (.jcc cc) r)
  | .cmovcc cc => do
    let r ← regs
    execCmov i (condFromCmov (.cmovcc cc) r)
  | .setcc cc => do
    let r ← regs
    execSetcc i (condFromSetcc (.setcc cc) r)
  | .xchg => execXchg i
  | .xadd => execXadd i
  | .cmpxchg => execCmpxchg i
  | .bswap => execBswap i
  | .bt => execBit i .bt
  | .bts => execBit i .bts
  | .btr => execBit i .btr
  | .btc => execBit i .btc
  | .cdqe => extendInto (.gpr64 0) (sextOf · 4)
  | .cwde => extendInto (.gpr32 0) fun v => sextOf v 2 &&& 0xffffffff
  | .cbw => extendInto (.gpr16 0) fun v => sextOf v 1 &&& 0xffff
  | .cdq => extendInto (.gpr64 2) (signFill 4)
  | .cwd => extendInto (.gpr16 2) (signFill 2)
  | .cqo => extendInto (.gpr64 2) (signFill 8)
  | .cld => alter (·.setFlag DF false)
  | .std => alter (·.setFlag DF true)
  | .clc => alter (·.setFlag CF false)
  | .stc => alter (·.setFlag CF true)
  | .cmc => alter fun r => r.setFlag CF (!r.flag CF)
  | .pushfq => do
    let r ← regs
    pushN r.rflags 8
  | .popfq => do
    let v ← popN 8
    alter (·.setRflags (v &&& ~~~ALWAYS1 ||| ALWAYS1))
  | .leave => do
    alter fun r => r.setGpr 4 (r.gpr 5)
    let v ← popN 8
    alter (·.setGpr 5 v)
  | .stosb => execStos p.bulk i 1
  | .stosw => execStos p.bulk i 2
  | .stosd => execStos p.bulk i 4
  | .stosq => execStos p.bulk i 8
  | .movsb => execMovs p.bulk i 1
  | .movsw => execMovs p.bulk i 2
  | .movsd => if isSseMovsd i then execSseMov i 8 true else execMovs p.bulk i 4
  | .movsq => execMovs p.bulk i 8
  | .lodsb => execLods i 1
  | .lodsd => execLods i 4
  | .lodsq => execLods i 8
  | .scasb => execScas i 1
  | .scasw => execScas i 2
  | .scasd => execScas i 4
  | .scasq => execScas i 8
  | .cmpsb => execCmps i 1
  | .cmpsw => execCmps i 2
  | .cmpsd => execCmps i 4
  | .cmpsq => execCmps i 8
  | .movss => execSseMov i 4 true
  | .movaps | .movups | .movdqa | .movdqu | .movapd | .movupd => execSseMov i 16 false
  | .movq => execSseMovq i
  | .xorps | .xorpd | .pxor => execSseBitwise i .xor
  | .andps | .andpd | .pand => execSseBitwise i .and
  | .orps | .orpd | .por => execSseBitwise i .or
  | .andnps | .andnpd | .pandn => execSseBitwise i .andn
  | .movd => execSseMovd i
  | .movhps => execSseMovhps i
  | .movhlps | .movlhps => execSseMovhlps i
  | .punpcklqdq | .punpckhqdq => execSsePunpck i
  | .pshufd => execSsePshufd i
  | .addss => p.fp.execSseScalarFp i .add false
  | .subss => p.fp.execSseScalarFp i .sub false
  | .mulss => p.fp.execSseScalarFp i .mul false
  | .divss => p.fp.execSseScalarFp i .div false
  | .addsd => p.fp.execSseScalarFp i .add true
  | .subsd => p.fp.execSseScalarFp i .sub true
  | .mulsd => p.fp.execSseScalarFp i .mul true
  | .divsd => p.fp.execSseScalarFp i .div true
  | .addps => p.fp.execSsePackedFp i .add false
  | .subps => p.fp.execSsePackedFp i .sub false
  | .mulps => p.fp.execSsePackedFp i .mul false
  | .divps => p.fp.execSsePackedFp i .div false
  | .addpd => p.fp.execSsePackedFp i .add true
  | .subpd => p.fp.execSsePackedFp i .sub true
  | .mulpd => p.fp.execSsePackedFp i .mul true
  | .divpd => p.fp.execSsePackedFp i .div true
  | .cpuid => alter fun r => (((r.setGpr 0 0).setGpr 3 0).setGpr 1 0).setGpr 2 0
  | .rdtsc => alter fun r => (r.setGpr 0 (p.now &&& 0xffffffff)).setGpr 2 (p.now >>> 32)
  | .inPort => alter (·.setGpr 0 0)
  | .insb | .insw | .insd => if i.hasRepPrefix then alter (·.setGpr 1 0) else pure ()
  | _ => fail (.cpu (.message s!"unimplemented mnemonic at {hex i.ip.toNat}"))

/-- `execute_one`. -/
def executeOne (p : Platform) (i : Insn) : Exec Unit := do
  alter (·.setRip (.ofNat 64 i.nextIp))
  executeMnemonic p i

/-! ### One step -/

/-- `StepResult` of the interpreter: how a step ends. -/
inductive CpuStepResult
  /-- The instruction is done. -/
  | continue
  /-- The host takes over. -/
  | hostStop (address : BitVec 64) (size : ℕ)
  /-- An access was denied. -/
  | invalidMemory (inv : InvalidMem)
deriving DecidableEq

/-- The end of a step, with the registers and guest memory; nothing when the process ends. -/
abbrev GuestStep := Option ((Except CpuError CpuStepResult × RegFile) × GuestMemory)

/-- The rest of `step`, once the instruction is decoded. -/
def executeStep (env : HostEnv) (p : Platform) (i : Insn) (r : RegFile) (m : GuestMemory) :
    GuestStep :=
  match (executeOne p i).run (GuestMemory.device env) r m with
  | none => none
  | some ((.ok (), r'), m') => some ((.ok .continue, r'), m')
  | some ((.error (.invalidMemory inv), r'), m') =>
    some ((.ok (.invalidMemory inv), r'.setRip r.rip), m')
  | some ((.error (.cpu e), r'), m') => some ((.error e, r'.setRip r.rip), m')

/-- `step`. -/
def guestStep (env : HostEnv) (p : Platform) (r : RegFile) (m : GuestMemory) : GuestStep :=
  match m.fetchInto env r.rip.toNat 15 with
  | (.crash, _) => none
  | (.error _, m) =>
    if p.hostStops r.rip then some ((.ok (.hostStop r.rip 1), r), m)
    else some ((.ok (.invalidMemory ⟨ACCESS_FETCH, r.rip, 1, 0⟩), r), m)
  | (.ok bytes, m) =>
    let insn := p.decode bytes r.rip
    if p.hostStops r.rip then
      some ((.ok (.hostStop r.rip ((insn.map fun i => i.len).getD 1)), r), m)
    else
      match insn with
      | none => some ((.error (.message s!"invalid instruction at {hex r.rip.toNat}"), r), m)
      | some i => executeStep env p i r m

end Wie
