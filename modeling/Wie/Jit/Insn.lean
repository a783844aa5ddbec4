import Wie.Jit.Ctx

/-!
# Decoded instructions

What the front end of the compiler asks of a decoded instruction. The decoder is not part of the
repository; an instruction is the record of its answers.

## Main definitions

* `Register`, `OpKind`, `MemorySize`, `Mnemonic` — the vocabulary of the decoder
* `Instruction` — a decoded instruction
-/

namespace Wie

/-- A register operand. -/
inductive Register
  /-- No register. -/
  | none
  /-- The instruction pointer, and its lower half. -/
  | rip | eip
  /-- General registers of 8, 4, 2 and 1 bytes. -/
  | gpr64 (i : Fin 16) | gpr32 (i : Fin 16) | gpr16 (i : Fin 16) | gpr8 (i : Fin 16)
  /-- AH, CH, DH and BH. -/
  | gpr8h (i : Fin 4)
  /-- XMM registers. -/
  | xmm (i : Fin 32)
  /-- Any other register, with its size. -/
  | other (size n : ℕ)
deriving DecidableEq

namespace Register

/-- Size in bytes. -/
def size : Register → ℕ
  | none => 0
  | rip | gpr64 _ => 8
  | eip | gpr32 _ => 4
  | gpr16 _ => 2
  | gpr8 _ | gpr8h _ => 1
  | xmm _ => 16
  | other size _ => size

/-- Whether this is an XMM register. -/
def isXmm : Register → Bool
  | xmm _ => true
  | _ => false

end Register

/-- The kind of an operand. -/
inductive OpKind
  | register | memory
  | nearBranch16 | nearBranch32 | nearBranch64
  | immediate8 | immediate8_2nd | immediate16 | immediate32 | immediate64
  | immediate8to16 | immediate8to32 | immediate8to64 | immediate32to64
  /-- Far branches and the operands of string instructions. -/
  | other (n : ℕ)
deriving DecidableEq

/-- The size of a memory operand. -/
inductive MemorySize
  | uInt8 | int8 | uInt16 | int16 | uInt32 | int32 | uInt64 | int64
  | qwordOffset | segPtr64 | uInt128 | int128 | float128
  /-- Any other type of operand, with its size. -/
  | other (size n : ℕ)
deriving DecidableEq

/-- Size in bytes. -/
def MemorySize.size : MemorySize → ℕ
  | uInt8 | int8 => 1
  | uInt16 | int16 => 2
  | uInt32 | int32 => 4
  | uInt64 | int64 | qwordOffset => 8
  | segPtr64 => 10
  | uInt128 | int128 | float128 => 16
  | other size _ => size

/-- Condition codes of jumps, moves and sets. -/
inductive CondCode
  | e | ne | a | ae | b | be | g | ge | l | le | o | no | s | ns | p | np
deriving DecidableEq

/-- The mnemonics that the front end tells apart. -/
inductive Mnemonic
  | ret | retf | call | jmp | jcc (cc : CondCode)
  | nop | endbr64 | endbr32 | cwde | cdqe | cbw | cwd | cld | std
  | push | pop | pushf | popf | pushfq | popfq | enter | leave
  | lea | mov | movzx | movsx | movsxd | bswap
  | add | adc | sub | sbb | xor | and | or | cmp | test | bt | bts | btr | btc
  | inc | dec | not | neg | imul | xchg | xadd | cmpxchg | bsr
  | shl | sal | shr | sar | rol | ror | rcl | rcr
  | cmovcc (cc : CondCode) | setcc (cc : CondCode)
  | movaps | movups | movdqa | movdqu | movapd | movupd | movss | movsd | movq | movd
  | xorps | xorpd | pxor | andps | andpd | pand | orps | orpd | por | andnps | andnpd | pandn
  | addss | subss | mulss | divss | addsd | subsd | mulsd | divsd
  | addps | subps | mulps | divps | addpd | subpd | mulpd | divpd
  | stosb | stosw | stosd | stosq | movsb | movsw | movsq | lodsb | lodsd | lodsq
  | scasb | scasw | scasd | scasq | cmpsb | cmpsw | cmpsd | cmpsq
  /-- Any other mnemonic. -/
  | other (n : ℕ)
deriving DecidableEq

/-- A decoded instruction. -/
structure Instruction where
  /-- Mnemonic. -/
  mnemonic : Mnemonic
  /-- The first operands, at most five. -/
  ops : List OpKind
  /-- The registers of the operands that are registers. -/
  opRegister : ℕ → Register
  /-- Base of the memory operand. -/
  memoryBase : Register
  /-- Index of the memory operand. -/
  memoryIndex : Register
  /-- Scale of the index. -/
  memoryIndexScale : ℕ
  /-- Displacement, the address itself for RIP-relative operands. -/
  memoryDisplacement64 : BitVec 64
  /-- Size of the memory operand. -/
  memorySize : MemorySize
  /-- Target of a near branch. -/
  nearBranchTarget : ℕ
  /-- Whether the code is one of the two forms of `movsd` on XMM registers. -/
  movsdXmmCode : Bool
  /-- Length in bytes. -/
  len : ℕ
  /-- Address of the next instruction. -/
  nextIp : ℕ

namespace Instruction

/-- Number of operands. -/
def opCount (i : Instruction) : ℕ := i.ops.length

/-- Kind of an operand; that of a missing operand is that of a register. -/
def opKind (i : Instruction) (n : ℕ) : OpKind := i.ops.getD n .register

/-- Kind of the first operand. -/
def op0Kind (i : Instruction) : OpKind := i.opKind 0

/-- Kind of the second operand. -/
def op1Kind (i : Instruction) : OpKind := i.opKind 1

/-- Kind of the third operand. -/
def op2Kind (i : Instruction) : OpKind := i.opKind 2

end Instruction

end Wie
