import Wie.Lib.Bank
import Wie.Lib.Bytes

/-!
# Machine code

A part of the x86-64 instruction set: the encodings of the moves, comparisons, jumps and string
instructions that short hand-written routines are made of. Bytes that encode something else have no
meaning here.

Left out are, among others, addresses relative to the instruction pointer, scaled indices,
displacements of 32 bits, and the registers AH to DH.

## Main definitions

* `X86.Width`, `X86.MemRef`, `X86.Operand`, `X86.Cond` — operands and conditions
* `X86.Instr` — the instructions
* `X86.decode` — the instruction at the head of a list of bytes, with its length
-/

namespace Wie

namespace X86

/-! ### Instructions -/

/-- The size of an operand. -/
inductive Width
  | byte | word | dword | qword
  deriving DecidableEq

/-- Size in bytes. -/
def Width.bytes : Width → ℕ
  | .byte => 1
  | .word => 2
  | .dword => 4
  | .qword => 8

/-- The numbers of that size are those below. -/
def Width.range (w : Width) : ℕ := 256 ^ w.bytes

/-- An address: a base, an index perhaps, and a displacement. -/
structure MemRef where
  /-- Base register. -/
  base : Fin 16
  /-- Index register. -/
  index : Option (Fin 16)
  /-- Displacement. -/
  disp : ℤ
  deriving DecidableEq

/-- An operand. -/
inductive Operand
  | reg (r : Fin 16)
  | mem (m : MemRef)
  | imm (v : ℤ)
  deriving DecidableEq

/-- A condition on the flags. -/
inductive Cond
  | b | ae | e | ne | be | a | s | ns
  deriving DecidableEq

/-- What is done with two operands. -/
inductive AluOp
  | cmp | test | xor
  deriving DecidableEq

/-- An instruction. Jumps are relative to the next instruction. -/
inductive Instr
  /-- MOV. -/
  | mov (w : Width) (dst src : Operand)
  /-- MOVZX of a byte to 32 bits. -/
  | movzx (dst : Fin 16) (src : Operand)
  /-- LEA. -/
  | lea (w : Width) (dst : Fin 16) (m : MemRef)
  /-- CMP, TEST or XOR. -/
  | alu (op : AluOp) (w : Width) (dst src : Operand)
  /-- INC. -/
  | inc (w : Width) (dst : Operand)
  /-- DEC. -/
  | dec (w : Width) (dst : Operand)
  /-- PUSH. -/
  | push (r : Fin 16)
  /-- POP. -/
  | pop (r : Fin 16)
  /-- A conditional jump. -/
  | jcc (c : Cond) (rel : ℤ)
  /-- JMP. -/
  | jmp (rel : ℤ)
  /-- JMP to an address. -/
  | jmpTo (dst : Operand)
  /-- CLD. -/
  | cld
  /-- STOS. -/
  | stos (w : Width)
  /-- REP MOVS. -/
  | repMovs (w : Width)
  /-- RET. -/
  | ret
  deriving DecidableEq

/-! ### Decoding -/

/-- The bytes as a number in two's complement. -/
def signed (bs : List UInt8) : ℤ :=
  if 2 * fromLe bs < 256 ^ bs.length then fromLe bs else fromLe bs - 256 ^ bs.length

/-- The bits of a REX prefix. -/
structure Rex where
  /-- The prefix is there. -/
  present : Bool
  /-- Operands of 64 bits. -/
  w : Bool
  /-- The upper half of the registers, for the register field. -/
  r : Bool
  /-- The same for the index. -/
  x : Bool
  /-- The same for the base, the other operand, or the register in the opcode. -/
  b : Bool

/-- No prefix. -/
def Rex.none : Rex := ⟨false, false, false, false, false⟩

/-- The prefix that a byte is, if it is one. -/
def Rex.ofByte (n : ℕ) : Rex :=
  ⟨true, n / 8 % 2 = 1, n / 4 % 2 = 1, n / 2 % 2 = 1, n % 2 = 1⟩

/-- A register from three bits and the bit of the prefix. -/
def regOf (upper : Bool) (n : ℕ) : Fin 16 := Fin.ofNat 16 (n % 8 + if upper then 8 else 0)

/-- The operand size. -/
def Rex.width (rex : Rex) (opsize : Bool) : Width :=
  if rex.w then .qword else if opsize then .word else .dword

/-- The base and index of a SIB byte, without scaling. -/
def sib (rex : Rex) (n : ℕ) : Option (Fin 16 × Option (Fin 16)) :=
  if 64 ≤ n ∨ n % 8 = 5 then none
  else
    let index := regOf rex.x (n / 8)
    some (regOf rex.b n, if index = 4 then none else some index)

/-- The register field and the other operand of a ModRM byte, and the bytes they take. -/
def modRM (rex : Rex) : List UInt8 → Option (Fin 16 × Operand × ℕ)
  | [] => none
  | m :: rest =>
    let reg := regOf rex.r (m.toNat / 8)
    if m.toNat / 64 = 3 then some (reg, .reg (regOf rex.b m.toNat), 1)
    else if m.toNat / 64 = 2 ∨ m.toNat % 8 = 5 ∧ m.toNat / 64 = 0 then none
    else
      let place := if m.toNat % 8 = 4 then
          rest.head?.bind fun b => (sib rex b.toNat).map fun p => (p.1, p.2, rest.tail, 2)
        else some (regOf rex.b m.toNat, none, rest, 1)
      place.bind fun (base, index, rest, n) =>
        if m.toNat / 64 = 0 then some (reg, .mem ⟨base, index, 0⟩, n)
        else rest.head?.map fun d => (reg, .mem ⟨base, index, signed [d]⟩, n + 1)

/-- The conditions by their numbers. -/
def cond (n : ℕ) : Option Cond :=
  [none, none, some .b, some .ae, some .e, some .ne, some .be, some .a, some .s, some .ns].getD n
    none

/-- `n` bytes, if there are so many. -/
def imm (n : ℕ) (bs : List UInt8) : Option (List UInt8) :=
  if n ≤ bs.length then some (bs.take n) else none

/-- A register of 8 bits is one of the lowest bytes. -/
def Rex.byteOk (rex : Rex) : Operand → Bool
  | .reg r => rex.present || decide (r.val < 4)
  | _ => true

/-- Instructions with a ModRM byte: the operation on the register field, the other operand, and the
bytes after them. -/
def withModRM (rex : Rex) (bs : List UInt8)
    (f : Fin 16 → Operand → List UInt8 → Option (Instr × ℕ)) : Option (Instr × ℕ) :=
  (modRM rex bs).bind fun (reg, rm, n) => (f reg rm (bs.drop n)).map fun (i, k) => (i, n + k)

/-- Opcodes of two bytes. -/
def decode0F (rex : Rex) (bs : List UInt8) : Option (Instr × ℕ) :=
  bs.head?.bind fun op =>
    if op = 0xb6 then
      (withModRM rex bs.tail fun reg rm _ =>
        if rex.byteOk rm then some (.movzx reg rm, 0) else none).map fun (i, n) => (i, n + 1)
    else if op.toNat / 16 = 8 then
      (cond (op.toNat % 16)).bind fun c => (imm 4 bs.tail).map fun v => (.jcc c (signed v), 5)
    else none

/-- The instruction after the prefixes: the opcode, and the bytes after it. The length counts those
alone. -/
def decodeOp (opsize rep : Bool) (rex : Rex) (op : UInt8) (bs : List UInt8) :
    Option (Instr × ℕ) :=
  let w := rex.width opsize
  if op = 0x0f then decode0F rex bs
  else if op = 0x31 then withModRM rex bs fun reg rm _ => some (.alu .xor w rm (.reg reg), 0)
  else if op = 0x39 then withModRM rex bs fun reg rm _ => some (.alu .cmp w rm (.reg reg), 0)
  else if op.toNat / 8 = 0x50 / 8 then some (.push (regOf rex.b op.toNat), 0)
  else if op.toNat / 8 = 0x58 / 8 then some (.pop (regOf rex.b op.toNat), 0)
  else if op.toNat / 16 = 7 then
    (cond (op.toNat % 16)).bind fun c => (imm 1 bs).map fun v => (.jcc c (signed v), 1)
  else if op = 0x81 then
    withModRM rex bs fun reg rm rest => if reg.val % 8 = 7 then
      (imm 4 rest).map fun v => (.alu .cmp w rm (.imm (signed v)), 4) else none
  else if op = 0x83 then
    withModRM rex bs fun reg rm rest => if reg.val % 8 = 7 then
      (imm 1 rest).map fun v => (.alu .cmp w rm (.imm (signed v)), 1) else none
  else if op = 0x84 then
    withModRM rex bs fun reg rm _ => if rex.byteOk rm && rex.byteOk (.reg reg) then
      some (.alu .test .byte rm (.reg reg), 0) else none
  else if op = 0x85 then withModRM rex bs fun reg rm _ => some (.alu .test w rm (.reg reg), 0)
  else if op = 0x89 then withModRM rex bs fun reg rm _ => some (.mov w rm (.reg reg), 0)
  else if op = 0x8b then withModRM rex bs fun reg rm _ => some (.mov w (.reg reg) rm, 0)
  else if op = 0x8d then
    withModRM rex bs fun reg rm _ => match rm with
      | .mem m => some (.lea w reg m, 0)
      | _ => none
  else if op = 0xa5 then if rep then some (.repMovs w, 0) else none
  else if op = 0xab then if rep then none else some (.stos w, 0)
  else if op.toNat / 8 = 0xb0 / 8 then
    if rex.byteOk (.reg (regOf rex.b op.toNat)) then
      (imm 1 bs).map fun v => (.mov .byte (.reg (regOf rex.b op.toNat)) (.imm (fromLe v)), 1)
    else none
  else if op.toNat / 8 = 0xb8 / 8 then
    (imm w.bytes bs).map fun v => (.mov w (.reg (regOf rex.b op.toNat)) (.imm (fromLe v)), w.bytes)
  else if op = 0xc3 then some (.ret, 0)
  else if op = 0xe9 then (imm 4 bs).map fun v => (.jmp (signed v), 4)
  else if op = 0xeb then (imm 1 bs).map fun v => (.jmp (signed v), 1)
  else if op = 0xf6 then
    withModRM rex bs fun reg rm rest => if reg.val % 8 = 0 && rex.byteOk rm then
      (imm 1 rest).map fun v => (.alu .test .byte rm (.imm (fromLe v)), 1) else none
  else if op = 0xfc then some (.cld, 0)
  else if op = 0xff then
    withModRM rex bs fun reg rm _ =>
      if reg.val % 8 = 0 then some (.inc w rm, 0)
      else if reg.val % 8 = 1 then some (.dec w rm, 0)
      else if reg.val % 8 = 4 then some (.jmpTo rm, 0)
      else none
  else none

/-- The instruction after the prefixes of legacy kind. -/
def decodeRex (opsize rep : Bool) (bs : List UInt8) : Option (Instr × ℕ) :=
  bs.head?.bind fun b =>
    if b.toNat / 16 = 4 then
      bs.tail.head?.bind fun op =>
        (decodeOp opsize rep (.ofByte b.toNat) op bs.tail.tail).map fun (i, n) => (i, n + 2)
    else (decodeOp opsize rep .none b bs.tail).map fun (i, n) => (i, n + 1)

/-- The instruction that the bytes begin with, and its length. -/
def decode (bs : List UInt8) : Option (Instr × ℕ) :=
  bs.head?.bind fun b =>
    if b = 0x66 then (decodeRex true false bs.tail).map fun (i, n) => (i, n + 1)
    else if b = 0xf3 then (decodeRex false true bs.tail).map fun (i, n) => (i, n + 1)
    else decodeRex false false bs

example : decode [0x44, 0x8d, 0x48, 0x01, 0xc3] = some (.lea .dword 9 ⟨0, none, 1⟩, 4) := by decide

example : decode [0x0f, 0xb6, 0x04, 0x1e] = some (.movzx 0 (.mem ⟨6, some 3, 0⟩), 4) := by decide

end X86

end Wie
