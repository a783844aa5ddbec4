import Wie.Cpu.Operand

/-!
# Instructions on XMM registers

Moves, bitwise operations, floating-point arithmetic and shuffles, as the interpreter executes them.
The arithmetic of floating-point numbers is that of the host, and is given.

## Main definitions

* `FpUnit` — floating-point arithmetic on bit patterns
* `execSseMov`, `execSseBitwise`, `execSseScalarFp`, `execSsePackedFp` — with memory operands
* `movHalves`, `unpack`, `shuffleDwords` — what the shuffles compute
-/

namespace Wie

open Cmd

/-! ### Mnemonics -/

namespace Mnemonic

/-! Mnemonics that the front end of the compiler does not tell apart. The numbers only have to
differ. -/

@[match_pattern] abbrev movhps : Mnemonic := .other 0
@[match_pattern] abbrev movhlps : Mnemonic := .other 1
@[match_pattern] abbrev movlhps : Mnemonic := .other 2
@[match_pattern] abbrev punpcklqdq : Mnemonic := .other 3
@[match_pattern] abbrev punpckhqdq : Mnemonic := .other 4
@[match_pattern] abbrev pshufd : Mnemonic := .other 5
@[match_pattern] abbrev pshufb : Mnemonic := .other 6

end Mnemonic

/-! ### Moves -/

/-- `is_sse_movsd`. -/
def isSseMovsd (i : Insn) : Bool :=
  (i.opRegister 0).isXmm || (i.opRegister 1).isXmm || i.movsdXmmCode

/-- `exec_sse_mov`. -/
def execSseMov (i : Insn) (nbytes : ℕ) (scalarMerge : Bool) : Exec Unit := do
  let v ← i.readSseOp 1 nbytes
  i.writeSseOp 0 v nbytes scalarMerge

/-- `exec_sse_movq`. -/
def execSseMovq (i : Insn) : Exec Unit :=
  if (i.opRegister 0).isXmm || (i.opRegister 1).isXmm then execSseMov i 8 true
  else do
    let v ← i.readOp 1
    i.writeOp 0 v

/-- `exec_sse_movd`. -/
def execSseMovd (i : Insn) : Exec Unit :=
  if (i.opRegister 0).isXmm then do
    let v ← if i.op1Kind = .memory then do
        let addr ← i.address
        readMemValue addr 4
      else do
        let r ← regs
        let v ← Exec.lift (r.readReg (i.opRegister 1))
        pure (v &&& 0xffffffff)
    Exec.update (·.writeXmm (i.opRegister 0) ((v.setWidth 32).setWidth 128))
  else if (i.opRegister 1).isXmm then do
    let r ← regs
    let x ← Exec.lift (r.readXmm (i.opRegister 1))
    let v := x.setWidth 64 &&& 0xffffffff
    if i.op0Kind = .memory then do
      let addr ← i.address
      writeMemValue addr v 4
    else Exec.update (·.writeReg (i.opRegister 0) v)
  else fail (.cpu (.message "movd without xmm"))

/-- The lower half of a value of 128 bits. -/
def lowHalf (v : BitVec 128) : BitVec 128 := v &&& 0xffffffffffffffff

/-- `exec_sse_movhps`. -/
def execSseMovhps (i : Insn) : Exec Unit :=
  if (i.opRegister 0).isXmm then do
    let src ← i.readSseOp 1 8
    Exec.update fun r => do
      let old ← r.readXmm (i.opRegister 0)
      r.writeXmm (i.opRegister 0) (lowHalf old ||| src <<< 64)
  else do
    let r ← regs
    let v ← Exec.lift (r.readXmm (i.opRegister 1))
    i.writeSseOp 0 (v >>> 64) 8 false

/-! ### Bitwise operations and arithmetic -/

/-- The operations of `exec_sse_bitwise`. -/
inductive SseBitOp
  | xor | and | or | andn
deriving DecidableEq

/-- A bitwise operation. -/
def SseBitOp.apply (op : SseBitOp) (a b : BitVec 128) : BitVec 128 :=
  match op with
  | xor => a ^^^ b
  | and => a &&& b
  | or => a ||| b
  | andn => ~~~a &&& b

/-- `exec_sse_bitwise`. -/
def execSseBitwise (i : Insn) (op : SseBitOp) : Exec Unit := do
  let a ← i.readSseOp 0 16
  let b ← i.readSseOp 1 16
  i.writeSseOp 0 (op.apply a b) 16 false

/-- The operations of floating-point arithmetic. -/
inductive FpOp
  | add | sub | mul | div
deriving DecidableEq

/-- Floating-point arithmetic of the host, on bit patterns. -/
structure FpUnit where
  /-- `fp32`. -/
  fp32 : FpOp → BitVec 32 → BitVec 32 → BitVec 32
  /-- `fp64`. -/
  fp64 : FpOp → BitVec 64 → BitVec 64 → BitVec 64

namespace FpUnit

variable (fp : FpUnit)

/-- One lane of 32 or 64 bits. -/
def lane (op : FpOp) (isF64 : Bool) (a b : BitVec 128) (shift : ℕ) : BitVec 128 :=
  if isF64 then (fp.fp64 op ((a >>> shift).setWidth 64) ((b >>> shift).setWidth 64)).setWidth 128
  else (fp.fp32 op ((a >>> shift).setWidth 32) ((b >>> shift).setWidth 32)).setWidth 128

/-- All lanes. -/
def packed (op : FpOp) (isF64 : Bool) (a b : BitVec 128) : BitVec 128 :=
  (List.range (if isF64 then 2 else 4)).foldl (fun out k =>
    let shift := k * if isF64 then 64 else 32
    out ||| fp.lane op isF64 a b shift <<< shift) 0

/-- `exec_sse_scalar_fp`. -/
def execSseScalarFp (i : Insn) (op : FpOp) (isF64 : Bool) : Exec Unit := do
  let nbytes := if isF64 then 8 else 4
  let a ← i.readSseOp 0 nbytes
  let b ← i.readSseOp 1 nbytes
  i.writeSseOp 0 (fp.lane op isF64 a b 0) nbytes true

/-- `exec_sse_packed_fp`. -/
def execSsePackedFp (i : Insn) (op : FpOp) (isF64 : Bool) : Exec Unit := do
  let a ← i.readSseOp 0 16
  let b ← i.readSseOp 1 16
  i.writeSseOp 0 (fp.packed op isF64 a b) 16 false

end FpUnit

/-! ### Shuffles -/

/-- What MOVHLPS and MOVLHPS compute. -/
def movHalves (m : Mnemonic) (dst src : BitVec 128) : BitVec 128 :=
  if m = .movhlps then dst &&& ~~~0xffffffffffffffff#128 ||| lowHalf (src >>> 64)
  else lowHalf dst ||| lowHalf src <<< 64

/-- What PUNPCKLQDQ and PUNPCKHQDQ compute. -/
def unpack (m : Mnemonic) (dst src : BitVec 128) : BitVec 128 :=
  if m = .punpcklqdq then lowHalf dst ||| lowHalf src <<< 64
  else lowHalf (dst >>> 64) ||| src &&& ~~~0xffffffffffffffff#128

/-- A register computed from itself and another. -/
def updateXmm (i : Insn) (f : BitVec 128 → BitVec 128 → BitVec 128) : Exec Unit :=
  Exec.update fun r => do
    let dst ← r.readXmm (i.opRegister 0)
    let src ← r.readXmm (i.opRegister 1)
    r.writeXmm (i.opRegister 0) (f dst src)

/-- `exec_sse_movhlps`. -/
def execSseMovhlps (i : Insn) : Exec Unit := updateXmm i (movHalves i.mnemonic)

/-- `exec_sse_punpck`. -/
def execSsePunpck (i : Insn) : Exec Unit := updateXmm i (unpack i.mnemonic)

/-- The lanes of 32 bits that the control byte selects. -/
def shuffleDwords (src : BitVec 128) (imm8 : BitVec 8) : BitVec 128 :=
  (List.range 4).foldl (fun acc k =>
    let lane := (imm8 >>> (k * 2) &&& 3).toNat
    acc ||| (src >>> (lane * 32) &&& 0xffffffff) <<< (k * 32)) 0

/-- `exec_sse_pshufd`. The control byte is taken from the displacement, and a memory operand is not
read. -/
def execSsePshufd (i : Insn) : Exec Unit :=
  Exec.update fun r => do
    let src ← r.readXmm (i.opRegister (if i.op1Kind = .memory then 0 else 1))
    r.writeXmm (i.opRegister 0) (shuffleDwords src (i.memoryDisplacement64.setWidth 8))

end Wie
