import Mathlib.Algebra.Order.Ring.Int
import Wie.Cpu.Operand

/-!
# Integer instructions

Moves, arithmetic, shifts, bit tests and branches, as the interpreter executes them. What an
instruction computes from its operands is a function; a command fetches the operands, calls the
function and stores what comes out.

The order of the steps of a command is that of the source: flags are set before a result is stored.

## Main definitions

* `CondCode.holds` — conditions
* `ArithOp.result`, `ArithOp.flags` — the eight operations of `execArith`
* `ShiftKind.shift`, `shiftFlags` — shifts and rotations
* `multiply`, `multiplySigned`, `divide`, `divideWide` — products and quotients in RAX and RDX
* `execMov` and its like — the instructions
-/

namespace Wie

open Cmd Rflags

/-! ### Numbers -/

/-- `sign_extend`. -/
def sextOf (v : BitVec 64) (size : ℕ) : BitVec 64 :=
  (v <<< (64 - size * 8)).sshiftRight (64 - size * 8)

/-- A general register of a size. -/
def sized : ℕ → Fin 16 → Register
  | 1 => .gpr8
  | 2 => .gpr16
  | 4 => .gpr32
  | _ => .gpr64

/-! ### Conditions -/

/-- A condition on flags. -/
def CondCode.holds (r : RegFile) : CondCode → Bool
  | .e => r.flag ZF
  | .ne => !r.flag ZF
  | .a => !r.flag CF && !r.flag ZF
  | .ae => !r.flag CF
  | .b => r.flag CF
  | .be => r.flag CF || r.flag ZF
  | .g => !r.flag ZF && r.flag SF == r.flag OF
  | .ge => r.flag SF == r.flag OF
  | .l => r.flag SF != r.flag OF
  | .le => r.flag ZF || r.flag SF != r.flag OF
  | .o => r.flag OF
  | .no => !r.flag OF
  | .s => r.flag SF
  | .ns => !r.flag SF
  | .p => r.flag PF
  | .np => !r.flag PF

/-- `cond_from_jcc`. -/
def condFromJcc (m : Mnemonic) (r : RegFile) : Bool :=
  match m with
  | .jcc cc => cc.holds r
  | _ => false

/-- `cond_from_cmov`. -/
def condFromCmov (m : Mnemonic) (r : RegFile) : Bool :=
  match m with
  | .cmovcc cc => cc.holds r
  | _ => false

/-- `cond_from_setcc`. -/
def condFromSetcc (m : Mnemonic) (r : RegFile) : Bool :=
  match m with
  | .setcc cc => cc.holds r
  | _ => false

/-! ### Moves -/

/-- `exec_mov`. -/
def execMov (i : Insn) : Exec Unit := do
  let src ← i.readOp 1
  i.writeOp 0 src

/-- `exec_movzx`. -/
def execMovzx (i : Insn) (sign : Bool) : Exec Unit := do
  let srcSize ← Exec.lift (i.opSizeBytes 1)
  let dstSize ← Exec.lift (i.opSizeBytes 0)
  let raw ← i.readOp 1
  let narrow := raw &&& sizeMask srcSize
  i.writeOpSized 0 (if sign then sextOf narrow srcSize else narrow) dstSize

/-- `exec_lea`. -/
def execLea (i : Insn) : Exec Unit := do
  let addr ← i.address
  Exec.update (·.writeReg (i.opRegister 0) addr)

/-- How much PUSH and POP move: registers of two bytes are the exception. -/
def stackSize (i : Insn) : ℕ :=
  if i.op0Kind = .register ∧ (i.opRegister 0).size = 2 then 2 else 8

/-- `exec_push`. -/
def execPush (i : Insn) : Exec Unit := do
  let v ← i.readOp 0
  pushN v (stackSize i)

/-- `exec_pop`. -/
def execPop (i : Insn) : Exec Unit := do
  let v ← popN (stackSize i)
  i.writeOp 0 v

/-- `exec_cmov`. -/
def execCmov (i : Insn) (taken : Bool) : Exec Unit :=
  if taken then do
    let src ← i.readOp 1
    i.writeOp 0 src
  else pure ()

/-- `exec_setcc`. -/
def execSetcc (i : Insn) (taken : Bool) : Exec Unit :=
  i.writeOp 0 (if taken then 1 else 0)

/-- The bytes of a value the other way round. -/
def swapBytes (n : ℕ) (v : BitVec 64) : BitVec 64 :=
  .ofNat 64 (fromLe (toLe n v.toNat).reverse)

/-- `exec_bswap`. -/
def execBswap (i : Insn) : Exec Unit :=
  Exec.update fun r => do
    let reg := i.opRegister 0
    let v ← r.readReg reg
    if reg.size = 4 ∨ reg.size = 8 then r.writeReg reg (swapBytes reg.size v)
    else .error (.message s!"bswap size {reg.size}")

/-! ### Addition, subtraction and logic -/

/-- The operations of `exec_arith`. -/
inductive ArithOp
  | add | adc | sub | sbb | xor | or | and | cmp
deriving DecidableEq

/-- The carry flag as a number. -/
def carry (f : BitVec 64) : BitVec 64 := if has f CF then 1 else 0

namespace ArithOp

/-- The result, not yet of the width of the operands. -/
def result (op : ArithOp) (f d s : BitVec 64) : BitVec 64 :=
  match op with
  | add => d + s
  | adc => d + s + carry f
  | sub | cmp => d - s
  | sbb => d - s - carry f
  | xor => d ^^^ s
  | or => d ||| s
  | and => d &&& s

/-- The flags. -/
def flags (op : ArithOp) (f d s : BitVec 64) (size : ℕ) : BitVec 64 :=
  let mask := sizeMask size
  let cf := carry f
  let result := op.result f d s
  match op with
  | add => addFlags f d s result size
  | adc =>
    put (addFlags f d (s + cf) result size) CF (mask.toNat < d.toNat + s.toNat + cf.toNat)
  | sub | cmp => subFlags f d s result size
  | sbb =>
    let expected := (sextOf d size).toInt - (sextOf s size).toInt - cf.toNat
    let f := put (subFlags f d s result size) CF (d.toNat < s.toNat + cf.toNat)
    put f OF (expected ≠ (sextOf (result &&& mask) size).toInt)
  | xor | or | and => logicFlags f result size

end ArithOp

/-- `exec_arith`. -/
def execArith (i : Insn) (op : ArithOp) : Exec Unit := do
  let size ← Exec.lift (i.opSizeBytes 0)
  let dst ← i.readOp 0
  let src ← i.readOp 1
  let mask := sizeMask size
  let d := dst &&& mask
  let s := src &&& mask
  let r ← regs
  alter (·.setRflags (op.flags r.rflags d s size))
  if op = .cmp then pure () else i.writeOp 0 (op.result r.rflags d s &&& mask)

/-- `exec_test`. -/
def execTest (i : Insn) : Exec Unit := do
  let size ← Exec.lift (i.opSizeBytes 0)
  let a ← i.readOp 0
  let b ← i.readOp 1
  alter fun r => r.setRflags (logicFlags r.rflags (a &&& b &&& sizeMask size) size)

/-- The result of INC and DEC. -/
def incDecResult (inc : Bool) (dst : BitVec 64) : BitVec 64 := if inc then dst + 1 else dst - 1

/-- The flags of INC and DEC, which leave the carry flag. -/
def incDecFlags (inc : Bool) (f dst : BitVec 64) (size : ℕ) : BitVec 64 :=
  let result := incDecResult inc dst
  put (if inc then addFlags f dst 1 result size else subFlags f dst 1 result size) CF (has f CF)

/-- `exec_inc_dec`. -/
def execIncDec (i : Insn) (inc : Bool) : Exec Unit := do
  let size ← Exec.lift (i.opSizeBytes 0)
  let dst ← i.readOp 0
  let dst := dst &&& sizeMask size
  alter fun r => r.setRflags (incDecFlags inc r.rflags dst size)
  i.writeOp 0 (incDecResult inc dst &&& sizeMask size)

/-- The flags of NEG. -/
def negFlags (f dst : BitVec 64) (size : ℕ) : BitVec 64 :=
  put (subFlags f 0 dst (0 - dst) size) CF (dst ≠ 0)

/-- `exec_neg`. -/
def execNeg (i : Insn) : Exec Unit := do
  let size ← Exec.lift (i.opSizeBytes 0)
  let dst ← i.readOp 0
  let dst := dst &&& sizeMask size
  alter fun r => r.setRflags (negFlags r.rflags dst size)
  i.writeOp 0 (0 - dst &&& sizeMask size)

/-- `exec_not`. -/
def execNot (i : Insn) : Exec Unit := do
  let size ← Exec.lift (i.opSizeBytes 0)
  let dst ← i.readOp 0
  let dst := dst &&& sizeMask size
  i.writeOp 0 (~~~dst &&& sizeMask size)

/-! ### Products and quotients -/

/-- The flags of a signed product: whether it fits. -/
def imulFlags (f : BitVec 64) (product : ℤ) (size : ℕ) : BitVec 64 :=
  let bits := if size = 1 ∨ size = 2 ∨ size = 4 then 8 * size else 64
  let overflow : Bool := product < -2 ^ (bits - 1) ∨ 2 ^ (bits - 1) ≤ product
  put (put f CF overflow) OF overflow

/-- `write_imul_product`. -/
def multiplySigned (r : RegFile) (product : ℤ) (size : ℕ) : Except CpuError RegFile := do
  let lo := BitVec.ofInt 64 product
  let r ← if size = 1 then r.writeReg (.gpr16 0) (lo &&& 0xffff)
    else do
      let bits := if size = 2 ∨ size = 4 then 8 * size else 64
      let r ← r.writeReg (sized size 0) (lo &&& sizeMask size)
      r.writeReg (sized size 2) (.ofInt 64 (product / 2 ^ bits) &&& sizeMask size)
  .ok (r.setRflags (imulFlags r.rflags product size))

/-- `exec_imul`. -/
def execImul (i : Insn) : Exec Unit :=
  match i.opCount with
  | 1 => do
    let size ← Exec.lift (i.opSizeBytes 0)
    let src ← i.readOp 0
    let src := src &&& sizeMask size
    Exec.update fun r => multiplySigned r
      ((sextOf (r.gpr 0 &&& sizeMask size) size).toInt * (sextOf src size).toInt) size
  | 2 => do
    let size ← Exec.lift (i.opSizeBytes 0)
    let dst ← i.readOp 0
    let dst := dst &&& sizeMask size
    let src ← i.readOp 1
    let src := src &&& sizeMask size
    let product := (sextOf dst size).toInt * (sextOf src size).toInt
    i.writeOp 0 (.ofInt 64 product &&& sizeMask size)
    alter fun r => r.setRflags (imulFlags r.rflags product size)
  | 3 => do
    let size ← Exec.lift (i.opSizeBytes 0)
    let src ← i.readOp 1
    let src := src &&& sizeMask size
    let imm ← i.readOp 2
    let imm := imm &&& sizeMask size
    let product := (sextOf src size).toInt * (sextOf imm size).toInt
    i.writeOp 0 (.ofInt 64 product &&& sizeMask size)
    alter fun r => r.setRflags (imulFlags r.rflags product size)
  | nops => fail (.cpu (.message s!"imul with {nops} operands"))

/-- The end of `exec_mul`. -/
def multiply (r : RegFile) (src : BitVec 64) (size : ℕ) : Except CpuError RegFile := do
  let product := (r.gpr 0 &&& sizeMask size).toNat * src.toNat
  let bits := if size = 1 ∨ size = 2 ∨ size = 4 then 8 * size else 64
  let r ← if size = 1 then r.writeReg (.gpr16 0) (.ofNat 64 product &&& 0xffff)
    else do
      let r ← r.writeReg (sized size 0) (.ofNat 64 product &&& sizeMask size)
      r.writeReg (sized size 2) (.ofNat 64 (product / 2 ^ bits) &&& sizeMask size)
  let hi : Bool := product / 2 ^ bits ≠ 0
  .ok ((r.setFlag CF hi).setFlag OF hi)

/-- `exec_mul`. -/
def execMul (i : Insn) : Exec Unit := do
  let size ← Exec.lift (i.opSizeBytes 0)
  let src ← i.readOp 0
  let src := src &&& sizeMask size
  Exec.update fun r => multiply r src size

/-- The division of AX by a byte. -/
def divideByte (r : RegFile) (divisor : BitVec 64) (signed : Bool) : Except CpuError RegFile := do
  let dividend ← r.readReg (.gpr16 0)
  let dividend := dividend &&& 0xffff
  if signed then
    let num := (dividend.setWidth 16).toInt
    let den := ((sextOf divisor 1).setWidth 16).toInt
    -- `checked_div` fails for one quotient; the others are cut to a byte
    if num = -2 ^ 15 ∧ den = -1 then .error (.message "idiv overflow")
    else
      let q := BitVec.ofInt 8 (num.tdiv den)
      let rem := BitVec.ofInt 8 (num.tmod den)
      r.writeReg (.gpr16 0) (rem.setWidth 64 <<< 8 ||| q.setWidth 64)
  else
    let q := dividend / divisor
    let rem := dividend % divisor
    if 0xff < q then .error (.message "div overflow")
    else r.writeReg (.gpr16 0) ((rem &&& 0xff) <<< 8 ||| q &&& 0xff)

/-- The division of a number in two registers. -/
def divideWide (r : RegFile) (divisor : BitVec 64) (size : ℕ) (signed : Bool) :
    Except CpuError RegFile := do
  let bits := if size = 2 ∨ size = 4 then 8 * size else 64
  let lo ← r.readReg (sized size 0)
  let hi ← r.readReg (sized size 2)
  if signed then
    let num := (sextOf hi (bits / 8)).toInt * 2 ^ bits + lo.toNat
    let den := (sextOf divisor (bits / 8)).toInt
    if num = -2 ^ (2 * bits - 1) ∧ den = -1 then .error (.message "idiv overflow")
    else
      let q := num.tdiv den
      if q < -2 ^ (bits - 1) ∨ 2 ^ (bits - 1) ≤ q then .error (.message "idiv overflow")
      else do
        let r ← r.writeReg (sized size 0) (.ofInt 64 q &&& sizeMask size)
        r.writeReg (sized size 2) (.ofInt 64 (num.tmod den) &&& sizeMask size)
  else
    let dividend := hi.toNat * 2 ^ bits + lo.toNat
    let q := dividend / divisor.toNat
    if 2 ^ bits ≤ q then .error (.message "div overflow")
    else do
      let r ← r.writeReg (sized size 0) (.ofNat 64 q &&& sizeMask size)
      r.writeReg (sized size 2) (.ofNat 64 (dividend % divisor.toNat) &&& sizeMask size)

/-- The division of `exec_div`. -/
def divide (r : RegFile) (divisor : BitVec 64) (size : ℕ) (signed : Bool) :
    Except CpuError RegFile :=
  if size = 1 then divideByte r divisor signed else divideWide r divisor size signed

/-- `exec_div`. -/
def execDiv (i : Insn) (signed : Bool) : Exec Unit := do
  let size ← Exec.lift (i.opSizeBytes 0)
  let divisor ← i.readOp 0
  let divisor := divisor &&& sizeMask size
  if divisor = 0 then
    let name := if signed then "idiv" else "div"
    fail (.cpu (.message s!"{name} by zero at {hex i.ip.toNat}"))
  else Exec.update fun r => divide r divisor size signed

/-! ### Bits and shifts -/

/-- The operations of `exec_bit`. -/
inductive BitOp
  | bt | bts | btr | btc
deriving DecidableEq

/-- What becomes of the bit. -/
def BitOp.apply (op : BitOp) (v mask : BitVec 64) : BitVec 64 :=
  match op with
  | bt => v
  | bts => v ||| mask
  | btr => v &&& ~~~mask
  | btc => v ^^^ mask

/-- Where the bit is in a bit string in memory: a byte, and the bit in it. -/
def bitPlace (base bitOffset : BitVec 64) : BitVec 64 × BitVec 64 :=
  (base + .ofInt 64 (bitOffset.toInt / 8), 1 <<< (bitOffset.toInt % 8).toNat)

/-- `exec_bit`. -/
def execBit (i : Insn) (op : BitOp) : Exec Unit := do
  let bitOffset ← i.readOp 1
  match i.op0Kind with
  | .register => do
    let size := (i.opRegister 0).size
    let v ← i.readOp 0
    let v := v &&& sizeMask size
    let mask : BitVec 64 := 1 <<< (bitOffset.toNat % 2 ^ 32 % (size * 8))
    alter (·.setFlag CF (v &&& mask ≠ 0))
    if op = .bt then pure () else i.writeOp 0 (op.apply v mask)
  | .memory => do
    let base ← i.address
    let place := bitPlace base bitOffset
    let buf ← load place.1.toNat 1 (.invalidMemory ⟨ACCESS_READ, place.1, 1, 0⟩)
    let v : BitVec 64 := .ofNat 64 (fromLe buf)
    alter (·.setFlag CF (v &&& place.2 ≠ 0))
    if op = .bt then pure () else writeMemValue place.1 (op.apply v place.2) 1
  | _ => fail (.cpu (.message "bt op0 kind"))

/-- The operations of `exec_shift`. -/
inductive ShiftKind
  | shl | shr | sar | rol | ror
deriving DecidableEq

/-- How far a shift goes. -/
def shiftCount (countRaw : BitVec 64) (size : ℕ) : ℕ :=
  let count := countRaw.toNat % 64
  if size * 8 = 64 then count else if size * 8 = 0 then 0 else count % (size * 8)

/-- The result of a shift, and the last bit that was shifted out. -/
def ShiftKind.shift (kind : ShiftKind) (dst : BitVec 64) (count size : ℕ) : BitVec 64 × Bool :=
  let bits := size * 8
  let mask := sizeMask size
  match kind with
  | shl =>
    ((dst <<< count) &&& mask, count ≤ bits && (dst <<< (count - 1) >>> (bits - 1)).getLsbD 0)
  | shr => ((dst >>> count) &&& mask, (dst >>> (count - 1)).getLsbD 0)
  | sar =>
    let signed := sextOf dst size
    (signed.sshiftRight count &&& mask, (signed >>> (count - 1)).getLsbD 0)
  | rol =>
    let r := (dst <<< count ||| dst >>> (bits - count)) &&& mask
    (r, r.getLsbD 0)
  | ror =>
    let r := (dst >>> count ||| dst <<< (bits - count)) &&& mask
    (r, (r >>> (bits - 1)).getLsbD 0)

/-- The overflow flag of a shift by one. -/
def ShiftKind.overflow (kind : ShiftKind) (dst result : BitVec 64) (size : ℕ) : Bool :=
  let sign := signBit size
  let bit (k : ℕ) := (result >>> k).getLsbD 0
  match kind with
  | shl => (result ^^^ dst) &&& sign ≠ 0
  | shr => dst &&& sign ≠ 0
  | sar => false
  | rol => result >>> (size * 8 - 1) ^^^ result &&& 1 ≠ 0
  | ror => bit (size * 8 - 1) != bit (size * 8 - 2)

/-- The flags of a shift. Rotations leave ZF, SF and PF. -/
def shiftFlags (kind : ShiftKind) (f dst : BitVec 64) (count size : ℕ) : BitVec 64 :=
  let (result, cf) := kind.shift dst count size
  let f := put f CF cf
  let f := if kind = .rol ∨ kind = .ror then f
    else
      put (put (put f ZF (result = 0)) SF (result &&& signBit size ≠ 0)) PF
        (parityEven (result.setWidth 8))
  if count = 1 then put f OF (kind.overflow dst result size) else f

/-- `exec_shift`. -/
def execShift (i : Insn) (kind : ShiftKind) : Exec Unit := do
  let size ← Exec.lift (i.opSizeBytes 0)
  let dst ← i.readOp 0
  let dst := dst &&& sizeMask size
  let countRaw ← i.readOp 1
  let count := shiftCount countRaw size
  if count = 0 then pure ()
  else do
    alter fun r => r.setRflags (shiftFlags kind r.rflags dst count size)
    i.writeOp 0 (kind.shift dst count size).1

/-! ### Branches -/

/-- `branch_target`. -/
def branchTarget (i : Insn) : Exec (BitVec 64) :=
  match i.op0Kind with
  | .nearBranch64 | .nearBranch32 | .nearBranch16 => pure (.ofNat 64 i.nearBranchTarget)
  | .register => do
    let r ← regs
    Exec.lift (r.readReg (i.opRegister 0))
  | .memory => i.readOp 0
  | _ => fail (.cpu (.message "unsupported branch op kind"))

/-- Another instruction pointer. -/
def RegFile.setRip (r : RegFile) (v : BitVec 64) : RegFile := { r with rip := v }

/-- `exec_jmp`. -/
def execJmp (i : Insn) : Exec Unit := do
  let target ← branchTarget i
  alter (·.setRip target)

/-- `exec_jcc`. -/
def execJcc (i : Insn) (taken : Bool) : Exec Unit :=
  if taken then alter (·.setRip (.ofNat 64 i.nearBranchTarget)) else pure ()

/-- `exec_call`. -/
def execCall (i : Insn) (returnIp : BitVec 64) : Exec Unit := do
  let target ← branchTarget i
  pushN returnIp 8
  alter (·.setRip target)

/-- `exec_ret`. -/
def execRet (i : Insn) : Exec Unit := do
  let ret ← popN 8
  if 1 ≤ i.opCount ∧ i.op0Kind = .immediate16 then
    alter fun r => r.setGpr 4 (r.gpr 4 + i.immediate 0)
  alter (·.setRip ret)

end Wie
