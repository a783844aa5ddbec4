import Wie.Cpu.Operand
import Wie.Jit.Ctx

/-!
# Exchange instructions

XCHG, XADD and CMPXCHG, as the interpreter executes them and as the compiler lowers them. Only the
interpreter's XADD with a LOCK prefix uses an operation of the host that is one step on memory; all
others are a load and then a store.

## Main definitions

* `execXchg`, `execXadd`, `execCmpxchg` — the interpreter
* `Emitted` — emitted code; the compiler says why where it cannot emit it
* `lowerXchg`, `lowerXadd`, `lowerCmpxchg` — the compiler
-/

namespace Wie

open Cmd

/-! ### The interpreter -/

/-- `exec_xchg`. -/
def execXchg (i : Insn) : Exec Unit := do
  let a ← i.readOp 0
  let b ← i.readOp 1
  i.writeOp 0 b
  i.writeOp 1 a

/-- `atomic_fetch_add`: words of four and eight bytes that are aligned. -/
def atomicFetchAdd (addr : BitVec 64) (size : ℕ) (addend : BitVec 64) :
    Exec (Option (BitVec 64)) :=
  if (size = 4 ∨ size = 8) ∧ addr.toNat % size = 0 then do
    let old ← tryFetchAdd addr.toNat size (addend.toNat % 2 ^ (8 * size))
    pure (old.map (BitVec.ofNat 64))
  else pure none

/-- The part of `exec_xadd` with one step on memory; `none` where it is not offered. -/
def lockedXadd (i : Insn) (size : ℕ) (src : BitVec 64) : Exec (Option (BitVec 64)) :=
  if i.hasLockPrefix ∧ i.op0Kind = .memory then do
    let addr ← i.address
    atomicFetchAdd addr size src
  else pure none

/-- `exec_xadd`. -/
def execXadd (i : Insn) : Exec Unit := do
  let size ← Exec.lift (i.opSizeBytes 0)
  let mask := sizeMask size
  let src ← i.readOp 1
  let src := src &&& mask
  let old ← lockedXadd i size src
  match old with
  | some old => do
    let old := old &&& mask
    let sum := old + src &&& mask
    i.writeOp 1 old
    alter fun r => r.setRflags (addFlags r.rflags old src sum size)
  | none => do
    let dst ← i.readOp 0
    let dst := dst &&& mask
    let sum := dst + src &&& mask
    i.writeOp 0 sum
    i.writeOp 1 dst
    alter fun r => r.setRflags (addFlags r.rflags dst src sum size)

/-- The accumulator of a size. -/
def accumulator : ℕ → Register
  | 1 => .gpr8 0
  | 2 => .gpr16 0
  | 4 => .gpr32 0
  | _ => .gpr64 0

/-- `exec_cmpxchg`. The LOCK prefix does nothing. -/
def execCmpxchg (i : Insn) : Exec Unit := do
  let size ← Exec.lift (i.opSizeBytes 0)
  let mask := sizeMask size
  let dst ← i.readOp 0
  let dst := dst &&& mask
  let src ← i.readOp 1
  let src := src &&& mask
  let r ← regs
  let acc ← Exec.lift (r.readReg (accumulator size))
  let acc := acc &&& mask
  alter fun r => r.setRflags (subFlags r.rflags acc dst (acc - dst) size)
  let r ← regs
  if r.flag Rflags.ZF then i.writeOp 0 src
  else Exec.update (·.writeReg (accumulator size) dst)

/-! ### The compiler -/

/-- Emitted code. -/
abbrev Emitted := Cmd RegFile MemFault

/-- `mask_width`. -/
def maskWidth (v : BitVec 64) (bits : ℕ) : BitVec 64 :=
  if 64 ≤ bits then v else v &&& sizeMask (if bits = 32 then 4 else if bits = 16 then 2 else 1)

/-- `sext_to_i64`. -/
def sextToI64 (v : BitVec 64) (bits : ℕ) : BitVec 64 :=
  if bits = 8 then (v.setWidth 8).signExtend 64
  else if bits = 16 then (v.setWidth 16).signExtend 64
  else if bits = 32 then (v.setWidth 32).signExtend 64
  else v

/-- `select_flag`. -/
def selectFlag (cond : Bool) (bit : BitVec 64) : BitVec 64 := if cond then bit else 0

/-- `clear_flags`. -/
def clearFlags (old bits : BitVec 64) : BitVec 64 := old &&& ~~~bits

/-- `replace_flag`. -/
def replaceFlag (flags bit on : BitVec 64) : BitVec 64 := flags &&& ~~~bit ||| on

/-- `pf_flag`. -/
def pfFlag (result : BitVec 64) : BitVec 64 :=
  let x := maskWidth result 8
  let x := x ^^^ x >>> 4
  let x := x ^^^ x >>> 2
  let x := x ^^^ x >>> 1
  selectFlag (x &&& 1 = 0) Rflags.PF

/-- `flags_zs_pf`. -/
def flagsZsPf (old result : BitVec 64) (bits : ℕ) : BitVec 64 :=
  let r := maskWidth result bits
  let f := clearFlags old (Rflags.ZF ||| Rflags.SF ||| Rflags.PF)
  let zf := selectFlag (r = 0) Rflags.ZF
  let sf := selectFlag (r &&& 1 <<< min (bits - 1) 63 ≠ 0) Rflags.SF
  f ||| zf ||| sf ||| pfFlag r

/-- `flags_add`. -/
def flagsAdd (old dst src result : BitVec 64) (bits : ℕ) : BitVec 64 :=
  let d := maskWidth dst bits
  let s := maskWidth src bits
  let r := maskWidth result bits
  let f := clearFlags old
    (Rflags.CF ||| Rflags.ZF ||| Rflags.SF ||| Rflags.PF ||| Rflags.OF ||| Rflags.AF)
  let f := f ||| selectFlag (r < d) Rflags.CF
  let f := flagsZsPf f r bits
  let sb := 1 <<< min (bits - 1) 63
  let f := f ||| selectFlag ((d ^^^ r) &&& (s ^^^ r) &&& sb ≠ 0) Rflags.OF
  f ||| selectFlag ((d ^^^ s ^^^ r) &&& 0x10 ≠ 0) Rflags.AF

/-! #### What the compiler's flags and widths are -/

theorem maskWidth_eq {n : ℕ} (hn : n = 4 ∨ n = 8) (v : BitVec 64) :
    maskWidth v (n * 8) = v &&& sizeMask n := by
  rcases hn with rfl | rfl
  · rfl
  · exact (and_sizeMask_eight v).symm

theorem toNat_sextToI64 (v : BitVec 64) : (sextToI64 v 32).toNat =
    v.toNat % 2 ^ 32 + if 2 ^ 31 ≤ v.toNat % 2 ^ 32 then 2 ^ 64 - 2 ^ 32 else 0 := by
  show ((v.setWidth 32).signExtend 64).toNat = _
  have hmsb : (v.setWidth 32).msb = decide (2 ^ 31 ≤ v.toNat % 2 ^ 32) := by
    rw [BitVec.msb_eq_decide, BitVec.toNat_setWidth]
  rw [BitVec.toNat_signExtend, hmsb, BitVec.toNat_setWidth, BitVec.toNat_setWidth,
    Nat.mod_eq_of_lt (by omega)]
  simp only [decide_eq_true_eq]

theorem getLsbD_selectFlag (b : Bool) {k j : ℕ} (hkj : k ≠ j) :
    (selectFlag b (.twoPow 64 k)).getLsbD j = false := by
  cases b with
  | false => exact BitVec.getLsbD_zero
  | true => rw [selectFlag, if_pos rfl, BitVec.getLsbD_twoPow, decide_eq_false hkj, Bool.and_false]

theorem getLsbD_selectFlag_self (b : Bool) {k : ℕ} (hk : k < 64) :
    (selectFlag b (.twoPow 64 k)).getLsbD k = b := by
  cases b with
  | false => exact BitVec.getLsbD_zero
  | true =>
    rw [selectFlag, if_pos rfl, BitVec.getLsbD_twoPow, decide_eq_true hk, decide_eq_true rfl]
    rfl

theorem has_replaceFlag (flags : BitVec 64) (b : Bool) :
    Rflags.has (replaceFlag flags Rflags.ZF (selectFlag b Rflags.ZF)) Rflags.ZF = b := by
  rw [Rflags.ZF, Rflags.has_twoPow _ (by decide), replaceFlag, BitVec.getLsbD_or,
    getLsbD_selectFlag_self _ (by decide), BitVec.getLsbD_and, BitVec.getLsbD_not,
    BitVec.getLsbD_twoPow]
  simp

theorem has_zf_flagsAdd (old dst src result : BitVec 64) :
    Rflags.has (flagsAdd old dst src result 32) Rflags.ZF =
      decide (result &&& sizeMask 4 = 0) := by
  have hmask : maskWidth (maskWidth result 32) 32 = result &&& sizeMask 4 := by
    rw [maskWidth_eq (n := 4) (.inl rfl), maskWidth_eq (n := 4) (.inl rfl), BitVec.and_assoc,
      BitVec.and_self]
  rw [Rflags.ZF, Rflags.has_twoPow _ (by decide), flagsAdd]
  simp only [BitVec.getLsbD_or, flagsZsPf, pfFlag, hmask, Rflags.OF, Rflags.AF, Rflags.SF,
    Rflags.PF, Rflags.ZF, Rflags.CF, getLsbD_selectFlag _ (show 11 ≠ 6 by decide),
    getLsbD_selectFlag _ (show 4 ≠ 6 by decide), getLsbD_selectFlag _ (show 2 ≠ 6 by decide),
    getLsbD_selectFlag _ (show 7 ≠ 6 by decide), getLsbD_selectFlag_self _ (show 6 < 64 by decide),
    Bool.or_false]
  rw [clearFlags, BitVec.getLsbD_and, BitVec.getLsbD_not]
  simp

/-- `reg_index`. -/
def Register.regIndex : Register → Except String (Fin 16)
  | .gpr64 i | .gpr32 i | .gpr16 i | .gpr8 i => .ok i
  | .gpr8h i => .ok (i.castLE four_le)
  | _ => .error "unsupported reg"

/-- `reg_size_bits`. -/
def Register.sizeBits (reg : Register) : ℕ :=
  if reg.size = 1 then 8 else if reg.size = 2 then 16 else if reg.size = 4 then 32 else 64

/-- `write_gpr`. -/
def Register.writeGpr (reg : Register) : Except String (BitVec 64 → Emitted Unit) :=
  reg.regIndex.bind fun i =>
    match reg.sizeBits, reg with
    | 64, _ => .ok fun v => alter fun r => r.setGpr i v
    | 32, _ => .ok fun v => alter fun r => r.setGpr i ((v.setWidth 32).setWidth 64)
    | 16, _ => .ok fun v => alter fun r =>
      r.setGpr i (r.gpr i &&& ~~~0xffff#64 ||| v &&& 0xffff)
    | _, .gpr8h _ => .error "AH/BH/CH/DH not in JIT v1"
    | _, _ => .ok fun v => alter fun r => r.setGpr i (r.gpr i &&& ~~~0xff#64 ||| v &&& 0xff)

namespace Insn

variable (i : Insn)

/-- The width of the register operand that a memory operand goes with. -/
def peerWidth (op : ℕ) : ℕ := if (i.opRegister op).isXmm then 16 else (i.opRegister op).size

/-- `mem_width_bytes`. -/
def memWidthBytes : Except String ℕ :=
  if i.memorySize.size ∈ [1, 2, 4, 8, 16] then .ok i.memorySize.size
  else if i.memorySize = .segPtr64 then .ok 8
  else if i.op0Kind = .register then checked (i.peerWidth 0)
  else if i.op1Kind = .register then checked (i.peerWidth 1)
  else .error "unsupported mem size"
where
  /-- A width that can be accessed. -/
  checked (size : ℕ) : Except String ℕ :=
    if size ∈ [1, 2, 4, 8, 16] then .ok size else .error s!"bad mem width {size}"

/-- `op_width_bits`. -/
def opWidthBits (op : ℕ) : Except String ℕ :=
  match i.opKind op with
  | .register => .ok (i.opRegister op).sizeBits
  | .memory => (i.memWidthBytes).map (· * 8)
  | _ =>
    if op = 1 ∧ i.op0Kind = .register then .ok (i.opRegister 0).sizeBits
    else if op = 1 ∧ i.op0Kind = .memory then (i.memWidthBytes).map (· * 8)
    else .ok 64

/-- `effective_addr`. -/
def effectiveAddr : Except String (RegFile → BitVec 64) :=
  if i.memoryBase = .rip ∨ i.memoryBase = .eip then .ok fun _ => i.memoryDisplacement64
  else do
    let base ← part i.memoryBase
    let index ← part i.memoryIndex
    let scale := if i.memoryIndexScale ≤ 1 then 1 else i.memoryIndexScale
    .ok fun r => base r + i.memoryDisplacement64 + index r * .ofNat 64 scale
where
  /-- A part of an address. -/
  part (reg : Register) : Except String (RegFile → BitVec 64) :=
    if reg = .none then .ok fun _ => 0 else reg.regIndex.map fun j r => r.gpr j

end Insn

/-- `call_load`: one load of the host, whichever way it is found. -/
def callLoad (addr : BitVec 64) (size : ℕ) : Emitted (BitVec 64) := do
  let buf ← load addr.toNat size ⟨addr, size, false⟩
  pure (.ofNat 64 (fromLe buf))

/-- `call_store`: one store of the host. -/
def callStore (addr : BitVec 64) (size : ℕ) (v : BitVec 64) : Emitted Unit :=
  store addr.toNat (toLe size v.toNat) ⟨addr, size, true⟩

namespace Insn

variable (i : Insn)

/-- `read_gpr`. -/
def readGpr (op : ℕ) : Except String (Emitted (BitVec 64)) :=
  (i.opRegister op).regIndex.map fun j => do
    let r ← regs
    pure (r.gpr j)

/-- `read_op_mem`. -/
def readOpMem (op : ℕ) : Except String (Emitted (BitVec 64)) :=
  match i.opKind op with
  | .register => i.readGpr op
  | .memory => do
    let addr ← i.effectiveAddr
    let width ← i.memWidthBytes
    .ok do
      let r ← regs
      callLoad (addr r) width
  | .immediate8 | .immediate8_2nd | .immediate16 | .immediate32 | .immediate64
  | .immediate8to16 | .immediate8to32 | .immediate8to64 | .immediate32to64 =>
    .ok (pure (i.immediate op))
  | _ => .error "op kind"

/-- The bytes that a store of so many bits has. -/
def storeWidth (bits : ℕ) : Except String ℕ :=
  if bits ∈ [8, 16, 32, 64] then .ok (bits / 8) else .error s!"bad store bits {bits}"

/-- `write_op_mem`. -/
def writeOpMem (op bits : ℕ) : Except String (BitVec 64 → Emitted Unit) :=
  match i.opKind op with
  | .register => (i.opRegister op).writeGpr
  | .memory => do
    let addr ← i.effectiveAddr
    let width ← storeWidth bits
    .ok fun v => do
      let r ← regs
      callStore (addr r) width v
  | _ => .error "write op form"

end Insn

/-- `lower_xadd`. The sum of two operands of 64 bits is cut to 32 bits before it is extended. -/
def lowerXadd (i : Insn) : Except String (Emitted Unit) := do
  let bits ← i.opWidthBits 0
  let readDst ← i.readOpMem 0
  let readSrc ← i.readOpMem 1
  let writeDst ← i.writeOpMem 0 bits
  let writeSrc ← (i.opRegister 1).writeGpr
  .ok do
    let dst ← readDst
    let src ← readSrc
    let dst := maskWidth dst bits
    let src := maskWidth src bits
    let sum := if bits = 64 then dst + src else (dst.setWidth 32 + src.setWidth 32).setWidth 64
    let sum := sextToI64 sum (min bits 32)
    writeDst sum
    writeSrc dst
    alter fun r => r.setRflags (flagsAdd r.rflags dst src sum (min bits 32))

/-- `lower_cmpxchg`. It stores in either case. -/
def lowerCmpxchg (i : Insn) : Except String (Emitted Unit) := do
  let bits ← i.opWidthBits 0
  let readDst ← i.readOpMem 0
  let readSrc ← i.readGpr 1
  let writeDst ← i.writeOpMem 0 bits
  let writeRax ← Register.writeGpr (.gpr64 0)
  .ok do
    let dst ← readDst
    let dst := maskWidth dst bits
    let src ← readSrc
    let r ← regs
    let acc := maskWidth (r.gpr 0) bits
    writeDst (if dst = acc then src else dst)
    writeRax (if dst = acc then r.gpr 0 else sextToI64 dst bits)
    alter fun r => r.setRflags
      (replaceFlag r.rflags Rflags.ZF (selectFlag (dst = acc) Rflags.ZF))

/-- `lower_xchg`. -/
def lowerXchg (i : Insn) : Except String (Emitted Unit) :=
  match i.op0Kind, i.op1Kind with
  | .register, .register => do
    let read0 ← i.readGpr 0
    let read1 ← i.readGpr 1
    let write0 ← (i.opRegister 0).writeGpr
    let write1 ← (i.opRegister 1).writeGpr
    .ok do
      let v0 ← read0
      let v1 ← read1
      write0 v1
      write1 v0
  | .register, .memory => withMemory 0
  | .memory, .register => withMemory 1
  | _, _ => .error "xchg form"
where
  /-- A register and memory. -/
  withMemory (op : ℕ) : Except String (Emitted Unit) := do
    let width ← Insn.storeWidth (i.opRegister op).sizeBits
    let addr ← i.effectiveAddr
    let readReg ← i.readGpr op
    let writeReg ← (i.opRegister op).writeGpr
    .ok do
      let r ← regs
      let v ← callLoad (addr r) width
      let reg ← readReg
      writeReg v
      callStore (addr r) width reg

end Wie
