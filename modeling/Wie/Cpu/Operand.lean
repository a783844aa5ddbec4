import Wie.Cpu.Regs
import Wie.Lib.Bytes
import Wie.Lib.MemProg

/-!
# Operands

How the interpreter comes to the operands of an instruction: registers, immediate numbers, and
memory at an effective address.

## Main definitions

* `Insn` — what the interpreter asks of a decoded instruction
* `Exec` — commands of the interpreter, which fail with a denied access or an error
* `Insn.readOp`, `Insn.writeOp` — operands
* `pushN`, `popN` — the stack
* `Insn.readSseOp`, `Insn.writeSseOp` — operands of 128 bits

## Main results

* `Insn.readOp_memory`, `Insn.writeOp_memory` — memory operands as programs
-/

namespace Wie

/-- A decoded instruction with what the interpreter asks of it besides. -/
structure Insn extends Instruction where
  /-- Its address. -/
  ip : BitVec 64
  /-- The immediate operands. -/
  immediate : ℕ → BitVec 64
  /-- The LOCK prefix. -/
  hasLockPrefix : Bool
  /-- The REP prefix. -/
  hasRepPrefix : Bool
  /-- The REPE prefix. -/
  hasRepePrefix : Bool
  /-- The REPNE prefix. -/
  hasRepnePrefix : Bool

/-- The kind of an access in a report. -/
def ACCESS_READ : ℕ := 0

/-- The kind of an access in a report. -/
def ACCESS_WRITE : ℕ := 1

/-- The kind of an access in a report. -/
def ACCESS_FETCH : ℕ := 16

/-- A denied access. -/
structure InvalidMem where
  /-- What was tried. -/
  accessType : ℕ
  /-- Where. -/
  address : BitVec 64
  /-- Bytes. -/
  size : ℕ
  /-- The value of a write. -/
  value : ℕ
deriving DecidableEq

/-- How an instruction fails. -/
inductive StepExecError
  /-- An access is denied. -/
  | invalidMemory (inv : InvalidMem)
  /-- An error. -/
  | cpu (e : CpuError)
deriving DecidableEq

/-- A command of the interpreter. -/
abbrev Exec := Cmd RegFile StepExecError

/-- What may be an error. -/
def Exec.lift {α : Type} (x : Except CpuError α) : Exec α := Cmd.ofExcept (x.mapError .cpu)

/-- What is no error. -/
theorem Exec.run_lift_ok {α W : Type} {p : MemDevice W} (a : α) {r : RegFile} {w : W} :
    (Exec.lift (.ok a)).run p r w = some ((.ok a, r), w) := rfl

/-- Change the registers, or fail. -/
def Exec.update (f : RegFile → Except CpuError RegFile) : Exec Unit := fun r =>
  match f r with
  | .ok r' => .done (.ok (), r')
  | .error e => .done (.error (.cpu e), r)

/-- A change that is made. -/
theorem Exec.run_update_ok {W : Type} {p : MemDevice W} {f : RegFile → Except CpuError RegFile}
    {r r' : RegFile} (hf : f r = .ok r') (w : W) :
    (Exec.update f).run p r w = some ((.ok (), r'), w) := by
  show (Exec.update f r).run p w = _
  rw [Exec.update, hf]
  rfl

/-- A change that fails. -/
theorem Exec.run_update_error {W : Type} {p : MemDevice W} {f : RegFile → Except CpuError RegFile}
    {r : RegFile} {e : CpuError} (hf : f r = .error e) (w : W) :
    (Exec.update f).run p r w = some ((.error (.cpu e), r), w) := by
  show (Exec.update f r).run p w = _
  rw [Exec.update, hf]
  rfl

open Cmd

/-! ### Memory -/

/-- `read_mem_value`. -/
def readMemValue (addr : BitVec 64) (size : ℕ) : Exec (BitVec 64) :=
  if size = 0 ∨ 8 < size then fail (.cpu (.message s!"bad mem read size {size}"))
  else do
    let buf ← load addr.toNat size (.invalidMemory ⟨ACCESS_READ, addr, size, 0⟩)
    pure (if size ∈ [1, 2, 4, 8] then .ofNat 64 (fromLe buf) else 0)

/-- `write_mem_value`. -/
def writeMemValue (addr value : BitVec 64) (size : ℕ) : Exec Unit :=
  if size = 0 ∨ 8 < size then fail (.cpu (.message s!"bad mem write size {size}"))
  else store addr.toNat (toLe size value.toNat) (.invalidMemory
    ⟨ACCESS_WRITE, addr, size, if value.toNat < 2 ^ 63 then value.toNat else 0⟩)

/-- `push_n`. -/
def pushN (value : BitVec 64) (size : ℕ) : Exec Unit := do
  let r ← regs
  let rsp := r.gpr 4 - .ofNat 64 size
  writeMemValue rsp value size
  alter (·.setGpr 4 rsp)

/-- `pop_n`. -/
def popN (size : ℕ) : Exec (BitVec 64) := do
  let r ← regs
  let v ← readMemValue (r.gpr 4) size
  alter (·.setGpr 4 (r.gpr 4 + .ofNat 64 size))
  pure v

namespace Insn

variable (i : Insn)

/-- `effective_address`. -/
def effectiveAddress (r : RegFile) : Except CpuError (BitVec 64) :=
  if i.memoryBase = .rip ∨ i.memoryBase = .eip then .ok i.memoryDisplacement64
  else do
    let base ← r.readReg i.memoryBase
    let index ← r.readReg i.memoryIndex
    .ok (i.memoryDisplacement64 + base + index * .ofNat 64 i.memoryIndexScale)

/-- `memory_op_size`. -/
def memoryOpSize : Except CpuError ℕ :=
  match i.memorySize with
  | .uInt8 | .int8 => .ok 1
  | .uInt16 | .int16 => .ok 2
  | .uInt32 | .int32 => .ok 4
  | .uInt64 | .int64 | .qwordOffset | .segPtr64 => .ok 8
  | _ =>
    if 0 < i.opCount ∧ i.op0Kind = .register then .ok (i.opRegister 0).size
    else if 1 < i.opCount ∧ i.op1Kind = .register then .ok (i.opRegister 1).size
    else .error (.message "unsupported memory size")

/-- `op_size_bytes`. -/
def opSizeBytes (op : ℕ) : Except CpuError ℕ :=
  match i.opKind op with
  | .register => .ok (i.opRegister op).size
  | .memory => i.memoryOpSize
  | .immediate8 | .immediate8_2nd => .ok 1
  | .immediate16 | .immediate8to16 => .ok 2
  | .immediate32 | .immediate8to32 => .ok 4
  | .immediate64 | .immediate8to64 | .immediate32to64 => .ok 8
  | _ => .error (.message "cannot size op kind")

/-- The effective address, now. -/
def address : Exec (BitVec 64) := do
  let r ← regs
  Exec.lift (i.effectiveAddress r)

/-- `read_op`. -/
def readOp (op : ℕ) : Exec (BitVec 64) :=
  match i.opKind op with
  | .register => do
    let r ← regs
    Exec.lift (r.readReg (i.opRegister op))
  | .memory => do
    let addr ← i.address
    let size ← Exec.lift i.memoryOpSize
    readMemValue addr size
  | .immediate8 | .immediate8_2nd | .immediate16 | .immediate32 | .immediate64
  | .immediate8to16 | .immediate8to32 | .immediate8to64 | .immediate32to64 =>
    pure (i.immediate op)
  | _ => fail (.cpu (.message "unsupported op kind for read"))

/-- `write_op_sized`. -/
def writeOpSized (op : ℕ) (value : BitVec 64) (size : ℕ) : Exec Unit :=
  match i.opKind op with
  | .register => Exec.update (·.writeReg (i.opRegister op) value)
  | .memory => do
    let addr ← i.address
    writeMemValue addr value size
  | _ => fail (.cpu (.message "unsupported op kind for write"))

/-- `write_op`. -/
def writeOp (op : ℕ) (value : BitVec 64) : Exec Unit := do
  let size ← Exec.lift (i.opSizeBytes op)
  i.writeOpSized op value size

/-! ### Operands of 128 bits -/

/-- The low bytes of a value of 128 bits. -/
def lowBytes (nbytes : ℕ) : BitVec 128 :=
  if 16 ≤ nbytes then .allOnes 128 else (1 <<< (nbytes * 8)) - 1

/-- `read_sse_op`. -/
def readSseOp (op nbytes : ℕ) : Exec (BitVec 128) :=
  match i.opKind op with
  | .register =>
    if (i.opRegister op).isXmm then do
      let r ← regs
      let v ← Exec.lift (r.readXmm (i.opRegister op))
      pure (v &&& lowBytes nbytes)
    else do
      let r ← regs
      let v ← Exec.lift (r.readReg (i.opRegister op))
      pure (v.setWidth 128)
  | .memory => do
    let addr ← i.address
    if 16 < nbytes then fail (.cpu (.message "sse read size"))
    else do
      let buf ← load addr.toNat nbytes (.invalidMemory ⟨ACCESS_READ, addr, nbytes, 0⟩)
      pure (.ofNat 128 (fromLe buf))
  | _ => fail (.cpu (.message "sse read op kind"))

/-- What `write_sse_op` puts into a register: a scalar leaves the rest of it. -/
def mergeSse (old value : BitVec 128) (nbytes : ℕ) (scalarMerge : Bool) : BitVec 128 :=
  if scalarMerge && nbytes < 16 then old &&& ~~~(lowBytes nbytes) ||| value &&& lowBytes nbytes
  else value &&& lowBytes nbytes

/-- `write_sse_op`. -/
def writeSseOp (op : ℕ) (value : BitVec 128) (nbytes : ℕ) (scalarMerge : Bool) : Exec Unit :=
  match i.opKind op with
  | .register =>
    if (i.opRegister op).isXmm then
      Exec.update fun r => do
        let old ← r.readXmm (i.opRegister op)
        r.writeXmm (i.opRegister op) (mergeSse old value nbytes scalarMerge)
    else fail (.cpu (.message "sse write op kind"))
  | .memory => do
    let addr ← i.address
    if 16 < nbytes then fail (.cpu (.message "sse write size"))
    else
      store addr.toNat (toLe nbytes value.toNat)
        (.invalidMemory ⟨ACCESS_WRITE, addr, nbytes, 0⟩)
  | _ => fail (.cpu (.message "sse write op kind"))

/-! ### Operands as programs -/

section programs

variable {i} {op n : ℕ} {r r' : RegFile} {a v : BitVec 64}

theorem readOp_register (hk : i.opKind op = .register)
    (hv : r.readReg (i.opRegister op) = .ok v) : i.readOp op r = .done (.ok v, r) := by
  rw [readOp, hk]
  show Exec.lift (r.readReg (i.opRegister op)) r = _
  rw [hv]
  rfl

theorem readOp_memory (hk : i.opKind op = .memory) (ha : i.effectiveAddress r = .ok a)
    (hs : i.memoryOpSize = .ok n) (hn : n ∈ [1, 2, 4, 8]) :
    i.readOp op r = .read a.toNat n fun bytes => .done (match bytes with
      | some bs => (.ok (.ofNat 64 (fromLe bs)), r)
      | none => (.error (.invalidMemory ⟨ACCESS_READ, a, n, 0⟩), r)) := by
  have hrange : ¬(n = 0 ∨ 8 < n) := by
    simp only [List.mem_cons, List.not_mem_nil, or_false] at hn
    omega
  rw [readOp, hk]
  simp only [address, bind_apply, regs, MemProg.bind, andThen, ha, hs, Exec.lift, Except.mapError,
    Cmd.ofExcept, readMemValue, hrange, if_false, load, hn, if_true]
  congr 1
  funext bytes
  cases bytes with
  | none => rfl
  | some bs => rfl

theorem writeOp_register (hk : i.opKind op = .register)
    (hv : r.writeReg (i.opRegister op) v = .ok r') : i.writeOp op v r = .done (.ok (), r') := by
  rw [writeOp, opSizeBytes, hk]
  show i.writeOpSized op v _ r = _
  rw [writeOpSized, hk]
  show Exec.update _ r = _
  rw [Exec.update, hv]

theorem writeOp_memory (hk : i.opKind op = .memory) (ha : i.effectiveAddress r = .ok a)
    (hs : i.memoryOpSize = .ok n) (hn : n ∈ [1, 2, 4, 8]) :
    i.writeOp op v r = .write a.toNat (toLe n v.toNat) fun ok => .done
      (if ok then .ok () else .error (.invalidMemory
        ⟨ACCESS_WRITE, a, n, if v.toNat < 2 ^ 63 then v.toNat else 0⟩), r) := by
  have hrange : ¬(n = 0 ∨ 8 < n) := by
    simp only [List.mem_cons, List.not_mem_nil, or_false] at hn
    omega
  rw [writeOp, opSizeBytes, hk]
  simp only [writeOpSized, hk, address, bind_apply, regs, MemProg.bind, andThen, ha, hs, Exec.lift,
    Except.mapError, Cmd.ofExcept, writeMemValue, hrange, if_false, store]

end programs

end Insn

end Wie
