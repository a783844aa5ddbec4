import Wie.Lib.Bank

/-!
# The context of compiled code

Compiled blocks do not work on the register file of their thread. `run_compiled` copies registers
into a `JitCtx`, the blocks of a chain pass that context on from one to the next, and registers are
copied back once the chain has returned.

The masks of the source (`u16`, one bit for each register) are sets of registers here. Guest memory
is a parameter: blocks reach it through the load and store helpers, and nothing below depends on
what these do to it. The TLB, the pins and the sticky pages only serve the helpers and stand with
the memory; the counters that feed the statistics are left out.

## Main definitions

* `RegFile` — the registers of a thread
* `MemPort` — what the load and store helpers do to guest memory
* `Core`, `JitCtx` — the context, split into what a block computes with and its bookkeeping
* `Core.load`, `Core.store` — the helpers
-/

namespace Wie

/-- The general registers, RAX to R15 in encoding order. -/
abbrev Gprs := Bank 16 (BitVec 64)

/-- The XMM registers. -/
abbrev Xmms := Bank 16 (BitVec 128)

/-- A set of registers of one bank, a `u16` in the source. -/
abbrev Mask := Finset (Fin 16)

/-- The architectural registers of a thread. -/
@[ext]
structure RegFile where
  /-- General registers. -/
  gpr : Gprs
  /-- XMM registers. -/
  xmm : Xmms
  /-- Instruction pointer. -/
  rip : BitVec 64
  /-- Flags. -/
  rflags : BitVec 64

/-- Depth of the shadow return stack. -/
def SHADOW_DEPTH : ℕ := 32

/-- The shadow return stack: predicted return addresses, indexed modulo the depth. -/
structure Shadow where
  /-- Push count. -/
  sp : BitVec 64
  /-- Predicted return addresses. -/
  ret : Fin SHADOW_DEPTH → BitVec 64

/-- Pop the prediction of a return to `retVa`; a mismatch drops all predictions. -/
def Shadow.popCheck (s : Shadow) (retVa : BitVec 64) : Shadow :=
  if s.sp = 0 then s
  else
    let sp1 := s.sp - 1
    let idx : Fin SHADOW_DEPTH := ⟨sp1.toNat % SHADOW_DEPTH, Nat.mod_lt _ (by decide)⟩
    if s.ret idx = retVa then { s with sp := sp1 } else { s with sp := 0 }

/-- A denied access: `fault_addr`, `fault_size` and `fault_access` of the context. -/
structure MemFault where
  /-- Guest address. -/
  addr : BitVec 64
  /-- Bytes accessed. -/
  size : ℕ
  /-- Whether the access was a store. -/
  write : Bool
deriving DecidableEq

/-- Guest memory as the helpers see it. A load may change what stands with the memory (it fills
the TLB); `none` and `false` are denied accesses. -/
structure MemPort (W : Type) where
  /-- Read `size` bytes, little endian. -/
  load : W → BitVec 64 → (size : ℕ) → W × Option (BitVec 64)
  /-- Write the low `size` bytes of a value. -/
  store : W → BitVec 64 → (size : ℕ) → BitVec 64 → W × Bool

/-- What blocks compute with, the XMM bank apart. -/
structure Core (W : Type) where
  /-- General registers. -/
  gpr : Gprs
  /-- Flags. -/
  rflags : BitVec 64
  /-- Instruction pointer; that of the faulting instruction after a fault. -/
  rip : BitVec 64
  /-- The fault that ended the run, if any. -/
  fault : Option MemFault
  /-- The shadow return stack. -/
  shadow : Shadow
  /-- Guest memory. -/
  mem : W

/-- The context compiled code runs on. -/
structure JitCtx (W : Type) extends Core W where
  /-- The XMM bank. -/
  xmm : Xmms
  /-- The general registers trampolines report as changed. -/
  gprDirtyBits : Mask
  /-- The XMM registers stored to. -/
  xmmDirtyBits : Mask
  /-- Nested host calls so far. -/
  chainDepth : ℕ

namespace Core

variable {W : Type}

/-- Record a fault at the instruction `insnIp`. -/
def setFault (c : Core W) (insnIp addr : BitVec 64) (size : ℕ) (write : Bool) : Core W :=
  { c with fault := some ⟨addr, size, write⟩, rip := insnIp }

/-- `wie_jit_load`. -/
def load (p : MemPort W) (c : Core W) (addr : BitVec 64) (size : ℕ) (insnIp : BitVec 64) :
    BitVec 64 × Core W :=
  if c.fault.isSome then (0, c)
  else if size = 0 ∨ 8 < size then (0, c.setFault insnIp addr size false)
  else match p.load c.mem addr size with
    | (w, some v) => (v, { c with mem := w })
    | (w, none) => (0, setFault { c with mem := w } insnIp addr size false)

/-- `wie_jit_store`. -/
def store (p : MemPort W) (c : Core W) (addr : BitVec 64) (size : ℕ) (value insnIp : BitVec 64) :
    Core W :=
  if c.fault.isSome then c
  else if size = 0 ∨ 8 < size then c.setFault insnIp addr size true
  else match p.store c.mem addr size value with
    | (w, true) => { c with mem := w }
    | (w, false) => setFault { c with mem := w } insnIp addr size true

@[simp]
theorem setFault_gpr (c : Core W) (insnIp addr : BitVec 64) (size : ℕ) (write : Bool) :
    (c.setFault insnIp addr size write).gpr = c.gpr := rfl

/-- A load leaves the general registers alone. -/
@[simp]
theorem load_gpr (p : MemPort W) (c : Core W) (addr : BitVec 64) (size : ℕ) (insnIp : BitVec 64) :
    (c.load p addr size insnIp).2.gpr = c.gpr := by
  unfold load
  split
  · rfl
  · split
    · rfl
    · split <;> rfl

/-- So does a store. -/
@[simp]
theorem store_gpr (p : MemPort W) (c : Core W) (addr : BitVec 64) (size : ℕ)
    (value insnIp : BitVec 64) : (c.store p addr size value insnIp).gpr = c.gpr := by
  unfold store
  split
  · rfl
  · split
    · rfl
    · split <;> rfl

end Core

end Wie
