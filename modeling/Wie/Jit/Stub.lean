import Wie.Jit.Ctx

/-!
# Micro-stub trampolines

Guest stubs of one to three instructions that end in a plain `ret` are not compiled. Each has a
hand-written trampoline, which works on the context as a compiled block does and reports the
general registers it may change.

## Main definitions

* `MicroStub` — the stubs that have a trampoline
* `MicroStub.dirtyMask` — the registers a stub reports
* `MicroStub.exec` — what its trampoline does up to the lookup of a successor

## Main results

* `MicroStub.exec_gpr` — a trampoline changes no register it does not report
-/

namespace Wie

/-- The guest stubs that have a trampoline. -/
inductive MicroStub where
  /-- `ret`. -/
  | ret
  /-- `xor eax, eax; ret`. -/
  | returnZero
  /-- `mov rax, rcx; ret`. -/
  | identityRcx
  /-- `mov eax, imm32; ret`. -/
  | returnImm32 (imm : BitVec 32)
  /-- `mov rax, TEB_LAST_ERROR_VA; mov eax, [rax]; ret`. -/
  | getLastError
  /-- `mov rax, TEB_LAST_ERROR_VA; mov [rax], ecx; ret`. -/
  | setLastError
deriving DecidableEq

/-- Guest address of the last-error value. -/
def TEB_LAST_ERROR_VA : BitVec 64 := 0x68

/-- The constants that have a trampoline of their own; the others read theirs from guest code. -/
def imm32Table : List (BitVec 32) := [0, 1, 0x0409, 0x1234, 0x5678, 437, 1252, 12345]

namespace Core

variable {W : Type}

/-- Write a general register. -/
def setGpr (c : Core W) (i : Fin 16) (v : BitVec 64) : Core W :=
  { c with gpr := Function.update c.gpr i v }

/-- Pop the return address into RIP. -/
def guestRet (p : MemPort W) (c : Core W) : Core W :=
  if c.fault.isSome then c
  else
    let rsp := c.gpr 4
    let (retVa, c) := c.load p rsp 8 c.rip
    if c.fault.isSome then c
    else { c.setGpr 4 (rsp + 8) with shadow := c.shadow.popCheck retVa, rip := retVa }

theorem setGpr_of_ne (c : Core W) {i j : Fin 16} (h : j ≠ i) (v : BitVec 64) :
    (c.setGpr i v).gpr j = c.gpr j := by
  simp only [setGpr]
  exact Function.update_of_ne h v c.gpr

/-- A return changes no general register but RSP. -/
theorem guestRet_gpr (p : MemPort W) (c : Core W) {i : Fin 16} (h : i ≠ 4) :
    (c.guestRet p).gpr i = c.gpr i := by
  unfold guestRet
  split
  · rfl
  · dsimp only
    split
    · rw [load_gpr]
    · change ((c.load p (c.gpr 4) 8 c.rip).2.setGpr 4 _).gpr i = _
      rw [setGpr_of_ne _ h, load_gpr]

end Core

namespace MicroStub

variable {W : Type}

/-- The general registers a stub may change: RSP, and RAX where it returns a value. -/
def dirtyMask : MicroStub → Mask
  | ret | setLastError => {4}
  | returnZero | returnImm32 _ | getLastError | identityRcx => {0, 4}

theorem dirtyMask_ne_empty (s : MicroStub) : s.dirtyMask ≠ ∅ := by
  cases s <;> simp [dirtyMask]

/-- The trampoline of a stub, up to its `chain_tail`. -/
def exec (p : MemPort W) (s : MicroStub) (c : Core W) : Core W :=
  match s with
  | ret => c.guestRet p
  | returnZero => (c.setGpr 0 0).guestRet p
  | identityRcx => (c.setGpr 0 (c.gpr 1)).guestRet p
  | returnImm32 imm =>
    if imm ∈ imm32Table then (c.setGpr 0 (imm.setWidth 64)).guestRet p
    else
      -- the entry is still in RIP, and the immediate follows the opcode
      let (v, c) := c.load p (c.rip + 1) 4 c.rip
      if c.fault.isSome then c
      else (c.setGpr 0 ((v.setWidth 32).setWidth 64)).guestRet p
  | getLastError =>
    let (v, c) := c.load p TEB_LAST_ERROR_VA 4 c.rip
    if c.fault.isSome then c
    else (c.setGpr 0 ((v.setWidth 32).setWidth 64)).guestRet p
  | setLastError =>
    let c := c.store p TEB_LAST_ERROR_VA 4 (((c.gpr 1).setWidth 32).setWidth 64) c.rip
    if c.fault.isSome then c else c.guestRet p

/-- Loading a value into RAX and returning changes RAX and RSP only. -/
theorem loadRet_gpr (p : MemPort W) (c : Core W) (addr : BitVec 64) {i : Fin 16} (h0 : i ≠ 0)
    (h4 : i ≠ 4) :
    (let (v, c) := c.load p addr 4 c.rip
     if c.fault.isSome then c
     else (c.setGpr 0 ((v.setWidth 32).setWidth 64)).guestRet p).gpr i = c.gpr i := by
  dsimp only
  split
  · rw [Core.load_gpr]
  · rw [Core.guestRet_gpr p _ h4, Core.setGpr_of_ne _ h0, Core.load_gpr]

/-- **A trampoline changes no general register it does not report.** -/
theorem exec_gpr (p : MemPort W) (s : MicroStub) (c : Core W) {i : Fin 16} (h : i ∉ s.dirtyMask) :
    (s.exec p c).gpr i = c.gpr i := by
  cases s with
  | ret =>
    simp only [dirtyMask, Finset.mem_singleton] at h
    exact Core.guestRet_gpr p c h
  | setLastError =>
    simp only [dirtyMask, Finset.mem_singleton] at h
    simp only [exec]
    split
    · rw [Core.store_gpr]
    · rw [Core.guestRet_gpr p _ h, Core.store_gpr]
  | returnZero =>
    simp only [dirtyMask, Finset.mem_insert, Finset.mem_singleton, not_or] at h
    simp only [exec]
    rw [Core.guestRet_gpr p _ h.2, Core.setGpr_of_ne _ h.1]
  | identityRcx =>
    simp only [dirtyMask, Finset.mem_insert, Finset.mem_singleton, not_or] at h
    simp only [exec]
    rw [Core.guestRet_gpr p _ h.2, Core.setGpr_of_ne _ h.1]
  | returnImm32 imm =>
    simp only [dirtyMask, Finset.mem_insert, Finset.mem_singleton, not_or] at h
    simp only [exec]
    split
    · rw [Core.guestRet_gpr p _ h.2, Core.setGpr_of_ne _ h.1]
    · exact loadRet_gpr p c _ h.1 h.2
  | getLastError =>
    simp only [dirtyMask, Finset.mem_insert, Finset.mem_singleton, not_or] at h
    exact loadRet_gpr p c _ h.1 h.2

end MicroStub

end Wie
