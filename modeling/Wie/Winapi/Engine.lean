import Wie.Lib.Flat
import Wie.Lib.Word

/-!
# A call of the guest

The registers that a handler looks at, guest memory, and the return to the guest. Memory is flat
here: one byte at each address, with permissions.

## Main definitions

* `Regs`, `CpuEngine` — registers and memory
* `CpuEngine.returnFromWin64Api` — the return
* `ApiResult` — how a handler ends
-/

namespace Wie

/-- `ERROR_INVALID_HANDLE`. -/
def ERROR_INVALID_HANDLE : ℕ := 6

/-- `ERROR_INVALID_PARAMETER`. -/
def ERROR_INVALID_PARAMETER : ℕ := 87

/-- The registers of a call. -/
structure Regs where
  /-- Return value. -/
  rax : ℕ
  /-- First argument. -/
  rcx : ℕ
  /-- Second argument. -/
  rdx : ℕ
  /-- Third argument. -/
  r8 : ℕ
  /-- Fourth argument. -/
  r9 : ℕ
  /-- Stack pointer. -/
  rsp : ℕ
  /-- Instruction pointer. -/
  rip : ℕ
deriving DecidableEq

/-- The engine of a thread, as handlers see it. -/
structure CpuEngine where
  /-- Registers. -/
  regs : Regs
  /-- Guest memory. -/
  mem : Flat

/-- How a handler ends. -/
inductive ApiResult
  /-- Back to the guest. -/
  | returned (returnAddress returnValue : ℕ)
  /-- The host waits for a critical section; the call is made again later. -/
  | hostPark (cs : ℕ)
  /-- An error of the host. -/
  | error
deriving DecidableEq

/-- The value a handler gave back, if it came back. -/
def ApiResult.value : ApiResult → Option ℕ
  | .returned _ v => some v
  | _ => none

namespace CpuEngine

/-- `return_from_win64_api`: pop the return address and set RAX. -/
def returnFromWin64Api (e : CpuEngine) (rax : ℕ) : ApiResult × CpuEngine :=
  match e.mem.loadLe e.regs.rsp 8 with
  | some ret =>
    (.returned ret rax,
      { e with regs := { e.regs with rsp := (e.regs.rsp + 8) % 2 ^ 64, rax := rax, rip := ret } })
  | none => (.error, e)

@[simp] theorem returnFromWin64Api_mem (e : CpuEngine) (rax : ℕ) :
    (e.returnFromWin64Api rax).2.mem = e.mem := by
  rw [returnFromWin64Api]
  cases e.mem.loadLe e.regs.rsp 8 <;> rfl

/-- The return address can be read. -/
def CanReturn (m : Flat) (regs : Regs) : Prop :=
  ∀ x, regs.rsp ≤ x → x < regs.rsp + 8 → m.readable x = true

/-- A call that can return does. -/
theorem returnFromWin64Api_of_canReturn {e : CpuEngine} (h : CanReturn e.mem e.regs) (rax : ℕ) :
    ∃ ret, (e.returnFromWin64Api rax).1 = .returned ret rax := by
  rw [returnFromWin64Api, Flat.loadLe_eq h]
  exact ⟨_, rfl⟩

/-- A return hands over the value or fails. -/
theorem value_returnFromWin64Api (e : CpuEngine) (rax : ℕ) :
    (e.returnFromWin64Api rax).1.value = some rax ∨ (e.returnFromWin64Api rax).1.value = none := by
  rw [returnFromWin64Api]
  cases e.mem.loadLe e.regs.rsp 8 with
  | some ret => exact .inl rfl
  | none => exact .inr rfl

theorem value_eq {e : CpuEngine} {rax v : ℕ} (h : (e.returnFromWin64Api rax).1.value = some v) :
    v = rax := by
  rcases e.value_returnFromWin64Api rax with hr | hr
  · exact Option.some.inj (h.symm.trans hr)
  · cases h.symm.trans hr

end CpuEngine

end Wie
