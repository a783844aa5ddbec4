import Wie.Cpu.Operand
import Wie.Mem.HostSpan

/-!
# Commands and the flat view of guest memory

What the memory commands of the interpreter do to guest memory, said of its flat view: its bytes and
what may be read and written. Each is a load or a store there, or it is denied or not offered and
then nothing has changed.

## Main results

* `run_readMemValue`, `run_writeMemValue_flat` — numbers
* `run_tryLoad`, `run_tryStore`, `run_tryFill`, `run_tryCopy` — ranges
-/

namespace Wie

open Cmd GuestMemory

variable {env : HostEnv} {m m₁ : GuestMemory} {r r₁ : RegFile} {a b v : BitVec 64} {n : ℕ}
  {bytes : List UInt8} {ok : Bool}

/-- A write that is made. -/
theorem GuestMemory.Wrote.store_flat {x : ℕ} (hw : Wrote env m x bytes m₁) :
    m.flat.store x bytes = some m₁.flat := by
  rw [hw.flat]
  refine Flat.Rw.store bytes fun y h1 h2 => ?_
  rcases hw.granted with rfl | ⟨-, hg⟩
  · rw [List.length_nil] at h2
    omega
  · exact hg y h1 h2

theorem store_flat_eq_none {x : ℕ} (hn : ¬m.Granted .write x bytes.length) :
    m.flat.store x bytes = none := by
  classical
  rw [GuestMemory.store_flat, if_neg hn]

/-- **A number that is read.** -/
theorem run_readMemValue {x : Except StepExecError (BitVec 64)} (h : Inv env m)
    (hn : n ∈ [1, 2, 4, 8])
    (hr : (readMemValue a n).run (device env) r m = some ((x, r₁), m₁)) :
    r₁ = r ∧ Inv env m₁ ∧ m₁.flat = m.flat ∧
      match m.flat.load a.toNat n with
      | some bytes => x = .ok (.ofNat 64 (fromLe bytes))
      | none => x = .error (.invalidMemory ⟨ACCESS_READ, a, n, 0⟩) := by
  have hrange : ¬(n = 0 ∨ 8 < n) := by
    simp only [List.mem_cons, List.not_mem_nil, or_false] at hn
    omega
  rw [readMemValue, if_neg hrange] at hr
  obtain ⟨⟨y, m₂⟩, hd, hr⟩ := Option.bind_eq_some_iff.mp hr
  obtain ⟨hs, rfl⟩ := h.device_read hd
  cases hl : m.flat.load a.toNat n with
  | none =>
    rw [hl] at hr
    cases hr
    exact ⟨rfl, hs.inv h, hs.flat, rfl⟩
  | some bytes =>
    rw [hl] at hr
    simp only [Option.elim_some, if_pos hn] at hr
    cases hr
    exact ⟨rfl, hs.inv h, hs.flat, rfl⟩

/-- **A number that is written.** -/
theorem run_writeMemValue_flat {x : Except StepExecError Unit} (h : Inv env m)
    (hn : n ∈ [1, 2, 4, 8])
    (hr : (writeMemValue a v n).run (device env) r m = some ((x, r₁), m₁)) :
    r₁ = r ∧ Inv env m₁ ∧
      match m.flat.store a.toNat (toLe n v.toNat) with
      | some f => x = .ok () ∧ m₁.flat = f
      | none => x = .error (.invalidMemory
          ⟨ACCESS_WRITE, a, n, if v.toNat < 2 ^ 63 then v.toNat else 0⟩) ∧ m₁.flat = m.flat := by
  have hrange : ¬(n = 0 ∨ 8 < n) := by
    simp only [List.mem_cons, List.not_mem_nil, or_false] at hn
    omega
  rw [writeMemValue, if_neg hrange] at hr
  obtain ⟨⟨ok, m₂⟩, hd, hr⟩ := Option.bind_eq_some_iff.mp hr
  rcases h.device_write hd with ⟨rfl, hw⟩ | ⟨rfl, hs, hng⟩
  · cases hr
    rw [hw.store_flat]
    exact ⟨rfl, hw.inv h, rfl, rfl⟩
  · cases hr
    rw [store_flat_eq_none hng]
    exact ⟨rfl, hs.inv h, rfl, hs.flat⟩

/-- **A range that is read.** -/
theorem run_tryLoad {x : Except StepExecError (Option (List UInt8))} {k : ℕ} (h : Inv env m)
    (hr : (tryLoad k n : Exec _).run (device env) r m = some ((x, r₁), m₁)) :
    r₁ = r ∧ Inv env m₁ ∧ m₁.flat = m.flat ∧ x = .ok (m.flat.load k n) := by
  obtain ⟨⟨y, m₂⟩, hd, hr⟩ := Option.bind_eq_some_iff.mp hr
  obtain ⟨hs, rfl⟩ := h.device_read hd
  cases hr
  exact ⟨rfl, hs.inv h, hs.flat, rfl⟩

/-- **A range that is written.** -/
theorem run_tryStore {x : Except StepExecError Bool} {k : ℕ} (h : Inv env m)
    (hr : (tryStore k bytes : Exec _).run (device env) r m = some ((x, r₁), m₁)) :
    r₁ = r ∧ Inv env m₁ ∧
      match m.flat.store k bytes with
      | some f => x = .ok true ∧ m₁.flat = f
      | none => x = .ok false ∧ m₁.flat = m.flat := by
  obtain ⟨⟨ok, m₂⟩, hd, hr⟩ := Option.bind_eq_some_iff.mp hr
  rcases h.device_write hd with ⟨rfl, hw⟩ | ⟨rfl, hs, hng⟩
  · cases hr
    rw [hw.store_flat]
    exact ⟨rfl, hw.inv h, rfl, rfl⟩
  · cases hr
    rw [store_flat_eq_none hng]
    exact ⟨rfl, hs.inv h, rfl, hs.flat⟩

/-- **A range that is filled** in one go. -/
theorem run_tryFill {x : Except StepExecError Bool} {k : ℕ} (h : Inv env m)
    (hr : (tryFill k bytes : Exec _).run (device env) r m = some ((x, r₁), m₁)) :
    r₁ = r ∧ Inv env m₁ ∧ ((x = .ok false ∧ m₁.flat = m.flat) ∨
      (x = .ok true ∧ m.flat.store k bytes = some m₁.flat)) := by
  obtain ⟨⟨ok, m₂⟩, hd, hr⟩ := Option.bind_eq_some_iff.mp hr
  rcases h.device_fill hd with ⟨rfl, hs⟩ | ⟨rfl, hw⟩
  · cases hr
    exact ⟨rfl, hs.inv h, .inl ⟨rfl, hs.flat⟩⟩
  · cases hr
    exact ⟨rfl, hw.inv h, .inr ⟨rfl, hw.store_flat⟩⟩

/-- **A range that is copied** in one go. -/
theorem run_tryCopy {x : Except StepExecError Bool} {k l : ℕ} (h : Inv env m)
    (hr : (tryCopy k l n : Exec _).run (device env) r m = some ((x, r₁), m₁)) :
    r₁ = r ∧ Inv env m₁ ∧ ((x = .ok false ∧ m₁.flat = m.flat) ∨
      (x = .ok true ∧ m.flat.load k n = some (m.flat.bytes k n) ∧
        m.flat.store l (m.flat.bytes k n) = some m₁.flat)) := by
  classical
  obtain ⟨⟨ok, m₂⟩, hd, hr⟩ := Option.bind_eq_some_iff.mp hr
  rcases h.device_copy hd with ⟨rfl, hs⟩ | ⟨rfl, hg, hw⟩
  · cases hr
    exact ⟨rfl, hs.inv h, .inl ⟨rfl, hs.flat⟩⟩
  · cases hr
    refine ⟨rfl, hw.inv h, .inr ⟨rfl, ?_, hw.store_flat⟩⟩
    rw [GuestMemory.load_flat, if_pos hg]

end Wie
