import Wie.Cpu.FlatRun
import Wie.Cpu.Parts

/-!
# Commands that come to an end on the flat view

A command of the interpreter runs on guest memory, of which most is how it is found: page tables,
caches and where the host has it. What a command comes to is a matter of the flat view alone, and so
are the operands of an instruction.

## Main definitions

* `Exec.Gives` — what a command comes to
* `Operand` — a register, memory or a number, with `Operand.value` and `Operand.put`
* `Insn.HasOperand` — an operand of an instruction

## Main results

* `Exec.Gives.bind` — one command after the other
* `Insn.HasOperand.gives_readOp`, `Insn.HasOperand.gives_writeOp` — operands are read and written
-/

namespace Wie

open Cmd GuestMemory

/-! ### Commands -/

/-- **What a command comes to**: all its runs on memory with this flat view end so, but for those in
which the host fails. -/
def Exec.Gives {α : Type} (env : HostEnv) (x : Exec α) (r : RegFile) (f : Flat)
    (v : Except StepExecError α) (r' : RegFile) (f' : Flat) : Prop :=
  ∀ m, Inv env m → m.flat = f → ∀ v₁ r₁ m₁, x.run (device env) r m = some ((v₁, r₁), m₁) →
    v₁ = v ∧ r₁ = r' ∧ Inv env m₁ ∧ m₁.flat = f'

theorem Exec.Gives.run_bind {α β : Type} {env : HostEnv} {x : Exec α} {g : α → Exec β}
    {r r₁ r' : RegFile} {f f₁ : Flat} {a : α} {v : Except StepExecError β} {m m' : GuestMemory}
    (hx : x.Gives env r f (.ok a) r₁ f₁) (hinv : Inv env m) (hflat : m.flat = f)
    (hrun : (x >>= g : Exec β).run (device env) r m = some ((v, r'), m')) :
    ∃ m₁, Inv env m₁ ∧ m₁.flat = f₁ ∧ (g a).run (device env) r₁ m₁ = some ((v, r'), m') := by
  rcases run_bind_eq_some.mp hrun with ⟨e, -, hrun₁⟩ | ⟨a', r₁', m₁, hrun₁, hrun₂⟩
  · cases (hx m hinv hflat _ _ _ hrun₁).1
  · obtain ⟨ha, rfl, hinv₁, hflat₁⟩ := hx m hinv hflat _ _ _ hrun₁
    cases ha
    exact ⟨m₁, hinv₁, hflat₁, hrun₂⟩

namespace Exec

variable {α β : Type} {env : HostEnv} {x : Exec α} {g : α → Exec β} {r r₁ r₂ : RegFile}
  {f f₁ f₂ : Flat} {a : α} {e : StepExecError} {v : Except StepExecError β} {n : ℕ}

/-- **One command after the other.** -/
theorem Gives.bind (hx : x.Gives env r f (.ok a) r₁ f₁) (hg : (g a).Gives env r₁ f₁ v r₂ f₂) :
    Exec.Gives env (x >>= g) r f v r₂ f₂ := by
  intro m hinv hflat v' r' m' hrun
  obtain ⟨m₁, hinv₁, hflat₁, hrun₁⟩ := hx.run_bind hinv hflat hrun
  exact hg m₁ hinv₁ hflat₁ _ _ _ hrun₁

/-- A command that fails is the last one. -/
theorem Gives.bind_error (hx : x.Gives env r f (.error e) r₁ f₁) :
    Exec.Gives env (x >>= g) r f (.error e) r₁ f₁ := by
  intro m hinv hflat v' r' m' hrun
  rcases run_bind_eq_some.mp hrun with ⟨e', rfl, hrun₁⟩ | ⟨a', r₁', m₁, hrun₁, -⟩
  · obtain ⟨he, hrest⟩ := hx m hinv hflat _ _ _ hrun₁
    cases he
    exact ⟨rfl, hrest⟩
  · cases (hx m hinv hflat _ _ _ hrun₁).1

theorem gives_pure (a : α) : Exec.Gives env (pure a) r f (.ok a) r f := by
  intro m hinv hflat v' r' m' hrun
  cases hrun
  exact ⟨rfl, rfl, hinv, hflat⟩

theorem gives_fail (e : StepExecError) : Exec.Gives env (fail e : Exec α) r f (.error e) r f := by
  intro m hinv hflat v' r' m' hrun
  cases hrun
  exact ⟨rfl, rfl, hinv, hflat⟩

theorem gives_regs : Exec.Gives env regs r f (.ok r) r f := by
  intro m hinv hflat v' r' m' hrun
  cases hrun
  exact ⟨rfl, rfl, hinv, hflat⟩

theorem gives_alter (g : RegFile → RegFile) : Exec.Gives env (alter g) r f (.ok ()) (g r) f := by
  intro m hinv hflat v' r' m' hrun
  cases hrun
  exact ⟨rfl, rfl, hinv, hflat⟩

theorem gives_lift (a : α) : (Exec.lift (.ok a)).Gives env r f (.ok a) r f := by
  intro m hinv hflat v' r' m' hrun
  cases hrun
  exact ⟨rfl, rfl, hinv, hflat⟩

theorem gives_update {u : RegFile → Except CpuError RegFile} (hu : u r = .ok r₁) :
    (Exec.update u).Gives env r f (.ok ()) r₁ f := by
  intro m hinv hflat v' r' m' hrun
  rw [run_update_ok hu] at hrun
  cases hrun
  exact ⟨rfl, rfl, hinv, hflat⟩

/-! ### Memory -/

theorem gives_load {a : ℕ} (e : StepExecError) (hl : f.Rd a n) :
    Exec.Gives env (load a n e) r f (.ok (f.bytes a n)) r f := by
  intro m hinv hflat v' r' m' hrun
  obtain ⟨⟨y, m₂⟩, hd, hrun⟩ := Option.bind_eq_some_iff.mp hrun
  obtain ⟨hs, rfl⟩ := hinv.device_read hd
  rw [hflat, Flat.load_eq_some_iff.mpr ⟨hl, rfl⟩] at hrun
  cases hrun
  exact ⟨rfl, rfl, hs.inv hinv, hs.flat.trans hflat⟩

theorem gives_load_error {a : ℕ} (e : StepExecError) (hl : ¬f.Rd a n) :
    Exec.Gives env (load a n e) r f (.error e) r f := by
  intro m hinv hflat v' r' m' hrun
  have hnone : f.load a n = none := by
    rw [Option.eq_none_iff_forall_ne_some]
    intro bytes hbytes
    exact hl (Flat.load_eq_some_iff.mp hbytes).1
  obtain ⟨⟨y, m₂⟩, hd, hrun⟩ := Option.bind_eq_some_iff.mp hrun
  obtain ⟨hs, rfl⟩ := hinv.device_read hd
  rw [hflat, hnone] at hrun
  cases hrun
  exact ⟨rfl, rfl, hs.inv hinv, hs.flat.trans hflat⟩

theorem gives_store {a : ℕ} {bytes : List UInt8} (e : StepExecError) (hw : f.Rw a bytes.length) :
    Exec.Gives env (store a bytes e) r f (.ok ()) r (f.put a bytes) := by
  intro m hinv hflat v' r' m' hrun
  have hstore := hw.store bytes
  obtain ⟨⟨ok, m₂⟩, hd, hrun⟩ := Option.bind_eq_some_iff.mp hrun
  rcases hinv.device_write hd with ⟨rfl, hwrote⟩ | ⟨rfl, -, hn⟩
  · cases hrun
    have hflat' := hwrote.store_flat
    rw [hflat, hstore] at hflat'
    exact ⟨rfl, rfl, hwrote.inv hinv, (Option.some.inj hflat').symm⟩
  · have hnone := store_flat_eq_none hn
    rw [hflat, hstore] at hnone
    cases hnone

theorem gives_store_error {a : ℕ} {bytes : List UInt8} (e : StepExecError)
    (hw : ¬f.Rw a bytes.length) :
    Exec.Gives env (store a bytes e) r f (.error e) r f := by
  intro m hinv hflat v' r' m' hrun
  obtain ⟨⟨ok, m₂⟩, hd, hrun⟩ := Option.bind_eq_some_iff.mp hrun
  rcases hinv.device_write hd with ⟨rfl, hwrote⟩ | ⟨rfl, hs, -⟩
  · have hflat' := hwrote.store_flat
    rw [hflat] at hflat'
    exact absurd (Flat.store_eq_some hflat').2 hw
  · cases hrun
    exact ⟨rfl, rfl, hs.inv hinv, hs.flat.trans hflat⟩

theorem not_outOfRange (h : IsWidth n) : ¬(n = 0 ∨ 8 < n) := by
  rcases h with rfl | rfl | rfl | rfl <;> decide

/-- A number is read. -/
theorem gives_readMemValue {a : BitVec 64} (hn : IsWidth n) (hl : f.Rd a.toNat n) :
    (readMemValue a n).Gives env r f (.ok (.ofNat 64 (f.get a.toNat n))) r f := by
  rw [readMemValue, if_neg (not_outOfRange hn)]
  refine (gives_load _ hl).bind ?_
  rw [if_pos hn.mem]
  exact gives_pure _

/-- A number is written. -/
theorem gives_writeMemValue {a : BitVec 64} (hn : IsWidth n) (v : BitVec 64)
    (hw : f.Rw a.toNat n) :
    (writeMemValue a v n).Gives env r f (.ok ()) r (f.set a.toNat n v.toNat) := by
  have hlen : (toLe n v.toNat).length = n := length_toLe ..
  rw [writeMemValue, if_neg (not_outOfRange hn)]
  exact gives_store _ (hlen.symm ▸ hw)

/-- A number is not written. -/
theorem exists_gives_writeMemValue_error {a : BitVec 64} (hn : IsWidth n) (v : BitVec 64)
    (hw : ¬f.Rw a.toNat n) : ∃ e, (writeMemValue a v n).Gives env r f (.error e) r f := by
  have hlen : (toLe n v.toNat).length = n := length_toLe ..
  rw [writeMemValue, if_neg (not_outOfRange hn)]
  exact ⟨_, gives_store_error _ (hlen.symm ▸ hw)⟩

end Exec

/-! ### Operands -/

/-- What an operand is, when the instruction is executed. -/
inductive Operand
  /-- A register. -/
  | register (reg : Register)
  /-- Memory at an address. -/
  | memory (a : BitVec 64)
  /-- A number. -/
  | immediate (v : BitVec 64)

namespace Operand

/-- Its value. -/
def value (size : ℕ) (r : RegFile) (f : Flat) : Operand → BitVec 64
  | register reg => r.part reg
  | memory a => .ofNat 64 (f.get a.toNat size)
  | immediate v => v

/-- Registers and memory after it is another value. -/
def put (size : ℕ) (v : BitVec 64) (s : RegFile × Flat) : Operand → RegFile × Flat
  | register reg => (s.1.putPart v reg, s.2)
  | memory a => (s.1, s.2.set a.toNat size v.toNat)
  | immediate _ => s

/-- It can be read. -/
def Readable (size : ℕ) (f : Flat) : Operand → Prop
  | register _ | immediate _ => True
  | memory a => f.Rd a.toNat size

/-- It can be written. -/
def Writable (size : ℕ) (f : Flat) : Operand → Prop
  | register _ => True
  | memory a => f.Rw a.toNat size
  | immediate _ => False

end Operand

/-- The operands that are numbers. -/
def OpKind.IsImmediate (k : OpKind) : Prop :=
  k ∈ [.immediate8, .immediate8_2nd, .immediate16, .immediate32, .immediate64, .immediate8to16,
    .immediate8to32, .immediate8to64, .immediate32to64]

namespace Insn

variable {i : Insn} {op size : ℕ} {r : RegFile} {f : Flat} {o : Operand} {env : HostEnv}

/-- **An operand of an instruction.** -/
def HasOperand (i : Insn) (op size : ℕ) (r : RegFile) : Operand → Prop
  | .register reg =>
    i.opKind op = .register ∧ i.opRegister op = reg ∧ reg.IsGpr ∧ reg.size = size
  | .memory a =>
    i.opKind op = .memory ∧ i.effectiveAddress r = .ok a ∧ i.memoryOpSize = .ok size
  | .immediate v => (i.opKind op).IsImmediate ∧ i.immediate op = v

theorem effectiveAddress_setRflags (g : BitVec 64) :
    i.effectiveAddress (r.setRflags g) = i.effectiveAddress r := by
  rw [effectiveAddress, effectiveAddress, RegFile.readReg_setRflags, RegFile.readReg_setRflags]

theorem HasOperand.setRflags (h : i.HasOperand op size r o) (g : BitVec 64) :
    i.HasOperand op size (r.setRflags g) o := by
  cases o with
  | register reg => exact h
  | memory a => exact ⟨h.1, (effectiveAddress_setRflags g).trans h.2.1, h.2.2⟩
  | immediate v => exact h

theorem gives_address {a : BitVec 64} (ha : i.effectiveAddress r = .ok a) :
    i.address.Gives env r f (.ok a) r f := by
  refine Exec.gives_regs.bind ?_
  rw [ha]
  exact Exec.gives_lift a

/-- **An operand is read.** -/
theorem HasOperand.gives_readOp (h : i.HasOperand op size r o) (hsize : IsWidth size)
    (hr : o.Readable size f) : (i.readOp op).Gives env r f (.ok (o.value size r f)) r f := by
  cases o with
  | register reg =>
    obtain ⟨hkind, rfl, hgpr, -⟩ := h
    rw [readOp, hkind]
    refine Exec.gives_regs.bind ?_
    rw [RegFile.readReg_part hgpr]
    exact Exec.gives_lift _
  | memory a =>
    obtain ⟨hkind, ha, hs⟩ := h
    rw [readOp, hkind]
    refine (gives_address ha).bind ?_
    rw [hs]
    exact (Exec.gives_lift size).bind (Exec.gives_readMemValue hsize hr)
  | immediate v =>
    obtain ⟨hkind, rfl⟩ := h
    have hread : i.readOp op = pure (i.immediate op) := by
      simp only [OpKind.IsImmediate, List.mem_cons, List.not_mem_nil, or_false] at hkind
      rw [readOp]
      rcases hkind with hk | hk | hk | hk | hk | hk | hk | hk | hk <;> rw [hk]
    rw [hread]
    exact Exec.gives_pure _

theorem HasOperand.opSizeBytes (h : i.HasOperand op size r o) (hw : o.Writable size f) :
    i.opSizeBytes op = .ok size := by
  cases o with
  | register reg =>
    obtain ⟨hkind, rfl, -, hs⟩ := h
    rw [Insn.opSizeBytes, hkind, ← hs]
  | memory a =>
    obtain ⟨hkind, -, hs⟩ := h
    rw [Insn.opSizeBytes, hkind]
    exact hs
  | immediate v => exact hw.elim

/-- **An operand is written.** -/
theorem HasOperand.gives_writeOp (h : i.HasOperand op size r o) (hsize : IsWidth size)
    (hw : o.Writable size f) (v : BitVec 64) : (i.writeOp op v).Gives env r f (.ok ())
      (o.put size v (r, f)).1 (o.put size v (r, f)).2 := by
  rw [writeOp, h.opSizeBytes hw]
  refine (Exec.gives_lift size).bind ?_
  cases o with
  | register reg =>
    obtain ⟨hkind, rfl, hgpr, -⟩ := h
    rw [writeOpSized, hkind]
    exact Exec.gives_update (RegFile.writeReg_part hgpr)
  | memory a =>
    obtain ⟨hkind, ha, -⟩ := h
    rw [writeOpSized, hkind]
    exact (gives_address ha).bind (Exec.gives_writeMemValue hsize v hw)
  | immediate v => exact hw.elim

end Insn

end Wie
