import Wie.Cpu.Exec
import Wie.Lib.Faults

/-!
# Precise faults

When the interpreter reports a denied access, the instruction pointer is put back and nothing else.
The instruction can be tried again if all the rest is as it was, and that is up to the order in
which an instruction does things.

Here are the instructions that do something before the last access that can be denied, and when
their faults are precise nevertheless.

## Main definitions

* `guestFaulting` — guest memory, with what a fault has to leave as it was
* `Insn.WriteDenied` — an operand that cannot be written

## Main results

* `faults_writeOp_iff` — when a write of an operand faults
* `preciseAt_execArith_iff` and its like — flags that are set before the result is stored
* `preciseAt_execPop_iff`, `preciseAt_leave_iff` — RSP is moved before
* `preciseAt_execXchg_iff`, `preciseAt_execXadd_iff` — a register is written before
-/

namespace Wie

open Cmd GuestMemory Rflags

/-! ### Guest memory -/

/-- Guest memory, with faults that leave all registers but the instruction pointer as they were. -/
def guestFaulting (env : HostEnv) : Faulting GuestMemory RegFile StepExecError where
  device := device env
  IsFault e := ∃ inv, e = .invalidMemory inv
  Kept r r' := r'.setRip r.rip = r
  kept := {
    refl := fun _ => rfl
    symm := fun {r r'} h => by
      rw [← h]
      rfl
    trans := fun {r r' r''} h₁ h₂ => by
      rw [← h₁, ← h₂]
      rfl }
  Ok := Inv env
  Same := Same
  refl h := .refl h.pages
  symm h hs := hs.symm h.pages
  trans := Same.trans
  ok hs h := hs.inv h
  read h hr := (h.device_read hr).1
  read_congr h hs hr := by
    obtain ⟨-, rfl⟩ := h.device_read hr
    rw [← hs.flat]
    exact (hs.inv h).exists_device_read ..
  write h hw := by
    rcases h.device_write hw with ⟨⟨⟩, -⟩ | ⟨-, hs, -⟩
    exact hs

section

variable {env : HostEnv} {m m' : GuestMemory} {i : Insn} {r r' : RegFile} {op n : ℕ}
  {a v : BitVec 64} {α : Type}

/-! ### Operands -/

theorem quiet_lift (x : Except CpuError α) : Quiet (guestFaulting env) (Exec.lift x) :=
  quiet_ofExcept _

theorem noFault_lift (x : Except CpuError α) : NoFault (guestFaulting env) (Exec.lift x) := by
  refine noFault_ofExcept ?_
  rintro e h ⟨inv, rfl⟩
  cases x <;> cases h

theorem noFault_update (f : RegFile → Except CpuError RegFile) :
    NoFault (guestFaulting env) (Exec.update f) := by
  rintro r m r' m' ⟨_, ⟨inv, rfl⟩, h⟩
  rw [Cmd.run, Exec.update] at h
  cases hf : f r <;> rw [hf] at h <;> cases h

theorem reads_lift_iff (env : HostEnv) (m : GuestMemory) (r : RegFile) {x : Except CpuError α}
    {a : α} : Reads (guestFaulting env) (Exec.lift x) r m a ↔ x = .ok a := by
  cases x with
  | error e =>
    refine ⟨?_, nofun⟩
    rintro ⟨m', h⟩
    cases h
  | ok b =>
    constructor
    · rintro ⟨m', h⟩
      cases h
      rfl
    · rintro ⟨⟩
      exact ⟨m, rfl⟩

theorem quiet_address (i : Insn) : Quiet (guestFaulting env) i.address :=
  quiet_regs.bind fun _ => quiet_lift _

theorem quiet_readMemValue (a : BitVec 64) (n : ℕ) :
    Quiet (guestFaulting env) (readMemValue a n) := by
  rw [readMemValue]
  split
  · exact quiet_fail _
  · exact (quiet_load ..).bind fun _ => quiet_pure _

theorem quiet_readOp (i : Insn) (op : ℕ) : Quiet (guestFaulting env) (i.readOp op) := by
  rw [Insn.readOp]
  split
  · exact quiet_regs.bind fun _ => quiet_lift _
  · exact (quiet_address i).bind fun _ => (quiet_lift _).bind fun _ => quiet_readMemValue ..
  · exact quiet_pure _
  · exact quiet_pure _
  · exact quiet_pure _
  · exact quiet_pure _
  · exact quiet_pure _
  · exact quiet_pure _
  · exact quiet_pure _
  · exact quiet_pure _
  · exact quiet_pure _
  · exact quiet_fail _

theorem quiet_readSseOp (i : Insn) (op n : ℕ) : Quiet (guestFaulting env) (i.readSseOp op n) := by
  rw [Insn.readSseOp]
  split
  · split
    · exact quiet_regs.bind fun _ => (quiet_lift _).bind fun _ => quiet_pure _
    · exact quiet_regs.bind fun _ => (quiet_lift _).bind fun _ => quiet_pure _
  · refine (quiet_address i).bind fun _ => ?_
    split
    · exact quiet_fail _
    · exact (quiet_load ..).bind fun _ => quiet_pure _
  · exact quiet_fail _

theorem quiet_branchTarget (i : Insn) : Quiet (guestFaulting env) (branchTarget i) := by
  rw [branchTarget]
  split
  · exact quiet_pure _
  · exact quiet_pure _
  · exact quiet_pure _
  · exact quiet_regs.bind fun _ => quiet_lift _
  · exact quiet_readOp ..
  · exact quiet_fail _

theorem precise_writeMemValue (a v : BitVec 64) (n : ℕ) :
    Precise (guestFaulting env) (writeMemValue a v n) := by
  rw [writeMemValue]
  split
  · exact (quiet_fail _).precise
  · exact precise_store _ _ _

theorem precise_writeOpSized (i : Insn) (op : ℕ) (v : BitVec 64) (n : ℕ) :
    Precise (guestFaulting env) (i.writeOpSized op v n) := by
  rw [Insn.writeOpSized]
  split
  · exact (noFault_update _).precise
  · exact (quiet_address i).bind_precise fun _ => precise_writeMemValue _ _ _
  · exact (quiet_fail _).precise

theorem precise_writeOp (i : Insn) (op : ℕ) (v : BitVec 64) :
    Precise (guestFaulting env) (i.writeOp op v) :=
  (quiet_lift _).bind_precise fun _ => precise_writeOpSized _ _ _ _

theorem precise_writeSseOp (i : Insn) (op : ℕ) (v : BitVec 128) (n : ℕ) (merge : Bool) :
    Precise (guestFaulting env) (i.writeSseOp op v n merge) := by
  rw [Insn.writeSseOp]
  split
  · split
    · exact (noFault_update _).precise
    · exact (quiet_fail _).precise
  · refine (quiet_address i).bind_precise fun _ => ?_
    split
    · exact (quiet_fail _).precise
    · exact precise_store _ _ _
  · exact (quiet_fail _).precise

theorem precise_pushN (v : BitVec 64) (n : ℕ) : Precise (guestFaulting env) (pushN v n) :=
  quiet_regs.bind_precise fun _ =>
    (precise_writeMemValue _ _ _).bind_noFault fun _ => noFault_alter _

theorem precise_popN (n : ℕ) : Precise (guestFaulting env) (popN n) :=
  quiet_regs.bind_precise fun _ => (quiet_readMemValue ..).bind_precise fun _ =>
    ((noFault_alter _).bind fun _ => noFault_pure _).precise

/-! ### Denied writes -/

/-- **The operand cannot be written.** -/
def Insn.WriteDenied (i : Insn) (m : GuestMemory) (r : RegFile) (op : ℕ) : Prop :=
  i.opKind op = .memory ∧ ∃ a n, i.effectiveAddress r = .ok a ∧ i.memoryOpSize = .ok n ∧
    (0 < n ∧ n ≤ 8) ∧ ¬m.Granted .write a.toNat n

theorem Insn.writeDenied_congr (hs : Same m m') : i.WriteDenied m' r op ↔ i.WriteDenied m r op := by
  simp only [WriteDenied, hs.granted]

theorem Insn.writeDenied_setRflags (f : BitVec 64) :
    i.WriteDenied m (r.setRflags f) op ↔ i.WriteDenied m r op := by
  simp only [WriteDenied, effectiveAddress, RegFile.readReg_setRflags]

theorem faults_lift_bind_iff {x : Except CpuError α} {β : Type} {f : α → Exec β} :
    Faults (guestFaulting env) (Exec.lift x >>= f) r m r' m' ↔
      ∃ a, x = .ok a ∧ Faults (guestFaulting env) (f a) r m r' m' := by
  cases x with
  | error e =>
    constructor
    · rintro ⟨_, ⟨inv, rfl⟩, h⟩
      cases h
    · rintro ⟨a, ⟨⟩, -⟩
  | ok a =>
    constructor
    · exact fun h => ⟨a, rfl, h⟩
    · rintro ⟨_, ⟨⟩, h⟩
      exact h

theorem faults_address_bind_iff {β : Type} {f : BitVec 64 → Exec β} :
    Faults (guestFaulting env) (i.address >>= f) r m r' m' ↔
      ∃ a, i.effectiveAddress r = .ok a ∧ Faults (guestFaulting env) (f a) r m r' m' :=
  faults_lift_bind_iff

theorem faults_writeMemValue_iff (h : Inv env m) :
    (∃ r' m', Faults (guestFaulting env) (writeMemValue a v n) r m r' m') ↔
      (0 < n ∧ n ≤ 8) ∧ ¬m.Granted .write a.toNat n := by
  rw [writeMemValue]
  split
  · rename_i hn
    constructor
    · rintro ⟨r', m', _, ⟨inv, rfl⟩, h⟩
      cases h
    · rintro ⟨⟨h1, h2⟩, -⟩
      omega
  · rename_i hn
    have hstore : (∃ r' m', Faults (guestFaulting env) (store a.toNat (toLe n v.toNat)
        (.invalidMemory ⟨ACCESS_WRITE, a, n, if v.toNat < 2 ^ 63 then v.toNat else 0⟩) :
          Exec Unit) r m r' m') ↔ _ := faults_store_iff ⟨_, rfl⟩
    refine hstore.trans (h.device_write_denied_iff.trans ?_)
    rw [length_toLe]
    exact ⟨fun hg => ⟨by omega, hg⟩, fun hg => hg.2⟩

theorem noFault_writeOpSized (hk : i.opKind op ≠ .memory) :
    NoFault (guestFaulting env) (i.writeOpSized op v n) := by
  rw [Insn.writeOpSized]
  split
  · exact noFault_update _
  · rename_i hm
    exact absurd hm hk
  · refine noFault_fail ?_
    rintro ⟨inv, ⟨⟩⟩

theorem noFault_writeOp (hk : i.opKind op ≠ .memory) :
    NoFault (guestFaulting env) (i.writeOp op v) :=
  (noFault_lift _).bind fun _ => noFault_writeOpSized hk

/-- **When a write of an operand faults.** -/
theorem faults_writeOp_iff (h : Inv env m) :
    (∃ r' m', Faults (guestFaulting env) (i.writeOp op v) r m r' m') ↔
      i.WriteDenied m r op := by
  by_cases hk : i.opKind op = .memory
  · simp only [Insn.writeOp, faults_lift_bind_iff, Insn.opSizeBytes, hk, Insn.writeOpSized,
      faults_address_bind_iff]
    constructor
    · rintro ⟨r', m', n, hn, a, ha, hf⟩
      exact ⟨hk, a, n, ha, hn, (faults_writeMemValue_iff h).mp ⟨r', m', hf⟩⟩
    · rintro ⟨-, a, n, ha, hn, hf⟩
      obtain ⟨r', m', hf⟩ := (faults_writeMemValue_iff (v := v) (r := r) h).mpr hf
      exact ⟨r', m', n, hn, a, ha, hf⟩
  · constructor
    · rintro ⟨r', m', hf⟩
      exact absurd hf (noFault_writeOp hk _ _ _ _)
    · rintro ⟨hm, -⟩
      exact absurd hm hk

theorem kept_setRflags {f : BitVec 64} :
    (guestFaulting env).Kept r (r.setRflags f) ↔ f = r.rflags := by
  constructor
  · intro h
    exact congrArg RegFile.rflags h
  · rintro rfl
    rfl

/-- Flags that are set before the first operand is written. -/
theorem preciseAt_flags_writeOp (h : Inv env m) (hs : Same m m') (f : RegFile → BitVec 64) :
    PreciseAt (guestFaulting env) (do
      alter fun r => r.setRflags (f r)
      i.writeOp 0 v) r m' ↔ (i.WriteDenied m r 0 → f r = r.rflags) := by
  have hinv := hs.inv h
  rw [preciseAt_alter_bind_iff (precise_writeOp _ _ _ _ _ hinv), faults_writeOp_iff hinv,
    Insn.writeDenied_congr hs, Insn.writeDenied_setRflags, kept_setRflags]

/-! ### When faults are precise -/

/-- An operand has a value. -/
def Insn.Operand (i : Insn) (env : HostEnv) (m : GuestMemory) (r : RegFile) (op : ℕ)
    (v : BitVec 64) : Prop := Reads (guestFaulting env) (i.readOp op) r m v

/-- The flags that are set are those from before, or the first operand can be written. -/
def Insn.FlagsStay (i : Insn) (m : GuestMemory) (r : RegFile) (f : BitVec 64) : Prop :=
  i.WriteDenied m r 0 → f = r.rflags

/-- The same for flags that come from one operand. -/
def Insn.UnaryStays (i : Insn) (env : HostEnv) (m : GuestMemory) (r : RegFile)
    (f : BitVec 64 → ℕ → BitVec 64) : Prop :=
  ∀ size, i.opSizeBytes 0 = .ok size → ∀ d, i.Operand env m r 0 d →
    i.FlagsStay m r (f (d &&& sizeMask size) size)

/-- The same for flags that come from two. -/
def Insn.BinaryStays (i : Insn) (env : HostEnv) (m : GuestMemory) (r : RegFile)
    (f : BitVec 64 → BitVec 64 → ℕ → BitVec 64) : Prop :=
  ∀ size, i.opSizeBytes 0 = .ok size → ∀ d, i.Operand env m r 0 d → ∀ s, i.Operand env m r 1 s →
    i.FlagsStay m r (f (d &&& sizeMask size) s size)

/-- The flags of addition, subtraction and logic. -/
def Insn.ArithStays (i : Insn) (env : HostEnv) (m : GuestMemory) (r : RegFile) (op : ArithOp) :
    Prop :=
  i.BinaryStays env m r fun d s size => op.flags r.rflags d (s &&& sizeMask size) size

theorem preciseAt_execArith_iff (h : Inv env m) {op : ArithOp} (hop : op ≠ .cmp) :
    PreciseAt (guestFaulting env) (execArith i op) r m ↔ i.ArithStays env m r op := by
  simp only [Insn.ArithStays, Insn.BinaryStays, ← reads_lift_iff env m r]
  refine (quiet_lift _).preciseAt_bind_iff h (.refl h.pages) fun size m₁ h₁ _ =>
    (quiet_readOp i 0).preciseAt_bind_iff h h₁ fun d m₂ h₂ _ =>
    (quiet_readOp i 1).preciseAt_bind_iff h h₂ fun s m₃ h₃ _ => ?_
  simp only [preciseAt_regs_bind_iff, if_neg hop]
  exact preciseAt_flags_writeOp h h₃ _

theorem precise_execArith_cmp (i : Insn) : Precise (guestFaulting env) (execArith i .cmp) :=
  (quiet_lift _).bind_precise fun _ => (quiet_readOp i 0).bind_precise fun _ =>
    (quiet_readOp i 1).bind_precise fun _ => quiet_regs.bind_precise fun _ =>
    ((noFault_alter _).bind fun _ => noFault_pure _).precise

theorem preciseAt_execIncDec_iff (h : Inv env m) (inc : Bool) :
    PreciseAt (guestFaulting env) (execIncDec i inc) r m ↔
      i.UnaryStays env m r (incDecFlags inc r.rflags) := by
  simp only [Insn.UnaryStays, ← reads_lift_iff env m r]
  refine (quiet_lift _).preciseAt_bind_iff h (.refl h.pages) fun size m₁ h₁ _ =>
    (quiet_readOp i 0).preciseAt_bind_iff h h₁ fun d m₂ h₂ _ => ?_
  exact preciseAt_flags_writeOp h h₂ _

theorem preciseAt_execNeg_iff (h : Inv env m) :
    PreciseAt (guestFaulting env) (execNeg i) r m ↔ i.UnaryStays env m r (negFlags r.rflags) := by
  simp only [Insn.UnaryStays, ← reads_lift_iff env m r]
  refine (quiet_lift _).preciseAt_bind_iff h (.refl h.pages) fun size m₁ h₁ _ =>
    (quiet_readOp i 0).preciseAt_bind_iff h h₁ fun d m₂ h₂ _ => ?_
  exact preciseAt_flags_writeOp h h₂ _

/-- The flags of a shift, which stay when it does not go anywhere. -/
def shiftStays (kind : ShiftKind) (f d s : BitVec 64) (size : ℕ) : BitVec 64 :=
  if shiftCount s size = 0 then f else shiftFlags kind f d (shiftCount s size) size

theorem preciseAt_execShift_iff (h : Inv env m) (kind : ShiftKind) :
    PreciseAt (guestFaulting env) (execShift i kind) r m ↔
      i.BinaryStays env m r (shiftStays kind r.rflags) := by
  simp only [Insn.BinaryStays, ← reads_lift_iff env m r]
  refine (quiet_lift _).preciseAt_bind_iff h (.refl h.pages) fun size m₁ h₁ _ =>
    (quiet_readOp i 0).preciseAt_bind_iff h h₁ fun d m₂ h₂ _ =>
    (quiet_readOp i 1).preciseAt_bind_iff h h₂ fun s m₃ h₃ _ => ?_
  dsimp only
  rw [shiftStays]
  split
  · exact iff_of_true (noFault_pure _).preciseAt fun _ => rfl
  · exact preciseAt_flags_writeOp h h₃ _

/-- The flags that CMPXCHG sets before it stores, and those from before when it does not. -/
def cmpxchgStays (r : RegFile) (d : BitVec 64) (size : ℕ) : BitVec 64 :=
  let acc := r.gpr 0 &&& sizeMask size
  let f := subFlags r.rflags acc d (acc - d) size
  if (r.setRflags f).flag ZF then f else r.rflags

theorem readReg_accumulator (r : RegFile) (size : ℕ) :
    r.readReg (accumulator size) = .ok (r.gpr 0 &&& sizeMask size) := by
  by_cases h1 : size = 1
  · subst h1
    rfl
  by_cases h2 : size = 2
  · subst h2
    rfl
  by_cases h4 : size = 4
  · subst h4
    rfl
  rw [accumulator.eq_4 _ h1 h2 h4, sizeMask.eq_4 _ h1 h2 h4, BitVec.and_allOnes]
  rfl

theorem preciseAt_execCmpxchg_iff (h : Inv env m) :
    PreciseAt (guestFaulting env) (execCmpxchg i) r m ↔
      i.BinaryStays env m r fun d _ size => cmpxchgStays r d size := by
  simp only [Insn.BinaryStays, ← reads_lift_iff env m r]
  refine (quiet_lift _).preciseAt_bind_iff h (.refl h.pages) fun size m₁ h₁ _ =>
    (quiet_readOp i 0).preciseAt_bind_iff h h₁ fun d m₂ h₂ _ =>
    (quiet_readOp i 1).preciseAt_bind_iff h h₂ fun s m₃ h₃ _ => ?_
  simp only [preciseAt_regs_bind_iff, readReg_accumulator]
  show PreciseAt (guestFaulting env) (do
    alter fun r' => r'.setRflags (subFlags r'.rflags (r.gpr 0 &&& sizeMask size &&& sizeMask size)
      (d &&& sizeMask size) _ size)
    let r' ← regs
    if r'.flag ZF then i.writeOp 0 (s &&& sizeMask size)
    else Exec.update (·.writeReg (accumulator size) (d &&& sizeMask size))) r m₃ ↔
      (i.WriteDenied m r 0 → cmpxchgStays r (d &&& sizeMask size) size = r.rflags)
  rw [BitVec.and_assoc (r.gpr 0), BitVec.and_self, cmpxchgStays, preciseAt_alter_ite_iff]
  by_cases hz : (r.setRflags (subFlags r.rflags (r.gpr 0 &&& sizeMask size) (d &&& sizeMask size)
    ((r.gpr 0 &&& sizeMask size) - (d &&& sizeMask size)) size)).flag ZF = true
  · simp only [if_pos hz]
    exact preciseAt_flags_writeOp h h₃ _
  · simp only [if_neg hz]
    exact iff_of_true ((noFault_alter _).bind fun _ => noFault_update _).preciseAt fun _ => trivial

/-! ### The stack -/

theorem reads_readMemValue_iff (h : Inv env m) :
    (∃ v, Reads (guestFaulting env) (readMemValue a n) r m v) ↔
      (0 < n ∧ n ≤ 8) ∧ m.Granted .read a.toNat n := by
  rw [readMemValue, ← not_not (a := m.Granted .read a.toNat n), ← load_eq_none_iff]
  split
  · constructor
    · rintro ⟨v, m', ⟨⟩⟩
    · rintro ⟨⟨h1, h2⟩, -⟩
      omega
  · rename_i hn
    constructor
    · rintro ⟨v, m', hr⟩
      rcases run_bind_eq_some.mp hr with ⟨e, ⟨⟩, -⟩ | ⟨bytes, r₁, m₁, hl, -⟩
      obtain rfl : r₁ = r := ((quiet_load ..).still (F := guestFaulting env) h hl).1
      have hload := (exists_device_read_iff h _).mp (reads_load_iff.mp ⟨m₁, hl⟩)
      rw [← hload]
      exact ⟨by omega, Option.some_ne_none _⟩
    · rintro ⟨-, hl⟩
      obtain ⟨bytes, hl⟩ := Option.ne_none_iff_exists'.mp hl
      obtain ⟨m₁, hr⟩ := (reads_load_iff (F := guestFaulting env) (r := r)).mpr
        ((exists_device_read_iff h _).mpr hl.symm)
      exact ⟨_, m₁, run_bind_eq_some.mpr (.inr ⟨bytes, r, m₁, hr, rfl⟩)⟩

theorem faults_readMemValue_iff (h : Inv env m) :
    (∃ r' m', Faults (guestFaulting env) (readMemValue a n) r m r' m') ↔
      (0 < n ∧ n ≤ 8) ∧ ¬m.Granted .read a.toNat n := by
  rw [readMemValue, ← load_eq_none_iff]
  split
  · constructor
    · rintro ⟨r', m', _, ⟨inv, rfl⟩, h⟩
      cases h
    · rintro ⟨⟨h1, h2⟩, -⟩
      omega
  · simp only [NoFault.faults_bind_iff fun _ => noFault_pure _]
    refine (faults_load_iff (F := guestFaulting env) ⟨_, rfl⟩).trans
      ((exists_device_read_iff h none).trans ?_)
    rw [eq_comm]
    exact ⟨fun hl => ⟨by omega, hl⟩, fun hl => hl.2⟩

theorem faults_popN_iff (h : Inv env m) :
    (∃ r' m', Faults (guestFaulting env) (popN n) r m r' m') ↔
      (0 < n ∧ n ≤ 8) ∧ ¬m.Granted .read (r.gpr 4).toNat n := by
  rw [← faults_readMemValue_iff (r := r) h]
  refine exists₂_congr fun r' m' => ?_
  show Faults _ (readMemValue _ _ >>= _) _ _ _ _ ↔ _
  exact NoFault.faults_bind_iff fun _ => (noFault_alter _).bind fun _ => noFault_pure _

/-- The registers after a POP. -/
def RegFile.popped (r : RegFile) (n : ℕ) : RegFile := r.setGpr 4 (r.gpr 4 + .ofNat 64 n)

theorem run_popN_iff {r₁ : RegFile} {m₁ : GuestMemory} :
    (popN n).run (device env) r m = some ((.ok v, r₁), m₁) ↔
      ∃ r₀, (readMemValue (r.gpr 4) n).run (device env) r m = some ((.ok v, r₀), m₁) ∧
        r₁ = r₀.setGpr 4 (r.gpr 4 + .ofNat 64 n) := by
  show (readMemValue _ _ >>= _).run _ _ _ = _ ↔ _
  rw [run_bind_eq_some]
  constructor
  · rintro (⟨e, ⟨⟩, -⟩ | ⟨w, r₀, m₂, hr, hf⟩)
    cases hf
    exact ⟨r₀, hr, rfl⟩
  · rintro ⟨r₀, hr, rfl⟩
    exact .inr ⟨v, r₀, m₁, hr, rfl⟩

/-- **A POP that succeeds** reads the stack and moves its pointer. -/
theorem run_popN (h : Inv env m) {r₁ : RegFile} {m₁ : GuestMemory}
    (hp : (popN n).run (device env) r m = some ((.ok v, r₁), m₁)) :
    r₁ = r.popped n ∧ Same m m₁ ∧ (0 < n ∧ n ≤ 8) ∧ m.Granted .read (r.gpr 4).toNat n := by
  obtain ⟨r₀, hr, rfl⟩ := run_popN_iff.mp hp
  obtain ⟨rfl, hs⟩ := (quiet_readMemValue (r.gpr 4) n).still (F := guestFaulting env) h hr
  exact ⟨rfl, hs, (reads_readMemValue_iff h).mp ⟨v, m₁, hr⟩⟩

theorem exists_run_popN (h : Inv env m) (hn : 0 < n ∧ n ≤ 8)
    (hg : m.Granted .read (r.gpr 4).toNat n) :
    ∃ v m₁, (popN n).run (device env) r m = some ((.ok v, r.popped n), m₁) := by
  obtain ⟨v, m₁, hr⟩ := (reads_readMemValue_iff (r := r) h).mpr ⟨hn, hg⟩
  exact ⟨v, m₁, run_popN_iff.mpr ⟨r, hr, rfl⟩⟩

/-- A POP to an operand that can be written with RSP moved, unless the stack cannot be read. -/
def Insn.PopStays (i : Insn) (m : GuestMemory) (r : RegFile) : Prop :=
  m.Granted .read (r.gpr 4).toNat (stackSize i) → ¬i.WriteDenied m (r.popped (stackSize i)) 0

theorem stackSize_range (i : Insn) : 0 < stackSize i ∧ stackSize i ≤ 8 := by
  rw [stackSize]
  split <;> decide

theorem kept_setGpr {k : Fin 16} : (guestFaulting env).Kept r (r.setGpr k v) ↔ v = r.gpr k := by
  constructor
  · intro h
    have := congrFun (congrArg RegFile.gpr h) k
    rwa [show ((r.setGpr k v).setRip r.rip).gpr k = _ from RegFile.setGpr_gpr_self ..] at this
  · rintro rfl
    show RegFile.setRip { r with gpr := Function.update r.gpr k (r.gpr k) } r.rip = r
    rw [Function.update_eq_self]
    rfl

theorem not_kept_popped (hn : 0 < n ∧ n ≤ 8) : ¬(guestFaulting env).Kept r (r.popped n) := by
  intro h
  have := congrArg BitVec.toNat (kept_setGpr.mp h)
  rw [BitVec.toNat_add, BitVec.toNat_ofNat] at this
  omega

theorem preciseAt_execPop_iff (h : Inv env m) :
    PreciseAt (guestFaulting env) (execPop i) r m ↔ i.PopStays m r := by
  have hsize := stackSize_range i
  rw [execPop, preciseAt_bind_iff h (precise_popN _ r m h) (fun v => precise_writeOp i 0 v)
    fun v r₁ m₁ hp => (run_popN h hp).2.1, Insn.PopStays]
  constructor
  · intro hall hg hd
    obtain ⟨v, m₁, hp⟩ := exists_run_popN h hsize hg
    have hs := (run_popN h hp).2.1
    exact not_kept_popped hsize (hall v _ m₁ hp ((faults_writeOp_iff (hs.inv h)).mpr
      ((Insn.writeDenied_congr hs).mpr hd)))
  · intro hstays v r₁ m₁ hp hf
    obtain ⟨rfl, hs, -, hg⟩ := run_popN h hp
    exact absurd ((Insn.writeDenied_congr hs).mp ((faults_writeOp_iff (hs.inv h)).mp hf))
      (hstays hg)

/-- A LEAVE that moves RSP to where it is, unless the stack there can be read. -/
def LeaveStays (m : GuestMemory) (r : RegFile) : Prop :=
  ¬m.Granted .read (r.gpr 5).toNat 8 → r.gpr 5 = r.gpr 4

/-- `Leave` of `execute_one`. -/
theorem preciseAt_leave_iff (h : Inv env m) : PreciseAt (guestFaulting env) (do
      alter fun r => r.setGpr 4 (r.gpr 5)
      let v ← popN 8
      alter (·.setGpr 5 v)) r m ↔ LeaveStays m r := by
  have hpop : Precise (guestFaulting env) (popN 8 >>= fun v => alter (·.setGpr 5 v)) :=
    (precise_popN 8).bind_noFault fun _ => noFault_alter _
  rw [preciseAt_alter_bind_iff (hpop _ m h), kept_setGpr, LeaveStays]
  simp only [NoFault.faults_bind_iff fun _ => noFault_alter _]
  rw [faults_popN_iff h, RegFile.setGpr_gpr_self, and_iff_right (by decide)]

/-! ### Two operands that are written -/

theorem run_writeMemValue (h : Inv env m) {r₁ : RegFile} {m₁ : GuestMemory}
    (hw : (writeMemValue a v n).run (device env) r m = some ((.ok (), r₁), m₁)) :
    r₁ = r ∧ Inv env m₁ ∧ m₁.Granted .write a.toNat n := by
  rw [writeMemValue] at hw
  split at hw
  · cases hw
  · obtain ⟨⟨ok, m₂⟩, hd, hw⟩ := Option.bind_eq_some_iff.mp hw
    rcases h.device_write hd with ⟨rfl, hwrote⟩ | ⟨rfl, -⟩
    · cases hw
      refine ⟨rfl, hwrote.inv h, ?_⟩
      rw [Granted, hwrote.table]
      rcases hwrote.granted with hnil | ⟨-, hg⟩
      · rename_i hn
        have := congrArg List.length hnil
        rw [length_toLe] at this
        exact absurd (.inl this) hn
      · rwa [length_toLe] at hg
    · cases hw

theorem run_lift_bind_ok {x : Except CpuError α} {β : Type} {f : α → Exec β} {b : β}
    {r₁ : RegFile} {m₁ : GuestMemory} (h : (Exec.lift x >>= f).run (device env) r m =
      some ((.ok b, r₁), m₁)) : ∃ a, x = .ok a ∧
        (f a).run (device env) r m = some ((.ok b, r₁), m₁) := by
  cases x with
  | error e => cases h
  | ok a => exact ⟨a, rfl, h⟩

/-- **A write of a memory operand that succeeds**: the same operand can be written again. -/
theorem run_writeOp_memory (h : Inv env m) (hk : i.opKind op = .memory) {r₁ : RegFile}
    {m₁ : GuestMemory}
    (hw : (i.writeOp op v).run (device env) r m = some ((.ok (), r₁), m₁)) (op' : ℕ) :
    r₁ = r ∧ Inv env m₁ ∧ ¬i.WriteDenied m₁ r op' := by
  obtain ⟨size, hsize, hw⟩ := run_lift_bind_ok hw
  rw [Insn.opSizeBytes, hk] at hsize
  rw [Insn.writeOpSized, hk] at hw
  obtain ⟨a, ha, hw⟩ := run_lift_bind_ok (x := i.effectiveAddress r) hw
  obtain ⟨rfl, hinv, hg⟩ := run_writeMemValue h hw
  refine ⟨rfl, hinv, ?_⟩
  rintro ⟨-, a', size', ha', hsize', -, hn⟩
  cases ha.symm.trans ha'
  cases hsize.symm.trans hsize'
  exact hn hg

theorem run_writeOp_register (hk : i.opKind op = .register) {r₁ : RegFile} {m₁ : GuestMemory} :
    (i.writeOp op v).run (device env) r m = some ((.ok (), r₁), m₁) ↔
      r.writeReg (i.opRegister op) v = .ok r₁ ∧ m₁ = m := by
  have hrun : i.writeOp op v = Exec.update (·.writeReg (i.opRegister op) v) := by
    funext r
    show (Exec.lift (i.opSizeBytes op) >>= i.writeOpSized op v) r = _
    rw [Insn.opSizeBytes, hk]
    show i.writeOpSized op v _ r = _
    rw [Insn.writeOpSized, hk]
  rw [hrun, Cmd.run, Exec.update]
  cases r.writeReg (i.opRegister op) v with
  | error e =>
    constructor
    · rintro ⟨⟩
    · rintro ⟨⟨⟩, -⟩
  | ok r₂ =>
    constructor
    · rintro ⟨⟩
      exact ⟨rfl, rfl⟩
    · rintro ⟨⟨⟩, rfl⟩
      rfl

/-- A first operand in a register that keeps its value, unless the second can be written. -/
def Insn.SecondStays (i : Insn) (m : GuestMemory) (r : RegFile) (v : BitVec 64) : Prop :=
  i.opKind 0 = .register → ∀ r', r.writeReg (i.opRegister 0) v = .ok r' → i.WriteDenied m r' 1 →
    r'.setRip r.rip = r

theorem Insn.SecondStays.of_memory (hk : i.opKind 0 = .memory) : i.SecondStays m r v := by
  intro hk'
  rw [hk] at hk'
  cases hk'

/-- The second operand is written after the first, as `y` does it. -/
theorem preciseAt_writeOp_bind_iff (h : Inv env m) (hs : Same m m') {y : Exec Unit}
    (hy : Precise (guestFaulting env) y) (hfaults : ∀ r₁ m₁, Inv env m₁ →
      ((∃ r' m', Faults (guestFaulting env) y r₁ m₁ r' m') ↔ i.WriteDenied m₁ r₁ 1)) :
    PreciseAt (guestFaulting env) (i.writeOp 0 v >>= fun _ => y) r m' ↔ i.SecondStays m r v := by
  have hinv := hs.inv h
  have hfirst : PreciseAt (guestFaulting env) (i.writeOp 0 v) r m' := precise_writeOp i 0 v r m' hinv
  rw [Insn.SecondStays]
  by_cases hk : i.opKind 0 = .register
  · rw [preciseAt_bind_iff hinv hfirst (fun _ => hy) fun _ r₁ m₁ hr => by
      rw [((run_writeOp_register hk).mp hr).2]
      exact .refl hinv.pages]
    constructor
    · intro hall _ r' hr hd
      exact hall () r' m' ((run_writeOp_register hk).mpr ⟨hr, rfl⟩)
        ((hfaults r' m' hinv).mpr ((Insn.writeDenied_congr hs).mpr hd))
    · intro hstays _ r₁ m₁ hr hd
      obtain ⟨hreg, rfl⟩ := (run_writeOp_register hk).mp hr
      exact hstays hk r₁ hreg ((Insn.writeDenied_congr hs).mp ((hfaults r₁ m₁ hinv).mp hd))
  · refine iff_of_true (hfirst.bind fun _ r₁ m₁ hr r₂ m₂ hd => ?_) fun hk' => absurd hk' hk
    by_cases hm : i.opKind 0 = .memory
    · obtain ⟨rfl, h₁, hn⟩ := run_writeOp_memory hinv hm hr 1
      exact hn ((hfaults r₁ m₁ h₁).mp ⟨r₂, m₂, hd⟩)
    · obtain ⟨size, -, hr⟩ := run_lift_bind_ok hr
      rw [Insn.writeOpSized] at hr
      split at hr
      · rename_i hk'
        exact hk hk'
      · rename_i hk'
        exact hm hk'
      · cases hr

/-- The first operand of XCHG stays as it is, or the second can be written. -/
def Insn.XchgStays (i : Insn) (env : HostEnv) (m : GuestMemory) (r : RegFile) : Prop :=
  ∀ a, i.Operand env m r 0 a → ∀ b, i.Operand env m r 1 b → i.SecondStays m r b

theorem preciseAt_execXchg_iff (h : Inv env m) :
    PreciseAt (guestFaulting env) (execXchg i) r m ↔ i.XchgStays env m r :=
  (quiet_readOp i 0).preciseAt_bind_iff h (.refl h.pages) fun a _ h₁ _ =>
    (quiet_readOp i 1).preciseAt_bind_iff h h₁ fun _ _ h₂ _ =>
    preciseAt_writeOp_bind_iff h h₂ (precise_writeOp i 1 a) fun _ _ hinv => faults_writeOp_iff hinv

/-- The same of XADD. -/
def Insn.XaddStays (i : Insn) (env : HostEnv) (m : GuestMemory) (r : RegFile) : Prop :=
  ∀ size, i.opSizeBytes 0 = .ok size → ∀ s, i.Operand env m r 1 s → ∀ d, i.Operand env m r 0 d →
    i.SecondStays m r ((d &&& sizeMask size) + (s &&& sizeMask size) &&& sizeMask size)

theorem noFault_lockedXadd (i : Insn) (size : ℕ) (src : BitVec 64) :
    NoFault (guestFaulting env) (lockedXadd i size src) := by
  rw [lockedXadd]
  split
  · refine (noFault_regs.bind fun _ => noFault_lift _).bind fun a => ?_
    rw [atomicFetchAdd]
    split
    · exact (noFault_tryFetchAdd _ _ _).bind fun _ => noFault_pure _
    · exact noFault_pure _
  · exact noFault_pure _

/-- **An addition in one step** is not done, or the operand can be written. -/
theorem run_lockedXadd (op : ℕ) (h : Inv env m) (hsize : i.opSizeBytes 0 = .ok n) {old : Option (BitVec 64)}
    {r₁ : RegFile} {m₁ : GuestMemory}
    (hr : (lockedXadd i n v).run (device env) r m = some ((.ok old, r₁), m₁)) :
    r₁ = r ∧ ((old = none ∧ Same m m₁) ∨
      ((∃ w, old = some w) ∧ Inv env m₁ ∧ ¬i.WriteDenied m₁ r op)) := by
  rw [lockedXadd] at hr
  split at hr
  · rename_i hlock
    obtain ⟨a, ha, hr⟩ := run_lift_bind_ok (x := i.effectiveAddress r) hr
    rw [atomicFetchAdd] at hr
    split at hr
    · rename_i hn
      rcases run_bind_eq_some.mp hr with ⟨e, ⟨⟩, -⟩ | ⟨w, r₂, m₂, hd, hend⟩
      cases hend
      obtain ⟨⟨w', m₂⟩, hadd, hw⟩ := Option.bind_eq_some_iff.mp hd
      cases hw
      rcases h.device_fetchAdd hadd with ⟨rfl, hs⟩ | ⟨rfl, hwrote⟩
      · exact ⟨rfl, .inl ⟨rfl, hs⟩⟩
      · refine ⟨rfl, .inr ⟨⟨_, rfl⟩, hwrote.inv h, ?_⟩⟩
        rintro ⟨-, a', n', ha', hn', -, hno⟩
        rw [Insn.opSizeBytes, show i.opKind 0 = .memory from hlock.2] at hsize
        cases ha.symm.trans ha'
        cases hsize.symm.trans hn'
        refine hno ?_
        rw [Granted, hwrote.table]
        rcases hwrote.granted with hnil | ⟨-, hg⟩
        · have := congrArg List.length hnil
          rw [length_toLe, List.length_nil] at this
          omega
        · rwa [length_toLe] at hg
    · cases hr
      exact ⟨rfl, .inl ⟨rfl, .refl h.pages⟩⟩
  · cases hr
    exact ⟨rfl, .inl ⟨rfl, .refl h.pages⟩⟩

theorem preciseAt_execXadd_iff (h : Inv env m) :
    PreciseAt (guestFaulting env) (execXadd i) r m ↔ i.XaddStays env m r := by
  -- what is left once the operands are known
  have hsecond (u : BitVec 64) (f : RegFile → RegFile) (r₁ : RegFile) (m₁ : GuestMemory)
      (h₁ : Inv env m₁) : (∃ r' m', Faults (guestFaulting env)
        (i.writeOp 1 u >>= fun _ => alter f) r₁ m₁ r' m') ↔ i.WriteDenied m₁ r₁ 1 := by
    simp only [NoFault.faults_bind_iff fun _ => noFault_alter f]
    exact faults_writeOp_iff h₁
  have hplain (size : ℕ) (s : BitVec 64) (m₁ : GuestMemory) (hs : Same m m₁) :
      PreciseAt (guestFaulting env) (do
        let dst ← i.readOp 0
        let dst := dst &&& sizeMask size
        let sum := dst + (s &&& sizeMask size) &&& sizeMask size
        i.writeOp 0 sum
        i.writeOp 1 dst
        alter fun r => r.setRflags (addFlags r.rflags dst (s &&& sizeMask size) sum size)) r m₁ ↔
      ∀ d, i.Operand env m r 0 d → i.SecondStays m r
        ((d &&& sizeMask size) + (s &&& sizeMask size) &&& sizeMask size) :=
    (quiet_readOp i 0).preciseAt_bind_iff h hs fun d m₂ h₂ _ =>
      preciseAt_writeOp_bind_iff h h₂ ((precise_writeOp i 1 _).bind_noFault fun _ =>
        noFault_alter _) (hsecond _ _)
  simp only [Insn.XaddStays, ← reads_lift_iff env m r]
  refine (quiet_lift _).preciseAt_bind_iff h (.refl h.pages) fun size m₁ h₁ hsize =>
    (quiet_readOp i 1).preciseAt_bind_iff h h₁ fun s m₂ h₂ _ => ?_
  have hinv := h₂.inv h
  by_cases hk : i.opKind 0 = .memory
  · -- the first operand is in memory, and then both can be written or none
    have hstays (d : BitVec 64) (_ : i.Operand env m r 0 d) := Insn.SecondStays.of_memory (m := m)
      (r := r) (v := (d &&& sizeMask size) + (s &&& sizeMask size) &&& sizeMask size) hk
    refine iff_of_true (fun r' m' hf => ?_) hstays
    rcases faults_bind_iff.mp hf with hf | ⟨old, r₁, m₃, hr, hf⟩
    · exact absurd hf (noFault_lockedXadd _ _ _ _ _ _ _)
    · obtain ⟨rfl, ⟨rfl, hs⟩ | ⟨⟨w, rfl⟩, h₃, hn⟩⟩ :=
        run_lockedXadd 1 hinv ((reads_lift_iff _ _ _).mp hsize) hr
      · obtain ⟨hkept, hs'⟩ := (hplain size s m₃ (h₂.trans hs)).mpr hstays r' m' hf
        exact ⟨hkept, hs.trans hs'⟩
      · exact absurd ((hsecond _ _ _ m₃ h₃).mp ⟨r', m', hf⟩) hn
  · rw [← hplain size s m₂ h₂]
    show PreciseAt _ (lockedXadd i size (s &&& sizeMask size) >>= _) r m₂ ↔ _
    rw [show lockedXadd i size (s &&& sizeMask size) = pure none from
      if_neg fun hlock => hk hlock.2]
    rfl

/-! ### Bits -/

/-- A bit in memory whose byte can be written, unless it cannot be read either, or the carry flag
is the bit. -/
def Insn.BitStays (i : Insn) (env : HostEnv) (m : GuestMemory) (r : RegFile) : Prop :=
  i.op0Kind = .memory → ∀ o, i.Operand env m r 1 o → ∀ base, i.effectiveAddress r = .ok base →
    ∀ buf, m.flat.load (bitPlace base o).1.toNat 1 = some buf →
      ¬m.Granted .write (bitPlace base o).1.toNat 1 →
      put r.rflags CF (.ofNat 64 (fromLe buf) &&& (bitPlace base o).2 ≠ 0) = r.rflags

theorem precise_execBit_bt (i : Insn) : Precise (guestFaulting env) (execBit i .bt) := by
  refine (quiet_readOp i 1).bind_precise fun o => ?_
  split
  · exact (quiet_readOp i 0).bind_precise fun v =>
      ((noFault_alter _).bind fun _ => noFault_pure _).precise
  · exact (quiet_address i).bind_precise fun base => (quiet_load _ _ _).bind_precise fun buf =>
      ((noFault_alter _).bind fun _ => noFault_pure _).precise
  · exact (quiet_fail _).precise

theorem reads_address_iff (env : HostEnv) (m : GuestMemory) :
    Reads (guestFaulting env) i.address r m a ↔ i.effectiveAddress r = .ok a :=
  reads_lift_iff env m r

theorem reads_load_flat_iff (h : Inv env m) {a : ℕ} {e : StepExecError} {buf : List UInt8} :
    Reads (guestFaulting env) (load a n e : Exec (List UInt8)) r m buf ↔
      m.flat.load a n = some buf := by
  rw [reads_load_iff, eq_comm]
  exact exists_device_read_iff h _

theorem preciseAt_execBit_iff (h : Inv env m) {op : BitOp} (hop : op ≠ .bt) :
    PreciseAt (guestFaulting env) (execBit i op) r m ↔ i.BitStays env m r := by
  by_cases hk : i.op0Kind = .memory
  · simp only [Insn.BitStays, imp_iff_right hk, ← reads_address_iff env m]
    refine (quiet_readOp i 1).preciseAt_bind_iff h (.refl h.pages) fun o m₁ h₁ _ => ?_
    rw [hk]
    refine (quiet_address i).preciseAt_bind_iff h h₁ fun base m₂ h₂ _ => ?_
    simp only [← reads_load_flat_iff (e := .invalidMemory
      ⟨ACCESS_READ, (bitPlace base o).1, 1, 0⟩) (r := r) h]
    refine (quiet_load _ _ _).preciseAt_bind_iff h h₂ fun buf m₃ h₃ _ => ?_
    have hinv := h₃.inv h
    have hwrite : Precise (guestFaulting env) (writeMemValue (bitPlace base o).1
      (op.apply (.ofNat 64 (fromLe buf)) (bitPlace base o).2) 1) := precise_writeMemValue _ _ _
    simp only [if_neg hop]
    rw [preciseAt_alter_bind_iff (hwrite _ _ hinv), faults_writeMemValue_iff hinv,
      and_iff_right (by decide), h₃.granted]
    exact imp_congr_right fun _ => kept_setRflags
  · refine iff_of_true (Quiet.bind_precise (quiet_readOp i 1) (fun o => ?_) r m h) fun hk' =>
      absurd hk' hk
    split
    · refine (quiet_readOp i 0).bind_precise fun v => ?_
      rename_i hreg
      refine NoFault.precise ((noFault_alter _).bind fun _ => ?_)
      simp only [if_neg hop]
      refine noFault_writeOp ?_
      rw [show i.opKind 0 = .register from hreg]
      decide
    · rename_i hm
      exact absurd hm hk
    · exact (quiet_fail _).precise

end

end Wie
