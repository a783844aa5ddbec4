import Mathlib.Data.Int.ModEq
import Mathlib.Logic.Relation
import Wie.Lib.Flat
import Wie.X86.Decode

/-!
# Running machine code

The code is at an address of its own and does not change; the memory it works on is another. A
step takes the instruction at the instruction pointer. An access that is not permitted ends the run
there, and so does a jump out of the code.

Flags that no condition and no string instruction here looks at are left out.

## Main definitions

* `X86.State` — registers, flags, instruction pointer and memory
* `X86.exec` — what an instruction does
* `X86.step`, `X86.Ends`, `X86.Reaches` — runs

## Main results

* `X86.Ends.unique` — there is one end
* `X86.repMovs_reaches`, `X86.repMovs_stuck` — REP MOVS
-/

namespace Wie

namespace X86

/-- The flags. -/
structure Flags where
  /-- Carry. -/
  cf : Bool
  /-- Zero. -/
  zf : Bool
  /-- Sign. -/
  sf : Bool
  /-- Direction. -/
  df : Bool
  deriving DecidableEq

/-- Whether a condition holds. -/
def Cond.holds (f : Flags) : Cond → Bool
  | .b => f.cf
  | .ae => !f.cf
  | .e => f.zf
  | .ne => !f.zf
  | .be => f.cf || f.zf
  | .a => !(f.cf || f.zf)
  | .s => f.sf
  | .ns => !f.sf

/-- The state of a machine. -/
structure State where
  /-- General registers. -/
  gpr : Fin 16 → BitVec 64
  /-- Flags. -/
  flags : Flags
  /-- Instruction pointer. -/
  rip : ℕ
  /-- Memory. -/
  mem : Flat

namespace State

variable (s : State)

/-- The number in the lower part of a register. -/
def reg (w : Width) (r : Fin 16) : ℕ := (s.gpr r).toNat % w.range

/-- What a register holds after a number is put in its lower part: 32 bits clear the upper half,
fewer leave the rest. -/
def merge (w : Width) (old : BitVec 64) (v : ℕ) : BitVec 64 :=
  match w with
  | .qword | .dword => .ofNat 64 (v % w.range)
  | .word | .byte => .ofNat 64 (old.toNat - old.toNat % w.range + v % w.range)

/-- Put a value in a register. -/
def setGpr (r : Fin 16) (v : BitVec 64) : State := { s with gpr := Function.update s.gpr r v }

/-- Put a number in a register. -/
def setReg (w : Width) (r : Fin 16) (v : ℕ) : State := s.setGpr r (merge w (s.gpr r) v)

/-- Set the flags. -/
def setFlags (f : Flags) : State := { s with flags := f }

/-- Go on with another memory. -/
def setMem (m : Flat) : State := { s with mem := m }

/-- Go on at an address. -/
def goTo (a : ℕ) : State := { s with rip := a }

/-- The address of a memory operand. -/
def address (m : MemRef) : ℕ :=
  (((s.gpr m.base).toNat + (m.index.elim 0 fun i => (s.gpr i).toNat) + m.disp : ℤ) % 2 ^ 64).toNat

/-- Read an operand. -/
def read (w : Width) : Operand → Option ℕ
  | .reg r => some (s.reg w r)
  | .mem m => s.mem.loadLe (s.address m) w.bytes
  | .imm v => some (v % w.range).toNat

/-- Write an operand. -/
def write (w : Width) (dst : Operand) (v : ℕ) : Option State :=
  match dst with
  | .reg r => some (s.setReg w r v)
  | .mem m => (s.mem.storeLe (s.address m) w.bytes v).map s.setMem
  | .imm _ => none

end State

/-! ### Instructions -/

/-- The flags of a result, with a carry. -/
def Flags.ofResult (f : Flags) (w : Width) (v : ℕ) (carry : Bool) : Flags :=
  { f with cf := carry, zf := decide (v = 0), sf := decide (w.range ≤ 2 * v) }

/-- The result and the flags of an operation on two numbers. -/
def AluOp.apply (f : Flags) (w : Width) (a b : ℕ) : AluOp → ℕ × Flags
  | .cmp =>
    ((a + w.range - b) % w.range, f.ofResult w ((a + w.range - b) % w.range) (decide (a < b)))
  | .test => (a &&& b, f.ofResult w (a &&& b) false)
  | .xor => (a ^^^ b, f.ofResult w (a ^^^ b) false)

/-- The target of a relative jump. -/
def jumpTarget (next : ℕ) (rel : ℤ) : ℕ := ((next + rel : ℤ) % 2 ^ 64).toNat

/-- How far a string instruction moves. -/
def stride (f : Flags) (w : Width) : BitVec 64 :=
  if f.df then -.ofNat 64 w.bytes else .ofNat 64 w.bytes

/-- What an instruction does; `next` is the address of the one after it. Nothing is left of a step
whose access is not permitted. -/
def exec (i : Instr) (next : ℕ) (s : State) : Option State :=
  match i with
  | .mov w dst src => do
    let v ← s.read w src
    (s.goTo next).write w dst v
  | .movzx dst src => do
    let v ← s.read .byte src
    some ((s.goTo next).setReg .dword dst v)
  | .lea w dst m => some ((s.goTo next).setReg w dst (s.address m))
  | .alu op w dst src => do
    let a ← s.read w dst
    let b ← s.read w src
    let s' := (s.goTo next).setFlags (op.apply s.flags w a b).2
    match op with
    | .xor => s'.write w dst (op.apply s.flags w a b).1
    | _ => some s'
  | .inc w dst => do
    let a ← s.read w dst
    let v := (a + 1) % w.range
    ((s.goTo next).setFlags (s.flags.ofResult w v s.flags.cf)).write w dst v
  | .dec w dst => do
    let a ← s.read w dst
    let v := (a + w.range - 1) % w.range
    ((s.goTo next).setFlags (s.flags.ofResult w v s.flags.cf)).write w dst v
  | .push r => do
    let mem ← s.mem.storeLe (s.gpr 4 - 8).toNat 8 (s.gpr r).toNat
    some (((s.goTo next).setGpr 4 (s.gpr 4 - 8)).setMem mem)
  | .pop r => do
    let v ← s.mem.loadLe (s.gpr 4).toNat 8
    some (((s.goTo next).setGpr 4 (s.gpr 4 + 8)).setGpr r (.ofNat 64 v))
  | .jcc c rel => some (s.goTo (if c.holds s.flags then jumpTarget next rel else next))
  | .jmp rel => some (s.goTo (jumpTarget next rel))
  | .jmpTo dst => do
    let v ← s.read .qword dst
    some (s.goTo v)
  | .cld => some ((s.goTo next).setFlags { s.flags with df := false })
  | .stos w => do
    let mem ← s.mem.storeLe (s.gpr 7).toNat w.bytes (s.reg w 0)
    some (((s.goTo next).setGpr 7 (s.gpr 7 + stride s.flags w)).setMem mem)
  | .repMovs w =>
    if s.gpr 1 = 0 then some (s.goTo next)
    else do
      let v ← s.mem.loadLe (s.gpr 6).toNat w.bytes
      let mem ← s.mem.storeLe (s.gpr 7).toNat w.bytes v
      -- the instruction pointer stays
      some ((((s.setGpr 6 (s.gpr 6 + stride s.flags w)).setGpr 7
        (s.gpr 7 + stride s.flags w)).setGpr 1 (s.gpr 1 - 1)).setMem mem)
  | .ret => do
    let v ← s.mem.loadLe (s.gpr 4).toNat 8
    some ((s.goTo v).setGpr 4 (s.gpr 4 + 8))

/-! ### Runs -/

/-- One step of code at an address. -/
def step (code : List UInt8) (base : ℕ) (s : State) : Option State :=
  if base ≤ s.rip ∧ s.rip < base + code.length then
    (decode (code.drop (s.rip - base))).bind fun (i, n) => exec i (s.rip + n) s
  else none

/-- A run from one state to another, in which there is no further step. -/
inductive Ends (code : List UInt8) (base : ℕ) : State → State → Prop
  /-- It is over. -/
  | here {s : State} (h : step code base s = none) : Ends code base s s
  /-- It goes on. -/
  | next {s s₁ t : State} (h : step code base s = some s₁) (hrest : Ends code base s₁ t) :
      Ends code base s t

variable {code : List UInt8} {base : ℕ} {s s₁ t t' : State}

/-- **There is one end.** -/
theorem Ends.unique (h : Ends code base s t) (h' : Ends code base s t') : t = t' := by
  induction h with
  | here hs =>
    cases h' with
    | here => rfl
    | next hs' => exact nomatch hs.symm.trans hs'
  | next hs _ ih =>
    cases h' with
    | here hs' => exact nomatch hs.symm.trans hs'
    | next hs' hrest =>
      cases hs.symm.trans hs'
      exact ih hrest

/-- A state outside the code is an end. -/
theorem Ends.out (h : s.rip < base ∨ base + code.length ≤ s.rip) : Ends code base s s :=
  .here (if_neg (by omega))

theorem decode_nil : decode [] = none := rfl

/-- The step at an offset of the code. -/
theorem step_at {k n : ℕ} {i : Instr} (hrip : s.rip = base + k)
    (hd : decode (code.drop k) = some (i, n)) : step code base s = exec i (base + k + n) s := by
  have hk : k < code.length := by
    by_contra hle
    rw [List.drop_eq_nil_of_le (by omega), decode_nil] at hd
    cases hd
  rw [step, if_pos (by omega), hrip, Nat.add_sub_cancel_left, hd]
  rfl

/-- Some steps of a run. -/
def Reaches (code : List UInt8) (base : ℕ) : State → State → Prop :=
  Relation.ReflTransGen fun s t => step code base s = some t

theorem Reaches.ends (h : Reaches code base s s₁) (ht : Ends code base s₁ t) :
    Ends code base s t := by
  induction h using Relation.ReflTransGen.head_induction_on with
  | refl => exact ht
  | head hs _ ih => exact .next hs ih

/-- The step at an offset, and what follows. -/
theorem Reaches.at {k n : ℕ} {i : Instr} (hrip : s.rip = base + k)
    (hd : decode (code.drop k) = some (i, n)) (he : exec i (base + k + n) s = some s₁)
    (hrest : Reaches code base s₁ t) : Reaches code base s t :=
  .head ((step_at hrip hd).trans he) hrest

/-! ### Registers -/

namespace State

section Fields

variable (s : State) (a : ℕ) (r : Fin 16) (v : BitVec 64) (f : Flags) (m : Flat)

@[simp] theorem goTo_gpr : (s.goTo a).gpr = s.gpr := rfl
@[simp] theorem goTo_mem : (s.goTo a).mem = s.mem := rfl
@[simp] theorem goTo_flags : (s.goTo a).flags = s.flags := rfl
@[simp] theorem goTo_rip : (s.goTo a).rip = a := rfl

@[simp] theorem setGpr_mem : (s.setGpr r v).mem = s.mem := rfl
@[simp] theorem setGpr_flags : (s.setGpr r v).flags = s.flags := rfl
@[simp] theorem setGpr_rip : (s.setGpr r v).rip = s.rip := rfl
@[simp] theorem setGpr_gpr_self : (s.setGpr r v).gpr r = v := Function.update_self ..

@[simp] theorem setMem_gpr : (s.setMem m).gpr = s.gpr := rfl
@[simp] theorem setMem_mem : (s.setMem m).mem = m := rfl
@[simp] theorem setMem_flags : (s.setMem m).flags = s.flags := rfl
@[simp] theorem setMem_rip : (s.setMem m).rip = s.rip := rfl

@[simp] theorem setFlags_gpr : (s.setFlags f).gpr = s.gpr := rfl
@[simp] theorem setFlags_mem : (s.setFlags f).mem = s.mem := rfl
@[simp] theorem setFlags_flags : (s.setFlags f).flags = f := rfl
@[simp] theorem setFlags_rip : (s.setFlags f).rip = s.rip := rfl

variable (w : Width) (n : ℕ)

@[simp] theorem setReg_mem : (s.setReg w r n).mem = s.mem := rfl
@[simp] theorem setReg_flags : (s.setReg w r n).flags = s.flags := rfl
@[simp] theorem setReg_rip : (s.setReg w r n).rip = s.rip := rfl
@[simp] theorem setReg_gpr_self : (s.setReg w r n).gpr r = merge w (s.gpr r) n :=
  s.setGpr_gpr_self ..

end Fields

theorem setGpr_gpr_of_ne (s : State) {r i : Fin 16} (h : i ≠ r) (v : BitVec 64) :
    (s.setGpr r v).gpr i = s.gpr i := Function.update_of_ne h ..

theorem setReg_gpr_of_ne (s : State) (w : Width) {r i : Fin 16} (h : i ≠ r) (v : ℕ) :
    (s.setReg w r v).gpr i = s.gpr i := s.setGpr_gpr_of_ne h _

theorem merge_qword (old v : BitVec 64) : merge .qword old v.toNat = v := by
  change BitVec.ofNat 64 (v.toNat % 2 ^ 64) = v
  rw [Nat.mod_eq_of_lt v.isLt, BitVec.ofNat_toNat, BitVec.setWidth_eq]

theorem toNat_merge_dword (old : BitVec 64) (v : ℕ) : (merge .dword old v).toNat = v % 2 ^ 32 := by
  change (BitVec.ofNat 64 (v % 2 ^ 32)).toNat = _
  rw [BitVec.toNat_ofNat]
  omega

theorem reg_qword (s : State) (r : Fin 16) : s.reg .qword r = (s.gpr r).toNat :=
  Nat.mod_eq_of_lt (s.gpr r).isLt

end State

/-! ### Instructions that touch memory -/

theorem exec_load {w : Width} {r : Fin 16} {m : MemRef} {next v : ℕ}
    (h : s.mem.loadLe (s.address m) w.bytes = some v) :
    exec (.mov w (.reg r) (.mem m)) next s = some ((s.goTo next).setReg w r v) := by
  change (s.mem.loadLe _ _).bind _ = _
  rw [h]
  rfl

theorem exec_push {r : Fin 16} {next : ℕ} (h : s.mem.Rw (s.gpr 4 - 8).toNat 8) :
    exec (.push r) next s = some (((s.goTo next).setGpr 4 (s.gpr 4 - 8)).setMem
      (s.mem.set (s.gpr 4 - 8).toNat 8 (s.gpr r).toNat)) := by
  change (s.mem.storeLe _ _ _).bind _ = _
  rw [h.storeLe]
  rfl

theorem exec_pop {r : Fin 16} {next v : ℕ} (h : s.mem.loadLe (s.gpr 4).toNat 8 = some v) :
    exec (.pop r) next s =
      some (((s.goTo next).setGpr 4 (s.gpr 4 + 8)).setGpr r (.ofNat 64 v)) := by
  change (s.mem.loadLe _ _).bind _ = _
  rw [h]
  rfl

theorem exec_ret {next v : ℕ} (h : s.mem.loadLe (s.gpr 4).toNat 8 = some v) :
    exec .ret next s = some ((s.goTo v).setGpr 4 (s.gpr 4 + 8)) := by
  change (s.mem.loadLe _ _).bind _ = _
  rw [h]
  rfl

/-! ### Comparing and jumping -/

theorem jumpTarget_eq {next target : ℕ} {rel : ℤ} (h : (next : ℤ) + rel = target)
    (ht : target < 2 ^ 64) : jumpTarget next rel = target := by
  rw [jumpTarget, h]
  omega

section Compare

variable {f : Flags} {w : Width} {a b : ℕ}

theorem Width.range_pos (w : Width) : 0 < w.range := Nat.pow_pos (by decide)

theorem cmp_zf (ha : a < w.range) (hb : b < w.range) :
    (AluOp.apply f w a b .cmp).2.zf = decide (a = b) := by
  have hiff : (a + w.range - b) % w.range = 0 ↔ a = b := by
    by_cases hab : b ≤ a
    · have hsum : a + w.range - b = a - b + w.range := by omega
      rw [hsum, Nat.add_mod_right, Nat.mod_eq_of_lt (by omega)]
      omega
    · rw [Nat.mod_eq_of_lt (by omega)]
      omega
  exact decide_eq_decide.mpr hiff

theorem cmp_cf : (AluOp.apply f w a b .cmp).2.cf = decide (a < b) := rfl

theorem holds_cmp_e (ha : a < w.range) (hb : b < w.range) :
    Cond.holds (AluOp.apply f w a b .cmp).2 .e = true ↔ a = b := by
  rw [Cond.holds, cmp_zf ha hb, decide_eq_true_eq]

theorem holds_cmp_ne (ha : a < w.range) (hb : b < w.range) :
    Cond.holds (AluOp.apply f w a b .cmp).2 .ne = true ↔ a ≠ b := by
  rw [Cond.holds, cmp_zf ha hb, Bool.not_eq_true', decide_eq_false_iff_not]

theorem holds_cmp_b : Cond.holds (AluOp.apply f w a b .cmp).2 .b = true ↔ a < b := by
  rw [Cond.holds, cmp_cf, decide_eq_true_eq]

theorem holds_cmp_be (ha : a < w.range) (hb : b < w.range) :
    Cond.holds (AluOp.apply f w a b .cmp).2 .be = true ↔ a ≤ b := by
  rw [Cond.holds, cmp_zf ha hb, cmp_cf, Bool.or_eq_true, decide_eq_true_eq, decide_eq_true_eq]
  omega

theorem holds_cmp_a (ha : a < w.range) (hb : b < w.range) :
    Cond.holds (AluOp.apply f w a b .cmp).2 .a = true ↔ b < a := by
  rw [Cond.holds, cmp_zf ha hb, cmp_cf, Bool.not_eq_true', Bool.or_eq_false_iff,
    decide_eq_false_iff_not, decide_eq_false_iff_not]
  omega

theorem holds_test_e : Cond.holds (AluOp.apply f w a a .test).2 .e = true ↔ a = 0 := by
  change decide (a &&& a = 0) = true ↔ _
  rw [Nat.and_self, decide_eq_true_eq]

theorem holds_test_ne : Cond.holds (AluOp.apply f w a a .test).2 .ne = true ↔ a ≠ 0 := by
  change (!decide (a &&& a = 0)) = true ↔ _
  rw [Nat.and_self, Bool.not_eq_true', decide_eq_false_iff_not]

theorem holds_test_s : Cond.holds (AluOp.apply f w a a .test).2 .s = true ↔ w.range ≤ 2 * a := by
  change decide (w.range ≤ 2 * (a &&& a)) = true ↔ _
  rw [Nat.and_self, decide_eq_true_eq]

/-- **A comparison and a jump**: nothing but flags changes. -/
theorem reaches_compare {k n₁ n₂ : ℕ} {op : AluOp} {dst src : Operand} {c : Cond} {rel : ℤ}
    {P : Prop} [Decidable P] (hrip : s.rip = base + k)
    (h₁ : decode (code.drop k) = some (.alu op w dst src, n₁))
    (h₂ : decode (code.drop (k + n₁)) = some (.jcc c rel, n₂)) (hop : op ≠ .xor)
    (ha : s.read w dst = some a) (hb : s.read w src = some b)
    (hP : c.holds (op.apply s.flags w a b).2 = true ↔ P) :
    ∃ t, Reaches code base s t ∧ t.gpr = s.gpr ∧ t.mem = s.mem ∧ t.flags.df = s.flags.df ∧
      t.rip = if P then jumpTarget (base + (k + n₁ + n₂)) rel else base + (k + n₁ + n₂) := by
  have he : exec (.alu op w dst src) (base + k + n₁) s =
      some ((s.goTo (base + k + n₁)).setFlags (op.apply s.flags w a b).2) := by
    change (s.read w dst).bind _ = _
    rw [ha]
    change (s.read w src).bind _ = _
    rw [hb]
    cases op with
    | xor => exact absurd rfl hop
    | cmp => rfl
    | test => rfl
  have hdf : (op.apply s.flags w a b).2.df = s.flags.df := by cases op <;> rfl
  refine ⟨_, .at hrip h₁ he (.at (Nat.add_assoc base k n₁) h₂ rfl .refl), rfl, rfl, hdf, ?_⟩
  have hnext : base + (k + n₁) + n₂ = base + (k + n₁ + n₂) := Nat.add_assoc ..
  rw [← hnext]
  change (if c.holds (op.apply s.flags w a b).2 = true then _ else _) = _
  exact if_congr hP rfl rfl

end Compare

/-! ### REP MOVS -/

section RepMovs

variable {k n : ℕ} {w : Width}

/-- The machine after one element went upwards. -/
def State.moved (s : State) (w : Width) (m : Flat) : State :=
  (((s.setGpr 6 (s.gpr 6 + .ofNat 64 w.bytes)).setGpr 7 (s.gpr 7 + .ofNat 64 w.bytes)).setGpr 1
    (s.gpr 1 - 1)).setMem m

namespace State

variable (s : State) (w : Width) (m : Flat)

@[simp] theorem moved_mem : (s.moved w m).mem = m := rfl
@[simp] theorem moved_flags : (s.moved w m).flags = s.flags := rfl
@[simp] theorem moved_rip : (s.moved w m).rip = s.rip := rfl
@[simp] theorem moved_rcx : (s.moved w m).gpr 1 = s.gpr 1 - 1 := rfl
@[simp] theorem moved_rsi : (s.moved w m).gpr 6 = s.gpr 6 + .ofNat 64 w.bytes := rfl
@[simp] theorem moved_rdi : (s.moved w m).gpr 7 = s.gpr 7 + .ofNat 64 w.bytes := rfl

theorem moved_gpr {r : Fin 16} (h1 : r ≠ 1) (h6 : r ≠ 6) (h7 : r ≠ 7) :
    (s.moved w m).gpr r = s.gpr r := by
  rw [moved, setMem_gpr, setGpr_gpr_of_ne _ h1, setGpr_gpr_of_ne _ h7, setGpr_gpr_of_ne _ h6]

end State

/-- One element. -/
theorem step_repMovs (hrip : s.rip = base + k)
    (hd : decode (code.drop k) = some (.repMovs w, n)) (hdf : s.flags.df = false)
    (hrcx : s.gpr 1 ≠ 0) {v : ℕ} {m : Flat} (hload : s.mem.loadLe (s.gpr 6).toNat w.bytes = some v)
    (hstore : s.mem.storeLe (s.gpr 7).toNat w.bytes v = some m) :
    step code base s = some (s.moved w m) := by
  have hstride : stride s.flags w = .ofNat 64 w.bytes := by simp [stride, hdf]
  rw [step_at hrip hd, exec, if_neg hrcx, hload, hstride]
  change (s.mem.storeLe _ _ v).bind _ = _
  rw [hstore]
  rfl

/-- The element is moved, or the run is over. -/
theorem step_repMovs_eq_none (hrip : s.rip = base + k)
    (hd : decode (code.drop k) = some (.repMovs w, n)) (hrcx : s.gpr 1 ≠ 0)
    (h : s.mem.loadLe (s.gpr 6).toNat w.bytes = none ∨
      ∀ v, s.mem.storeLe (s.gpr 7).toNat w.bytes v = none) : step code base s = none := by
  rw [step_at hrip hd, exec, if_neg hrcx]
  rcases h with h | h
  · rw [h]
    rfl
  · cases s.mem.loadLe (s.gpr 6).toNat w.bytes with
    | none => rfl
    | some v =>
      change (s.mem.storeLe _ _ v).bind _ = _
      rw [h v]
      rfl

theorem toNat_add_bytes {a : BitVec 64} (h : a.toNat + w.bytes < 2 ^ 64) :
    (a + .ofNat 64 w.bytes).toNat = a.toNat + w.bytes := by
  have hw : w.bytes < 2 ^ 64 := by omega
  rw [BitVec.toNat_add, BitVec.toNat_ofNat, Nat.mod_eq_of_lt hw, Nat.mod_eq_of_lt h]

theorem toNat_sub_one {a : BitVec 64} {c : ℕ} (h : a.toNat = c + 1) : (a - 1).toNat = c := by
  have := a.isLt
  rw [BitVec.toNat_sub, h]
  change (2 ^ 64 - 1 + (c + 1)) % 2 ^ 64 = c
  omega

theorem ne_zero_of_toNat {a : BitVec 64} {c : ℕ} (h : a.toNat = c + 1) : a ≠ 0 := by
  rintro rfl
  exact absurd h (by simp)

/-- **REP MOVS** upwards, between ranges apart from each other. -/
theorem repMovs_reaches (hd : decode (code.drop k) = some (.repMovs w, n)) {count : ℕ} :
    ∀ {s : State}, s.rip = base + k → s.flags.df = false → (s.gpr 1).toNat = count →
      (∀ x, (s.gpr 6).toNat ≤ x → x < (s.gpr 6).toNat + count * w.bytes →
        s.mem.readable x = true) →
      s.mem.Rw (s.gpr 7).toNat (count * w.bytes) →
      ((s.gpr 6).toNat + count * w.bytes ≤ (s.gpr 7).toNat ∨
        (s.gpr 7).toNat + count * w.bytes ≤ (s.gpr 6).toNat) →
      (s.gpr 6).toNat + count * w.bytes < 2 ^ 64 → (s.gpr 7).toNat + count * w.bytes < 2 ^ 64 →
      ∃ t, Reaches code base s t ∧ t.rip = base + k + n ∧ t.flags = s.flags ∧
        (∀ r, r ≠ 1 → r ≠ 6 → r ≠ 7 → t.gpr r = s.gpr r) ∧
        t.mem = s.mem.put (s.gpr 7).toNat (s.mem.bytes (s.gpr 6).toNat (count * w.bytes)) := by
  induction count with
  | zero =>
    intro s hrip hdf hrcx _ _ _ _ _
    have hzero : s.gpr 1 = 0 := BitVec.eq_of_toNat_eq hrcx
    refine ⟨s.goTo (base + k + n), .at hrip hd ?_ .refl, rfl, rfl, fun r _ _ _ => rfl, ?_⟩
    · rw [exec, if_pos hzero]
    · rw [Nat.zero_mul]
      exact (Flat.put_nil _ _).symm
  | succ count ih =>
    intro s hrip hdf hrcx hsrc hdst hapart ha hb
    rw [Nat.succ_mul] at hsrc hdst hapart ha hb
    have hload : s.mem.loadLe (s.gpr 6).toNat w.bytes = some (s.mem.get (s.gpr 6).toNat w.bytes) :=
      Flat.loadLe_eq fun x h1 h2 => hsrc x h1 (by omega)
    have hstore := (hdst.mono (b := (s.gpr 7).toNat) (k := w.bytes) le_rfl (by omega)).storeLe
      (s.mem.get (s.gpr 6).toNat w.bytes)
    have hset : s.mem.set (s.gpr 7).toNat w.bytes (s.mem.get (s.gpr 6).toNat w.bytes) =
        s.mem.put (s.gpr 7).toNat (s.mem.bytes (s.gpr 6).toNat w.bytes) := by
      have hle := toLe_fromLe (s.mem.bytes (s.gpr 6).toNat w.bytes)
      rw [Flat.length_bytes] at hle
      rw [Flat.set, Flat.get, hle]
    rw [hset] at hstore
    have hstep := step_repMovs hrip hd hdf (ne_zero_of_toNat hrcx) hload hstore
    obtain ⟨s₁, hs₁⟩ : ∃ s₁, s₁ = s.moved w
      (s.mem.put (s.gpr 7).toNat (s.mem.bytes (s.gpr 6).toNat w.bytes)) := ⟨_, rfl⟩
    have hg6 : (s₁.gpr 6).toNat = (s.gpr 6).toNat + w.bytes := by
      rw [hs₁, State.moved_rsi, toNat_add_bytes (by omega)]
    have hg7 : (s₁.gpr 7).toNat = (s.gpr 7).toNat + w.bytes := by
      rw [hs₁, State.moved_rdi, toNat_add_bytes (by omega)]
    have hg1 : (s₁.gpr 1).toNat = count := by rw [hs₁, State.moved_rcx, toNat_sub_one hrcx]
    obtain ⟨t, ht, hrip', hflags, hgpr, hmem⟩ := ih (s := s₁) (hs₁ ▸ hrip) (hs₁ ▸ hdf) hg1
      (fun x hx1 hx2 => by
        rw [hs₁]
        exact hsrc x (by omega) (by omega))
      ((hdst.mono (by omega) (by omega)).congr (hs₁ ▸ rfl)) (by omega) (by omega) (by omega)
    refine ⟨t, .head (hstep.trans (congrArg some hs₁.symm)) ht, hrip', hflags.trans (hs₁ ▸ rfl),
      fun r hr1 hr6 hr7 => ?_, ?_⟩
    · rw [hgpr r hr1 hr6 hr7, hs₁, State.moved_gpr _ _ _ hr1 hr6 hr7]
    · have hsame : s₁.mem.bytes ((s.gpr 6).toNat + w.bytes) (count * w.bytes) =
          s.mem.bytes ((s.gpr 6).toNat + w.bytes) (count * w.bytes) :=
        Flat.bytes_congr fun x hx1 hx2 => by
          rw [hs₁]
          exact Flat.byte_put_of_notMem (by
            rw [Flat.length_bytes]
            omega)
      have happ := Flat.put_append s.mem (s.gpr 7).toNat (s.mem.bytes (s.gpr 6).toNat w.bytes)
        (s.mem.bytes ((s.gpr 6).toNat + w.bytes) (count * w.bytes))
      rw [Flat.length_bytes] at happ
      rw [hmem, hg6, hg7, hsame, hs₁, State.moved_mem, happ, ← Flat.bytes_add, Nat.succ_mul,
        Nat.add_comm w.bytes]

/-- REP MOVS over a range that may not be read or written does not get past it. -/
theorem repMovs_stuck (hd : decode (code.drop k) = some (.repMovs w, n)) {count : ℕ} :
    ∀ {s : State}, s.rip = base + k → s.flags.df = false → (s.gpr 1).toNat = count →
      (s.gpr 6).toNat + count * w.bytes < 2 ^ 64 → (s.gpr 7).toNat + count * w.bytes < 2 ^ 64 →
      ¬((∀ x, (s.gpr 6).toNat ≤ x → x < (s.gpr 6).toNat + count * w.bytes →
          s.mem.readable x = true) ∧ s.mem.Rw (s.gpr 7).toNat (count * w.bytes)) →
      ∃ t, Ends code base s t ∧ t.rip = base + k := by
  induction count with
  | zero =>
    intro s _ _ _ _ _ hnot
    rw [Nat.zero_mul] at hnot
    exact absurd ⟨fun x h1 h2 => by omega, fun x h1 h2 => by omega⟩ hnot
  | succ count ih =>
    intro s hrip hdf hrcx ha hb hnot
    rw [Nat.succ_mul] at ha hb hnot
    have hne := ne_zero_of_toNat hrcx
    cases hload : s.mem.loadLe (s.gpr 6).toNat w.bytes with
    | none => exact ⟨s, .here (step_repMovs_eq_none hrip hd hne (.inl hload)), hrip⟩
    | some v =>
      cases hstore : s.mem.storeLe (s.gpr 7).toNat w.bytes v with
      | none =>
        refine ⟨s, .here (step_repMovs_eq_none hrip hd hne (.inr fun v' => ?_)), hrip⟩
        cases hstore' : s.mem.storeLe (s.gpr 7).toNat w.bytes v' with
        | none => rfl
        | some m' =>
          rw [(Flat.storeLe_eq_some hstore').2.storeLe v] at hstore
          cases hstore
      | some m =>
        obtain ⟨hm, hrw⟩ := Flat.storeLe_eq_some hstore
        have hstep := step_repMovs hrip hd hdf hne hload hstore
        obtain ⟨s₁, hs₁⟩ : ∃ s₁, s₁ = s.moved w m := ⟨_, rfl⟩
        have hg6 : (s₁.gpr 6).toNat = (s.gpr 6).toNat + w.bytes := by
          rw [hs₁, State.moved_rsi, toNat_add_bytes (by omega)]
        have hg7 : (s₁.gpr 7).toNat = (s.gpr 7).toNat + w.bytes := by
          rw [hs₁, State.moved_rdi, toNat_add_bytes (by omega)]
        have hg1 : (s₁.gpr 1).toNat = count := by rw [hs₁, State.moved_rcx, toNat_sub_one hrcx]
        have hperm : s₁.mem.readable = s.mem.readable ∧ s₁.mem.writable = s.mem.writable := by
          rw [hs₁, State.moved_mem, hm]
          exact ⟨rfl, rfl⟩
        obtain ⟨t, ht, hrip'⟩ := ih (s := s₁) (hs₁ ▸ hrip) (hs₁ ▸ hdf) hg1 (by omega) (by omega)
          (by
            rintro ⟨hr, hw⟩
            refine hnot ⟨fun x h1 h2 => ?_, fun x h1 h2 => ?_⟩
            · by_cases hx : x < (s.gpr 6).toNat + w.bytes
              · exact Flat.readable_of_loadLe hload h1 hx
              · rw [← hperm.1]
                exact hr x (by omega) (by omega)
            · by_cases hx : x < (s.gpr 7).toNat + w.bytes
              · exact hrw x h1 hx
              · rw [← hperm.2]
                exact hw x (by omega) (by omega))
        exact ⟨t, .next (hstep.trans (congrArg some hs₁.symm)) ht, hrip'⟩

end RepMovs

end X86

end Wie
