import Wie.Eh.VirtualUnwind

/-!
# Prologues and their unwind data

What the unwind codes of Win64 mean: each stands for an operation of a prologue, and the array lists
the operations last first. A prologue runs on a frame, which is the registers, the memory and a
record of the slots that were stored to; the data that describes it is a string of bytes in the
image.

Nothing here is taken from the unwinder. Addresses are natural numbers, and a prologue is run only
where there is room for its frame.

## Main definitions

* `PrologOp` — the operations, with the operands of their codes
* `Prolog`, `UnwindData` — an `UNWIND_INFO`, and one with its chain and its handler
* `Prolog.run`, `UnwindData.run` — a prologue executed
* `UnwindData.At` — the data laid out in an image
* `Prolog.WellFormed`, `UnwindData.WellFormed`
-/

namespace Wie

/-- A register that a prologue saves. -/
inductive Saved
  | gpr (reg : Fin 16)
  | xmm (reg : Fin 16)
deriving DecidableEq

namespace Saved

/-- Bytes of the register. -/
def width : Saved → ℕ
  | gpr _ => 8
  | xmm _ => 16

theorem width_pos (r : Saved) : 0 < r.width := by
  cases r with
  | gpr r => exact Nat.zero_lt_succ 7
  | xmm r => exact Nat.zero_lt_succ 15

/-- Value of the register. -/
def value (g : Gprs) (x : Xmms) : Saved → ℕ
  | gpr r => (g r).toNat
  | xmm r => (x r).toNat

/-- Whether callees have to keep the register. -/
def Nonvolatile : Saved → Prop
  | gpr r => r ∈ [3, 5, 6, 7, 12, 13, 14, 15]
  | xmm r => 6 ≤ r

instance (r : Saved) : Decidable r.Nonvolatile :=
  match r with
  | gpr r => inferInstanceAs (Decidable (r ∈ [3, 5, 6, 7, 12, 13, 14, 15]))
  | xmm r => inferInstanceAs (Decidable (6 ≤ r))

end Saved

/-- An operation of a prologue, with the operands of its unwind code. -/
inductive PrologOp
  /-- Push a register. -/
  | pushNonvol (reg : Fin 16)
  /-- Allocate `8 * n + 8` bytes. -/
  | allocSmall (n : Fin 16)
  /-- Allocate `8 * n` bytes. -/
  | allocLarge (n : BitVec 16)
  /-- Allocate `n` bytes. -/
  | allocLargeFar (n : BitVec 32)
  /-- Set the frame pointer. -/
  | setFpreg
  /-- Save a general register at `8 * n`. -/
  | saveNonvol (reg : Fin 16) (n : BitVec 16)
  /-- Save a general register at `n`. -/
  | saveNonvolFar (reg : Fin 16) (n : BitVec 32)
  /-- Save an XMM register at `16 * n`. -/
  | saveXmm128 (reg : Fin 16) (n : BitVec 16)
  /-- Save an XMM register at `n`. -/
  | saveXmm128Far (reg : Fin 16) (n : BitVec 32)
deriving DecidableEq

namespace PrologOp

/-- How far the operation lowers the stack pointer. -/
def size : PrologOp → ℕ
  | pushNonvol _ => 8
  | allocSmall n => n * 8 + 8
  | allocLarge n => n.toNat * 8
  | allocLargeFar n => n.toNat
  | _ => 0

/-- What a save stores, and its offset from the base of the frame. -/
def save : PrologOp → Option (Saved × ℕ)
  | saveNonvol r n => some (.gpr r, n.toNat * 8)
  | saveNonvolFar r n => some (.gpr r, n.toNat)
  | saveXmm128 r n => some (.xmm r, n.toNat * 16)
  | saveXmm128Far r n => some (.xmm r, n.toNat)
  | _ => none

/-- The register stored, by a push or a save. -/
def saved : PrologOp → Option Saved
  | pushNonvol r => some (.gpr r)
  | op => op.save.map Prod.fst

/-- An operation pushes, saves, or stores nothing. -/
theorem cases_saved (op : PrologOp) :
    (∃ r, op = pushNonvol r) ∨ (∃ r n, op.save = some (r, n)) ∨ op.saved = none := by
  cases op with
  | pushNonvol r => exact .inl ⟨r, rfl⟩
  | saveNonvol r n => exact .inr (.inl ⟨_, _, rfl⟩)
  | saveNonvolFar r n => exact .inr (.inl ⟨_, _, rfl⟩)
  | saveXmm128 r n => exact .inr (.inl ⟨_, _, rfl⟩)
  | saveXmm128Far r n => exact .inr (.inl ⟨_, _, rfl⟩)
  | allocSmall n => exact .inr (.inr rfl)
  | allocLarge n => exact .inr (.inr rfl)
  | allocLargeFar n => exact .inr (.inr rfl)
  | setFpreg => exact .inr (.inr rfl)

theorem size_of_save {op : PrologOp} {x : Saved × ℕ} (h : op.save = some x) : op.size = 0 := by
  cases op <;> first | rfl | cases h

theorem saved_of_save {op : PrologOp} {x : Saved × ℕ} (h : op.save = some x) :
    op.saved = some x.1 := by
  cases op <;> first | cases h; rfl | cases h

theorem save_of_saved {op : PrologOp} (h : op.saved = none) : op.save = none := by
  cases op <;> first | rfl | cases h

theorem ne_setFpreg_of_save {op : PrologOp} {x : Saved × ℕ} (h : op.save = some x) :
    op ≠ setFpreg := by
  rintro rfl
  cases h

/-! ### Encoding -/

/-- A slot that holds a code. -/
def codeSlot (off : UInt8) (op info : ℕ) : Slot := (off, UInt8.ofNat (op + 16 * info))

/-- A number of 16 bits as a slot. -/
def wordSlot (n : ℕ) : Slot := (UInt8.ofNat n, UInt8.ofNat (n / 256))

/-- A number of 32 bits as two slots. -/
def dwordSlots (n : ℕ) : List Slot := [wordSlot n, wordSlot (n / 65536)]

/-- The slots of an operation. -/
def slots (off : UInt8) : PrologOp → List Slot
  | pushNonvol r => [codeSlot off 0 r]
  | allocLarge n => [codeSlot off 1 0, wordSlot n.toNat]
  | allocLargeFar n => codeSlot off 1 1 :: dwordSlots n.toNat
  | allocSmall n => [codeSlot off 2 n]
  | setFpreg => [codeSlot off 3 0]
  | saveNonvol r n => [codeSlot off 4 r, wordSlot n.toNat]
  | saveNonvolFar r n => codeSlot off 5 r :: dwordSlots n.toNat
  | saveXmm128 r n => [codeSlot off 6 r, wordSlot n.toNat]
  | saveXmm128Far r n => codeSlot off 7 r :: dwordSlots n.toNat

end PrologOp

/-- The unwind codes of a prologue in array order, the last operation first. -/
abbrev Codes := List (UInt8 × PrologOp)

namespace Codes

/-- How far the operations lower the stack pointer. -/
def total : Codes → ℕ
  | [] => 0
  | (_, op) :: cs => op.size + total cs

/-- The slots of the array. -/
def slots (cs : Codes) : List Slot := cs.flatMap fun c => c.2.slots c.1

/-- The registers stored. -/
def saved (cs : Codes) : List Saved := cs.filterMap fun c => c.2.saved

/-- Whether the frame pointer is set. -/
def SetsFp (cs : Codes) : Prop := ∃ c ∈ cs, c.2 = .setFpreg

instance (cs : Codes) : Decidable cs.SetsFp := inferInstanceAs (Decidable (∃ c ∈ cs, _))

/-- How far the stack pointer is lowered when the frame pointer is set. -/
def fpDepth : Codes → ℕ
  | [] => 0
  | (_, .setFpreg) :: cs => total cs
  | _ :: cs => fpDepth cs

/-- A register is not stored once the frame pointer is set. -/
def KeepsFp (reg : Fin 16) : Codes → Prop
  | [] => True
  | (_, op) :: cs => (SetsFp cs → op ≠ .setFpreg ∧ op.saved ≠ some (.gpr reg)) ∧ KeepsFp reg cs

instance decidableKeepsFp (reg : Fin 16) : (cs : Codes) → Decidable (KeepsFp reg cs)
  | [] => inferInstanceAs (Decidable True)
  | (_, op) :: cs =>
    have := decidableKeepsFp reg cs
    inferInstanceAs (Decidable
      ((SetsFp cs → op ≠ .setFpreg ∧ op.saved ≠ some (.gpr reg)) ∧ KeepsFp reg cs))

/-- The slots stored to, counted from the bottom of a frame that is `top` bytes high and has its
save base at `base`. -/
def saves (top base : ℕ) : Codes → List (Saved × ℕ)
  | [] => []
  | (off, op) :: cs =>
    match op.saved, op.save with
    | _, some (r, n) => (r, base + n) :: saves top base cs
    | some r, none => (r, top - total ((off, op) :: cs)) :: saves top base cs
    | none, none => saves top base cs

variable {top base : ℕ} {off : UInt8} {op : PrologOp} {cs : Codes}

theorem saves_push (r : Fin 16) :
    saves top base ((off, .pushNonvol r) :: cs) =
      (.gpr r, top - (8 + total cs)) :: saves top base cs := rfl

theorem saves_of_save {r : Saved} {n : ℕ} (h : op.save = some (r, n)) :
    saves top base ((off, op) :: cs) = (r, base + n) :: saves top base cs := by
  rw [saves, h]

theorem saves_of_none (h : op.saved = none) :
    saves top base ((off, op) :: cs) = saves top base cs := by
  rw [saves, h, PrologOp.save_of_saved h]

theorem saved_cons : saved ((off, op) :: cs) = op.saved.toList ++ saved cs := by
  cases h : op.saved <;> simp [saved, h]

end Codes

/-- An `UNWIND_INFO` up to what follows its codes. -/
structure Prolog where
  /-- Version. -/
  version : Fin 8
  /-- Length of the prologue. -/
  sizeOfProlog : UInt8
  /-- Its operations. -/
  codes : Codes
  /-- Register used as frame pointer, 0 for none. -/
  frameRegister : Fin 16
  /-- Distance of the frame pointer from its base, in units of 16 bytes. -/
  frameOffset : Fin 16

/-- A language handler. -/
structure Handler where
  /-- Called for exceptions. -/
  exception : Bool
  /-- Called on unwinding. -/
  termination : Bool
  /-- One of the two. -/
  some_kind : exception = true ∨ termination = true
  /-- RVA. -/
  rva : BitVec 32
  /-- The word after it. -/
  data : BitVec 32

/-- An `UNWIND_INFO` with the infos it is chained to. -/
structure UnwindData where
  /-- The info itself. -/
  own : Prolog
  /-- The chained entries and the infos they name, nearest first. -/
  parents : List (RuntimeFunction × Prolog)
  /-- The handler that the last info names. -/
  handler : Option Handler

/-! ### Execution -/

/-- Registers and memory while a prologue runs. -/
structure PrologFrame where
  /-- Stack pointer. -/
  rsp : ℕ
  /-- General registers. -/
  gpr : Gprs
  /-- XMM registers. -/
  xmm : Xmms
  /-- Memory. -/
  mem : ByteMap
  /-- Where the stack pointer was when the frame pointer was set. -/
  fp : ℕ
  /-- The slots stored to, with their lengths. -/
  kept : List (ℕ × ℕ)

namespace PrologFrame

/-- Store a register. -/
def store (f : PrologFrame) (r : Saved) (a : ℕ) : PrologFrame :=
  { f with
    mem := f.mem.write a (toLe r.width (r.value f.gpr f.xmm))
    kept := (a, r.width) :: f.kept }

/-- A function called by `caller`, whose registers are those it has after the return. -/
def enter (caller : UnwindContext) (mem : ByteMap) : PrologFrame where
  rsp := caller.rsp.toNat - 8
  gpr := caller.gpr
  xmm := caller.xmm
  mem := mem.write (caller.rsp.toNat - 8) (toLe 8 caller.rip.toNat)
  fp := caller.rsp.toNat - 8
  kept := [(caller.rsp.toNat - 8, 8)]

end PrologFrame

namespace Prolog

/-- Execute an operation in a frame with the given save base. -/
def runOp (p : Prolog) (base : ℕ) (op : PrologOp) (f : PrologFrame) : PrologFrame :=
  match op with
  | .pushNonvol r => { f with rsp := f.rsp - 8 }.store (.gpr r) (f.rsp - 8)
  | .setFpreg =>
    { f with
      gpr := Function.update f.gpr p.frameRegister (BitVec.ofNat 64 (f.rsp + p.frameOffset * 16))
      fp := f.rsp }
  | .saveNonvol r n => f.store (.gpr r) (base + n.toNat * 8)
  | .saveNonvolFar r n => f.store (.gpr r) (base + n.toNat)
  | .saveXmm128 r n => f.store (.xmm r) (base + n.toNat * 16)
  | .saveXmm128Far r n => f.store (.xmm r) (base + n.toNat)
  | op => { f with rsp := f.rsp - op.size }

/-- Execute the operations of an array of codes. -/
def runCodes (p : Prolog) (base : ℕ) (cs : Codes) (f : PrologFrame) : PrologFrame :=
  cs.foldr (fun c f => p.runOp base c.2 f) f

/-- The save base of a prologue entered in `f`: the stack pointer after the fixed allocation, or
where it is when the frame pointer is set. -/
def base (p : Prolog) (f : PrologFrame) : ℕ :=
  if p.frameRegister = 0 then f.rsp - p.codes.total
  else if p.codes.SetsFp then f.rsp - p.codes.fpDepth
  else f.fp

/-- Execute a prologue. -/
def run (p : Prolog) (f : PrologFrame) : PrologFrame := p.runCodes (p.base f) p.codes f

/-- The distance of the save base from the bottom of the frame. -/
def baseHeight (p : Prolog) : ℕ :=
  if p.frameRegister = 0 then 0 else p.codes.total - p.codes.fpDepth

/-- The slots a prologue stores to, counted from the bottom of its frame. -/
def saves (p : Prolog) : List (Saved × ℕ) := p.codes.saves p.codes.total p.baseHeight

/-- The prologue addresses its saves from a frame pointer that a parent has set. -/
def Inherits (p : Prolog) : Prop := p.frameRegister ≠ 0 ∧ ¬ p.codes.SetsFp

instance (p : Prolog) : Decidable p.Inherits := inferInstanceAs (Decidable (_ ∧ _))

end Prolog

namespace UnwindData

/-- How far the prologue lowers the stack pointer. -/
def total (u : UnwindData) : ℕ := u.own.codes.total + (u.parents.map fun q => q.2.codes.total).sum

/-- Execute the prologue, the outermost parent first. -/
def run (u : UnwindData) (f : PrologFrame) : PrologFrame :=
  u.own.run (u.parents.foldr (fun q f => q.2.run f) f)

/-- The registers the prologue saves. -/
def saved (u : UnwindData) : List Saved :=
  u.own.codes.saved ++ u.parents.flatMap fun q => q.2.codes.saved

end UnwindData

/-! ### Layout -/

/-- The bytes of slots. -/
def slotBytes (ss : List Slot) : List UInt8 := ss.flatMap fun s => [s.1, s.2]

namespace Prolog

/-- Header and codes. -/
def bytes (p : Prolog) (flags : ℕ) : List UInt8 :=
  [UInt8.ofNat (p.version + 8 * flags), p.sizeOfProlog, UInt8.ofNat p.codes.slots.length,
    UInt8.ofNat (p.frameRegister + 16 * p.frameOffset)] ++ slotBytes p.codes.slots

/-- Their size, rounded up to four bytes. -/
def headerSize (p : Prolog) : ℕ := (4 + p.codes.slots.length * 2 + 3) / 4 * 4

end Prolog

namespace Handler

/-- The flags of a handler. -/
def flags (h : Handler) : ℕ := (if h.exception then 1 else 0) + if h.termination then 2 else 0

/-- A handler as it follows the codes. -/
def bytes (h : Handler) : List UInt8 := toLe 4 h.rva.toNat ++ toLe 4 h.data.toNat

end Handler

/-- A `RUNTIME_FUNCTION`. -/
def RuntimeFunction.bytes (e : RuntimeFunction) : List UInt8 :=
  toLe 4 e.beginAddress ++ toLe 4 e.endAddress ++ toLe 4 e.unwindData

namespace UnwindData

/-- The strings of bytes of an info at `rva` and of the infos it is chained to, with their RVAs. -/
def pieces (h : Option Handler) : Prolog → List (RuntimeFunction × Prolog) → (rva : ℕ) →
    List (ℕ × List UInt8)
  | p, [], rva =>
    [(rva, p.bytes (h.elim 0 Handler.flags)), (rva + p.headerSize, h.elim [] Handler.bytes)]
  | p, (e, q) :: qs, rva =>
    (rva, p.bytes UnwindInfo.FLAG_CHAININFO) :: (rva + p.headerSize, e.bytes) ::
      pieces h q qs e.unwindData

/-- The data is laid out in the image at `imageBase`, the info itself at `rva`. -/
def At (u : UnwindData) (m : ByteMap) (imageBase rva : ℕ) : Prop :=
  ∀ x ∈ pieces u.handler u.own u.parents rva, m.Holds (imageBase + x.1) x.2

instance (u : UnwindData) (m : ByteMap) (imageBase rva : ℕ) : Decidable (u.At m imageBase rva) :=
  inferInstanceAs (Decidable (∀ x ∈ pieces u.handler u.own u.parents rva, _))

end UnwindData

/-! ### Well-formed data -/

/-- Two ranges do not overlap. -/
def Apart (a n b k : ℕ) : Prop := a + n ≤ b ∨ b + k ≤ a

instance (a n b k : ℕ) : Decidable (Apart a n b k) := inferInstanceAs (Decidable (_ ∨ _))

/-- What a compiler may put into an `UNWIND_INFO`. -/
structure Prolog.WellFormed (p : Prolog) : Prop where
  /-- The number of slots is a byte. -/
  count : p.codes.slots.length < 256
  /-- Allocations allocate. -/
  alloc : ∀ c ∈ p.codes, c.2 ≠ .allocLarge 0 ∧ c.2 ≠ .allocLargeFar 0
  /-- Only registers that have to be kept are saved. -/
  nonvolatile : ∀ r ∈ p.codes.saved, r.Nonvolatile
  /-- Each is saved once. -/
  once : p.codes.saved.Nodup
  /-- The frame pointer is set only if there is one. -/
  noFp : p.frameRegister = 0 → ¬ p.codes.SetsFp
  /-- It is set once, and saved before if at all. -/
  keepsFp : p.codes.KeepsFp p.frameRegister
  /-- It points into the frame. -/
  fpInside : p.codes.SetsFp → p.frameOffset * 16 ≤ p.codes.fpDepth
  /-- Slots do not overlap. -/
  apart : ¬ p.Inherits → p.saves.Pairwise fun x y => Apart x.2 x.1.width y.2 y.1.width
  /-- Nor do they overlap the return address. -/
  apartRet : ¬ p.Inherits → ∀ x ∈ p.saves, Apart x.2 x.1.width p.codes.total 8
  /-- They lie in the frame or in the home space of the caller. -/
  inside : ¬ p.Inherits → ∀ x ∈ p.saves, x.2 + x.1.width ≤ p.codes.total + 40

/-- The same for an info with its chain. -/
structure UnwindData.WellFormed (u : UnwindData) : Prop where
  /-- The info is well formed. -/
  own : u.own.WellFormed
  /-- So are the infos it is chained to. -/
  parents : ∀ q ∈ u.parents, q.2.WellFormed
  /-- Without a chain there is nothing to inherit. -/
  root : u.parents = [] → ¬ u.own.Inherits
  /-- The fields of chained entries have 32 bits, and the function does not start at the image
  header. -/
  entries : ∀ q ∈ u.parents, 0 < q.1.beginAddress ∧ q.1.beginAddress < 2 ^ 32 ∧
    q.1.endAddress < 2 ^ 32 ∧ q.1.unwindData < 2 ^ 32
  /-- Some image holds the data beside the code of the function. -/
  placed : ∃ (m : ByteMap) (rva : ℕ), 0 < rva ∧ rva < 2 ^ 32 ∧ u.At m 0 rva ∧
    ∀ q ∈ u.parents, ∀ x ∈ pieces u.handler u.own u.parents rva,
      q.1.beginAddress < x.1 ∨ x.1 + x.2.length ≤ q.1.beginAddress

end Wie
