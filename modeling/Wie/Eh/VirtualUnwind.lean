import Wie.Lib.Bytes
import Wie.Lib.Word
import Wie.Jit.Ctx

/-!
# Undoing a prologue

`virtual_unwind` reads the `UNWIND_INFO` of a function and reverses the prologue it describes. The
unwind codes are an array of two-byte slots, some of which are operands of the code before them;
the array is walked twice, first for the stack the prologue claimed, then to undo it.

The walk over the array is structural here: beside the slots to come it carries the number of them
that are operands still to be skipped.

## Main definitions

* `RuntimeFunction`, `UnwindInfo`, `UnwindCode` — the formats of `.pdata` and `.xdata`
* `UnwindContext`, `UnwindResult` — the registers that are unwound, and what comes back
* `entryRsp` — the first walk
* `applyCode`, `applyCodes` — the second walk, one code and the whole array
* `virtualUnwind`
-/

namespace Wie

/-- The guest memory reader: the bytes from an address on, if all of them can be read. -/
abbrev MemRead := ℕ → ℕ → Option (List UInt8)

/-- One entry of the `.pdata` section; the fields are RVAs. -/
structure RuntimeFunction where
  /-- Function start. -/
  beginAddress : ℕ
  /-- Function end, exclusive. -/
  endAddress : ℕ
  /-- The `UNWIND_INFO`, 0 for a leaf function. -/
  unwindData : ℕ
deriving DecidableEq

/-- The header of an `UNWIND_INFO`. -/
structure UnwindInfo where
  /-- Version. -/
  version : ℕ
  /-- Handler and chain flags. -/
  flags : ℕ
  /-- Length of the prologue. -/
  sizeOfProlog : ℕ
  /-- Number of slots that follow. -/
  countOfCodes : ℕ
  /-- Register used as frame pointer, 0 for none. -/
  frameRegister : Fin 16
  /-- Distance of the frame pointer from its base, in units of 16 bytes. -/
  frameOffset : ℕ
deriving DecidableEq

namespace UnwindInfo

/-- `UNW_FLAG_EHANDLER`. -/
def FLAG_EHANDLER : ℕ := 1

/-- `UNW_FLAG_UHANDLER`. -/
def FLAG_UHANDLER : ℕ := 2

/-- `UNW_FLAG_CHAININFO`. -/
def FLAG_CHAININFO : ℕ := 4

/-- Read a header. -/
def fromBytes : List UInt8 → Option UnwindInfo
  | b0 :: b1 :: b2 :: b3 :: _ => some
    { version := b0.toNat &&& 7
      flags := b0.toNat >>> 3
      sizeOfProlog := b1.toNat
      countOfCodes := b2.toNat
      frameRegister := Fin.ofNat 16 (b3.toNat &&& 0xf)
      frameOffset := b3.toNat >>> 4 &&& 0xf }
  | _ => none

/-- Size of header and codes, rounded up to four bytes. -/
def headerSize (i : UnwindInfo) : ℕ := (4 + i.countOfCodes * 2 + 3) / 4 * 4

end UnwindInfo

/-- Two bytes of the array of codes: a code, or an operand of an earlier one. -/
abbrev Slot := UInt8 × UInt8

/-- The slots of a buffer. -/
def slotsOf : List UInt8 → List Slot
  | a :: b :: rest => (a, b) :: slotsOf rest
  | _ => []

/-- An unwind code. -/
structure UnwindCode where
  /-- Offset in the prologue. -/
  codeOffset : ℕ
  /-- `UWOP_*` opcode. -/
  unwindOp : ℕ
  /-- A register, or part of a size. -/
  opInfo : Fin 16

/-- A slot as a code. -/
def UnwindCode.fromBytes (s : Slot) : UnwindCode where
  codeOffset := s.1.toNat
  unwindOp := s.2.toNat &&& 0xf
  opInfo := Fin.ofNat 16 (s.2.toNat >>> 4 &&& 0xf)

namespace uwop

/-- Push a register. -/
@[match_pattern] def PUSH_NONVOL : ℕ := 0
/-- Allocate, with the size in operand slots. -/
@[match_pattern] def ALLOC_LARGE : ℕ := 1
/-- Allocate up to 128 bytes. -/
@[match_pattern] def ALLOC_SMALL : ℕ := 2
/-- Set the frame pointer. -/
@[match_pattern] def SET_FPREG : ℕ := 3
/-- Save a general register. -/
@[match_pattern] def SAVE_NONVOL : ℕ := 4
/-- Save a general register at a far offset. -/
@[match_pattern] def SAVE_NONVOL_FAR : ℕ := 5
/-- Save an XMM register. -/
@[match_pattern] def SAVE_XMM128 : ℕ := 6
/-- Save an XMM register at a far offset. -/
@[match_pattern] def SAVE_XMM128_FAR : ℕ := 7
/-- A trap frame. -/
@[match_pattern] def PUSH_MACHFRAME : ℕ := 8

end uwop

/-- The registers that are unwound. -/
@[ext]
structure UnwindContext where
  /-- Instruction pointer. -/
  rip : BitVec 64
  /-- Stack pointer. -/
  rsp : BitVec 64
  /-- General registers. -/
  gpr : Gprs
  /-- XMM registers. -/
  xmm : Xmms

/-- What one unwind step gives. -/
structure UnwindResult where
  /-- The registers of the caller. -/
  ctx : UnwindContext
  /-- RVA of the language handler. -/
  handlerRva : Option ℕ
  /-- The word after the handler RVA. -/
  handlerData : Option ℕ
  /-- Address of that word. -/
  exceptionDataVa : Option ℕ

/-! ### The walks over the codes -/

/-- `raw_slot(i)` with zeros past the end; `rest` are the slots after the current one. -/
def rawSlot (rest : List Slot) (i : ℕ) : List UInt8 :=
  match rest[i]? with
  | some (a, b) => [a, b]
  | none => [0, 0]

/-- The next slot as a number. -/
def operand16 (rest : List Slot) : ℕ := fromLe (rawSlot rest 0)

/-- The next two slots as a number. -/
def operand32 (rest : List Slot) : ℕ := fromLe (rawSlot rest 0 ++ rawSlot rest 1)

/-- Size of an `ALLOC_LARGE`. -/
def allocLargeSize (info : Fin 16) (rest : List Slot) : ℕ :=
  if info = 0 then operand16 rest * 8 else operand32 rest

/-- Operand slots of an `ALLOC_LARGE`. -/
def allocLargeSlots (info : Fin 16) : ℕ := if info = 0 then 1 else 2

/-- Size of a `PUSH_MACHFRAME`. -/
def machFrameSize (info : Fin 16) : ℕ := if info = 0 then 24 else 32

/-- What the first walk adds for a code, and the operand slots it skips. -/
def scanCode (c : UnwindCode) (rest : List Slot) : ℕ × ℕ :=
  match c.unwindOp with
  | uwop.ALLOC_SMALL => (c.opInfo * 8 + 8, 0)
  | uwop.ALLOC_LARGE => (allocLargeSize c.opInfo rest, allocLargeSlots c.opInfo)
  | uwop.PUSH_NONVOL => (8, 0)
  | uwop.PUSH_MACHFRAME => (machFrameSize c.opInfo, 0)
  | _ => (0, 0)

/-- The first walk: the stack pointer at function entry. -/
def entryRsp : (skip : ℕ) → List Slot → ℕ → ℕ
  | _, [], rsp => rsp
  | k + 1, _ :: rest, rsp => entryRsp k rest rsp
  | 0, s :: rest, rsp =>
    let n := scanCode (.fromBytes s) rest
    entryRsp n.2 rest (satAdd rsp n.1)

/-- The registers in the middle of the second walk. -/
structure Unwinding where
  /-- Stack pointer. -/
  rsp : ℕ
  /-- General registers. -/
  gpr : Gprs
  /-- XMM registers. -/
  xmm : Xmms

namespace Unwinding

/-- Restore a general register from `va`. -/
def loadGpr (read : MemRead) (f : Unwinding) (reg : Fin 16) (va : ℕ) : Option Unwinding := do
  let b ← read va 8
  some { f with gpr := Function.update f.gpr reg (BitVec.ofNat 64 (fromLe b)) }

/-- Restore an XMM register from `va`. -/
def loadXmm (read : MemRead) (f : Unwinding) (reg : Fin 16) (va : ℕ) : Option Unwinding := do
  let b ← read va 16
  some { f with xmm := Function.update f.xmm reg (BitVec.ofNat 128 (fromLe b)) }

/-- Raise the stack pointer. -/
def raise (f : Unwinding) (n : ℕ) : Unwinding := { f with rsp := satAdd f.rsp n }

end Unwinding

/-- Undo one code; the second component is the number of its operand slots. -/
def applyCode (read : MemRead) (fpRsp : ℕ) (c : UnwindCode) (rest : List Slot) (f : Unwinding) :
    Option (Unwinding × ℕ) :=
  match c.unwindOp with
  | uwop.PUSH_NONVOL => do
    let g ← f.loadGpr read c.opInfo f.rsp
    some (g.raise 8, 0)
  | uwop.ALLOC_LARGE => some (f.raise (allocLargeSize c.opInfo rest), allocLargeSlots c.opInfo)
  | uwop.ALLOC_SMALL => some (f.raise (c.opInfo * 8 + 8), 0)
  | uwop.SET_FPREG => some (f, 0)
  | uwop.SAVE_NONVOL => do
    let g ← f.loadGpr read c.opInfo (satAdd fpRsp (operand16 rest * 8))
    some (g, 1)
  | uwop.SAVE_NONVOL_FAR => do
    let g ← f.loadGpr read c.opInfo (satAdd fpRsp (operand32 rest))
    some (g, 2)
  | uwop.SAVE_XMM128 => do
    let g ← f.loadXmm read c.opInfo (satAdd fpRsp (operand16 rest * 16))
    some (g, 1)
  | uwop.SAVE_XMM128_FAR => do
    let g ← f.loadXmm read c.opInfo (satAdd fpRsp (operand32 rest))
    some (g, 2)
  | uwop.PUSH_MACHFRAME => some (f.raise (machFrameSize c.opInfo), 0)
  | _ => some (f, 0)

/-- The second walk. -/
def applyCodes (read : MemRead) (fpRsp : ℕ) : (skip : ℕ) → List Slot → Unwinding → Option Unwinding
  | _, [], f => some f
  | k + 1, _ :: rest, f => applyCodes read fpRsp k rest f
  | 0, s :: rest, f => do
    let (g, k) ← applyCode read fpRsp (.fromBytes s) rest f
    applyCodes read fpRsp k rest g

/-! ### Unwinding a function -/

/-- Pop the return address. -/
def popReturn (read : MemRead) (f : Unwinding) : Option UnwindContext := do
  let b ← read f.rsp 8
  some
    { rip := BitVec.ofNat 64 (fromLe b)
      rsp := BitVec.ofNat 64 (satAdd f.rsp 8)
      gpr := f.gpr
      xmm := f.xmm }

/-- The handler named after the codes, if the flags say that there is one. -/
def handlerResult (read : MemRead) (info : UnwindInfo) (dataOff : ℕ) (ctx : UnwindContext) :
    Option UnwindResult :=
  if info.flags &&& (UnwindInfo.FLAG_EHANDLER ||| UnwindInfo.FLAG_UHANDLER) ≠ 0 then do
    let b ← read dataOff 8
    some
      { ctx := ctx
        handlerRva := some (fromLe (b.take 4))
        handlerData := some (fromLe (b.drop 4))
        exceptionDataVa := some (satAdd dataOff 4) }
  else some ⟨ctx, none, none, none⟩

/-- The base that saved registers are addressed from. -/
def saveBase (info : UnwindInfo) (slots : List Slot) (ctx : UnwindContext) : ℕ :=
  if info.frameRegister ≠ 0 then (ctx.gpr info.frameRegister).toNat - info.frameOffset * 16
  else entryRsp 0 slots ctx.rsp.toNat

/-- `virtual_unwind`, following at most `fuel` chained infos. -/
def virtualUnwind (read : MemRead) (imageBase : ℕ) :
    (fuel : ℕ) → RuntimeFunction → UnwindContext → Option UnwindResult
  | 0, _, _ => none
  | fuel + 1, entry, ctx =>
    if entry.unwindData = 0 then do
      let ctx ← popReturn read ⟨ctx.rsp.toNat, ctx.gpr, ctx.xmm⟩
      some ⟨ctx, none, none, none⟩
    else do
      let unwindVa := satAdd imageBase entry.unwindData
      let header ← read unwindVa 4
      let info ← UnwindInfo.fromBytes header
      let codes ← read (satAdd unwindVa 4) (info.countOfCodes * 2)
      let slots := slotsOf codes
      let f ← applyCodes read (saveBase info slots ctx) 0 slots ⟨ctx.rsp.toNat, ctx.gpr, ctx.xmm⟩
      let ctx ← popReturn read f
      let dataOff := satAdd unwindVa info.headerSize
      if info.flags &&& UnwindInfo.FLAG_CHAININFO ≠ 0 then do
        let chain ← read dataOff 4
        let chainRva := fromLe chain
        if chainRva ≠ 0 then
          virtualUnwind read imageBase fuel { entry with unwindData := chainRva } ctx
        else handlerResult read info dataOff ctx
      else handlerResult read info dataOff ctx

end Wie
