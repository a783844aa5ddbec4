import Wie.Cpu.Operand
import Wie.Cpu.Regs

/-!
# String instructions

STOS, MOVS, LODS, SCAS and CMPS, as the interpreter executes them. A repeated instruction does many
elements in one step, at most `REP_BULK_MAX`, and says whether to stay on the instruction; it is
left by a step that finds RCX to be zero.

STOS and MOVS have three ways to go. Where spans of host memory can be had, all elements are stored
in one go; else, forwards, chunks of 4096 bytes are; and else elements are one by one. A chunk that
is denied is not stored at all: one element is tried in its place, and when that succeeds the
instruction is left.

## Main definitions

* `stosSpan`, `stosChunks`, `stosLoop` — the three ways of STOS, in `stringStos`
* `movsSpan`, `movsChunks`, `movsLoop` — the three ways of MOVS, in `stringMovs`
* `stringLods`, `stringScas`, `stringCmps`
-/

namespace Wie

open Cmd Rflags

/-- The most elements of one step. -/
def REP_BULK_MAX : ℕ := 2 ^ 20

/-- The fewest bytes for which a span is asked for. -/
def REP_HOST_BULK_MIN_BYTES : ℕ := 16

/-- The bytes of a chunk. -/
def CHUNK_BYTES : ℕ := 4096

/-- `df_step`. -/
def dfStep (r : RegFile) (size : ℕ) : BitVec 64 :=
  if r.flag DF then -(.ofNat 64 size) else .ofNat 64 size

/-- `saturating_sub`. -/
def saturatingSub (v : BitVec 64) (n : ℕ) : BitVec 64 := .ofNat 64 (v.toNat - n)

namespace RegFile

/-- RDI and RCX after `n` elements. -/
def stored (r : RegFile) (rdi : BitVec 64) (n : ℕ) : RegFile :=
  (r.setGpr 7 rdi).setGpr 1 (saturatingSub (r.gpr 1) n)

/-- RSI, RDI and RCX after `n` elements. -/
def moved (r : RegFile) (rsi rdi : BitVec 64) (n : ℕ) : RegFile := (r.setGpr 6 rsi).stored rdi n

end RegFile

/-- `fill_pattern`: a number again and again. -/
def fillPattern (count size : ℕ) (v : BitVec 64) : List UInt8 :=
  (List.replicate count (toLe size v.toNat)).flatten

/-- How many elements the next chunk has. -/
def chunkElems (remain size : ℕ) : ℕ := min (remain * size) CHUNK_BYTES / size

/-! ### STOS -/

/-- All elements in one go; whether that was possible. -/
def stosSpan (bulk : Bool) (size count : ℕ) (v : BitVec 64) : Exec Bool := do
  let r ← regs
  let rdi := r.gpr 7
  let lastOff := (count - 1) * size
  if bulk ∧ 1 < count ∧ REP_HOST_BULK_MIN_BYTES ≤ count * size ∧
      (r.flag DF = true → lastOff ≤ rdi.toNat) then do
    let base := if r.flag DF then rdi.toNat - lastOff else rdi.toNat
    let filled ← tryFill base (fillPattern count size v)
    if filled then alter fun r => r.stored (rdi + .ofNat 64 count * dfStep r size) count
    pure filled
  else pure false

/-- Chunk by chunk, with `done` elements stored and `remain` to go; whether to stay. -/
def stosChunks (size : ℕ) (v : BitVec 64) : ℕ → ℕ → ℕ → BitVec 64 → Exec Bool
  | fuel + 1, remain, done, rdi =>
    let elems := chunkElems remain size
    if 0 < remain ∧ 0 < elems then do
      let ok ← tryStore rdi.toNat (fillPattern elems size v)
      if ok then
        stosChunks size v fuel (remain - elems) (done + elems) (rdi + .ofNat 64 (elems * size))
      else do
        alter (·.stored rdi done)
        writeMemValue rdi v size
        pure false
    else do
      alter (·.stored rdi done)
      pure (decide (0 < done))
  | 0, _, done, rdi => do
    alter (·.stored rdi done)
    pure (decide (0 < done))

/-- One element after the other. -/
def stosLoop (size : ℕ) (v step : BitVec 64) : ℕ → BitVec 64 → Exec Unit
  | 0, _ => pure ()
  | count + 1, rdi => do
    writeMemValue rdi v size
    alter (·.stored (rdi + step) 1)
    stosLoop size v step count (rdi + step)

/-- `string_stos`. -/
def stringStos (bulk : Bool) (size : ℕ) (rep : Bool) : Exec Bool := do
  let r ← regs
  let step := dfStep r size
  let v := r.gpr 0 &&& sizeMask size
  let rdi := r.gpr 7
  if rep then
    if r.gpr 1 = 0 then pure false
    else do
      let count := min (r.gpr 1).toNat REP_BULK_MAX
      let filled ← stosSpan bulk size count v
      if filled then pure true
      else if r.flag DF = false ∧ 1 < count then stosChunks size v count count 0 rdi
      else do
        stosLoop size v step count rdi
        pure true
  else do
    writeMemValue rdi v size
    alter (·.setGpr 7 (rdi + step))
    pure false

/-! ### MOVS -/

/-- `ranges_overlap`, with ends that wrap around. -/
def rangesOverlap (a b len : BitVec 64) : Bool :=
  len ≠ 0 && a ≤ b + (len - 1) && b ≤ a + (len - 1)

/-- The lowest address of a range of elements. -/
def lowestAddress (r : RegFile) (a : BitVec 64) (size count : ℕ) : BitVec 64 :=
  if r.flag DF then a - .ofNat 64 ((count - 1) * size) else a

/-- All elements in one go; whether that was possible. -/
def movsSpan (bulk : Bool) (size count : ℕ) : Exec Bool := do
  let r ← regs
  let src := lowestAddress r (r.gpr 6) size count
  let dst := lowestAddress r (r.gpr 7) size count
  if bulk ∧ 1 < count ∧ REP_HOST_BULK_MIN_BYTES ≤ count * size ∧
      rangesOverlap src dst (.ofNat 64 (count * size)) = false then do
    let copied ← tryCopy src.toNat dst.toNat (count * size)
    let delta := .ofNat 64 count * dfStep r size
    if copied then alter (·.moved (r.gpr 6 + delta) (r.gpr 7 + delta) count)
    pure copied
  else pure false

/-- One element. -/
def moveOne (size : ℕ) (rsi rdi : BitVec 64) : Exec Unit := do
  let v ← readMemValue rsi size
  writeMemValue rdi v size

/-- Chunk by chunk, with `done` elements moved and `remain` to go; whether to stay. -/
def movsChunks (size : ℕ) : ℕ → ℕ → ℕ → BitVec 64 → BitVec 64 → Exec Bool
  | fuel + 1, remain, done, rsi, rdi =>
    let elems := chunkElems remain size
    if 0 < remain ∧ 0 < elems then do
      let bytes ← tryLoad rsi.toNat (elems * size)
      let ok ← match bytes with
        | some bytes => tryStore rdi.toNat bytes
        | none => pure false
      if ok then
        movsChunks size fuel (remain - elems) (done + elems) (rsi + .ofNat 64 (elems * size))
          (rdi + .ofNat 64 (elems * size))
      else do
        alter (·.moved rsi rdi done)
        moveOne size rsi rdi
        pure false
    else do
      alter (·.moved rsi rdi done)
      pure (decide (0 < done))
  | 0, _, done, rsi, rdi => do
    alter (·.moved rsi rdi done)
    pure (decide (0 < done))

/-- One element after the other. -/
def movsLoop (size : ℕ) (step : BitVec 64) : ℕ → BitVec 64 → BitVec 64 → Exec Unit
  | 0, _, _ => pure ()
  | count + 1, rsi, rdi => do
    moveOne size rsi rdi
    alter (·.moved (rsi + step) (rdi + step) 1)
    movsLoop size step count (rsi + step) (rdi + step)

/-- `string_movs`. -/
def stringMovs (bulk : Bool) (size : ℕ) (rep : Bool) : Exec Bool := do
  let r ← regs
  let step := dfStep r size
  let rsi := r.gpr 6
  let rdi := r.gpr 7
  if rep then
    if r.gpr 1 = 0 then pure false
    else do
      let count := min (r.gpr 1).toNat REP_BULK_MAX
      let src := lowestAddress r rsi size count
      let dst := lowestAddress r rdi size count
      let copied ← movsSpan bulk size count
      if copied then pure true
      else if r.flag DF = false ∧ 1 < count ∧
          rangesOverlap src dst (.ofNat 64 (count * size)) = false then
        movsChunks size count count 0 rsi rdi
      else do
        movsLoop size step count rsi rdi
        pure true
  else do
    moveOne size rsi rdi
    alter fun r => (r.setGpr 6 (rsi + step)).setGpr 7 (rdi + step)
    pure false

/-! ### LODS, SCAS and CMPS -/

/-- The accumulator after LODS; all sizes but one and four bytes are eight. -/
def loaded (r : RegFile) (size : ℕ) (v : BitVec 64) : Except CpuError RegFile :=
  r.writeReg (if size = 1 then .gpr8 0 else if size = 4 then .gpr32 0 else .gpr64 0) v

/-- One element after the other. -/
def lodsLoop (size : ℕ) (step : BitVec 64) : ℕ → BitVec 64 → Exec Unit
  | 0, _ => pure ()
  | count + 1, rsi => do
    let last ← readMemValue rsi size
    alter fun r => (r.setGpr 6 (rsi + step)).setGpr 1 (saturatingSub (r.gpr 1) 1)
    Exec.update fun r => loaded r size last
    lodsLoop size step count (rsi + step)

/-- `string_lods`. -/
def stringLods (size : ℕ) (rep : Bool) : Exec Bool := do
  let r ← regs
  let step := dfStep r size
  let rsi := r.gpr 6
  if rep then
    if r.gpr 1 = 0 then pure false
    else do
      lodsLoop size step (min (r.gpr 1).toNat REP_BULK_MAX) rsi
      pure true
  else do
    let v ← readMemValue rsi size
    Exec.update fun r => loaded r size v
    alter (·.setGpr 6 (rsi + step))
    pure false

/-- Whether a comparison ends the repetition. -/
def zfStops (r : RegFile) (repe repne : Bool) : Bool :=
  (repe && !r.flag ZF) || (repne && r.flag ZF)

/-- One element after the other; whether a comparison ended it. -/
def scasLoop (size : ℕ) (acc step : BitVec 64) (repe repne : Bool) : ℕ → BitVec 64 → Exec Bool
  | 0, _ => pure false
  | count + 1, rdi => do
    let v ← readMemValue rdi size
    let v := v &&& sizeMask size
    alter fun r => (r.setRflags (subFlags r.rflags acc v (acc - v) size)).stored (rdi + step) 1
    let r ← regs
    if zfStops r repe repne then pure true
    else scasLoop size acc step repe repne count (rdi + step)

/-- `string_scas`. -/
def stringScas (size : ℕ) (rep repe repne : Bool) : Exec Bool := do
  let r ← regs
  let step := dfStep r size
  let acc := r.gpr 0 &&& sizeMask size
  let rdi := r.gpr 7
  if rep then
    if r.gpr 1 = 0 then pure false
    else do
      let stop ← scasLoop size acc step repe repne (min (r.gpr 1).toNat REP_BULK_MAX) rdi
      pure (!stop)
  else do
    let v ← readMemValue rdi size
    let v := v &&& sizeMask size
    alter fun r => (r.setRflags (subFlags r.rflags acc v (acc - v) size)).setGpr 7 (rdi + step)
    pure false

/-- One element after the other; whether a comparison ended it. -/
def cmpsLoop (size : ℕ) (step : BitVec 64) (repe repne : Bool) :
    ℕ → BitVec 64 → BitVec 64 → Exec Bool
  | 0, _, _ => pure false
  | count + 1, rsi, rdi => do
    let a ← readMemValue rsi size
    let a := a &&& sizeMask size
    let b ← readMemValue rdi size
    let b := b &&& sizeMask size
    alter fun r => (r.setRflags (subFlags r.rflags a b (a - b) size)).moved (rsi + step)
      (rdi + step) 1
    let r ← regs
    if zfStops r repe repne then pure true
    else cmpsLoop size step repe repne count (rsi + step) (rdi + step)

/-- `string_cmps`. -/
def stringCmps (size : ℕ) (rep repe repne : Bool) : Exec Bool := do
  let r ← regs
  let step := dfStep r size
  let rsi := r.gpr 6
  let rdi := r.gpr 7
  if rep then
    if r.gpr 1 = 0 then pure false
    else do
      let stop ← cmpsLoop size step repe repne (min (r.gpr 1).toNat REP_BULK_MAX) rsi rdi
      pure (!stop)
  else do
    let a ← readMemValue rsi size
    let a := a &&& sizeMask size
    let b ← readMemValue rdi size
    let b := b &&& sizeMask size
    alter fun r => ((r.setRflags (subFlags r.rflags a b (a - b) size)).setGpr 6
      (rsi + step)).setGpr 7 (rdi + step)
    pure false

/-! ### The instructions -/

/-- `has_any_rep`. -/
def hasAnyRep (i : Insn) : Bool := i.hasRepPrefix || i.hasRepePrefix || i.hasRepnePrefix

/-- `apply_string_stay`, after a string operation. -/
def applyStringStay (i : Insn) (op : Exec Bool) : Exec Unit := do
  let stay ← op
  if stay then alter fun r => { r with rip := i.ip }

/-- `exec_stos`. -/
def execStos (bulk : Bool) (i : Insn) (size : ℕ) : Exec Unit :=
  applyStringStay i (stringStos bulk size (hasAnyRep i))

/-- `exec_movs`. -/
def execMovs (bulk : Bool) (i : Insn) (size : ℕ) : Exec Unit :=
  applyStringStay i (stringMovs bulk size (hasAnyRep i))

/-- `exec_lods`. -/
def execLods (i : Insn) (size : ℕ) : Exec Unit :=
  applyStringStay i (stringLods size (hasAnyRep i))

/-- `exec_scas`. -/
def execScas (i : Insn) (size : ℕ) : Exec Unit :=
  applyStringStay i (stringScas size (hasAnyRep i) i.hasRepePrefix i.hasRepnePrefix)

/-- `exec_cmps`. -/
def execCmps (i : Insn) (size : ℕ) : Exec Unit :=
  applyStringStay i (stringCmps size (hasAnyRep i) i.hasRepePrefix i.hasRepnePrefix)

end Wie
