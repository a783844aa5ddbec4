import Wie.Eh.VirtualUnwind

/-!
# Dispatch of an exception

The dispatcher searches the frames above a throw for a handler, plans what is to run before it, and
then hands the guest one step after another. What remains of the plan is kept in one record,
`seh_pending`, for the whole process; a guest function that was called for a step comes back to the
dispatcher through a trampoline, a cleanup landing pad through `RtlUnwindEx`.

The engine is that of the thread that calls. What the search learns of a frame it reads from guest
memory; those reads are a parameter.

## Main definitions

* `SehStep`, `SehPending` — the steps and the record
* `FrameReader`, `searchAndPlan` — the search
* `runNextStep`, `beginOrFinish`, `dispatchExceptionWithPayload` — a throw
* `continuePending`, `forcedUnwindTo` — the two ways back
-/

namespace Wie

/-! ### The engine -/

/-- The engine of a thread: its registers, and guest memory. -/
structure Engine where
  /-- Registers. -/
  ctx : RegFile
  /-- Memory. -/
  mem : ByteMap

/-- What went wrong in the dispatcher. -/
inductive SehError
  /-- "failed to read return address" -/
  | returnAddress
  /-- "virtual_unwind failed", or "leaf unwind: stack unreadable" -/
  | unwind
  /-- "RaiseException: no handler found" -/
  | noHandler
  /-- "SEH run_next_step with empty pending" -/
  | emptyPending
  /-- "SEH pending queue empty" -/
  | queueEmpty
  /-- "SEH continue trampoline with no pending work" -/
  | noPendingWork
  /-- "MSVC catch funclet returned invalid continuation RAX" -/
  | invalidContinuation (rax : BitVec 64)
  /-- "SEH call RA write" -/
  | callWrite
  /-- "MSVC catch object write", or "MSVC catch object read" -/
  | catchObject
deriving DecidableEq

/-- Result of an API handler. -/
structure WinApiHandlerResult where
  /-- Where the guest goes on. -/
  returnAddress : BitVec 64
  /-- What is reported as the result. -/
  returnValue : BitVec 64
deriving DecidableEq

/-! ### Steps and plans -/

/-- Header of a `FuncInfo`. -/
structure FuncInfoHeader where
  /-- Number of states. -/
  maxState : ℤ
  /-- RVA of the unwind map. -/
  unwindMapRva : ℕ
deriving DecidableEq

/-- Result of a successful MSVC catch match. -/
structure MsvcCatch where
  /-- Displacement of the catch object from the establisher frame. -/
  dispCatchObj : ℤ
  /-- Adjectives of the handler type. -/
  adjectives : ℕ
  /-- RVA of the type descriptor, 0 for any type. -/
  typeRva : ℕ
  /-- State at the throw site. -/
  state : ℤ
  /-- The lowest state of the try block. -/
  tryLow : ℤ
  /-- The `FuncInfo` of the function. -/
  funcInfo : FuncInfoHeader
deriving DecidableEq

/-- What was thrown. -/
structure ThrowPayload where
  /-- The object, 0 for none. -/
  exceptionObject : BitVec 64
  /-- MSVC type information, 0 for none. -/
  throwInfo : BitVec 64
  /-- Whether the code of the exception is that of GCC. -/
  gccThrow : Bool
deriving DecidableEq

/-- One step of a plan. -/
inductive SehStep
  /-- Call an action of the unwind map. -/
  | action (target establisher : BitVec 64)
  /-- Call a catch funclet; it returns the address to go on at. -/
  | msvcCatch (handler establisher frameRsp : BitVec 64) (gpr : Gprs) (xmm : Xmms)
      (catch_ : MsvcCatch) (exceptionObject : BitVec 64) (imageBase : ℕ) (throwInfo : BitVec 64)
  /-- Go to a landing pad. -/
  | jump (rip rsp : BitVec 64) (gpr : Gprs) (xmm : Xmms) (rax rdx : Option (BitVec 64))

/-- The record of the exception in progress. -/
structure SehPending where
  /-- The steps to come. -/
  steps : List SehStep
  /-- A catch funclet was called. -/
  expectCatchReturn : Bool
  /-- A cleanup landing pad was entered. -/
  expectCleanupResume : Bool

/-! ### The search -/

/-- A frame that was unwound. -/
structure Unwound where
  /-- The registers of the caller. -/
  ctx : UnwindContext
  /-- Base of the image, 0 for a leaf. -/
  imageBase : ℕ
  /-- Function entry. -/
  entry : RuntimeFunction
  /-- Address of the unwind data. -/
  unwindVa : ℕ
  /-- Address of the language data. -/
  exceptionDataVa : Option ℕ

/-- A landing pad for the exception. -/
structure ResolvedPad where
  /-- Its address. -/
  landingPad : BitVec 64
  /-- The catch, for MSVC. -/
  msvc : Option MsvcCatch
  /-- The handler switch value, for Itanium. -/
  switchValue : Option (BitVec 64)

/-- What the search reads from guest memory. -/
structure FrameReader where
  /-- `unwind_one`: the frame unwound, and its handler data. -/
  unwindOne : UnwindContext → Option (Unwound × Option ℕ)
  /-- `resolve_landing_pad` for a program counter. -/
  resolveLandingPad : BitVec 64 → Unwound → ℕ → ThrowPayload → Option ResolvedPad
  /-- `parse_func_info` on the first candidate that has one. -/
  parseFuncInfo : Unwound → ℕ → Option FuncInfoHeader
  /-- `state_for_ip`. -/
  stateForIp : Unwound → FuncInfoHeader → BitVec 64 → Option ℤ
  /-- `collect_unwind_actions` between two states. -/
  collectUnwindActions : Unwound → FuncInfoHeader → ℤ → ℤ → List ℕ
  /-- `find_cleanup_landing_pad` on the first candidate that has one. -/
  findCleanupLandingPad : Unwound → ℕ → BitVec 64 → Option (BitVec 64)

/-- The handler that was found. -/
structure HandlerFound where
  /-- Its landing pad. -/
  landingPad : BitVec 64
  /-- The registers of its frame. -/
  catchCtx : UnwindContext
  /-- The object thrown. -/
  exceptionObject : Option (BitVec 64)
  /-- The catch, for MSVC. -/
  msvc : Option MsvcCatch
  /-- Base of the image. -/
  imageBase : ℕ
  /-- The handler switch value, for Itanium. -/
  switchValue : Option (BitVec 64)

/-- The object thrown, if there is one. -/
def ThrowPayload.object (p : ThrowPayload) : Option (BitVec 64) :=
  if p.exceptionObject ≠ 0 then some p.exceptionObject else none

/-- Steps for actions of an unwind map. -/
def actionSteps (u : Unwound) (establisher : BitVec 64) (acts : List ℕ) : List SehStep :=
  acts.map fun a => .action (BitVec.ofNat 64 (satAdd u.imageBase a)) establisher

namespace FrameReader

/-- The actions of the frame of the handler. -/
def catchSteps (r : FrameReader) (u : Unwound) (frame : UnwindContext) (p : ResolvedPad) :
    List SehStep :=
  match p.msvc with
  | some c => actionSteps u frame.rsp (r.collectUnwindActions u c.funcInfo c.state c.tryLow)
  | none => []

/-- The actions, or the cleanup landing pad, of a frame without a handler. -/
def frameSteps (r : FrameReader) (u : Unwound) (hdata : Option ℕ) (frame : UnwindContext)
    (payload : ThrowPayload) : List SehStep :=
  match hdata with
  | none => []
  | some h =>
    match r.parseFuncInfo u h with
    | some info =>
      match r.stateForIp u info frame.rip with
      | some st => actionSteps u frame.rsp (r.collectUnwindActions u info st (-1))
      | none => []
    | none =>
      match r.findCleanupLandingPad u h frame.rip with
      | some pad => [.jump pad frame.rsp frame.gpr frame.xmm payload.object (some 0)]
      | none => []

/-- The loop of `search_and_plan`, with `rounds` frames to go. -/
def searchFrames (r : FrameReader) (payload : ThrowPayload) :
    (rounds : ℕ) → UnwindContext → List SehStep → Except SehError (HandlerFound × List SehStep)
  | 0, _, _ => .error .noHandler
  | rounds + 1, frame, steps =>
    match r.unwindOne frame with
    | none => .error .unwind
    | some (u, hdata) =>
      match hdata.bind fun h => r.resolveLandingPad frame.rip u h payload with
      | some p =>
        .ok (⟨p.landingPad, frame, payload.object, p.msvc, u.imageBase, p.switchValue⟩,
          steps ++ r.catchSteps u frame p)
      | none =>
        if u.ctx.rip = 0 ∨ u.ctx.rsp = 0 then .error .noHandler
        else r.searchFrames payload rounds u.ctx (steps ++ r.frameSteps u hdata frame payload)

/-- Most frames searched. -/
def MAX_FRAMES : ℕ := 64

/-- `new_ctx`. -/
def newCtx (rip rsp : BitVec 64) (t : RegFile) : UnwindContext :=
  ⟨rip, rsp, Function.update t.gpr 4 rsp, t.xmm⟩

/-- `search_and_plan`. -/
def searchAndPlan (r : FrameReader) (t : RegFile) (throwRip throwRsp : BitVec 64)
    (payload : ThrowPayload) : Except SehError (HandlerFound × List SehStep) :=
  r.searchFrames payload MAX_FRAMES (newCtx throwRip throwRsp t) []

end FrameReader

/-! ### The dispatcher -/

/-- What a call of the dispatcher reads and writes. -/
structure DispatchState where
  /-- The engine of the calling thread. -/
  engine : Engine
  /-- `seh_pending`. -/
  pending : Option SehPending

/-- A call of the dispatcher; what it wrote before an error stays written. -/
abbrev Dispatch (α : Type) := ExceptT SehError (StateM DispatchState) α

/-- The registers of the calling thread. -/
def snapshotThreadContext : Dispatch RegFile := do return (← get).engine.ctx

/-- Change the registers of the calling thread. -/
def modifyCtx (f : RegFile → RegFile) : Dispatch Unit :=
  modify fun d => { d with engine := { d.engine with ctx := f d.engine.ctx } }

/-- Write the record. -/
def setPending (p : Option SehPending) : Dispatch Unit := modify fun d => { d with pending := p }

/-- Write a general register. -/
def writeGpr (i : Fin 16) (v : BitVec 64) : Dispatch Unit :=
  modifyCtx fun c => { c with gpr := Function.update c.gpr i v }

/-- Write the instruction pointer. -/
def writeRip (v : BitVec 64) : Dispatch Unit := modifyCtx fun c => { c with rip := v }

/-- Read guest memory. -/
def memRead (e : SehError) (a : BitVec 64) (n : ℕ) : Dispatch (List UInt8) := do
  match (← get).engine.mem.read a.toNat n with
  | some bs => return bs
  | none => throw e

/-- Guest memory after a write; none when an address of the range is not mapped. -/
def Engine.memWrite (e : Engine) (a : BitVec 64) (bs : List UInt8) : Option Engine :=
  if (e.mem.read a.toNat bs.length).isSome then some { e with mem := e.mem.write a.toNat bs }
  else none

/-- Write guest memory. -/
def memWrite (e : SehError) (a : BitVec 64) (bs : List UInt8) : Dispatch Unit := do
  match (← get).engine.memWrite a bs with
  | some engine => modify fun d => { d with engine := engine }
  | none => throw e

/-- Address of the continue trampoline. -/
def sehContinueTrampolineVa : ℕ := 0x7000_0020_0010

/-- Subtraction that stops at zero. -/
def satSub (a : BitVec 64) (n : ℕ) : BitVec 64 := BitVec.ofNat 64 (a.toNat - n)

/-- `setup_guest_call`: the stack pointer of the callee is 8 above a multiple of 16. -/
def setupGuestCall (target establisher : BitVec 64) : Dispatch Unit := do
  let rsp := (← snapshotThreadContext).gpr 4
  let rsp := satSub rsp 8
  let rsp := if rsp &&& 0xf ≠ 8 then satSub rsp 8 else rsp
  memWrite .callWrite rsp (toLe 8 sehContinueTrampolineVa)
  writeGpr 4 rsp
  writeGpr 2 establisher
  writeRip target

/-- `catch_object_address`. -/
def catchObjectAddress (establisher : BitVec 64) (c : MsvcCatch) : Option (BitVec 64) :=
  if c.dispCatchObj = 0 then none
  else
    let addr := min (establisher.toInt + c.dispCatchObj) (2 ^ 63 - 1)
    if addr ≤ 0 then none else some (BitVec.ofInt 64 addr)

/-- `HT_IS_REFERENCE`. -/
def HT_IS_REFERENCE : ℕ := 8

/-- `place_msvc_catch_object`; `throwObjectSize` is what the type information of the throw says. -/
def placeMsvcCatchObject (throwObjectSize : ByteMap → ℕ → BitVec 64 → Option ℕ)
    (establisher : BitVec 64) (imageBase : ℕ) (c : MsvcCatch)
    (exceptionObject throwInfo : BitVec 64) : Dispatch Unit := do
  match catchObjectAddress establisher c with
  | none => return
  | some slot =>
    if c.adjectives &&& HT_IS_REFERENCE ≠ 0 ∨ c.typeRva = 0 then
      memWrite .catchObject slot (toLe 8 exceptionObject.toNat)
    else
      let size := (throwObjectSize (← get).engine.mem imageBase throwInfo).getD 0
      if 0 < size ∧ size ≤ 256 then
        let buf ← memRead .catchObject exceptionObject size
        memWrite .catchObject slot buf
      else memWrite .catchObject slot (toLe 8 exceptionObject.toNat)

/-- The registers for a step: those of its frame. -/
def enterFrame (rip rsp : BitVec 64) (gpr : Gprs) (xmm : Xmms) : Dispatch Unit :=
  modifyCtx fun c => { c with gpr := Function.update gpr 4 rsp, xmm := xmm, rip := rip }

/-- The adjusted pointer stands before the exception header, and the object behind it. A failed
write is only logged. -/
def setAdjustedPtr (exc : BitVec 64) : Dispatch Unit :=
  modify fun d =>
    let object := satAdd exc.toNat 0x40
    { d with engine := (d.engine.memWrite (satSub exc 8) (toLe 8 object)).getD d.engine }

/-- The exception pointer of a landing pad, in RAX. -/
def passException : Option (BitVec 64) → Dispatch Unit
  | some exc => do
    setAdjustedPtr exc
    writeGpr 0 exc
  | none => pure ()

/-- The handler switch value of a landing pad, in RDX. -/
def passSwitch : Option (BitVec 64) → Dispatch Unit
  | some sv => writeGpr 2 sv
  | none => pure ()

/-- A catch funclet is called. -/
def markCatch : Dispatch Unit :=
  modify fun d => { d with pending := d.pending.map ({ · with expectCatchReturn := true }) }

/-- A landing pad is entered: for a cleanup when there are more steps, for good when there are none. -/
def markJump (rest : List SehStep) : Dispatch Unit :=
  modify fun d =>
    { d with pending :=
        if rest ≠ [] then d.pending.map ({ · with expectCleanupResume := true }) else none }

section

variable (size : ByteMap → ℕ → BitVec 64 → Option ℕ)

/-- What `run_next_step` does for a step, `rest` being the steps after it. -/
def runStep (rest : List SehStep) : SehStep → Dispatch WinApiHandlerResult
  | .action target establisher => do
    setupGuestCall target establisher
    return ⟨target, 0⟩
  | .msvcCatch handler establisher frameRsp gpr xmm c obj imageBase throwInfo => do
    enterFrame handler frameRsp gpr xmm
    writeGpr 2 establisher
    if obj = 0 then pure () else placeMsvcCatchObject size establisher imageBase c obj throwInfo
    markCatch
    setupGuestCall handler establisher
    return ⟨handler, obj⟩
  | .jump rip rsp gpr xmm rax rdx => do
    markJump rest
    enterFrame rip rsp gpr xmm
    passException rax
    passSwitch rdx
    return ⟨rip, rax.getD 0⟩

/-- `run_next_step`. -/
def runNextStep : Dispatch WinApiHandlerResult := do
  match (← get).pending with
  | none => throw .emptyPending
  | some p =>
    match p.steps with
    | [] =>
      setPending none
      throw .queueEmpty
    | step :: rest =>
      setPending (some { p with steps := rest })
      runStep size rest step

/-- The last step of a plan: the transfer to the handler. -/
def terminalStep (h : HandlerFound) (payload : ThrowPayload) : SehStep :=
  match h.msvc with
  | some c => .msvcCatch h.landingPad h.catchCtx.rsp h.catchCtx.rsp h.catchCtx.gpr h.catchCtx.xmm c
      (h.exceptionObject.getD 0) h.imageBase payload.throwInfo
  | none => .jump h.landingPad h.catchCtx.rsp h.catchCtx.gpr h.catchCtx.xmm h.exceptionObject
      h.switchValue

/-- `begin_or_finish`. -/
def beginOrFinish (h : HandlerFound) (steps : List SehStep) (payload : ThrowPayload) :
    Dispatch WinApiHandlerResult := do
  setPending (some ⟨steps ++ [terminalStep h payload], false, false⟩)
  runNextStep size

/-- `dispatch_exception_with_payload`. -/
def dispatchExceptionWithPayload (r : FrameReader) (payload : ThrowPayload) :
    Dispatch WinApiHandlerResult := do
  let t ← snapshotThreadContext
  let rsp := t.gpr 4
  let ra ← memRead .returnAddress rsp 8
  let throwRip := BitVec.ofNat 64 (fromLe ra)
  let throwRsp := BitVec.ofNat 64 (satAdd rsp.toNat 8)
  match r.searchAndPlan t throwRip throwRsp payload with
  | .error e => throw e
  | .ok (h, steps) => beginOrFinish size h steps payload

/-- `continue_pending`. -/
def continuePending : Dispatch WinApiHandlerResult := do
  let d ← get
  setPending none
  match d.pending with
  | none => throw .noPendingWork
  | some p =>
    if p.expectCatchReturn then
      let cont := d.engine.ctx.gpr 0
      let p := { p with expectCatchReturn := false }
      if cont = 0 ∨ cont.toNat ≥ 0x8000_0000_0000 then
        setPending (some p)
        throw (.invalidContinuation cont)
      else
        writeRip cont
        if p.steps = [] then return ⟨cont, 0⟩
        else
          setPending (some p)
          runNextStep size
    else if p.expectCleanupResume then
      setPending (some { p with expectCleanupResume := false })
      runNextStep size
    else
      setPending (some p)
      runNextStep size

/-- `has_cleanup_resume`. -/
def hasCleanupResume : Option SehPending → Bool
  | some p => p.expectCleanupResume && !p.steps.isEmpty
  | none => false

/-- The loop of `forced_unwind_to`, with `rounds` frames to go. -/
def unwindFrames (r : FrameReader) (targetIp : BitVec 64) (targetFrame : Option (BitVec 64)) :
    (rounds : ℕ) → UnwindContext → Except SehError UnwindContext
  | 0, frame => .ok frame
  | rounds + 1, frame =>
    if targetFrame = some frame.rsp then .ok frame
    else
      match r.unwindOne frame with
      | none => .error .unwind
      | some (u, _) =>
        if u.ctx.rip = 0 then .ok frame
        else if targetFrame = some u.ctx.rsp ∨ (targetIp ≠ 0 ∧ u.ctx.rip = targetIp) then .ok u.ctx
        else unwindFrames r targetIp targetFrame rounds u.ctx

/-- What `RtlUnwindEx` is asked for. -/
structure UnwindTarget where
  /-- Address to go on at, 0 for that of the frame. -/
  ip : BitVec 64
  /-- Stack pointer of the frame. -/
  frameRsp : Option (BitVec 64)
  /-- Value for RAX. -/
  returnValue : BitVec 64

/-- `forced_unwind_to`. -/
def forcedUnwindTo (r : FrameReader) (u : UnwindTarget) : Dispatch WinApiHandlerResult := do
  let d ← get
  if hasCleanupResume d.pending then continuePending size
  else if u.ip = 0 ∧ u.frameRsp = none then
    -- `return_from_win64_api`
    let ra ← memRead .returnAddress (d.engine.ctx.gpr 4) 8
    let ret := BitVec.ofNat 64 (fromLe ra)
    writeGpr 4 (d.engine.ctx.gpr 4 + 8)
    writeGpr 0 u.returnValue
    writeRip ret
    return ⟨ret, u.returnValue⟩
  else
    let t := d.engine.ctx
    let rsp := t.gpr 4
    let ra ← memRead .returnAddress rsp 8
    let start := FrameReader.newCtx (BitVec.ofNat 64 (fromLe ra))
      (BitVec.ofNat 64 (satAdd rsp.toNat 8)) t
    match unwindFrames r u.ip u.frameRsp FrameReader.MAX_FRAMES start with
    | .error e => throw e
    | .ok frame =>
      let rip := if u.ip ≠ 0 then u.ip else frame.rip
      enterFrame rip frame.rsp frame.gpr frame.xmm
      writeGpr 0 u.returnValue
      return ⟨rip, u.returnValue⟩

end

end Wie
