import Wie.Eh.VirtualUnwind

/-!
# Catch handlers of MSVC

A function has a map from addresses to states, and blocks of handlers that each cover a range of
states. `find_msvc_catch` looks up the state of an address and goes through the blocks that cover
it. The first handler for a thrown type is taken, and if there is none the first one for all types. The records of
the tables are whole here; dispatching uses some of their fields only and has records of its own.

## Main definitions

* `parseFuncInfo`, `readTryBlock`, `readHandlerType` — the tables
* `stateForIp` — the state of an address
* `throwCatchableTypeRvas` — the types that are thrown
* `findMsvcCatch`
-/

namespace Wie

namespace MsvcEh

/-! ### The tables -/

/-- `FuncInfo.magicNumber`. -/
def FUNCINFO_MAGIC_V1 : ℕ := 0x19930520
/-- `FuncInfo.magicNumber`. -/
def FUNCINFO_MAGIC_V2 : ℕ := 0x19930521
/-- `FuncInfo.magicNumber`. -/
def FUNCINFO_MAGIC_V3 : ℕ := 0x19930522

/-- The bit of a handler for all types. -/
def HT_IS_STD_DOT_DOT : ℕ := 0x40

/-- Bytes of a handler. -/
def HANDLER_TYPE_SIZE : ℕ := 20

/-- `FuncInfoHeader`. -/
structure FuncInfoHeader where
  /-- The version. -/
  magic : ℕ
  /-- The number of states. -/
  maxState : ℤ
  /-- Where the map for unwinding is. -/
  unwindMapRva : ℕ
  /-- The number of blocks. -/
  nTryBlocks : ℕ
  /-- Where the blocks are. -/
  tryBlockMapRva : ℕ
  /-- The number of entries of the map of states. -/
  nIpMap : ℕ
  /-- Where the map of states is. -/
  ipToStateMapRva : ℕ
  deriving DecidableEq

/-- `TryBlockMapEntry`. -/
structure TryBlockMapEntry where
  /-- The first state that the block covers. -/
  tryLow : ℤ
  /-- The last state that the block covers. -/
  tryHigh : ℤ
  /-- The last state of its handlers. -/
  catchHigh : ℤ
  /-- The number of its handlers. -/
  nCatches : ℤ
  /-- Where its handlers are. -/
  handlerArrayRva : ℕ
  deriving DecidableEq

/-- `HandlerType`. -/
structure HandlerType where
  /-- Bits. -/
  adjectives : ℕ
  /-- The type that is caught, zero for all types. -/
  typeRva : ℕ
  /-- Where the object goes. -/
  dispCatchObj : ℤ
  /-- The code of the handler. -/
  handlerRva : ℕ
  /-- The displacement of a nested frame. -/
  dispFrame : ℤ
  deriving DecidableEq

/-- `MsvcCatch`. -/
structure MsvcCatch where
  /-- The code of the handler. -/
  landingPad : ℕ
  /-- Where the object goes. -/
  dispCatchObj : ℤ
  /-- Bits. -/
  adjectives : ℕ
  /-- The type that is caught. -/
  typeRva : ℕ
  /-- The displacement of a nested frame. -/
  dispFrame : ℤ
  /-- The state at the throw. -/
  state : ℤ
  /-- The first state of the block. -/
  tryLow : ℤ
  /-- The header. -/
  funcInfo : FuncInfoHeader
  deriving DecidableEq

section Read

variable (read : MemRead)

/-- `read_u32`. -/
def readU32 (va : ℕ) : Option ℕ := (read va 4).map fromLe

/-- `read_i32`. -/
def readI32 (va : ℕ) : Option ℤ := (readU32 read va).map fun u => (BitVec.ofNat 32 u).toInt

/-- `parse_func_info`. -/
def parseFuncInfo (va : ℕ) : Option FuncInfoHeader := do
  let magic ← readU32 read va
  if magic ≠ FUNCINFO_MAGIC_V1 ∧ magic ≠ FUNCINFO_MAGIC_V2 ∧ magic ≠ FUNCINFO_MAGIC_V3 then none
  else
    let maxState ← readI32 read (va + 4)
    let unwindMapRva ← readU32 read (va + 8)
    let nTryBlocks ← readU32 read (va + 12)
    let tryBlockMapRva ← readU32 read (va + 16)
    let nIpMap ← readU32 read (va + 20)
    let ipToStateMapRva ← readU32 read (va + 24)
    some ⟨magic, maxState, unwindMapRva, nTryBlocks, tryBlockMapRva, nIpMap, ipToStateMapRva⟩

/-- The loop of `state_for_ip` with `rounds` entries to go. -/
def stateLoop (mapVa pcRva : ℕ) : (rounds i : ℕ) → (bestState : Option ℤ) → Option ℤ
  | 0, _, bestState => some (bestState.getD (-1))
  | rounds + 1, i, bestState => do
    let e := satAdd mapVa (i * 8)
    let ip ← readU32 read e
    let state ← readI32 read (e + 4)
    if ip ≤ pcRva then stateLoop mapVa pcRva rounds (i + 1) (some state)
    else some (bestState.getD (-1))

/-- `state_for_ip`. -/
def stateForIp (imageBase : ℕ) (info : FuncInfoHeader) (controlPc : ℕ) : Option ℤ :=
  if info.nIpMap = 0 ∨ info.ipToStateMapRva = 0 then none
  else
    stateLoop read (satAdd imageBase info.ipToStateMapRva) ((controlPc - imageBase) % 2 ^ 32)
      info.nIpMap 0 none

/-- `read_try_block`. -/
def readTryBlock (imageBase : ℕ) (info : FuncInfoHeader) (index : ℕ) : Option TryBlockMapEntry := do
  let e := satAdd (satAdd imageBase info.tryBlockMapRva) (index * 20)
  let tryLow ← readI32 read e
  let tryHigh ← readI32 read (e + 4)
  let catchHigh ← readI32 read (e + 8)
  let nCatches ← readI32 read (e + 12)
  let handlerArrayRva ← readU32 read (e + 16)
  some ⟨tryLow, tryHigh, catchHigh, nCatches, handlerArrayRva⟩

/-- `read_handler_type`, at an index that is not negative. -/
def readHandlerType (imageBase arrayRva index : ℕ) : Option HandlerType := do
  let e := satAdd (satAdd imageBase arrayRva) (index * HANDLER_TYPE_SIZE)
  let handlerRva ← readU32 read (e + 12)
  if handlerRva = 0 ∨ 0x80000000 ≤ handlerRva then none
  else
    let adjectives ← readU32 read e
    let typeRva ← readU32 read (e + 4)
    let dispCatchObj ← readI32 read (e + 8)
    some ⟨adjectives, typeRva, dispCatchObj, handlerRva, (readI32 read (e + 16)).getD 0⟩

/-- The loop of `throw_catchable_type_rvas` with `rounds` types to go. -/
def catchableLoop (imageBase ctaVa : ℕ) : (rounds i : ℕ) → (out : List ℕ) → Option (List ℕ)
  | 0, _, out => some out
  | rounds + 1, i, out => do
    let ctRva ← readU32 read (satAdd (satAdd ctaVa 4) (i * 4))
    if ctRva = 0 then catchableLoop imageBase ctaVa rounds (i + 1) out
    else
      let typeRva ← readU32 read (satAdd (satAdd imageBase ctRva) 4)
      catchableLoop imageBase ctaVa rounds (i + 1) (if typeRva ≠ 0 then out ++ [typeRva] else out)

/-- `throw_catchable_type_rvas`. -/
def throwCatchableTypeRvas (imageBase throwInfoVa : ℕ) : Option (List ℕ) :=
  if throwInfoVa = 0 then none
  else do
    let ctaRva ← readU32 read (satAdd throwInfoVa 12)
    if ctaRva = 0 then none
    else
      let ctaVa := satAdd imageBase ctaRva
      let n ← readI32 read ctaVa
      if n ≤ 0 ∨ 64 < n then none
      else
        let out ← catchableLoop read imageBase ctaVa n.toNat 0 []
        if out = [] then none else some out

end Read

/-! ### The search -/

namespace HandlerType

/-- A handler for all types. -/
def IsCatchAll (ht : HandlerType) : Prop :=
  ht.typeRva = 0 ∨ ht.adjectives &&& HT_IS_STD_DOT_DOT ≠ 0

instance (ht : HandlerType) : Decidable ht.IsCatchAll := inferInstanceAs (Decidable (_ ∨ _))

end HandlerType

/-- `handler_matches`. -/
def handlerMatches (ht : HandlerType) (thrownTypes : Option (List ℕ)) : Bool :=
  if ht.IsCatchAll then true
  else
    match thrownTypes with
    | some types => ht.typeRva ∈ types
    | none => false

/-- What is returned for a handler. -/
def MsvcCatch.of (imageBase : ℕ) (info : FuncInfoHeader) (state : ℤ) (tb : TryBlockMapEntry)
    (ht : HandlerType) : MsvcCatch where
  landingPad := satAdd imageBase ht.handlerRva
  dispCatchObj := ht.dispCatchObj
  adjectives := ht.adjectives
  typeRva := ht.typeRva
  dispFrame := ht.dispFrame
  state := state
  tryLow := tb.tryLow
  funcInfo := info

section Search

variable (read : MemRead) (imageBase : ℕ) (info : FuncInfoHeader) (state : ℤ)

/-- The loop over the handlers of a block with `rounds` to go: an error is what is returned at once,
else the loop ends with the first handler for all types. -/
def handlerLoop (thrownTypes : Option (List ℕ)) (tb : TryBlockMapEntry) :
    (rounds hi : ℕ) → (catchAll : Option MsvcCatch) → Except (Option MsvcCatch) (Option MsvcCatch)
  | 0, _, catchAll => .ok catchAll
  | rounds + 1, hi, catchAll =>
    match readHandlerType read imageBase tb.handlerArrayRva hi with
    | none => .error none
    | some ht =>
      if ht.handlerRva = 0 then handlerLoop thrownTypes tb rounds (hi + 1) catchAll
      else if ¬ht.IsCatchAll then
        if handlerMatches ht thrownTypes then .error (some (.of imageBase info state tb ht))
        else handlerLoop thrownTypes tb rounds (hi + 1) catchAll
      else
        handlerLoop thrownTypes tb rounds (hi + 1)
          (catchAll.or (some (.of imageBase info state tb ht)))

/-- The loop over the blocks with `rounds` to go. -/
def tryLoop (thrownTypes : Option (List ℕ)) :
    (rounds ti : ℕ) → (catchAll : Option MsvcCatch) → Except (Option MsvcCatch) (Option MsvcCatch)
  | 0, _, catchAll => .ok catchAll
  | rounds + 1, ti, catchAll =>
    match readTryBlock read imageBase info ti with
    | none => .error none
    | some tb =>
      if state < tb.tryLow ∨ tb.tryHigh < state then tryLoop thrownTypes rounds (ti + 1) catchAll
      else if tb.nCatches ≤ 0 ∨ tb.handlerArrayRva = 0 then
        tryLoop thrownTypes rounds (ti + 1) catchAll
      else
        match handlerLoop read imageBase info state thrownTypes tb tb.nCatches.toNat 0 catchAll with
        | .error r => .error r
        | .ok catchAll => tryLoop thrownTypes rounds (ti + 1) catchAll

/-- The loop of `find_catch_all_any_try` over the handlers of a block with `rounds` to go. -/
def anyHandlerLoop (tb : TryBlockMapEntry) :
    (rounds hi : ℕ) → Except (Option MsvcCatch) Unit
  | 0, _ => .ok ()
  | rounds + 1, hi =>
    match readHandlerType read imageBase tb.handlerArrayRva hi with
    | none => .error none
    | some ht =>
      if ht.IsCatchAll ∧ ht.handlerRva ≠ 0 then .error (some (.of imageBase info state tb ht))
      else anyHandlerLoop tb rounds (hi + 1)

/-- `find_catch_all_any_try` with `rounds` blocks to go. -/
def findCatchAllAnyTry : (rounds ti : ℕ) → Option MsvcCatch
  | 0, _ => none
  | rounds + 1, ti =>
    match readTryBlock read imageBase info ti with
    | none => none
    | some tb =>
      if tb.nCatches ≤ 0 ∨ tb.handlerArrayRva = 0 then findCatchAllAnyTry rounds (ti + 1)
      else
        match anyHandlerLoop read imageBase info state tb tb.nCatches.toNat 0 with
        | .error r => r
        | .ok () => findCatchAllAnyTry rounds (ti + 1)

end Search

/-- `find_msvc_catch`. -/
def findMsvcCatch (read : MemRead) (imageBase funcInfoVa controlPc throwInfoVa : ℕ) :
    Option MsvcCatch :=
  match parseFuncInfo read funcInfoVa with
  | none => none
  | some info =>
    if info.nTryBlocks = 0 ∨ info.tryBlockMapRva = 0 then none
    else
      match stateForIp read imageBase info controlPc with
      | none => findCatchAllAnyTry read imageBase info (-1) info.nTryBlocks 0
      | some state =>
        let thrownTypes := throwCatchableTypeRvas read imageBase throwInfoVa
        match tryLoop read imageBase info state thrownTypes info.nTryBlocks 0 none with
        | .error r => r
        | .ok catchAll => catchAll

end MsvcEh

end Wie
