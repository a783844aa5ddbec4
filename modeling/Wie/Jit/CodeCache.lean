import Wie.Lib.Bytes
import Wie.Lib.Tally
import Wie.Mem.Lockstep
import Wie.Jit.ChainTable
import Wie.Jit.DecodeRun

/-!
# The cache of compiled blocks

All engines share one cache from guest addresses to compiled blocks, and an index that counts, for
each guest page, the blocks that have a byte on it. The index is asked first when code has to be
dropped, so that a write to a page without code costs one look. Writes through the engine are
collected by page and dropped at a safe point; from 257 pages on everything is dropped.

A block of the cache is entered from the dispatcher, and from other blocks by the chain tables,
which each engine has for itself.

Left out: the code that a block consists of, except for the instructions it was translated from,
and what a run of it does to the registers. Compiling is an input of the model: the function that
comes out, if any.

## Main definitions

* `CodeCache` — the cache, the index and the collected writes
* `CodeCache.insertReady`, `CodeCache.invalidateCodeRange`, `CodeCache.drainPendingCodeWrites`
* `JitSys`, `CodeAction`, `JitSys.next` — guest memory and its engines, and what can happen
-/

namespace Wie

open GuestMemory

/-- A compiled block: its function, its name for other blocks, what it was translated from, and the
guest bytes of that. -/
structure CompiledBlock where
  /-- Host address of the function. -/
  func : BitVec 64
  /-- Its name in the code generator; hand-written functions have none. -/
  funcId : Option ℕ
  /-- The instructions. -/
  insns : List Instruction
  /-- The first byte. -/
  guestStart : ℕ
  /-- The end. -/
  guestEnd : ℕ

/-- What is known about an address. -/
inductive CacheEntry
  /-- It is compiled. -/
  | ready (c : CompiledBlock)
  /-- It is counted how often it is visited, up to a threshold. -/
  | hot (visits thr : ℕ)
  /-- It is not compiled. -/
  | never

/-- The block of an entry. -/
def CacheEntry.block? : CacheEntry → Option CompiledBlock
  | .ready c => some c
  | _ => none

/-- `ranges_overlap` of the cache. -/
def codeRangesOverlap (a0 a1 b0 b1 : ℕ) : Bool := decide (a0 < b1 ∧ b0 < a1)

/-- The pages of `[start, stop)`, as the loops go through them. -/
def codePageSpan (start stop : ℕ) : List ℕ :=
  if stop ≤ start then []
  else List.range' (start / 0x1000) ((stop - 1) / 0x1000 + 1 - start / 0x1000)

/-- The pages of a block. -/
def CompiledBlock.pages (c : CompiledBlock) : List ℕ := codePageSpan c.guestStart c.guestEnd

/-- The pages of an entry. -/
def CacheEntry.pages (e : CacheEntry) : List ℕ := (e.block?.map CompiledBlock.pages).getD []

/-- The order in which the hash map of the cache is gone through. -/
structure HashOrder where
  /-- The entries in that order. -/
  list : OrdMap ℕ CacheEntry → List (ℕ × CacheEntry)
  /-- They are all there. -/
  perm : ∀ m, (list m).Perm m.entries

/-- What is set for the process. -/
structure JitConfig where
  /-- The code generator is there. -/
  engineReady : Bool
  /-- Blocks are chained. -/
  chainEnabled : Bool
  /-- Visits before a loop is compiled. -/
  pureLoopHotness : ℕ
  /-- Visits before other code is compiled. -/
  hotnessThreshold : ℕ

/-- The cache with its index and the writes collected for it. -/
structure CodeCache where
  /-- The entries. -/
  cache : OrdMap ℕ CacheEntry
  /-- The names of blocks that others can call. -/
  chainIds : OrdMap ℕ ℕ
  /-- How many blocks have a byte on a page. -/
  codePages : OrdMap ℕ ℕ
  /-- Pages written. -/
  pendingCodeWrites : List ℕ
  /-- There were too many of them. -/
  pendingCodeOverflow : Bool

namespace CodeCache

/-- An empty cache. -/
def new : CodeCache := ⟨.empty, .empty, .empty, [], false⟩

/-- The block compiled for an address. -/
def ready? (s : CodeCache) (rip : ℕ) : Option CompiledBlock := (s.cache.get? rip).bind (·.block?)

/-- `code_pages_add_range`. -/
def codePagesAddRange (s : CodeCache) (start stop : ℕ) : CodeCache :=
  { s with codePages := Tally.addAll (2 ^ 32 - 1) s.codePages (codePageSpan start stop) }

/-- `code_pages_remove_range`. -/
def codePagesRemoveRange (s : CodeCache) (start stop : ℕ) : CodeCache :=
  { s with codePages := Tally.subAll s.codePages (codePageSpan start stop) }

/-- `code_pages_overlap`. -/
def codePagesOverlap (s : CodeCache) (addr len : ℕ) : Bool :=
  if len = 0 ∨ s.codePages.entries.isEmpty = true then false
  else if satAdd addr len ≤ addr then !s.codePages.entries.isEmpty
  else (codePageSpan addr (satAdd addr len)).any fun page => (s.codePages.get? page).isSome

/-- Take the entry of an address out, if it is compiled; its pages are no longer counted for it. -/
def removeReady (s : CodeCache) (va : ℕ) : CodeCache :=
  match s.ready? va with
  | some c => codePagesRemoveRange
      { s with cache := s.cache.erase va, chainIds := s.chainIds.erase va } c.guestStart c.guestEnd
  | none => { s with cache := s.cache.erase va }

/-- `insert_ready`. -/
def insertReady (s : CodeCache) (cfg : JitConfig) (rip : ℕ) (compiled : CompiledBlock) :
    CodeCache :=
  let s := s.removeReady rip
  let s := { s with chainIds := match cfg.chainEnabled, compiled.funcId with
    | true, some id => s.chainIds.insert rip id
    | _, _ => s.chainIds }
  let s := s.codePagesAddRange compiled.guestStart compiled.guestEnd
  { s with cache := s.cache.insert rip (.ready compiled) }

/-- `clear_compiled`. -/
def clearCompiled (s : CodeCache) : CodeCache :=
  { s with cache := .empty, chainIds := .empty, codePages := .empty }

/-- The addresses whose blocks overlap `[addr, stop)`. -/
def toDrop (s : CodeCache) (ord : HashOrder) (addr stop : ℕ) : List ℕ :=
  (ord.list s.cache).filterMap fun e =>
    match e.2 with
    | .ready c => if codeRangesOverlap c.guestStart c.guestEnd addr stop then some e.1 else none
    | _ => none

/-- The chain table is filled with the blocks of the cache. -/
def refillChain (s : CodeCache) (ord : HashOrder) : ChainTables :=
  (ord.list s.cache).foldl (fun t e =>
    match e.2 with
    | .ready c => t.chainTableInsert (BitVec.ofNat 64 e.1) c.func
    | _ => t) .clear

/-- `invalidate_code_range`, for an engine with the tables `t`. -/
def invalidateCodeRange (s : CodeCache) (cfg : JitConfig) (ord : HashOrder) (t : ChainTables)
    (addr len : ℕ) : CodeCache × ChainTables :=
  if s.cache.entries.isEmpty = true ∨ len = 0 then (s, t)
  else if s.codePagesOverlap addr len = false then (s, t)
  else
    let drop := s.toDrop ord addr (satAdd addr len)
    if drop.isEmpty = true then (s, t)
    else
      let s := drop.foldl removeReady s
      (s, if cfg.chainEnabled then s.refillChain ord else .clear)

/-- Everything is dropped, unless there is nothing. -/
def dropAll (s : CodeCache) (t : ChainTables) : CodeCache × ChainTables :=
  if s.cache.entries.isEmpty = true then (s, t) else (s.clearCompiled, .clear)

/-- `drain_pending_code_writes`. -/
def drainPendingCodeWrites (s : CodeCache) (cfg : JitConfig) (ord : HashOrder) (t : ChainTables) :
    CodeCache × ChainTables :=
  let overflow := s.pendingCodeOverflow
  let pages := s.pendingCodeWrites
  let s := { s with pendingCodeWrites := [], pendingCodeOverflow := false }
  if overflow then s.dropAll t
  else pages.foldl (fun st page => st.1.invalidateCodeRange cfg ord st.2 (page * 0x1000) 0x1000)
    (s, t)

/-- Most pages that are collected. -/
def PENDING_WRITE_PAGE_CAP : ℕ := 256

/-- The loop of `note_code_write` over the pages of the write. -/
def noteLoop (s : CodeCache) : List ℕ → CodeCache
  | [] => s
  | page :: pages =>
    if s.pendingCodeWrites.length ≥ PENDING_WRITE_PAGE_CAP then
      { s with pendingCodeOverflow := true, pendingCodeWrites := [] }
    else if s.pendingCodeWrites.getLast? ≠ some page then
      noteLoop { s with pendingCodeWrites := s.pendingCodeWrites ++ [page] } pages
    else noteLoop s pages

/-- `note_code_write`. -/
def noteCodeWrite (s : CodeCache) (address len : ℕ) : CodeCache :=
  if len = 0 ∨ s.pendingCodeOverflow = true then s
  else if satAdd address len ≤ address then
    { s with pendingCodeOverflow := true, pendingCodeWrites := [] }
  else s.noteLoop (codePageSpan address (satAdd address len))

end CodeCache

/-! ### Engines -/

/-- What an engine has for itself. -/
structure CodeEngine where
  /-- The stops of the host. -/
  hooks : Option HookWindow
  /-- Addresses of the runtime functions that compiled code calls directly. -/
  fastApi : List ℕ
  /-- The chain tables. -/
  tables : ChainTables

/-- A new engine. -/
def CodeEngine.new : CodeEngine := ⟨none, [], .clear⟩

/-- A signed number of `n` bits, as a 64-bit one. -/
def signed64 (n v : ℕ) : ℕ := if v < 2 ^ (n - 1) then v else v + (2 ^ 64 - 2 ^ n)

/-- `resolve_thunk_va`, with `rounds` rounds to go. -/
def resolveThunkVa (read : ℕ → ℕ → Option (List UInt8)) : (rounds : ℕ) → (va : ℕ) → ℕ
  | 0, va => va
  | rounds + 1, va =>
    match read va 16 with
    | none => va
    | some buf =>
      let b := fun k => buf.getD k 0
      let le := fun k n => fromLe ((buf.drop k).take n)
      if b 0 = 0xff ∧ b 1 = 0x25 then
        match read ((va + 6 + signed64 32 (le 2 4)) % 2 ^ 64) 8 with
        | some slot => resolveThunkVa read rounds (fromLe slot)
        | none => va
      else if b 0 = 0xe9 then
        resolveThunkVa read rounds ((va + 5 + signed64 32 (le 1 4)) % 2 ^ 64)
      else if b 0 = 0x48 ∧ b 1 = 0xb8 ∧ b 10 = 0xff ∧ b 11 = 0xe0 then
        resolveThunkVa read rounds (le 2 8)
      else if b 0 = 0xeb then resolveThunkVa read rounds ((va + 2 + signed64 8 (le 1 1)) % 2 ^ 64)
      else va

/-- `pure_is_self_loop`. -/
def BlockKind.isSelfLoop (start : ℕ) : BlockKind → Bool
  | .pure _ _ _ (some (.jmp target)) => target == start
  | .pure _ _ _ (some (.jcc _ taken notTaken)) => taken == start || notTaken == start
  | _ => false

/-- What comes out of compiling: the function, and its name if the code generator made it. -/
abbrev CompileOutput := BitVec 64 × Option ℕ

namespace CodeEngine

/-- `peek_fast_ucrt_call`. -/
def peekFastUcrtCall (e : CodeEngine) (decode : Decoder) (read : ℕ → ℕ → Option (List UInt8))
    (rip : ℕ) : Bool :=
  match decodePureGprBlock decode read e.hooks rip with
  | .pure _ _ _ (some (.call target _)) => e.fastApi.contains (resolveThunkVa read 4 target)
  | _ => false

/-- `try_compile`. The function goes into the chain table before the block goes into the cache. -/
def tryCompile (e : CodeEngine) (cfg : JitConfig) (decode : Decoder)
    (read : ℕ → ℕ → Option (List UInt8)) (rip : ℕ) (emitted : Option CompileOutput) :
    Option CompiledBlock × ChainTables :=
  match decodePureGprBlock decode read e.hooks rip with
  | .pure insns _ bytesLen _ =>
    match emitted with
    | some (func, funcId) =>
      (some ⟨func, funcId, insns, rip, satAdd rip bytesLen⟩,
        if cfg.chainEnabled then e.tables.chainTableInsert (BitVec.ofNat 64 rip) func else e.tables)
    | none => (none, e.tables)
  | .notPure => (none, e.tables)

/-- Compile, or note that it cannot be done. -/
def compileAt (e : CodeEngine) (cfg : JitConfig) (decode : Decoder)
    (read : ℕ → ℕ → Option (List UInt8)) (s : CodeCache) (rip : ℕ)
    (emitted : Option CompileOutput) : Option CompiledBlock × CodeCache × ChainTables :=
  match e.tryCompile cfg decode read rip emitted with
  | (some c, t) => (some c, s.insertReady cfg rip c, t)
  | (none, t) => (none, { s with cache := s.cache.insert rip .never }, t)

/-- The part of `step_one` that decides what is run at `rip`: a block, or else an interpreted
instruction. -/
def dispatch (e : CodeEngine) (cfg : JitConfig) (decode : Decoder)
    (read : ℕ → ℕ → Option (List UInt8)) (s : CodeCache) (rip : ℕ)
    (emitted : Option CompileOutput) : Option CompiledBlock × CodeCache × ChainTables :=
  if e.hooks.any (·.shouldHostStop rip) ∨ cfg.engineReady = false then (none, s, e.tables)
  else
    match s.cache.get? rip with
    | some (.ready c) => (some c, s, e.tables)
    | some .never => (none, s, e.tables)
    | some (.hot visits thr) =>
      if 0 < thr ∧ satAdd32 visits 1 < thr then
        (none, { s with cache := s.cache.insert rip (.hot (satAdd32 visits 1) thr) }, e.tables)
      else e.compileAt cfg decode read s rip emitted
    | none =>
      let isUcrt := e.peekFastUcrtCall decode read rip
      let thr := if isUcrt then 2
        else if (decodePureGprBlock decode read e.hooks rip).isSelfLoop rip then cfg.pureLoopHotness
        else cfg.hotnessThreshold
      if thr = 0 ∨ isUcrt = true then e.compileAt cfg decode read s rip emitted
      else (none, { s with cache := s.cache.insert rip (.hot 1 thr) }, e.tables)

/-- `precompile_at`. -/
def precompileAt (e : CodeEngine) (cfg : JitConfig) (decode : Decoder)
    (read : ℕ → ℕ → Option (List UInt8)) (s : CodeCache) (address : ℕ)
    (emitted : Option CompileOutput) : CodeCache × ChainTables :=
  if cfg.engineReady = false ∨ e.hooks.any (·.shouldHostStop address) then (s, e.tables)
  else
    match e.tryCompile cfg decode read address emitted with
    | (some c, t) => (s.insertReady cfg address c, t)
    | (none, t) =>
      (match s.cache.get? address with
        | some _ => s
        | none => { s with cache := s.cache.insert address .never }, t)

end CodeEngine

/-- `code_inv_span_for_free`. -/
def codeInvSpanForFree (m : GuestMemory) (addr size freeType : ℕ) : Option (ℕ × ℕ) :=
  if freeType &&& memRelease ≠ 0 then
    (m.vad.findBase addr).map fun node => (node.allocationBase, node.size)
  else if freeType &&& memDecommit ≠ 0 then
    if size = 0 then none
    else
      let pageBase := addr / 0x1000 * 0x1000
      let pageEnd := satMul (satAdd (satAdd addr size) 0xfff / 0x1000) 0x1000
      if pageEnd - pageBase = 0 then none else some (pageBase, pageEnd - pageBase)
  else none

/-- Guest memory, the cache, and the engines that share them. -/
structure JitSys (ι : Type) where
  /-- Guest memory. -/
  mem : GuestMemory
  /-- The cache. -/
  code : CodeCache
  /-- The engines. -/
  engines : ι → CodeEngine

/-- What can happen. -/
inductive CodeAction (ι : Type)
  /-- A call on guest memory that does not concern the cache: a store of guest code, `mem_map`,
  `mem_map_image`, `virtual_alloc`, `mem_read`. -/
  | call (op : Op)
  /-- An engine comes to an address in its loop. -/
  | dispatch (i : ι) (rip : ℕ) (emitted : Option CompileOutput)
  /-- The safe point after a block or an instruction. -/
  | safePoint (i : ι)
  /-- A compiled block looks for the next one. -/
  | chainLookup (i : ι) (va : BitVec 64)
  /-- `precompile_at`. -/
  | precompileAt (i : ι) (address : ℕ) (emitted : Option CompileOutput)
  /-- `mem_write`. -/
  | memWrite (i : ι) (address : ℕ) (bytes : List UInt8)
  /-- `virtual_free`. -/
  | virtualFree (i : ι) (addr size freeType : ℕ)
  /-- `virtual_protect`. -/
  | virtualProtect (i : ι) (addr size newProtect : ℕ)
  /-- `flush_instruction_cache`. -/
  | flushInstructionCache (i : ι) (addr size : ℕ)
  /-- `install_runtime_hooks`. -/
  | installRuntimeHooks (i : ι) (hooks : HookWindow)
  /-- `configure_fast_path`. -/
  | configureFastPath (i : ι) (fastApi : List ℕ)

namespace JitSys

variable {ι : Type} [DecidableEq ι]

/-- The cache and the tables of an engine are replaced. -/
def put (s : JitSys ι) (i : ι) (r : CodeCache × ChainTables) : JitSys ι where
  mem := s.mem
  code := r.1
  engines := Function.update s.engines i { s.engines i with tables := r.2 }

/-- `invalidate_code_range`. -/
def invalidate (cfg : JitConfig) (ord : HashOrder) (s : JitSys ι) (i : ι) (addr len : ℕ) :
    JitSys ι :=
  s.put i (s.code.invalidateCodeRange cfg ord (s.engines i).tables addr len)

/-- The block that is run at an address, if any, and the state after the look. -/
def enter (cfg : JitConfig) (decode : Decoder) (env : HostEnv) (s : JitSys ι) (i : ι) (rip : ℕ)
    (emitted : Option CompileOutput) : Option CompiledBlock × JitSys ι :=
  let r := (s.engines i).dispatch cfg decode (s.mem.jitRead env) s.code rip emitted
  (r.1, s.put i r.2)

/-- A call on guest memory, and what the engine does after it succeeded. -/
def afterCall (env : HostEnv) (s : JitSys ι) (op : Op) (then_ : JitSys ι → JitSys ι) :
    Option (JitSys ι) :=
  match op.run env s.mem with
  | (.ok _, m) => some (then_ { s with mem := m })
  | (.error _, m) => some { s with mem := m }
  | (.crash, _) => none

/-- The state after an action, unless it ends the process. -/
def next (cfg : JitConfig) (decode : Decoder) (env : HostEnv) (ord : HashOrder) (s : JitSys ι) :
    CodeAction ι → Option (JitSys ι)
  | .call op => s.afterCall env op id
  | .dispatch i rip emitted => some (s.enter cfg decode env i rip emitted).2
  | .safePoint i => some (s.put i (s.code.drainPendingCodeWrites cfg ord (s.engines i).tables))
  | .chainLookup i va => some (s.put i (s.code, ((s.engines i).tables.wieJitChainLookup va).2))
  | .precompileAt i address emitted => some (s.put i
      ((s.engines i).precompileAt cfg decode (s.mem.jitRead env) s.code address emitted))
  | .memWrite i address bytes =>
    s.afterCall env (.write address bytes) fun s' =>
      s'.put i ((s.code.noteCodeWrite address bytes.length).drainPendingCodeWrites cfg ord
        (s.engines i).tables)
  | .virtualFree i addr size freeType =>
    s.afterCall env (.virtualFree addr size freeType) fun s' =>
      match codeInvSpanForFree s.mem addr size freeType with
      | some (a, n) => s'.invalidate cfg ord i a n
      | none => s'
  | .virtualProtect i addr size newProtect =>
    s.afterCall env (.virtualProtect addr size newProtect) fun s' =>
      if Protect.allowsExecute newProtect = false then s'.invalidate cfg ord i addr size else s'
  | .flushInstructionCache i addr size =>
    some (if size = 0 then s.put i (s.code.dropAll (s.engines i).tables)
      else s.invalidate cfg ord i addr size)
  | .installRuntimeHooks i hooks =>
    some ⟨s.mem, s.code.clearCompiled, Function.update s.engines i
      { s.engines i with
        tables := .clear
        -- a bitmap that is too short is refused after everything was dropped
        hooks := if hooks.stopBitmap.length < (satAdd (hooks.end_ - hooks.begin_) 1 + 7) / 8
          then (s.engines i).hooks else some hooks }⟩
  | .configureFastPath i fastApi =>
    some ⟨s.mem, s.code.clearCompiled, Function.update s.engines i
      { s.engines i with tables := .clear, fastApi := fastApi }⟩

end JitSys

end Wie
