import Wie.Lib.Bytes
import Wie.Mem.Lockstep
import Wie.Winapi.Engine
import Wie.Winapi.Thread

/-!
# Stacks of threads

`CreateThread` hands out one slot of addresses after the other, two megabytes apart, and asks
`VirtualAlloc` for a stack there. When `VirtualAlloc` refuses, the stack is mapped all the same.

## Main definitions

* `createGuestThread`
* `StackRun.Reach` — the runs of thread creations between other calls
* `StackRun.SlotOpen` — the slot of the next thread is open

## Main results

* `StackRun.worker_stacks_apart` — while slots are open, a new stack was free, and stacks are apart
* `StackRun.not_worker_stacks_apart` — a stack that is mapped over another one
-/

namespace Wie

/-- Default worker stack size when `dwStackSize == 0`. -/
def DEFAULT_WORKER_STACK : ℕ := 0x100000

/-- Guest addresses of worker stacks. -/
def WORKER_STACK_REGION_BASE : ℕ := 0x22000000

/-- Distance of two slots. -/
def WORKER_STACK_STRIDE : ℕ := 0x200000

/-- Home space and return address at thread entry. -/
def THREAD_ENTRY_HOME_AND_RET : ℕ := 0x28

/-- `CREATE_SUSPENDED`. -/
def CREATE_SUSPENDED : ℕ := 4

/-- `ERROR_NOT_ENOUGH_MEMORY`. -/
def ERROR_NOT_ENOUGH_MEMORY : ℕ := 8

/-- `ERROR_NOT_SUPPORTED_MT`. -/
def ERROR_NOT_SUPPORTED_MT : ℕ := 50

/-- The saved context of a thread; registers that are zero at entry are left out. -/
structure ThreadContext where
  /-- The parameter. -/
  rcx : ℕ
  /-- Stack pointer. -/
  rsp : ℕ
  /-- Start address. -/
  rip : ℕ
deriving DecidableEq

/-- A thread that waits to be started. -/
structure PendingSpawn where
  /-- The id. -/
  tid : ℕ
  /-- The handle. -/
  handle : ℕ
  /-- Start address. -/
  startAddress : ℕ
  /-- The parameter. -/
  parameter : ℕ
  /-- Lowest address of the stack. -/
  stackBase : ℕ
  /-- Size of the stack. -/
  stackSize : ℕ
deriving DecidableEq

/-- What `SyncState` keeps of threads. -/
structure SyncState where
  /-- Next handle. -/
  nextHandle : ℕ
  /-- Next slot for a stack. -/
  nextStackSlot : ℕ
  /-- Saved contexts. -/
  threadCpu : AList fun _ : ℕ => ThreadContext
  /-- Threads to be started. -/
  pendingSpawns : List PendingSpawn
  /-- Threads created suspended, by handle. -/
  suspendedSpawns : AList fun _ : ℕ => PendingSpawn

/-- `SyncState::new`. -/
def SyncState.new : SyncState := ⟨0x80000001, 1, ∅, [], ∅⟩

/-- `alloc_handle`. -/
def SyncState.allocHandle (s : SyncState) : ℕ × SyncState :=
  let next := satAdd s.nextHandle 1
  (s.nextHandle,
    { s with nextHandle := if next = 0 ∨ next = 2 ^ 64 - 1 then 0x80000001 else next })

/-- `register_thread`. -/
def SyncState.registerThread (s : SyncState) (tid : ℕ) (ctx : ThreadContext) : ℕ × SyncState :=
  let (handle, s) := s.allocHandle
  (handle, { s with threadCpu := s.threadCpu.insert tid ctx })

/-- The part of the WinAPI state that thread creation works on. -/
structure MtState where
  /-- The threads. -/
  threads : ThreadState
  /-- Waiting threads and handles. -/
  sync : SyncState
  /-- Last error. -/
  lastError : ℕ

/-- What the environment says about threads. -/
structure MtConfig where
  /-- `WIE_MT`. -/
  createThread : Bool
  /-- `WIE_MT_MAX_THREADS`. -/
  maxWorkerThreads : ℕ

/-- Threads that count against the maximum. -/
def MtState.liveWorkers (s : MtState) : ℕ :=
  s.threads.byTid.entries.length - 1 + s.sync.pendingSpawns.length +
    s.sync.suspendedSpawns.entries.length

/-- The size of a stack: a whole number of pages. -/
def workerStackSize (stackSizeRaw : ℕ) : ℕ :=
  let stackSize := if stackSizeRaw = 0 then DEFAULT_WORKER_STACK else stackSizeRaw
  max (satAdd stackSize 0xfff / 0x1000 * 0x1000) 0x1000

/-- The lowest address of a slot. -/
def slotBase (slot : ℕ) : ℕ :=
  satAdd WORKER_STACK_REGION_BASE (satMul slot WORKER_STACK_STRIDE)

/-- Where a thread starts on its stack. -/
def threadEntryRsp (stackBase stackSize : ℕ) : ℕ :=
  satAdd stackBase stackSize / 16 * 16 - THREAD_ENTRY_HOME_AND_RET

/-- Record a new thread with the given stack. -/
def MtState.addSpawn (st : MtState) (stackBase stackSize start param flags : ℕ) :
    PendingSpawn × MtState :=
  let (tid, threads) := st.threads.allocWorker
  let rsp := threadEntryRsp stackBase stackSize
  let (handle, sync) := st.sync.registerThread tid ⟨param, rsp, start⟩
  let spawn : PendingSpawn := ⟨tid, handle, start, param, stackBase, stackSize⟩
  (spawn, if flags &&& CREATE_SUSPENDED ≠ 0 then
      ⟨threads, { sync with suspendedSpawns := sync.suspendedSpawns.insert handle spawn }, 0⟩
    else ⟨threads, { sync with pendingSpawns := sync.pendingSpawns ++ [spawn] }, 0⟩)

/-- `drop(engine.mem_write(..))`: the memory after a write whose error is ignored. -/
@[irreducible]
def GuestMemory.writeDropped (env : HostEnv) (m : GuestMemory) (address : ℕ) (bytes : List UInt8) :
    Option GuestMemory :=
  match m.write env address bytes with
  | (.crash, _) => none
  | (_, m) => some m

/-- Make a thread with the given stack. -/
def spawnWithStack (env : HostEnv) (st : MtState) (m : GuestMemory)
    (stackBase stackSize start param flags tidOut : ℕ) : Outcome ℕ × MtState × GuestMemory :=
  let frame := List.replicate THREAD_ENTRY_HOME_AND_RET 0
  match m.writeDropped env (threadEntryRsp stackBase stackSize) frame with
  | none => (.crash, st, m)
  | some m =>
    let spawned := st.addSpawn stackBase stackSize start param flags
    if tidOut = 0 then (.ok spawned.1.handle, spawned.2, m)
    else
      match m.writeDropped env tidOut (toLe 4 spawned.1.tid) with
      | none => (.crash, spawned.2, m)
      | some m => (.ok spawned.1.handle, spawned.2, m)

/-- Step to the next slot. -/
def MtState.advanceSlot (st : MtState) : MtState :=
  { st with sync := { st.sync with nextStackSlot := satAdd32 st.sync.nextStackSlot 1 } }

/-- `create_guest_thread`. -/
def createGuestThread (env : HostEnv) (cfg : MtConfig) (st : MtState) (m : GuestMemory)
    (stackSizeRaw start param flags tidOut : ℕ) : Outcome ℕ × MtState × GuestMemory :=
  if cfg.createThread = false then
    (.ok 0, { st with lastError := ERROR_NOT_SUPPORTED_MT }, m)
  else if start = 0 then (.ok 0, { st with lastError := ERROR_INVALID_PARAMETER }, m)
  else if st.liveWorkers ≥ cfg.maxWorkerThreads then
    (.ok 0, { st with lastError := ERROR_NOT_ENOUGH_MEMORY }, m)
  else
    let stackSize := workerStackSize stackSizeRaw
    let stackBase := slotBase st.sync.nextStackSlot
    let st := st.advanceSlot
    match m.virtualAlloc env stackBase stackSize (memCommit ||| memReserve)
        Protect.pageReadwrite with
    | (.ok va, m) => spawnWithStack env st m va stackSize start param flags tidOut
    | (.error _, m) =>
      -- map the range if `VirtualAlloc` rejects it
      match m.map env stackBase stackSize (Perm.read ||| Perm.write) with
      | (.ok (), m) => spawnWithStack env st m stackBase stackSize start param flags tidOut
      | (.error _, m) => (.ok 0, { st with lastError := ERROR_NOT_ENOUGH_MEMORY }, m)

/-! ### Sizes and slots -/

theorem workerStackSize_spec (raw : ℕ) :
    0 < workerStackSize raw ∧ workerStackSize raw % 0x1000 = 0 := by
  rw [workerStackSize]
  generalize satAdd _ 0xfff = n
  omega

theorem slotBase_eq {slot : ℕ} (h : slot < 2 ^ 32) :
    slotBase slot = 0x22000000 + slot * 0x200000 := by
  rw [slotBase, WORKER_STACK_REGION_BASE, WORKER_STACK_STRIDE, satMul_of_lt (by omega),
    satAdd_of_lt (by omega)]

/-- **A thread starts inside its stack**, eight bytes off alignment, as after a call. -/
theorem threadEntryRsp_spec {base size : ℕ} (hpos : 0 < size) (hsize : size % 0x1000 = 0)
    (hbase : base % 0x1000 = 0) (htop : base + size < 2 ^ 64) :
    base ≤ threadEntryRsp base size ∧ threadEntryRsp base size + 0x28 ≤ base + size ∧
      threadEntryRsp base size % 16 = 8 := by
  rw [threadEntryRsp, THREAD_ENTRY_HOME_AND_RET, satAdd_of_lt htop]
  omega

/-! ### Storage for a stack -/

section

variable {env : HostEnv} {m : GuestMemory}

open GuestMemory

/-- A request at an address that is a multiple of 64 KiB is answered there. -/
theorem alignReserveRequest_of_aligned {base size lo span : ℕ} (h0 : base ≠ 0)
    (hb : base % 0x10000 = 0) (hr : m.alignReserveRequest base size = .ok (lo, span))
    (htop : lo + span < 2 ^ 64) : lo = base ∧ size ≤ span := by
  rw [alignReserveRequest, if_neg h0] at hr
  cases hc : checkedAdd base size with
  | none => rw [hc] at hr; cases hr
  | some stop =>
    obtain ⟨rfl, hlt⟩ := checkedAdd_eq_some.mp hc
    rw [hc] at hr
    dsimp only at hr
    have hdown : alignDown base 0x10000 = base := by
      rw [alignDown, if_neg (by decide)]
      omega
    rw [hdown] at hr
    split at hr
    · cases hr
    · obtain ⟨rfl, rfl⟩ := Prod.mk.inj (Except.ok.inj hr)
      have := le_alignUp hlt 0x10000
      exact ⟨rfl, by omega⟩

/-- **What `VirtualAlloc` makes of a slot**: it accepts free pages only, and answers with the slot.
-/
theorem GuestMemory.Inv.virtualAlloc_slot (h : Inv env m) {base size : ℕ} (h0 : base ≠ 0)
    (hb : base % 0x10000 = 0) (hsize : 0 < size) :
    Inv env (m.virtualAlloc env base size (memCommit ||| memReserve) Protect.pageReadwrite).2 ∧
    ∀ va, (m.virtualAlloc env base size (memCommit ||| memReserve) Protect.pageReadwrite).1 =
        .ok va → va = base ∧ base + size < 2 ^ 64 ∧
          ∀ x, base ≤ x → x < base + size → m.pages.table (x / 0x1000) = none := by
  have hcall : m.virtualAlloc env base size (memCommit ||| memReserve) Protect.pageReadwrite =
      m.vaReserve env base size (Protect.rwxFromPageProtect Protect.pageReadwrite) .committed
        Protect.pageReadwrite Protect.pageReadwrite := by
    rw [virtualAlloc]
    have h1 : ((memCommit ||| memReserve) &&& memReserve != 0) = true := by decide
    have h2 : ((memCommit ||| memReserve) &&& memCommit != 0) = true := by decide
    simp only [h1, h2, Bool.true_or, Bool.true_and, Bool.true_eq_false, false_and, or_false]
    rw [if_neg (by omega), if_neg (by decide), if_neg (by decide), if_pos trivial]
    rfl
  rw [hcall]
  have ha : AllocArgs size (memCommit ||| memReserve) Protect.pageReadwrite :=
    ⟨by omega, by decide, by decide⟩
  rcases h.change_reserve (show PageState.committed ≠ .free by decide) Protect.pageReadwrite ha
      (.inl (by decide)) (Protect.rwxFromPageProtect Protect.pageReadwrite) rfl with
    ⟨e, he, hch⟩ | ⟨lo, span, hok, hr⟩
  · refine ⟨hch.inv h, fun va hva => ?_⟩
    rw [he] at hva
    cases hva
  · refine ⟨hr.inv h, fun va hva => ?_⟩
    obtain rfl := Except.ok.inj (hok.symm.trans hva)
    obtain ⟨rfl, hle⟩ := alignReserveRequest_of_aligned h0 hb hr.request hr.range.top
    have := hr.range.top
    exact ⟨rfl, by omega, fun x h1 h2 => hr.free x h1 (by omega)⟩

/-- What mapping a slot does. -/
theorem GuestMemory.Inv.map_slot (h : Inv env m) (base size perms : ℕ) (hsize : 0 < size) :
    Inv env (m.map env base size perms).2 ∧
      ((m.map env base size perms).1 = .ok () → base + size < 2 ^ 64) := by
  rcases h.change_map base size perms .priv with ⟨e, he, hch⟩ | ⟨hok, hch⟩
  · refine ⟨hch.inv h, fun hok => ?_⟩
    rw [GuestMemory.map, he] at hok
    cases hok
  · refine ⟨hch.inv h, fun _ => ?_⟩
    generalize (m.mapWithType env base size perms .priv).2 = m' at hch
    cases hch with
    | same hq => exact (hq rfl).elim
    | bumped => exact absurd hsize (lt_irrefl 0)
    | mapped hm => exact hm.range.top

/-- A write whose error is ignored keeps the invariant. -/
theorem GuestMemory.Inv.writeDropped (h : Inv env m) {address : ℕ} {bytes : List UInt8}
    {m' : GuestMemory} (hw : m.writeDropped env address bytes = some m') : Inv env m' := by
  have hop := h.change (.write address bytes)
  rw [Op.run] at hop
  rw [GuestMemory.writeDropped] at hw
  generalize m.write env address bytes = w at hop hw
  obtain ⟨o, m₁⟩ := w
  cases o with
  | crash => cases hw
  | ok _ | error _ =>
    obtain rfl := Option.some.inj hw
    exact (hop fun hc => by cases hc).inv h

/-! ### Creation -/

variable {cfg : MtConfig} {st : MtState} {raw start param flags tidOut : ℕ}

/-- The spawn record of a thread is queued, or kept until the thread is resumed. -/
def MtState.HasSpawn (st : MtState) (spawn : PendingSpawn) : Prop :=
  spawn ∈ st.sync.pendingSpawns ∨ st.sync.suspendedSpawns.lookup spawn.handle = some spawn

/-- A new thread: its record, and the registers it starts with. -/
def MtState.Spawned (st : MtState) (handle start param base size : ℕ) : Prop :=
  ∃ tid, st.HasSpawn ⟨tid, handle, start, param, base, size⟩ ∧
    st.sync.threadCpu.lookup tid = some ⟨param, threadEntryRsp base size, start⟩

/-- **What is recorded of a new thread.** -/
theorem MtState.addSpawn_spec (st : MtState) (base size start param flags : ℕ) :
    (st.addSpawn base size start param flags).2.sync.nextStackSlot = st.sync.nextStackSlot ∧
      (st.addSpawn base size start param flags).2.Spawned
        (st.addSpawn base size start param flags).1.handle start param base size := by
  rw [addSpawn]
  dsimp only
  split_ifs
  · exact ⟨rfl, _, .inr (AList.lookup_insert _), AList.lookup_insert _⟩
  · exact ⟨rfl, _, .inl (List.mem_append_right _ (List.mem_singleton_self _)),
      AList.lookup_insert _⟩

/-- **What making a thread does**, when it comes back. -/
theorem spawnWithStack_spec (h : Inv env m) {base size : ℕ}
    (hc : (spawnWithStack env st m base size start param flags tidOut).1 ≠ .crash) :
    ∃ m', Inv env m' ∧ spawnWithStack env st m base size start param flags tidOut =
      (.ok (st.addSpawn base size start param flags).1.handle,
        (st.addSpawn base size start param flags).2, m') := by
  simp only [spawnWithStack] at hc ⊢
  cases hw : m.writeDropped env (threadEntryRsp base size)
      (List.replicate THREAD_ENTRY_HOME_AND_RET 0) with
  | none =>
    rw [hw] at hc
    exact (hc rfl).elim
  | some m₁ =>
    rw [hw] at hc
    dsimp only at hc ⊢
    split_ifs at hc ⊢
    · exact ⟨m₁, h.writeDropped hw, rfl⟩
    · cases hw₂ : m₁.writeDropped env tidOut
          (toLe 4 (st.addSpawn base size start param flags).1.tid) with
      | none =>
        rw [hw₂] at hc
        exact (hc rfl).elim
      | some m₂ => exact ⟨m₂, (h.writeDropped hw).writeDropped hw₂, rfl⟩

/-- The call gets as far as a slot for the stack. -/
def MtState.TakesSlot (st : MtState) (cfg : MtConfig) (start : ℕ) : Prop :=
  cfg.createThread = true ∧ start ≠ 0 ∧ st.liveWorkers < cfg.maxWorkerThreads

/-- `VirtualAlloc` accepts a stack in the slot. -/
def GuestMemory.Accepts (env : HostEnv) (m : GuestMemory) (base size : ℕ) : Prop :=
  ∃ va, (m.virtualAlloc env base size (memCommit ||| memReserve) Protect.pageReadwrite).1 = .ok va

/-- No page of a range is in use. -/
def GuestMemory.FreeRange (m : GuestMemory) (base size : ℕ) : Prop :=
  ∀ x, base ≤ x → x < base + size → m.pages.table (x / 0x1000) = none

/-- What `CreateThread` may come back with: it fails, or it makes a thread with the stack in the
next slot, which `VirtualAlloc` accepted only if it was free. -/
inductive CreateThreadResult (env : HostEnv) (cfg : MtConfig) (st : MtState) (m : GuestMemory)
    (raw start param : ℕ) : Outcome ℕ × MtState × GuestMemory → Prop
  /-- No thread is made. -/
  | failed {st' : MtState} {m' : GuestMemory} (inv : Inv env m')
    (slot : st'.sync.nextStackSlot = st.sync.nextStackSlot ∨
      st.TakesSlot cfg start ∧ st'.sync.nextStackSlot = st.sync.nextStackSlot + 1) :
    CreateThreadResult env cfg st m raw start param (.ok 0, st', m')
  /-- A thread is made. -/
  | created {handle : ℕ} {st' : MtState} {m' : GuestMemory} (inv : Inv env m')
    (takes : st.TakesSlot cfg start)
    (free : m.Accepts env (slotBase st.sync.nextStackSlot) (workerStackSize raw) →
      m.FreeRange (slotBase st.sync.nextStackSlot) (workerStackSize raw))
    (top : slotBase st.sync.nextStackSlot + workerStackSize raw < 2 ^ 64)
    (slot : st'.sync.nextStackSlot = st.sync.nextStackSlot + 1)
    (spawned : st'.Spawned handle start param (slotBase st.sync.nextStackSlot)
      (workerStackSize raw)) :
    CreateThreadResult env cfg st m raw start param (.ok handle, st', m')

/-- **What `CreateThread` does**, when it comes back. -/
theorem createGuestThread_spec (h : Inv env m)
    (hlt : st.TakesSlot cfg start → st.sync.nextStackSlot + 1 < 2 ^ 32)
    (hc : (createGuestThread env cfg st m raw start param flags tidOut).1 ≠ .crash) :
    CreateThreadResult env cfg st m raw start param
      (createGuestThread env cfg st m raw start param flags tidOut) := by
  rw [createGuestThread] at hc ⊢
  by_cases hct : cfg.createThread = false
  · rw [if_pos hct]
    exact .failed h (.inl rfl)
  by_cases hst : start = 0
  · rw [if_neg hct, if_pos hst]
    exact .failed h (.inl rfl)
  by_cases hmax : st.liveWorkers ≥ cfg.maxWorkerThreads
  · rw [if_neg hct, if_neg hst, if_pos hmax]
    exact .failed h (.inl rfl)
  rw [if_neg hct, if_neg hst, if_neg hmax] at hc ⊢
  dsimp only at hc ⊢
  have htakes : st.TakesSlot cfg start := ⟨by simpa using hct, hst, by omega⟩
  replace hlt := hlt htakes
  have hnext : st.advanceSlot.sync.nextStackSlot = st.sync.nextStackSlot + 1 :=
    min_eq_left (by omega)
  have hbase : slotBase st.sync.nextStackSlot = _ := slotBase_eq (by omega)
  generalize hb : slotBase st.sync.nextStackSlot = base at hc hbase ⊢
  have hsize := (workerStackSize_spec raw).1
  generalize hs : workerStackSize raw = size at hc hsize ⊢
  have hal : base % 0x10000 = 0 := by omega
  obtain ⟨h₁, hva⟩ := h.virtualAlloc_slot (by omega) hal hsize
  have hmade {m₁ : GuestMemory} (h₁ : Inv env m₁) (htop : base + size < 2 ^ 64)
      (hc : (spawnWithStack env st.advanceSlot m₁ base size start param flags tidOut).1 ≠ .crash) :
      CreateThreadResult env cfg st m raw start param
        (spawnWithStack env st.advanceSlot m₁ base size start param flags tidOut) := by
    obtain ⟨m', h', he⟩ := spawnWithStack_spec h₁ hc
    obtain ⟨hslot', hsp⟩ := st.advanceSlot.addSpawn_spec base size start param flags
    rw [he]
    subst hb hs
    exact .created h' htakes (fun ⟨va, hok⟩ => (hva va hok).2.2) htop (hslot'.trans hnext) hsp
  cases hv : m.virtualAlloc env base size (memCommit ||| memReserve) Protect.pageReadwrite with
  | mk o m₁ =>
    rw [hv] at hc h₁ hva
    cases o with
    | ok va =>
      obtain ⟨rfl, htop, -⟩ := hva va rfl
      exact hmade h₁ htop hc
    | error e =>
      dsimp only at hc ⊢
      obtain ⟨h₂, htop⟩ := h₁.map_slot base size (Perm.read ||| Perm.write) hsize
      cases hmap : m₁.map env base size (Perm.read ||| Perm.write) with
      | mk o m₂ =>
        rw [hmap] at hc h₂ htop
        cases o with
        | ok _ => exact hmade h₂ (htop rfl) hc
        | error e => exact .failed h₂ (.inr ⟨htakes, hnext⟩)

end

/-! ### Runs -/

/-- Two stacks share no byte. -/
def StacksApart (p q : ℕ × ℕ) : Prop := p.1 + p.2 ≤ q.1 ∨ q.1 + q.2 ≤ p.1

instance (p q : ℕ × ℕ) : Decidable (StacksApart p q) := inferInstanceAs (Decidable (_ ∨ _))

/-- Guest memory and the threads, with the stacks of all threads. -/
structure StackRun where
  /-- Guest memory. -/
  mem : GuestMemory
  /-- The threads. -/
  mt : MtState
  /-- Base and size of each stack. -/
  stackRanges : List (ℕ × ℕ)

/-- What can happen. -/
inductive StackAction
  /-- A call of `CreateThread`. -/
  | createThread (stackSizeRaw start param flags tidOut : ℕ)
  /-- A call on guest memory. -/
  | call (op : GuestMemory.Op)
  /-- Threads are started or end. -/
  | other (mt : MtState) (ranges : List (ℕ × ℕ))

namespace StackRun

/-- The stack that the next thread gets. -/
def nextStack (s : StackRun) (stackSizeRaw : ℕ) : ℕ × ℕ :=
  (slotBase s.mt.sync.nextStackSlot, workerStackSize stackSizeRaw)

/-- The call of `CreateThread`. -/
def create (env : HostEnv) (cfg : MtConfig) (s : StackRun)
    (stackSizeRaw start param flags tidOut : ℕ) : Outcome ℕ × MtState × GuestMemory :=
  createGuestThread env cfg s.mt s.mem stackSizeRaw start param flags tidOut

/-- What an action leads to. -/
def Step (env : HostEnv) (cfg : MtConfig) (s : StackRun) : StackAction → StackRun → Prop
  | .createThread raw start param flags tidOut, s' =>
    let r := s.create env cfg raw start param flags tidOut
    r.1 ≠ .crash ∧ s' = ⟨r.2.2, r.2.1,
      if r.1 = .ok 0 then s.stackRanges else s.nextStack raw :: s.stackRanges⟩
  | .call op, s' =>
    GuestMemory.Step env s.mem op s'.mem ∧ s'.mt = s.mt ∧ s'.stackRanges = s.stackRanges
  | .other mt ranges, s' => mt.sync.nextStackSlot = s.mt.sync.nextStackSlot ∧
      ranges.Sublist s.stackRanges ∧ s' = ⟨s.mem, mt, ranges⟩

/-- No slot is taken yet, and the stacks there are lie below all slots. -/
def Init (env : HostEnv) (s : StackRun) : Prop :=
  GuestMemory.Reachable env GuestMemory.AnyCall s.mem ∧ s.mt.sync.nextStackSlot = 1 ∧
    s.stackRanges.Pairwise StacksApart ∧ ∀ p ∈ s.stackRanges, p.1 + p.2 ≤ slotBase 1

/-- The slot of the next thread is open: if `VirtualAlloc` refuses it, then no page of it is in use,
and no stack reaches there from an earlier slot with pages that were freed. -/
def SlotOpen (env : HostEnv) (cfg : MtConfig) (s : StackRun) : StackAction → Prop
  | .createThread raw start _ _ _ => s.mt.TakesSlot cfg start →
    s.mt.sync.nextStackSlot + 1 < 2 ^ 32 ∧
    (¬ s.mem.Accepts env (s.nextStack raw).1 (s.nextStack raw).2 →
      s.mem.FreeRange (s.nextStack raw).1 (s.nextStack raw).2) ∧
    ∀ p ∈ s.stackRanges, WORKER_STACK_STRIDE < p.2 →
      (∃ x, p.1 ≤ x ∧ x < p.1 + p.2 ∧ s.mem.pages.table (x / 0x1000) = none) →
        StacksApart p (s.nextStack raw)
  | _ => True

/-- The runs of thread creations between other calls. -/
def Reach (env : HostEnv) (cfg : MtConfig) (guard : StackRun → StackAction → Prop) :
    StackRun → Prop :=
  GuardedReach (Init env) guard (Step env cfg)

/-- Stacks are apart, and all start below the next slot; only long ones reach there. -/
structure StackInv (env : HostEnv) (s : StackRun) : Prop where
  /-- Guest memory. -/
  mem : GuestMemory.Inv env s.mem
  /-- The next slot. -/
  slot : 0 < s.mt.sync.nextStackSlot ∧ s.mt.sync.nextStackSlot < 2 ^ 32
  /-- No two stacks share a byte. -/
  apart : s.stackRanges.Pairwise StacksApart
  /-- Stacks are in earlier slots. -/
  below : ∀ p ∈ s.stackRanges, p.2 ≤ WORKER_STACK_STRIDE →
    p.1 + p.2 ≤ slotBase s.mt.sync.nextStackSlot

variable {env : HostEnv} {cfg : MtConfig} {s s' : StackRun}

theorem StackInv.of_init (h : Init env s) : StackInv env s := by
  obtain ⟨hm, hslot, hapart, hbelow⟩ := h
  refine ⟨hm.inv, ?_, hapart, fun p hp _ => ?_⟩
  · rw [hslot]
    decide
  · rw [hslot]
    exact hbelow p hp

/-- **A free slot is apart from all stacks**: a short one ends before it, and a long one is in use
where it reaches into it. -/
theorem StackInv.apart_next (h : StackInv env s) {raw : ℕ}
    (hfree : s.mem.FreeRange (s.nextStack raw).1 (s.nextStack raw).2)
    (hlong : ∀ p ∈ s.stackRanges, WORKER_STACK_STRIDE < p.2 →
      (∃ x, p.1 ≤ x ∧ x < p.1 + p.2 ∧ s.mem.pages.table (x / 0x1000) = none) →
        StacksApart p (s.nextStack raw)) :
    ∀ p ∈ s.stackRanges, StacksApart p (s.nextStack raw) := by
  intro p hp
  by_cases hshort : p.2 ≤ WORKER_STACK_STRIDE
  · exact .inl (h.below p hp hshort)
  · by_contra hn
    have hpos : 0 < (s.nextStack raw).2 := (workerStackSize_spec raw).1
    have hn' := hn
    rw [StacksApart, not_or] at hn'
    have hx : (∃ x, p.1 ≤ x ∧ x < p.1 + p.2 ∧ s.mem.pages.table (x / 0x1000) = none) :=
      ⟨max p.1 (s.nextStack raw).1, by omega, by omega, hfree _ (by omega) (by omega)⟩
    exact hn (hlong p hp (by omega) hx)

/-- What holds of a new stack. -/
structure NewStack (s : StackRun) (mt' : MtState) (handle start param base size : ℕ) : Prop where
  /-- Its pages were free. -/
  free : s.mem.FreeRange base size
  /-- The entry frame lies in it. -/
  frame : base ≤ threadEntryRsp base size ∧
    threadEntryRsp base size + THREAD_ENTRY_HOME_AND_RET ≤ base + size
  /-- The stack pointer is eight bytes off alignment. -/
  aligned : threadEntryRsp base size % 16 = 8
  /-- It is apart from the stacks of all other threads. -/
  others : ∀ p ∈ s.stackRanges, StacksApart p (base, size)
  /-- The new thread runs on it. -/
  spawned : mt'.Spawned handle start param base size

/-- **One creation**: the stack was free, and is apart from all others. -/
theorem StackInv.newStack (h : StackInv env s) {raw start param flags tidOut handle : ℕ}
    (hg : SlotOpen env cfg s (.createThread raw start param flags tidOut))
    (hr : (s.create env cfg raw start param flags tidOut).1 = .ok handle) (h0 : handle ≠ 0) :
    let r := s.create env cfg raw start param flags tidOut
    s.NewStack r.2.1 handle start param (s.nextStack raw).1 (s.nextStack raw).2 := by
  intro r
  have hc : r.1 ≠ .crash := by
    rw [show r.1 = _ from hr]
    nofun
  have hspec : CreateThreadResult env cfg s.mt s.mem raw start param r :=
    createGuestThread_spec h.mem (fun ht => (hg ht).1) hc
  have hgfree := fun ht => (hg ht).2.1
  have hglong := fun ht => (hg ht).2.2
  generalize hr' : r = r' at hspec
  cases hspec with
  | failed =>
    rw [show r.1 = _ from congrArg Prod.fst hr'] at hr
    exact (h0 (Outcome.ok.inj hr).symm).elim
  | created _ htakes hfree htop _ hspawned =>
    rw [show r.1 = _ from congrArg Prod.fst hr'] at hr
    obtain rfl := Outcome.ok.inj hr
    have hrange := (Classical.em _).elim hfree (hgfree htakes)
    have hslot := h.slot
    have hbase : (s.nextStack raw).1 = _ := slotBase_eq hslot.2
    obtain ⟨hpos, hpages⟩ := workerStackSize_spec raw
    have hal : (s.nextStack raw).1 % 0x1000 = 0 := by omega
    obtain ⟨hlo, hhi, hal⟩ := threadEntryRsp_spec hpos hpages hal htop
    exact ⟨hrange, ⟨hlo, hhi⟩, hal, h.apart_next hrange (hglong htakes),
      hspawned⟩

theorem slotBase_mono {slot : ℕ} (h : slot + 1 < 2 ^ 32) :
    slotBase (slot + 1) = slotBase slot + WORKER_STACK_STRIDE := by
  rw [slotBase_eq h, slotBase_eq (by omega), WORKER_STACK_STRIDE]
  omega

/-- The invariant after the slot was used, or given up. -/
theorem StackInv.advance (h : StackInv env s) (raw : ℕ)
    (hlt : s.mt.sync.nextStackSlot + 1 < 2 ^ 32) {m : GuestMemory} {mt : MtState}
    {ranges : List (ℕ × ℕ)}
    (hinv : GuestMemory.Inv env m) (hslot : mt.sync.nextStackSlot = s.mt.sync.nextStackSlot + 1)
    (hapart : ranges.Pairwise StacksApart)
    (hmem : ∀ p ∈ ranges, p ∈ s.stackRanges ∨ p = s.nextStack raw) :
    StackInv env ⟨m, mt, ranges⟩ where
  mem := hinv
  slot := by
    show 0 < mt.sync.nextStackSlot ∧ mt.sync.nextStackSlot < 2 ^ 32
    omega
  apart := hapart
  below p hp hshort := by
    show p.1 + p.2 ≤ slotBase mt.sync.nextStackSlot
    rw [hslot, slotBase_mono hlt]
    rcases hmem p hp with hp | rfl
    · have := h.below p hp hshort
      omega
    · exact Nat.add_le_add_left hshort _

/-- **One action** keeps stacks apart. -/
theorem StackInv.step (h : StackInv env s) {a : StackAction} (hg : SlotOpen env cfg s a)
    (hs : Step env cfg s a s') : StackInv env s' := by
  cases a with
  | call op =>
    obtain ⟨hop, hmt, hst⟩ := hs
    refine ⟨(hop.change h.mem).inv h.mem, ?_, ?_, ?_⟩
    · rw [hmt]
      exact h.slot
    · rw [hst]
      exact h.apart
    · rw [hmt, hst]
      exact h.below
  | other mt ranges =>
    obtain ⟨hslot, hsub, rfl⟩ := hs
    refine ⟨h.mem, ?_, h.apart.sublist hsub, fun p hp => ?_⟩
    · rw [hslot]
      exact h.slot
    · rw [hslot]
      exact h.below p (hsub.subset hp)
  | createThread raw start param flags tidOut =>
    obtain ⟨hc, rfl⟩ := hs
    have hnew := fun handle => @StackInv.newStack _ _ _ h _ _ _ _ _ handle hg
    have hspec : CreateThreadResult env cfg s.mt s.mem raw start param
        (s.create env cfg raw start param flags tidOut) :=
      createGuestThread_spec h.mem (fun ht => (hg ht).1) hc
    have hlt := fun ht => (hg ht).1
    dsimp only at hnew
    generalize s.create env cfg raw start param flags tidOut = r at hspec hnew
    cases hspec with
    | failed hinv hnext =>
      rcases hnext with hnext | ⟨htakes, hnext⟩
      · exact ⟨hinv, by simpa [hnext] using h.slot, h.apart, by simpa [hnext] using h.below⟩
      · exact h.advance raw (hlt htakes) hinv hnext h.apart fun p hp => .inl hp
    | @created handle _ _ hinv htakes _ _ hnext =>
      by_cases h0 : handle = 0
      · subst h0
        exact h.advance raw (hlt htakes) hinv hnext h.apart fun p hp => .inl hp
      · rw [if_neg (by simpa using h0)]
        refine h.advance raw (hlt htakes) hinv hnext
          (List.pairwise_cons.mpr ⟨?_, h.apart⟩) ?_
        · exact fun p hp => ((hnew handle rfl h0).others p hp).symm
        · exact fun p hp => (List.mem_cons.mp hp).symm

/-- **Stacks never overlap anything**, while the slots that are taken are open: they are pairwise
apart, and a stack that a thread is given was free before. -/
theorem worker_stacks_apart (h : Reach env cfg (SlotOpen env cfg) s) :
    s.stackRanges.Pairwise StacksApart ∧
      ∀ raw start param flags tidOut handle,
        SlotOpen env cfg s (.createThread raw start param flags tidOut) →
        (s.create env cfg raw start param flags tidOut).1 = .ok handle → handle ≠ 0 →
          s.NewStack (s.create env cfg raw start param flags tidOut).2.1 handle start param
            (s.nextStack raw).1 (s.nextStack raw).2 := by
  have hinv : StackInv env s :=
    GuardedReach.invariant (fun _ => StackInv.of_init) (fun _ _ _ hi hg hs => hi.step hg hs) h
  exact ⟨hinv.apart, fun raw start param flags tidOut handle hg hr h0 => hinv.newStack hg hr h0⟩

/-- The run goes on with the creation of a thread. -/
theorem reach_create {guard : StackRun → StackAction → Prop} (h : Reach env cfg guard s)
    {raw start param flags tidOut handle : ℕ}
    (hg : guard s (.createThread raw start param flags tidOut))
    (hr : (s.create env cfg raw start param flags tidOut).1 = .ok handle) (h0 : handle ≠ 0) :
    Reach env cfg guard ⟨(s.create env cfg raw start param flags tidOut).2.2,
      (s.create env cfg raw start param flags tidOut).2.1, s.nextStack raw :: s.stackRanges⟩ := by
  refine .step (o := .createThread raw start param flags tidOut) h hg ?_
  dsimp only [Step]
  rw [hr]
  refine ⟨nofun, ?_⟩
  rw [if_neg (by simpa using h0)]

/-- A process with one thread. -/
def boot : StackRun where
  mem := GuestMemory.new .roomy
  mt := ⟨.primary, .new, 0⟩
  stackRanges := []

theorem init_boot : Init env boot :=
  ⟨GuestMemory.reachable_new _, rfl, .nil, nofun⟩

/-- The first thread of a process. -/
theorem worker_stacks_apart_boot : ∃ s : StackRun,
    Reach .fourK ⟨true, 4⟩ (SlotOpen .fourK ⟨true, 4⟩) s ∧
    ∃ handle, s.NewStack (s.create .fourK ⟨true, 4⟩ 0x1000 0x140001000 0 0 0).2.1 handle
      0x140001000 0 (s.nextStack 0x1000).1 (s.nextStack 0x1000).2 := by
  have h : Reach .fourK ⟨true, 4⟩ (SlotOpen .fourK ⟨true, 4⟩) boot := .init init_boot
  refine ⟨boot, h, 0x80000001,
    (worker_stacks_apart h).2 0x1000 0x140001000 0 0 0 _ ?_ ?_ (by decide)⟩
  · intro _
    exact ⟨by decide, fun _ _ _ _ => rfl, nofun⟩
  · decide +kernel

/-- After a thread with a stack longer than a slot, `VirtualAlloc` rejects the next slot. -/
theorem reach_long_stack : ∃ s : StackRun, Reach .fourK ⟨true, 4⟩ (fun _ _ => True) s ∧
    (s.create .fourK ⟨true, 4⟩ 0x1000 0x140001000 0 0 0).1 = .ok 0x80000002 ∧
    (s.mem.pages.table (0x22400000 / 0x1000)).isSome = true ∧ s.mt.sync.nextStackSlot = 2 ∧
    s.stackRanges = [(0x22200000, 0x201000)] := by
  have hr : (boot.create .fourK ⟨true, 4⟩ 0x201000 0x140001000 0 0 0).1 = .ok 0x80000001 := by
    decide +kernel
  exact ⟨_, reach_create (.init init_boot) trivial hr (by decide), by decide +kernel,
    by decide +kernel, by decide +kernel, by decide +kernel⟩

/-- The second of two threads gets a stack inside that of the first one. -/
theorem not_worker_stacks_apart : ∃ s : StackRun,
    Reach .fourK ⟨true, 4⟩ (fun _ _ => True) s ∧
    (s.create .fourK ⟨true, 4⟩ 0x1000 0x140001000 0 0 0).1 = .ok 0x80000002 ∧
    ¬ s.mem.FreeRange (s.nextStack 0x1000).1 (s.nextStack 0x1000).2 ∧
    ∃ p ∈ s.stackRanges, ¬ StacksApart p (s.nextStack 0x1000) := by
  obtain ⟨s, h, hok, hused, hslot, hranges⟩ := reach_long_stack
  have hnext : s.nextStack 0x1000 = (0x22400000, 0x1000) := by
    rw [nextStack, hslot]
    decide
  refine ⟨s, h, hok, ?_⟩
  rw [hnext, hranges]
  refine ⟨fun hfree => ?_, _, List.mem_singleton_self _, by decide⟩
  rw [hfree 0x22400000 (by decide) (by decide)] at hused
  cases hused

end StackRun

end Wie
