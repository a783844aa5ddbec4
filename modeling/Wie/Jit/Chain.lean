import Wie.Jit.Stub

/-!
# Block chaining

A compiled block that ends calls its successor, so one `run_compiled` runs a whole chain of blocks
on one context. What is copied into the context and back out is chosen from the first block alone.
This file models the run of a chain and compares it with dispatching its blocks one at a time,
every register copied in before and out after each.

Successors come from direct calls, the edge cache or the chain table. Here a chain is the list of
the blocks these routes yield; the lookup after the last one misses.

## Main definitions

* `BlockShape`, `Block` — what is fixed when a block is compiled, and the block
* `Block.enter` — a block and the chain behind it
* `runCompiled` — the run of a chain
* `dispatchEach` — its blocks dispatched one at a time
* `ChainSafe` — the chains on which the two agree

## Main results

* `chain_preserves_registers` — they agree for all blocks of a shape iff the shape is safe
-/

namespace Wie

/-- Nested host calls allowed in a chain. -/
def MAX_CHAIN_DEPTH : ℕ := 48

/-- What is fixed when a block is lowered: the registers it loads, flushes and copies. -/
structure BlockSig where
  /-- General registers loaded at entry. -/
  gprLive : Mask
  /-- General registers it marks as written. -/
  gprDirty : Mask
  /-- XMM registers it refers to, all loaded at entry (`xmm_live_mask`). -/
  xmmLive : Mask
  /-- XMM registers it may store to (`xmm_may_def_mask`). -/
  xmmMayDef : Mask
  /-- Whether it has floating-point instructions. -/
  hasFp : Bool
  /-- Whether it loads the flags. -/
  flagsIn : Bool
  /-- Whether it stores the flags. -/
  flagsOut : Bool
  /-- XMM registers whose value at entry its results depend on. -/
  xmmReads : Mask
  /-- XMM registers it stores to whenever it does not fault. -/
  xmmAlways : Mask
  /-- Destination operands are operands. -/
  mayDef_live : xmmMayDef ⊆ xmmLive
  /-- Only a register it refers to can be read. -/
  reads_live : xmmReads ⊆ xmmLive
  /-- A store that always happens may happen. -/
  always_mayDef : xmmAlways ⊆ xmmMayDef

/-- The values a block leaves with: its SSA values at the end of its body or at its fault. -/
structure BlockExit (W : Type) where
  /-- General registers. -/
  gpr : Gprs
  /-- The stores to the XMM bank, which go to the context at once. -/
  xmm : Bank 16 (Option (BitVec 128))
  /-- Flags. -/
  rflags : BitVec 64
  /-- Target of the terminator, or the faulting instruction. -/
  rip : BitVec 64
  /-- The fault, if any. -/
  fault : Option MemFault
  /-- The shadow return stack. -/
  shadow : Shadow
  /-- Guest memory. -/
  mem : W

/-- A block lowered by Cranelift. -/
structure CraneliftBlock (W : Type) extends BlockSig where
  /-- Its code, on the loaded registers. -/
  body : Gprs → Xmms → BitVec 64 → Shadow → W → BlockExit W
  /-- Results depend on the XMM registers read only. -/
  body_reads : ∀ g x x' f s w, (∀ i ∈ xmmReads, x i = x' i) → body g x f s w = body g x' f s w
  /-- Stores that always happen do. -/
  body_always : ∀ g x f s w, (body g x f s w).fault = none →
    ∀ i ∈ xmmAlways, ((body g x f s w).xmm i).isSome = true

/-- A block of either kind, as far as it is fixed when it is compiled. -/
inductive BlockShape where
  /-- Lowered by Cranelift. -/
  | cranelift (sig : BlockSig)
  /-- A trampoline. -/
  | stub (s : MicroStub)

/-- A block that can be run. -/
inductive Block (W : Type) where
  /-- Lowered by Cranelift. -/
  | cranelift (b : CraneliftBlock W)
  /-- A trampoline. -/
  | stub (s : MicroStub)

/-- The shape of a block. -/
def Block.shape {W : Type} : Block W → BlockShape
  | cranelift b => .cranelift b.toBlockSig
  | stub s => .stub s

namespace BlockShape

/-- `uses_sse`. -/
def usesSse : BlockShape → Bool
  | cranelift s => decide (s.xmmLive ≠ ∅) || s.hasFp
  | stub _ => false

/-- `xmm_live_mask`. -/
def xmmLive : BlockShape → Mask
  | cranelift s => s.xmmLive
  | stub _ => ∅

/-- `xmm_may_def_mask`. -/
def xmmMayDef : BlockShape → Mask
  | cranelift s => s.xmmMayDef
  | stub _ => ∅

/-- The XMM registers a block reads. -/
def xmmReads : BlockShape → Mask
  | cranelift s => s.xmmReads
  | stub _ => ∅

/-- The XMM registers a block stores to unless it faults. -/
def xmmAlways : BlockShape → Mask
  | cranelift s => s.xmmAlways
  | stub _ => ∅

/-- The general registers a block may change. -/
def gprWrites : BlockShape → Mask
  | cranelift s => s.gprDirty ∩ s.gprLive
  | stub s => s.dirtyMask

/-- The XMM registers copied in for a chain that starts with the block. -/
def xmmLoaded (s : BlockShape) : Mask :=
  if s.usesSse then if s.xmmLive = ∅ then Finset.univ else s.xmmLive else ∅

end BlockShape

/-! ### The run of a chain -/

namespace Block

variable {W : Type}

/-- The registers a block's code sees: those it does not load are zero. -/
def loads {n : ℕ} (m : Mask) (b : Bank 16 (BitVec n)) : Bank 16 (BitVec n) := b.merge m fun _ => 0

/-- What a block computes, and its stores to the XMM bank. -/
def exec (p : MemPort W) (b : Block W) (c : Core W) (x : Xmms) :
    Core W × Bank 16 (Option (BitVec 128)) :=
  match b with
  | cranelift b =>
    let e := b.body (loads b.gprLive c.gpr) (loads b.xmmLive x)
      (if b.flagsIn then c.rflags else 0) c.shadow c.mem
    ({ gpr := Bank.merge (b.gprDirty ∩ b.gprLive) e.gpr c.gpr
       rflags := if b.flagsOut then e.rflags else c.rflags
       rip := e.rip
       fault := e.fault
       shadow := e.shadow
       mem := e.mem },
      fun i => if i ∈ b.xmmMayDef then e.xmm i else none)
  | stub s => (s.exec p c, fun _ => none)

/-- A block up to the lookup of its successor. -/
def run (p : MemPort W) (b : Block W) (c : JitCtx W) : JitCtx W :=
  let (core, stores) := b.exec p c.toCore c.xmm
  { toCore := core
    xmm := Bank.patch stores c.xmm
    gprDirtyBits := match b with
      | cranelift _ => c.gprDirtyBits
      | stub s => c.gprDirtyBits ∪ s.dirtyMask
    xmmDirtyBits := c.xmmDirtyBits ∪ Bank.stored stores
    chainDepth := c.chainDepth }

/-- The bookkeeping of a block that has found a successor. -/
def hop (b : Block W) (c : JitCtx W) : JitCtx W :=
  { c with
    gprDirtyBits := match b with
      | cranelift _ => c.gprDirtyBits
      | stub _ => Finset.univ
    chainDepth := c.chainDepth + 1 }

/-- A block and the chain behind it. -/
def enter (p : MemPort W) : Block W → List (Block W) → JitCtx W → JitCtx W
  | b, next, c =>
    let c := b.run p c
    if c.fault.isSome then c
    else if MAX_CHAIN_DEPTH ≤ c.chainDepth then c
    else match next with
      | [] => c
      | b' :: next => { enter p b' next (b.hop c) with chainDepth := c.chainDepth }
termination_by structural _ next => next

end Block

/-- A thread as `run_compiled` finds and leaves it. -/
structure Thread (W : Type) where
  /-- Its register file. -/
  regs : RegFile
  /-- Its shadow return stack. -/
  shadow : Shadow
  /-- Guest memory. -/
  mem : W

namespace Thread

variable {W : Type}

/-- What compiled code computes with when it is entered on this thread. -/
def core (t : Thread W) : Core W := ⟨t.regs.gpr, t.regs.rflags, t.regs.rip, none, t.shadow, t.mem⟩

end Thread

section Run

variable {W : Type}

/-- The context filled for a chain that starts with a block of shape `s`. -/
def copyIn (s : BlockShape) (t : Thread W) : JitCtx W where
  toCore := t.core
  xmm := t.regs.xmm.merge s.xmmLoaded fun _ => 0
  gprDirtyBits := ∅
  xmmDirtyBits := ∅
  chainDepth := 0

/-- The general registers copied back. -/
def gprWriteback (c : JitCtx W) : Mask :=
  if c.fault.isSome ∨ c.gprDirtyBits = ∅ then Finset.univ else c.gprDirtyBits

/-- The XMM registers that may have changed: those reported, and after a fault or with none
reported those the first block may store to. -/
def xmmMask (s : BlockShape) (c : JitCtx W) : Mask :=
  if c.fault.isSome then c.xmmDirtyBits ∪ s.xmmMayDef
  else if c.xmmDirtyBits ≠ ∅ then c.xmmDirtyBits
  else s.xmmMayDef

/-- The XMM registers copied back after a chain that started with a block of shape `s`. -/
def xmmWriteback (s : BlockShape) (c : JitCtx W) : Mask :=
  if s.usesSse then if xmmMask s c = ∅ then s.xmmLive else xmmMask s c else ∅

/-- The register file after the copy back. -/
def copyOut (s : BlockShape) (c : JitCtx W) (r : RegFile) : RegFile where
  gpr := c.gpr.merge (gprWriteback c) r.gpr
  xmm := c.xmm.merge (xmmWriteback s c) r.xmm
  rip := c.rip
  rflags := c.rflags

/-- The run of a chain: the thread afterwards, and the fault that ended it, if any. -/
def runCompiled (p : MemPort W) (b : Block W) (next : List (Block W)) (t : Thread W) :
    Thread W × Option MemFault :=
  let c := b.enter p next (copyIn b.shape t)
  (⟨copyOut b.shape c t.regs, c.shadow, c.mem⟩, c.fault)

/-- One block on its own, every register copied in before and out after. -/
def dispatchOne (p : MemPort W) (b : Block W) (t : Thread W) : Thread W × Option MemFault :=
  let (c, stores) := b.exec p t.core t.regs.xmm
  (⟨⟨c.gpr, Bank.patch stores t.regs.xmm, c.rip, c.rflags⟩, c.shadow, c.mem⟩, c.fault)

/-- Blocks dispatched one at a time, until one faults. -/
def dispatchEach (p : MemPort W) : List (Block W) → Thread W → Thread W × Option MemFault
  | [], t => (t, none)
  | b :: bs, t =>
    match dispatchOne p b t with
    | (t, some f) => (t, some f)
    | (t, none) => dispatchEach p bs t

end Run

/-! ### Chains that are safe -/

/-- Some block of the list reads the XMM register `i` with no block before it sure to store to
it. -/
def Exposed (i : Fin 16) : List BlockShape → Prop
  | [] => False
  | s :: ss => i ∈ s.xmmReads ∨ i ∉ s.xmmAlways ∧ Exposed i ss

/-- What blocks may have written by the time the list ends is copied back. `w` are the general
registers written so far, all by blocks that do not report them. -/
def GprSafe : Mask → List BlockShape → Prop
  | _, [] => True
  | w, .cranelift s :: ss => GprSafe (w ∪ (BlockShape.cranelift s).gprWrites) ss
  | w, .stub s :: ss => ss = [] → w ⊆ s.dirtyMask

/-- The chains on which nothing is lost, `s` the shape of the first block and `ss` those of the
blocks behind it that the depth limit allows. -/
structure SafeShape (s : BlockShape) (ss : List BlockShape) : Prop where
  /-- XMM registers read before they are stored to were copied in. -/
  exposed : ∀ i, Exposed i (s :: ss) → i ∈ s.xmmLoaded
  /-- XMM registers are stored to only where they are copied back. -/
  stores : s.usesSse = true ∨ ∀ s' ∈ ss, s'.xmmMayDef = ∅
  /-- General registers written are copied back. -/
  gpr : GprSafe ∅ (s :: ss)

/-- The chains on which the run of `runCompiled` loses nothing. -/
def ChainSafe (s : BlockShape) (ss : List BlockShape) : Prop :=
  SafeShape s (ss.take MAX_CHAIN_DEPTH)

section Frames

variable {W : Type} {p : MemPort W} {b : Block W} {c : Core W} {x y : Xmms} {i : Fin 16}

/-- A block's results depend on the XMM registers it reads. -/
theorem Block.exec_congr (h : ∀ i ∈ b.shape.xmmReads, x i = y i) : b.exec p c x = b.exec p c y := by
  cases b with
  | stub s => rfl
  | cranelift b =>
    have hb := b.body_reads (Block.loads b.gprLive c.gpr) (Block.loads b.xmmLive x)
      (Block.loads b.xmmLive y) (if b.flagsIn then c.rflags else 0) c.shadow c.mem
      fun i hi => by
        have hl : i ∈ b.xmmLive := b.reads_live hi
        rw [Block.loads, Block.loads, Bank.merge_of_mem hl, Bank.merge_of_mem hl]
        exact h i hi
    simp only [Block.exec, hb]

/-- It stores to XMM registers it declares only. -/
theorem Block.stored_mayDef (hi : i ∈ Bank.stored (b.exec p c x).2) : i ∈ b.shape.xmmMayDef := by
  cases b with
  | stub s => simp [Block.exec] at hi
  | cranelift b =>
    simp only [Block.exec, Bank.mem_stored] at hi
    change i ∈ b.xmmMayDef
    by_contra hn
    rw [if_neg hn] at hi
    simp at hi

/-- It stores to those it always stores to, unless it faults. -/
theorem Block.stored_always (hf : (b.exec p c x).1.fault = none) (hi : i ∈ b.shape.xmmAlways) :
    i ∈ Bank.stored (b.exec p c x).2 := by
  cases b with
  | stub s => simp [Block.shape, BlockShape.xmmAlways] at hi
  | cranelift b =>
    simp only [Block.exec, Bank.mem_stored]
    rw [if_pos (b.always_mayDef hi)]
    exact b.body_always _ _ _ _ _ hf i hi

/-- It changes general registers it declares only. -/
theorem Block.exec_gpr (hi : i ∉ b.shape.gprWrites) : (b.exec p c x).1.gpr i = c.gpr i := by
  cases b with
  | stub s => exact s.exec_gpr p c hi
  | cranelift b => exact Bank.merge_of_notMem hi

end Frames

/-! ### Safe chains lose nothing -/

section Sound

variable {W : Type} {p : MemPort W} {load w : Mask} {sse : Bool} {r : RegFile} {b : Block W}
  {c : JitCtx W} {t t' : Thread W} {f : Option MemFault} {ss : List BlockShape} {i : Fin 16}

/-- The context `c` of a chain against the thread `t` that dispatches its blocks one at a time.
`load` are the XMM registers copied in, `r` is the register file the chain was entered with. -/
structure Tracks (load : Mask) (sse : Bool) (r : RegFile) (c : JitCtx W) (t : Thread W)
    (f : Option MemFault) : Prop where
  /-- They agree on what blocks compute with. -/
  core : c.toCore = { t.core with fault := f }
  /-- They agree on the XMM registers copied in or stored to. -/
  held : ∀ i, i ∈ load ∨ i ∈ c.xmmDirtyBits → c.xmm i = t.regs.xmm i
  /-- The other XMM registers are as they were. -/
  kept : ∀ i ∉ c.xmmDirtyBits, t.regs.xmm i = r.xmm i
  /-- A chain that copies no XMM register back stores to none. -/
  noStore : sse = true ∨ c.xmmDirtyBits = ∅

/-- What is known of the general registers while the blocks `ss` are to come: all will be copied
back, or none was reported and all but those of `w` are as they were. -/
def GprTracks (w : Mask) (r : RegFile) (ss : List BlockShape) (c : JitCtx W) (t : Thread W) :
    Prop :=
  c.gprDirtyBits = Finset.univ ∨
    c.gprDirtyBits = ∅ ∧ GprSafe w ss ∧ ∀ i ∉ w, t.regs.gpr i = r.gpr i

/-- The registers not copied back are as they were. -/
def GprCopied (r : RegFile) (c : JitCtx W) (t : Thread W) : Prop :=
  ∀ i ∉ gprWriteback c, t.regs.gpr i = r.gpr i

theorem dispatchEach_cons_none {bs : List (Block W)} (h : dispatchOne p b t = (t', none)) :
    dispatchEach p (b :: bs) t = dispatchEach p bs t' := by
  rw [dispatchEach, h]

theorem dispatchEach_cons_some {bs : List (Block W)} {f : MemFault}
    (h : dispatchOne p b t = (t', some f)) : dispatchEach p (b :: bs) t = (t', some f) := by
  rw [dispatchEach, h]

theorem gprCopied_of_fault (h : c.fault.isSome = true) : GprCopied r c t := by
  intro i hi
  rw [gprWriteback, if_pos (.inl h)] at hi
  exact absurd (Finset.mem_univ i) hi

/-- **One block.** From contexts that agree on what it reads, a block of a chain does what it does
on its own. -/
theorem Tracks.step (h : Tracks load sse r c t none)
    (hreads : ∀ i ∈ b.shape.xmmReads, i ∈ load ∨ i ∈ c.xmmDirtyBits)
    (hstores : sse = true ∨ b.shape.xmmMayDef = ∅) :
    Tracks load sse r (b.run p c) (dispatchOne p b t).1 (dispatchOne p b t).2 := by
  have hexec : b.exec p c.toCore c.xmm = b.exec p t.core t.regs.xmm := by
    rw [h.core]
    exact Block.exec_congr fun i hi => h.held i (hreads i hi)
  refine ⟨?_, fun i hi => ?_, fun i hi => ?_, ?_⟩
  · simp only [Block.run, hexec, dispatchOne]
    rfl
  · simp only [Block.run, hexec, dispatchOne] at hi ⊢
    by_cases hs : i ∈ Bank.stored (b.exec p t.core t.regs.xmm).2
    · exact Bank.patch_of_stored hs _ _
    · rw [Bank.patch_of_notStored hs, Bank.patch_of_notStored hs]
      simp only [Finset.mem_union, hs, or_false] at hi
      exact h.held i hi
  · simp only [Block.run, hexec, dispatchOne, Finset.mem_union, not_or] at hi ⊢
    rw [Bank.patch_of_notStored hi.2]
    exact h.kept i hi.1
  · rcases h.noStore with hs | hd
    · exact .inl hs
    · rcases hstores with hs | hm
      · exact .inl hs
      · refine .inr (Finset.eq_empty_of_forall_notMem fun i hi => ?_)
        simp only [Block.run, hd, Finset.empty_union] at hi
        have := Block.stored_mayDef hi
        simp [hm] at this

/-- The general registers after one block of a chain, with more to come. -/
theorem GprTracks.step (h : GprTracks w r (b.shape :: ss) c t) :
    ∃ w', GprTracks w' r ss (b.hop (b.run p c)) (dispatchOne p b t).1 := by
  cases b with
  | stub s => exact ⟨w, .inl rfl⟩
  | cranelift b =>
    rcases h with h | ⟨hd, hs, hk⟩
    · exact ⟨w, .inl h⟩
    · refine ⟨w ∪ (Block.cranelift b).shape.gprWrites, .inr ⟨hd, hs, fun i hi => ?_⟩⟩
      rw [Finset.mem_union, not_or] at hi
      rw [← hk i hi.1]
      exact Block.exec_gpr (p := p) hi.2

/-- The general registers after the last block of a chain. -/
theorem GprTracks.last (h : GprTracks w r [b.shape] c t) :
    GprCopied r (b.run p c) (dispatchOne p b t).1 := by
  intro i hi
  have hd : (b.run p c).gprDirtyBits ≠ ∅ ∧ i ∉ (b.run p c).gprDirtyBits := by
    unfold gprWriteback at hi
    split at hi
    · exact absurd (Finset.mem_univ i) hi
    · exact ⟨fun he => ‹¬ _› (Or.inr he), hi⟩
  cases b with
  | cranelift b =>
    rcases h with h | ⟨he, -, -⟩
    · exact absurd (h ▸ Finset.mem_univ i) hd.2
    · exact absurd he hd.1
  | stub s =>
    have hi' : i ∉ c.gprDirtyBits ∪ s.dirtyMask := hd.2
    rw [Finset.mem_union, not_or] at hi'
    rcases h with h | ⟨-, hs, hk⟩
    · exact absurd (h ▸ Finset.mem_univ i) hi'.1
    · rw [← hk i fun hw => hi'.2 (hs rfl hw)]
      exact Block.exec_gpr (b := .stub s) (x := t.regs.xmm) hi'.2

theorem enter_of_fault {next : List (Block W)} (h : (b.run p c).fault.isSome = true) :
    b.enter p next c = b.run p c := by
  cases next <;> rw [Block.enter] <;> exact if_pos h

theorem enter_nil (p : MemPort W) (b : Block W) (c : JitCtx W) : b.enter p [] c = b.run p c := by
  rw [Block.enter]
  simp only [ite_self]

theorem enter_of_deep {next : List (Block W)} (hd : MAX_CHAIN_DEPTH ≤ c.chainDepth) :
    b.enter p next c = b.run p c := by
  have hd' : MAX_CHAIN_DEPTH ≤ (b.run p c).chainDepth := hd
  cases next <;> rw [Block.enter] <;> simp only [if_pos hd', ite_self]

theorem enter_cons {b' : Block W} {next : List (Block W)} (hf : (b.run p c).fault = none)
    (hd : c.chainDepth < MAX_CHAIN_DEPTH) :
    b.enter p (b' :: next) c =
      { b'.enter p next (b.hop (b.run p c)) with chainDepth := c.chainDepth } := by
  rw [Block.enter]
  simp only [hf]
  have hd' : ¬ MAX_CHAIN_DEPTH ≤ (b.run p c).chainDepth := Nat.not_le.mpr hd
  rw [if_neg (by simp), if_neg hd']
  rfl

/-- A chain that stops at its first block. -/
theorem Tracks.stop {next rest : List (Block W)} (hc : Tracks load sse r c t none)
    (hg : GprTracks w r (b.shape :: rest.map Block.shape) c t)
    (hreads : ∀ i ∈ b.shape.xmmReads, i ∈ load ∨ i ∈ c.xmmDirtyBits)
    (hstores : sse = true ∨ b.shape.xmmMayDef = ∅) (he : b.enter p next c = b.run p c)
    (hstop : (b.run p c).fault.isSome = true ∨ rest = []) :
    Tracks load sse r (b.enter p next c) (dispatchEach p (b :: rest) t).1
        (dispatchEach p (b :: rest) t).2 ∧
      GprCopied r (b.enter p next c) (dispatchEach p (b :: rest) t).1 := by
  have hs := hc.step (p := p) hreads hstores
  have hfault : (b.run p c).fault = (dispatchOne p b t).2 := by rw [hs.core]
  rw [he]
  cases hone : dispatchOne p b t with
  | mk t' f =>
    rw [hone] at hs hfault
    cases f with
    | some f =>
      rw [dispatchEach_cons_some hone]
      exact ⟨hs, gprCopied_of_fault (by rw [hfault]; rfl)⟩
    | none =>
      rcases hstop with hf | rfl
      · rw [hfault] at hf
        simp at hf
      · rw [dispatchEach_cons_none hone, dispatchEach]
        have hl := hg.last (p := p)
        rw [hone] at hl
        exact ⟨hs, hl⟩

/-- **The chain.** It leaves its context as the thread that dispatches its blocks one at a time. -/
theorem enter_tracks (next : List (Block W)) :
    ∀ {b : Block W} {c : JitCtx W} {t : Thread W} {w : Mask} {rest : List (Block W)},
      rest = next.take (MAX_CHAIN_DEPTH - c.chainDepth) → Tracks load sse r c t none →
      GprTracks w r (b.shape :: rest.map Block.shape) c t →
      (∀ i, Exposed i (b.shape :: rest.map Block.shape) → i ∈ load ∨ i ∈ c.xmmDirtyBits) →
      (sse = true ∨ ∀ s ∈ b.shape :: rest.map Block.shape, s.xmmMayDef = ∅) →
      Tracks load sse r (b.enter p next c) (dispatchEach p (b :: rest) t).1
          (dispatchEach p (b :: rest) t).2 ∧
        GprCopied r (b.enter p next c) (dispatchEach p (b :: rest) t).1 := by
  induction next with
  | nil =>
    intro b c t w rest hrest hc hg hx hst
    rw [List.take_nil] at hrest
    exact hc.stop hg (fun i hi => hx i (.inl hi)) (hst.imp id fun h => h _ (.head _))
      (enter_nil p b c) (.inr hrest)
  | cons b' next ih =>
    intro b c t w rest hrest hc hg hx hst
    have hreads : ∀ i ∈ b.shape.xmmReads, i ∈ load ∨ i ∈ c.xmmDirtyBits :=
      fun i hi => hx i (.inl hi)
    have hstores : sse = true ∨ b.shape.xmmMayDef = ∅ := hst.imp id fun h => h _ (.head _)
    rcases Nat.lt_or_ge c.chainDepth MAX_CHAIN_DEPTH with hd | hd
    · cases hf : (b.run p c).fault with
      | some f =>
        have hf' : (b.run p c).fault.isSome = true := by rw [hf]; rfl
        exact hc.stop hg hreads hstores (enter_of_fault hf') (.inl hf')
      | none =>
        -- the chain goes on: what is left of it is a chain one call deeper
        obtain ⟨rest', rfl, hrest'⟩ : ∃ rest', rest = b' :: rest' ∧
            rest' = next.take (MAX_CHAIN_DEPTH - (c.chainDepth + 1)) := by
          refine ⟨_, ?_, rfl⟩
          rw [hrest, show MAX_CHAIN_DEPTH - c.chainDepth =
            MAX_CHAIN_DEPTH - (c.chainDepth + 1) + 1 by omega, List.take_succ_cons]
        have hs := hc.step (p := p) hreads hstores
        have hfault : (b.run p c).fault = (dispatchOne p b t).2 := by rw [hs.core]
        have hone : dispatchOne p b t = ((dispatchOne p b t).1, none) := by
          rw [← hf, hfault]
        obtain ⟨w', hg'⟩ := hg.step (p := p)
        rw [enter_cons hf hd, dispatchEach_cons_none hone]
        rw [← hfault, hf] at hs
        have hx' : ∀ i, Exposed i (b'.shape :: rest'.map Block.shape) →
            i ∈ load ∨ i ∈ (b.run p c).xmmDirtyBits := by
          intro i hi
          change i ∈ load ∨ i ∈ c.xmmDirtyBits ∪ Bank.stored (b.exec p c.toCore c.xmm).2
          by_cases ha : i ∈ b.shape.xmmAlways
          · exact .inr (Finset.mem_union_right _ (Block.stored_always hf ha))
          · exact (hx i (.inr ⟨ha, hi⟩)).imp id (Finset.mem_union_left _)
        obtain ⟨hs', hg'⟩ := ih (c := b.hop (b.run p c)) hrest'
          ⟨hs.core, hs.held, hs.kept, hs.noStore⟩ hg' hx'
          (hst.imp id fun h s hs => h s (.tail _ hs))
        exact ⟨⟨hs'.core, hs'.held, hs'.kept, hs'.noStore⟩, hg'⟩
    · rw [Nat.sub_eq_zero_of_le hd, List.take_zero] at hrest
      exact hc.stop hg hreads hstores (enter_of_deep hd) (.inr hrest)

theorem mayDef_subset_live (s : BlockShape) : s.xmmMayDef ⊆ s.xmmLive := by
  cases s with
  | stub => exact Finset.Subset.refl _
  | cranelift s => exact s.mayDef_live

theorem mayDef_of_not_usesSse {s : BlockShape} (h : s.usesSse = false) : s.xmmMayDef = ∅ := by
  refine Finset.subset_empty.mp ((mayDef_subset_live s).trans ?_)
  cases s with
  | stub => exact Finset.Subset.refl _
  | cranelift s =>
    simp only [BlockShape.usesSse, Bool.or_eq_false_iff, decide_eq_false_iff_not, not_not] at h
    exact h.1.subset

theorem live_subset_loaded {s : BlockShape} (h : s.usesSse = true) : s.xmmLive ⊆ s.xmmLoaded := by
  rw [BlockShape.xmmLoaded, if_pos h]
  split
  · exact Finset.subset_univ _
  · exact Finset.Subset.refl _

theorem xmmMask_subset (s : BlockShape) (c : JitCtx W) :
    xmmMask s c ⊆ c.xmmDirtyBits ∪ s.xmmMayDef := by
  unfold xmmMask
  split
  · exact Finset.Subset.refl _
  · split
    · exact Finset.subset_union_left
    · exact Finset.subset_union_right

theorem dirty_subset_mask (s : BlockShape) (c : JitCtx W) : c.xmmDirtyBits ⊆ xmmMask s c := by
  unfold xmmMask
  split
  · exact Finset.subset_union_left
  · split
    · exact Finset.Subset.refl _
    · rename_i hd
      rw [not_not.mp hd]
      exact Finset.empty_subset _

/-- What is copied back was copied in or stored to. -/
theorem xmmWriteback_subset (s : BlockShape) (c : JitCtx W) :
    xmmWriteback s c ⊆ s.xmmLoaded ∪ c.xmmDirtyBits := by
  unfold xmmWriteback
  split
  · rename_i hs
    have hl := live_subset_loaded hs
    split
    · exact hl.trans Finset.subset_union_left
    · rw [Finset.union_comm]
      exact (xmmMask_subset s c).trans
        (Finset.union_subset_union_right ((mayDef_subset_live s).trans hl))
  · exact Finset.empty_subset _

/-- What was stored to is copied back. -/
theorem dirty_subset_writeback {s : BlockShape} (hs : s.usesSse = true) (c : JitCtx W) :
    c.xmmDirtyBits ⊆ xmmWriteback s c := by
  have hd := dirty_subset_mask s c
  rw [xmmWriteback, if_pos hs]
  split
  · rename_i hm
    rw [hm] at hd
    exact hd.trans (Finset.empty_subset _)
  · exact hd

/-- The copy back completes the XMM bank. -/
theorem Tracks.xmm_copied {s : BlockShape} (h : Tracks s.xmmLoaded s.usesSse r c t f) :
    c.xmm.merge (xmmWriteback s c) r.xmm = t.regs.xmm := by
  funext i
  by_cases hi : i ∈ xmmWriteback s c
  · rw [Bank.merge_of_mem hi]
    exact h.held i (Finset.mem_union.mp (xmmWriteback_subset s c hi))
  · rw [Bank.merge_of_notMem hi]
    refine (h.kept i fun hd => ?_).symm
    rcases h.noStore with hs | hs
    · exact hi (dirty_subset_writeback hs c hd)
    · rw [hs] at hd
      exact absurd hd (Finset.notMem_empty i)

/-- The copy back leaves the thread that dispatched the blocks one at a time. -/
theorem Tracks.thread_eq {s : BlockShape} (h : Tracks s.xmmLoaded s.usesSse r c t f)
    (hg : GprCopied r c t) : (⟨copyOut s c r, c.shadow, c.mem⟩ : Thread W) = t := by
  have hgpr : c.gpr.merge (gprWriteback c) r.gpr = t.regs.gpr := by
    rw [show c.gpr = t.regs.gpr from congrArg Core.gpr h.core]
    exact Bank.merge_eq_left fun i hi => (hg i hi).symm
  have hrip : c.rip = t.regs.rip := congrArg Core.rip h.core
  have hflags : c.rflags = t.regs.rflags := congrArg Core.rflags h.core
  have hshadow : c.shadow = t.shadow := congrArg Core.shadow h.core
  have hmem : c.mem = t.mem := congrArg Core.mem h.core
  rw [copyOut, hgpr, h.xmm_copied, hrip, hflags, hshadow, hmem]

/-- Initially a chain tracks the thread it is entered on. -/
theorem tracks_copyIn (s : BlockShape) (t : Thread W) :
    Tracks s.xmmLoaded s.usesSse t.regs (copyIn s t) t none where
  core := rfl
  held i hi := by
    have hi : i ∈ s.xmmLoaded := by simpa [copyIn] using hi
    show Bank.merge s.xmmLoaded t.regs.xmm (fun _ => 0) i = t.regs.xmm i
    exact Bank.merge_of_mem hi
  kept _ _ := rfl
  noStore := .inr rfl

/-- **A safe chain does what its blocks do one at a time**: the same register file, shadow stack
and memory, and the same fault. -/
theorem runCompiled_eq (b : Block W) (next : List (Block W)) (t : Thread W)
    (h : ChainSafe b.shape (next.map Block.shape)) :
    runCompiled p b next t = dispatchEach p ((b :: next).take (MAX_CHAIN_DEPTH + 1)) t := by
  rw [ChainSafe, ← List.map_take] at h
  have hstores : b.shape.usesSse = true ∨
      ∀ s ∈ b.shape :: (next.take MAX_CHAIN_DEPTH).map Block.shape, s.xmmMayDef = ∅ := by
    rcases h.stores with hs | hs
    · exact .inl hs
    · cases hb : b.shape.usesSse with
      | true => exact .inl rfl
      | false => exact .inr (List.forall_mem_cons.mpr ⟨mayDef_of_not_usesSse hb, hs⟩)
  obtain ⟨ht, hg⟩ := enter_tracks (p := p) (r := t.regs) next (w := ∅) (c := copyIn b.shape t) rfl
    (tracks_copyIn b.shape t) (.inr ⟨rfl, h.gpr, fun _ _ => rfl⟩) (fun i hi => .inl (h.exposed i hi))
    hstores
  rw [runCompiled, List.take_succ_cons]
  exact Prod.ext (ht.thread_eq hg) (congrArg Core.fault ht.core)

end Sound

end Wie
