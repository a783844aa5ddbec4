import Wie.Jit.Chain

/-!
# Chains that lose registers

Every shape that is not safe has blocks on which the run of the chain and the dispatch of its
blocks one at a time part. The blocks are probes: each writes the registers its shape lets it
write, and faults when an XMM register it watches is not zero.

## Main definitions

* `Probe` — what the probes of a chain write and watch

## Main results

* `chain_preserves_registers` — for all blocks of a shape, no register is lost iff the shape is
  safe
* `chain_loses_registers` — two chains that lose a register
-/

namespace Wie

/-- A memory that grants all accesses and holds zeros. -/
def zeros : MemPort Unit := ⟨fun _ _ _ => ((), some 0), fun _ _ _ _ => ((), true)⟩

/-- What the probes of a chain write and watch. -/
structure Probe where
  /-- XMM registers watched. -/
  trap : Mask
  /-- Value written to general registers. -/
  gprVal : BitVec 64
  /-- Value written to XMM registers. -/
  xmmVal : BitVec 128
  /-- Whether all XMM registers a block may store to are stored to, or only those it has to. -/
  all : Bool

namespace Probe

variable {q : Probe} {s : BlockShape} {ss : List BlockShape} {c : Core Unit} {x : Xmms} {i : Fin 16}

/-- The XMM registers a probe of shape `s` stores to. -/
def writes (q : Probe) (s : BlockShape) : Mask := if q.all then s.xmmMayDef else s.xmmAlways

theorem always_subset_writes (q : Probe) (sig : BlockSig) :
    sig.xmmAlways ⊆ q.writes (.cranelift sig) := by
  unfold writes
  split
  · exact sig.always_mayDef
  · exact Finset.Subset.refl _

theorem writes_subset_mayDef (q : Probe) (sig : BlockSig) :
    q.writes (.cranelift sig) ⊆ sig.xmmMayDef := by
  unfold writes
  split
  · exact Finset.Subset.refl _
  · exact sig.always_mayDef

/-- Whether a watched register that the block reads is not zero. -/
def Trips (q : Probe) (s : BlockShape) (x : Xmms) : Prop := ∃ i ∈ q.trap ∩ s.xmmReads, x i ≠ 0

instance (q : Probe) (s : BlockShape) (x : Xmms) : Decidable (q.Trips s x) := by
  unfold Trips
  infer_instance

/-- The code of a probe. -/
def body (q : Probe) (sig : BlockSig) (g : Gprs) (x : Xmms) (f : BitVec 64) (sh : Shadow)
    (w : Unit) : BlockExit Unit :=
  if q.Trips (.cranelift sig) x then ⟨g, fun _ => none, f, 1, some ⟨0, 1, false⟩, sh, w⟩
  else ⟨fun _ => q.gprVal, fun i => if i ∈ q.writes (.cranelift sig) then some q.xmmVal else none,
    f, 0, none, sh, w⟩

theorem body_of_trips (sig : BlockSig) (h : q.Trips (.cranelift sig) x) (g : Gprs) (f : BitVec 64)
    (sh : Shadow) (w : Unit) :
    q.body sig g x f sh w = ⟨g, fun _ => none, f, 1, some ⟨0, 1, false⟩, sh, w⟩ := if_pos h

theorem body_of_quiet (sig : BlockSig) (h : ¬ q.Trips (.cranelift sig) x) (g : Gprs)
    (f : BitVec 64) (sh : Shadow) (w : Unit) :
    q.body sig g x f sh w = ⟨fun _ => q.gprVal,
      fun i => if i ∈ q.writes (.cranelift sig) then some q.xmmVal else none, f, 0, none, sh, w⟩ :=
  if_neg h

theorem trips_congr {y : Xmms} (h : ∀ i ∈ s.xmmReads, x i = y i) : q.Trips s x ↔ q.Trips s y := by
  unfold Trips
  refine exists_congr fun i => and_congr_right fun hi => ?_
  rw [h i (Finset.mem_of_mem_inter_right hi)]

/-- The probe of a shape. -/
def block (q : Probe) : BlockShape → Block Unit
  | .cranelift sig => .cranelift
    { sig with
      body := q.body sig
      body_reads := fun g x x' f sh w h => by
        unfold body
        simp only [trips_congr (q := q) (s := .cranelift sig) h]
      body_always := fun g x f sh w hf i hi => by
        by_cases ht : q.Trips (.cranelift sig) x
        · rw [body_of_trips sig ht] at hf
          simp at hf
        · rw [body_of_quiet sig ht]
          simp [q.always_subset_writes sig hi] }
  | .stub st => .stub st

@[simp]
theorem block_shape (q : Probe) (s : BlockShape) : (q.block s).shape = s := by cases s <;> rfl

/-! ### One probe -/

theorem load_zeros (hf : c.fault = none) (addr insnIp : BitVec 64) (size : ℕ) (h0 : size ≠ 0)
    (h8 : size ≤ 8) : c.load zeros addr size insnIp = (0, c) := by
  unfold Core.load
  rw [if_neg (by simp [hf]), if_neg (by omega)]
  rfl

/-- A return through a memory of zeros ends at zero. -/
theorem guestRet_zeros (hf : c.fault = none) :
    (c.guestRet zeros).fault = none ∧ (c.guestRet zeros).rip = 0 := by
  unfold Core.guestRet
  simp only [load_zeros hf _ _ 8 (by decide) (by decide), hf]
  exact ⟨hf, rfl⟩

/-- So does every trampoline. -/
theorem stub_zeros (st : MicroStub) (hf : c.fault = none) :
    (st.exec zeros c).fault = none ∧ (st.exec zeros c).rip = 0 := by
  have hl := load_zeros hf TEB_LAST_ERROR_VA c.rip 4 (by decide)
    (by decide)
  have hl' := load_zeros hf (c.rip + 1) c.rip 4 (by decide)
    (by decide)
  have hs : c.store zeros TEB_LAST_ERROR_VA 4 (((c.gpr 1).setWidth 32).setWidth 64) c.rip = c := by
    unfold Core.store
    rw [if_neg (by simp [hf]), if_neg (by omega)]
    rfl
  cases st with
  | ret => exact guestRet_zeros hf
  | returnZero => exact guestRet_zeros (c := c.setGpr 0 0) hf
  | identityRcx => exact guestRet_zeros (c := c.setGpr 0 (c.gpr 1)) hf
  | returnImm32 imm =>
    simp only [MicroStub.exec, hl', hf]
    split
    · exact guestRet_zeros hf
    · exact guestRet_zeros hf
  | getLastError =>
    simp only [MicroStub.exec, hl, hf]
    exact guestRet_zeros hf
  | setLastError =>
    simp only [MicroStub.exec, hs, hf]
    exact guestRet_zeros hf

/-- What a probe that is not tripped does. -/
structure Quiet (q : Probe) (s : BlockShape) (e : Core Unit × Bank 16 (Option (BitVec 128))) :
    Prop where
  /-- It does not fault. -/
  fault : e.1.fault = none
  /-- It ends at zero. -/
  rip : e.1.rip = 0
  /-- It stores to the XMM registers it writes. -/
  stores : ∀ i, e.2 i = if i ∈ q.writes s then some q.xmmVal else none

theorem trips_loads {sig : BlockSig} :
    q.Trips (.cranelift sig) (Block.loads sig.xmmLive x) ↔ q.Trips (.cranelift sig) x :=
  trips_congr fun _ hi => Bank.merge_of_mem (sig.reads_live hi)

theorem exec_quiet (hf : c.fault = none) (ht : ¬ q.Trips s x) :
    q.Quiet s ((q.block s).exec zeros c x) := by
  cases s with
  | stub st =>
    obtain ⟨h1, h2⟩ := stub_zeros st hf
    refine ⟨h1, h2, fun i => ?_⟩
    simp [block, Block.exec, writes, BlockShape.xmmMayDef, BlockShape.xmmAlways]
  | cranelift sig =>
    have hb := body_of_quiet (q := q) sig (x := Block.loads sig.xmmLive x)
      (fun h => ht (trips_loads.mp h))
    simp only [block, Block.exec, hb]
    refine ⟨rfl, rfl, fun i => ?_⟩
    by_cases hi : i ∈ q.writes (.cranelift sig)
    · simp only [if_pos hi, if_pos (q.writes_subset_mayDef sig hi)]
    · simp only [if_neg hi, ite_self]

/-- A probe that is tripped faults at one. -/
theorem exec_tripped (ht : q.Trips s x) :
    ((q.block s).exec zeros c x).1.fault.isSome = true ∧
      ((q.block s).exec zeros c x).1.rip = 1 := by
  cases s with
  | stub st =>
    obtain ⟨i, hi, -⟩ := ht
    simp [BlockShape.xmmReads] at hi
  | cranelift sig =>
    have hb := body_of_trips (q := q) sig (x := Block.loads sig.xmmLive x)
      (trips_loads.mpr ht)
    simp only [block, Block.exec, hb]
    exact ⟨rfl, trivial⟩

/-! ### Chains of probes -/

variable {t : Thread Unit} {ctx : JitCtx Unit}

theorem Quiet.dispatchEach {bs : List (Block Unit)}
    (hq : q.Quiet s ((q.block s).exec zeros t.core t.regs.xmm)) :
    dispatchEach zeros (q.block s :: bs) t =
      dispatchEach zeros bs (dispatchOne zeros (q.block s) t).1 :=
  dispatchEach_cons_none (Prod.ext rfl hq.fault)

/-- The blocks of a chain dispatched one at a time, one of them tripped: the run ends at one. -/
theorem dispatchEach_tripped (hi : i ∈ q.trap) (hall : q.all = false) :
    ∀ {ss : List BlockShape} {t : Thread Unit}, Exposed i ss → t.regs.xmm i ≠ 0 →
      (dispatchEach zeros (ss.map q.block) t).1.regs.rip = 1 := by
  intro ss
  induction ss with
  | nil => exact fun h => h.elim
  | cons s ss ih =>
    intro t hx h1
    rw [List.map_cons]
    by_cases ht : q.Trips s t.regs.xmm
    · obtain ⟨hf, hrip⟩ := exec_tripped (q := q) (c := t.core) ht
      obtain ⟨f, hf⟩ := Option.isSome_iff_exists.mp hf
      have hd : dispatchOne zeros (q.block s) t = ((dispatchOne zeros (q.block s) t).1, some f) :=
        Prod.ext rfl hf
      rw [dispatchEach_cons_some hd]
      exact hrip
    · have hq := exec_quiet (q := q) (c := t.core) rfl ht
      rw [hq.dispatchEach]
      rcases hx with hr | ⟨ha, hx⟩
      · exact absurd ⟨i, Finset.mem_inter.mpr ⟨hi, hr⟩, h1⟩ ht
      · refine ih hx ?_
        -- the register keeps its value, since only stores that always happen do
        change Bank.patch ((q.block s).exec zeros t.core t.regs.xmm).2 t.regs.xmm i ≠ 0
        have hs : ((q.block s).exec zeros t.core t.regs.xmm).2 i = none := by
          rw [hq.stores, if_neg]
          simpa [writes, hall] using ha
        rw [Bank.patch, hs]
        exact h1

/-- A chain in which the watched registers are zero ends at zero. -/
theorem enter_quiet (hv : q.xmmVal = 0) :
    ∀ {ss : List BlockShape} {s : BlockShape} {ctx : JitCtx Unit}, ctx.fault = none →
      (∀ i ∈ q.trap, ctx.xmm i = 0) →
      ((q.block s).enter zeros (ss.map q.block) ctx).rip = 0 := by
  intro ss
  induction ss with
  | nil =>
    intro s ctx hf h0
    rw [List.map_nil, enter_nil]
    refine (exec_quiet hf ?_).rip
    rintro ⟨i, hi, hne⟩
    exact hne (h0 i (Finset.mem_of_mem_inter_left hi))
  | cons s' ss ih =>
    intro s ctx hf h0
    have hq : q.Quiet s ((q.block s).exec zeros ctx.toCore ctx.xmm) := by
      refine exec_quiet hf ?_
      rintro ⟨i, hi, hne⟩
      exact hne (h0 i (Finset.mem_of_mem_inter_left hi))
    rcases Nat.lt_or_ge ctx.chainDepth MAX_CHAIN_DEPTH with hd | hd
    · rw [List.map_cons, enter_cons hq.fault hd]
      have hf' : ((q.block s).hop ((q.block s).run zeros ctx)).fault = none := hq.fault
      refine ih hf' fun i hi => ?_
      change Bank.patch ((q.block s).exec zeros ctx.toCore ctx.xmm).2 ctx.xmm i = 0
      rw [Bank.patch, hq.stores]
      split
      · exact hv
      · exact h0 i hi
    · rw [enter_of_deep hd]
      exact hq.rip

/-- Probes that watch nothing. -/
theorem not_trips (h : q.trap = ∅) (s : BlockShape) (x : Xmms) : ¬ q.Trips s x := by
  rintro ⟨i, hi, -⟩
  simp [h] at hi

/-- Dispatched one at a time, probes that watch nothing leave in a register what the last to store
to it stored. -/
theorem dispatchEach_xmm (htrap : q.trap = ∅) :
    ∀ {ss : List BlockShape} {t : Thread Unit}, t.regs.xmm i = q.xmmVal ∨ (∃ s ∈ ss, i ∈ q.writes s) →
      (dispatchEach zeros (ss.map q.block) t).1.regs.xmm i = q.xmmVal := by
  intro ss
  induction ss with
  | nil =>
    rintro t (h | ⟨s, hs, -⟩)
    · exact h
    · exact absurd hs List.not_mem_nil
  | cons s ss ih =>
    intro t h
    have hq := exec_quiet (q := q) (c := t.core) rfl (not_trips htrap s t.regs.xmm)
    rw [List.map_cons, hq.dispatchEach]
    have hp : (dispatchOne zeros (q.block s) t).1.regs.xmm i =
        if i ∈ q.writes s then q.xmmVal else t.regs.xmm i := by
      change Bank.patch ((q.block s).exec zeros t.core t.regs.xmm).2 t.regs.xmm i = _
      rw [Bank.patch, hq.stores]
      split <;> rfl
    refine ih ?_
    by_cases hs : i ∈ q.writes s
    · exact .inl (by rw [hp, if_pos hs])
    · rcases h with h | ⟨s', hs', hi⟩
      · exact .inl (by rw [hp, if_neg hs, h])
      · rcases List.mem_cons.mp hs' with rfl | hs'
        · exact absurd hi hs
        · exact .inr ⟨s', hs', hi⟩

theorem exec_gpr_of_mem {sig : BlockSig} (htrap : q.trap = ∅)
    (hi : i ∈ (BlockShape.cranelift sig).gprWrites) :
    ((q.block (.cranelift sig)).exec zeros c x).1.gpr i = q.gprVal := by
  have hb := body_of_quiet (q := q) sig (x := Block.loads sig.xmmLive x)
    (not_trips htrap _ _)
  simp only [block, Block.exec, hb]
  exact Bank.merge_of_mem hi

/-- Dispatched one at a time, compiled probes leave in a general register what the last to write it
wrote, when no trampoline changes it. -/
theorem dispatchEach_gpr (htrap : q.trap = ∅) :
    ∀ {ss : List BlockShape} {t : Thread Unit}, (∀ st, .stub st ∈ ss → i ∉ st.dirtyMask) →
      t.regs.gpr i = q.gprVal ∨ (∃ sig, .cranelift sig ∈ ss ∧
        i ∈ (BlockShape.cranelift sig).gprWrites) →
      (dispatchEach zeros (ss.map q.block) t).1.regs.gpr i = q.gprVal := by
  intro ss
  induction ss with
  | nil =>
    rintro t - (h | ⟨sig, hs, -⟩)
    · exact h
    · exact absurd hs List.not_mem_nil
  | cons s ss ih =>
    intro t hst h
    have hq := exec_quiet (q := q) (c := t.core) rfl (not_trips htrap s t.regs.xmm)
    rw [List.map_cons, hq.dispatchEach]
    refine ih (fun st hm => hst st (.tail _ hm)) ?_
    change ((q.block s).exec zeros t.core t.regs.xmm).1.gpr i = _ ∨ _
    by_cases hi : i ∈ s.gprWrites
    · cases s with
      | cranelift sig => exact .inl (exec_gpr_of_mem htrap hi)
      | stub st => exact absurd hi (hst st (.head _))
    · rcases h with h | ⟨sig, hs, hw⟩
      · exact .inl ((Block.exec_gpr (by rwa [block_shape])).trans h)
      · rcases List.mem_cons.mp hs with rfl | hs
        · exact absurd hw hi
        · exact .inr ⟨sig, hs, hw⟩

/-- A chain of compiled probes that ends in a trampoline reports that trampoline's registers. -/
theorem enter_report (htrap : q.trap = ∅) (st : MicroStub) :
    ∀ (sigs : List BlockSig) (sig : BlockSig) (ctx : JitCtx Unit), ctx.fault = none →
      ctx.gprDirtyBits = ∅ → ctx.chainDepth + (sigs.length + 1) ≤ MAX_CHAIN_DEPTH →
      let ctx' := (q.block (.cranelift sig)).enter zeros
        ((sigs.map BlockShape.cranelift ++ [BlockShape.stub st]).map q.block) ctx
      ctx'.fault = none ∧ ctx'.gprDirtyBits = st.dirtyMask := by
  intro sigs
  induction sigs with
  | nil =>
    intro sig ctx hf hd hlen
    have hq : q.Quiet (.cranelift sig) _ := exec_quiet hf (not_trips htrap _ ctx.xmm)
    have hf' : ((q.block (.cranelift sig)).run zeros ctx).fault = none := hq.fault
    simp only [List.length_nil] at hlen
    simp only [List.map_nil, List.nil_append, List.map_cons]
    rw [enter_cons hf' (by omega), enter_nil]
    have hq' : q.Quiet (.stub st) _ := exec_quiet (x := ctx.xmm) hq.fault (not_trips htrap _ _)
    refine ⟨hq'.fault, ?_⟩
    change ctx.gprDirtyBits ∪ st.dirtyMask = st.dirtyMask
    rw [hd, Finset.empty_union]
  | cons sig' sigs ih =>
    intro sig ctx hf hd hlen
    have hq : q.Quiet (.cranelift sig) _ := exec_quiet hf (not_trips htrap _ ctx.xmm)
    have hf' : ((q.block (.cranelift sig)).run zeros ctx).fault = none := hq.fault
    simp only [List.length_cons] at hlen
    simp only [List.map_cons, List.cons_append]
    rw [enter_cons hf' (by omega)]
    exact ih sig' ((q.block (.cranelift sig)).hop ((q.block (.cranelift sig)).run zeros ctx))
      hq.fault hd (show ctx.chainDepth + 1 + (sigs.length + 1) ≤ MAX_CHAIN_DEPTH by omega)

end Probe

/-- What an unsafe shape writes and does not copy back. -/
theorem exists_stub_of_not_gprSafe : ∀ {ss : List BlockShape} {w : Mask}, ¬ GprSafe w ss →
    ∃ (sigs : List BlockSig) (st : MicroStub) (i : Fin 16),
      ss = sigs.map .cranelift ++ [.stub st] ∧
      (i ∈ w ∨ ∃ sig ∈ sigs, i ∈ (BlockShape.cranelift sig).gprWrites) ∧ i ∉ st.dirtyMask := by
  intro ss
  induction ss with
  | nil => exact fun h => absurd trivial h
  | cons s ss ih =>
    intro w h
    cases s with
    | stub st =>
      obtain ⟨rfl, hw⟩ : ss = [] ∧ ¬ w ⊆ st.dirtyMask := by
        simpa [GprSafe] using h
      obtain ⟨i, hi, hn⟩ := Finset.not_subset.mp hw
      exact ⟨[], st, i, rfl, .inl hi, hn⟩
    | cranelift sig =>
      obtain ⟨sigs, st, i, rfl, hi, hn⟩ := ih h
      refine ⟨sig :: sigs, st, i, rfl, ?_, hn⟩
      rcases hi with hi | ⟨sig', hs, hi⟩
      · rcases Finset.mem_union.mp hi with hi | hi
        · exact .inl hi
        · exact .inr ⟨sig, .head _, hi⟩
      · exact .inr ⟨sig', .tail _ hs, hi⟩

/-- The blocks beyond the depth limit do not matter. -/
theorem enter_take {W : Type} {p : MemPort W} (next : List (Block W)) :
    ∀ (b : Block W) (c : JitCtx W),
      b.enter p (next.take (MAX_CHAIN_DEPTH - c.chainDepth)) c = b.enter p next c := by
  induction next with
  | nil => intro b c; rw [List.take_nil]
  | cons b' next ih =>
    intro b c
    rcases Nat.lt_or_ge c.chainDepth MAX_CHAIN_DEPTH with hd | hd
    · cases hf : (b.run p c).fault with
      | some f =>
        have hf' : (b.run p c).fault.isSome = true := by rw [hf]; rfl
        rw [enter_of_fault hf', enter_of_fault hf']
      | none =>
        rw [show MAX_CHAIN_DEPTH - c.chainDepth = MAX_CHAIN_DEPTH - (c.chainDepth + 1) + 1 by omega,
          List.take_succ_cons, enter_cons hf hd, enter_cons hf hd]
        have := ih b' (b.hop (b.run p c))
        rw [show (b.hop (b.run p c)).chainDepth = c.chainDepth + 1 from rfl] at this
        rw [this]
    · rw [enter_of_deep hd, enter_of_deep hd]

/-! ### Exactly the safe chains lose nothing -/

/-- A thread with the same value in all general and in all XMM registers. -/
def evenThread (g : BitVec 64) (x : BitVec 128) : Thread Unit :=
  ⟨⟨fun _ => g, fun _ => x, 0, 0⟩, ⟨0, fun _ => 0⟩, ()⟩

/-- For all blocks of a shape, on any memory and from any thread, the run of the chain leaves the
register file that dispatching its blocks one at a time leaves. -/
def Lossless (s : BlockShape) (ss : List BlockShape) : Prop :=
  ∀ (W : Type) (p : MemPort W) (b : Block W) (next : List (Block W)) (t : Thread W),
    b.shape = s → next.map Block.shape = ss →
      (runCompiled p b next t).1.regs =
        (dispatchEach p ((b :: next).take (MAX_CHAIN_DEPTH + 1)) t).1.regs

section Lossless

variable {s : BlockShape} {ss : List BlockShape}

theorem Lossless.probe (h : Lossless s ss) (q : Probe) (t : Thread Unit) :
    (runCompiled zeros (q.block s) (ss.map q.block) t).1.regs =
      (dispatchEach zeros ((s :: ss.take MAX_CHAIN_DEPTH).map q.block) t).1.regs := by
  have hshapes : (ss.map q.block).map Block.shape = ss := by
    rw [List.map_map]
    exact (List.map_congr_left fun s' _ => q.block_shape s').trans (List.map_id ss)
  rw [h Unit zeros (q.block s) (ss.map q.block) t (q.block_shape s) hshapes, List.map_cons,
    List.take_succ_cons, List.map_take]

/-- An XMM register that is read was copied in: otherwise the probes that watch it part. -/
theorem Lossless.exposed (h : Lossless s ss) {i : Fin 16}
    (hx : Exposed i (s :: ss.take MAX_CHAIN_DEPTH)) : i ∈ s.xmmLoaded := by
  by_contra hl
  let q : Probe := ⟨{i}, 0, 0, false⟩
  have hr := congrArg RegFile.rip (h.probe q (evenThread 0 1))
  have hne : (evenThread 0 1).regs.xmm i ≠ 0 := by
    change (1 : BitVec 128) ≠ 0
    decide
  rw [Probe.dispatchEach_tripped (q := q) (Finset.mem_singleton_self i) rfl hx hne] at hr
  have hc : (runCompiled zeros (q.block s) (ss.map q.block) (evenThread 0 1)).1.regs.rip = 0 := by
    refine Probe.enter_quiet (q := q) rfl rfl fun j hj => ?_
    rw [Finset.mem_singleton.mp hj]
    have hl' : i ∉ (q.block s).shape.xmmLoaded := by rwa [q.block_shape]
    show Bank.merge (q.block s).shape.xmmLoaded (evenThread 0 1).regs.xmm (fun _ => 0) i = 0
    exact Bank.merge_of_notMem hl'
  rw [hc] at hr
  exact absurd hr (by decide)

/-- XMM registers are stored to only where they are copied back. -/
theorem Lossless.stores (h : Lossless s ss) :
    s.usesSse = true ∨ ∀ s' ∈ ss.take MAX_CHAIN_DEPTH, s'.xmmMayDef = ∅ := by
  by_contra hn
  obtain ⟨hs, s', hs', hm⟩ : s.usesSse = false ∧ ∃ s' ∈ ss.take MAX_CHAIN_DEPTH,
      s'.xmmMayDef ≠ ∅ := by
    simpa using hn
  obtain ⟨i, hi⟩ := Finset.nonempty_iff_ne_empty.mpr hm
  let q : Probe := ⟨∅, 0, 1, true⟩
  have hr := congrFun (congrArg RegFile.xmm (h.probe q (evenThread 0 0))) i
  rw [Probe.dispatchEach_xmm (q := q) rfl (.inr ⟨s', .tail _ hs', hi⟩)] at hr
  have hc : (runCompiled zeros (q.block s) (ss.map q.block) (evenThread 0 0)).1.regs.xmm i = 0 := by
    refine Bank.merge_of_notMem ?_
    rw [xmmWriteback, q.block_shape, hs]
    exact Finset.notMem_empty i
  rw [hc] at hr
  exact absurd hr (by decide)

/-- General registers written are copied back. -/
theorem Lossless.gprSafe (h : Lossless s ss) : GprSafe ∅ (s :: ss.take MAX_CHAIN_DEPTH) := by
  by_contra hn
  obtain ⟨sigs, st, i, hl, hi, hst⟩ := exists_stub_of_not_gprSafe hn
  obtain ⟨sig', hs', hw⟩ := hi.resolve_left (Finset.notMem_empty i)
  cases sigs with
  | nil => exact absurd hs' List.not_mem_nil
  | cons sig sigs =>
    obtain ⟨rfl, hl'⟩ : s = .cranelift sig ∧
        ss.take MAX_CHAIN_DEPTH = sigs.map .cranelift ++ [.stub st] := by
      simpa using hl
    let q : Probe := ⟨∅, 1, 0, false⟩
    have hr := congrFun (congrArg RegFile.gpr (h.probe q (evenThread 0 0))) i
    have hstubs : ∀ st', BlockShape.stub st' ∈ BlockShape.cranelift sig :: ss.take MAX_CHAIN_DEPTH →
        i ∉ st'.dirtyMask := by
      intro st' hm
      obtain rfl : st' = st := by simpa [hl'] using hm
      exact hst
    have hmem : BlockShape.cranelift sig' ∈ BlockShape.cranelift sig :: ss.take MAX_CHAIN_DEPTH := by
      rw [hl]
      exact List.mem_append_left _ (List.mem_map_of_mem hs')
    rw [Probe.dispatchEach_gpr (q := q) rfl hstubs (.inr ⟨sig', hmem, hw⟩)] at hr
    have hlen : sigs.length + 1 ≤ MAX_CHAIN_DEPTH := by
      have := congrArg List.length hl'
      simp only [List.length_take, List.length_append, List.length_map, List.length_cons,
        List.length_nil] at this
      omega
    obtain ⟨hf, hd⟩ := Probe.enter_report (q := q) rfl st sigs sig
      (copyIn (.cranelift sig) (evenThread 0 0)) rfl rfl
      (show 0 + (sigs.length + 1) ≤ MAX_CHAIN_DEPTH by omega)
    have hc : (runCompiled zeros (q.block (.cranelift sig)) (ss.map q.block)
        (evenThread 0 0)).1.regs.gpr i = 0 := by
      refine Bank.merge_of_notMem ?_
      rw [← enter_take, q.block_shape, ← List.map_take]
      change i ∉ gprWriteback ((q.block (.cranelift sig)).enter zeros
        ((ss.take MAX_CHAIN_DEPTH).map q.block) (copyIn (.cranelift sig) (evenThread 0 0)))
      rw [hl', gprWriteback, hf, hd, if_neg (by simp [st.dirtyMask_ne_empty])]
      exact hst
    rw [hc] at hr
    exact absurd hr (by decide)

end Lossless

/-- **Block chaining preserves the register file on safe chains and on no others.** -/
theorem chain_preserves_registers (s : BlockShape) (ss : List BlockShape) :
    Lossless s ss ↔ ChainSafe s ss := by
  refine ⟨fun h => ⟨fun i => h.exposed, h.stores, h.gprSafe⟩, ?_⟩
  rintro h W p b next t rfl rfl
  rw [runCompiled_eq b next t h]

/-- `mov ebx, 5` and a jump to `next`. -/
def setRbx (next : BitVec 64) : Block Unit :=
  .cranelift
    { gprLive := {3}, gprDirty := {3}, xmmLive := ∅, xmmMayDef := ∅, hasFp := false
      flagsIn := false, flagsOut := false, xmmReads := ∅, xmmAlways := ∅
      mayDef_live := Finset.Subset.refl _, reads_live := Finset.Subset.refl _
      always_mayDef := Finset.Subset.refl _
      body := fun g _ f s w => ⟨Function.update g 3 5, fun _ => none, f, next, none, s, w⟩
      body_reads := fun _ _ _ _ _ _ _ => rfl
      body_always := fun _ _ _ _ _ _ i hi => absurd hi (Finset.notMem_empty i) }

/-- `movq rax, xmm0` and a jump to `next`. -/
def moveXmm0 (next : BitVec 64) : Block Unit :=
  .cranelift
    { gprLive := {0}, gprDirty := {0}, xmmLive := {0}, xmmMayDef := ∅, hasFp := false
      flagsIn := false, flagsOut := false, xmmReads := {0}, xmmAlways := ∅
      mayDef_live := Finset.empty_subset _, reads_live := Finset.Subset.refl _
      always_mayDef := Finset.Subset.refl _
      body := fun g x f s w =>
        ⟨Function.update g 0 ((x 0).setWidth 64), fun _ => none, f, next, none, s, w⟩
      body_reads := fun g x x' f s w h => by rw [h 0 (Finset.mem_singleton_self 0)]
      body_always := fun _ _ _ _ _ _ i hi => absurd hi (Finset.notMem_empty i) }

/-- A compiled block and a stub that finds no successor: RBX is lost. A block without SSE and one
that reads XMM0: it reads zero. -/
theorem chain_loses_registers :
    (runCompiled zeros (setRbx 0x2000) [.stub .ret] (evenThread 0 0)).1.regs.gpr 3 ≠
        (dispatchEach zeros [setRbx 0x2000, .stub .ret] (evenThread 0 0)).1.regs.gpr 3 ∧
      (runCompiled zeros (setRbx 0x2000) [moveXmm0 0x3000] (evenThread 0 1)).1.regs.gpr 0 ≠
        (dispatchEach zeros [setRbx 0x2000, moveXmm0 0x3000] (evenThread 0 1)).1.regs.gpr 0 := by
  decide +kernel

end Wie
