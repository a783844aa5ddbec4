import Wie.Cpu.SseMoves
import Wie.Cpu.StringBulk

/-!
# Right moves and shuffles

The interpreter leaves the rest of a register when a scalar is loaded into it, and when MOVQ writes
it. It takes the control byte of PSHUFD from the displacement, does not read the memory operands of
shuffles, has no move of a quadword into a general register, and does nothing for PSHUFB. Everything
else is right.

## Main results

* `SseInsn.right_xmm_iff`, `SseInsn.right_memory` — what has to be the same
* `sseInsns_right_iff` — when the instructions are right
-/

namespace Wie

open Cmd GuestMemory Insn

variable {env : HostEnv} {p : Platform} {i : Insn} {k : SseInsn} {dst src : SseOperand} {n : ℕ}
  {r r₁ r' : RegFile} {f f₁ : Flat} {m m' : GuestMemory} {x : Except StepExecError Unit}
  {a : BitVec 64} {j l : Fin 16} {v : BitVec 128} {b : Bool} {e : StepExecError}

/-! ### What is read -/

theorem executeOne_apply (p : Platform) (i : Insn) (r : RegFile) :
    executeOne p i r = executeMnemonic p i (r.setRip (.ofNat 64 i.nextIp)) := rfl

/-- A change of registers reads nothing. -/
theorem not_loads_update (g : RegFile → Except CpuError RegFile) (a n : ℕ) :
    ¬(Exec.update g r).Loads a n := by
  intro h
  rw [Exec.update] at h
  cases hg : g r <;> rw [hg] at h <;> exact h

theorem address_apply (ha : i.effectiveAddress r = .ok a) : i.address r = .done (.ok a, r) := by
  show Exec.lift (i.effectiveAddress r) r = _
  rw [ha]
  rfl

/-- **An operand in memory is read first.** -/
theorem loads_readSseOp (h : i.HasSseOperand 1 n r (.memory a)) (hn : n ≤ 16)
    (g : BitVec 128 → Exec Unit) : ((i.readSseOp 1 n >>= g : Exec Unit) r).Loads a.toNat n := by
  obtain ⟨hkind, -, -, ha⟩ := h
  have hsize : ¬16 < n := by omega
  rw [readSseOp, hkind]
  simp only [bind_apply, address_apply ha, MemProg.bind, andThen, hsize, if_false, load]
  exact ⟨rfl, rfl⟩

/-! ### Values -/

theorem SseOperand.value_setRip (src : SseOperand) (n : ℕ) (r : RegFile) (f : Flat)
    (v : BitVec 64) : src.value n (r.setRip v) f = src.value n r f := by
  cases src <;> rfl

theorem SseOperand.masked_setRip (src : SseOperand) (n : ℕ) (r : RegFile) (f : Flat)
    (v : BitVec 64) : src.masked n (r.setRip v) f = src.masked n r f := by
  cases src <;> rfl

/-- A scalar of four bytes. -/
theorem scalar_four (d : BitVec 128) (src : SseOperand) (r : RegFile) (f : Flat) :
    mergeSse d (src.masked 4 r f) 4 true =
      ofLanes 128 fun j => if j = 0 then lane 32 (src.value 4 r f) 0 else lane 32 d j := by
  have hlow : lane 32 (src.masked 4 r f) 0 = lane 32 (src.value 4 r f) 0 := by
    cases src with
    | xmm l =>
      show lane 32 (r.xmm l &&& lowBytes 4) 0 = _
      rw [lane_and, lane_lowBytes_four 0 (by decide), if_pos rfl, BitVec.and_allOnes]
      rfl
    | gpr reg => rfl
    | memory a => rfl
  rw [mergeSse_four, hlow]

/-- A scalar of eight bytes. -/
theorem scalar_eight (d : BitVec 128) (src : SseOperand) (r : RegFile) (f : Flat) :
    mergeSse d (src.masked 8 r f) 8 true =
      ofLanes 128 fun j => if j = 0 then lane 64 (src.value 8 r f) 0 else lane 64 d j := by
  have hlow : lane 64 (src.masked 8 r f) 0 = lane 64 (src.value 8 r f) 0 := by
    cases src with
    | xmm l =>
      show lane 64 (r.xmm l &&& lowBytes 8) 0 = _
      rw [lane_and, lane_lowBytes_eight 0 (by decide), if_pos rfl, BitVec.and_allOnes]
      rfl
    | gpr reg => rfl
    | memory a => rfl
  rw [mergeSse_eight, hlow]

/-- A whole register. -/
theorem merge_sixteen (d : BitVec 128) (src : SseOperand) (r : RegFile) (f : Flat) :
    mergeSse d (src.masked 16 r f) 16 false = src.value 16 r f := by
  have hmerge (v : BitVec 128) : mergeSse d v 16 false = v &&& lowBytes 16 := rfl
  rw [hmerge, and_lowBytes_sixteen]
  cases src with
  | xmm l => exact and_lowBytes_sixteen _
  | gpr reg => rfl
  | memory a => rfl

/-- Only the bytes that are stored count. -/
theorem Flat.set_and_lowBytes (f : Flat) (x : ℕ) (hn : n = 4 ∨ n = 8 ∨ n = 16)
    (v : BitVec 128) : f.set x n (v &&& lowBytes n).toNat = f.set x n v.toNat := by
  have hmod : (v &&& lowBytes n).toNat = v.toNat % 256 ^ n := by
    rw [BitVec.toNat_and]
    rcases hn with rfl | rfl | rfl
    · exact Nat.and_two_pow_sub_one_eq_mod _ 32
    · exact Nat.and_two_pow_sub_one_eq_mod _ 64
    · exact Nat.and_two_pow_sub_one_eq_mod _ 128
  rw [Flat.set, Flat.set, hmod, toLe_mod]

/-- The upper half of one of two words is zero, and the lower halves are the same. -/
theorem forall_qwords_iff {g : ℕ → BitVec 64} {s d : BitVec 64} (hg : g 1 = d) :
    (∀ k < 2, (if k = 0 then s else g k) = if k = 0 then s else 0) ↔ d = 0 := by
  constructor
  · intro h
    rw [← hg]
    exact h 1 (by decide)
  · rintro rfl k hk
    obtain rfl | rfl : k = 0 ∨ k = 1 := by omega
    · rfl
    · exact hg

/-! ### How the instructions are executed -/

/-- A move into an XMM register. -/
theorem gives_execSseMov_xmm (hd : i.HasSseOperand 0 n r (.xmm j)) (hs : i.HasSseOperand 1 n r src)
    (hn : n ≤ 16) (hr : src.Readable n f) (b : Bool) : (execSseMov i n b).Gives env r f (.ok ())
      (r.putXmm j (mergeSse (r.xmm j) (src.masked n r f) n b)) f :=
  (hs.gives_readSseOp hn hr).bind (gives_writeSseOp_xmm hd _ b)

/-- A move into memory. -/
theorem gives_execSseMov_memory (hd : i.HasSseOperand 0 n r (.memory a))
    (hs : i.HasSseOperand 1 n r (.xmm l)) (hn : n = 4 ∨ n = 8 ∨ n = 16) (hw : f.Rw a.toNat n)
    (b : Bool) : (execSseMov i n b).Gives env r f (.ok ()) r
      (f.set a.toNat n (r.xmm l).toNat) := by
  have hle : n ≤ 16 := by omega
  rw [← Flat.set_and_lowBytes f a.toNat hn]
  exact (hs.gives_readSseOp hle trivial).bind (gives_writeSseOp_memory hd hle hw _ b)

/-- There is no move into a general register. -/
theorem exists_gives_execSseMov_error {reg : Register} (hd : i.HasSseOperand 0 n r (.gpr reg))
    (hs : i.HasSseOperand 1 n r src) (hn : n ≤ 16) (hr : src.Readable n f) (b : Bool) :
    ∃ e, (execSseMov i n b).Gives env r f (.error e) r f := by
  obtain ⟨hkind, rfl, hgpr, -⟩ := hd
  have hxmm : (i.opRegister 0).isXmm = false := by
    cases hreg : i.opRegister 0 with
    | xmm k =>
      rw [hreg] at hgpr
      exact hgpr.elim
    | _ => rfl
  refine ⟨.cpu (.message "sse write op kind"), (hs.gives_readSseOp hn hr).bind ?_⟩
  rw [writeSseOp, hkind]
  simp only [hxmm, Bool.false_eq_true, if_false]
  exact Exec.gives_fail _

/-- A register computed from itself and another. -/
theorem gives_updateXmm (hd : i.HasSseOperand 0 n r (.xmm j)) (hs : i.HasSseOperand 1 n r (.xmm l))
    (g : BitVec 128 → BitVec 128 → BitVec 128) : (updateXmm i g).Gives env r f (.ok ())
      (r.putXmm j (g (r.xmm j) (r.xmm l))) f := by
  refine Exec.gives_update ?_
  rw [hd.2, hs.2, RegFile.readXmm_castLE, RegFile.readXmm_castLE]
  exact RegFile.writeXmm_castLE ..

theorem isXmm_opRegister (h : i.HasSseOperand n 4 r (.xmm j)) : (i.opRegister n).isXmm = true := by
  rw [h.2]
  rfl

/-- An operand that is no XMM register does not name one. -/
theorem not_isXmm_opRegister {o : SseOperand} {size : ℕ} (h : i.HasSseOperand n size r o)
    (ho : ∀ l, o ≠ .xmm l) : (i.opRegister n).isXmm = false := by
  cases o with
  | xmm l => exact absurd rfl (ho l)
  | gpr reg =>
    obtain ⟨-, rfl, hgpr, -⟩ := h
    cases hreg : i.opRegister n with
    | xmm k =>
      rw [hreg] at hgpr
      exact hgpr.elim
    | _ => rfl
  | memory a =>
    rw [h.2.1]
    rfl

theorem setWidth_and_low (u : BitVec 64) : (u &&& 0xffffffff).setWidth 32 = u.setWidth 32 := by
  rw [BitVec.setWidth_and]
  exact BitVec.and_allOnes

theorem lane_ofNat_zero (x : ℕ) : lane 32 (.ofNat 128 x) 0 = .ofNat 32 x := by
  apply BitVec.eq_of_getLsbD_eq
  intro b hb
  rw [getLsbD_lane hb, BitVec.getLsbD_ofNat, BitVec.getLsbD_ofNat, Nat.mul_zero, Nat.zero_add,
    decide_eq_true hb, decide_eq_true (hb.trans (by decide))]

/-- A doubleword that is moved into an XMM register. -/
theorem gives_execSseMovd_xmm (hd : i.HasSseOperand 0 4 r (.xmm j)) (hs : i.HasSseOperand 1 4 r src)
    (hsrc : ∀ l, src ≠ .xmm l) (hr : src.Readable 4 f) : (execSseMovd i).Gives env r f (.ok ())
      (r.putXmm j (ofLanes 128 fun j => if j = 0 then lane 32 (src.value 4 r f) 0 else 0)) f := by
  have hwrite (u : BitVec 64) : (Exec.update fun s => s.writeXmm (i.opRegister 0)
      ((u.setWidth 32).setWidth 128)).Gives env r f (.ok ())
        (r.putXmm j (ofLanes 128 fun j => if j = 0 then u.setWidth 32 else 0)) f := by
    refine Exec.gives_update ?_
    rw [hd.2, ← widened_eq]
    exact RegFile.writeXmm_castLE ..
  rw [execSseMovd, if_pos (isXmm_opRegister hd)]
  cases src with
  | xmm l => exact absurd rfl (hsrc l)
  | gpr reg =>
    obtain ⟨hkind, rfl, hgpr, -⟩ := hs
    have hkind1 : i.op1Kind ≠ .memory := by
      rw [Instruction.op1Kind, hkind]
      decide
    have hvalue : lane 32 ((SseOperand.gpr (i.opRegister 1)).value 4 r f) 0 =
        (r.part (i.opRegister 1) &&& 0xffffffff).setWidth 32 := by
      rw [setWidth_and_low]
      exact lane_setWidth_zero _
    rw [if_neg hkind1, hvalue]
    refine Exec.gives_regs.bind ?_
    rw [RegFile.readReg_part hgpr]
    exact (Exec.gives_lift _).bind ((Exec.gives_pure _).bind (hwrite _))
  | memory a =>
    obtain ⟨hkind, -, -, ha⟩ := hs
    have hkind1 : i.op1Kind = .memory := hkind
    have hvalue : lane 32 ((SseOperand.memory a).value 4 r f) 0 =
        (BitVec.ofNat 64 (f.get a.toNat 4)).setWidth 32 := by
      rw [BitVec.setWidth_ofNat_of_le (by decide)]
      exact lane_ofNat_zero _
    rw [if_pos hkind1, hvalue]
    have hread : (readMemValue a 4).Gives env r f (.ok (.ofNat 64 (f.get a.toNat 4))) r f :=
      Exec.gives_readMemValue (.inr (.inr (.inl rfl))) hr
    exact (gives_address ha).bind (hread.bind (hwrite _))

/-- A doubleword that is moved into a general register. -/
theorem gives_execSseMovd_gpr {reg : Register} (hd : i.HasSseOperand 0 4 r (.gpr reg))
    (hs : i.HasSseOperand 1 4 r (.xmm l)) : (execSseMovd i).Gives env r f (.ok ())
      (r.putPart ((r.xmm l).setWidth 64) reg) f := by
  have hno := not_isXmm_opRegister hd fun _ => SseOperand.noConfusion
  obtain ⟨hkind, hreg, hgpr, hsize⟩ := hd
  have hkind0 : i.op0Kind ≠ .memory := by
    rw [Instruction.op0Kind, hkind]
    decide
  have hput : r.putPart ((r.xmm l).setWidth 64 &&& 0xffffffff) reg =
      r.putPart ((r.xmm l).setWidth 64) reg := by
    cases reg with
    | gpr32 k =>
      show r.setGpr k ((_ &&& 0xffffffff : BitVec 64).setWidth 32 |>.setWidth 64) = _
      rw [setWidth_and_low]
      rfl
    | eip | other size n => exact hgpr.elim
    | _ => cases hsize
  rw [execSseMovd, if_neg (by rw [hno]; exact Bool.false_ne_true),
    if_pos (isXmm_opRegister hs), hs.2]
  refine Exec.gives_regs.bind ?_
  rw [RegFile.readXmm_castLE]
  refine (Exec.gives_lift _).bind ?_
  rw [if_neg hkind0, hreg, ← hput]
  exact Exec.gives_update (RegFile.writeReg_part hgpr)

/-- A doubleword that is moved into memory. -/
theorem gives_execSseMovd_memory (hd : i.HasSseOperand 0 4 r (.memory a))
    (hs : i.HasSseOperand 1 4 r (.xmm l)) (hw : f.Rw a.toNat 4) :
    (execSseMovd i).Gives env r f (.ok ()) r (f.set a.toNat 4 (r.xmm l).toNat) := by
  have hno := not_isXmm_opRegister hd fun _ => SseOperand.noConfusion
  obtain ⟨hkind, -, -, ha⟩ := hd
  have hkind0 : i.op0Kind = .memory := hkind
  have hset : f.set a.toNat 4 ((r.xmm l).setWidth 64 &&& 0xffffffff).toNat =
      f.set a.toNat 4 (r.xmm l).toNat := by
    have hmod : ((r.xmm l).setWidth 64 &&& 0xffffffff).toNat = (r.xmm l).toNat % 256 ^ 4 := by
      rw [BitVec.toNat_and, BitVec.toNat_setWidth]
      refine (Nat.and_two_pow_sub_one_eq_mod _ 32).trans ?_
      exact Nat.mod_mod_of_dvd _ (by decide)
    rw [Flat.set, Flat.set, hmod, toLe_mod]
  rw [execSseMovd, if_neg (by rw [hno]; exact Bool.false_ne_true),
    if_pos (isXmm_opRegister hs), hs.2]
  refine Exec.gives_regs.bind ?_
  rw [RegFile.readXmm_castLE]
  refine (Exec.gives_lift _).bind ?_
  rw [if_pos hkind0, ← hset]
  exact (gives_address ha).bind (Exec.gives_writeMemValue (.inr (.inr (.inl rfl))) _ hw)

/-- A quadword that is moved into the upper half of an XMM register. -/
theorem gives_execSseMovhps_xmm (hd : i.HasSseOperand 0 8 r (.xmm j))
    (hs : i.HasSseOperand 1 8 r (.memory a)) (hr : f.Rd a.toNat 8) :
    (execSseMovhps i).Gives env r f (.ok ()) (r.putXmm j (ofLanes 128 fun b =>
      if b = 0 then lane 64 (r.xmm j) 0 else lane 64 (.ofNat 128 (f.get a.toNat 8)) 0)) f := by
  have hxmm : (i.opRegister 0).isXmm = true := by
    rw [hd.2]
    rfl
  rw [execSseMovhps, if_pos hxmm, ← lowHalf_or]
  refine (hs.gives_readSseOp (by decide) hr).bind (Exec.gives_update ?_)
  rw [hd.2, RegFile.readXmm_castLE]
  exact RegFile.writeXmm_castLE ..

/-- The upper half of an XMM register that is moved into memory. -/
theorem gives_execSseMovhps_memory (hd : i.HasSseOperand 0 8 r (.memory a))
    (hs : i.HasSseOperand 1 8 r (.xmm l)) (hw : f.Rw a.toNat 8) :
    (execSseMovhps i).Gives env r f (.ok ()) r (f.set a.toNat 8 (r.xmm l >>> 64).toNat) := by
  have hno := not_isXmm_opRegister hd fun _ => SseOperand.noConfusion
  rw [execSseMovhps, if_neg (by rw [hno]; exact Bool.false_ne_true), hs.2]
  refine Exec.gives_regs.bind ?_
  rw [RegFile.readXmm_castLE]
  exact (Exec.gives_lift _).bind (gives_writeSseOp_memory hd (by decide) hw _ false)

theorem loads_execSseMovd (hd : i.HasSseOperand 0 4 r (.xmm j))
    (hs : i.HasSseOperand 1 4 r (.memory a)) : (execSseMovd i r).Loads a.toNat 4 := by
  obtain ⟨hkind, -, -, ha⟩ := hs
  have hkind1 : i.op1Kind = .memory := hkind
  have hsize : ¬(4 = 0 ∨ 8 < 4) := by decide
  rw [execSseMovd, if_pos (isXmm_opRegister hd), if_pos hkind1]
  simp only [bind_apply, address_apply ha, MemProg.bind, andThen, readMemValue, hsize, if_false,
    load]
  exact ⟨rfl, rfl⟩

/-! ### Right ends -/

namespace SseInsn

section Right

variable (hinv : Inv env m) (hflat : m.flat = f)
  (hrun : (executeOne p i).run (device env) r m = some ((x, r'), m'))

include hinv hflat hrun

/-- What has to be the same where an XMM register is written. -/
theorem right_xmm_iff (hg : (executeMnemonic p i).Gives env (r.setRip (.ofNat 64 i.nextIp)) f
      (.ok ()) ((r.setRip (.ofNat 64 i.nextIp)).putXmm j v) f)
    (hreads : ∀ a, src = .memory a → (executeOne p i r).Loads a.toNat k.size) :
    k.Right p i (.xmm j) src r f x r' m'.flat ↔
      v = k.result src.isMemory (r.xmm j) (src.value k.size r f) := by
  have hone : (executeOne p i).Gives env r f (.ok ()) _ f := (Exec.gives_alter _).bind hg
  obtain ⟨rfl, rfl, -, hflat'⟩ := hone m hinv hflat _ _ _ hrun
  have hafter : (((r.setRip (.ofNat 64 i.nextIp)).putXmm j v, m'.flat) : RegFile × Flat) =
      k.after (.xmm j) src (r.setRip (.ofNat 64 i.nextIp)) f ↔
        v = k.result src.isMemory (r.xmm j) (src.value k.size r f) := by
    rw [hflat', SseInsn.after, SseOperand.value_setRip]
    show (_, f) = ((r.setRip _).putXmm j _, f) ↔ _
    rw [Prod.mk.injEq, and_iff_left rfl]
    exact RegFile.putXmm_eq_iff
  rw [← hafter]
  exact ⟨fun h => h.after, fun h => ⟨rfl, h, hreads⟩⟩

/-- What is stored somewhere else is right. -/
theorem right_of_stored {s : RegFile × Flat} (hg : (executeMnemonic p i).Gives env
      (r.setRip (.ofNat 64 i.nextIp)) f (.ok ()) s.1 s.2)
    (hafter : s = k.after dst src (r.setRip (.ofNat 64 i.nextIp)) f)
    (hsrc : ∀ a, src ≠ .memory a) : k.Right p i dst src r f x r' m'.flat := by
  have hone : (executeOne p i).Gives env r f (.ok ()) _ _ := (Exec.gives_alter _).bind hg
  obtain ⟨rfl, rfl, -, hflat'⟩ := hone m hinv hflat _ _ _ hrun
  rw [hflat']
  exact ⟨rfl, hafter, fun a ha => absurd ha (hsrc a)⟩

/-- A failure is not right. -/
theorem not_right_of_error (s : RegFile) (g : Flat) (hg : ∃ e, (executeMnemonic p i).Gives env
      (r.setRip (.ofNat 64 i.nextIp)) f (.error e) s g) :
    ¬k.Right p i dst src r f x r' m'.flat := by
  intro h
  obtain ⟨e, hg⟩ := hg
  have hone : (executeOne p i).Gives env r f (.error e) s g := (Exec.gives_alter _).bind hg
  have hx := (hone m hinv hflat _ _ _ hrun).1
  rw [h.ok] at hx
  cases hx

end Right

/-- Memory that is not read. -/
theorem not_right_of_update {f' : Flat} {g : RegFile → Except CpuError RegFile}
    (hexec : executeMnemonic p i = Exec.update g) :
    ¬k.Right p i dst (.memory a) r f x r' f' := by
  intro h
  have hreads := h.reads a rfl
  rw [executeOne_apply, hexec] at hreads
  exact not_loads_update g _ _ hreads

/-! ### One instruction after the other -/

section Instructions

variable (hinv : Inv env m) (hflat : m.flat = f)
  (hrun : (executeOne p i).run (device env) r m = some ((x, r'), m'))

include hinv hflat hrun

/-- A move into an XMM register, which holds a value of `n` bytes and perhaps some of its own. -/
theorem right_move_xmm_iff (hexec : executeMnemonic p i = execSseMov i k.size b)
    (hd : i.HasSseOperand 0 k.size r (.xmm j)) (hs : i.HasSseOperand 1 k.size r src)
    (hn : k.size ≤ 16) (hr : src.Readable k.size f) :
    k.Right p i (.xmm j) src r f x r' m'.flat ↔
      mergeSse (r.xmm j) (src.masked k.size r f) k.size b =
        k.result src.isMemory (r.xmm j) (src.value k.size r f) := by
  have hg : (executeMnemonic p i).Gives env (r.setRip (.ofNat 64 i.nextIp)) f (.ok ())
      ((r.setRip (.ofNat 64 i.nextIp)).putXmm j
        (mergeSse (r.xmm j) (src.masked k.size r f) k.size b)) f := by
    rw [hexec, ← src.masked_setRip k.size r f (.ofNat 64 i.nextIp)]
    exact gives_execSseMov_xmm (hd.setRip _) (hs.setRip _) hn hr b
  refine right_xmm_iff hinv hflat hrun hg ?_
  rintro a rfl
  rw [executeOne_apply, hexec]
  exact loads_readSseOp (hs.setRip _) hn _

/-- A move into memory. -/
theorem right_move_memory (hexec : executeMnemonic p i = execSseMov i k.size b)
    (hd : i.HasSseOperand 0 k.size r (.memory a)) (hs : i.HasSseOperand 1 k.size r (.xmm l))
    (hn : k.size = 4 ∨ k.size = 8 ∨ k.size = 16) (hw : f.Rw a.toNat k.size)
    (hstored : k.stored (r.xmm l) = r.xmm l) :
    k.Right p i (.memory a) (.xmm l) r f x r' m'.flat := by
  have hg : (executeMnemonic p i).Gives env (r.setRip (.ofNat 64 i.nextIp)) f (.ok ())
      (r.setRip (.ofNat 64 i.nextIp)) (f.set a.toNat k.size (r.xmm l).toNat) := by
    rw [hexec]
    exact gives_execSseMov_memory (hd.setRip _) (hs.setRip _) hn hw b
  refine right_of_stored hinv hflat hrun (s := (_, _)) hg ?_ fun _ => SseOperand.noConfusion
  show (_, _) = (_, f.set a.toNat k.size (k.stored (r.xmm l)).toNat)
  rw [hstored]
  rfl

/-- **MOVSS.** -/
theorem right_movss_iff (hk : movss.Is i) (hd : i.HasSseOperand 0 4 r dst)
    (hs : i.HasSseOperand 1 4 r src) (hform : movss.Form dst src) (hr : src.Readable 4 f)
    (hw : dst.Writable 4 f) :
    movss.Right p i dst src r f x r' m'.flat ↔ movss.Spared i dst src r f := by
  have hexec : executeMnemonic p i = execSseMov i 4 true := by
    rw [executeMnemonic, List.mem_singleton.mp hk.mnemonic]
  cases dst with
  | xmm j =>
    refine (right_move_xmm_iff (k := movss) hinv hflat hrun hexec hd hs (by decide) hr).trans ?_
    have hsize : movss.size = 4 := rfl
    rw [hsize, scalar_four, result]
    cases src with
    | xmm l => exact iff_of_true rfl trivial
    | gpr reg => exact hform.elim
    | memory a =>
      refine (ofLanes_eq_iff (n := 128) (w := 32) (c := 4) rfl).trans ?_
      constructor
      · intro h j hj
        have := h (j + 1) (by omega)
        rwa [if_neg (Nat.succ_ne_zero j), if_neg (Nat.succ_ne_zero j)] at this
      · intro h j hj
        rcases j with _ | j
        · rfl
        · rw [if_neg (Nat.succ_ne_zero j), if_neg (Nat.succ_ne_zero j)]
          exact h j (by omega)
  | gpr reg => cases src <;> exact hform.elim
  | memory a =>
    cases src with
    | xmm l =>
      exact iff_of_true (right_move_memory (k := movss) hinv hflat hrun hexec hd hs (.inl rfl) hw
        rfl) trivial
    | gpr reg => exact hform.elim
    | memory a => exact hform.elim

/-- **MOVSD.** -/
theorem right_movsd_iff (hk : movsd.Is i) (hd : i.HasSseOperand 0 8 r dst)
    (hs : i.HasSseOperand 1 8 r src) (hform : movsd.Form dst src) (hr : src.Readable 8 f)
    (hw : dst.Writable 8 f) :
    movsd.Right p i dst src r f x r' m'.flat ↔ movsd.Spared i dst src r f := by
  have hxmm : isSseMovsd i = true := by
    rw [isSseMovsd, Bool.or_eq_true, Bool.or_eq_true]
    cases dst with
    | xmm j => exact .inl (.inl (by rw [hd.2]; rfl))
    | gpr reg => cases src <;> exact hform.elim
    | memory a =>
      cases src with
      | xmm l => exact .inl (.inr (by rw [hs.2]; rfl))
      | gpr reg => exact hform.elim
      | memory a => exact hform.elim
  have hexec : executeMnemonic p i = execSseMov i 8 true := by
    rw [executeMnemonic, List.mem_singleton.mp hk.mnemonic]
    exact if_pos hxmm
  cases dst with
  | xmm j =>
    refine (right_move_xmm_iff (k := movsd) hinv hflat hrun hexec hd hs (by decide) hr).trans ?_
    have hsize : movsd.size = 8 := rfl
    rw [hsize, scalar_eight, result]
    cases src with
    | xmm l => exact iff_of_true rfl trivial
    | gpr reg => exact hform.elim
    | memory a =>
      refine (ofLanes_eq_iff (n := 128) (w := 64) (c := 2) rfl).trans ?_
      exact forall_qwords_iff rfl
  | gpr reg => cases src <;> exact hform.elim
  | memory a =>
    cases src with
    | xmm l =>
      exact iff_of_true (right_move_memory (k := movsd) hinv hflat hrun hexec hd hs
        (.inr (.inl rfl)) hw rfl) trivial
    | gpr reg => exact hform.elim
    | memory a => exact hform.elim

/-- **MOVQ.** -/
theorem right_movq_iff (hk : movq.Is i) (hd : i.HasSseOperand 0 8 r dst)
    (hs : i.HasSseOperand 1 8 r src) (hform : movq.Form dst src) (hr : src.Readable 8 f)
    (hw : dst.Writable 8 f) :
    movq.Right p i dst src r f x r' m'.flat ↔ movq.Spared i dst src r f := by
  have hxmm : ((i.opRegister 0).isXmm || (i.opRegister 1).isXmm) = true := by
    rw [Bool.or_eq_true]
    cases dst with
    | xmm j => exact .inl (by rw [hd.2]; rfl)
    | gpr reg | memory a =>
      cases src with
      | xmm l => exact .inr (by rw [hs.2]; rfl)
      | gpr reg => exact hform.elim
      | memory a => exact hform.elim
  have hexec : executeMnemonic p i = execSseMov i 8 true := by
    rw [executeMnemonic, List.mem_singleton.mp hk.mnemonic]
    exact if_pos hxmm
  cases dst with
  | xmm j =>
    refine (right_move_xmm_iff (k := movq) hinv hflat hrun hexec hd hs (by decide) hr).trans ?_
    have hsize : movq.size = 8 := rfl
    rw [hsize, scalar_eight, result]
    refine (ofLanes_eq_iff (n := 128) (w := 64) (c := 2) rfl).trans ?_
    exact forall_qwords_iff rfl
  | gpr reg =>
    refine iff_of_false (not_right_of_error hinv hflat hrun (r.setRip (.ofNat 64 i.nextIp)) f
      ?_) id
    rw [hexec]
    exact exists_gives_execSseMov_error (hd.setRip _) (hs.setRip _) (by decide) hr true
  | memory a =>
    cases src with
    | xmm l =>
      exact iff_of_true (right_move_memory (k := movq) hinv hflat hrun hexec hd hs
        (.inr (.inl rfl)) hw rfl) trivial
    | gpr reg => exact hform.elim
    | memory a => exact hform.elim

/-- **MOVAPS** and the other moves of whole registers. -/
theorem right_full (hk : full.Is i) (hd : i.HasSseOperand 0 16 r dst)
    (hs : i.HasSseOperand 1 16 r src) (hform : full.Form dst src) (hr : src.Readable 16 f)
    (hw : dst.Writable 16 f) : full.Right p i dst src r f x r' m'.flat := by
  have hexec : executeMnemonic p i = execSseMov i 16 false := by
    have hm := hk.mnemonic
    simp only [mnemonics, List.mem_cons, List.not_mem_nil, or_false] at hm
    rcases hm with hm | hm | hm | hm | hm | hm <;> rw [executeMnemonic, hm]
  cases dst with
  | xmm j =>
    refine (right_move_xmm_iff (k := full) hinv hflat hrun hexec hd hs (by decide) hr).mpr ?_
    exact merge_sixteen ..
  | gpr reg => cases src <;> exact hform.elim
  | memory a =>
    cases src with
    | xmm l =>
      exact right_move_memory (k := full) hinv hflat hrun hexec hd hs (.inr (.inr rfl)) hw rfl
    | gpr reg => exact hform.elim
    | memory a => exact hform.elim

/-- **MOVD.** -/
theorem right_movd (hk : movd.Is i) (hd : i.HasSseOperand 0 4 r dst)
    (hs : i.HasSseOperand 1 4 r src) (hform : movd.Form dst src) (hr : src.Readable 4 f)
    (hw : dst.Writable 4 f) : movd.Right p i dst src r f x r' m'.flat := by
  have hexec : executeMnemonic p i = execSseMovd i := by
    rw [executeMnemonic, List.mem_singleton.mp hk.mnemonic]
  have hd' := hd.setRip (.ofNat 64 i.nextIp)
  have hs' := hs.setRip (.ofNat 64 i.nextIp)
  cases dst with
  | xmm j =>
    have hsrc : ∀ l, src ≠ .xmm l := by
      rintro l rfl
      exact hform
    have hg : (executeMnemonic p i).Gives env (r.setRip (.ofNat 64 i.nextIp)) f (.ok ())
        ((r.setRip (.ofNat 64 i.nextIp)).putXmm j (ofLanes 128 fun j =>
          if j = 0 then lane 32 (src.value 4 r f) 0 else 0)) f := by
      rw [hexec, ← src.value_setRip 4 r f (.ofNat 64 i.nextIp)]
      exact gives_execSseMovd_xmm hd' hs' hsrc hr
    refine (right_xmm_iff (k := movd) hinv hflat hrun hg ?_).mpr rfl
    rintro a rfl
    rw [executeOne_apply, hexec]
    exact loads_execSseMovd hd' hs'
  | gpr reg =>
    cases src with
    | xmm l =>
      exact right_of_stored hinv hflat hrun (s := (_, _))
        (hexec ▸ gives_execSseMovd_gpr hd' hs') rfl fun _ => SseOperand.noConfusion
    | gpr reg => exact hform.elim
    | memory a => exact hform.elim
  | memory a =>
    cases src with
    | xmm l =>
      exact right_of_stored hinv hflat hrun (s := (_, _))
        (hexec ▸ gives_execSseMovd_memory hd' hs' hw) rfl fun _ => SseOperand.noConfusion
    | gpr reg => exact hform.elim
    | memory a => exact hform.elim

/-- **MOVHPS.** -/
theorem right_movhps (hk : movhps.Is i) (hd : i.HasSseOperand 0 8 r dst)
    (hs : i.HasSseOperand 1 8 r src) (hform : movhps.Form dst src) (hr : src.Readable 8 f)
    (hw : dst.Writable 8 f) : movhps.Right p i dst src r f x r' m'.flat := by
  have hexec : executeMnemonic p i = execSseMovhps i := by
    rw [executeMnemonic, List.mem_singleton.mp hk.mnemonic]
    rfl
  have hd' := hd.setRip (.ofNat 64 i.nextIp)
  have hs' := hs.setRip (.ofNat 64 i.nextIp)
  cases dst with
  | xmm j =>
    cases src with
    | xmm l => exact hform.elim
    | gpr reg => exact hform.elim
    | memory a =>
      have hxmm : (i.opRegister 0).isXmm = true := by
        rw [hd.2]
        rfl
      refine (right_xmm_iff (k := movhps) hinv hflat hrun
        (hexec ▸ gives_execSseMovhps_xmm hd' hs' hr) ?_).mpr rfl
      rintro a' ha
      cases ha
      rw [executeOne_apply, hexec, execSseMovhps, if_pos hxmm]
      exact loads_readSseOp hs' (by decide) _
  | gpr reg => cases src <;> exact hform.elim
  | memory a =>
    cases src with
    | xmm l =>
      exact right_of_stored hinv hflat hrun (s := (_, _))
        (hexec ▸ gives_execSseMovhps_memory hd' hs' hw) rfl fun _ => SseOperand.noConfusion
    | gpr reg => exact hform.elim
    | memory a => exact hform.elim

/-- An XMM register computed from itself and another. -/
theorem right_updateXmm_iff {g : BitVec 128 → BitVec 128 → BitVec 128}
    (hexec : executeMnemonic p i = updateXmm i g) (hd : i.HasSseOperand 0 k.size r (.xmm j))
    (hs : i.HasSseOperand 1 k.size r (.xmm l)) :
    k.Right p i (.xmm j) (.xmm l) r f x r' m'.flat ↔
      g (r.xmm j) (r.xmm l) = k.result false (r.xmm j) (r.xmm l) :=
  right_xmm_iff hinv hflat hrun (hexec ▸ gives_updateXmm (hd.setRip _) (hs.setRip _) g)
    fun _ => SseOperand.noConfusion

/-- **MOVHLPS.** -/
theorem right_movhlps (hk : movhlps.Is i) (hd : i.HasSseOperand 0 16 r (.xmm j))
    (hs : i.HasSseOperand 1 16 r (.xmm l)) :
    movhlps.Right p i (.xmm j) (.xmm l) r f x r' m'.flat := by
  have hm := List.mem_singleton.mp hk.mnemonic
  have hexec : executeMnemonic p i = updateXmm i (movHalves .movhlps) := by
    rw [executeMnemonic, hm]
    show execSseMovhlps i = _
    rw [execSseMovhlps, hm]
  refine (right_updateXmm_iff (k := movhlps) hinv hflat hrun hexec hd hs).mpr ?_
  exact upper_or ..

/-- **MOVLHPS.** -/
theorem right_movlhps (hk : movlhps.Is i) (hd : i.HasSseOperand 0 16 r (.xmm j))
    (hs : i.HasSseOperand 1 16 r (.xmm l)) :
    movlhps.Right p i (.xmm j) (.xmm l) r f x r' m'.flat := by
  have hm := List.mem_singleton.mp hk.mnemonic
  have hexec : executeMnemonic p i = updateXmm i (movHalves .movlhps) := by
    rw [executeMnemonic, hm]
    show execSseMovhlps i = _
    rw [execSseMovhlps, hm]
  refine (right_updateXmm_iff (k := movlhps) hinv hflat hrun hexec hd hs).mpr ?_
  exact lowHalf_or_lowHalf ..

/-- **PUNPCKLQDQ.** -/
theorem right_punpcklqdq_iff (hk : punpcklqdq.Is i) (hd : i.HasSseOperand 0 16 r dst)
    (hs : i.HasSseOperand 1 16 r src) (hform : punpcklqdq.Form dst src) :
    punpcklqdq.Right p i dst src r f x r' m'.flat ↔ punpcklqdq.Spared i dst src r f := by
  have hm := List.mem_singleton.mp hk.mnemonic
  have hexec : executeMnemonic p i = updateXmm i (unpack .punpcklqdq) := by
    rw [executeMnemonic, hm]
    show execSsePunpck i = _
    rw [execSsePunpck, hm]
  cases dst with
  | xmm j =>
    cases src with
    | xmm l =>
      refine iff_of_true ?_ trivial
      refine (right_updateXmm_iff (k := punpcklqdq) hinv hflat hrun hexec hd hs).mpr ?_
      exact lowHalf_or_lowHalf ..
    | gpr reg => exact hform.elim
    | memory a => exact iff_of_false (not_right_of_update hexec) id
  | gpr reg => cases src <;> exact hform.elim
  | memory a => cases src <;> exact hform.elim

/-- **PUNPCKHQDQ.** -/
theorem right_punpckhqdq_iff (hk : punpckhqdq.Is i) (hd : i.HasSseOperand 0 16 r dst)
    (hs : i.HasSseOperand 1 16 r src) (hform : punpckhqdq.Form dst src) :
    punpckhqdq.Right p i dst src r f x r' m'.flat ↔ punpckhqdq.Spared i dst src r f := by
  have hm := List.mem_singleton.mp hk.mnemonic
  have hexec : executeMnemonic p i = updateXmm i (unpack .punpckhqdq) := by
    rw [executeMnemonic, hm]
    show execSsePunpck i = _
    rw [execSsePunpck, hm]
  cases dst with
  | xmm j =>
    cases src with
    | xmm l =>
      refine iff_of_true ?_ trivial
      refine (right_updateXmm_iff (k := punpckhqdq) hinv hflat hrun hexec hd hs).mpr ?_
      show lowHalf (r.xmm j >>> 64) ||| r.xmm l &&& ~~~0xffffffffffffffff#128 = _
      rw [BitVec.or_comm]
      exact upper_or ..
    | gpr reg => exact hform.elim
    | memory a => exact iff_of_false (not_right_of_update hexec) id
  | gpr reg => cases src <;> exact hform.elim
  | memory a => cases src <;> exact hform.elim

/-- **PSHUFD.** -/
theorem right_pshufd_iff {imm8 : BitVec 8} (hk : (pshufd imm8).Is i)
    (hd : i.HasSseOperand 0 16 r dst) (hs : i.HasSseOperand 1 16 r src)
    (hform : (pshufd imm8).Form dst src) :
    (pshufd imm8).Right p i dst src r f x r' m'.flat ↔ (pshufd imm8).Spared i dst src r f := by
  have hexec : executeMnemonic p i = execSsePshufd i := by
    rw [executeMnemonic, List.mem_singleton.mp hk.mnemonic]
    rfl
  cases dst with
  | xmm j =>
    cases src with
    | xmm l =>
      have hkind : ¬i.op1Kind = .memory := by
        rw [Instruction.op1Kind, hs.1]
        decide
      have hg : (executeMnemonic p i).Gives env (r.setRip (.ofNat 64 i.nextIp)) f (.ok ())
          ((r.setRip (.ofNat 64 i.nextIp)).putXmm j
            (shuffleDwords (r.xmm l) (i.memoryDisplacement64.setWidth 8))) f := by
        rw [hexec]
        refine Exec.gives_update ?_
        rw [if_neg hkind, hd.2, hs.2, RegFile.readXmm_castLE]
        exact RegFile.writeXmm_castLE ..
      refine (right_xmm_iff (k := pshufd imm8) hinv hflat hrun hg
        fun _ => SseOperand.noConfusion).trans ?_
      rw [shuffleDwords_eq, result, ofLanes_eq_iff (n := 128) (w := 32) (c := 4) rfl]
      rfl
    | gpr reg => exact hform.elim
    | memory a => exact iff_of_false (not_right_of_update hexec) id
  | gpr reg => cases src <;> exact hform.elim
  | memory a => cases src <;> exact hform.elim

/-- **PSHUFB.** -/
theorem right_pshufb_iff (hk : pshufb.Is i) (hd : i.HasSseOperand 0 16 r dst)
    (hs : i.HasSseOperand 1 16 r src) (hform : pshufb.Form dst src) :
    pshufb.Right p i dst src r f x r' m'.flat ↔ pshufb.Spared i dst src r f := by
  have hexec : executeMnemonic p i = pure () := by
    rw [executeMnemonic, List.mem_singleton.mp hk.mnemonic]
    rfl
  cases dst with
  | xmm j =>
    cases src with
    | xmm l =>
      have hsame : (r.setRip (.ofNat 64 i.nextIp)).putXmm j (r.xmm j) =
          r.setRip (.ofNat 64 i.nextIp) :=
        congrArg (fun g => { r.setRip (.ofNat 64 i.nextIp) with xmm := g })
          (Function.update_eq_self j r.xmm)
      have hg : (executeMnemonic p i).Gives env (r.setRip (.ofNat 64 i.nextIp)) f (.ok ())
          ((r.setRip (.ofNat 64 i.nextIp)).putXmm j (r.xmm j)) f := by
        rw [hexec, hsame]
        exact Exec.gives_pure _
      refine (right_xmm_iff (k := pshufb) hinv hflat hrun hg
        fun _ => SseOperand.noConfusion).trans ?_
      rw [result, eq_ofLanes_iff (n := 128) (w := 8) (c := 16) rfl]
      rfl
    | gpr reg => exact hform.elim
    | memory a =>
      refine iff_of_false (fun h => ?_) id
      have hreads := h.reads a rfl
      rw [executeOne_apply, hexec] at hreads
      exact hreads
  | gpr reg => cases src <;> exact hform.elim
  | memory a => cases src <;> exact hform.elim

/-- **When the instructions are right.** -/
theorem right_iff (hk : k.Is i) (hd : i.HasSseOperand 0 k.size r dst)
    (hs : i.HasSseOperand 1 k.size r src) (hform : k.Form dst src) (hr : src.Readable k.size f)
    (hw : dst.Writable k.size f) :
    k.Right p i dst src r f x r' m'.flat ↔ k.Spared i dst src r f := by
  cases k with
  | movss => exact right_movss_iff hinv hflat hrun hk hd hs hform hr hw
  | movsd => exact right_movsd_iff hinv hflat hrun hk hd hs hform hr hw
  | movd => exact iff_of_true (right_movd hinv hflat hrun hk hd hs hform hr hw) trivial
  | movq => exact right_movq_iff hinv hflat hrun hk hd hs hform hr hw
  | full => exact iff_of_true (right_full hinv hflat hrun hk hd hs hform hr hw) trivial
  | movhps => exact iff_of_true (right_movhps hinv hflat hrun hk hd hs hform hr hw) trivial
  | movhlps =>
    cases dst <;> cases src
    case xmm.xmm => exact iff_of_true (right_movhlps hinv hflat hrun hk hd hs) trivial
    all_goals exact hform.elim
  | movlhps =>
    cases dst <;> cases src
    case xmm.xmm => exact iff_of_true (right_movlhps hinv hflat hrun hk hd hs) trivial
    all_goals exact hform.elim
  | punpcklqdq => exact right_punpcklqdq_iff hinv hflat hrun hk hd hs hform
  | punpckhqdq => exact right_punpckhqdq_iff hinv hflat hrun hk hd hs hform
  | pshufd imm8 => exact right_pshufd_iff hinv hflat hrun hk hd hs hform
  | pshufb => exact right_pshufb_iff hinv hflat hrun hk hd hs hform

end Instructions

end SseInsn

/-- **Moves and shuffles of XMM registers.** On operands to which no access is denied, the
instruction is right exactly where it is spared. -/
theorem sseInsns_right_iff {env : HostEnv} {m m' : GuestMemory} (h : Reachable env AnyCall m)
    (p : Platform) {k : SseInsn} {i : Insn} (hk : k.Is i) {dst src : SseOperand} {r r' : RegFile}
    (hd : i.HasSseOperand 0 k.size r dst) (hs : i.HasSseOperand 1 k.size r src)
    (hform : k.Form dst src) (hr : src.Readable k.size m.flat) (hw : dst.Writable k.size m.flat)
    {x : Except StepExecError Unit}
    (hrun : (executeOne p i).run (device env) r m = some ((x, r'), m')) :
    k.Right p i dst src r m.flat x r' m'.flat ↔ k.Spared i dst src r m.flat :=
  SseInsn.right_iff (Reachable.inv h) rfl hrun hk hd hs hform hr hw

/-- `movq xmm0, xmm1`. -/
def movqRegisters : Insn := { onRegisters (.xmm 0) (.xmm 1) with mnemonic := .movq }

theorem is_movqRegisters : SseInsn.movq.Is movqRegisters :=
  ⟨List.mem_singleton.mpr rfl, fun _ h => by cases h⟩

theorem sseInsns_right_movq : ∃ r', SseInsn.movq.Right noDecode movqRegisters (.xmm 0) (.xmm 1)
    (withRax 0 0) somePages.flat (.ok ()) r' somePages.flat := by
  have hd : movqRegisters.HasSseOperand 0 8 (withRax 0 0) (.xmm 0) := ⟨rfl, rfl⟩
  have hs : movqRegisters.HasSseOperand 1 8 (withRax 0 0) (.xmm 1) := ⟨rfl, rfl⟩
  exact ⟨_, (sseInsns_right_iff reachable_somePages noDecode is_movqRegisters hd hs trivial trivial
    trivial rfl).mpr rfl⟩

/-- **`movq xmm0, xmm1`** leaves the upper half of XMM0. -/
theorem not_sseInsns_right : ¬∀ (env : HostEnv) (m m' : GuestMemory), Reachable env AnyCall m →
    ∀ (p : Platform) (k : SseInsn) (i : Insn), k.Is i → ∀ (dst src : SseOperand) (r r' : RegFile),
      i.HasSseOperand 0 k.size r dst → i.HasSseOperand 1 k.size r src → k.Form dst src →
        src.Readable k.size m.flat → dst.Writable k.size m.flat →
          ∀ x : Except StepExecError Unit,
            (executeOne p i).run (device env) r m = some ((x, r'), m') →
              k.Right p i dst src r m.flat x r' m'.flat := by
  intro hall
  have h := (hall .fourK somePages somePages reachable_somePages noDecode .movq movqRegisters
    is_movqRegisters (.xmm 0) (.xmm 1) ((withRax 0 0).putXmm 0 (.twoPow 128 64)) _ ⟨rfl, rfl⟩
    ⟨rfl, rfl⟩ trivial trivial trivial (.ok ()) rfl).after
  have hxmm := congrArg (fun s : RegFile × Flat => s.1.xmm 0) h
  revert hxmm
  decide +kernel

end Wie
