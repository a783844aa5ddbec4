import Wie.Eh.Undo

/-!
# What a prologue leaves behind

A prologue that runs with room for its frame lowers the stack pointer by its total, stores every
saved register once and leaves it in its slot, and changes no register but the frame pointer.

## Main definitions

* `Codes.Ran` — the frame after some operations of a prologue

## Main results

* `Prolog.runCodes_ran` — every prologue ends in such a frame
-/

namespace Wie

namespace Prolog

variable {p : Prolog} {b : ℕ} {op : PrologOp} {f : PrologFrame}

theorem runOp_push (r : Fin 16) :
    p.runOp b (.pushNonvol r) f = { f with rsp := f.rsp - 8 }.store (.gpr r) (f.rsp - 8) := rfl

theorem runOp_of_save {r : Saved} {n : ℕ} (h : op.save = some (r, n)) :
    p.runOp b op f = f.store r (b + n) := by
  cases op <;> cases h <;> rfl

theorem runOp_of_none (h : op.saved = none) (hs : op ≠ .setFpreg) :
    p.runOp b op f = { f with rsp := f.rsp - op.size } := by
  cases op <;> first | rfl | exact absurd rfl hs | cases h

end Prolog

namespace Codes

variable {cs : Codes} {c : UInt8 × PrologOp} {off : UInt8} {op : PrologOp}

theorem setsFp_cons : SetsFp (c :: cs) ↔ c.2 = .setFpreg ∨ SetsFp cs := by
  simp [SetsFp]

theorem fpDepth_of_ne (h : op ≠ .setFpreg) : fpDepth ((off, op) :: cs) = fpDepth cs := by
  cases op <;> first | rfl | exact absurd rfl h

theorem fpDepth_le (cs : Codes) : cs.fpDepth ≤ cs.total := by
  induction cs with
  | nil => exact le_rfl
  | cons c cs ih =>
    obtain ⟨off, op⟩ := c
    rw [total]
    by_cases h : op = .setFpreg
    · subst h
      exact Nat.le_add_left _ _
    · rw [fpDepth_of_ne h]
      omega

/-- The frame after the operations `cs`, entered with the registers `G` and `X` and the memory `m`
in a frame of `top` bytes from `bottom` on. -/
structure Ran (p : Prolog) (m : ByteMap) (G : Gprs) (X : Xmms) (kept : List (ℕ × ℕ))
    (bottom top base : ℕ) (cs : Codes) (f : PrologFrame) : Prop where
  /-- The stack pointer is lowered. -/
  rsp : f.rsp + cs.total = bottom + top
  /-- No register but the frame pointer is changed. -/
  gpr : ∀ r, r ≠ p.frameRegister ∨ ¬ cs.SetsFp → f.gpr r = G r
  /-- Nor is an XMM register. -/
  xmm : f.xmm = X
  /-- The frame pointer is set. -/
  fp : cs.SetsFp → f.gpr p.frameRegister =
    BitVec.ofNat 64 (bottom + (top - cs.fpDepth) + p.frameOffset * 16)
  /-- The slots hold the registers. -/
  holds : HoldSaves f.mem bottom G X (cs.saves top base)
  /-- Nothing else is stored. -/
  other : ∀ a, (∀ x ∈ cs.saves top base, a < bottom + x.2 ∨ bottom + x.2 + x.1.width ≤ a) →
    f.mem a = m a
  /-- The slots are recorded. -/
  kept : f.kept = (cs.saves top base).map (fun x => (bottom + x.2, x.1.width)) ++ kept

variable {p : Prolog} {m : ByteMap} {G : Gprs} {X : Xmms} {kept : List (ℕ × ℕ)}
  {bottom top base : ℕ} {f : PrologFrame}

/-- One more save keeps the frame as described. -/
theorem Ran.store {r : Saved} {n : ℕ} (h : cs.Ran p m G X kept bottom top base f)
    (hval : r.value f.gpr f.xmm = r.value G X)
    (hsaves : saves top base (c :: cs) = (r, n) :: saves top base cs)
    (hapart : ∀ y ∈ saves top base cs, Apart n r.width y.2 y.1.width) :
    HoldSaves (f.store r (bottom + n)).mem bottom G X (saves top base (c :: cs)) ∧
      (∀ a, (∀ x ∈ saves top base (c :: cs), a < bottom + x.2 ∨ bottom + x.2 + x.1.width ≤ a) →
        (f.store r (bottom + n)).mem a = m a) ∧
      (f.store r (bottom + n)).kept =
        (saves top base (c :: cs)).map (fun x => (bottom + x.2, x.1.width)) ++ kept := by
  rw [hsaves]
  refine ⟨?_, ?_, ?_⟩
  · rw [HoldSaves, List.forall_mem_cons]
    refine ⟨?_, fun y hy => ?_⟩
    · have := f.mem.holds_write (bottom + n) (toLe r.width (r.value f.gpr f.xmm))
      rw [hval] at this
      change (f.mem.write (bottom + n) (toLe r.width (r.value f.gpr f.xmm))).Holds _ _
      rwa [hval]
    · refine (h.holds y hy).write ?_
      have := hapart y hy
      simp only [length_toLe, Apart] at this ⊢
      omega
  · intro a ha
    rw [List.forall_mem_cons] at ha
    change f.mem.write _ _ a = m a
    rw [ByteMap.write_of_notMem (by simpa using ha.1)]
    exact h.other a ha.2
  · rw [List.map_cons, List.cons_append, ← h.kept]
    rfl

end Codes

open Codes in
/-- **What the operations of a prologue leave behind.** -/
theorem Prolog.runCodes_ran {p : Prolog} {f : PrologFrame} {bottom top base : ℕ} (cs : Codes)
    (hrsp : f.rsp = bottom + top) (htop : cs.total ≤ top) (hfp : cs.KeepsFp p.frameRegister)
    (hapart : (cs.saves top base).Pairwise fun x y => Apart x.2 x.1.width y.2 y.1.width) :
    cs.Ran p f.mem f.gpr f.xmm f.kept bottom top base (p.runCodes (bottom + base) cs f) := by
  induction cs with
  | nil =>
    exact
      { rsp := hrsp
        gpr := fun r _ => rfl
        xmm := rfl
        fp := fun ⟨c, hc, _⟩ => absurd hc List.not_mem_nil
        holds := fun x hx => absurd hx List.not_mem_nil
        other := fun a _ => rfl
        kept := rfl }
  | cons c cs ih =>
    obtain ⟨off, op⟩ := c
    rw [Codes.total] at htop
    obtain ⟨hkeep, hfp⟩ := hfp
    have htop' : Codes.total cs ≤ top := by omega
    rcases op.cases_saved with ⟨r, rfl⟩ | ⟨r, n, hs⟩ | hs
    · rw [saves_push, List.pairwise_cons] at hapart
      have h := ih htop' hfp hapart.2
      have hsize : (PrologOp.pushNonvol r).size = 8 := rfl
      set g := p.runCodes (bottom + base) cs f with hg
      have hslot : g.rsp - 8 = bottom + (top - (8 + Codes.total cs)) := by
        have := h.rsp
        omega
      have hval : (Saved.gpr r).value g.gpr g.xmm = (Saved.gpr r).value f.gpr f.xmm := by
        refine congrArg BitVec.toNat (h.gpr r ?_)
        by_cases hset : SetsFp cs
        · exact .inl fun he => (hkeep hset).2 (by rw [← he]; rfl)
        · exact .inr hset
      obtain ⟨h1, h2, h3⟩ := h.store (c := (off, .pushNonvol r)) hval (saves_push r) hapart.1
      have hset : SetsFp ((off, .pushNonvol r) :: cs) ↔ SetsFp cs := by simp [setsFp_cons]
      change Codes.Ran _ _ _ _ _ _ _ _ _ (p.runOp (bottom + base) (.pushNonvol r) g)
      rw [runOp_push, hslot]
      refine ⟨?_, fun r' hr' => h.gpr r' (by rwa [hset] at hr'), h.xmm, ?_, h1, h2, h3⟩
      · change bottom + (top - (8 + Codes.total cs)) + (8 + Codes.total cs) = bottom + top
        omega
      · rw [hset, fpDepth_of_ne (by simp)]
        exact h.fp
    · rw [saves_of_save hs, List.pairwise_cons] at hapart
      have h := ih htop' hfp hapart.2
      have hsize := PrologOp.size_of_save hs
      have hne := PrologOp.ne_setFpreg_of_save hs
      have hsv := PrologOp.saved_of_save hs
      set g := p.runCodes (bottom + base) cs f with hg
      have hval : r.value g.gpr g.xmm = r.value f.gpr f.xmm := by
        cases r with
        | xmm r => exact congrArg (fun x : Xmms => (x r).toNat) h.xmm
        | gpr r =>
          refine congrArg BitVec.toNat (h.gpr r ?_)
          by_cases hset : SetsFp cs
          · refine .inl fun he => (hkeep hset).2 ?_
            rw [hsv, he]
          · exact .inr hset
      obtain ⟨h1, h2, h3⟩ := h.store (c := (off, op)) hval (saves_of_save hs) hapart.1
      have hset : SetsFp ((off, op) :: cs) ↔ SetsFp cs := by simp [setsFp_cons, hne]
      change Codes.Ran _ _ _ _ _ _ _ _ _ (p.runOp (bottom + base) op g)
      rw [Prolog.runOp_of_save hs, Nat.add_assoc]
      refine ⟨?_, fun r' hr' => h.gpr r' (by rwa [hset] at hr'), h.xmm, ?_, h1, h2, h3⟩
      · have := h.rsp
        change g.rsp + (op.size + Codes.total cs) = bottom + top
        omega
      · rw [hset, fpDepth_of_ne hne]
        exact h.fp
    · rw [saves_of_none hs] at hapart
      have h := ih htop' hfp hapart
      set g := p.runCodes (bottom + base) cs f with hg
      change Codes.Ran _ _ _ _ _ _ _ _ _ (p.runOp (bottom + base) op g)
      by_cases hop : op = .setFpreg
      · subst hop
        have hdepth : Codes.fpDepth ((off, .setFpreg) :: cs) = Codes.total cs := rfl
        have hset : ¬ SetsFp cs := fun hset => (hkeep hset).1 rfl
        have hr := h.rsp
        refine ⟨by rw [Codes.total]; exact (Nat.zero_add _).symm ▸ hr, fun r hr' => ?_, h.xmm,
          fun _ => ?_, ?_, ?_, ?_⟩
        · have hr' : r ≠ p.frameRegister := by
            refine hr'.resolve_right fun hn => hn ?_
            exact setsFp_cons.mpr (.inl rfl)
          exact (Function.update_of_ne hr' _ _).trans (h.gpr r (.inr hset))
        · rw [hdepth, show bottom + (top - Codes.total cs) = g.rsp by omega]
          exact Function.update_self _ _ _
        · rw [saves_of_none hs]
          exact h.holds
        · rw [saves_of_none hs]
          exact h.other
        · rw [saves_of_none hs]
          exact h.kept
      · have hset : SetsFp ((off, op) :: cs) ↔ SetsFp cs := by simp [setsFp_cons, hop]
        rw [Prolog.runOp_of_none hs hop]
        refine ⟨?_, fun r' hr' => h.gpr r' (by rwa [hset] at hr'), h.xmm, ?_, ?_, ?_, ?_⟩
        · have := h.rsp
          change g.rsp - op.size + (op.size + Codes.total cs) = bottom + top
          omega
        · rw [hset, fpDepth_of_ne hop]
          exact h.fp
        · rw [saves_of_none hs]
          exact h.holds
        · rw [saves_of_none hs]
          exact h.other
        · rw [saves_of_none hs]
          exact h.kept

end Wie
