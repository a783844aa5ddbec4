import Wie.Eh.UnwindInverts
import Wie.Eh.EntryScan

/-!
# When unwinding goes wrong

For every description that is not invertible there is a caller and a memory on which unwinding does
not give the caller back. The memory is the one the prologue leaves on a stack of zeros, with the
unwind data and nothing else at low addresses.

## Main definitions

* `stageMem` — that memory

## Main results

* `UnwindData.inverts_iff_invertible` — unwinding inverts exactly the invertible prologues
* `UnwindData.not_inverts_save`, … — a save without a frame pointer, a chain, and a body that
  lowers the stack pointer
-/

namespace Wie

/-! ### Where a prologue stores -/

/-- A frame that lies between `lo` and the end of the address space. -/
structure PrologFrame.Within (lo : ℕ) (f : PrologFrame) : Prop where
  /-- The frame pointer was set in it. -/
  fp : lo ≤ f.fp ∧ f.fp ≤ 2 ^ 63
  /-- The slots lie in it. -/
  kept : ∀ x ∈ f.kept, lo ≤ x.1 ∧ x.1 + x.2 ≤ 2 ^ 64

theorem Saved.width_le (r : Saved) : r.width ≤ 16 := by cases r <;> simp [Saved.width]

theorem PrologOp.save_lt {op : PrologOp} {r : Saved} {n : ℕ} (h : op.save = some (r, n)) :
    n < 2 ^ 33 := by
  cases op <;> cases h <;> omega

theorem PrologFrame.Within.store {lo a : ℕ} {f : PrologFrame} (h : f.Within lo) (r : Saved)
    (hlo : lo ≤ a) (hhi : a < 2 ^ 63 + 2 ^ 33) : (f.store r a).Within lo := by
  refine ⟨h.fp, fun x hx => ?_⟩
  have hw := r.width_le
  rcases List.mem_cons.mp hx with rfl | hx
  · exact ⟨hlo, by simp only; omega⟩
  · exact h.kept x hx

namespace Prolog

variable {p : Prolog} {lo b : ℕ} {f : PrologFrame}

theorem runCodes_within (cs : Codes) (h : f.Within lo) (hr : lo + cs.total ≤ f.rsp)
    (htop : f.rsp ≤ 2 ^ 63) (hb : lo ≤ b ∧ b ≤ 2 ^ 63) :
    (p.runCodes b cs f).Within lo ∧ (p.runCodes b cs f).rsp + cs.total = f.rsp := by
  induction cs with
  | nil => exact ⟨h, rfl⟩
  | cons c cs ih =>
    obtain ⟨off, op⟩ := c
    rw [Codes.total] at hr
    obtain ⟨hg, hrsp⟩ := ih (by omega)
    rw [Codes.total]
    change (p.runOp b op (p.runCodes b cs f)).Within lo ∧ (p.runOp b op (p.runCodes b cs f)).rsp + _ = _
    set g := p.runCodes b cs f
    rcases op.cases_saved with ⟨r, rfl⟩ | ⟨r, n, hs⟩ | hs
    · have hsize : (PrologOp.pushNonvol r).size = 8 := rfl
      rw [runOp_push]
      have hg' : ({ g with rsp := g.rsp - 8 } : PrologFrame).Within lo := ⟨hg.fp, hg.kept⟩
      refine ⟨hg'.store _ (by omega) (by omega), ?_⟩
      change g.rsp - 8 + _ = _
      omega
    · have hn := PrologOp.save_lt hs
      have hsize := PrologOp.size_of_save hs
      rw [runOp_of_save hs]
      refine ⟨hg.store _ (by omega) (by omega), ?_⟩
      change g.rsp + _ = _
      omega
    · by_cases hop : op = .setFpreg
      · subst hop
        have hsize : PrologOp.setFpreg.size = 0 := rfl
        refine ⟨⟨⟨?_, ?_⟩, hg.kept⟩, ?_⟩
        · change lo ≤ g.rsp
          omega
        · change g.rsp ≤ 2 ^ 63
          omega
        · change g.rsp + _ = _
          omega
      · rw [runOp_of_none hs hop]
        refine ⟨⟨hg.fp, hg.kept⟩, ?_⟩
        change g.rsp - op.size + _ = _
        omega

theorem run_within (h : f.Within lo) (hr : lo + p.codes.total ≤ f.rsp) (htop : f.rsp ≤ 2 ^ 63) :
    (p.run f).Within lo ∧ (p.run f).rsp + p.codes.total = f.rsp := by
  refine runCodes_within p.codes h hr htop ?_
  have hd := p.codes.fpDepth_le
  have hfp := h.fp
  unfold base
  split
  · omega
  · split <;> omega

end Prolog

namespace UnwindData

theorem parents_within {lo : ℕ} {f : PrologFrame} :
    ∀ qs : List (RuntimeFunction × Prolog), f.Within lo →
      lo + (qs.map fun q => q.2.codes.total).sum ≤ f.rsp → f.rsp ≤ 2 ^ 63 →
      (qs.foldr (fun q f => q.2.run f) f).Within lo ∧
        (qs.foldr (fun q f => q.2.run f) f).rsp + (qs.map fun q => q.2.codes.total).sum = f.rsp
  | [], h, _, _ => ⟨h, rfl⟩
  | q :: qs, h, hr, htop => by
    rw [List.map_cons, List.sum_cons] at hr ⊢
    obtain ⟨hg, hrsp⟩ := parents_within qs h (by omega) htop
    obtain ⟨hq, hq'⟩ := q.2.run_within hg (by omega) (by omega)
    refine ⟨hq, ?_⟩
    rw [List.foldr_cons]
    omega

/-- The slots of a whole prologue lie in its frame. -/
theorem run_within (u : UnwindData) (lo : ℕ) (caller : UnwindContext) (m : ByteMap)
    (hr : lo + u.total + 8 ≤ caller.rsp.toNat) (htop : caller.rsp.toNat ≤ 2 ^ 63) :
    (u.run (.enter caller m)).Within lo ∧
      (u.run (.enter caller m)).rsp + u.total = caller.rsp.toNat - 8 := by
  have hrsp : (PrologFrame.enter caller m).rsp = caller.rsp.toNat - 8 := rfl
  rw [total] at hr
  have h0 : (PrologFrame.enter caller m).Within lo := by
    refine ⟨⟨?_, ?_⟩, fun x hx => ?_⟩
    · change lo ≤ caller.rsp.toNat - 8
      omega
    · change caller.rsp.toNat - 8 ≤ 2 ^ 63
      omega
    · obtain rfl := List.mem_singleton.mp hx
      constructor <;> simp only <;> omega
  obtain ⟨hg, hg'⟩ := parents_within u.parents h0 (by omega) (by omega)
  obtain ⟨hf, hf'⟩ := u.own.run_within hg (by omega) (by omega)
  refine ⟨hf, ?_⟩
  rw [total, run]
  omega

end UnwindData

/-! ### The stage -/

/-- A stack of zeros. -/
def zeroMem : ByteMap := fun x => if x < 2 ^ 64 then some 0 else none

/-- Unwind data at low addresses, and a stack above. -/
def stageMem (image stack : ByteMap) : ByteMap :=
  fun x => if x < 2 ^ 34 then image x else if x < 2 ^ 64 then stack x else none

theorem stageMem_low {i s : ByteMap} {x : ℕ} (h : x < 2 ^ 34) : stageMem i s x = i x := if_pos h

theorem stageMem_stack {i s : ByteMap} {x : ℕ} (h : 2 ^ 34 ≤ x) (h' : x < 2 ^ 64) :
    stageMem i s x = s x := by
  rw [stageMem, if_neg (by omega), if_pos h']

theorem stageMem_bounded (i s : ByteMap) : (stageMem i s).Bounded := by
  intro x hx
  rw [stageMem, if_neg (by omega), if_neg (by omega)]

namespace UnwindData

variable {u : UnwindData} {d : ℕ}

/-- Unwind data lies at low addresses. -/
theorem pieces_lt {h : Option Handler} : ∀ {p : Prolog} {qs : List (RuntimeFunction × Prolog)}
    {rva : ℕ}, p.WellFormed → (∀ q ∈ qs, q.2.WellFormed ∧ q.1.unwindData < 2 ^ 32) → rva < 2 ^ 32 →
      ∀ x ∈ pieces h p qs rva, x.1 + x.2.length < 2 ^ 34 := by
  intro p qs
  induction qs generalizing p with
  | nil =>
    intro rva hp _ hr x hx
    have hc := hp.count
    rcases List.mem_cons.mp hx with rfl | hx
    · simp [Prolog.bytes]
      omega
    · obtain rfl := List.mem_singleton.mp hx
      cases h with
      | none => simp [Prolog.headerSize]; omega
      | some h => simp [Prolog.headerSize, Handler.bytes]; omega
  | cons q qs ih =>
    intro rva hp hqs hr x hx
    have hc := hp.count
    rw [List.forall_mem_cons] at hqs
    rcases List.mem_cons.mp hx with rfl | hx
    · simp [Prolog.bytes]
      omega
    · rcases List.mem_cons.mp hx with rfl | hx
      · simp [Prolog.headerSize, RuntimeFunction.bytes]
        omega
      · exact ih hqs.1.1 hqs.2 hqs.1.2 x hx

/-- An image that holds the data, and nothing where the function starts. -/
theorem WellFormed.exists_image (hw : u.WellFormed) :
    ∃ (image : ByteMap) (rva : ℕ), rva ≠ 0 ∧ rva < 2 ^ 32 ∧ u.At image 0 rva ∧
      ∀ q ∈ u.parents, image q.1.beginAddress = none := by
  classical
  obtain ⟨m, rva, h0, hlt, hat, hapart⟩ := hw.placed
  let inside (a : ℕ) : Prop :=
    ∃ x ∈ pieces u.handler u.own u.parents rva, x.1 ≤ a ∧ a < x.1 + x.2.length
  refine ⟨fun a => if inside a then m a else none, rva, by omega, hlt, fun x hx i hi => ?_,
    fun q hq => ?_⟩
  · simp only [Nat.zero_add]
    rw [if_pos ⟨x, hx, by omega, by omega⟩]
    simpa using hat x hx i hi
  · refine if_neg ?_
    rintro ⟨x, hx, h1, h2⟩
    rcases hapart q hq x hx with h | h <;> omega

/-- **What inversion says on the stage.** -/
theorem Inverts.stage (h : u.Inverts d) (hw : u.WellFormed) (hfit : u.total + d ≤ 2 ^ 62)
    (caller : UnwindContext) (hR : caller.rsp.toNat = 2 ^ 63) :
    let f := u.run (.enter caller zeroMem)
    let ctx : UnwindContext := ⟨0, BitVec.ofNat 64 (f.rsp - d), f.gpr, fun _ => 0⟩
    ∃ (m : ByteMap) (rva fuel : ℕ) (r : UnwindResult), m.Bounded ∧ rva ≠ 0 ∧ u.At m 0 rva ∧
      (∀ q ∈ u.parents, m q.1.beginAddress = none) ∧
      (∀ a, 2 ^ 34 ≤ a → a < 2 ^ 64 → m a = f.mem a) ∧
      f.rsp + u.total = 2 ^ 63 - 8 ∧ ctx.rsp.toNat + d = f.rsp ∧
      virtualUnwind m.read 0 fuel ⟨0, 0, rva⟩ ctx = some r ∧ r.ctx = u.callerCtx caller ctx := by
  intro f ctx
  obtain ⟨image, rva, h0, hlt, hat, hbegin⟩ := hw.exists_image
  obtain ⟨hf, hrsp⟩ := u.run_within (2 ^ 34) caller zeroMem (by omega)
    (by omega)
  have hrsp : f.rsp + u.total = 2 ^ 63 - 8 := by rw [← hR]; exact hrsp
  have hctx : ctx.rsp.toNat + d = f.rsp := by
    change (BitVec.ofNat 64 (f.rsp - d)).toNat + d = f.rsp
    rw [BitVec.toNat_ofNat, Nat.mod_eq_of_lt (by omega)]
    omega
  have hat' : u.At (stageMem image f.mem) 0 rva := by
    intro x hx
    refine (hat x hx).congr fun a h1 h2 => stageMem_low ?_
    have := pieces_lt hw.own (fun q hq => ⟨hw.parents q hq, (hw.entries q hq).2.2.2⟩) hlt x hx
    omega
  have hstack (a : ℕ) (h1 : 2 ^ 34 ≤ a) (h2 : a < 2 ^ 64) : stageMem image f.mem a = f.mem a :=
    stageMem_stack h1 h2
  obtain ⟨fuel, r, hv, hr⟩ := h 0 ⟨0, 0, rva⟩ zeroMem (stageMem image f.mem) caller ctx
    (stageMem_bounded _ _) h0 hat' (by omega) (by omega)
    (fun x hx a h1 h2 => hstack a (by have := hf.kept x hx; omega) (by have := hf.kept x hx; omega))
    hctx (fun _ => rfl)
  refine ⟨_, rva, fuel, r, stageMem_bounded _ _, h0, hat', fun q hq => ?_, hstack, hrsp, hctx,
    hv, hr⟩
  rw [stageMem_low (by have := (hw.entries q hq).2.1; omega)]
  exact hbegin q hq

/-- **A chain is never unwound**: the next info is sought in the code of the function. -/
theorem Inverts.chain (h : u.Inverts d) (hw : u.WellFormed) (hfit : u.total + d ≤ 2 ^ 62) :
    u.parents = [] := by
  by_contra hne
  obtain ⟨⟨e, q⟩, qs, hp⟩ := List.exists_cons_of_ne_nil hne
  obtain ⟨m, rva, fuel, r, hb, h0, hat, hbegin, -, -, -, hv, -⟩ :=
    h.stage hw hfit ⟨0, BitVec.ofNat 64 (2 ^ 63), fun _ => 0, fun _ => 0⟩ (by decide)
  have hq : (e, q) ∈ u.parents := by simp [hp]
  obtain ⟨hpos, hlt, -⟩ : 0 < e.beginAddress ∧ e.beginAddress < 2 ^ 32 ∧ _ := hw.entries _ hq
  cases fuel with
  | zero => cases hv
  | succ fuel =>
    rw [virtualUnwind_chain hb hw.own.count hp hpos hlt h0 hat] at hv
    obtain ⟨c, -, hv⟩ := Option.bind_eq_some_iff.mp hv
    cases fuel with
    | zero => cases hv
    | succ fuel =>
      have hsat : satAdd 0 e.beginAddress = e.beginAddress := by
        rw [satAdd_of_lt (by omega), Nat.zero_add]
      have hread : m.read e.beginAddress 4 = none := by
        rw [ByteMap.read, hbegin _ hq]
        rfl
      rw [virtualUnwind, if_neg (by exact Nat.pos_iff_ne_zero.mp hpos)] at hv
      simp only [hsat, hread] at hv
      cases hv

end UnwindData

/-! ### Bytes of a frame -/

namespace Codes

variable {p : Prolog} {m : ByteMap} {G : Gprs} {X : Xmms} {kept : List (ℕ × ℕ)}
  {bottom top base : ℕ} {f : PrologFrame} {cs : Codes}

/-- A byte that no slot with a value there covers is the byte it was. -/
theorem Ran.byte_zero (h : cs.Ran p m G X kept bottom top base f) {a : ℕ} (hm : m a = some 0)
    (hz : ∀ x ∈ cs.saves top base, ∀ i, a = bottom + x.2 + i → i < x.1.width →
      (toLe x.1.width (x.1.value G X))[i]? = some 0) : f.mem a = some 0 := by
  by_cases hin : ∃ x ∈ cs.saves top base, bottom + x.2 ≤ a ∧ a < bottom + x.2 + x.1.width
  · obtain ⟨x, hx, h1, h2⟩ := hin
    obtain ⟨i, rfl⟩ := Nat.exists_eq_add_of_le h1
    have hi : i < (toLe x.1.width (x.1.value G X)).length := by
      rw [length_toLe]
      omega
    rw [h.holds x hx i hi, ← List.getElem?_eq_getElem hi]
    exact hz x hx i rfl (by omega)
  · rw [h.other a fun x hx => ?_, hm]
    by_contra hn
    exact hin ⟨x, hx, by omega, by omega⟩

theorem getElem?_toLe_zero {n i : ℕ} (h : i < n) : (toLe n 0)[i]? = some 0 := by
  rw [toLe_zero, List.getElem?_replicate, if_pos h]

theorem getElem?_toLe_one {n i : ℕ} (h : i < n) (hi : i ≠ 0) : (toLe n 1)[i]? = some 0 := by
  obtain ⟨i, rfl⟩ := Nat.exists_eq_succ_of_ne_zero hi
  cases n with
  | zero => omega
  | succ n =>
    rw [toLe, List.getElem?_cons_succ]
    exact getElem?_toLe_zero (by omega)

theorem saves_map_fst (top base : ℕ) (cs : Codes) :
    (cs.saves top base).map Prod.fst = cs.saved := by
  induction cs with
  | nil => rfl
  | cons c cs ih =>
    obtain ⟨off, op⟩ := c
    rw [saved_cons]
    rcases op.cases_saved with ⟨r, rfl⟩ | ⟨r, n, hs⟩ | hs
    · rw [saves_push, List.map_cons, ih]
      rfl
    · rw [saves_of_save hs, PrologOp.saved_of_save hs, List.map_cons, ih]
      rfl
    · rw [saves_of_none hs, hs, ih]
      rfl

theorem mem_saves_of_save (top base : ℕ) {off : UInt8} {op : PrologOp} {r : Saved} {n : ℕ}
    (hc : (off, op) ∈ cs) (h : op.save = some (r, n)) : (r, base + n) ∈ cs.saves top base := by
  induction cs with
  | nil => exact absurd hc List.not_mem_nil
  | cons c cs ih =>
    obtain ⟨off', op'⟩ := c
    rcases List.mem_cons.mp hc with heq | htail
    · obtain ⟨rfl, rfl⟩ := Prod.mk.inj heq
      rw [saves_of_save h]
      exact .head _
    · have := ih htail
      rcases op'.cases_saved with ⟨r', rfl⟩ | ⟨r', n', hs⟩ | hs
      · exact .tail _ this
      · rw [saves_of_save hs]
        exact .tail _ this
      · rwa [saves_of_none hs]

/-- A register that is saved once has one slot. -/
theorem saves_unique (h : cs.saved.Nodup) {r : Saved} {a b : ℕ} (ha : (r, a) ∈ cs.saves top base)
    (hb : (r, b) ∈ cs.saves top base) : a = b := by
  rw [← saves_map_fst top base] at h
  exact congrArg Prod.snd (List.inj_on_of_nodup_map h ha hb rfl)

end Codes

/-! ### What the walk reads -/

namespace Unwinding

variable {read : MemRead} {u v : Unwinding}

/-- The value a register has in the middle of the walk. -/
def value (u : Unwinding) (r : Saved) : ℕ := r.value u.gpr u.xmm

theorem restore_value (u : Unwinding) (r : Saved) (n : ℕ) :
    (u.restore r n).value r = n % 256 ^ r.width := by
  cases r with
  | gpr r => simp [value, restore, Saved.value, Saved.width]
  | xmm r => simp [value, restore, Saved.value, Saved.width]

theorem restore_value_of_ne (u : Unwinding) {r s : Saved} (h : s ≠ r) (n : ℕ) :
    (u.restore r n).value s = u.value s := by
  cases r with
  | gpr r =>
    cases s with
    | gpr s =>
      have hne : s ≠ r := fun he => h (by rw [he])
      simp [value, restore, Saved.value, Function.update_of_ne hne]
    | xmm s => rfl
  | xmm r =>
    cases s with
    | gpr s => rfl
    | xmm s =>
      have hne : s ≠ r := fun he => h (by rw [he])
      simp [value, restore, Saved.value, Function.update_of_ne hne]

theorem load_value {r : Saved} {va : ℕ} (h : u.load read r va = some v) :
    ∃ b, read va r.width = some b ∧ v.value r = fromLe b % 256 ^ r.width := by
  obtain ⟨b, hb, rfl⟩ := Option.map_eq_some_iff.mp h
  exact ⟨b, hb, u.restore_value r _⟩

theorem load_value_of_ne {r s : Saved} {va : ℕ} (h : u.load read r va = some v) (hne : s ≠ r) :
    v.value s = u.value s := by
  obtain ⟨b, -, rfl⟩ := Option.map_eq_some_iff.mp h
  exact u.restore_value_of_ne hne _

end Unwinding

theorem PrologOp.undo_value {read : MemRead} {fpRsp : ℕ} {op : PrologOp} {u v : Unwinding}
    {r : Saved} (h : op.undo read fpRsp u = some v) (hr : op.saved ≠ some r) :
    v.value r = u.value r := by
  rcases op.cases_saved with ⟨r', rfl⟩ | ⟨r', n, hs⟩ | hs
  · rw [undo_push] at h
    obtain ⟨w, hw, rfl⟩ := Option.map_eq_some_iff.mp h
    have hne : r ≠ .gpr r' := fun he => hr (by rw [he]; rfl)
    change w.value r = u.value r
    exact Unwinding.load_value_of_ne hw hne
  · rw [undo_of_save hs] at h
    have hne : r ≠ r' := fun he => hr (by rw [saved_of_save hs, he])
    exact Unwinding.load_value_of_ne h hne
  · cases op <;> first | cases hs; done | (obtain rfl := Option.some.inj h; rfl)

namespace Codes

variable {read : MemRead} {fpRsp : ℕ} {u v : Unwinding} {cs : Codes}

/-- The walk keeps registers that are not saved. -/
theorem undo_value {r : Saved} (h : cs.undo read fpRsp u = some v) (hr : r ∉ cs.saved) :
    v.value r = u.value r := by
  induction cs generalizing u with
  | nil => rw [Option.some.inj h]
  | cons c cs ih =>
    obtain ⟨off, op⟩ := c
    rw [saved_cons, List.mem_append, not_or] at hr
    obtain ⟨w, hw, hv⟩ := Option.bind_eq_some_iff.mp h
    rw [ih hv hr.2]
    exact PrologOp.undo_value hw fun he => hr.1 (by rw [he]; exact List.mem_singleton_self r)

/-- A register that is saved once ends with what was read for its save. -/
theorem undo_save {off : UInt8} {op : PrologOp} {r : Saved} {n : ℕ}
    (h : cs.undo read fpRsp u = some v) (hnd : cs.saved.Nodup) (hc : (off, op) ∈ cs)
    (hs : op.save = some (r, n)) :
    ∃ b, read (satAdd fpRsp n) r.width = some b ∧ v.value r = fromLe b % 256 ^ r.width := by
  induction cs generalizing u with
  | nil => exact absurd hc List.not_mem_nil
  | cons c cs ih =>
    obtain ⟨off', op'⟩ := c
    obtain ⟨w, hw, hv⟩ := Option.bind_eq_some_iff.mp h
    rw [saved_cons, List.nodup_append] at hnd
    rcases List.mem_cons.mp hc with heq | htail
    · obtain ⟨rfl, rfl⟩ := Prod.mk.inj heq
      have hr : r ∉ Codes.saved cs := by
        intro hm
        refine hnd.2.2 r ?_ r hm rfl
        rw [PrologOp.saved_of_save hs]
        exact List.mem_singleton_self r
      rw [PrologOp.undo_of_save hs] at hw
      obtain ⟨b, hb, hval⟩ := Unwinding.load_value hw
      exact ⟨b, hb, (undo_value hv hr).trans hval⟩
    · exact ih hv hnd.2.1 htail

end Codes

/-! ### The two other failures -/

/-- A number whose lowest byte is zero is not one. -/
theorem fromLe_mod_ne_one {m : ByteMap} {a n : ℕ} {b : List UInt8} (hb : m.read a n = some b)
    (hn : 0 < n) (h0 : m a = some 0) : fromLe b % 256 ^ n ≠ 1 := by
  obtain ⟨hlen, hb⟩ := ByteMap.read_eq_some.mp hb
  cases b with
  | nil => simp at hlen; omega
  | cons b bs =>
    have hb0 : b = 0 := by
      have h1 := hb 0 (Nat.zero_lt_succ _)
      rw [Nat.add_zero, h0] at h1
      exact (Option.some.inj h1).symm
    subst hb0
    intro h1
    have hdvd : 256 ∣ 256 ^ n := dvd_pow_self 256 (by omega)
    have h2 : fromLe (0 :: bs) % 256 = 1 % 256 := by rw [← h1, Nat.mod_mod_of_dvd _ hdvd]
    rw [fromLe_cons] at h2
    simp at h2

namespace UnwindData

variable {u : UnwindData} {d : ℕ}

/-- **On an info without a chain, on the stage**: the walk succeeds, and the caller is what comes
out of it. -/
theorem Inverts.stage_root (h : u.Inverts d) (hw : u.WellFormed) (hfit : u.total + d ≤ 2 ^ 62)
    (caller : UnwindContext) (hR : caller.rsp.toNat = 2 ^ 63) :
    ∃ (m : ByteMap) (f : PrologFrame) (ctx : UnwindContext) (v : Unwinding) (bottom : ℕ),
      bottom + u.own.codes.total = 2 ^ 63 - 8 ∧ 2 ^ 34 + d ≤ bottom ∧
      ctx.rsp.toNat + d = bottom ∧ u.own.codes.Ran u.own
        (zeroMem.write (2 ^ 63 - 8) (toLe 8 caller.rip.toNat)) caller.gpr caller.xmm
        [(2 ^ 63 - 8, 8)] bottom u.own.codes.total u.own.baseHeight f ∧
      (∀ a, 2 ^ 34 ≤ a → a < 2 ^ 64 → m a = f.mem a) ∧
      u.own.codes.undo m.read (u.own.codeBase ctx) ⟨ctx.rsp.toNat, ctx.gpr, ctx.xmm⟩ = some v ∧
      popReturn m.read v = some (u.callerCtx caller ctx) := by
  have hchain := h.chain hw hfit
  have hinh := hw.root hchain
  obtain ⟨m, rva, fuel, r, hb, h0, hat, -, hstack, hrsp, hctx, hv, hr⟩ := h.stage hw hfit caller hR
  have htotal : u.total = u.own.codes.total := by
    rw [total, hchain]
    rfl
  have hrun : u.run (.enter caller zeroMem) = u.own.run (.enter caller zeroMem) := by
    rw [run, hchain]
    rfl
  rw [hrun] at hstack hrsp hctx hv hr
  have hbottom : (PrologFrame.enter caller zeroMem).rsp =
      2 ^ 63 - 8 - u.total + u.own.codes.total := by
    change caller.rsp.toNat - 8 = _
    omega
  have hran := Prolog.run_ran hw.own hinh hbottom
  have hstart : PrologFrame.enter caller zeroMem =
      ⟨2 ^ 63 - 8, caller.gpr, caller.xmm, zeroMem.write (2 ^ 63 - 8) (toLe 8 caller.rip.toNat),
        2 ^ 63 - 8, [(2 ^ 63 - 8, 8)]⟩ := by
    rw [PrologFrame.enter, hR]
  set f := u.own.run (.enter caller zeroMem) with hf
  rw [hstart] at hran
  cases fuel with
  | zero => cases hv
  | succ fuel =>
    have hat : u.At m 0 (RuntimeFunction.unwindData ⟨0, 0, rva⟩) := hat
    obtain ⟨res, hres, hroot⟩ := virtualUnwind_root hb hw.own.count hchain h0 hat fuel
      ⟨0, BitVec.ofNat 64 (f.rsp - d), f.gpr, fun _ => 0⟩
    rw [hroot] at hv
    obtain ⟨c, hc, rfl⟩ := Option.map_eq_some_iff.mp hv
    rw [hres] at hr
    subst hr
    obtain ⟨v, hv, hpop⟩ := Option.bind_eq_some_iff.mp hc
    exact ⟨m, f, _, v, 2 ^ 63 - 8 - u.total, by omega, by omega, by omega, hran, hstack, hv, hpop⟩

/-- **A body that lowers the stack pointer is never unwound right**: the walk starts there, and
not at the frame pointer. -/
theorem Inverts.lowered (h : u.Inverts d) (hw : u.WellFormed) (hfit : u.total + d ≤ 2 ^ 62) :
    d = 0 := by
  by_contra hd
  obtain ⟨m, f, ctx, v, bottom, htop, hlo, hctx, hran, hstack, hv, hpop⟩ :=
    h.stage_root hw hfit ⟨1, BitVec.ofNat 64 (2 ^ 63), fun _ => 0, fun _ => 0⟩ (by decide)
  have hrsp := Codes.undo_rsp hv (by simp only; omega)
  simp only at hrsp
  obtain ⟨b, hb, hc⟩ := Option.bind_eq_some_iff.mp hpop
  have hrip : BitVec.ofNat 64 (fromLe b) = 1 :=
    congrArg UnwindContext.rip (Option.some.inj hc)
  have hone : fromLe b % 256 ^ 8 = 1 := by
    have := congrArg BitVec.toNat hrip
    simpa using this
  refine fromLe_mod_ne_one hb (by decide) ?_ hone
  rw [hstack v.rsp (by omega) (by omega)]
  refine hran.byte_zero ?_ fun x hx i hi hlt => ?_
  · rw [ByteMap.write_of_notMem (by omega), zeroMem, if_pos (by omega)]
  · have hval : x.1.value (fun _ => 0) (fun _ => 0) = 0 := by cases x.1 <;> rfl
    rw [hval]
    exact Codes.getElem?_toLe_zero hlt

/-- **A save without a frame pointer is never unwound right**: it is sought above its slot. -/
theorem Inverts.saves (h : u.Inverts d) (hw : u.WellFormed) (hfit : u.total + d ≤ 2 ^ 62)
    (hfr : u.own.frameRegister = 0) : ∀ c ∈ u.own.codes, c.2.save = none := by
  by_contra hn
  push Not at hn
  obtain ⟨⟨off, op⟩, hc, hs⟩ := hn
  obtain ⟨⟨r, n⟩, hs⟩ := Option.ne_none_iff_exists'.mp hs
  have hchain := h.chain hw hfit
  have hinh := hw.root hchain
  obtain rfl := h.lowered hw hfit
  -- a caller whose register is one, and everything else zero
  let G : Gprs := fun i => if r = .gpr i then 1 else 0
  let X : Xmms := fun i => if r = .xmm i then 1 else 0
  have hval (s : Saved) : s.value G X = if r = s then 1 else 0 := by
    cases s with
    | gpr i =>
      change (if r = .gpr i then (1 : BitVec 64) else 0).toNat = _
      split <;> rfl
    | xmm i =>
      change (if r = .xmm i then (1 : BitVec 128) else 0).toNat = _
      split <;> rfl
  obtain ⟨m, f, ctx, v, bottom, htop, hlo, hctx, hran, hstack, hv, hpop⟩ :=
    h.stage_root hw hfit ⟨0, BitVec.ofNat 64 (2 ^ 63), G, X⟩
      (show (BitVec.ofNat 64 (2 ^ 63)).toNat = 2 ^ 63 by decide)
  have hsaves := Codes.mem_saves_of_save u.own.codes.total u.own.baseHeight hc hs
  have hheight : u.own.baseHeight = 0 := if_pos hfr
  have hn := PrologOp.save_lt hs
  have hinside := hw.own.inside hinh
  -- the first walk ends above the base
  have hbase : ctx.rsp.toNat < u.own.codeBase ctx := by
    rw [Prolog.codeBase, if_neg (by simpa using hfr)]
    refine lt_entryRsp hw.own.nonvolatile hw.own.alloc (hw.own.noFp hfr) ⟨_, hc, by simp [hs]⟩ ?_
      (by omega)
    intro c hc x hx
    have hm := Codes.mem_saves_of_save u.own.codes.total u.own.baseHeight hc
      (r := x.1) (n := x.2) hx
    have := hinside _ hm
    simp only [hheight] at this
    omega
  -- what is read there has zero as its lowest byte
  obtain ⟨b, hb, hvr⟩ := Codes.undo_save hv hw.own.once hc hs
  have hone : v.value r = 1 := by
    obtain ⟨b', -, hc'⟩ := Option.bind_eq_some_iff.mp hpop
    have hctx' := Option.some.inj hc'
    have hgpr : v.gpr = _ := congrArg UnwindContext.gpr hctx'
    have hxmm : v.xmm = _ := congrArg UnwindContext.xmm hctx'
    have hmem : r ∈ u.saved := by
      rw [saved, hchain, List.flatMap_nil, List.append_nil, ← Codes.saves_map_fst u.own.codes.total
        u.own.baseHeight]
      exact List.mem_map_of_mem hsaves
    rw [Unwinding.value, hgpr, hxmm]
    have := hval r
    rw [if_pos rfl] at this
    rw [← this]
    cases r with
    | gpr i => exact congrArg BitVec.toNat (if_pos hmem)
    | xmm i => exact congrArg BitVec.toNat (if_pos hmem)
  refine fromLe_mod_ne_one hb r.width_pos ?_ (hvr.symm.trans hone)
  have hsat := satAdd_lt (u.own.codeBase ctx) n
  have hge : bottom + n < satAdd (u.own.codeBase ctx) n := by
    unfold satAdd
    omega
  rw [hstack _ (by omega) hsat]
  refine hran.byte_zero ?_ fun x hx i hi hlt => ?_
  · change zeroMem.write (2 ^ 63 - 8) (toLe 8 0) _ = some 0
    by_cases hin : 2 ^ 63 - 8 ≤ satAdd (u.own.codeBase ctx) n ∧
        satAdd (u.own.codeBase ctx) n < 2 ^ 63 - 8 + 8
    · rw [ByteMap.write, if_pos (by simpa using hin)]
      exact Codes.getElem?_toLe_zero (by omega)
    · rw [ByteMap.write_of_notMem (by rw [length_toLe]; omega), zeroMem, if_pos hsat]
  · rw [hval]
    split
    · rename_i hr
      have hx' : (r, x.2) ∈ u.own.codes.saves u.own.codes.total u.own.baseHeight := by
        rw [hr]
        exact hx
      have := Codes.saves_unique hw.own.once hx' hsaves
      exact Codes.getElem?_toLe_one hlt (by omega)
    · exact Codes.getElem?_toLe_zero hlt

end UnwindData

end Wie
