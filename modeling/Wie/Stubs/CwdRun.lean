import Wie.Stubs.CurrentDirectory

/-!
# The current directory in the guest, run

The code of `GetCurrentDirectoryW` runs to its end, by cases: it returns the size that is needed, or
it copies and returns the length, or it stops in the copy, where that leaves the buffer.

## Main definitions

* `CwdCall.Counted`, `CwdCall.Copying` — the machine once the count is read, and before the copy

## Main results

* `CwdCall.ends_size`, `CwdCall.ends_copy`, `CwdCall.ends_stuck` — the three ends
* `CwdCall.right_iff` — the code is right exactly where the condition holds
* `getCurrentDirectory_right_iff` — the same after calls that change the directory
-/

namespace Wie

open X86

namespace CwdCall

variable (c : CwdCall)

/-! ### Runs -/

/-- What is known of the machine once the count is read. -/
structure Counted (s : State) : Prop where
  /-- Memory is as at the entry. -/
  mem : s.mem = c.confined.mem
  /-- String instructions go up. -/
  up : s.flags.df = false
  /-- The blob. -/
  blob : (s.gpr 8).toNat = c.cwdBlobVa
  /-- The count. -/
  count : (s.gpr 0).toNat = c.count
  /-- What is needed with the zero. -/
  needed : (s.gpr 9).toNat = c.count + 1
  /-- The other registers are as at the entry. -/
  rest : ∀ r, r ≠ 0 → r ≠ 8 → r ≠ 9 → s.gpr r = c.entry.gpr r

theorem Counted.congr {s t : State} (h : c.Counted s) (hgpr : t.gpr = s.gpr) (hmem : t.mem = s.mem)
    (hdf : t.flags.df = s.flags.df) : c.Counted t :=
  ⟨hmem.trans h.mem, hdf.trans h.up, hgpr ▸ h.blob, hgpr ▸ h.count, hgpr ▸ h.needed,
    fun r h0 h8 h9 => hgpr ▸ h.rest r h0 h8 h9⟩

theorem address_base (s : State) (r : Fin 16) {d : ℕ} (h : (s.gpr r).toNat + d < 2 ^ 64) :
    s.address ⟨r, none, d⟩ = (s.gpr r).toNat + d := by
  change (((s.gpr r).toNat + 0 + d : ℤ) % 2 ^ 64).toNat = _
  omega

/-- The count is read. -/
theorem reaches_counted : ∃ s, Reaches c.code c.base c.confined s ∧ s.rip = c.base + 17 ∧
    c.Counted s := by
  have hle : c.count ≤ 260 := c.count_le
  have hva := c.blob_top
  have hrip : c.confined.rip = c.base + 0 := c.rip
  -- the blob
  have h₁ : exec (.mov .qword (.reg 8) (.imm (fromLe (toLe 8 c.cwdBlobVa)))) (c.base + 0 + 10)
      c.confined = some ((c.confined.goTo (c.base + 10)).setReg .qword 8 c.cwdBlobVa) := by
    have hv : ((fromLe (toLe 8 c.cwdBlobVa) : ℤ) % Width.range .qword).toNat = c.cwdBlobVa := by
      rw [fromLe_toLe_of_lt (by omega)]
      change ((c.cwdBlobVa : ℤ) % 2 ^ 64).toNat = _
      omega
    change some ((c.confined.goTo _).setReg .qword 8 _) = _
    rw [hv]
  obtain ⟨s₁, hs₁⟩ : ∃ s, s = (c.confined.goTo (c.base + 10)).setReg .qword 8 c.cwdBlobVa :=
    ⟨_, rfl⟩
  have h8 : (s₁.gpr 8).toNat = c.cwdBlobVa := by
    rw [hs₁, State.setReg_gpr_self]
    change (BitVec.ofNat 64 (c.cwdBlobVa % 2 ^ 64)).toNat = _
    rw [BitVec.toNat_ofNat]
    omega
  -- the count
  have h₂ : exec (.mov .dword (.reg 0) (.mem ⟨8, none, (0 : ℕ)⟩)) (c.base + 10 + 3) s₁ =
      some ((s₁.goTo (c.base + 13)).setReg .dword 0 c.count) := by
    refine exec_load ?_
    rw [address_base s₁ 8 (by omega), h8, hs₁]
    exact c.loadLe_count
  obtain ⟨s₂, hs₂⟩ : ∃ s, s = (s₁.goTo (c.base + 13)).setReg .dword 0 c.count := ⟨_, rfl⟩
  have h0 : (s₂.gpr 0).toNat = c.count := by
    rw [hs₂, State.setReg_gpr_self, State.toNat_merge_dword]
    omega
  have haddr : s₂.address ⟨0, none, (1 : ℕ)⟩ = c.count + 1 := by
    rw [address_base s₂ 0 (by omega), h0]
  refine ⟨(s₂.goTo (c.base + 17)).setReg .dword 9 (s₂.address ⟨0, none, 1⟩),
    .at hrip (c.decode_code rfl) (h₁.trans (congrArg _ hs₁.symm))
      (.at (by rw [hs₁]; rfl) (c.decode_code rfl) (h₂.trans (congrArg _ hs₂.symm))
        (.at (by rw [hs₂]; rfl) (c.decode_code rfl) rfl .refl)), rfl, ?_⟩
  refine ⟨?_, ?_, ?_, ?_, ?_, fun r hr0 hr8 hr9 => ?_⟩
  · rw [State.setReg_mem, State.goTo_mem, hs₂, hs₁]
    rfl
  · rw [State.setReg_flags, State.goTo_flags, hs₂, hs₁]
    exact c.up
  · rw [State.setReg_gpr_of_ne _ _ (by decide), State.goTo_gpr, hs₂,
      State.setReg_gpr_of_ne _ _ (by decide), State.goTo_gpr, h8]
  · rw [State.setReg_gpr_of_ne _ _ (by decide), State.goTo_gpr, h0]
  · rw [State.setReg_gpr_self, State.toNat_merge_dword]
    change (s₂.address ⟨0, none, (1 : ℕ)⟩) % 2 ^ 32 = _
    rw [haddr]
    omega
  · rw [State.setReg_gpr_of_ne _ _ hr9, State.goTo_gpr, hs₂, State.setReg_gpr_of_ne _ _ hr0,
      State.goTo_gpr, hs₁, State.setReg_gpr_of_ne _ _ hr8]
    rfl

/-- The three tests: on to the size, or to the copy. -/
theorem reaches_branch : ∃ s, Reaches c.code c.base c.confined s ∧ c.Counted s ∧
    s.rip = if c.bufferPtr = 0 ∨ c.bufferLength = 0 ∨ c.bufferLength ≤ c.count then c.base + 49
      else c.base + 32 := by
  have htop := c.code_top
  have hle : c.count ≤ 260 := c.count_le
  obtain ⟨s₁, hr₁, hrip₁, hc₁⟩ := c.reaches_counted
  have h2 (s : State) (h : c.Counted s) : s.read .qword (.reg 2) = some c.bufferPtr := by
    change some (s.reg .qword 2) = _
    rw [State.reg_qword, h.rest 2 (by decide) (by decide) (by decide), bufferPtr]
  have h1 (s : State) (h : c.Counted s) : s.read .qword (.reg 1) = some c.bufferLength := by
    change some (s.reg .qword 1) = _
    rw [State.reg_qword, h.rest 1 (by decide) (by decide) (by decide), bufferLength]
  have h0 (s : State) (h : c.Counted s) : s.read .qword (.reg 0) = some c.count := by
    change some (s.reg .qword 0) = _
    rw [State.reg_qword, h.count]
  obtain ⟨s₂, hr₂, hg₂, hm₂, hd₂, hrip₂⟩ := reaches_compare hrip₁
    (c.decode_code (k := 17) rfl) (c.decode_code (k := 20) rfl)
    (by decide) (h2 s₁ hc₁) (h2 s₁ hc₁) holds_test_e
  have hc₂ := hc₁.congr c hg₂ hm₂ hd₂
  by_cases hptr : c.bufferPtr = 0
  · refine ⟨s₂, hr₁.trans hr₂, hc₂, ?_⟩
    rw [hrip₂, if_pos hptr, if_pos (.inl hptr)]
    exact jumpTarget_eq (by omega) (by omega)
  rw [if_neg hptr] at hrip₂
  obtain ⟨s₃, hr₃, hg₃, hm₃, hd₃, hrip₃⟩ := reaches_compare hrip₂
    (c.decode_code (k := 22) rfl) (c.decode_code (k := 25) rfl)
    (by decide) (h1 s₂ hc₂) (h1 s₂ hc₂) holds_test_e
  have hc₃ := hc₂.congr c hg₃ hm₃ hd₃
  by_cases hlen : c.bufferLength = 0
  · refine ⟨s₃, (hr₁.trans hr₂).trans hr₃, hc₃, ?_⟩
    rw [hrip₃, if_pos hlen, if_pos (.inr (.inl hlen))]
    exact jumpTarget_eq (by omega) (by omega)
  rw [if_neg hlen] at hrip₃
  obtain ⟨s₄, hr₄, hg₄, hm₄, hd₄, hrip₄⟩ := reaches_compare hrip₃
    (c.decode_code (k := 27) rfl) (c.decode_code (k := 30) rfl)
    (by decide) (h1 s₃ hc₃) (h0 s₃ hc₃)
    (holds_cmp_be (c.entry.gpr 1).isLt (show c.count < 2 ^ 64 by omega))
  refine ⟨s₄, ((hr₁.trans hr₂).trans hr₃).trans hr₄, hc₃.congr c hg₄ hm₄ hd₄, ?_⟩
  rw [hrip₄]
  by_cases hfit : c.bufferLength ≤ c.count
  · rw [if_pos hfit, if_pos (.inr (.inr hfit))]
    exact jumpTarget_eq (by omega) (by omega)
  · rw [if_neg hfit, if_neg (by
      rintro (h | h | h)
      · exact hptr h
      · exact hlen h
      · exact hfit h)]

/-! ### The size -/

theorem toNat_rsp (k : ℕ) (hk : k ≤ 0x1000) :
    (c.entry.gpr 4 - .ofNat 64 k).toNat = c.rsp - k := by
  have h := c.stack_room.1
  have hlt := (c.entry.gpr 4).isLt
  rw [BitVec.toNat_sub, BitVec.toNat_ofNat, rsp]
  omega

theorem loadLe_return {m : Flat} (hr : m.readable = c.entry.mem.readable)
    (hm : ∀ x, c.rsp ≤ x → x < c.rsp + 8 → m.byte x = c.entry.mem.byte x) :
    m.loadLe c.rsp 8 = some c.returnAddress := by
  have hroom := c.stack_room.1
  rw [Flat.loadLe_eq, Flat.get_congr hm, returnAddress]
  intro x h1 h2
  rw [hr]
  refine c.entry.mem.readable_of_writable x (c.stack x ?_ ?_)
  · rw [rsp] at h1
    omega
  · rw [rsp] at h2
    omega

/-- The return to the caller is an end. -/
theorem ends_return {t : State} (h : t.rip = c.returnAddress) : X86.Ends c.code c.base t t := by
  refine .out ?_
  rw [h, c.length_code]
  exact c.outside

/-- The size is returned. -/
theorem ends_size {s : State} (h : c.Counted s) (hrip : s.rip = c.base + 49) :
    ∃ t, X86.Ends c.code c.base s t ∧ t.rip = c.returnAddress ∧ (t.gpr 0).toNat = c.count + 1 ∧
      t.mem = c.confined.mem ∧ t.gpr 4 = c.entry.gpr 4 + 8 ∧
      ∀ r ∈ nonvolatile, t.gpr r = c.entry.gpr r := by
  have hle : c.count ≤ 260 := c.count_le
  obtain ⟨s₁, hs₁⟩ : ∃ s₁, s₁ = (s.goTo (c.base + 52)).setReg .dword 0 (s.reg .dword 9) := ⟨_, rfl⟩
  have hgpr (r : Fin 16) (h0 : r ≠ 0) : s₁.gpr r = s.gpr r := by
    rw [hs₁, State.setReg_gpr_of_ne _ _ h0, State.goTo_gpr]
  have h4 : s₁.gpr 4 = c.entry.gpr 4 :=
    (hgpr 4 (by decide)).trans (h.rest 4 (by decide) (by decide) (by decide))
  have hload : s₁.mem.loadLe (s₁.gpr 4).toNat 8 = some c.returnAddress := by
    rw [h4, hs₁, State.setReg_mem, State.goTo_mem, h.mem]
    exact c.loadLe_return rfl fun _ _ _ => rfl
  have hreach : Reaches c.code c.base s ((s₁.goTo c.returnAddress).setGpr 4 (s₁.gpr 4 + 8)) :=
    .at hrip (c.decode_code (k := 49) rfl) (congrArg some hs₁.symm)
      (.at (by rw [hs₁]; rfl) (c.decode_code (k := 52) rfl) (exec_ret hload) .refl)
  refine ⟨_, hreach.ends (c.ends_return rfl), rfl, ?_, ?_, ?_, fun r hr => ?_⟩
  · rw [State.setGpr_gpr_of_ne _ (by decide), State.goTo_gpr, hs₁, State.setReg_gpr_self,
      State.toNat_merge_dword]
    change (s.gpr 9).toNat % 2 ^ 32 % 2 ^ 32 = _
    rw [h.needed]
    omega
  · rw [← h.mem, hs₁]
    rfl
  · rw [State.setGpr_gpr_self, h4]
  · have hne : r ≠ 4 ∧ r ≠ 0 ∧ r ≠ 8 ∧ r ≠ 9 := by
      revert hr
      revert r
      decide
    rw [State.setGpr_gpr_of_ne _ hne.1, State.goTo_gpr, hgpr r hne.2.1]
    exact h.rest r hne.2.1 hne.2.2.1 hne.2.2.2

/-! ### The copy -/

/-- The machine before the copy. -/
structure Copying (s : State) : Prop where
  /-- At the string instruction. -/
  rip : s.rip = c.base + 44
  /-- String instructions go up. -/
  up : s.flags.df = false
  /-- Two registers are saved. -/
  mem : s.mem = (c.confined.mem.set (c.rsp - 8) 8 (c.entry.gpr 6).toNat).set (c.rsp - 16) 8
    (c.entry.gpr 7).toNat
  /-- The path in the blob. -/
  source : (s.gpr 6).toNat = c.cwdBlobVa + 4
  /-- The buffer. -/
  target : (s.gpr 7).toNat = c.bufferPtr
  /-- The units with the zero. -/
  units : (s.gpr 1).toNat = c.count + 1
  /-- The count. -/
  count : (s.gpr 0).toNat = c.count
  /-- The stack. -/
  stack : s.gpr 4 = c.entry.gpr 4 - 16
  /-- Registers that are not used. -/
  rest : ∀ r ∈ nonvolatile, r ≠ 6 → r ≠ 7 → s.gpr r = c.entry.gpr r

/-- The stack of the callee can be written, also when nothing but the buffer can be besides. -/
theorem rw_scratch {a : ℕ} (h1 : c.rsp - 16 ≤ a) (h2 : a + 8 ≤ c.rsp) : c.confined.mem.Rw a 8 := by
  intro x hx1 hx2
  have hroom := c.stack_room.1
  refine Flat.writable_confine.mpr ⟨c.stack x ?_ ?_, ?_⟩
  · rw [rsp] at h1
    omega
  · rw [rsp] at h2
    omega
  · rw [mayWrite, decide_eq_true_eq]
    exact .inr ⟨by omega, by omega⟩

theorem reaches_copying {s : State} (h : c.Counted s) (hrip : s.rip = c.base + 32) :
    ∃ t, Reaches c.code c.base s t ∧ c.Copying t := by
  have hle : c.count ≤ 260 := c.count_le
  have hroom : 0x1000 ≤ c.rsp := c.stack_room.1
  have hva := c.blob_top
  have h4 : s.gpr 4 = c.entry.gpr 4 := h.rest 4 (by decide) (by decide) (by decide)
  have ha₁ : (s.gpr 4 - 8).toNat = c.rsp - 8 := by
    rw [h4]
    exact c.toNat_rsp 8 (by omega)
  -- RSI
  obtain ⟨s₁, hs₁⟩ : ∃ s₁, s₁ = ((s.goTo (c.base + 33)).setGpr 4 (s.gpr 4 - 8)).setMem
    (s.mem.set (s.gpr 4 - 8).toNat 8 (s.gpr 6).toNat) := ⟨_, rfl⟩
  have e₁ : exec (.push 6) (c.base + 32 + 1) s = some s₁ := by
    rw [hs₁]
    exact exec_push (by
      rw [ha₁, h.mem]
      exact c.rw_scratch (by omega) (by omega))
  have h4₁ : s₁.gpr 4 - 8 = c.entry.gpr 4 - 16 := by
    rw [hs₁, State.setMem_gpr, State.setGpr_gpr_self, h4, BitVec.sub_sub]
    rfl
  have ha₂ : (s₁.gpr 4 - 8).toNat = c.rsp - 16 := by
    rw [h4₁]
    exact c.toNat_rsp 16 (by omega)
  -- RDI
  obtain ⟨s₂, hs₂⟩ : ∃ s₂, s₂ = ((s₁.goTo (c.base + 34)).setGpr 4 (s₁.gpr 4 - 8)).setMem
    (s₁.mem.set (s₁.gpr 4 - 8).toNat 8 (s₁.gpr 7).toNat) := ⟨_, rfl⟩
  have e₂ : exec (.push 7) (c.base + 33 + 1) s₁ = some s₂ := by
    rw [hs₂]
    refine exec_push ?_
    rw [ha₂, hs₁, State.setMem_mem, h.mem]
    exact (c.rw_scratch le_rfl (by omega)).congr rfl
  have hg₂ (r : Fin 16) (hr : r ≠ 4) : s₂.gpr r = s.gpr r := by
    rw [hs₂, State.setMem_gpr, State.setGpr_gpr_of_ne _ hr, State.goTo_gpr, hs₁, State.setMem_gpr,
      State.setGpr_gpr_of_ne _ hr, State.goTo_gpr]
  -- the operands of the copy
  obtain ⟨s₃, hs₃⟩ : ∃ s₃, s₃ = (s₂.goTo (c.base + 38)).setReg .qword 6
    (s₂.address ⟨8, none, (4 : ℕ)⟩) := ⟨_, rfl⟩
  obtain ⟨s₄, hs₄⟩ : ∃ s₄, s₄ = (s₃.goTo (c.base + 41)).setReg .qword 7 (s₃.reg .qword 2) :=
    ⟨_, rfl⟩
  obtain ⟨s₅, hs₅⟩ : ∃ s₅, s₅ = (s₄.goTo (c.base + 44)).setReg .dword 1
    (s₄.address ⟨0, none, (1 : ℕ)⟩) := ⟨_, rfl⟩
  have hg₃ (r : Fin 16) (hr : r ≠ 6) : s₃.gpr r = s₂.gpr r := by
    rw [hs₃, State.setReg_gpr_of_ne _ _ hr, State.goTo_gpr]
  have hg₄ (r : Fin 16) (hr : r ≠ 7) : s₄.gpr r = s₃.gpr r := by
    rw [hs₄, State.setReg_gpr_of_ne _ _ hr, State.goTo_gpr]
  have hg₅ (r : Fin 16) (hr : r ≠ 1) : s₅.gpr r = s₄.gpr r := by
    rw [hs₅, State.setReg_gpr_of_ne _ _ hr, State.goTo_gpr]
  have h0 : s₄.gpr 0 = s.gpr 0 := by
    rw [hg₄ 0 (by decide), hg₃ 0 (by decide), hg₂ 0 (by decide)]
  have h8 : (s₂.gpr 8).toNat = c.cwdBlobVa := by rw [hg₂ 8 (by decide), h.blob]
  have hreach : Reaches c.code c.base s s₅ :=
    .at hrip (c.decode_code (k := 32) rfl) e₁
      (.at (by rw [hs₁]; rfl) (c.decode_code (k := 33) rfl) e₂
        (.at (by rw [hs₂]; rfl) (c.decode_code (k := 34) rfl) (congrArg some hs₃.symm)
          (.at (by rw [hs₃]; rfl) (c.decode_code (k := 38) rfl) (congrArg some hs₄.symm)
            (.at (by rw [hs₄]; rfl) (c.decode_code (k := 41) rfl) (congrArg some hs₅.symm) .refl))))
  refine ⟨s₅, hreach, ?_⟩
  have hm : s₅.mem = s₂.mem := by
    rw [hs₅, hs₄, hs₃]
    rfl
  have hf : s₅.flags = s.flags := by
    rw [hs₅, hs₄, hs₃, hs₂, hs₁]
    rfl
  refine ⟨by rw [hs₅]; rfl, by rw [hf, h.up], ?_, ?_, ?_, ?_, ?_, ?_, fun r hr h6 h7 => ?_⟩
  · have h7 : s₁.gpr 7 = c.entry.gpr 7 := by
      rw [hs₁, State.setMem_gpr, State.setGpr_gpr_of_ne _ (by decide), State.goTo_gpr,
        h.rest 7 (by decide) (by decide) (by decide)]
    rw [hm, hs₂, State.setMem_mem, ha₂, h7, hs₁, State.setMem_mem, ha₁, h.mem,
      h.rest 6 (by decide) (by decide) (by decide)]
  · rw [hg₅ 6 (by decide), hg₄ 6 (by decide), hs₃, State.setReg_gpr_self]
    change (BitVec.ofNat 64 (_ % 2 ^ 64)).toNat = _
    rw [address_base s₂ 8 (by omega), h8, BitVec.toNat_ofNat]
    omega
  · rw [hg₅ 7 (by decide), hs₄, State.setReg_gpr_self, State.reg_qword, State.merge_qword,
      hg₃ 2 (by decide), hg₂ 2 (by decide), h.rest 2 (by decide) (by decide) (by decide), bufferPtr]
  · rw [hs₅, State.setReg_gpr_self, State.toNat_merge_dword,
      address_base s₄ 0 (by rw [h0, h.count]; omega), h0, h.count]
    omega
  · rw [hg₅ 0 (by decide), h0, h.count]
  · rw [hg₅ 4 (by decide), hg₄ 4 (by decide), hg₃ 4 (by decide), hs₂, State.setMem_gpr,
      State.setGpr_gpr_self, h4₁]
  · have hne : r ≠ 4 ∧ r ≠ 0 ∧ r ≠ 8 ∧ r ≠ 9 ∧ r ≠ 1 := by
      revert hr
      clear h6 h7
      revert r
      decide
    rw [hg₅ r hne.2.2.2.2, hg₄ r h7, hg₃ r h6, hg₂ r hne.1]
    exact h.rest r hne.2.1 hne.2.2.1 hne.2.2.2.1

/-- What the copy reads. -/
def SourceReadable : Prop := ∀ x, c.cwdBlobVa + 4 ≤ x → x < c.cwdBlobVa + 4 + (c.count + 1) * 4 →
  c.entry.mem.readable x = true

/-- What the copy writes is in the buffer. -/
theorem rw_target (hptr : c.bufferPtr ≠ 0) (hfit : 2 * (c.count + 1) ≤ c.bufferLength) :
    c.confined.mem.Rw c.bufferPtr ((c.count + 1) * 4) := by
  intro x h1 h2
  have hne : c.entry.gpr 2 ≠ 0 := fun h => hptr (by rw [bufferPtr, h]; rfl)
  refine Flat.writable_confine.mpr ⟨(c.buffer hne).1 x h1 ?_, ?_⟩
  · rw [bufferLength] at hfit
    rw [bufferPtr] at h2
    omega
  · rw [mayWrite, decide_eq_true_eq]
    exact .inl ⟨hptr, h1, by omega⟩

/-- The room of a buffer that takes the path. -/
theorem buffer_room (hptr : c.bufferPtr ≠ 0) (hlen : c.count < c.bufferLength) :
    c.bufferPtr + (c.count + 1) * 4 < 2 ^ 64 ∧
      (c.bufferPtr + (c.count + 1) * 4 ≤ c.rsp - 16 ∨ c.rsp + 8 ≤ c.bufferPtr) := by
  have hne : c.entry.gpr 2 ≠ 0 := fun h => hptr (by rw [bufferPtr, h]; rfl)
  have hle : c.count ≤ 260 := c.count_le
  have h1 := (c.buffer hne).2
  have h2 := (c.buffer_apart hne).2
  have h3 := c.stack_room.1
  unfold bufferLength at hlen
  unfold bufferPtr rsp
  omega

/-- **A copy that fits** ends at the caller. -/
theorem ends_copy {s : State} (h : c.Copying s) (hptr : c.bufferPtr ≠ 0)
    (hfit : 2 * (c.count + 1) ≤ c.bufferLength) (hread : c.SourceReadable) :
    ∃ t, X86.Ends c.code c.base s t ∧ t.rip = c.returnAddress ∧ (t.gpr 0).toNat = c.count ∧
      t.gpr 4 = c.entry.gpr 4 + 8 ∧ (∀ r ∈ nonvolatile, t.gpr r = c.entry.gpr r) ∧
      ∀ x, c.InBuffer x → t.mem.byte x = (c.entry.mem.put c.bufferPtr
        (c.entry.mem.bytes (c.cwdBlobVa + 4) ((c.count + 1) * 4))).byte x := by
  have hle : c.count ≤ 260 := c.count_le
  have hroom : 0x1000 ≤ c.rsp ∧ c.rsp + 8 < 2 ^ 64 := c.stack_room
  have hva := c.blob_top
  have hne : c.entry.gpr 2 ≠ 0 := fun h => hptr (by rw [bufferPtr, h]; rfl)
  obtain ⟨htop, hstack⟩ := c.buffer_room hptr (by omega)
  have hdata : c.bufferPtr + 2 * c.bufferLength ≤ c.cwdBlobVa ∨
      c.cwdBlobVa + 0x800 ≤ c.bufferPtr := (c.buffer_apart hne).1
  have hbstack : c.bufferPtr + 2 * c.bufferLength ≤ c.rsp - 0x1000 ∨ c.rsp + 8 ≤ c.bufferPtr :=
    (c.buffer_apart hne).2
  have hsdata : c.cwdBlobVa + 0x800 ≤ c.rsp - 0x1000 ∨ c.rsp + 8 ≤ c.cwdBlobVa := c.stack_apart
  have hw : Width.bytes .dword = 4 := rfl
  have hreadable : s.mem.readable = c.entry.mem.readable := by rw [h.mem]; rfl
  have hwritable : s.mem.writable = c.confined.mem.writable := by rw [h.mem]; rfl
  obtain ⟨t, ht, hrip, -, hgpr, hmem⟩ := repMovs_reaches (c.decode_code (k := 44) rfl) h.rip h.up
    h.units
    (by
      rw [h.source, hreadable, hw]
      exact hread)
    (by
      rw [h.target, hw]
      exact (c.rw_target hptr hfit).congr hwritable)
    (by rw [h.source, h.target, hw]; omega) (by rw [h.source, hw]; omega)
    (by rw [h.target, hw]; omega)
  rw [h.source, h.target, hw] at hmem
  have h4 : t.gpr 4 = c.entry.gpr 4 - 16 :=
    (hgpr 4 (by decide) (by decide) (by decide)).trans h.stack
  -- the copy leaves the stack alone
  have hsaved (a : ℕ) (h1 : c.rsp - 16 ≤ a) (h2 : a + 8 ≤ c.rsp + 8) :
      t.mem.loadLe a 8 = some (s.mem.get a 8) := by
    have hr : ∀ x, a ≤ x → x < a + 8 → t.mem.readable x = true := by
      intro x hx1 hx2
      rw [hmem, Flat.readable_put, hreadable]
      refine c.entry.mem.readable_of_writable x (c.stack x ?_ ?_)
      · rw [rsp] at h1
        omega
      · rw [rsp] at h2
        have := hroom.1
        rw [rsp] at this
        omega
    rw [Flat.loadLe_eq hr, hmem]
    refine congrArg some (Flat.get_congr fun x hx1 hx2 => Flat.byte_put_of_notMem ?_)
    rw [Flat.length_bytes]
    omega
  have hrdi : s.mem.get (c.rsp - 16) 8 = (c.entry.gpr 7).toNat := by
    rw [h.mem, Flat.get_set_of_lt (c.entry.gpr 7).isLt]
  have hrsi : s.mem.get (c.rsp - 8) 8 = (c.entry.gpr 6).toNat := by
    rw [h.mem, Flat.get_set_of_disjoint (by omega), Flat.get_set_of_lt (c.entry.gpr 6).isLt]
  have hret : s.mem.get c.rsp 8 = c.returnAddress := by
    rw [h.mem, Flat.get_set_of_disjoint (by omega), Flat.get_set_of_disjoint (by omega)]
    rfl
  have e₁ : exec (.pop 7) (c.base + 46 + 1) t = some (((t.goTo (c.base + 47)).setGpr 4
      (t.gpr 4 + 8)).setGpr 7 (c.entry.gpr 7)) := by
    have hld : t.mem.loadLe (t.gpr 4).toNat 8 = some (c.entry.gpr 7).toNat := by
      have ha : (t.gpr 4).toNat = c.rsp - 16 := h4 ▸ c.toNat_rsp 16 (by omega)
      rw [ha, hsaved _ le_rfl (by omega), hrdi]
    rw [exec_pop hld, BitVec.ofNat_toNat, BitVec.setWidth_eq]
  obtain ⟨t₁, ht₁⟩ : ∃ t₁, t₁ = ((t.goTo (c.base + 47)).setGpr 4 (t.gpr 4 + 8)).setGpr 7
    (c.entry.gpr 7) := ⟨_, rfl⟩
  have h4₁ : t₁.gpr 4 = c.entry.gpr 4 - 8 := by
    rw [ht₁, State.setGpr_gpr_of_ne _ (by decide), State.setGpr_gpr_self, h4]
    bv_omega
  have e₂ : exec (.pop 6) (c.base + 47 + 1) t₁ = some (((t₁.goTo (c.base + 48)).setGpr 4
      (t₁.gpr 4 + 8)).setGpr 6 (c.entry.gpr 6)) := by
    have hld : t₁.mem.loadLe (t₁.gpr 4).toNat 8 = some (c.entry.gpr 6).toNat := by
      have ha : (t₁.gpr 4).toNat = c.rsp - 8 := h4₁ ▸ c.toNat_rsp 8 (by omega)
      rw [ha, ht₁, State.setGpr_mem, State.setGpr_mem, State.goTo_mem,
        hsaved _ (by omega) (by omega), hrsi]
    rw [exec_pop hld, BitVec.ofNat_toNat, BitVec.setWidth_eq]
  obtain ⟨t₂, ht₂⟩ : ∃ t₂, t₂ = ((t₁.goTo (c.base + 48)).setGpr 4 (t₁.gpr 4 + 8)).setGpr 6
    (c.entry.gpr 6) := ⟨_, rfl⟩
  have h4₂ : t₂.gpr 4 = c.entry.gpr 4 := by
    rw [ht₂, State.setGpr_gpr_of_ne _ (by decide), State.setGpr_gpr_self, h4₁]
    bv_omega
  have hm₂ : t₂.mem = t.mem := by
    rw [ht₂, ht₁]
    rfl
  have e₃ : exec .ret (c.base + 48 + 1) t₂ =
      some ((t₂.goTo c.returnAddress).setGpr 4 (t₂.gpr 4 + 8)) := by
    refine exec_ret ?_
    rw [h4₂, hm₂, ← hret]
    exact hsaved c.rsp (by omega) le_rfl
  have hg (r : Fin 16) (h4 : r ≠ 4) (h6 : r ≠ 6) (h7 : r ≠ 7) : t₂.gpr r = t.gpr r := by
    rw [ht₂, State.setGpr_gpr_of_ne _ h6, State.setGpr_gpr_of_ne _ h4, State.goTo_gpr, ht₁,
      State.setGpr_gpr_of_ne _ h7, State.setGpr_gpr_of_ne _ h4, State.goTo_gpr]
  have hreach : Reaches c.code c.base s ((t₂.goTo c.returnAddress).setGpr 4 (t₂.gpr 4 + 8)) :=
    ht.trans (Reaches.at hrip (c.decode_code (k := 46) rfl) (e₁.trans (congrArg some ht₁.symm))
      (.at (by rw [ht₁]; rfl) (c.decode_code (k := 47) rfl) (e₂.trans (congrArg some ht₂.symm))
        (.at (by rw [ht₂]; rfl) (c.decode_code (k := 48) rfl) e₃ .refl)))
  refine ⟨_, hreach.ends (c.ends_return rfl), rfl, ?_, ?_, fun r hr => ?_, fun x hx => ?_⟩
  · rw [State.setGpr_gpr_of_ne _ (by decide), State.goTo_gpr,
      hg 0 (by decide) (by decide) (by decide), hgpr 0 (by decide) (by decide) (by decide), h.count]
  · rw [State.setGpr_gpr_self, h4₂]
  · have hne : r ≠ 4 ∧ r ≠ 1 := by
      revert hr
      revert r
      decide
    rw [State.setGpr_gpr_of_ne _ hne.1, State.goTo_gpr]
    by_cases h6 : r = 6
    · rw [h6, ht₂, State.setGpr_gpr_self]
    by_cases h7 : r = 7
    · rw [h7, ht₂, State.setGpr_gpr_of_ne _ (by decide), State.setGpr_gpr_of_ne _ (by decide),
        State.goTo_gpr, ht₁, State.setGpr_gpr_self]
    rw [hg r hne.1 h6 h7, hgpr r hne.2 h6 h7]
    exact h.rest r hr h6 h7
  · rw [State.setGpr_mem, State.goTo_mem, hm₂, hmem]
    have hsrc : s.mem.bytes (c.cwdBlobVa + 4) ((c.count + 1) * 4) =
        c.entry.mem.bytes (c.cwdBlobVa + 4) ((c.count + 1) * 4) :=
      Flat.bytes_congr fun y h1 h2 => by
        rw [h.mem, Flat.byte_set_of_notMem (by omega), Flat.byte_set_of_notMem (by omega)]
        rfl
    have hbyte : s.mem.byte x = c.entry.mem.byte x := by
      obtain ⟨-, h1, h2⟩ := hx
      rw [h.mem, Flat.byte_set_of_notMem (by omega), Flat.byte_set_of_notMem (by omega)]
      rfl
    rw [hsrc]
    change (if _ then _ else s.mem.byte x) = if _ then _ else c.entry.mem.byte x
    rw [hbyte]

/-- **A copy that does not fit** does not end at the caller. -/
theorem ends_stuck {s : State} (h : c.Copying s) (hptr : c.bufferPtr ≠ 0)
    (hlen : c.count < c.bufferLength)
    (hnot : ¬(2 * (c.count + 1) ≤ c.bufferLength ∧ c.SourceReadable)) :
    ∃ t, X86.Ends c.code c.base s t ∧ t.rip = c.base + 44 := by
  have hle : c.count ≤ 260 := c.count_le
  have hva := c.blob_top
  have hw : Width.bytes .dword = 4 := rfl
  obtain ⟨htop, hstack⟩ := c.buffer_room hptr hlen
  refine repMovs_stuck (c.decode_code (k := 44) rfl) h.rip h.up h.units
    (by rw [h.source, hw]; omega) (by rw [h.target, hw]; omega) ?_
  rw [h.source, h.target, hw]
  rintro ⟨hr, hrw⟩
  refine hnot ⟨?_, ?_⟩
  · -- the last byte written is in the buffer
    by_contra hfit
    have hlast := hrw (c.bufferPtr + (c.count + 1) * 4 - 1) (by omega) (by omega)
    rw [h.mem] at hlast
    have hmay := (Flat.writable_confine.mp hlast).2
    rw [mayWrite, decide_eq_true_eq] at hmay
    have hroom : 0x1000 ≤ c.rsp := c.stack_room.1
    rcases hmay with ⟨-, h1, h2⟩ | ⟨h1, h2⟩
    · omega
    · omega
  · rw [h.mem] at hr
    exact hr

/-! ### When the code is right -/

/-- The code is right when its run ends as the handler says, and only then. -/
theorem right_iff_of_ends {state : CwdState} {t : State} (ht : X86.Ends c.code c.base c.confined t) :
    c.Right state ↔ ∃ value mem,
      handleGetCurrentDirectoryW state c.bufferLength c.bufferPtr c.entry.mem = some (value, mem) ∧
      t.rip = c.returnAddress ∧ t.gpr 4 = c.entry.gpr 4 + 8 ∧
      (∀ r ∈ nonvolatile, t.gpr r = c.entry.gpr r) ∧ (t.gpr 0).toNat = value ∧
      ∀ x, c.InBuffer x → t.mem.byte x = mem.byte x := by
  constructor
  · rintro ⟨t', value, mem, ht', h⟩
    cases ht'.unique ht
    exact ⟨value, mem, h⟩
  · rintro ⟨value, mem, h⟩
    exact ⟨t, value, mem, ht, h⟩

theorem unitBytes_injective : Function.Injective unitBytes := by
  intro us
  induction us with
  | nil =>
    intro vs h
    have hlen := congrArg List.length h
    rw [length_unitBytes, length_unitBytes] at hlen
    exact (List.eq_nil_of_length_eq_zero (by rw [List.length_nil] at hlen; omega)).symm
  | cons u us ih =>
    intro vs h
    cases vs with
    | nil =>
      have hlen := congrArg List.length h
      rw [length_unitBytes, length_unitBytes, List.length_cons, List.length_nil] at hlen
      omega
    | cons v vs =>
      rw [unitBytes, unitBytes, List.flatMap_cons, List.flatMap_cons] at h
      obtain ⟨h1, h2⟩ := List.append_inj h (by simp)
      have huv := congrArg fromLe h1
      rw [fromLe_toLe_of_lt u.toNat_lt, fromLe_toLe_of_lt v.toNat_lt] at huv
      rw [UInt16.toNat_inj.mp huv, ih h2]

/-- The first half of what is copied can be read. -/
theorem readable_path {x : ℕ} (h1 : c.cwdBlobVa + 4 ≤ x)
    (h2 : x < c.cwdBlobVa + 4 + 2 * (c.count + 1)) : c.entry.mem.readable x = true := by
  have hle : c.count ≤ 260 := c.count_le
  have hb : c.entry.mem.loadLe c.cwdBlobVa CWD_BLOB_SIZE =
      some (fromLe (publishCwdWide c.directory)) := by
    rw [Flat.loadLe, c.blob]
    rfl
  refine Flat.readable_of_loadLe hb (by omega) ?_
  unfold CWD_BLOB_SIZE CWD_MAX_CHARS
  omega

/-- The handler, where it writes. -/
theorem handle_copy {state : CwdState} (hptr : c.bufferPtr ≠ 0)
    (hlen : state.currentDirectoryWide.length < c.bufferLength) :
    handleGetCurrentDirectoryW state c.bufferLength c.bufferPtr c.entry.mem =
      some (state.currentDirectoryWide.length,
        c.entry.mem.put c.bufferPtr (unitBytes (state.currentDirectoryWide ++ [0]))) := by
  have hne : c.entry.gpr 2 ≠ 0 := fun h => hptr (by rw [bufferPtr, h]; rfl)
  have hrw : c.entry.mem.Rw c.bufferPtr (unitBytes (state.currentDirectoryWide ++ [0])).length := by
    rw [length_unitBytes, List.length_append]
    exact (c.buffer hne).1.mono le_rfl (by
      change _ + 2 * (_ + 1) ≤ _ + 2 * c.bufferLength
      rw [bufferPtr]
      omega)
  unfold handleGetCurrentDirectoryW
  dsimp only
  rw [if_neg (by omega), hrw.store]
  rfl

/-- The handler, where it does not. -/
theorem handle_size {state : CwdState} (h : c.bufferPtr = 0 ∨ c.bufferLength = 0 ∨
    c.bufferLength ≤ state.currentDirectoryWide.length) :
    handleGetCurrentDirectoryW state c.bufferLength c.bufferPtr c.entry.mem =
      some (state.currentDirectoryWide.length + 1, c.entry.mem) := if_pos h

/-- What the two copies leave in the buffer. -/
theorem copies_agree_iff {us : List UInt16} (hus : us.length = c.count) (hptr : c.bufferPtr ≠ 0)
    (hfit : 2 * (c.count + 1) ≤ c.bufferLength) :
    (∀ x, c.InBuffer x → (c.entry.mem.put c.bufferPtr
        (c.entry.mem.bytes (c.cwdBlobVa + 4) ((c.count + 1) * 4))).byte x =
      (c.entry.mem.put c.bufferPtr (unitBytes (us ++ [0]))).byte x) ↔
    us = publishedUnits c.directory ∧ ∀ i, i < 2 * (c.count + 1) →
      c.entry.mem.byte (c.bufferPtr + 2 * (c.count + 1) + i) =
        c.entry.mem.byte (c.cwdBlobVa + 4 + 2 * (c.count + 1) + i) := by
  have hlen : (unitBytes (us ++ [0])).length = 2 * (c.count + 1) := by
    rw [length_unitBytes, List.length_append, hus]
    rfl
  have hcopy (j : ℕ) (hj : j < (c.count + 1) * 4) : (c.entry.mem.put c.bufferPtr
      (c.entry.mem.bytes (c.cwdBlobVa + 4) ((c.count + 1) * 4))).byte (c.bufferPtr + j) =
      c.entry.mem.byte (c.cwdBlobVa + 4 + j) := by
    have hlt : j < (c.entry.mem.bytes (c.cwdBlobVa + 4) ((c.count + 1) * 4)).length := by
      rwa [Flat.length_bytes]
    rw [Flat.byte_put hlt]
    simp [Flat.bytes]
  have hpath : unitBytes (us ++ [0]) = unitBytes (publishedUnits c.directory ++ [0]) ↔
      us = publishedUnits c.directory := by
    refine ⟨fun h => List.append_cancel_right (unitBytes_injective h), fun h => by rw [h]⟩
  constructor
  · intro h
    refine ⟨hpath.mp ?_, fun i hi => ?_⟩
    · rw [← c.bytes_blob.2]
      refine List.ext_getElem (by rw [hlen, Flat.length_bytes]) fun j hj _ => ?_
      have hin : c.InBuffer (c.bufferPtr + j) := ⟨hptr, by omega, by omega⟩
      have hx := h _ hin
      rw [hcopy j (by omega), Flat.byte_put hj] at hx
      rw [← hx]
      simp [Flat.bytes]
    · have hin : c.InBuffer (c.bufferPtr + (2 * (c.count + 1) + i)) := ⟨hptr, by omega, by omega⟩
      have hx := h _ hin
      rw [hcopy _ (by omega), Flat.byte_put_of_notMem (by omega), ← Nat.add_assoc,
        ← Nat.add_assoc] at hx
      exact hx.symm
  · rintro ⟨rfl, hrest⟩ x ⟨-, h1, h2⟩
    obtain ⟨j, rfl⟩ := Nat.exists_eq_add_of_le h1
    by_cases hj : j < (c.count + 1) * 4
    · rw [hcopy j hj]
      by_cases hhalf : j < 2 * (c.count + 1)
      · rw [Flat.byte_put (by omega)]
        have hb : (c.entry.mem.bytes (c.cwdBlobVa + 4) (2 * (c.count + 1)))[j]? =
            (unitBytes (publishedUnits c.directory ++ [0]))[j]? := by rw [c.bytes_blob.2]
        rw [List.getElem?_eq_getElem (by rwa [Flat.length_bytes]),
          List.getElem?_eq_getElem (by rwa [hlen]), Option.some.injEq] at hb
        rw [← hb]
        simp [Flat.bytes]
      · rw [Flat.byte_put_of_notMem (by omega)]
        obtain ⟨i, rfl⟩ := Nat.exists_eq_add_of_le (not_lt.mp hhalf)
        rw [← Nat.add_assoc, ← Nat.add_assoc]
        exact (hrest i (by omega)).symm
    · rw [Flat.byte_put_of_notMem (by rw [Flat.length_bytes]; omega),
        Flat.byte_put_of_notMem (by omega)]

/-- **The code is right exactly where the condition holds.** -/
theorem right_iff (state : CwdState) : c.Right state ↔ c.Served state := by
  obtain ⟨s, hs, hc, hrip⟩ := c.reaches_branch
  by_cases hsmall : c.bufferPtr = 0 ∨ c.bufferLength = 0 ∨ c.bufferLength ≤ c.count
  · rw [if_pos hsmall] at hrip
    obtain ⟨t, ht, hret, hrax, hmem, h4, hnv⟩ := c.ends_size hc hrip
    rw [c.right_iff_of_ends (hs.ends ht)]
    constructor
    · rintro ⟨value, mem, hh, -, -, -, hvalue, -⟩
      by_cases hcur : c.bufferPtr = 0 ∨ c.bufferLength = 0 ∨
          c.bufferLength ≤ state.currentDirectoryWide.length
      · rw [c.handle_size hcur] at hh
        cases hh
        exact ⟨by omega, fun h1 h2 => absurd hsmall (by omega)⟩
      · rw [c.handle_copy (by omega) (by omega)] at hh
        cases hh
        omega
    · rintro ⟨hlen, -⟩
      refine ⟨_, _, c.handle_size (by omega), hret, h4, hnv, by omega, fun x _ => ?_⟩
      rw [hmem]
      rfl
  · rw [if_neg hsmall] at hrip
    have hptr : c.bufferPtr ≠ 0 := fun h => hsmall (.inl h)
    have hlt : c.count < c.bufferLength := by omega
    obtain ⟨s', hs', hcopying⟩ := c.reaches_copying hc hrip
    by_cases hfit : 2 * (c.count + 1) ≤ c.bufferLength ∧ c.SourceReadable
    · obtain ⟨t, ht, hret, hrax, h4, hnv, hbuf⟩ := c.ends_copy hcopying hptr hfit.1 hfit.2
      rw [c.right_iff_of_ends (hs.ends (hs'.ends ht))]
      constructor
      · rintro ⟨value, mem, hh, -, -, -, hvalue, hbytes⟩
        by_cases hcur : c.bufferLength ≤ state.currentDirectoryWide.length
        · rw [c.handle_size (.inr (.inr hcur))] at hh
          cases hh
          omega
        · rw [c.handle_copy hptr (by omega)] at hh
          cases hh
          have hlen : state.currentDirectoryWide.length = c.count := by omega
          obtain ⟨hpath, hrest⟩ := (c.copies_agree_iff hlen hptr hfit.1).mp fun x hx =>
            (hbuf x hx).symm.trans (hbytes x hx)
          exact ⟨hlen, fun _ _ => ⟨hpath, hfit.1, fun i hi =>
            ⟨hfit.2 _ (by omega) (by omega), hrest i hi⟩⟩⟩
      · rintro ⟨hlen, hserved⟩
        obtain ⟨hpath, -, hrest⟩ := hserved hptr hlt
        refine ⟨_, _, c.handle_copy hptr (by omega), hret, h4, hnv, by omega, fun x hx => ?_⟩
        rw [hbuf x hx]
        exact (c.copies_agree_iff hlen hptr hfit.1).mpr ⟨hpath, fun i hi => (hrest i hi).2⟩ x hx
    · obtain ⟨t, ht, hstuck⟩ := c.ends_stuck hcopying hptr hlt hfit
      rw [c.right_iff_of_ends (hs.ends (hs'.ends ht))]
      constructor
      · rintro ⟨value, mem, -, hret, -⟩
        have hout : c.returnAddress < c.base ∨ c.base + 53 ≤ c.returnAddress := c.outside
        omega
      · rintro ⟨-, hserved⟩
        obtain ⟨-, hfit', hrest⟩ := hserved hptr hlt
        refine absurd ⟨hfit', fun x h1 h2 => ?_⟩ hfit
        by_cases hhalf : x < c.cwdBlobVa + 4 + 2 * (c.count + 1)
        · exact c.readable_path h1 hhalf
        · obtain ⟨i, rfl⟩ := Nat.exists_eq_add_of_le (not_lt.mp hhalf)
          exact (hrest i (by omega)).1

end CwdCall

/-- **When the code in the guest is right**: after any calls of `SetCurrentDirectoryW`, in any call,
exactly when the condition holds of the directory that is current then. -/
theorem getCurrentDirectory_right_iff (c : CwdCall) (names : DirectoryNames)
    (paths : List (Option (List Char))) :
    c.Right (afterCalls names c.directory paths) ↔ c.Served (afterCalls names c.directory paths) :=
  c.right_iff _

/-! ### A call from `C:\App` -/

/-- The directory a session starts in. -/
def appDirectory : List Char := ['C', ':', '\\', 'A', 'p', 'p']

theorem length_publishCwdWide : (publishCwdWide appDirectory).length = CWD_BLOB_SIZE := by
  decide +kernel

/-- Memory with the blob of that directory, open to every access. -/
def appMemory : Flat := Flat.blank.put 0x10000 (publishCwdWide appDirectory)

/-- A call with a buffer of some units at `0x20000`, all zeros. -/
def appCall (units : ℕ) (h : units ≤ 0x100) : CwdCall where
  base := 0x5000
  cwdBlobVa := 0x10000
  directory := appDirectory
  entry :=
    { gpr := Function.update (Function.update (Function.update (fun _ => 0) 1 (.ofNat 64 units)) 2
        0x20000) 4 0x30000
      flags := ⟨false, false, false, false⟩
      rip := 0x5000
      mem := appMemory }
  rip := rfl
  up := rfl
  code_top := by omega
  blob := by
    rw [← length_publishCwdWide, Flat.load_eq fun _ _ _ => rfl, appMemory, Flat.bytes_put]
  blob_top := by omega
  stack_room := ⟨by
    change 0x1000 ≤ 0x30000
    decide, by
    change 0x30000 + 8 < 2 ^ 64
    decide⟩
  stack := fun _ _ _ => rfl
  stack_apart := .inl (by
    change 0x10000 + 0x800 ≤ 0x30000 - 0x1000
    decide)
  outside := by
    have hzero : Flat.get appMemory 0x30000 8 = Flat.get Flat.blank 0x30000 8 :=
      Flat.get_congr fun x h1 h2 => Flat.byte_put_of_notMem (by
        rw [length_publishCwdWide, CWD_BLOB_SIZE, CWD_MAX_CHARS]
        omega)
    refine .inl ?_
    change Flat.get appMemory 0x30000 8 < 0x5000
    rw [hzero]
    decide
  buffer := fun _ => ⟨fun _ _ _ => rfl, by
    change 0x20000 + 2 * (BitVec.ofNat 64 units).toNat + 0x1000 ≤ 2 ^ 64
    rw [BitVec.toNat_ofNat]
    omega⟩
  buffer_apart := fun _ => ⟨.inr (by
    change 0x10000 + 0x800 ≤ 0x20000
    decide), .inl (by
    change 0x20000 + 2 * (BitVec.ofNat 64 units).toNat ≤ 0x30000 - 0x1000
    rw [BitVec.toNat_ofNat]
    omega)⟩

/-- Names that are taken as they are, of directories that all exist. -/
def anyNames : DirectoryNames := ⟨fun _ path => path, fun _ => true⟩

theorem bufferLength_appCall {units : ℕ} (h : units ≤ 0x100) :
    (appCall units h).bufferLength = units := by
  change (BitVec.ofNat 64 units).toNat = _
  rw [BitVec.toNat_ofNat]
  omega

/-- A buffer of zeros that takes twice the path gets it. -/
theorem getCurrentDirectory_right_zeros :
    (appCall 14 (by decide)).Right (afterCalls anyNames appDirectory [none]) := by
  refine (getCurrentDirectory_right_iff (appCall 14 (by decide)) anyNames [none]).mpr
    ⟨by decide +kernel, fun _ _ => ⟨by decide +kernel, by decide +kernel, fun i hi => ⟨rfl, ?_⟩⟩⟩
  have hi : i < 14 := hi
  have h1 : appMemory.byte (0x20000 + 14 + i) = 0 := by
    refine (Flat.byte_put_of_notMem ?_).trans rfl
    rw [length_publishCwdWide, CWD_BLOB_SIZE, CWD_MAX_CHARS]
    omega
  have h2 : ∀ i < 14, appMemory.byte (0x10000 + 4 + 14 + i) = 0 := by decide +kernel
  exact h1.trans (h2 i hi).symm

/-- A buffer that takes the path with its zero does not get it: the copy goes on past its end. And
after a change of the directory the size is that of the old one. -/
theorem not_getCurrentDirectory_right :
    ¬(appCall 7 (by decide)).Right (afterCalls anyNames appDirectory []) ∧
      ¬(appCall 0 (by decide)).Right
        (afterCalls anyNames appDirectory [some ['D', ':', '\\']]) := by
  refine ⟨fun h => ?_, fun h => ?_⟩
  · obtain ⟨-, hserved⟩ := ((appCall 7 (by decide)).right_iff _).mp h
    have hptr : (appCall 7 (by decide)).bufferPtr ≠ 0 := by
      change (0x20000 : BitVec 64).toNat ≠ 0
      decide
    have hcount : (appCall 7 (by decide)).count = 6 := by decide +kernel
    obtain ⟨-, hfit, -⟩ := hserved hptr (by rw [bufferLength_appCall, hcount]; decide)
    rw [bufferLength_appCall, hcount] at hfit
    omega
  · obtain ⟨hlen, -⟩ := ((appCall 0 (by decide)).right_iff _).mp h
    exact absurd hlen (by decide +kernel)

end Wie
