import Wie.Stubs.MbwcListing

/-!
# Text to units in the guest, run

Between the entry and the ways out four registers are saved on the stack, and some others are held
as they are. What the blocks of the code do is told for such states: which block is next, and what
the length of the source, the source and the memory are there.

## Main definitions

* `MbwcCall.Inside` — the machine between the entry and the ways out

## Main results

* `MbwcCall.reaches_inside` — the entry
* `MbwcCall.Inside.ends_length`, `MbwcCall.Inside.ends_zero`, `MbwcCall.Inside.ends_fallback` — the
  ways out
-/

namespace Wie

open X86

namespace MbwcCall

variable (c : MbwcCall)

/-! ### The stack -/

theorem toNat_rsp {d : ℕ} (hd : d ≤ 0x1000) : (c.entry.gpr 4 - .ofNat 64 d).toNat = c.rsp - d := by
  have hroom := c.stack_room.1
  have hlt := (c.entry.gpr 4).isLt
  rw [BitVec.toNat_sub, BitVec.toNat_ofNat, rsp]
  omega

theorem rsp_sub_sub (d : ℕ) :
    c.entry.gpr 4 - .ofNat 64 d - 8 = c.entry.gpr 4 - .ofNat 64 (d + 8) := by
  rw [BitVec.sub_sub, BitVec.ofNat_add]
  rfl

theorem rsp_sub_add (d : ℕ) :
    c.entry.gpr 4 - .ofNat 64 (d + 8) + 8 = c.entry.gpr 4 - .ofNat 64 d := by
  rw [← rsp_sub_sub, BitVec.sub_add_cancel]

/-- The stack from the scratch of the code to the last argument. -/
theorem rw_stack {m : Flat} (hm : m.writable = c.entry.mem.writable) {a n : ℕ}
    (h1 : c.rsp - 0x1000 ≤ a) (h2 : a + n ≤ c.rsp + 0x38) : m.Rw a n := by
  have hroom : 0x1000 ≤ c.rsp := c.stack_room.1
  refine (c.stack.mono h1 ?_).congr hm
  change a + n ≤ c.rsp - 0x1000 + (0x1000 + 0x38)
  omega

/-- PUSH. -/
theorem reaches_save {s : State} {k n d : ℕ} {r : Fin 16} (hrip : s.rip = c.base + k)
    (hdec : decode (c.code.drop k) = some (.push r, n)) (hd : d + 8 ≤ 0x1000)
    (hsp : s.gpr 4 = c.entry.gpr 4 - .ofNat 64 d) (hw : s.mem.writable = c.entry.mem.writable) :
    ∃ t, Reaches c.code c.base s t ∧ t.rip = c.base + (k + n) ∧
      t.gpr 4 = c.entry.gpr 4 - .ofNat 64 (d + 8) ∧ (∀ i, i ≠ 4 → t.gpr i = s.gpr i) ∧
      t.mem = s.mem.set (c.rsp - (d + 8)) 8 (s.gpr r).toNat := by
  have hroom : 0x1000 ≤ c.rsp := c.stack_room.1
  have hsp' : s.gpr 4 - 8 = c.entry.gpr 4 - .ofNat 64 (d + 8) := by rw [hsp, rsp_sub_sub]
  have ha : (s.gpr 4 - 8).toNat = c.rsp - (d + 8) := by rw [hsp', c.toNat_rsp hd]
  have hrw : s.mem.Rw (s.gpr 4 - 8).toNat 8 := by
    rw [ha]
    exact c.rw_stack hw (by omega) (by omega)
  refine ⟨_, reaches_push hrip hdec hrw, rfl, ?_, fun i hi => ?_, ?_⟩
  · rw [State.setMem_gpr, State.setGpr_gpr_self, hsp']
  · rw [State.setMem_gpr, State.setGpr_gpr_of_ne _ hi, State.goTo_gpr]
  · rw [State.setMem_mem, ha]

/-- POP of what was saved. -/
theorem reaches_restore {s : State} {k n d : ℕ} {r : Fin 16} {v : BitVec 64}
    (hrip : s.rip = c.base + k) (hdec : decode (c.code.drop k) = some (.pop r, n)) (hr : r ≠ 4)
    (hd : d + 8 ≤ 0x1000) (hsp : s.gpr 4 = c.entry.gpr 4 - .ofNat 64 (d + 8))
    (hw : s.mem.writable = c.entry.mem.writable)
    (hv : s.mem.get (c.rsp - (d + 8)) 8 = v.toNat) :
    ∃ t, Reaches c.code c.base s t ∧ t.rip = c.base + (k + n) ∧
      t.gpr 4 = c.entry.gpr 4 - .ofNat 64 d ∧ t.gpr r = v ∧
      (∀ i, i ≠ 4 → i ≠ r → t.gpr i = s.gpr i) ∧ t.mem = s.mem := by
  have hroom : 0x1000 ≤ c.rsp := c.stack_room.1
  have hload : s.mem.loadLe (s.gpr 4).toNat 8 = some v.toNat := by
    rw [hsp, c.toNat_rsp hd, ← hv]
    exact (c.rw_stack hw (by omega) (by omega)).loadLe
  refine ⟨_, reaches_pop hrip hdec hload, rfl, ?_, State.setGpr_gpr_self .., fun i h4 hi => ?_, rfl⟩
  · rw [State.setGpr_gpr_of_ne _ hr.symm, State.setGpr_gpr_self, hsp, rsp_sub_add]
  · rw [State.setGpr_gpr_of_ne _ hi, State.setGpr_gpr_of_ne _ h4, State.goTo_gpr]

/-! ### Inside -/

/-- The registers that are held, besides those that the arguments are moved to. -/
def held : List (Fin 16) := [2, 5, 8, 13, 14, 15]

/-- The registers that are saved, with their places below the stack pointer at the entry. -/
def saved : List (ℕ × Fin 16) := [(8, 3), (16, 6), (24, 7), (32, 12)]

/-- The machine between the entry and the ways out. Off the part of the stack that the code uses,
memory is `m`. -/
structure Inside (m : Flat) (s : State) : Prop where
  /-- Four registers are on the stack. -/
  sp : s.gpr 4 = c.entry.gpr 4 - .ofNat 64 32
  /-- They have the values of the entry. -/
  saved : ∀ p ∈ saved, s.mem.get (c.rsp - p.1) 8 = (c.entry.gpr p.2).toNat
  /-- The code page is in R10. -/
  codePage : (s.gpr 10).toNat = c.codePage
  /-- The length is in R12. -/
  length : s.gpr 12 = c.entry.gpr 9
  /-- Others are held. -/
  held : ∀ r ∈ held, s.gpr r = c.entry.gpr r
  /-- Memory. -/
  mem : s.mem.AgreeOff c.scratch m
  /-- What may be written. -/
  writable : m.writable = c.entry.mem.writable

namespace Inside

variable {c} {m : Flat} {s : State}

theorem writable_mem (h : c.Inside m s) : s.mem.writable = c.entry.mem.writable :=
  h.mem.writable.trans h.writable

theorem setFlags (h : c.Inside m s) (f : Flags) : c.Inside m (s.setFlags f) :=
  ⟨h.sp, h.saved, h.codePage, h.length, h.held, h.mem, h.writable⟩

theorem goTo (h : c.Inside m s) (a : ℕ) : c.Inside m (s.goTo a) :=
  ⟨h.sp, h.saved, h.codePage, h.length, h.held, h.mem, h.writable⟩

/-- Nothing that is held changes. -/
theorem congr {t : State} (h : c.Inside m s) (hmem : t.mem = s.mem)
    (hgpr : ∀ r ∈ 4 :: 10 :: 12 :: MbwcCall.held, t.gpr r = s.gpr r) : c.Inside m t where
  sp := (hgpr 4 (by decide)).trans h.sp
  saved := hmem ▸ h.saved
  codePage := by rw [hgpr 10 (by decide), h.codePage]
  length := (hgpr 12 (by decide)).trans h.length
  held r hr := (hgpr r (.tail _ (.tail _ (.tail _ hr)))).trans (h.held r hr)
  mem := hmem ▸ h.mem
  writable := h.writable

/-- A register that is not held is set. -/
theorem sets {t : State} {r : Fin 16} {v : BitVec 64} {a : ℕ} (h : c.Inside m s)
    (ht : Sets s r v a t) (hr : r ∉ 4 :: 10 :: 12 :: MbwcCall.held) : c.Inside m t :=
  h.congr ht.mem fun i hi => ht.other i (ne_of_mem_of_not_mem hi hr)

end Inside

/-- The entry. -/
theorem reaches_inside : ∃ s, Reaches c.code c.base c.entry s ∧ s.rip = c.base + 11 ∧
    c.Inside c.entry.mem s := by
  have hroom : 0x1000 ≤ c.rsp := c.stack_room.1
  have hsp : c.entry.gpr 4 = c.entry.gpr 4 - .ofNat 64 0 := (BitVec.sub_zero _).symm
  obtain ⟨s₁, hr₁, hrip₁, hsp₁, hg₁, hm₁⟩ := c.reaches_save (k := 0) c.rip (c.decode_code rfl)
    (by omega) hsp rfl
  obtain ⟨s₂, hr₂, hrip₂, hsp₂, hg₂, hm₂⟩ := c.reaches_save (k := 1) hrip₁ (c.decode_code rfl)
    (by omega) hsp₁ (hm₁ ▸ rfl)
  obtain ⟨s₃, hr₃, hrip₃, hsp₃, hg₃, hm₃⟩ := c.reaches_save (k := 2) hrip₂ (c.decode_code rfl)
    (by omega) hsp₂ (hm₂ ▸ hm₁ ▸ rfl)
  obtain ⟨s₄, hr₄, hrip₄, hsp₄, hg₄, hm₄⟩ := c.reaches_save (k := 3) hrip₃ (c.decode_code rfl)
    (by omega) hsp₃ (hm₃ ▸ hm₂ ▸ hm₁ ▸ rfl)
  have hg (i : Fin 16) (hi : i ≠ 4) : s₄.gpr i = c.entry.gpr i := by
    rw [hg₄ i hi, hg₃ i hi, hg₂ i hi, hg₁ i hi]
  have hmem : s₄.mem = (((c.entry.mem.set (c.rsp - 8) 8 (c.entry.gpr 3).toNat).set (c.rsp - 16) 8
      (c.entry.gpr 6).toNat).set (c.rsp - 24) 8 (c.entry.gpr 7).toNat).set (c.rsp - 32) 8
      (c.entry.gpr 12).toNat := by
    rw [hm₄, hm₃, hm₂, hm₁, hg₃ 12 (by decide), hg₂ 12 (by decide), hg₁ 12 (by decide),
      hg₂ 7 (by decide), hg₁ 7 (by decide), hg₁ 6 (by decide)]
  -- the code page and the length
  obtain ⟨s₅, hr₅, hs₅⟩ := reaches_mov (k := 5) hrip₄ (c.decode_code rfl) rfl
  obtain ⟨s₆, hr₆, hs₆⟩ := reaches_mov_reg (k := 8) hs₅.rip (c.decode_code rfl)
  have hother (i : Fin 16) (h10 : i ≠ 10) (h12 : i ≠ 12) : s₆.gpr i = s₄.gpr i := by
    rw [hs₆.other i h12, hs₅.other i h10]
  have hmem₆ : s₆.mem = s₄.mem := hs₆.mem.trans hs₅.mem
  refine ⟨s₆, (((((hr₁.trans hr₂).trans hr₃).trans hr₄).trans hr₅).trans hr₆), hs₆.rip, ?_, ?_, ?_,
    ?_, ?_, ?_, rfl⟩
  · rw [hother 4 (by decide) (by decide), hsp₄]
  · rw [hmem₆, hmem]
    simp only [saved, List.forall_mem_cons]
    refine ⟨?_, ?_, ?_, ?_, fun _ h => absurd h List.not_mem_nil⟩
    · rw [Flat.get_set_of_disjoint (by omega), Flat.get_set_of_disjoint (by omega),
        Flat.get_set_of_disjoint (by omega), Flat.get_set_of_lt (c.entry.gpr 3).isLt]
    · rw [Flat.get_set_of_disjoint (by omega), Flat.get_set_of_disjoint (by omega),
        Flat.get_set_of_lt (c.entry.gpr 6).isLt]
    · rw [Flat.get_set_of_disjoint (by omega), Flat.get_set_of_lt (c.entry.gpr 7).isLt]
    · rw [Flat.get_set_of_lt (c.entry.gpr 12).isLt]
  · rw [hs₆.other 10 (by decide), hs₅.self, State.toNat_merge_dword, codePage,
      ← hg 1 (by decide)]
    exact Nat.mod_mod ..
  · rw [hs₆.self, hs₅.other 9 (by decide), hg 9 (by decide)]
  · intro r hr
    have hne : r ≠ 4 ∧ r ≠ 10 ∧ r ≠ 12 := by
      revert hr
      revert r
      decide
    rw [hother r hne.2.1 hne.2.2, hg r hne.1]
  · rw [hmem₆, hmem]
    have hin {a x : ℕ} (h1 : c.rsp - 32 ≤ a) (h2 : a + 8 ≤ c.rsp) (hx1 : a ≤ x)
        (hx2 : x < a + 8) : x ∈ c.scratch := ⟨by omega, by omega⟩
    refine .trans (.set_left _ fun x => hin (by omega) (by omega)) ?_
    refine .trans (.set_left _ fun x => hin (by omega) (by omega)) ?_
    refine .trans (.set_left _ fun x => hin (by omega) (by omega)) ?_
    exact .set_left _ fun x => hin (by omega) (by omega)

/-! ### The ways out -/

variable {c} in
/-- The saved registers are given back. -/
theorem Inside.reaches_leave {m : Flat} {s : State} (h : c.Inside m s) {k : ℕ}
    (hrip : s.rip = c.base + k) (h12 : decode (c.code.drop k) = some (.pop 12, 2))
    (h7 : decode (c.code.drop (k + 2)) = some (.pop 7, 1))
    (h6 : decode (c.code.drop (k + 3)) = some (.pop 6, 1))
    (h3 : decode (c.code.drop (k + 4)) = some (.pop 3, 1)) :
    ∃ t, Reaches c.code c.base s t ∧ t.rip = c.base + (k + 5) ∧ t.gpr 4 = c.entry.gpr 4 ∧
      (∀ r ∈ nonvolatile, t.gpr r = c.entry.gpr r) ∧
      (∀ r, r ∉ [3, 4, 6, 7, 12] → t.gpr r = s.gpr r) ∧ t.mem = s.mem := by
  have hw := h.writable_mem
  obtain ⟨s₁, hr₁, hrip₁, hsp₁, hv₁, hg₁, hm₁⟩ := c.reaches_restore (d := 24) hrip h12 (by decide)
    (by omega) h.sp hw (h.saved (32, 12) (by decide))
  obtain ⟨s₂, hr₂, hrip₂, hsp₂, hv₂, hg₂, hm₂⟩ := c.reaches_restore (d := 16) hrip₁ h7 (by decide)
    (by omega) hsp₁ (hm₁ ▸ hw) (hm₁ ▸ h.saved (24, 7) (by decide))
  obtain ⟨s₃, hr₃, hrip₃, hsp₃, hv₃, hg₃, hm₃⟩ := c.reaches_restore (d := 8) hrip₂ h6 (by decide)
    (by omega) hsp₂ (hm₂ ▸ hm₁ ▸ hw) (hm₂ ▸ hm₁ ▸ h.saved (16, 6) (by decide))
  obtain ⟨s₄, hr₄, hrip₄, hsp₄, hv₄, hg₄, hm₄⟩ := c.reaches_restore (d := 0) hrip₃ h3 (by decide)
    (by omega) hsp₃ (hm₃ ▸ hm₂ ▸ hm₁ ▸ hw) (hm₃ ▸ hm₂ ▸ hm₁ ▸ h.saved (8, 3) (by decide))
  have hother (r : Fin 16) (hr : r ∉ [3, 4, 6, 7, 12]) : s₄.gpr r = s.gpr r := by
    simp only [List.mem_cons, List.not_mem_nil, or_false, not_or] at hr
    obtain ⟨n3, n4, n6, n7, n12⟩ := hr
    rw [hg₄ r n4 n3, hg₃ r n4 n6, hg₂ r n4 n7, hg₁ r n4 n12]
  refine ⟨s₄, ((hr₁.trans hr₂).trans hr₃).trans hr₄, hrip₄, hsp₄.trans (BitVec.sub_zero _), ?_,
    hother, by rw [hm₄, hm₃, hm₂, hm₁]⟩
  intro r hr
  by_cases hheld : r ∈ MbwcCall.held
  · have hne : r ∉ [3, 4, 6, 7, 12] := by
      revert hheld
      clear hr
      revert r
      decide
    rw [hother r hne, h.held r hheld]
  · have hcases : r = 3 ∨ r = 6 ∨ r = 7 ∨ r = 12 := by
      revert hr hheld
      revert r
      decide
    rcases hcases with rfl | rfl | rfl | rfl
    · exact hv₄
    · rw [hg₄ 6 (by decide) (by decide), hv₃]
    · rw [hg₄ 7 (by decide) (by decide), hg₃ 7 (by decide) (by decide), hv₂]
    · rw [hg₄ 12 (by decide) (by decide), hg₃ 12 (by decide) (by decide),
        hg₂ 12 (by decide) (by decide), hv₁]

variable {c} in
/-- The return to the caller, once the value is in RAX. -/
theorem Inside.ends_return {m : Flat} {s : State} (h : c.Inside m s) {k : ℕ}
    (hrip : s.rip = c.base + k) (h12 : decode (c.code.drop k) = some (.pop 12, 2))
    (h7 : decode (c.code.drop (k + 2)) = some (.pop 7, 1))
    (h6 : decode (c.code.drop (k + 3)) = some (.pop 6, 1))
    (h3 : decode (c.code.drop (k + 4)) = some (.pop 3, 1))
    (hret : decode (c.code.drop (k + 5)) = some (.ret, 1))
    (hkeep : m.get c.rsp 8 = c.returnAddress) :
    ∃ t, X86.Ends c.code c.base s t ∧ (∀ r ∈ nonvolatile, t.gpr r = c.entry.gpr r) ∧
      c.Returned t (s.gpr 0).toNat m := by
  have hroom : 0x1000 ≤ c.rsp := c.stack_room.1
  obtain ⟨s₁, hr₁, hrip₁, hsp₁, hnv₁, hg₁, hm₁⟩ := h.reaches_leave hrip h12 h7 h6 h3
  have hload : s₁.mem.loadLe (s₁.gpr 4).toNat 8 = some c.returnAddress := by
    have hget : s₁.mem.get c.rsp 8 = m.get c.rsp 8 := Flat.get_congr fun x h1 h2 => by
      rw [hm₁]
      exact h.mem.byte x fun hin => absurd hin.2 (by omega)
    rw [hsp₁, ← hkeep, ← hget]
    exact (c.rw_stack (a := c.rsp) (hm₁ ▸ h.writable_mem) (by omega) (by omega)).loadLe
  have hr₂ : Reaches c.code c.base s₁ ((s₁.goTo c.returnAddress).setGpr 4 (s₁.gpr 4 + 8)) :=
    .at hrip₁ hret (exec_ret hload) .refl
  refine ⟨_, Reaches.ends (hr₁.trans hr₂) (.out ?_), fun r hr => ?_, rfl, ?_, ?_, fun x hx => ?_⟩
  · rw [c.length_code]
    exact c.outside
  · have hne : r ≠ 4 := by
      revert hr
      revert r
      decide
    rw [State.setGpr_gpr_of_ne _ hne, State.goTo_gpr, hnv₁ r hr]
  · rw [State.setGpr_gpr_self, hsp₁]
  · rw [State.setGpr_gpr_of_ne _ (by decide), State.goTo_gpr, hg₁ 0 (by decide)]
  · rw [State.setGpr_mem, State.goTo_mem, hm₁]
    exact h.mem.byte x hx

variable {c} in
/-- **The length is returned.** -/
theorem Inside.ends_length {m : Flat} {s : State} (h : c.Inside m s) (hrip : s.rip = c.base + 245)
    (hkeep : m.get c.rsp 8 = c.returnAddress) (hlen : (s.gpr 3).toNat < 2 ^ 32) :
    ∃ t, X86.Ends c.code c.base s t ∧ (∀ r ∈ nonvolatile, t.gpr r = c.entry.gpr r) ∧
      c.Returned t (s.gpr 3).toNat m := by
  obtain ⟨s₁, hr₁, hs₁⟩ := reaches_mov hrip (c.decode_code rfl) rfl
  obtain ⟨t, ht, hnv, hret⟩ := (h.sets hs₁ (by decide)).ends_return hs₁.rip (c.decode_code rfl)
    (c.decode_code rfl) (c.decode_code rfl) (c.decode_code rfl) (c.decode_code rfl) hkeep
  have hval : (s₁.gpr 0).toNat = (s.gpr 3).toNat := by
    rw [hs₁.self, State.toNat_merge_dword]
    change (s.gpr 3).toNat % 2 ^ 32 % 2 ^ 32 = _
    rw [Nat.mod_mod, Nat.mod_eq_of_lt hlen]
  exact ⟨t, hr₁.ends ht, hnv, hval ▸ hret⟩

variable {c} in
/-- **Zero is returned.** -/
theorem Inside.ends_zero {m : Flat} {s : State} (h : c.Inside m s) (hrip : s.rip = c.base + 253)
    (hkeep : m.get c.rsp 8 = c.returnAddress) :
    ∃ t, X86.Ends c.code c.base s t ∧ (∀ r ∈ nonvolatile, t.gpr r = c.entry.gpr r) ∧
      c.Returned t 0 m := by
  obtain ⟨s₁, hr₁, hs₁⟩ := reaches_zero hrip (c.decode_code rfl)
  obtain ⟨t, ht, hnv, hret⟩ := (h.sets hs₁ (by decide)).ends_return hs₁.rip (c.decode_code rfl)
    (c.decode_code rfl) (c.decode_code rfl) (c.decode_code rfl) (c.decode_code rfl) hkeep
  have hval : (s₁.gpr 0).toNat = 0 := by rw [hs₁.self]; rfl
  exact ⟨t, hr₁.ends ht, hnv, hval ▸ hret⟩

variable {c} in
/-- **The jump to the fallback**: of RCX the lower half is left. -/
theorem Inside.ends_fallback {m : Flat} {s : State} (h : c.Inside m s)
    (hrip : s.rip = c.base + 261) :
    ∃ t, X86.Ends c.code c.base s t ∧ (∀ r ∈ nonvolatile, t.gpr r = c.entry.gpr r) ∧
      t.rip = c.fallbackVa ∧ (t.gpr 1).toNat = c.codePage ∧
      (∀ r ∈ [2, 8, 9, 4], t.gpr r = c.entry.gpr r) ∧
      ∀ x, x ∉ c.scratch → t.mem.byte x = m.byte x := by
  obtain ⟨s₁, hr₁, hs₁⟩ := reaches_mov (k := 261) hrip (c.decode_code rfl) rfl
  obtain ⟨s₂, hr₂, hs₂⟩ := reaches_mov_reg (k := 264) hs₁.rip (c.decode_code rfl)
  have h₂ := (h.sets hs₁ (by decide)).sets hs₂ (by decide)
  obtain ⟨s₃, hr₃, hrip₃, hsp₃, hnv₃, hg₃, hm₃⟩ := h₂.reaches_leave (k := 267) hs₂.rip
    (c.decode_code rfl) (c.decode_code rfl) (c.decode_code rfl) (c.decode_code rfl)
  have hva : s₃.read .qword (.imm (fromLe (toLe 8 c.fallbackVa))) = some c.fallbackVa := by
    have hlt := c.fallback.1
    rw [fromLe_toLe_of_lt hlt]
    change some ((c.fallbackVa : ℤ) % 2 ^ 64).toNat = _
    congr 1
    omega
  obtain ⟨s₄, hr₄, hs₄⟩ := reaches_mov (k := 272) hrip₃ (c.decode_code rfl) hva
  have h0 : s₄.reg .qword 0 = c.fallbackVa := by
    rw [State.reg_qword, hs₄.self, merge_qword_eq, BitVec.toNat_ofNat,
      Nat.mod_eq_of_lt c.fallback.1, Nat.mod_eq_of_lt c.fallback.1]
  have hr₅ : Reaches c.code c.base s₄ (s₄.goTo (s₄.reg .qword 0)) :=
    .at (k := 282) hs₄.rip (c.decode_code rfl) rfl .refl
  have hg (r : Fin 16) (hr : r ∉ [3, 4, 6, 7, 12]) (h0 : r ≠ 0) : s₄.gpr r = s₂.gpr r := by
    rw [hs₄.other r h0, hg₃ r hr]
  have h4 : s₄.gpr 4 = c.entry.gpr 4 := by rw [hs₄.other 4 (by decide), hsp₃]
  have h9 : s₄.gpr 9 = c.entry.gpr 9 := by
    rw [hg 9 (by decide) (by decide), hs₂.self, hs₁.other 12 (by decide), h.length]
  refine ⟨_, Reaches.ends ((((hr₁.trans hr₂).trans hr₃).trans hr₄).trans hr₅) (.out ?_),
    fun r hr => ?_, h0, ?_, ?_, fun x hx => ?_⟩
  · rw [c.length_code, State.goTo_rip, h0]
    exact c.fallback.2
  · have hne : r ≠ 0 := by
      revert hr
      revert r
      decide
    rw [State.goTo_gpr, hs₄.other r hne, hnv₃ r hr]
  · have hcp : (s.gpr 10).toNat % 2 ^ 32 = c.codePage := by
      rw [h.codePage]
      exact Nat.mod_mod ..
    rw [State.goTo_gpr, hg 1 (by decide) (by decide), hs₂.other 1 (by decide), hs₁.self,
      State.toNat_merge_dword]
    change (s.gpr 10).toNat % 2 ^ 32 % 2 ^ 32 = _
    rw [Nat.mod_mod, hcp]
  · simp only [List.forall_mem_cons]
    refine ⟨?_, ?_, h9, h4, fun _ h => absurd h List.not_mem_nil⟩
    · rw [State.goTo_gpr, hg 2 (by decide) (by decide), h₂.held 2 (by decide)]
    · rw [State.goTo_gpr, hg 8 (by decide) (by decide), h₂.held 8 (by decide)]
  · rw [State.goTo_mem, hs₄.mem, hm₃]
    exact h₂.mem.byte x hx

/-! ### The code page -/

variable {c} in
theorem Inside.of_compare {m : Flat} {s t : State} (h : c.Inside m s) (hgpr : t.gpr = s.gpr)
    (hmem : t.mem = s.mem) : c.Inside m t := h.congr hmem fun r _ => congrFun hgpr r

/-- A jump in the code. -/
theorem jump_eq {k target : ℕ} {rel : ℤ} (h : (k : ℤ) + rel = target) (ht : target < 284) :
    jumpTarget (c.base + k) rel = c.base + target := by
  have htop := c.code_top
  exact jumpTarget_eq (by omega) (by omega)

/-- A jump to an offset. -/
theorem reaches_to {s : State} {k n : ℕ} {rel : ℤ} (target : ℕ) (hrip : s.rip = c.base + k)
    (hd : decode (c.code.drop k) = some (.jmp rel, n)) (h : ((k + n : ℕ) : ℤ) + rel = target)
    (ht : target < 284) :
    ∃ t, Reaches c.code c.base s t ∧ t.gpr = s.gpr ∧ t.mem = s.mem ∧ t.rip = c.base + target :=
  ⟨_, reaches_jmp hrip hd, rfl, rfl, c.jump_eq h ht⟩

variable {c} in
/-- The flag is put in R11B, for the pages with one byte for each unit. -/
theorem Inside.reaches_single {m : Flat} {s : State} (h : c.Inside m s)
    (hrip : s.rip = c.base + 65) :
    ∃ t, Reaches c.code c.base s t ∧ c.Inside m t ∧ t.rip = c.base + 73 ∧ t.reg .byte 11 = 0 := by
  obtain ⟨s₁, hr₁, hs₁⟩ := reaches_mov (k := 65) hrip (c.decode_code rfl) rfl
  obtain ⟨s₂, hr₂, hg₂, hm₂, hrip₂⟩ := c.reaches_to (k := 68) 73 hs₁.rip (c.decode_code rfl) rfl
    (by decide)
  refine ⟨s₂, hr₁.trans hr₂, (h.sets hs₁ (by decide)).of_compare hg₂ hm₂, hrip₂, ?_⟩
  change (s₂.gpr 11).toNat % 256 = 0
  rw [hg₂, hs₁.self, State.toNat_merge_byte]
  rfl

variable {c} in
/-- The same for UTF-8. -/
theorem Inside.reaches_utf8 {m : Flat} {s : State} (h : c.Inside m s)
    (hrip : s.rip = c.base + 70) :
    ∃ t, Reaches c.code c.base s t ∧ c.Inside m t ∧ t.rip = c.base + 73 ∧ t.reg .byte 11 = 1 := by
  obtain ⟨s₁, hr₁, hs₁⟩ := reaches_mov (k := 70) hrip (c.decode_code rfl) rfl
  refine ⟨s₁, hr₁, h.sets hs₁ (by decide), hs₁.rip, ?_⟩
  change (s₁.gpr 11).toNat % 256 = 1
  rw [hs₁.self, State.toNat_merge_byte]
  rfl

variable {c} in
/-- **The code page**: on with a flag for UTF-8, or to the fallback. -/
theorem Inside.reaches_page {m : Flat} {s : State} (h : c.Inside m s)
    (hrip : s.rip = c.base + 11) :
    ∃ t, Reaches c.code c.base s t ∧ c.Inside m t ∧
      if c.SingleByte then t.rip = c.base + 73 ∧ t.reg .byte 11 = 0
      else if c.codePage = CP_UTF8 then t.rip = c.base + 73 ∧ t.reg .byte 11 = 1
      else t.rip = c.base + 261 := by
  have hlt : c.codePage < 2 ^ 32 := Nat.mod_lt _ (by decide)
  have hread {t : State} (ht : c.Inside m t) : t.read .dword (.reg 10) = some c.codePage := by
    change some ((t.gpr 10).toNat % 2 ^ 32) = _
    rw [ht.codePage, Nat.mod_eq_of_lt hlt]
  obtain ⟨s₁, hr₁, hg₁, hm₁, -, hrip₁⟩ := reaches_compare (k := 11) (b := 4) hrip
    (c.decode_code rfl) (c.decode_code rfl) (by decide) (hread h) rfl holds_cmp_b
  have h₁ := h.of_compare hg₁ hm₁
  by_cases hlow : c.codePage < 4
  · rw [if_pos hlow] at hrip₁
    obtain ⟨t, hr, ht, hript, hflag⟩ := h₁.reaches_single
      (hrip₁.trans (c.jump_eq rfl (by decide)))
    refine ⟨t, hr₁.trans hr, ht, ?_⟩
    rw [if_pos (.inl hlow)]
    exact ⟨hript, hflag⟩
  rw [if_neg hlow] at hrip₁
  obtain ⟨s₂, hr₂, hg₂, hm₂, -, hrip₂⟩ := reaches_compare (k := 21) (b := 1252) hrip₁
    (c.decode_code rfl) (c.decode_code rfl) (by decide) (hread h₁) rfl
    (holds_cmp_e hlt (by decide))
  have h₂ := h₁.of_compare hg₂ hm₂
  by_cases hacp : c.codePage = 1252
  · rw [if_pos hacp] at hrip₂
    obtain ⟨t, hr, ht, hript, hflag⟩ := h₂.reaches_single
      (hrip₂.trans (c.jump_eq rfl (by decide)))
    refine ⟨t, (hr₁.trans hr₂).trans hr, ht, ?_⟩
    rw [if_pos (.inr (.inl hacp))]
    exact ⟨hript, hflag⟩
  rw [if_neg hacp] at hrip₂
  obtain ⟨s₃, hr₃, hg₃, hm₃, -, hrip₃⟩ := reaches_compare (k := 34) (b := 437) hrip₂
    (c.decode_code rfl) (c.decode_code rfl) (by decide) (hread h₂) rfl
    (holds_cmp_e hlt (by decide))
  have h₃ := h₂.of_compare hg₃ hm₃
  by_cases hoem : c.codePage = 437
  · rw [if_pos hoem] at hrip₃
    obtain ⟨t, hr, ht, hript, hflag⟩ := h₃.reaches_single
      (hrip₃.trans (c.jump_eq rfl (by decide)))
    refine ⟨t, ((hr₁.trans hr₂).trans hr₃).trans hr, ht, ?_⟩
    rw [if_pos (.inr (.inr hoem))]
    exact ⟨hript, hflag⟩
  rw [if_neg hoem] at hrip₃
  obtain ⟨s₄, hr₄, hg₄, hm₄, -, hrip₄⟩ := reaches_compare (k := 47) (b := 65001) hrip₃
    (c.decode_code rfl) (c.decode_code rfl) (by decide) (hread h₃) rfl
    (holds_cmp_e hlt (by decide))
  have h₄ := h₃.of_compare hg₄ hm₄
  have hsingle : ¬c.SingleByte := by
    rintro (h | h | h)
    · exact hlow h
    · exact hacp h
    · exact hoem h
  simp only [if_neg hsingle]
  by_cases hutf : c.codePage = 65001
  · rw [if_pos hutf] at hrip₄
    obtain ⟨t, hr, ht, hript, hflag⟩ := h₄.reaches_utf8
      (hrip₄.trans (c.jump_eq rfl (by decide)))
    exact ⟨t, (((hr₁.trans hr₂).trans hr₃).trans hr₄).trans hr, ht,
      if_pos (c := c.codePage = CP_UTF8) hutf ▸ ⟨hript, hflag⟩⟩
  · rw [if_neg hutf] at hrip₄
    obtain ⟨s₅, hr₅, hg₅, hm₅, hrip₅⟩ := c.reaches_to (k := 60) 261 hrip₄ (c.decode_code rfl) rfl
      (by decide)
    exact ⟨s₅, (((hr₁.trans hr₂).trans hr₃).trans hr₄).trans hr₅, h₄.of_compare hg₅ hm₅,
      if_neg (c := c.codePage = CP_UTF8) hutf ▸ hrip₅⟩

/-! ### The source -/

theorem loadLe_one {m : Flat} {x : ℕ} (h : m.readable x = true) :
    m.loadLe x 1 = some (m.byte x).toNat := by
  rw [Flat.loadLe_eq fun y h1 h2 => (show y = x by omega) ▸ h]
  exact congrArg some (Nat.add_zero _)

/-- A byte off the region. -/
theorem agreeOff_loadLe_one {R : Set ℕ} {m m' : Flat} (h : m'.AgreeOff R m) {x : ℕ} (hx : x ∉ R)
    (hr : m.readable x = true) : m'.loadLe x 1 = some (m.byte x).toNat := by
  rw [loadLe_one (h.readable ▸ hr), h.byte x hx]

/-- The bytes of the source are in memory. -/
def Loaded : Prop := c.src ≠ 0 ∧ c.entry.mem.load c.src c.bytes.length = some c.bytes

variable {c} in
theorem Loaded.readable (h : c.Loaded) {i : ℕ} (hi : i < c.bytes.length) :
    c.entry.mem.readable (c.src + i) = true := by
  have hload : c.entry.mem.loadLe c.src c.bytes.length = some (fromLe c.bytes) := by
    rw [Flat.loadLe, h.2]
    rfl
  exact Flat.readable_of_loadLe hload (by omega) (by omega)

variable {c} in
theorem Loaded.bytes_eq (h : c.Loaded) : c.entry.mem.bytes c.src c.bytes.length = c.bytes :=
  CwdCall.bytes_of_load h.2

variable {c} in
theorem Loaded.byte (h : c.Loaded) {i : ℕ} (hi : i < c.bytes.length) :
    c.entry.mem.byte (c.src + i) = c.bytes[i] := by
  have hget : (c.entry.mem.bytes c.src c.bytes.length)[i]? = c.bytes[i]? := by rw [h.bytes_eq]
  rw [List.getElem?_eq_getElem (by rwa [Flat.length_bytes]), List.getElem?_eq_getElem hi,
    Option.some.injEq] at hget
  rw [← hget]
  simp [Flat.bytes]

theorem source_notMem {i : ℕ} (hi : i < c.bytes.length) : c.src + i ∉ c.scratch := by
  rintro ⟨h1, h2⟩
  have hroom : 0x1000 ≤ c.rsp := c.stack_room.1
  have hapart : c.src + c.bytes.length ≤ c.rsp - 0x1000 ∨ c.rsp ≤ c.src := c.source_apart
  omega

theorem src_top : c.src + c.bytes.length < 2 ^ 64 := c.source_top

variable {c} in
/-- One byte is looked at. -/
theorem Inside.reaches_scan_next (hsrc : c.Loaded) {i : ℕ} (hi : i < c.bytes.length) {s : State}
    (h : c.Inside c.entry.mem s) (hrip : s.rip = c.base + 97) (h6 : s.gpr 6 = c.entry.gpr 8)
    (h3 : (s.gpr 3).toNat = i) :
    ∃ t, Reaches c.code c.base s t ∧ c.Inside c.entry.mem t ∧ t.gpr 6 = c.entry.gpr 8 ∧
      (t.gpr 3).toNat = i + 1 ∧ t.gpr 11 = s.gpr 11 ∧
      t.rip = if c.bytes[i].toNat ≠ 0 then c.base + 97 else c.base + 108 := by
  have htop := c.src_top
  have hv := c.bytes[i].toNat_lt
  have haddr : s.address ⟨6, some 3, 0⟩ = c.src + i := by
    have hsum : (s.gpr 6).toNat + (s.gpr 3).toNat = c.src + i := by rw [h6, h3, src]
    rw [State.address_index s 6 3 (by omega), hsum]
  have hread : s.read .byte (.mem ⟨6, some 3, 0⟩) = some c.bytes[i].toNat := by
    change s.mem.loadLe (s.address ⟨6, some 3, 0⟩) 1 = _
    rw [haddr, agreeOff_loadLe_one h.mem (c.source_notMem hi) (hsrc.readable hi), hsrc.byte hi]
  obtain ⟨s₁, hr₁, hs₁⟩ := reaches_movzx (k := 97) hrip (c.decode_code rfl) hread
  obtain ⟨s₂, hr₂, hs₂⟩ := reaches_inc (k := 101) hs₁.rip (c.decode_code rfl)
  have h0 : s₂.read .byte (.reg 0) = some c.bytes[i].toNat := by
    change some ((s₂.gpr 0).toNat % 256) = _
    rw [hs₂.other 0 (by decide), hs₁.self, State.toNat_merge_dword]
    congr 1
    omega
  obtain ⟨s₃, hr₃, hg₃, hm₃, -, hrip₃⟩ := reaches_compare (k := 104) hs₂.rip (c.decode_code rfl)
    (c.decode_code rfl) (by decide) h0 h0 holds_test_ne
  refine ⟨s₃, (hr₁.trans hr₂).trans hr₃,
    ((h.sets hs₁ (by decide)).sets hs₂ (by decide)).of_compare hg₃ hm₃, ?_, ?_, ?_, ?_⟩
  · rw [hg₃, hs₂.other 6 (by decide), hs₁.other 6 (by decide), h6]
  · rw [hg₃, hs₂.self, hs₁.other 3 (by decide), toNat_add_one h3 (by omega)]
  · rw [hg₃, hs₂.other 11 (by decide), hs₁.other 11 (by decide)]
  · rw [hrip₃]
    exact if_congr Iff.rfl (c.jump_eq rfl (by decide)) rfl

/-- The zero of a string. -/
theorem nul_at {bytes text : List UInt8} (htext : bytes = text ++ [0]) {i : ℕ}
    (hi : i = text.length) (hlt : i < bytes.length) :
    bytes[i].toNat = 0 ∧ bytes.drop i = [0] := by
  subst htext hi
  rw [List.getElem_append_right le_rfl, List.drop_left]
  simp

/-- There is none before. -/
theorem not_nul_at {bytes text : List UInt8} (htext : bytes = text ++ [0]) (h0 : 0 ∉ text) {i : ℕ}
    (hi : i < text.length) (hlt : i < bytes.length) :
    bytes[i].toNat ≠ 0 := by
  subst htext
  rw [List.getElem_append_left hi]
  intro hz
  have hnul : text[i] = 0 := UInt8.toNat_inj.mp hz
  exact h0 (hnul ▸ List.getElem_mem hi)

variable {c} in
/-- **The search for the zero.** RBX counts, with the zero. -/
theorem Inside.reaches_scan (hsrc : c.Loaded) {text : List UInt8} (htext : c.bytes = text ++ [0])
    (h0 : 0 ∉ text) {n : ℕ} : ∀ {i : ℕ} {s : State}, i + n = text.length →
      c.Inside c.entry.mem s → s.rip = c.base + 97 → s.gpr 6 = c.entry.gpr 8 →
      (s.gpr 3).toNat = i →
      ∃ t, Reaches c.code c.base s t ∧ c.Inside c.entry.mem t ∧ t.rip = c.base + 108 ∧
        t.gpr 6 = c.entry.gpr 8 ∧ (t.gpr 3).toNat = c.bytes.length ∧ t.gpr 11 = s.gpr 11 := by
  have hlen : c.bytes.length = text.length + 1 := by rw [htext, List.length_append]; rfl
  induction n with
  | zero =>
    intro i s hi h hrip h6 h3
    obtain ⟨t, hr, ht, h6', h3', h11, hript⟩ := h.reaches_scan_next hsrc (i := i) (by omega) hrip h6
      h3
    obtain ⟨hzero, -⟩ := nul_at htext (i := i) (by omega) (by omega)
    rw [if_neg (not_not.mpr hzero)] at hript
    exact ⟨t, hr, ht, hript, h6', by omega, h11⟩
  | succ n ih =>
    intro i s hi h hrip h6 h3
    obtain ⟨t, hr, ht, h6', h3', h11, hript⟩ := h.reaches_scan_next hsrc (i := i) (by omega) hrip h6
      h3
    have hpos := not_nul_at htext h0 (i := i) (by omega) (by omega)
    rw [if_pos hpos] at hript
    obtain ⟨t', hr', ht', hript', h6'', h3'', h11'⟩ := ih (by omega) ht hript h6' h3'
    exact ⟨t', hr.trans hr', ht', hript', h6'', h3'', h11'.trans h11⟩

/-- The length is one that the code leaves to the fallback. -/
def LengthFallsBack : Prop :=
  c.src ≠ 0 ∧ (c.cb = 2 ^ 32 - 1 ∧ MAX_BYTES < c.bytes.length ∨ c.cb ≠ 2 ^ 32 - 1 ∧ 2 ^ 31 ≤ c.cb)

/-- The machine with the length of a source that is not empty. -/
structure Measured (s : State) : Prop where
  /-- The source is in memory. -/
  loaded : c.Loaded
  /-- It is not empty. -/
  pos : 0 < c.bytes.length
  /-- Its length is not negative. -/
  lt : c.bytes.length < 2 ^ 31
  /-- The source is in RSI. -/
  rsi : s.gpr 6 = c.entry.gpr 8
  /-- The length is in RBX. -/
  rbx : (s.gpr 3).toNat = c.bytes.length

/-- What is said of the source, for one that is not null. -/
theorem source_cases (hnull : c.src ≠ 0) :
    (c.cb = 2 ^ 32 - 1 ∧ c.Loaded ∧ ∃ text, c.bytes = text ++ [0] ∧ 0 ∉ text) ∨
      (c.cb ≠ 2 ^ 32 - 1 ∧ (c.cb < 2 ^ 31 ∧ c.bytes.length = c.cb ∧ c.Loaded ∨
        2 ^ 31 ≤ c.cb ∧ c.bytes = [])) := by
  have hsource : SourceBytes c.entry.mem c.src c.cb c.bytes := c.source
  rw [SourceBytes, if_neg hnull] at hsource
  split_ifs at hsource with hnul hlt
  · exact .inl ⟨hnul, ⟨hnull, hsource.1⟩, hsource.2⟩
  · exact .inr ⟨hnul, .inl ⟨hlt, hsource.1, hnull, hsource.1 ▸ hsource.2⟩⟩
  · exact .inr ⟨hnul, .inr ⟨by omega, hsource⟩⟩

variable {c} in
/-- A string. -/
theorem Inside.reaches_string {s : State} (h : c.Inside c.entry.mem s) (hrip : s.rip = c.base + 95)
    (h6 : s.gpr 6 = c.entry.gpr 8) (hsrc : c.Loaded) {text : List UInt8}
    (htext : c.bytes = text ++ [0]) (h0 : 0 ∉ text) :
    ∃ t, Reaches c.code c.base s t ∧ c.Inside c.entry.mem t ∧ t.gpr 11 = s.gpr 11 ∧
      t.gpr 6 = c.entry.gpr 8 ∧ (t.gpr 3).toNat = c.bytes.length ∧
      t.rip = if MAX_BYTES < c.bytes.length then c.base + 261 else c.base + 146 := by
  have htop := c.src_top
  obtain ⟨s₁, hr₁, hs₁⟩ := reaches_zero (k := 95) hrip (c.decode_code rfl)
  obtain ⟨s₂, hr₂, h₂, hrip₂, h6₂, h3₂, h11₂⟩ := (h.sets hs₁ (by decide)).reaches_scan hsrc htext h0
    (Nat.zero_add _) hs₁.rip (by rw [hs₁.other 6 (by decide), h6]) (by rw [hs₁.self]; rfl)
  rw [hs₁.other 11 (by decide)] at h11₂
  have hread : s₂.read .qword (.reg 3) = some c.bytes.length := by
    change some (s₂.reg .qword 3) = _
    rw [State.reg_qword, h3₂]
  have hrange : c.bytes.length < Width.range .qword := by
    rw [range_qword]
    omega
  obtain ⟨s₃, hr₃, hg₃, hm₃, -, hrip₃⟩ := reaches_compare (k := 108) (b := MAX_BYTES) hrip₂
    (c.decode_code rfl) (c.decode_code rfl) (by decide) hread rfl (holds_cmp_a hrange (by decide))
  have h₃ := h₂.of_compare hg₃ hm₃
  by_cases hlong : MAX_BYTES < c.bytes.length
  · rw [if_pos hlong] at hrip₃
    refine ⟨s₃, (hr₁.trans hr₂).trans hr₃, h₃, hg₃ ▸ h11₂, hg₃ ▸ h6₂, hg₃ ▸ h3₂, ?_⟩
    rw [if_pos hlong, hrip₃]
    exact c.jump_eq rfl (by decide)
  · rw [if_neg hlong] at hrip₃
    obtain ⟨s₄, hr₄, hg₄, hm₄, hrip₄⟩ := c.reaches_to (k := 121) 146 hrip₃ (c.decode_code rfl) rfl
      (by decide)
    refine ⟨s₄, ((hr₁.trans hr₂).trans hr₃).trans hr₄, h₃.of_compare hg₄ hm₄, ?_, ?_, ?_, ?_⟩
    · rw [hg₄, hg₃, h11₂]
    · rw [hg₄, hg₃, h6₂]
    · rw [hg₄, hg₃, h3₂]
    · rw [hrip₄, if_neg hlong]

variable {c} in
/-- A length that is given. -/
theorem Inside.reaches_fixed {s : State} (h : c.Inside c.entry.mem s)
    (hrip : s.rip = c.base + 126) (h6 : s.gpr 6 = c.entry.gpr 8) :
    ∃ t, Reaches c.code c.base s t ∧ c.Inside c.entry.mem t ∧ t.gpr 11 = s.gpr 11 ∧
      t.gpr 6 = c.entry.gpr 8 ∧
      if 2 ^ 31 ≤ c.cb then t.rip = c.base + 261
      else (t.gpr 3).toNat = c.cb ∧ t.rip = if c.cb = 0 then c.base + 253 else c.base + 146 := by
  have hlt : c.cb < 2 ^ 32 := Nat.mod_lt _ (by decide)
  have hcb {t : State} (ht : c.Inside c.entry.mem t) : t.read .dword (.reg 12) = some c.cb := by
    change some ((t.gpr 12).toNat % 2 ^ 32) = _
    rw [ht.length, cb]
  obtain ⟨s₁, hr₁, hg₁, hm₁, -, hrip₁⟩ := reaches_compare (k := 126) hrip (c.decode_code rfl)
    (c.decode_code rfl) (by decide) (hcb h) (hcb h) holds_test_s
  have h₁ := h.of_compare hg₁ hm₁
  have hiff : Width.range .dword ≤ 2 * c.cb ↔ 2 ^ 31 ≤ c.cb := by
    change 2 ^ 32 ≤ 2 * c.cb ↔ _
    omega
  rw [if_congr hiff rfl rfl] at hrip₁
  by_cases hneg : 2 ^ 31 ≤ c.cb
  · rw [if_pos hneg] at hrip₁
    refine ⟨s₁, hr₁, h₁, by rw [hg₁], by rw [hg₁, h6], ?_⟩
    rw [if_pos hneg, hrip₁]
    exact c.jump_eq rfl (by decide)
  rw [if_neg hneg] at hrip₁
  obtain ⟨s₂, hr₂, hs₂⟩ := reaches_mov (k := 135) hrip₁ (c.decode_code rfl) (hcb h₁)
  have h₂ := h₁.sets hs₂ (by decide)
  have h3 : (s₂.gpr 3).toNat = c.cb := by
    rw [hs₂.self, State.toNat_merge_dword, Nat.mod_eq_of_lt hlt]
  have hread : s₂.read .dword (.reg 3) = some c.cb := by
    change some ((s₂.gpr 3).toNat % 2 ^ 32) = _
    rw [h3, Nat.mod_eq_of_lt hlt]
  obtain ⟨s₃, hr₃, hg₃, hm₃, -, hrip₃⟩ := reaches_compare (k := 138) hs₂.rip (c.decode_code rfl)
    (c.decode_code rfl) (by decide) hread hread holds_test_e
  refine ⟨s₃, (hr₁.trans hr₂).trans hr₃, h₂.of_compare hg₃ hm₃, ?_, ?_, ?_⟩
  · rw [hg₃, hs₂.other 11 (by decide), hg₁]
  · rw [hg₃, hs₂.other 6 (by decide), hg₁, h6]
  · rw [if_neg hneg, hg₃, hrip₃]
    exact ⟨h3, if_congr Iff.rfl (c.jump_eq rfl (by decide)) rfl⟩

variable {c} in
/-- **The length**: it is measured, or there is nothing, or it is for the fallback. -/
theorem Inside.reaches_length {s : State} (h : c.Inside c.entry.mem s)
    (hrip : s.rip = c.base + 73) :
    ∃ t, Reaches c.code c.base s t ∧ c.Inside c.entry.mem t ∧ t.gpr 11 = s.gpr 11 ∧
      (t.rip = c.base + 146 ∧ c.Measured t ∧ ¬c.LengthFallsBack ∨
        t.rip = c.base + 253 ∧ c.bytes = [] ∧ ¬c.LengthFallsBack ∨
        t.rip = c.base + 261 ∧ c.LengthFallsBack) := by
  obtain ⟨s₁, hr₁, hs₁⟩ := reaches_mov_reg (k := 73) hrip (c.decode_code rfl)
  have h6 : s₁.gpr 6 = c.entry.gpr 8 := hs₁.self.trans (h.held 8 (by decide))
  have hread : s₁.read .qword (.reg 6) = some c.src := by
    change some (s₁.reg .qword 6) = _
    rw [State.reg_qword, h6, src]
  obtain ⟨s₂, hr₂, hg₂, hm₂, -, hrip₂⟩ := reaches_compare (k := 76) hs₁.rip (c.decode_code rfl)
    (c.decode_code rfl) (by decide) hread hread holds_test_e
  have h₂ := (h.sets hs₁ (by decide)).of_compare hg₂ hm₂
  have h11₂ : s₂.gpr 11 = s.gpr 11 := by rw [hg₂, hs₁.other 11 (by decide)]
  by_cases hnull : c.src = 0
  · have hsource : SourceBytes c.entry.mem c.src c.cb c.bytes := c.source
    rw [SourceBytes, if_pos hnull] at hsource
    rw [if_pos hnull] at hrip₂
    exact ⟨s₂, hr₁.trans hr₂, h₂, h11₂,
      .inr (.inl ⟨hrip₂.trans (c.jump_eq rfl (by decide)), hsource, fun hf => hf.1 hnull⟩)⟩
  rw [if_neg hnull] at hrip₂
  have hcb : s₂.read .dword (.reg 12) = some c.cb := by
    change some ((s₂.gpr 12).toNat % 2 ^ 32) = _
    rw [h₂.length, cb]
  obtain ⟨s₃, hr₃, hg₃, hm₃, -, hrip₃⟩ := reaches_compare (k := 85) (b := 2 ^ 32 - 1) hrip₂
    (c.decode_code rfl) (c.decode_code rfl) (by decide) hcb rfl
    (holds_cmp_ne (Nat.mod_lt _ (by decide)) (by decide))
  have h₃ := h₂.of_compare hg₃ hm₃
  have h6₃ : s₃.gpr 6 = c.entry.gpr 8 := by rw [hg₃, hg₂, h6]
  have h11₃ : s₃.gpr 11 = s.gpr 11 := by rw [hg₃, h11₂]
  have hr := (hr₁.trans hr₂).trans hr₃
  rcases c.source_cases hnull with ⟨hnul, hsrc, text, htext, h0⟩ | ⟨hnul, hrest⟩
  · rw [if_neg (not_not.mpr hnul)] at hrip₃
    obtain ⟨t, hrt, ht, h11, h6t, h3, hript⟩ := h₃.reaches_string hrip₃ h6₃ hsrc htext h0
    refine ⟨t, hr.trans hrt, ht, h11.trans h11₃, ?_⟩
    by_cases hlong : MAX_BYTES < c.bytes.length
    · rw [if_pos hlong] at hript
      exact .inr (.inr ⟨hript, hnull, .inl ⟨hnul, hlong⟩⟩)
    · rw [if_neg hlong] at hript
      have hle : c.bytes.length ≤ 32768 := not_lt.mp hlong
      refine .inl ⟨hript, ⟨hsrc, ?_, by omega, h6t, h3⟩, ?_⟩
      · rw [htext, List.length_append]
        exact Nat.succ_pos _
      · rintro ⟨-, ⟨-, hl⟩ | ⟨hn, -⟩⟩
        · exact hlong hl
        · exact hn hnul
  · rw [if_pos hnul] at hrip₃
    obtain ⟨t, hrt, ht, h11, h6t, hcase⟩ := h₃.reaches_fixed
      (hrip₃.trans (c.jump_eq rfl (by decide))) h6₃
    refine ⟨t, hr.trans hrt, ht, h11.trans h11₃, ?_⟩
    rcases hrest with ⟨hpos, hlen, hsrc⟩ | ⟨hneg, -⟩
    · rw [if_neg (by omega)] at hcase
      have hnot : ¬c.LengthFallsBack := by
        rintro ⟨-, ⟨he, -⟩ | ⟨-, hn⟩⟩
        · exact hnul he
        · omega
      by_cases hzero : c.cb = 0
      · rw [if_pos hzero] at hcase
        exact .inr (.inl ⟨hcase.2, List.eq_nil_of_length_eq_zero (hlen.trans hzero), hnot⟩)
      · rw [if_neg hzero] at hcase
        exact .inl ⟨hcase.2, ⟨hsrc, by omega, by omega, h6t, hcase.1.trans hlen.symm⟩, hnot⟩
    · rw [if_pos hneg] at hcase
      exact .inr (.inr ⟨hcase, hnull, .inr ⟨hnul, hneg⟩⟩)

/-! ### ASCII -/

variable {c} in
/-- Something more is on the stack of the code. -/
theorem Inside.of_scratch {m : Flat} {s t : State} (h : c.Inside m s) {v : ℕ}
    (hmem : t.mem = s.mem.set (c.rsp - 40) 8 v)
    (hgpr : ∀ r ∈ 4 :: 10 :: 12 :: MbwcCall.held, t.gpr r = s.gpr r) : c.Inside m t where
  sp := (hgpr 4 (by decide)).trans h.sp
  saved p hp := by
    have hroom : 0x1000 ≤ c.rsp := c.stack_room.1
    have hle : 8 ≤ p.1 ∧ p.1 ≤ 32 := by
      revert hp
      revert p
      decide
    rw [hmem, Flat.get_set_of_disjoint (by omega), h.saved p hp]
  codePage := by rw [hgpr 10 (by decide), h.codePage]
  length := (hgpr 12 (by decide)).trans h.length
  held r hr := (hgpr r (.tail _ (.tail _ (.tail _ hr)))).trans (h.held r hr)
  mem := by
    have hroom : 0x1000 ≤ c.rsp := c.stack_room.1
    rw [hmem]
    exact .trans (.set_left _ fun x h1 h2 => ⟨h1, by omega⟩) h.mem
  writable := h.writable

/-- Some byte from the one at `i` on is not ASCII. -/
def NotAscii (i : ℕ) : Prop := ∃ b ∈ c.bytes.drop i, 0x80 ≤ b

instance (i : ℕ) : Decidable (c.NotAscii i) := inferInstanceAs (Decidable (∃ b ∈ _, _))

theorem notAscii_iff {i : ℕ} (hi : i < c.bytes.length) :
    c.NotAscii i ↔ 128 ≤ c.bytes[i].toNat ∨ c.NotAscii (i + 1) := by
  rw [NotAscii, List.drop_eq_getElem_cons hi, NotAscii]
  simp only [List.mem_cons, exists_eq_or_imp]
  exact or_congr UInt8.le_iff_toNat_le Iff.rfl

theorem not_notAscii_length : ¬c.NotAscii c.bytes.length := by
  rintro ⟨b, hb, -⟩
  rw [List.drop_length] at hb
  exact List.not_mem_nil hb

/-- One byte is tested. -/
theorem reaches_ascii_next (hsrc : c.Loaded) {i n : ℕ} (hi : i < c.bytes.length) {s : State}
    (hmem : s.mem.AgreeOff c.scratch c.entry.mem) (hrip : s.rip = c.base + 162)
    (h0 : (s.gpr 0).toNat = c.src + i) (h1 : (s.gpr 1).toNat = n + 1) :
    ∃ t, Reaches c.code c.base s t ∧ t.mem = s.mem ∧
      (∀ r, r ≠ 0 → r ≠ 1 → t.gpr r = s.gpr r) ∧
      if 128 ≤ c.bytes[i].toNat then t.rip = c.base + 182
      else (t.gpr 0).toNat = c.src + (i + 1) ∧ (t.gpr 1).toNat = n ∧
        t.rip = if n ≠ 0 then c.base + 162 else c.base + 179 := by
  have htop := c.src_top
  have hread : s.read .byte (.mem ⟨0, none, 0⟩) = some c.bytes[i].toNat := by
    have haddr : s.address ⟨0, none, (0 : ℕ)⟩ = c.src + i := by
      rw [State.address_disp s 0 (by omega), h0, Nat.add_zero]
    change s.mem.loadLe (s.address ⟨0, none, (0 : ℕ)⟩) 1 = _
    rw [haddr, agreeOff_loadLe_one hmem (c.source_notMem hi) (hsrc.readable hi), hsrc.byte hi]
  obtain ⟨s₁, hr₁, hg₁, hm₁, -, hrip₁⟩ := reaches_compare (k := 162) hrip (c.decode_code rfl)
    (c.decode_code rfl) (by decide) hread rfl (holds_test_high c.bytes[i].toNat_lt)
  by_cases hhigh : 128 ≤ c.bytes[i].toNat
  · rw [if_pos hhigh] at hrip₁
    refine ⟨s₁, hr₁, hm₁, fun r _ _ => congrFun hg₁ r, ?_⟩
    rw [if_pos hhigh, hrip₁]
    exact c.jump_eq rfl (by decide)
  rw [if_neg hhigh] at hrip₁
  obtain ⟨s₂, hr₂, hs₂⟩ := reaches_inc (k := 171) hrip₁ (c.decode_code rfl)
  have h1₂ : (s₂.gpr 1).toNat = n + 1 := by rw [hs₂.other 1 (by decide), hg₁, h1]
  obtain ⟨s₃, hr₃, hs₃⟩ := reaches_dec_jnz (k := 174) hs₂.rip (c.decode_code rfl)
    (c.decode_code rfl) h1₂
  refine ⟨s₃, (hr₁.trans hr₂).trans hr₃, ?_, fun r hr0 hr1 => ?_, ?_⟩
  · rw [hs₃.mem, hs₂.mem, hm₁]
  · rw [hs₃.other r hr1, hs₂.other r hr0, hg₁]
  · rw [if_neg hhigh]
    refine ⟨?_, ?_, ?_⟩
    · rw [hs₃.other 0 (by decide), hs₂.self, hg₁, toNat_add_one h0 (by omega)]
      rfl
    · rw [hs₃.self, toNat_sub_one h1₂]
    · rw [hs₃.rip]
      exact if_congr Iff.rfl (c.jump_eq rfl (by decide)) rfl

/-- **The test of the bytes.** RAX goes over them and RCX counts those that are left. -/
theorem reaches_ascii (hsrc : c.Loaded) {n : ℕ} : ∀ {i : ℕ} {s : State},
    i + (n + 1) = c.bytes.length → s.mem.AgreeOff c.scratch c.entry.mem → s.rip = c.base + 162 →
    (s.gpr 0).toNat = c.src + i → (s.gpr 1).toNat = n + 1 →
    ∃ t, Reaches c.code c.base s t ∧ t.mem = s.mem ∧
      (∀ r, r ≠ 0 → r ≠ 1 → t.gpr r = s.gpr r) ∧
      t.rip = if c.NotAscii i then c.base + 182 else c.base + 179 := by
  induction n with
  | zero =>
    intro i s hi hmem hrip h0 h1
    have hlt : i < c.bytes.length := by omega
    obtain ⟨t, hr, hm, hg, hcase⟩ := c.reaches_ascii_next hsrc hlt hmem hrip h0 h1
    refine ⟨t, hr, hm, hg, ?_⟩
    have hlast : ¬c.NotAscii (i + 1) := hi ▸ c.not_notAscii_length
    by_cases hhigh : 128 ≤ c.bytes[i].toNat
    · rw [if_pos hhigh] at hcase
      rw [if_pos ((c.notAscii_iff hlt).mpr (.inl hhigh)), hcase]
    · rw [if_neg hhigh] at hcase
      rw [if_neg fun h => ((c.notAscii_iff hlt).mp h).elim hhigh hlast, hcase.2.2]
      rfl
  | succ n ih =>
    intro i s hi hmem hrip h0 h1
    have hlt : i < c.bytes.length := by omega
    obtain ⟨t, hr, hm, hg, hcase⟩ := c.reaches_ascii_next hsrc hlt hmem hrip h0 h1
    by_cases hhigh : 128 ≤ c.bytes[i].toNat
    · rw [if_pos hhigh] at hcase
      refine ⟨t, hr, hm, hg, ?_⟩
      rw [if_pos ((c.notAscii_iff hlt).mpr (.inl hhigh)), hcase]
    · rw [if_neg hhigh] at hcase
      obtain ⟨h0', h1', hript⟩ := hcase
      rw [if_pos (Nat.succ_ne_zero n)] at hript
      obtain ⟨t', hr', hm', hg', hript'⟩ := ih (by omega) (hm ▸ hmem) hript h0' h1'
      refine ⟨t', hr.trans hr', hm'.trans hm, fun r hr0 hr1 =>
        (hg' r hr0 hr1).trans (hg r hr0 hr1), ?_⟩
      rw [hript']
      refine if_congr ?_ rfl rfl
      rw [c.notAscii_iff hlt, or_iff_right hhigh]

variable {c} in
theorem Measured.congr {s t : State} (h : c.Measured s) (h6 : t.gpr 6 = s.gpr 6)
    (h3 : t.gpr 3 = s.gpr 3) : c.Measured t :=
  ⟨h.loaded, h.pos, h.lt, h6.trans h.rsi, by rw [h3, h.rbx]⟩

variable {c} in
/-- What was put on the stack for the test is taken off. -/
theorem Inside.reaches_tested {s u : State} (h : c.Inside c.entry.mem s) (hmeas : c.Measured s)
    (target : ℕ) {k n : ℕ} {rel : ℤ} (hrip : u.rip = c.base + k)
    (hpop : decode (c.code.drop k) = some (.pop 1, 1))
    (hjmp : decode (c.code.drop (k + 1)) = some (.jmp rel, n))
    (hrel : ((k + 1 + n : ℕ) : ℤ) + rel = target) (ht : target < 284)
    (hsp : u.gpr 4 = c.entry.gpr 4 - .ofNat 64 (32 + 8))
    (hgpr : ∀ r, r ≠ 0 → r ≠ 1 → r ≠ 4 → u.gpr r = s.gpr r)
    (hmem : u.mem = s.mem.set (c.rsp - 40) 8 (s.gpr 1).toNat) :
    ∃ t, Reaches c.code c.base u t ∧ c.Inside c.entry.mem t ∧ c.Measured t ∧
      t.rip = c.base + target := by
  have hget : u.mem.get (c.rsp - 40) 8 = (s.gpr 1).toNat := by
    rw [hmem, Flat.get_set_of_lt (s.gpr 1).isLt]
  have hw : u.mem.writable = c.entry.mem.writable := by
    rw [hmem, Flat.writable_set, h.writable_mem]
  obtain ⟨u₁, hr₁, hrip₁, hsp₁, -, hg₁, hm₁⟩ := c.reaches_restore (d := 32) hrip hpop (by decide)
    (by decide) hsp hw hget
  obtain ⟨u₂, hr₂, hg₂, hm₂, hrip₂⟩ := c.reaches_to target hrip₁ hjmp hrel ht
  have hg (r : Fin 16) (h0 : r ≠ 0) (h1 : r ≠ 1) (h4 : r ≠ 4) : u₂.gpr r = s.gpr r := by
    rw [hg₂, hg₁ r h4 h1, hgpr r h0 h1 h4]
  refine ⟨u₂, hr₁.trans hr₂, h.of_scratch (hm₂.trans (hm₁.trans hmem)) fun r hr => ?_,
    hmeas.congr (hg 6 (by decide) (by decide) (by decide))
      (hg 3 (by decide) (by decide) (by decide)), hrip₂⟩
  rcases List.mem_cons.mp hr with rfl | hr
  · rw [hg₂, hsp₁, h.sp]
  · have hne : r ≠ 0 ∧ r ≠ 1 ∧ r ≠ 4 := by
      revert hr
      revert r
      decide
    exact hg r hne.1 hne.2.1 hne.2.2

variable {c} in
/-- **ASCII**: on to the destination, or to the fallback. -/
theorem Inside.reaches_checked {s : State} (h : c.Inside c.entry.mem s)
    (hmeas : c.Measured s) (hrip : s.rip = c.base + 146) :
    ∃ t, Reaches c.code c.base s t ∧ c.Inside c.entry.mem t ∧ c.Measured t ∧
      t.rip = if s.reg .byte 11 ≠ 0 ∧ c.NotAscii 0 then c.base + 261 else c.base + 188 := by
  have hroom : 0x1000 ≤ c.rsp := c.stack_room.1
  obtain ⟨s₁, hr₁, hg₁, hm₁, -, hrip₁⟩ := reaches_compare (k := 146) hrip (c.decode_code rfl)
    (c.decode_code rfl) (by decide) rfl rfl holds_test_e
  have h₁ := h.of_compare hg₁ hm₁
  have hmeas₁ : c.Measured s₁ := hmeas.congr (by rw [hg₁]) (by rw [hg₁])
  by_cases hflag : s.reg .byte 11 = 0
  · rw [if_pos hflag] at hrip₁
    refine ⟨s₁, hr₁, h₁, hmeas₁, ?_⟩
    rw [if_neg fun hf => hf.1 hflag, hrip₁]
    exact c.jump_eq rfl (by decide)
  rw [if_neg hflag] at hrip₁
  obtain ⟨s₂, hr₂, hrip₂, hsp₂, hg₂, hm₂⟩ := c.reaches_save (k := 155) (d := 32) hrip₁
    (c.decode_code rfl) (by decide) h₁.sp h₁.writable_mem
  obtain ⟨s₃, hr₃, hs₃⟩ := reaches_mov_reg (k := 156) hrip₂ (c.decode_code rfl)
  obtain ⟨s₄, hr₄, hs₄⟩ := reaches_mov_reg (k := 159) hs₃.rip (c.decode_code rfl)
  have hm₄ : s₄.mem = s₁.mem.set (c.rsp - 40) 8 (s₁.gpr 1).toNat := by
    rw [hs₄.mem, hs₃.mem, hm₂]
  have hagree : s₄.mem.AgreeOff c.scratch c.entry.mem := by
    rw [hm₄]
    exact .trans (.set_left _ fun x hx1 hx2 => ⟨hx1, by omega⟩) h₁.mem
  have h0 : (s₄.gpr 0).toNat = c.src + 0 := by
    rw [hs₄.self, hs₃.other 6 (by decide), hg₂ 6 (by decide), hmeas₁.rsi]
    rfl
  have h1 : (s₄.gpr 1).toNat = c.bytes.length - 1 + 1 := by
    rw [hs₄.other 1 (by decide), hs₃.self, hg₂ 3 (by decide), hmeas₁.rbx,
      Nat.sub_add_cancel hmeas.pos]
  obtain ⟨s₅, hr₅, hm₅, hg₅, hrip₅⟩ := c.reaches_ascii hmeas.loaded (i := 0)
    (by rw [Nat.zero_add, Nat.sub_add_cancel hmeas.pos]) hagree hs₄.rip h0 h1
  have hsp₅ : s₅.gpr 4 = c.entry.gpr 4 - .ofNat 64 (32 + 8) := by
    rw [hg₅ 4 (by decide) (by decide), hs₄.other 4 (by decide), hs₃.other 4 (by decide), hsp₂]
  have hg (r : Fin 16) (n0 : r ≠ 0) (n1 : r ≠ 1) (n4 : r ≠ 4) : s₅.gpr r = s₁.gpr r := by
    rw [hg₅ r n0 n1, hs₄.other r n0, hs₃.other r n1, hg₂ r n4]
  have hr := (((hr₁.trans hr₂).trans hr₃).trans hr₄).trans hr₅
  by_cases hnot : c.NotAscii 0
  · rw [if_pos hnot] at hrip₅
    obtain ⟨t, hrt, ht, hmt, hript⟩ := h₁.reaches_tested hmeas₁ 261 (k := 182) hrip₅
      (c.decode_code rfl) (c.decode_code rfl) rfl (by decide) hsp₅ hg (hm₅.trans hm₄)
    exact ⟨t, hr.trans hrt, ht, hmt, by rw [if_pos ⟨hflag, hnot⟩, hript]⟩
  · rw [if_neg hnot] at hrip₅
    obtain ⟨t, hrt, ht, hmt, hript⟩ := h₁.reaches_tested hmeas₁ 188 (k := 179) hrip₅
      (c.decode_code rfl) (c.decode_code rfl) rfl (by decide) hsp₅ hg (hm₅.trans hm₄)
    exact ⟨t, hr.trans hrt, ht, hmt, by rw [if_neg fun hf => hnot hf.2, hript]⟩

/-! ### The destination -/

variable {c} in
/-- An argument on the stack. -/
theorem Inside.loadLe_arg {s : State} (h : c.Inside c.entry.mem s) {d n : ℕ} (h1 : 32 ≤ d)
    (h2 : d + n ≤ 0x58) :
    s.mem.loadLe (s.address ⟨4, none, d⟩) n = some (c.entry.mem.get (c.rsp + (d - 32)) n) := by
  have hroom : 0x1000 ≤ c.rsp ∧ c.rsp + 0x38 < 2 ^ 64 := c.stack_room
  have hsp : (s.gpr 4).toNat = c.rsp - 32 := by rw [h.sp, c.toNat_rsp (by decide)]
  have haddr : s.address ⟨4, none, d⟩ = c.rsp + (d - 32) := by
    rw [State.address_disp s 4 (by omega), hsp]
    omega
  rw [haddr, (c.rw_stack h.writable_mem (by omega) (by omega)).loadLe,
    Flat.get_congr fun x hx1 hx2 => h.mem.byte x fun hin => absurd hin.2 (by omega)]

variable {c} in
/-- **The destination**: there is none, it is too short, or it takes the source. -/
theorem Inside.reaches_target {s : State} (h : c.Inside c.entry.mem s) (hmeas : c.Measured s)
    (hrip : s.rip = c.base + 188) :
    ∃ t, Reaches c.code c.base s t ∧ c.Inside c.entry.mem t ∧ c.Measured t ∧
      (t.gpr 9).toNat = c.dst ∧
      t.rip = if c.dst = 0 ∨ c.cch = 0 then c.base + 245
        else if c.cch < c.bytes.length then c.base + 253 else c.base + 225 := by
  have hdst : c.dst < 2 ^ 64 := Flat.get_lt ..
  have hcch : c.cch < 2 ^ 32 := Nat.mod_lt _ (by decide)
  obtain ⟨s₁, hr₁, hs₁⟩ := reaches_mov (k := 188) (v := c.dst) hrip (c.decode_code rfl)
    (h.loadLe_arg (d := 72) (by decide) (by decide))
  have h₁ := h.sets hs₁ (by decide)
  have hcch₁ : s₁.read .dword (.mem ⟨4, none, 80⟩) = some c.cch := by
    have hlow : c.cch = c.entry.mem.get (c.rsp + 0x30) 4 := Flat.get_add_mod _ _ 4 4
    rw [hlow]
    exact h₁.loadLe_arg (d := 80) (by decide) (by decide)
  obtain ⟨s₂, hr₂, hs₂⟩ := reaches_mov (k := 193) hs₁.rip (c.decode_code rfl) hcch₁
  have h₂ := h₁.sets hs₂ (by decide)
  have h9 : (s₂.gpr 9).toNat = c.dst := by
    rw [hs₂.other 9 (by decide), hs₁.self, merge_qword_eq, BitVec.toNat_ofNat,
      Nat.mod_mod, Nat.mod_eq_of_lt hdst]
  have h11 : (s₂.gpr 11).toNat = c.cch := by
    rw [hs₂.self, State.toNat_merge_dword, Nat.mod_eq_of_lt hcch]
  have hmeas₂ : c.Measured s₂ := hmeas.congr
    (by rw [hs₂.other 6 (by decide), hs₁.other 6 (by decide)])
    (by rw [hs₂.other 3 (by decide), hs₁.other 3 (by decide)])
  have hread₉ : s₂.read .qword (.reg 9) = some c.dst := by
    change some (s₂.reg .qword 9) = _
    rw [State.reg_qword, h9]
  obtain ⟨s₃, hr₃, hg₃, hm₃, -, hrip₃⟩ := reaches_compare (k := 198) hs₂.rip (c.decode_code rfl)
    (c.decode_code rfl) (by decide) hread₉ hread₉ holds_test_e
  have h₃ := h₂.of_compare hg₃ hm₃
  by_cases hnull : c.dst = 0
  · rw [if_pos hnull] at hrip₃
    refine ⟨s₃, (hr₁.trans hr₂).trans hr₃, h₃, hmeas₂.congr (by rw [hg₃]) (by rw [hg₃]),
      hg₃ ▸ h9, ?_⟩
    rw [if_pos (.inl hnull), hrip₃]
    exact c.jump_eq rfl (by decide)
  rw [if_neg hnull] at hrip₃
  have hread₁₁ {t : State} (ht : t.gpr = s₂.gpr) : t.read .dword (.reg 11) = some c.cch := by
    change some ((t.gpr 11).toNat % 2 ^ 32) = _
    rw [ht, h11, Nat.mod_eq_of_lt hcch]
  obtain ⟨s₄, hr₄, hg₄, hm₄, -, hrip₄⟩ := reaches_compare (k := 207) hrip₃ (c.decode_code rfl)
    (c.decode_code rfl) (by decide) (hread₁₁ hg₃) (hread₁₁ hg₃) holds_test_e
  have h₄ := h₃.of_compare hg₄ hm₄
  have hg₄' : s₄.gpr = s₂.gpr := hg₄.trans hg₃
  by_cases hzero : c.cch = 0
  · rw [if_pos hzero] at hrip₄
    refine ⟨s₄, ((hr₁.trans hr₂).trans hr₃).trans hr₄, h₄,
      hmeas₂.congr (by rw [hg₄']) (by rw [hg₄']), hg₄' ▸ h9, ?_⟩
    rw [if_pos (.inr hzero), hrip₄]
    exact c.jump_eq rfl (by decide)
  rw [if_neg hzero] at hrip₄
  have hread₃ : s₄.read .dword (.reg 3) = some c.bytes.length := by
    have hlt := hmeas.lt
    change some ((s₄.gpr 3).toNat % 2 ^ 32) = _
    rw [hg₄', hmeas₂.rbx, Nat.mod_eq_of_lt (by omega)]
  have hrange : c.bytes.length < Width.range .dword := by
    have hlt := hmeas.lt
    change _ < 2 ^ 32
    omega
  obtain ⟨s₅, hr₅, hg₅, hm₅, -, hrip₅⟩ := reaches_compare (k := 216) hrip₄ (c.decode_code rfl)
    (c.decode_code rfl) (by decide) hread₃ (hread₁₁ hg₄') (holds_cmp_a hrange hcch)
  have hg₅' : s₅.gpr = s₂.gpr := hg₅.trans hg₄'
  refine ⟨s₅, (((hr₁.trans hr₂).trans hr₃).trans hr₄).trans hr₅, h₄.of_compare hg₅ hm₅,
    hmeas₂.congr (by rw [hg₅']) (by rw [hg₅']), hg₅' ▸ h9, ?_⟩
  rw [if_neg (not_or.mpr ⟨hnull, hzero⟩), hrip₅]
  exact if_congr Iff.rfl (c.jump_eq rfl (by decide)) rfl

/-! ### The units -/

variable {c} in
/-- A unit is written to the destination. -/
theorem Inside.of_unit {m : Flat} {s t : State} (h : c.Inside m s) {b v : ℕ}
    (hoff : b + 2 ≤ c.rsp - 40 ∨ c.rsp ≤ b) (hmem : t.mem = s.mem.set b 2 v)
    (hgpr : ∀ r ∈ 4 :: 10 :: 12 :: MbwcCall.held, t.gpr r = s.gpr r) :
    c.Inside (m.set b 2 v) t where
  sp := (hgpr 4 (by decide)).trans h.sp
  saved p hp := by
    have hroom : 0x1000 ≤ c.rsp := c.stack_room.1
    have hle : 8 ≤ p.1 ∧ p.1 ≤ 32 := by
      revert hp
      revert p
      decide
    rw [hmem, Flat.get_set_of_disjoint (by omega), h.saved p hp]
  codePage := by rw [hgpr 10 (by decide), h.codePage]
  length := (hgpr 12 (by decide)).trans h.length
  held r hr := (hgpr r (.tail _ (.tail _ (.tail _ hr)))).trans (h.held r hr)
  mem := hmem ▸ h.mem.put b _
  writable := h.writable

variable {c} in
/-- One unit. -/
theorem Inside.reaches_widen_next {m : Flat} {s : State} (h : c.Inside m s)
    (hrip : s.rip = c.base + 232) (hdf : s.flags.df = false) {a b n : ℕ} (h6 : (s.gpr 6).toNat = a)
    (h7 : (s.gpr 7).toNat = b) (h1 : (s.gpr 1).toNat = n + 1) (ha : a + 1 < 2 ^ 64)
    (hb : b + 2 < 2 ^ 64) (hread : m.readable a = true) (hsrc : a ∉ c.scratch) (hrw : m.Rw b 2)
    (hdst : b + 2 ≤ c.rsp - 40 ∨ c.rsp ≤ b) :
    ∃ t, Reaches c.code c.base s t ∧ c.Inside (m.set b 2 (m.byte a).toNat) t ∧
      t.flags.df = false ∧ (t.gpr 6).toNat = a + 1 ∧ (t.gpr 7).toNat = b + 2 ∧
      (t.gpr 1).toNat = n ∧ t.gpr 3 = s.gpr 3 ∧
      t.rip = if n ≠ 0 then c.base + 232 else c.base + 245 := by
  have hv := (m.byte a).toNat_lt
  have hbyte : s.read .byte (.mem ⟨6, none, 0⟩) = some (m.byte a).toNat := by
    have haddr : s.address ⟨6, none, (0 : ℕ)⟩ = a := by
      rw [State.address_disp s 6 (by omega), h6, Nat.add_zero]
    change s.mem.loadLe (s.address ⟨6, none, (0 : ℕ)⟩) 1 = _
    rw [haddr, agreeOff_loadLe_one h.mem hsrc hread]
  obtain ⟨s₁, hr₁, hs₁⟩ := reaches_movzx (k := 232) hrip (c.decode_code rfl) hbyte
  obtain ⟨s₂, hr₂, hs₂⟩ := reaches_inc (k := 235) hs₁.rip (c.decode_code rfl)
  have h7₂ : s₂.gpr 7 = s.gpr 7 := by rw [hs₂.other 7 (by decide), hs₁.other 7 (by decide)]
  have hmem₂ : s₂.mem = s.mem := hs₂.mem.trans hs₁.mem
  have hal : s₂.reg .word 0 = (m.byte a).toNat := by
    change (s₂.gpr 0).toNat % 2 ^ 16 = _
    rw [hs₂.other 0 (by decide), hs₁.self, State.toNat_merge_dword]
    omega
  have hrw₂ : s₂.mem.Rw (s₂.gpr 7).toNat (Width.bytes .word) := by
    rw [h7₂, h7, hmem₂]
    exact hrw.congr h.mem.writable
  have hr₃ := reaches_stos (k := 238) hs₂.rip (c.decode_code rfl)
    (by rw [hs₂.df, hs₁.df, hdf]) hrw₂
  obtain ⟨s₃, hs₃⟩ : ∃ s₃, s₃ = ((s₂.goTo (c.base + (238 + 2))).setGpr 7
    (s₂.gpr 7 + .ofNat 64 (Width.bytes .word))).setMem
      (s₂.mem.set (s₂.gpr 7).toNat (Width.bytes .word) (s₂.reg .word 0)) := ⟨_, rfl⟩
  have hr₃' : Reaches c.code c.base s₂ s₃ := hs₃ ▸ hr₃
  have hg₃ (r : Fin 16) (hr : r ≠ 7) : s₃.gpr r = s₂.gpr r := by
    rw [hs₃, State.setMem_gpr, State.setGpr_gpr_of_ne _ hr, State.goTo_gpr]
  have hm₃ : s₃.mem = s.mem.set b 2 (m.byte a).toNat := by
    rw [hs₃, State.setMem_mem, hal, h7₂, h7, hmem₂]
    rfl
  have h1₃ : (s₃.gpr 1).toNat = n + 1 := by
    rw [hg₃ 1 (by decide), hs₂.other 1 (by decide), hs₁.other 1 (by decide), h1]
  have hrip₃ : s₃.rip = c.base + 240 := by rw [hs₃]; rfl
  obtain ⟨s₄, hr₄, hs₄⟩ := reaches_dec_jnz (k := 240) hrip₃ (c.decode_code rfl) (c.decode_code rfl)
    h1₃
  have hg₄ (r : Fin 16) (n0 : r ≠ 0) (n1 : r ≠ 1) (n6 : r ≠ 6) (n7 : r ≠ 7) :
      s₄.gpr r = s.gpr r := by
    rw [hs₄.other r n1, hg₃ r n7, hs₂.other r n6, hs₁.other r n0]
  refine ⟨s₄, ((hr₁.trans hr₂).trans hr₃').trans hr₄, h.of_unit hdst (hs₄.mem.trans hm₃)
    fun r hr => ?_, ?_, ?_, ?_, ?_, hg₄ 3 (by decide) (by decide) (by decide) (by decide), ?_⟩
  · have hne : r ≠ 0 ∧ r ≠ 1 ∧ r ≠ 6 ∧ r ≠ 7 := by
      revert hr
      revert r
      decide
    exact hg₄ r hne.1 hne.2.1 hne.2.2.1 hne.2.2.2
  · have hdf₃ : s₃.flags = s₂.flags := by rw [hs₃]; rfl
    rw [hs₄.df, hdf₃, hs₂.df, hs₁.df, hdf]
  · rw [hs₄.other 6 (by decide), hg₃ 6 (by decide), hs₂.self, hs₁.other 6 (by decide),
      toNat_add_one h6 ha]
  · rw [hs₄.other 7 (by decide), hs₃, State.setMem_gpr, State.setGpr_gpr_self, h7₂]
    have h2 : Width.bytes .word = 2 := rfl
    rw [toNat_add_bytes (by rw [h7, h2]; exact hb), h7, h2]
  · rw [hs₄.self, toNat_sub_one h1₃]
  · rw [hs₄.rip]
    exact if_congr Iff.rfl (c.jump_eq rfl (by decide)) rfl

variable {c} in
/-- **The loop of the units.** -/
theorem Inside.reaches_widen {n : ℕ} : ∀ {m : Flat} {s : State} {a b : ℕ}, c.Inside m s →
    s.rip = c.base + 232 → s.flags.df = false → (s.gpr 6).toNat = a → (s.gpr 7).toNat = b →
    (s.gpr 1).toNat = n + 1 → a + (n + 1) < 2 ^ 64 → b + 2 * (n + 1) < 2 ^ 64 →
    (∀ x, a ≤ x → x < a + (n + 1) → m.readable x = true ∧ x ∉ c.scratch) →
    m.Rw b (2 * (n + 1)) → (b + 2 * (n + 1) ≤ c.rsp - 40 ∨ c.rsp ≤ b) →
    ∃ t, Reaches c.code c.base s t ∧ c.Inside (m.widen a b (n + 1)) t ∧ t.gpr 3 = s.gpr 3 ∧
      t.rip = c.base + 245 := by
  induction n with
  | zero =>
    intro m s a b h hrip hdf h6 h7 h1 ha hb hsrc hrw hdst
    obtain ⟨hread, hoff⟩ := hsrc a le_rfl (by omega)
    obtain ⟨t, hr, ht, -, -, -, -, h3, hript⟩ := h.reaches_widen_next hrip hdf h6 h7 h1 ha hb hread
      hoff hrw hdst
    exact ⟨t, hr, ht, h3, hript⟩
  | succ n ih =>
    intro m s a b h hrip hdf h6 h7 h1 ha hb hsrc hrw hdst
    obtain ⟨hread, hoff⟩ := hsrc a le_rfl (by omega)
    obtain ⟨t, hr, ht, hdf', h6', h7', h1', h3, hript⟩ := h.reaches_widen_next hrip hdf h6 h7 h1
      (by omega) (by omega) hread hoff (hrw.mono le_rfl (by omega)) (by omega)
    rw [if_pos (Nat.succ_ne_zero n)] at hript
    obtain ⟨t', hr', ht', h3', hript'⟩ := ih ht hript hdf' h6' h7' h1' (by omega) (by omega)
      (fun x hx1 hx2 => hsrc x (by omega) (by omega))
      ((hrw.mono (by omega) (by omega)).congr rfl) (by omega)
    exact ⟨t', hr.trans hr', ht', h3'.trans h3, hript'⟩

variable {c} in
/-- **The units are written.** -/
theorem Inside.reaches_written {s : State} (h : c.Inside c.entry.mem s) (hmeas : c.Measured s)
    (hrip : s.rip = c.base + 225) (h9 : (s.gpr 9).toNat = c.dst) (hnull : c.dst ≠ 0)
    (hfit : c.bytes.length ≤ c.cch) :
    ∃ t, Reaches c.code c.base s t ∧
      c.Inside (c.entry.mem.widen c.src c.dst c.bytes.length) t ∧
      (t.gpr 3).toNat = c.bytes.length ∧ t.rip = c.base + 245 := by
  have hroom : 0x1000 ≤ c.rsp := c.stack_room.1
  obtain ⟨hrw, htop⟩ := c.target hnull hfit
  have hapart : c.dst + 2 * c.bytes.length ≤ c.rsp - 0x1000 ∨ c.rsp + 8 ≤ c.dst :=
    c.target_apart hnull hfit
  have hpred : c.bytes.length - 1 + 1 = c.bytes.length := Nat.sub_add_cancel hmeas.pos
  obtain ⟨s₁, hr₁, hs₁⟩ := reaches_mov_reg (k := 225) hrip (c.decode_code rfl)
  obtain ⟨s₂, hr₂, hs₂⟩ := reaches_mov_reg (k := 228) hs₁.rip (c.decode_code rfl)
  obtain ⟨s₃, hs₃⟩ : ∃ s₃, s₃ = (s₂.goTo (c.base + 232)).setFlags { s₂.flags with df := false } :=
    ⟨_, rfl⟩
  have hr₃ : Reaches c.code c.base s₂ s₃ :=
    hs₃ ▸ reaches_cld (k := 231) hs₂.rip (c.decode_code rfl)
  have hg₃ : s₃.gpr = s₂.gpr := by rw [hs₃]; rfl
  have hm₃ : s₃.mem = s₂.mem := by rw [hs₃]; rfl
  have h₃ := ((h.sets hs₁ (by decide)).sets hs₂ (by decide)).of_compare hg₃ hm₃
  have h6 : (s₃.gpr 6).toNat = c.src := by
    rw [hg₃, hs₂.other 6 (by decide), hs₁.other 6 (by decide), hmeas.rsi]
    rfl
  have h7 : (s₃.gpr 7).toNat = c.dst := by rw [hg₃, hs₂.self, hs₁.other 9 (by decide), h9]
  have h1 : (s₃.gpr 1).toNat = c.bytes.length - 1 + 1 := by
    rw [hg₃, hs₂.other 1 (by decide), hs₁.self, hmeas.rbx, hpred]
  have hsrc (x : ℕ) (hx1 : c.src ≤ x) (hx2 : x < c.src + c.bytes.length) :
      c.entry.mem.readable x = true ∧ x ∉ c.scratch := by
    obtain ⟨i, rfl⟩ := Nat.exists_eq_add_of_le hx1
    exact ⟨hmeas.loaded.readable (by omega), c.source_notMem (by omega)⟩
  obtain ⟨t, hr₄, ht, h3, hript⟩ := h₃.reaches_widen (by rw [hs₃]; rfl) (by rw [hs₃]; rfl) h6 h7 h1
    (by rw [hpred]; exact c.src_top) (by rw [hpred]; exact htop) (by rw [hpred]; exact hsrc)
    (by rw [hpred]; exact hrw) (by rw [hpred]; omega)
  rw [hpred] at ht
  refine ⟨t, ((hr₁.trans hr₂).trans hr₃).trans hr₄, ht, ?_, hript⟩
  rw [h3, hg₃, hs₂.other 3 (by decide), hs₁.other 3 (by decide), hmeas.rbx]

/-! ### The whole run -/

/-- What the code returns and leaves, where it does not fall back. -/
def result : ℕ × Flat :=
  if c.bytes = [] ∨ c.dst = 0 ∨ c.cch = 0 then (c.bytes.length, c.entry.mem)
  else if c.cch < c.bytes.length then (0, c.entry.mem)
  else (c.bytes.length, c.entry.mem.widen c.src c.dst c.bytes.length)

/-- The code is at the fallback, but of RCX only the lower half is as it was. -/
structure FellBack (t : State) : Prop where
  /-- It is there. -/
  rip : t.rip = c.fallbackVa
  /-- The lower half of RCX. -/
  rcx : (t.gpr 1).toNat = c.codePage
  /-- The other arguments and the stack pointer. -/
  gpr : ∀ r ∈ [2, 8, 9, 4], t.gpr r = c.entry.gpr r
  /-- Memory. -/
  mem : ∀ x, x ∉ c.scratch → t.mem.byte x = c.entry.mem.byte x

theorem fallsBack_iff : c.FallsBack ↔ ¬(c.SingleByte ∨ c.codePage = CP_UTF8) ∨ c.LengthFallsBack ∨
    c.src ≠ 0 ∧ c.codePage = CP_UTF8 ∧ c.NotAscii 0 := by
  rw [FallsBack, LengthFallsBack, NotAscii, List.drop_zero]
  tauto

variable {c} in
theorem SingleByte.ne_utf8 (h : c.SingleByte) : c.codePage ≠ CP_UTF8 := by
  intro he
  rcases h with h | h | h
  · rw [he] at h
    exact absurd h (by decide)
  · exact absurd (he.symm.trans h) (by decide)
  · exact absurd (he.symm.trans h) (by decide)

variable {c} in
/-- The run from the length on. -/
theorem Inside.ends_measured {s : State} (h : c.Inside c.entry.mem s) (hmeas : c.Measured s)
    (hrip : s.rip = c.base + 188) :
    ∃ t, X86.Ends c.code c.base s t ∧ (∀ r ∈ nonvolatile, t.gpr r = c.entry.gpr r) ∧
      c.Returned t c.result.1 c.result.2 := by
  have hne : c.bytes ≠ [] := fun he => absurd hmeas.pos (by rw [he]; decide)
  have hlt := hmeas.lt
  obtain ⟨s₁, hr₁, h₁, hmeas₁, h9, hrip₁⟩ := h.reaches_target hmeas hrip
  by_cases hnone : c.dst = 0 ∨ c.cch = 0
  · have hres : c.result = (c.bytes.length, c.entry.mem) := if_pos (.inr hnone)
    rw [if_pos hnone] at hrip₁
    obtain ⟨t, ht, hnv, hret⟩ := h₁.ends_length hrip₁ rfl (by rw [hmeas₁.rbx]; omega)
    rw [hmeas₁.rbx] at hret
    exact ⟨t, hr₁.ends ht, hnv, hres ▸ hret⟩
  rw [if_neg hnone] at hrip₁
  have hnone' : ¬(c.bytes = [] ∨ c.dst = 0 ∨ c.cch = 0) := not_or.mpr ⟨hne, hnone⟩
  by_cases hsmall : c.cch < c.bytes.length
  · have hres : c.result = (0, c.entry.mem) := (if_neg hnone').trans (if_pos hsmall)
    rw [if_pos hsmall] at hrip₁
    obtain ⟨t, ht, hnv, hret⟩ := h₁.ends_zero hrip₁ rfl
    exact ⟨t, hr₁.ends ht, hnv, hres ▸ hret⟩
  · have hres : c.result = (c.bytes.length, c.entry.mem.widen c.src c.dst c.bytes.length) :=
      (if_neg hnone').trans (if_neg hsmall)
    rw [if_neg hsmall] at hrip₁
    have hnull : c.dst ≠ 0 := fun hz => hnone (.inl hz)
    obtain ⟨s₂, hr₂, h₂, h3, hrip₂⟩ := h₁.reaches_written hmeas₁ hrip₁ h9 hnull (not_lt.mp hsmall)
    have hapart : c.dst + 2 * c.bytes.length ≤ c.rsp - 0x1000 ∨ c.rsp + 8 ≤ c.dst :=
      c.target_apart hnull (not_lt.mp hsmall)
    have hkeep : (c.entry.mem.widen c.src c.dst c.bytes.length).get c.rsp 8 = c.returnAddress :=
      Flat.get_congr fun x h1 h2 => Flat.byte_widen_of_notMem (by omega)
    obtain ⟨t, ht, hnv, hret⟩ := h₂.ends_length hrip₂ hkeep (by rw [h3]; omega)
    rw [h3] at hret
    exact ⟨t, hr₁.ends (hr₂.ends ht), hnv, hres ▸ hret⟩

/-- **The run**: it falls back, or it returns. -/
theorem ends_cases : ∃ t, X86.Ends c.code c.base c.entry t ∧
    (∀ r ∈ nonvolatile, t.gpr r = c.entry.gpr r) ∧
    (c.FallsBack ∧ c.FellBack t ∨ ¬c.FallsBack ∧ c.Returned t c.result.1 c.result.2) := by
  have hfell {s : State} (h : c.Inside c.entry.mem s) (hrip : s.rip = c.base + 261)
      (hr : Reaches c.code c.base c.entry s) (hf : c.FallsBack) :
      ∃ t, X86.Ends c.code c.base c.entry t ∧ (∀ r ∈ nonvolatile, t.gpr r = c.entry.gpr r) ∧
        (c.FallsBack ∧ c.FellBack t ∨ ¬c.FallsBack ∧ c.Returned t c.result.1 c.result.2) := by
    obtain ⟨t, ht, hnv, hript, hrcx, hgpr, hmem⟩ := h.ends_fallback hrip
    exact ⟨t, hr.ends ht, hnv, .inl ⟨hf, hript, hrcx, hgpr, hmem⟩⟩
  obtain ⟨s₁, hr₁, hrip₁, h₁⟩ := c.reaches_inside
  obtain ⟨s₂, hr₂, h₂, hcase₂⟩ := h₁.reaches_page hrip₁
  have hr₁₂ := hr₁.trans hr₂
  by_cases hpage : c.SingleByte ∨ c.codePage = CP_UTF8
  · obtain ⟨hrip₂, hflag⟩ : s₂.rip = c.base + 73 ∧
        (s₂.reg .byte 11 ≠ 0 ↔ c.codePage = CP_UTF8) := by
      by_cases hsingle : c.SingleByte
      · rw [if_pos hsingle] at hcase₂
        exact ⟨hcase₂.1, fun hne => absurd hcase₂.2 hne, fun he => absurd he hsingle.ne_utf8⟩
      · have hutf : c.codePage = CP_UTF8 := hpage.resolve_left hsingle
        rw [if_neg hsingle, if_pos hutf] at hcase₂
        exact ⟨hcase₂.1, fun _ => hutf, fun _ => by rw [hcase₂.2]; decide⟩
    obtain ⟨s₃, hr₃, h₃, h11, hcase₃⟩ := h₂.reaches_length hrip₂
    have hr₁₃ := hr₁₂.trans hr₃
    have hnot (hlen : ¬c.LengthFallsBack)
        (hnil : ¬(c.src ≠ 0 ∧ c.codePage = CP_UTF8 ∧ c.NotAscii 0)) : ¬c.FallsBack := by
      rw [c.fallsBack_iff]
      rintro (h | h | h)
      · exact h hpage
      · exact hlen h
      · exact hnil h
    rcases hcase₃ with ⟨hrip₃, hmeas, hlen⟩ | ⟨hrip₃, hnil, hlen⟩ | ⟨hrip₃, hlen⟩
    · obtain ⟨s₄, hr₄, h₄, hmeas₄, hrip₄⟩ := h₃.reaches_checked hmeas hrip₃
      have hiff : s₃.reg .byte 11 ≠ 0 ∧ c.NotAscii 0 ↔ c.codePage = CP_UTF8 ∧ c.NotAscii 0 := by
        rw [State.reg_congr h11, hflag]
      by_cases hhigh : c.codePage = CP_UTF8 ∧ c.NotAscii 0
      · rw [if_pos (hiff.mpr hhigh)] at hrip₄
        exact hfell h₄ hrip₄ (hr₁₃.trans hr₄)
          (c.fallsBack_iff.mpr (.inr (.inr ⟨hmeas.loaded.1, hhigh⟩)))
      · rw [if_neg fun h => hhigh (hiff.mp h)] at hrip₄
        obtain ⟨t, ht, hnv, hret⟩ := h₄.ends_measured hmeas₄ hrip₄
        exact ⟨t, Reaches.ends (hr₁₃.trans hr₄) ht, hnv, .inr ⟨hnot hlen fun h => hhigh h.2, hret⟩⟩
    · have hres : c.result = (0, c.entry.mem) := by
        rw [result, if_pos (.inl hnil), hnil]
        rfl
      obtain ⟨t, ht, hnv, hret⟩ := h₃.ends_zero hrip₃ rfl
      refine ⟨t, Reaches.ends hr₁₃ ht, hnv, .inr ⟨hnot hlen ?_, hres ▸ hret⟩⟩
      rintro ⟨-, -, b, hb, -⟩
      rw [hnil] at hb
      exact List.not_mem_nil hb
    · exact hfell h₃ hrip₃ hr₁₃ (c.fallsBack_iff.mpr (.inr (.inl hlen)))
  · have hsingle : ¬c.SingleByte := fun h => hpage (.inl h)
    have hutf : ¬c.codePage = CP_UTF8 := fun h => hpage (.inr h)
    rw [if_neg hsingle, if_neg hutf] at hcase₂
    exact hfell h₂ hcase₂ hr₁₂ (.inl hpage)

end MbwcCall

end Wie
