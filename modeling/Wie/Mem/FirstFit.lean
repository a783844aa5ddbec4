import Mathlib.Logic.Function.Iterate
import Mathlib.Order.Bounds.Basic
import Wie.Mem.Vad

/-!
# First fit

The search for free address space skips past what is in its way. It passes over no address at which
the space would be free: between a candidate and the next one there are multiples of the granularity
only where the same allocation is in the way.

Nothing is needed of the table. Its allocations may have any bases and sizes.

## Main definitions

* `VadTable.Feasible` — the addresses the search is for
* `VadTable.Exits` — where the loop of the search ends

## Main results

* `VadTable.searchFrom_exits` — the loop ends
* `VadTable.findFreeRegion_isLeast` — the search is exact
-/

namespace Wie

namespace VadTable

variable {t : VadTable} {size addr a : ℕ} {isPageBusy : ℕ → Bool}

/-- The node has an address of `[a, b)`. -/
def Blocks (n : VadNode) (a b : ℕ) : Prop :=
  n.allocationBase < b ∧ a < n.allocationBase + n.size

/-- An allocation that is not empty has an address in common with what it blocks. -/
theorem blocks_iff_common {n : VadNode} (hn : 0 < n.size) {b : ℕ} (hab : a < b) :
    Blocks n a b ↔
      ∃ va, a ≤ va ∧ va < b ∧ n.allocationBase ≤ va ∧ va < n.allocationBase + n.size := by
  constructor
  · rintro ⟨h1, h2⟩
    exact ⟨max a n.allocationBase, by omega, by omega, by omega, by omega⟩
  · rintro ⟨va, h1, h2, h3, h4⟩
    exact ⟨by omega, by omega⟩

/-- **What the search is for**: a multiple of 64 KiB in the band, whose space no allocation and no
busy page has. -/
structure Feasible (t : VadTable) (size : ℕ) (isPageBusy : ℕ → Bool) (a : ℕ) : Prop where
  /-- A multiple of the granularity. -/
  aligned : a % 0x10000 = 0
  /-- Above the start of the band. -/
  above : 0x100000000 ≤ a
  /-- It ends in the band. -/
  below : a + size ≤ 0x700000000000
  /-- No allocation is there. -/
  clear : ∀ n ∈ t.nodes, ¬Blocks n a (a + size)
  /-- No busy page is there. -/
  idle : ∀ q, a ≤ q * 0x1000 → q * 0x1000 < a + size → isPageBusy q = false

/-! ### One round -/

theorem satAdd_le_band : satAdd addr size ≤ 0x700000000000 ↔ addr + size ≤ 0x700000000000 := by
  rw [satAdd]
  omega

theorem meets_eq_true {n : VadNode} (hin : addr + size ≤ 0x700000000000) :
    meets addr (satAdd addr size) n = true ↔ Blocks n addr (addr + size) := by
  rw [meets, decide_eq_true_eq, satAdd_of_lt (by omega), VadNode.endVa, satAdd, Blocks]
  omega

theorem regionIsFree_iff_clear (hin : addr + size ≤ 0x700000000000) :
    t.regionIsFree addr size isPageBusy = true ↔
      (∀ n ∈ t.nodes, ¬Blocks n addr (addr + size)) ∧
        ∀ q, addr / 0x1000 ≤ q → q < (addr + size) / 0x1000 → isPageBusy q = false := by
  have hover : t.overlaps addr size = false ↔ ∀ n ∈ t.nodes, ¬Blocks n addr (addr + size) := by
    rw [overlaps, List.any_eq_false]
    exact forall₂_congr fun n _ => not_congr (meets_eq_true hin)
  rw [regionIsFree]
  dsimp only
  rw [satAdd_of_lt (by omega), ← hover]
  cases t.overlaps addr size with
  | true => simp
  | false =>
    simp only [Bool.false_eq_true, if_false, true_and]
    exact pagesFree_iff le_rfl

/-- A multiple of the granularity is feasible if the region there is free. -/
theorem feasible_iff (hsize : size % 0x10000 = 0) (ha : addr % 0x10000 = 0)
    (hlow : 0x100000000 ≤ addr) (hin : addr + size ≤ 0x700000000000) :
    Feasible t size isPageBusy addr ↔ t.regionIsFree addr size isPageBusy = true := by
  rw [regionIsFree_iff_clear hin]
  constructor
  · intro h
    exact ⟨h.clear, fun q h1 h2 => h.idle q (by omega) (by omega)⟩
  · rintro ⟨hclear, hidle⟩
    exact ⟨ha, hlow, hin, hclear, fun q h1 h2 => hidle q (by omega) (by omega)⟩

/-- **Progress.** -/
theorem lt_nextCandidate (hin : addr + size ≤ 0x700000000000) :
    addr < t.nextCandidate addr size := by
  have hstep : addr < satAdd addr 0x10000 := by
    rw [satAdd]
    omega
  rw [nextCandidate]
  split
  · split
    · exact hstep
    · omega
  · exact hstep

/-- **Nothing feasible is skipped.** -/
theorem nextCandidate_le (ha : addr % 0x10000 = 0) (hin : addr + size ≤ 0x700000000000)
    (hf : Feasible t size isPageBusy a) (hlt : addr < a) : t.nextCandidate addr size ≤ a := by
  have haligned := hf.aligned
  have hbelow := hf.below
  have hstep : satAdd addr 0x10000 ≤ a := by
    rw [satAdd]
    omega
  rw [nextCandidate]
  split
  next blocker hfind =>
    split
    · exact hstep
    · have hmem := List.mem_of_find?_eq_some hfind
      obtain ⟨hbase, hend⟩ := (meets_eq_true hin).mp (List.find?_some hfind)
      -- the allocation that was in the way is not in the way at `a`
      have hpast : blocker.allocationBase + blocker.size ≤ a := by
        by_contra hlt'
        exact hf.clear blocker hmem ⟨by omega, by omega⟩
      have hendVa : blocker.endVa ≤ a := by
        rw [VadNode.endVa, satAdd]
        omega
      rw [alignUp, if_neg (by decide)]
      split
      · exact hendVa
      · rw [satAdd]
        omega
  next => exact hstep

/-! ### The loop -/

/-- Where the loop ends: outside of the band, or at a free region. -/
def Exits (t : VadTable) (size : ℕ) (isPageBusy : ℕ → Bool) (addr : ℕ) : Prop :=
  0x700000000000 < satAdd addr size ∨ t.regionIsFree addr size isPageBusy = true

/-- **The loop ends**, after fewer rounds than there are addresses in the band. -/
theorem searchFrom_exits {fuel : ℕ} (hfuel : 0x700000000000 < addr + fuel) :
    ∃ k < fuel + 1, Exits t size isPageBusy ((t.nextCandidate · size)^[k] addr) ∧
      (∀ j < k, ¬Exits t size isPageBusy ((t.nextCandidate · size)^[j] addr)) ∧
      t.searchFrom size isPageBusy fuel addr =
        if satAdd ((t.nextCandidate · size)^[k] addr) size ≤ 0x700000000000 then
          some ((t.nextCandidate · size)^[k] addr)
        else none := by
  induction fuel generalizing addr with
  | zero =>
    have hout : 0x700000000000 < satAdd addr size := by
      rw [satAdd]
      omega
    refine ⟨0, by omega, .inl hout, fun j hj => absurd hj (Nat.not_lt_zero j), ?_⟩
    rw [Function.iterate_zero_apply, if_neg (Nat.not_le.mpr hout)]
    rfl
  | succ fuel ih =>
    rw [searchFrom]
    by_cases hin : satAdd addr size ≤ 0x700000000000
    · rw [if_pos hin]
      by_cases hfree : t.regionIsFree addr size isPageBusy = true
      · rw [if_pos hfree]
        refine ⟨0, by omega, .inr hfree, fun j hj => absurd hj (Nat.not_lt_zero j), ?_⟩
        rw [Function.iterate_zero_apply, if_pos hin]
      · rw [if_neg hfree]
        have hprogress := lt_nextCandidate (t := t) (satAdd_le_band.mp hin)
        have hfuel' : 0x700000000000 < t.nextCandidate addr size + fuel := by omega
        obtain ⟨k, hk, hexits, hbefore, hresult⟩ := ih hfuel'
        refine ⟨k + 1, by omega, hexits, ?_, hresult⟩
        rintro (_ | j) hj
        · rintro (hout | hfree')
          · exact absurd hin (Nat.not_le.mpr hout)
          · exact hfree hfree'
        · exact hbefore j (by omega)
    · rw [if_neg hin]
      refine ⟨0, by omega, .inl (Nat.lt_of_not_le hin), fun j hj => absurd hj (Nat.not_lt_zero j), ?_⟩
      rw [Function.iterate_zero_apply, if_neg hin]

/-- **The loop from a candidate on**: the least feasible address from there on. -/
theorem searchFrom_isLeast (t : VadTable) (isPageBusy : ℕ → Bool)
    (hsize : size % 0x10000 = 0) {fuel : ℕ}
    (hfuel : 0x700000000000 < addr + fuel) (hlow : 0x100000000 ≤ addr)
    (ha : addr % 0x10000 = 0 ∨ addr = 2 ^ 64 - 1) :
    match t.searchFrom size isPageBusy fuel addr with
    | some a => IsLeast {b | addr ≤ b ∧ Feasible t size isPageBusy b} a
    | none => ∀ b, addr ≤ b → ¬Feasible t size isPageBusy b := by
  induction fuel generalizing addr with
  | zero =>
    intro b hb hf
    have := hf.below
    omega
  | succ fuel ih =>
    rw [searchFrom]
    by_cases hin : satAdd addr size ≤ 0x700000000000
    · have hin' := satAdd_le_band.mp hin
      have ha' : addr % 0x10000 = 0 := by omega
      rw [if_pos hin]
      by_cases hfree : t.regionIsFree addr size isPageBusy = true
      · rw [if_pos hfree]
        exact ⟨⟨le_rfl, (feasible_iff hsize ha' hlow hin').mpr hfree⟩, fun b hb => hb.1⟩
      · rw [if_neg hfree]
        have hprogress := lt_nextCandidate (t := t) hin'
        have hfuel' : 0x700000000000 < t.nextCandidate addr size + fuel := by omega
        have hrest := ih hfuel' (by omega) (nextCandidate_mod ha')
        -- from the candidate on, what is feasible is so from the next one on
        have hskip (b : ℕ) (hb : addr ≤ b) (hf : Feasible t size isPageBusy b) :
            t.nextCandidate addr size ≤ b := by
          rcases Nat.eq_or_lt_of_le hb with rfl | hlt
          · exact absurd ((feasible_iff hsize ha' hlow hin').mp hf) hfree
          · exact nextCandidate_le ha' hin' hf hlt
        cases hs : t.searchFrom size isPageBusy fuel (t.nextCandidate addr size) with
        | none =>
          rw [hs] at hrest
          exact fun b hb hf => hrest b (hskip b hb hf) hf
        | some a =>
          rw [hs] at hrest
          obtain ⟨⟨hle, hf⟩, hleast⟩ := hrest
          exact ⟨⟨by omega, hf⟩, fun b hb => hleast ⟨hskip b hb.1 hb.2, hb.2⟩⟩
    · rw [if_neg hin]
      intro b hb hf
      have hbelow := hf.below
      rw [satAdd_le_band] at hin
      omega

/-- **First fit.** The loop of the search ends. The search returns the least address that it is for,
and nothing exactly when it is asked for no space or for a part of a unit, or there is none. -/
theorem findFreeRegion_isLeast (t : VadTable) (size : ℕ) (isPageBusy : ℕ → Bool) :
    (∃ k, Exits t size isPageBusy ((t.nextCandidate · size)^[k] 0x100000000)) ∧
      (∀ a, t.findFreeRegion size isPageBusy = some a ↔
        0 < size ∧ size % 0x10000 = 0 ∧ IsLeast {b | Feasible t size isPageBusy b} a) ∧
      (t.findFreeRegion size isPageBusy = none ↔
        size = 0 ∨ size % 0x10000 ≠ 0 ∨ ∀ a, ¬Feasible t size isPageBusy a) := by
  have hfuel : 0x700000000000 < 0x100000000 + (0x700000000000 - 0x100000000 + 1) := by decide
  refine ⟨?_, ?_⟩
  · obtain ⟨k, -, hexits, -⟩ : ∃ k < _, Exits t size isPageBusy _ ∧ _ := searchFrom_exits hfuel
    exact ⟨k, hexits⟩
  rw [findFreeRegion]
  by_cases hsize : size = 0 ∨ size % 0x10000 ≠ 0
  · rw [if_pos hsize]
    refine ⟨fun a => iff_of_false (by simp) ?_, iff_of_true rfl (hsize.imp_right .inl)⟩
    rintro ⟨h0, h1, -⟩
    omega
  · rw [if_neg hsize]
    have hmod : size % 0x10000 = 0 := by omega
    have hpos : 0 < size := by omega
    have hloop := t.searchFrom_isLeast isPageBusy hmod hfuel le_rfl (.inl rfl)
    have hband : {b | 0x100000000 ≤ b ∧ Feasible t size isPageBusy b} =
        {b | Feasible t size isPageBusy b} :=
      Set.ext fun b => and_iff_right_of_imp Feasible.above
    cases hs : t.searchFrom size isPageBusy (0x700000000000 - 0x100000000 + 1) 0x100000000 with
    | none =>
      rw [hs] at hloop
      have hnone (a : ℕ) : ¬Feasible t size isPageBusy a := fun hf => hloop a hf.above hf
      refine ⟨fun a => iff_of_false (by simp) ?_, iff_of_true rfl (.inr (.inr hnone))⟩
      rintro ⟨-, -, hf, -⟩
      exact hnone a hf
    | some a =>
      rw [hs] at hloop
      have hleast : IsLeast {b | Feasible t size isPageBusy b} a := hband ▸ hloop
      refine ⟨fun b => ⟨?_, ?_⟩, iff_of_false (by simp) ?_⟩
      · rintro ⟨⟩
        exact ⟨hpos, hmod, hleast⟩
      · rintro ⟨-, -, hb⟩
        rw [hleast.unique hb]
      · rintro (h0 | h1 | hnone)
        · omega
        · exact h1 hmod
        · exact hnone a hleast.1

end VadTable

end Wie
