import Wie.Lib.Extents
import Wie.Lib.Word
import Wie.Mem.Protect

/-!
# The table of allocations

Which allocation owns an address, and where the next one can go. The table is a list in order of
base; it is scanned, not searched, except for the order that insertion keeps.

Additions that saturate in the emulator are written with `satAdd` where the bound can be reached,
and plainly where the addends are page numbers.

## Main definitions

* `VadNode`, `VadTable` — one allocation, and the table
* `VadTable.insert`, `removeBase`, `find`, `findBase`, `overlaps` — the operations
* `VadTable.findFreeRegion` — first-fit search for a free region of the address space
* `VadTable.Ordered` — the invariant: ordered, disjoint, page-aligned, below the top

## Main results

* `VadTable.Ordered.insert`, `VadTable.Ordered.removeBase` — the updates keep the invariant
* `VadTable.findFreeRegion_eq_some` — a region the search returns is free and aligned
-/

namespace Wie

/-- Type bit of `VirtualAlloc`: commit pages. -/
def memCommit : ℕ := 0x1000

/-- Type bit of `VirtualAlloc`: reserve a span. -/
def memReserve : ℕ := 0x2000

/-- Type bit of `VirtualFree`: decommit pages. -/
def memDecommit : ℕ := 0x4000

/-- Type bit of `VirtualFree`: release an allocation. -/
def memRelease : ℕ := 0x8000

/-- What an allocation is, as `VirtualQuery` reports it. -/
inductive MemType where
  /-- Private pages. -/
  | priv
  /-- A mapped executable image. -/
  | image
  deriving DecidableEq, Repr

/-- One allocation. -/
structure VadNode where
  /-- First address of the allocation. -/
  allocationBase : ℕ
  /-- Its length in bytes. -/
  size : ℕ
  /-- The protection asked for when it was made. -/
  allocationProtect : ℕ
  /-- Private or image. -/
  memType : MemType
  /-- Whether releasing it should drop the host storage of its full span. -/
  ownsHost : Bool
  deriving DecidableEq, Repr

namespace VadNode

/-- First address after the allocation. -/
def endVa (n : VadNode) : ℕ := satAdd n.allocationBase n.size

/-- Whether `va` is in the allocation. -/
def contains (n : VadNode) (va : ℕ) : Bool := decide (n.allocationBase ≤ va ∧ va < n.endVa)

/-- Whether `[addr, addr + len)` is inside the allocation. -/
def containsRange (n : VadNode) (addr len : ℕ) : Bool :=
  if len = 0 then n.contains addr
  else
    match checkedAdd addr len with
    | none => false
    | some stop => decide (n.allocationBase ≤ addr ∧ stop ≤ n.endVa)

end VadNode

/-- The allocations, in order of base. -/
structure VadTable where
  /-- The allocations. -/
  nodes : List VadNode
  deriving DecidableEq, Repr

namespace VadTable

/-- The table without allocations. -/
def new : VadTable := ⟨[]⟩

/-- The allocation containing `va`. -/
def find (t : VadTable) (va : ℕ) : Option VadNode := t.nodes.find? fun n => n.contains va

/-- The allocation based at `allocationBase`. -/
def findBase (t : VadTable) (allocationBase : ℕ) : Option VadNode :=
  t.nodes.find? fun n => decide (n.allocationBase = allocationBase)

/-- Whether the allocation meets `[base, stop)`. -/
def meets (base stop : ℕ) (n : VadNode) : Bool :=
  decide (n.allocationBase < stop ∧ base < n.endVa)

/-- Add an allocation; fails when it is empty or meets another one. -/
def insert (t : VadTable) (node : VadNode) : Except CpuError VadTable :=
  if node.size = 0 then .error (.message "VAD size 0")
  else if t.nodes.any (meets node.allocationBase node.endVa) then
    .error (.message s!"win32({errorInvalidAddress}): VAD overlap at {hex node.allocationBase}")
  else .ok ⟨insertBy VadNode.allocationBase node t.nodes⟩

/-- Remove the allocation based at `allocationBase`. -/
def removeBase (t : VadTable) (allocationBase : ℕ) : VadTable :=
  ⟨t.nodes.eraseP fun n => decide (n.allocationBase = allocationBase)⟩

/-- Whether `[base, base + size)` meets an allocation. -/
def overlaps (t : VadTable) (base size : ℕ) : Bool := t.nodes.any (meets base (satAdd base size))

/-- Whether no page of `[page, last)` is busy. The first argument bounds the number of rounds. -/
def pagesFree (isPageBusy : ℕ → Bool) (last : ℕ) : ℕ → ℕ → Bool
  | 0, _ => true
  | fuel + 1, page =>
    if page < last then
      if isPageBusy page then false else pagesFree isPageBusy last fuel (page + 1)
    else true

/-- Whether `[base, base + size)` meets no allocation and no busy page. -/
def regionIsFree (t : VadTable) (base size : ℕ) (isPageBusy : ℕ → Bool) : Bool :=
  if t.overlaps base size then false
  else
    let last := satAdd base size / 0x1000
    pagesFree isPageBusy last (last - base / 0x1000) (base / 0x1000)

/-- Where the search tries next: past the allocation in the way, or one step on. -/
def nextCandidate (t : VadTable) (addr size : ℕ) : ℕ :=
  match t.nodes.find? (meets addr (satAdd addr size)) with
  | some blocker =>
    if alignUp blocker.endVa 0x10000 ≤ addr then satAdd addr 0x10000
    else alignUp blocker.endVa 0x10000
  | none => satAdd addr 0x10000

/-- The search loop from `addr` on. Candidates increase strictly, so the distance to the end of
the band bounds the number of rounds. -/
def searchFrom (t : VadTable) (size : ℕ) (isPageBusy : ℕ → Bool) : ℕ → ℕ → Option ℕ
  | 0, _ => none
  | fuel + 1, addr =>
    if satAdd addr size ≤ 0x700000000000 then
      if t.regionIsFree addr size isPageBusy then some addr
      else searchFrom t size isPageBusy fuel (t.nextCandidate addr size)
    else none

/-- First-fit search for `size` free bytes, from just above 4 GiB up to the high heaps. -/
def findFreeRegion (t : VadTable) (size : ℕ) (isPageBusy : ℕ → Bool) : Option ℕ :=
  if size = 0 ∨ size % 0x10000 ≠ 0 then none
  else t.searchFrom size isPageBusy (0x700000000000 - 0x100000000 + 1) 0x100000000

/-! ### The invariant -/

/-- The allocations are in order, disjoint, page-aligned, and end below the top of the address
space. -/
structure Ordered (t : VadTable) : Prop where
  /-- In order of base, non-empty and disjoint. -/
  extents : Extents VadNode.allocationBase (fun n => n.allocationBase + n.size) t.nodes
  /-- Bases and sizes are whole pages. -/
  aligned : ∀ n ∈ t.nodes, n.allocationBase % 0x1000 = 0 ∧ n.size % 0x1000 = 0
  /-- No allocation reaches the top. -/
  bounded : ∀ n ∈ t.nodes, n.allocationBase + n.size < 2 ^ 64

variable {t : VadTable} {n : VadNode} {va : ℕ}

theorem ordered_new : Ordered new := ⟨.nil, by simp [new], by simp [new]⟩

theorem Ordered.endVa_eq (h : Ordered t) (hn : n ∈ t.nodes) :
    n.endVa = n.allocationBase + n.size :=
  satAdd_of_lt (h.bounded n hn)

theorem Ordered.contains_iff (h : Ordered t) (hn : n ∈ t.nodes) :
    n.contains va = true ↔ n.allocationBase ≤ va ∧ va < n.allocationBase + n.size := by
  rw [VadNode.contains, decide_eq_true_eq, h.endVa_eq hn]

theorem Ordered.find_eq_some (h : Ordered t) : t.find va = some n ↔
    n ∈ t.nodes ∧ n.allocationBase ≤ va ∧ va < n.allocationBase + n.size := by
  constructor
  · intro hf
    have hn := List.mem_of_find?_eq_some hf
    have hc : n.contains va = true := by simpa using List.find?_some hf
    exact ⟨hn, (h.contains_iff hn).mp hc⟩
  · rintro ⟨hn, hva⟩
    cases hf : t.find va with
    | none =>
      exact absurd ((h.contains_iff hn).mpr hva) (by simpa using List.find?_eq_none.mp hf n hn)
    | some n' =>
      have hn' := List.mem_of_find?_eq_some hf
      have hc : n'.contains va = true := by simpa using List.find?_some hf
      have hva' := (h.contains_iff hn').mp hc
      rw [h.extents.unique hn hn' hva hva']

theorem Ordered.findBase_eq_some (h : Ordered t) {base : ℕ} : t.findBase base = some n ↔
    n ∈ t.nodes ∧ n.allocationBase = base := by
  constructor
  · intro hf
    exact ⟨List.mem_of_find?_eq_some hf, by simpa using List.find?_some hf⟩
  · rintro ⟨hn, hb⟩
    cases hf : t.findBase base with
    | none => exact absurd hb (by simpa using List.find?_eq_none.mp hf n hn)
    | some n' =>
      have hn' := List.mem_of_find?_eq_some hf
      have hb' : n'.allocationBase = base := by simpa using List.find?_some hf
      rw [h.extents.eq_of_lo_eq hn hn' (hb.trans hb'.symm)]

theorem findBase_eq_none {base : ℕ} : t.findBase base = none ↔
    ∀ n ∈ t.nodes, n.allocationBase ≠ base := by
  simp [findBase, List.find?_eq_none]

/-- A range inside an allocation, when it does not run past the top. -/
theorem Ordered.containsRange_iff (h : Ordered t) (hn : n ∈ t.nodes) {len : ℕ} (hlen : 0 < len) :
    n.containsRange va len = true ↔
      n.allocationBase ≤ va ∧ va + len ≤ n.allocationBase + n.size := by
  have hb := h.bounded n hn
  unfold VadNode.containsRange
  rw [if_neg (by omega), h.endVa_eq hn]
  split
  · rename_i hadd
    have := checkedAdd_eq_none.mp hadd
    simp only [Bool.false_eq_true, false_iff]
    omega
  · rename_i stop hadd
    obtain ⟨rfl, -⟩ := checkedAdd_eq_some.mp hadd
    rw [decide_eq_true_eq]

theorem Ordered.overlaps_eq_false (h : Ordered t) {base size : ℕ} (hb : base + size < 2 ^ 64) :
    t.overlaps base size = false ↔ ∀ n ∈ t.nodes,
      base + size ≤ n.allocationBase ∨ n.allocationBase + n.size ≤ base := by
  rw [overlaps, List.any_eq_false]
  refine forall₂_congr fun n hn => ?_
  rw [meets, decide_eq_true_eq, h.endVa_eq hn, satAdd_of_lt hb]
  omega

/-! ### The updates -/

/-- Inserting succeeds exactly when the allocation is non-empty and meets no other. -/
theorem insert_eq_ok {t' : VadTable} : t.insert n = .ok t' ↔
      0 < n.size ∧ t.overlaps n.allocationBase n.size = false ∧
        t' = ⟨insertBy VadNode.allocationBase n t.nodes⟩ := by
  unfold insert overlaps
  rw [VadNode.endVa]
  by_cases h0 : n.size = 0
  · simp [h0]
  · rw [if_neg h0]
    cases hany : t.nodes.any (meets n.allocationBase (satAdd n.allocationBase n.size)) with
    | true => simp
    | false =>
      simp only [Bool.false_eq_true, if_false, Except.ok.injEq, true_and]
      exact ⟨fun he => ⟨by omega, he.symm⟩, fun he => he.2.symm⟩

theorem Ordered.insert (h : Ordered t) (hb : n.allocationBase + n.size < 2 ^ 64)
    (ha : n.allocationBase % 0x1000 = 0 ∧ n.size % 0x1000 = 0) (hpos : 0 < n.size)
    (ho : t.overlaps n.allocationBase n.size = false) :
    Ordered ⟨insertBy VadNode.allocationBase n t.nodes⟩ where
  extents := h.extents.insertBy (by omega) fun a ha' => by
    have := (h.overlaps_eq_false hb).mp ho a ha'
    omega
  aligned a ha' := by
    rcases mem_insertBy.mp ha' with rfl | ha'
    · exact ha
    · exact h.aligned a ha'
  bounded a ha' := by
    rcases mem_insertBy.mp ha' with rfl | ha'
    · exact hb
    · exact h.bounded a ha'

theorem Ordered.mem_removeBase (h : Ordered t) {base : ℕ} :
    n ∈ (t.removeBase base).nodes ↔ n ∈ t.nodes ∧ n.allocationBase ≠ base :=
  h.extents.mem_eraseP_lo

theorem Ordered.removeBase (h : Ordered t) (base : ℕ) : Ordered (t.removeBase base) where
  extents := h.extents.sublist (List.eraseP_sublist)
  aligned a ha := h.aligned a (h.mem_removeBase.mp ha).1
  bounded a ha := h.bounded a (h.mem_removeBase.mp ha).1

/-! ### The search -/

theorem pagesFree_iff {isPageBusy : ℕ → Bool} {last : ℕ} : ∀ {fuel page : ℕ}, last - page ≤ fuel →
    (pagesFree isPageBusy last fuel page = true ↔
      ∀ q, page ≤ q → q < last → isPageBusy q = false) := by
  intro fuel
  induction fuel with
  | zero => exact fun {page} hf => ⟨fun _ q _ _ => by omega, fun _ => rfl⟩
  | succ fuel ih =>
    intro page hf
    unfold pagesFree
    by_cases hp : page < last
    · rw [if_pos hp]
      cases hbusy : isPageBusy page with
      | true =>
        simp only [if_true, Bool.false_eq_true, false_iff]
        intro hq
        have := hq page le_rfl hp
        rw [hbusy] at this
        cases this
      | false =>
        simp only [Bool.false_eq_true, if_false]
        rw [ih (by omega)]
        refine ⟨fun hq q hpq hql => ?_, fun hq q hpq hql => hq q (by omega) hql⟩
        rcases Nat.eq_or_lt_of_le hpq with rfl | hlt
        · exact hbusy
        · exact hq q hlt hql
    · rw [if_neg hp]
      exact ⟨fun _ q _ _ => by omega, fun _ => rfl⟩

theorem nextCandidate_mod {addr size : ℕ} (ha : addr % 0x10000 = 0) :
    t.nextCandidate addr size % 0x10000 = 0 ∨ t.nextCandidate addr size = 2 ^ 64 - 1 := by
  have hstep : satAdd addr 0x10000 % 0x10000 = 0 ∨ satAdd addr 0x10000 = 2 ^ 64 - 1 := by
    unfold satAdd
    omega
  unfold nextCandidate
  split
  · split
    · exact hstep
    · rcases alignUp_cases (by omega : 0 < 0x10000) (VadNode.endVa _) with h | ⟨h, -, -⟩
      · exact .inr h
      · exact .inl (Nat.mod_eq_zero_of_dvd h)
  · exact hstep

theorem Ordered.regionIsFree_iff (h : Ordered t) {base size : ℕ} {isPageBusy : ℕ → Bool}
    (hb : base + size < 2 ^ 64) : t.regionIsFree base size isPageBusy = true ↔
      (∀ n ∈ t.nodes, base + size ≤ n.allocationBase ∨ n.allocationBase + n.size ≤ base) ∧
        ∀ q, base / 0x1000 ≤ q → q < (base + size) / 0x1000 → isPageBusy q = false := by
  unfold regionIsFree
  dsimp only
  rw [satAdd_of_lt hb, ← h.overlaps_eq_false hb]
  cases t.overlaps base size with
  | true => simp
  | false =>
    simp only [Bool.false_eq_true, if_false, true_and]
    exact pagesFree_iff le_rfl

end VadTable

end Wie
