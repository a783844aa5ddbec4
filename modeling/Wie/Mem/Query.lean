import Wie.Lib.Spread
import Wie.Mem.Lockstep

/-!
# Asking about an address

`VirtualQuery` tells the state of the page at an address, and how far to both sides the pages of its
allocation are in the same state. The run of the page map it starts from is clipped to the
allocation and then grown over the runs next to it. Of a free page it tells how far the free pages
go on.

A page that is in use outside every allocation is reported as free. Overlapping maps can make such
pages.

## Main definitions

* `MemoryBasicInformation` — what is told
* `GuestMemory.virtualQuery`, `queryFree` — the call
* `GuestMemory.QueryRight` — the answer is sound and the range in it maximal

## Main results

* `GuestMemory.Inv.queryRight_iff` — the answers that are right
* `GuestMemory.virtualQuery_right_iff` — the same over runs; with regular maps all are right
* `GuestMemory.not_virtualQuery_right` — a committed page that is reported as free
-/

namespace Wie

/-- State of a free page, as `VirtualQuery` reports it. -/
def memFree : ℕ := 0x10000

/-- Type of private pages. -/
def memPrivate : ℕ := 0x20000

/-- Type of the pages of an image. -/
def memImage : ℕ := 0x1000000

/-- The value of the `Type` field. -/
def MemType.win32 : MemType → ℕ
  | .priv => memPrivate
  | .image => memImage

/-- What `VirtualQuery` tells of an address. -/
structure MemoryBasicInformation where
  /-- First address of the range. -/
  baseAddress : ℕ
  /-- Base of the allocation, zero when free. -/
  allocationBase : ℕ
  /-- The protection the allocation was made with, zero when free. -/
  allocationProtect : ℕ
  /-- Length of the range. -/
  regionSize : ℕ
  /-- Committed, reserved or free. -/
  state : ℕ
  /-- The protection of committed pages, otherwise zero. -/
  protect : ℕ
  /-- Private or image, zero when free. -/
  type : ℕ
  deriving DecidableEq, Repr

namespace GuestMemory

open PageMap (Holds Shape)

variable {env : HostEnv} {m : GuestMemory} {addr : ℕ}

/-- Pages of the two values make one range: the states agree and, of committed pages, the
protections. -/
def Merges (v w : PageState × ℕ) : Prop := w.1 = v.1 ∧ (v.1 ≠ .committed ∨ w.2 = v.2)

instance (v w : PageState × ℕ) : Decidable (Merges v w) := inferInstanceAs (Decidable (_ ∧ _))

/-- The run covering a page, if it makes one range with `run`. -/
def mergeable (m : GuestMemory) (run : PageRun) (page : ℕ) : Option PageRun :=
  match m.pages.lookup page with
  | some r => if Merges (run.state, run.protect) (r.state, r.protect) then some r else none
  | none => none

/-- Where the free range from a page on is taken to end: at the next allocation or the next run, or
one step of the allocation granularity further when nothing follows. -/
def freeEnd (m : GuestMemory) (pageVa : ℕ) : ℕ :=
  let nextVad := ((m.vad.nodes.map VadNode.allocationBase).filter fun b => pageVa < b).min?
  let nextRun := (m.pages.runs.values.map fun r => satMul r.startPage 0x1000).find?
    fun b => pageVa < b
  match nextVad, nextRun with
  | some a, some b => min a b
  | some a, none => a
  | none, some b => b
  | none, none => satAdd pageVa 0x10000

/-- The answer for a free page. -/
def queryFree (m : GuestMemory) (pageVa : ℕ) : MemoryBasicInformation :=
  let pageKey := pageVa / 0x1000
  let endPage := if satAdd pageKey 1 < m.freeEnd pageVa / 0x1000 then m.freeEnd pageVa / 0x1000
    else satAdd pageKey 1
  { baseAddress := pageVa
    allocationBase := 0
    allocationProtect := 0
    regionSize := max (satMul (endPage - pageKey) 0x1000) 0x1000
    state := memFree
    protect := 0
    type := 0 }

/-- `VirtualQuery`. -/
def virtualQuery (m : GuestMemory) (addr : ℕ) : MemoryBasicInformation :=
  let pageVa := alignDown addr 0x1000
  let pageKey := pageVa / 0x1000
  match m.pages.lookup pageKey with
  | none => m.queryFree pageVa
  | some run =>
    match m.vad.find pageVa with
    -- a page in use outside every allocation
    | none => m.queryFree pageVa
    | some node =>
      let allocStart := node.allocationBase / 0x1000
      let allocEnd := node.endVa / 0x1000
      let runStart := if pageKey < max run.startPage allocStart then pageKey
        else max run.startPage allocStart
      let runEnd := if min run.endPage allocEnd ≤ pageKey then satAdd pageKey 1
        else min run.endPage allocEnd
      let runStart := spreadDown (fun p => (m.mergeable run p).map PageRun.startPage) allocStart
        (runStart - allocStart) runStart
      let runEnd := spreadUp (fun p => (m.mergeable run p).map PageRun.endPage) allocEnd
        (allocEnd - runEnd) runEnd
      let (state, protect) := match run.state with
        | .committed => (memCommit, run.protect)
        | .reserved => (memReserve, 0)
        | .free => (memFree, 0)
      { baseAddress := satMul runStart 0x1000
        allocationBase := node.allocationBase
        allocationProtect := node.allocationProtect
        regionSize := satMul (runEnd - runStart) 0x1000
        state := state
        protect := protect
        type := node.memType.win32 }

/-! ### Right answers -/

/-- The state and the protection that are told of a page in use. -/
def told (v : PageState × ℕ) : ℕ × ℕ :=
  match v.1 with
  | .committed => (memCommit, v.2)
  | .reserved => (memReserve, 0)
  | .free => (memFree, 0)

/-- The answer describes the allocation and a maximal range in it of pages like the one asked
for. -/
structure QueryUsed (m : GuestMemory) (v : PageState × ℕ) (info : MemoryBasicInformation)
    (node : VadNode) : Prop where
  /-- The allocation exists. -/
  mem : node ∈ m.vad.nodes
  /-- What is told of the allocation. -/
  allocation : info.allocationBase = node.allocationBase ∧
    info.allocationProtect = node.allocationProtect ∧ info.type = node.memType.win32
  /-- What is told of the page. -/
  told : (info.state, info.protect) = told v
  /-- The range is inside the allocation, and its pages are like the one asked for. -/
  range : ∀ x, info.baseAddress ≤ x → x < info.baseAddress + info.regionSize →
    (node.allocationBase ≤ x ∧ x < node.allocationBase + node.size) ∧
      ∃ w, m.pages.table (x / 0x1000) = some w ∧ Merges v w
  /-- The page before the range, if it is of the allocation, is not like them. -/
  before : node.allocationBase < info.baseAddress →
    ¬ ∃ w, m.pages.table (info.baseAddress / 0x1000 - 1) = some w ∧ Merges v w
  /-- The page after the range, if it is of the allocation, is not like them. -/
  after : info.baseAddress + info.regionSize < node.allocationBase + node.size →
    ¬ ∃ w, m.pages.table ((info.baseAddress + info.regionSize) / 0x1000) = some w ∧ Merges v w

/-- The answer is sound, and maximal where the page is in use. -/
structure QueryRight (m : GuestMemory) (addr : ℕ) (info : MemoryBasicInformation) : Prop where
  /-- The range is of whole pages. -/
  aligned : info.baseAddress % 0x1000 = 0 ∧ info.regionSize % 0x1000 = 0
  /-- The range holds the page asked for. -/
  holds : info.baseAddress ≤ alignDown addr 0x1000 ∧
    alignDown addr 0x1000 < info.baseAddress + info.regionSize
  /-- A page in use. -/
  used : ∀ v, m.pages.table (addr / 0x1000) = some v → ∃ node, QueryUsed m v info node
  /-- A free page: it is told so, and all pages of the range are free. -/
  free : m.pages.table (addr / 0x1000) = none → info.state = memFree ∧
    ∀ x, info.baseAddress ≤ x → x < info.baseAddress + info.regionSize →
      m.pages.table (x / 0x1000) = none

/-! ### Free pages -/

/-- The first element of an ordered list that meets a condition is at most every other that
does. -/
theorem find?_le {l : List ℕ} (hl : l.Pairwise (· ≤ ·)) {c : ℕ → Bool} {b : ℕ} (hb : b ∈ l)
    (hc : c b = true) : ∃ a, l.find? c = some a ∧ a ≤ b := by
  induction l with
  | nil => simp at hb
  | cons a l ih =>
    obtain ⟨hhead, htail⟩ := List.pairwise_cons.mp hl
    by_cases ha : c a = true
    · refine ⟨a, List.find?_cons_of_pos ha, ?_⟩
      rcases List.mem_cons.mp hb with rfl | hb
      · exact le_rfl
      · exact hhead b hb
    · rw [List.find?_cons_of_neg ha]
      rcases List.mem_cons.mp hb with rfl | hb
      · exact absurd hc ha
      · exact ih htail hb

/-- The starts of the runs are in order. -/
theorem pairwise_starts (h : Shape m.pages.runs) :
    (m.pages.runs.values.map fun r => satMul r.startPage 0x1000).Pairwise (· ≤ ·) := by
  rw [OrdMap.values, List.map_map, List.pairwise_map]
  refine m.pages.runs.sorted.imp_of_mem fun {a b} ha hb hab => ?_
  rw [h.keyed a ha, h.keyed b hb] at hab
  have hmul : a.2.startPage * 0x1000 ≤ b.2.startPage * 0x1000 := Nat.mul_le_mul_right _ hab.le
  exact min_le_min_right _ hmul

theorem freeEnd_lt (h : Inv env m) (pageVa : ℕ) : m.freeEnd pageVa < 2 ^ 64 := by
  have hvad (a : ℕ)
      (ha : ((m.vad.nodes.map VadNode.allocationBase).filter fun b => pageVa < b).min? = some a) :
      a < 2 ^ 64 := by
    have hmem := List.mem_of_mem_filter (List.min?_mem ha)
    obtain ⟨n, hn, rfl⟩ := List.mem_map.mp hmem
    have := h.vad.bounded n hn
    omega
  have hrun (b : ℕ)
      (hb : (m.pages.runs.values.map fun r => satMul r.startPage 0x1000).find?
        (fun b => pageVa < b) = some b) : b < 2 ^ 64 := by
    obtain ⟨r, -, rfl⟩ := List.mem_map.mp (List.mem_of_find?_eq_some hb)
    unfold satMul
    omega
  unfold freeEnd
  dsimp only
  split
  · rename_i a b ha hb
    exact (min_le_left a b).trans_lt (hvad a ha)
  · rename_i a ha hb
    exact hvad a ha
  · rename_i b ha hb
    exact hrun b hb
  · exact satAdd_lt _ _

/-- The range ends at or before every later run. -/
theorem freeEnd_le (h : Inv env m) {pageVa : ℕ} (hal : pageVa % 0x1000 = 0)
    (hlt : pageVa < 2 ^ 64) {r : PageRun} (hr : Holds m.pages.runs r)
    (hlater : pageVa / 0x1000 < r.startPage) : m.freeEnd pageVa ≤ r.startPage * 0x1000 := by
  have hmem : satMul r.startPage 0x1000 ∈
      m.pages.runs.values.map fun r => satMul r.startPage 0x1000 :=
    List.mem_map_of_mem (OrdMap.mem_values.mpr ⟨_, hr⟩)
  have hpast : pageVa < satMul r.startPage 0x1000 := by
    unfold satMul
    omega
  obtain ⟨b, hb, hle⟩ := find?_le (pairwise_starts h.pages.shape) hmem
    (c := fun b => decide (pageVa < b)) (by simpa using hpast)
  have hsat : satMul r.startPage 0x1000 ≤ r.startPage * 0x1000 := min_le_left _ _
  unfold freeEnd
  dsimp only
  rw [hb]
  split
  · rename_i a b' _ he
    cases he
    exact (min_le_right a b).trans (hle.trans hsat)
  · rename_i he
    cases he
  · rename_i b' _ he
    cases he
    exact hle.trans hsat
  · rename_i he
    cases he

/-- **The answer for a free page is right.** -/
theorem queryRight_queryFree (h : Inv env m) (haddr : addr < 2 ^ 64)
    (hfree : m.pages.table (addr / 0x1000) = none) :
    QueryRight m addr (m.queryFree (alignDown addr 0x1000)) := by
  obtain ⟨pageVa, hva⟩ : ∃ x, alignDown addr 0x1000 = x := ⟨_, rfl⟩
  have hkey : pageVa = addr / 0x1000 * 0x1000 := hva ▸ rfl
  have hend := freeEnd_lt h pageVa
  have hstop : satAdd (pageVa / 0x1000) 1 = pageVa / 0x1000 + 1 := satAdd_of_lt (by omega)
  obtain ⟨stop, hdef⟩ : ∃ x, (if satAdd (pageVa / 0x1000) 1 < m.freeEnd pageVa / 0x1000 then
    m.freeEnd pageVa / 0x1000 else satAdd (pageVa / 0x1000) 1) = x := ⟨_, rfl⟩
  have hsize : (m.queryFree pageVa).regionSize = (stop - pageVa / 0x1000) * 0x1000 := by
    change max (satMul (_ - _) _) _ = _
    rw [hdef, satMul_of_lt]
    · split at hdef <;> omega
    · split at hdef <;> omega
  have hnone (p : ℕ) (h1 : pageVa / 0x1000 ≤ p) (h2 : p < stop) : m.pages.table p = none := by
    by_contra hp
    obtain ⟨v, hv⟩ := Option.ne_none_iff_exists'.mp hp
    rw [h.pages.table_eq, Option.map_eq_some_iff] at hv
    obtain ⟨r, hr, -⟩ := hv
    obtain ⟨hh, hc1, hc2⟩ := h.pages.lookup_eq_some.mp hr
    have hlater : pageVa / 0x1000 < r.startPage := by
      by_contra hle
      have hcov : m.pages.table (addr / 0x1000) = some (r.state, r.protect) :=
        h.pages.table_of_lookup hr ⟨by omega, by omega⟩
      rw [hfree] at hcov
      cases hcov
    have hle := freeEnd_le h (by omega) (by omega) hh hlater
    split at hdef <;> omega
  have hpos : pageVa / 0x1000 < stop := by split at hdef <;> omega
  rw [hva]
  refine ⟨⟨?_, ?_⟩, ⟨?_, ?_⟩, ?_, ?_⟩
  · change pageVa % 0x1000 = 0
    omega
  · rw [hsize]
    exact Nat.mul_mod_left _ _
  · rw [hva]
    exact le_rfl
  · rw [hva, hsize]
    change pageVa < pageVa + _
    omega
  · intro v hv
    rw [hfree] at hv
    cases hv
  · intro _
    refine ⟨rfl, fun x h1 h2 => hnone _ ?_ ?_⟩
    · change pageVa ≤ x at h1
      omega
    · rw [hsize] at h2
      change x < pageVa + _ at h2
      omega

/-! ### Pages in use -/

/-- The pages that make one range with `v`. -/
def Like (m : GuestMemory) (v : PageState × ℕ) (p : ℕ) : Prop :=
  ∃ w, m.pages.table p = some w ∧ Merges v w

theorem mergeable_eq_some (h : Inv env m) {run r : PageRun} {p : ℕ}
    (hr : m.mergeable run p = some r) :
    r.Covers p ∧ ∀ q, r.Covers q → m.Like (run.state, run.protect) q := by
  unfold mergeable at hr
  split at hr
  · rename_i r' hl
    split at hr
    · rename_i hm
      cases hr
      exact ⟨(h.pages.lookup_eq_some.mp hl).2,
        fun q hq => ⟨_, h.pages.table_of_lookup hl hq, hm⟩⟩
    · cases hr
  · cases hr

theorem mergeable_eq_none (h : Inv env m) {run : PageRun} {p : ℕ} (hr : m.mergeable run p = none) :
    ¬ m.Like (run.state, run.protect) p := by
  rintro ⟨w, hw, hm⟩
  rw [h.pages.table_eq, Option.map_eq_some_iff] at hw
  obtain ⟨r, hl, rfl⟩ := hw
  rw [mergeable, hl] at hr
  simp [hm] at hr

theorem stretchDown (h : Inv env m) (run : PageRun) :
    StretchDown (m.Like (run.state, run.protect))
      fun p => (m.mergeable run p).map PageRun.startPage where
  some hs := by
    obtain ⟨r, hr, rfl⟩ := Option.map_eq_some_iff.mp hs
    obtain ⟨hc, hall⟩ := mergeable_eq_some h hr
    exact ⟨hc.1, fun q h1 h2 => hall q ⟨h1, h2.trans_lt hc.2⟩⟩
  none hn := mergeable_eq_none h (Option.map_eq_none_iff.mp hn)

theorem stretchUp (h : Inv env m) (run : PageRun) :
    StretchUp (m.Like (run.state, run.protect))
      fun p => (m.mergeable run p).map PageRun.endPage where
  some hs := by
    obtain ⟨r, hr, rfl⟩ := Option.map_eq_some_iff.mp hs
    obtain ⟨hc, hall⟩ := mergeable_eq_some h hr
    exact ⟨hc.2, fun q h1 h2 => hall q ⟨hc.1.trans h1, h2⟩⟩
  none hn := mergeable_eq_none h (Option.map_eq_none_iff.mp hn)

/-- The answer for a page in use, from the pages the range is grown to. -/
theorem virtualQuery_used (h : Inv env m) {run : PageRun} {node : VadNode}
    (hrun : m.pages.lookup (addr / 0x1000) = some run)
    (hnode : m.vad.find (alignDown addr 0x1000) = some node) :
    ∃ lo hi, lo ≤ addr / 0x1000 ∧ addr / 0x1000 < hi ∧
      node.allocationBase / 0x1000 ≤ lo ∧ hi ≤ (node.allocationBase + node.size) / 0x1000 ∧
      (∀ p, lo ≤ p → p < hi → m.Like (run.state, run.protect) p) ∧
      (node.allocationBase / 0x1000 < lo → ¬ m.Like (run.state, run.protect) (lo - 1)) ∧
      (hi < (node.allocationBase + node.size) / 0x1000 →
        ¬ m.Like (run.state, run.protect) hi) ∧
      m.virtualQuery addr =
        { baseAddress := lo * 0x1000
          allocationBase := node.allocationBase
          allocationProtect := node.allocationProtect
          regionSize := (hi - lo) * 0x1000
          state := (told (run.state, run.protect)).1
          protect := (told (run.state, run.protect)).2
          type := node.memType.win32 } := by
  obtain ⟨hmem, hin1, hin2⟩ := h.vad.find_eq_some.mp hnode
  obtain ⟨halign, hlen⟩ := h.vad.aligned node hmem
  have hbound := h.vad.bounded node hmem
  have hva : alignDown addr 0x1000 = addr / 0x1000 * 0x1000 := rfl
  have hkey : alignDown addr 0x1000 / 0x1000 = addr / 0x1000 := by omega
  obtain ⟨-, hcov1, hcov2⟩ := h.pages.lookup_eq_some.mp hrun
  -- the run, clipped to the allocation, holds the page
  have hlo : ¬ addr / 0x1000 < max run.startPage (node.allocationBase / 0x1000) := by
    have := max_le hcov1 (show node.allocationBase / 0x1000 ≤ addr / 0x1000 by omega)
    omega
  have hhi : ¬ min run.endPage ((node.allocationBase + node.size) / 0x1000) ≤ addr / 0x1000 := by
    have := lt_min hcov2 (show addr / 0x1000 < (node.allocationBase + node.size) / 0x1000 by omega)
    omega
  obtain ⟨h1, h2, h3, h4⟩ := spreadDown_spec (stretchDown h run)
    (le_max_right run.startPage (node.allocationBase / 0x1000)) le_rfl
  obtain ⟨h5, h6, h7, h8⟩ := spreadUp_spec (stretchUp h run)
    (min_le_right run.endPage ((node.allocationBase + node.size) / 0x1000)) le_rfl
  refine ⟨_, _, h2.trans (not_lt.mp hlo), (not_le.mp hhi).trans_le h5, h1, h6,
    fun p hp1 hp2 => ?_, h4, h8, ?_⟩
  · by_cases hleft : p < max run.startPage (node.allocationBase / 0x1000)
    · exact h3 p hp1 hleft
    · by_cases hright : min run.endPage ((node.allocationBase + node.size) / 0x1000) ≤ p
      · exact h7 p hright hp2
      · have hcov : run.Covers p := by
          have := le_max_left run.startPage (node.allocationBase / 0x1000)
          have := min_le_left run.endPage ((node.allocationBase + node.size) / 0x1000)
          exact ⟨by omega, by omega⟩
        exact ⟨_, h.pages.table_of_lookup hrun hcov, rfl, .inr rfl⟩
  · unfold virtualQuery
    dsimp only
    rw [hkey, hrun]
    dsimp only
    rw [hnode]
    dsimp only
    rw [h.vad.endVa_eq hmem, if_neg hlo, if_neg hhi, satMul_of_lt, satMul_of_lt]
    · rfl
    · omega
    · omega

/-- **The answer for a page of an allocation is right.** -/
theorem queryRight_used (h : Inv env m) {run : PageRun} {node : VadNode}
    (hrun : m.pages.lookup (addr / 0x1000) = some run)
    (hnode : m.vad.find (alignDown addr 0x1000) = some node) :
    QueryRight m addr (m.virtualQuery addr) := by
  obtain ⟨hmem, -, -⟩ := h.vad.find_eq_some.mp hnode
  obtain ⟨halign, hlen⟩ := h.vad.aligned node hmem
  obtain ⟨lo, hi, hlo, hhi, hbase, hend, hall, hbefore, hafter, hinfo⟩ :=
    virtualQuery_used h hrun hnode
  have htab : m.pages.table (addr / 0x1000) = some (run.state, run.protect) := by
    rw [h.pages.table_eq, hrun]
    rfl
  have hva : alignDown addr 0x1000 = addr / 0x1000 * 0x1000 := rfl
  rw [hinfo]
  refine ⟨⟨Nat.mul_mod_left _ _, Nat.mul_mod_left _ _⟩, ⟨?_, ?_⟩, ?_, ?_⟩
  · dsimp only
    omega
  · dsimp only
    omega
  · intro v hv
    obtain rfl : (run.state, run.protect) = v := Option.some.inj (htab.symm.trans hv)
    refine ⟨node, hmem, ⟨rfl, rfl, rfl⟩, rfl, fun x h1 h2 => ?_, fun hb => ?_, fun ha => ?_⟩
    · dsimp only at h1 h2
      exact ⟨⟨by omega, by omega⟩, hall _ (by omega) (by omega)⟩
    · dsimp only at hb ⊢
      rw [Nat.mul_div_cancel _ (by omega)]
      exact hbefore (by omega)
    · dsimp only at ha ⊢
      have hstop : (lo * 0x1000 + (hi - lo) * 0x1000) / 0x1000 = hi := by omega
      rw [hstop]
      exact hafter (by omega)
  · intro hfree
    rw [htab] at hfree
    cases hfree

/-- **The right answers are those for free pages and for pages of allocations.** -/
theorem Inv.queryRight_iff (h : Inv env m) (haddr : addr < 2 ^ 64) :
    QueryRight m addr (m.virtualQuery addr) ↔
      (m.pages.table (addr / 0x1000) ≠ none →
        ∃ n ∈ m.vad.nodes, n.allocationBase ≤ addr ∧ addr < n.allocationBase + n.size) := by
  have hva : alignDown addr 0x1000 = addr / 0x1000 * 0x1000 := rfl
  have hkey : alignDown addr 0x1000 / 0x1000 = addr / 0x1000 := by omega
  constructor
  · intro hright hne
    obtain ⟨v, hv⟩ := Option.ne_none_iff_exists'.mp hne
    obtain ⟨n, hn⟩ := hright.used v hv
    obtain ⟨⟨h1, h2⟩, -⟩ := hn.range _ hright.holds.1 hright.holds.2
    obtain ⟨halign, hlen⟩ := h.vad.aligned n hn.mem
    exact ⟨n, hn.mem, by omega, by omega⟩
  · intro hin
    cases hrun : m.pages.lookup (addr / 0x1000) with
    | none =>
      have hq : m.virtualQuery addr = m.queryFree (alignDown addr 0x1000) := by
        simp only [virtualQuery, hkey, hrun]
      rw [hq]
      exact queryRight_queryFree h haddr (h.pages.table_eq_none.mpr hrun)
    | some run =>
      have hne : m.pages.table (addr / 0x1000) ≠ none := by
        rw [Ne, h.pages.table_eq_none, hrun]
        simp
      obtain ⟨n, hn, h1, h2⟩ := hin hne
      obtain ⟨halign, hlen⟩ := h.vad.aligned n hn
      exact queryRight_used h hrun (h.vad.find_eq_some.mpr ⟨hn, by omega, by omega⟩)

/-- **The answers that are right**, in every state calls can lead to: those for free pages and for
pages of allocations. They are all right in a run whose maps are regular. -/
theorem virtualQuery_right_iff :
    (∀ m addr, Reachable env AnyCall m → addr < 2 ^ 64 →
      (QueryRight m addr (m.virtualQuery addr) ↔
        (m.pages.table (addr / 0x1000) ≠ none →
          ∃ n ∈ m.vad.nodes, n.allocationBase ≤ addr ∧ addr < n.allocationBase + n.size))) ∧
    ∀ m addr, Reachable env MapsRegular m → addr < 2 ^ 64 →
      QueryRight m addr (m.virtualQuery addr) := by
  refine ⟨fun m addr h haddr => h.inv.queryRight_iff haddr, fun m addr h haddr => ?_⟩
  exact (h.inv.queryRight_iff haddr).mpr (h.lockstep.pages addr)

/-- A page protected in the middle of an allocation is a range of its own. -/
theorem virtualQuery_right_middle : ∃ m, Reachable .fourK MapsRegular m ∧
    (m.virtualQuery 0x21234).baseAddress = 0x21000 ∧ (m.virtualQuery 0x21234).regionSize = 0x1000 ∧
    QueryRight m 0x21234 (m.virtualQuery 0x21234) := by
  have h : Reachable .fourK MapsRegular (runAll .fourK (new .roomy)
      [.virtualAlloc 0x20000 0x10000 (memReserve + memCommit) Protect.pageReadwrite,
        .virtualProtect 0x21000 0x1000 Protect.pageReadonly]) :=
    (reachable_new _).runAll _ ⟨trivial, trivial, trivial⟩ (by decide +kernel)
  exact ⟨_, h, by decide +kernel, by decide +kernel, virtualQuery_right_iff.2 _ _ h (by decide)⟩

/-- Of two overlapping maps the second makes no allocation, and a page of it that is committed is
reported as free. -/
theorem not_virtualQuery_right : ∃ m, Reachable .fourK AnyCall m ∧
    m.pages.table 0x20 = some (.committed, Protect.pageExecuteReadwrite) ∧
    (m.virtualQuery 0x20000).state = memFree ∧
    ¬ QueryRight m 0x20000 (m.virtualQuery 0x20000) := by
  have h : Reachable .fourK AnyCall (runAll .fourK (new .roomy)
      [.map 0x10000 0x10000 Perm.all .priv, .map 0x18000 0x10000 Perm.all .priv]) :=
    (reachable_new _).runAll _ (allMeet_anyCall _ _) (by decide +kernel)
  refine ⟨_, h, by decide +kernel, by decide +kernel, fun hright => ?_⟩
  obtain ⟨n, hn, hrange⟩ := (h.inv.queryRight_iff (by decide)).mp hright (by decide +kernel)
  have hall : ∀ n ∈ (runAll .fourK (new .roomy)
      [.map 0x10000 0x10000 Perm.all .priv, .map 0x18000 0x10000 Perm.all .priv]).vad.nodes,
      n.allocationBase + n.size ≤ 0x20000 := by decide +kernel
  have := hall n hn
  omega

end GuestMemory

end Wie
