import Wie.Mem.PageMap

/-!
# The runs of a page map

A page table says for each page either nothing (the page is free) or a state and a protection.
The runs a page map stores are a compressed form of such a table. This file is about the runs
alone: when they are in shape, what table they stand for, and what each of the steps of a change
(split, remove, merge, insert) does to both.

## The invariant

`Shape` is what lookups rely on: runs are stored under their own start, are non-empty, do not
overlap and are never free. `MaximalExcept S` is the compression: touching runs differ, except
possibly where they touch at a page in `S`. Splitting at a page puts that page into `S`, and
removing the range between two split pages takes both out again. Keeping the two apart is what
lets the split be a step of its own.

## Main definitions

* `PageTable`, `PageTable.set` — the abstract table and its one operation
* `PageMap.tableOf` — the table the runs stand for
* `PageMap.Shape`, `PageMap.Maximal` — the invariant of the runs
* `PageMap.Fits` — a run can join the stored ones

## Main results

* `PageMap.Shape.findRun_eq_some` — the uncached lookup finds the run covering the page
* `PageMap.Shape.carve`, `PageMap.Maximal.carve`, `PageMap.tableOf_carve` — removing a range
* `PageMap.Fits.mergeLeft`, `PageMap.Fits.mergeRight`, `PageMap.Fits.insert` — putting one run in
-/

namespace Wie

/-- What is known of each page: nothing when it is free, else its state and protection. -/
abbrev PageTable := ℕ → Option (PageState × ℕ)

/-- Give the pages `[lo, hi)` a state and a protection. -/
def PageTable.set (t : PageTable) (lo hi : ℕ) (state : PageState) (protect : ℕ) : PageTable :=
  fun p => if lo ≤ p ∧ p < hi then (if state = .free then none else some (state, protect)) else t p

/-- The page is committed and its protection permits the access. -/
def PageTable.grants (t : PageTable) (kind : AccessKind) (p : ℕ) : Bool :=
  match t p with
  | some (.committed, protect) => Protect.allows protect kind
  | _ => false

theorem PageTable.grants_iff {t : PageTable} {kind : AccessKind} {p : ℕ} :
    t.grants kind p = true ↔
      ∃ protect, t p = some (.committed, protect) ∧ Protect.allows protect kind = true := by
  unfold PageTable.grants
  split
  · rename_i protect hp
    simp [hp]
  · rename_i hn
    simp only [Bool.false_eq_true, false_iff, not_exists, not_and]
    exact fun protect hp => absurd hp (hn protect)

/-- The page is one of the run's. -/
def PageRun.Covers (r : PageRun) (p : ℕ) : Prop := r.startPage ≤ p ∧ p < r.endPage

/-- The two runs agree on state and protection. -/
def PageRun.Alike (a b : PageRun) : Prop := a.state = b.state ∧ a.protect = b.protect

namespace PageMap

/-! ### The runs a map stores -/

/-- `r` is stored, under the key of its first page. -/
def Holds (runs : OrdMap ℕ PageRun) (r : PageRun) : Prop := (r.startPage, r) ∈ runs

/-- The runs are keyed by their starts, non-empty, disjoint, and never free. -/
structure Shape (runs : OrdMap ℕ PageRun) : Prop where
  /-- Every run is stored under its own start. -/
  keyed : ∀ e ∈ runs, e.1 = e.2.startPage
  /-- No run is empty. -/
  pos : ∀ {r}, Holds runs r → r.startPage < r.endPage
  /-- A run ends before the next one starts. -/
  apart : ∀ {a b}, Holds runs a → Holds runs b → a.startPage < b.startPage →
    a.endPage ≤ b.startPage
  /-- Free pages are in no run. -/
  live : ∀ {r}, Holds runs r → r.state ≠ .free

variable {runs : OrdMap ℕ PageRun} {a b r x : PageRun} {p : ℕ}

theorem Shape.empty : Shape (.empty : OrdMap ℕ PageRun) := by
  constructor <;> simp [Holds]

theorem Shape.holds_of_mem (h : Shape runs) {e : ℕ × PageRun} (he : e ∈ runs) :
    Holds runs e.2 := by
  have hk := h.keyed e he
  rw [Holds, ← hk]
  exact he

/-- Two stored runs are the same, or one ends before the other starts. -/
theorem Shape.trichotomy (h : Shape runs) (ha : Holds runs a) (hb : Holds runs b) :
    a = b ∨ a.endPage ≤ b.startPage ∨ b.endPage ≤ a.startPage := by
  rcases lt_trichotomy a.startPage b.startPage with hlt | heq | hgt
  · exact .inr (.inl (h.apart ha hb hlt))
  · exact .inl (OrdMap.value_unique ha (by rw [heq]; exact hb))
  · exact .inr (.inr (h.apart hb ha hgt))

/-- Stored runs that share a page are one run. -/
theorem Shape.unique (h : Shape runs) (ha : Holds runs a) (hb : Holds runs b) (hpa : a.Covers p)
    (hpb : b.Covers p) : a = b := by
  obtain ⟨ha1, ha2⟩ := hpa
  obtain ⟨hb1, hb2⟩ := hpb
  rcases h.trichotomy ha hb with rfl | hab | hab
  · rfl
  · omega
  · omega

theorem Shape.eq_of_start_eq (h : Shape runs) (ha : Holds runs a) (hb : Holds runs b)
    (hs : a.startPage = b.startPage) : a = b :=
  h.unique ha hb ⟨le_rfl, h.pos ha⟩ ⟨hs.ge, hs ▸ h.pos hb⟩

/-- The uncached lookup returns the stored run covering the page. -/
theorem Shape.findRun_eq_some (h : Shape runs) :
    findRun runs p = some r ↔ Holds runs r ∧ r.Covers p := by
  unfold findRun
  constructor
  · intro hf
    split at hf
    · cases hf
    · rename_i k run hfl
      obtain ⟨hm, hle, -⟩ := OrdMap.floor?_eq_some.mp hfl
      split at hf
      · rename_i hlt
        cases hf
        have hk := h.keyed _ hm
        exact ⟨h.holds_of_mem hm, hk ▸ hle, hlt⟩
      · cases hf
  · rintro ⟨hr, hc⟩
    have hfl : runs.floor? p = some (r.startPage, r) := by
      refine OrdMap.floor?_eq_some.mpr ⟨hr, hc.1, fun f hf hfp => ?_⟩
      have hfk := h.keyed f hf
      by_contra hlt
      have := h.apart hr (h.holds_of_mem hf) (by omega)
      have := hc.2
      omega
    simp [hfl, hc.2]

theorem Shape.findRun_eq_none (h : Shape runs) :
    findRun runs p = none ↔ ∀ r, Holds runs r → ¬ r.Covers p := by
  rw [Option.eq_none_iff_forall_ne_some]
  exact forall_congr' fun r => by rw [ne_eq, h.findRun_eq_some, not_and]

/-- The table the runs stand for. -/
def tableOf (runs : OrdMap ℕ PageRun) : PageTable := fun p =>
  (findRun runs p).map fun r => (r.state, r.protect)

theorem Shape.tableOf_of_covers (h : Shape runs) (hr : Holds runs r) (hc : r.Covers p) :
    tableOf runs p = some (r.state, r.protect) := by
  simp [tableOf, h.findRun_eq_some.mpr ⟨hr, hc⟩]

theorem Shape.tableOf_eq_none (h : Shape runs) :
    tableOf runs p = none ↔ ∀ r, Holds runs r → ¬ r.Covers p := by
  rw [tableOf, Option.map_eq_none_iff, h.findRun_eq_none]

/-- Tables agree at a page when the runs covering it do. -/
theorem tableOf_congr {runs' : OrdMap ℕ PageRun} (h : Shape runs) (h' : Shape runs')
    (hc : ∀ r, Holds runs r → r.Covers p → ∃ r', Holds runs' r' ∧ r'.Covers p ∧ r'.Alike r)
    (hc' : ∀ r, Holds runs' r → r.Covers p → ∃ r', Holds runs r' ∧ r'.Covers p) :
    tableOf runs' p = tableOf runs p := by
  cases hf : findRun runs p with
  | none =>
    rw [h.tableOf_eq_none.mpr (h.findRun_eq_none.mp hf), h'.tableOf_eq_none]
    intro r hr hrc
    obtain ⟨r', hr', hrc'⟩ := hc' r hr hrc
    exact h.findRun_eq_none.mp hf r' hr' hrc'
  | some r =>
    obtain ⟨hr, hrc⟩ := h.findRun_eq_some.mp hf
    obtain ⟨r', hr', hrc', hs, hp⟩ := hc r hr hrc
    rw [h.tableOf_of_covers hr hrc, h'.tableOf_of_covers hr' hrc', hs, hp]

/-! ### Inserting and erasing runs -/

theorem holds_insert : Holds (runs.insert r.startPage r) x ↔
    x = r ∨ (x.startPage ≠ r.startPage ∧ Holds runs x) := by
  rw [Holds, OrdMap.mem_insert, Prod.mk.injEq, Holds]
  constructor
  · rintro (⟨-, rfl⟩ | hx)
    · exact .inl rfl
    · exact .inr hx
  · rintro (rfl | hx)
    · exact .inl ⟨rfl, rfl⟩
    · exact .inr hx

theorem holds_erase {k : ℕ} : Holds (runs.erase k) x ↔ x.startPage ≠ k ∧ Holds runs x := by
  rw [Holds, OrdMap.mem_erase, Holds]

/-- A run apart from every other one can be inserted. -/
theorem Shape.insert (h : Shape runs) (hpos : r.startPage < r.endPage) (hlive : r.state ≠ .free)
    (hd : ∀ a, Holds runs a → a.startPage ≠ r.startPage →
      a.endPage ≤ r.startPage ∨ r.endPage ≤ a.startPage) :
    Shape (runs.insert r.startPage r) where
  keyed e he := by
    rcases OrdMap.mem_insert.mp he with rfl | ⟨-, he⟩
    · rfl
    · exact h.keyed e he
  pos hx := by
    rcases holds_insert.mp hx with rfl | ⟨-, hx⟩
    · exact hpos
    · exact h.pos hx
  apart {a b} ha hb hlt := by
    rcases holds_insert.mp ha with hra | ⟨hna, ha'⟩ <;>
      rcases holds_insert.mp hb with hrb | ⟨hnb, hb'⟩
    · rw [hra, hrb] at hlt
      omega
    · subst hra
      have := hd b hb' hnb
      have := h.pos hb'
      omega
    · subst hrb
      have := hd a ha' hna
      have := h.pos ha'
      omega
    · exact h.apart ha' hb' hlt
  live hx := by
    rcases holds_insert.mp hx with rfl | ⟨-, hx⟩
    · exact hlive
    · exact h.live hx

/-- Dropping runs keeps the rest in shape. -/
theorem Shape.of_subset {runs' : OrdMap ℕ PageRun} (h : Shape runs) (hs : ∀ e ∈ runs', e ∈ runs) :
    Shape runs' where
  keyed e he := h.keyed e (hs e he)
  pos hr := h.pos (hs _ hr)
  apart ha hb := h.apart (hs _ ha) (hs _ hb)
  live hr := h.live (hs _ hr)

theorem Shape.erase (h : Shape runs) (k : ℕ) : Shape (runs.erase k) :=
  h.of_subset fun _ he => (OrdMap.mem_erase.mp he).2

/-! ### Maximality -/

/-- Touching runs differ, except where they touch at a page of `S`. -/
def MaximalExcept (S : Set ℕ) (runs : OrdMap ℕ PageRun) : Prop :=
  ∀ a b, Holds runs a → Holds runs b → a.endPage = b.startPage → a.Alike b → a.endPage ∈ S

/-- No two touching runs agree on state and protection. -/
def Maximal (runs : OrdMap ℕ PageRun) : Prop :=
  ∀ a b, Holds runs a → Holds runs b → a.endPage = b.startPage → ¬ a.Alike b

theorem Maximal.except (h : Maximal runs) : MaximalExcept ∅ runs :=
  fun a b ha hb he hs => absurd hs (h a b ha hb he)

/-! ### Splitting -/

/-- `page` starts a run or is in none. -/
def Boundary (runs : OrdMap ℕ PageRun) (page : ℕ) : Prop :=
  ∀ r, Holds runs r → ¬ (r.startPage < page ∧ page < r.endPage)

/-- The runs after a split: those not split, and the two halves of the one that was. -/
theorem holds_splitAt {m : PageMap} (h : Shape m.runs) (hc : m.cache.valid = false) :
    Holds (m.splitAt p).runs x ↔
      (Holds m.runs x ∧ ¬ (x.startPage < p ∧ p < x.endPage)) ∨
        ∃ r, Holds m.runs r ∧ r.startPage < p ∧ p < r.endPage ∧
          (x = { r with endPage := p } ∨ x = { r with startPage := p }) := by
  have hl : m.lookup p = findRun m.runs p := by simp [lookup, hc]
  -- without a run around `p` nothing is split
  have hsame (hb : Boundary m.runs p) : Holds m.runs x ↔
      (Holds m.runs x ∧ ¬ (x.startPage < p ∧ p < x.endPage)) ∨
        ∃ r, Holds m.runs r ∧ r.startPage < p ∧ p < r.endPage ∧
          (x = { r with endPage := p } ∨ x = { r with startPage := p }) := by
    refine ⟨fun hx => .inl ⟨hx, hb x hx⟩, ?_⟩
    rintro (hx | ⟨r, hr, h1, h2, -⟩)
    · exact hx.1
    · exact absurd ⟨h1, h2⟩ (hb r hr)
  unfold splitAt
  rw [hl]
  cases hf : findRun m.runs p with
  | none =>
    refine hsame fun r hr hi => h.findRun_eq_none.mp hf r hr ⟨hi.1.le, hi.2⟩
  | some r =>
    obtain ⟨hr, hrc⟩ := h.findRun_eq_some.mp hf
    dsimp only
    split
    · rename_i heq
      refine hsame fun r' hr' hi => ?_
      have := h.unique hr hr' hrc ⟨hi.1.le, hi.2⟩
      subst this
      omega
    · rename_i hne
      have hlt : r.startPage < p := lt_of_le_of_ne hrc.1 hne
      rw [show p = ({ r with startPage := p } : PageRun).startPage from rfl, holds_insert,
        show r.startPage = ({ r with endPage := p } : PageRun).startPage from rfl, holds_insert,
        holds_erase]
      dsimp only
      constructor
      · rintro (rfl | ⟨hxp, rfl | ⟨-, hxr, hx⟩⟩)
        · exact .inr ⟨r, hr, hlt, hrc.2, .inr rfl⟩
        · exact .inr ⟨r, hr, hlt, hrc.2, .inl rfl⟩
        · refine .inl ⟨hx, fun hi => hxr ?_⟩
          rw [h.unique hx hr ⟨hi.1.le, hi.2⟩ hrc]
      · rintro (⟨hx, hi⟩ | ⟨r', hr', h1, h2, hx⟩)
        · have hxr : x.startPage ≠ r.startPage := by
            intro he
            rw [h.eq_of_start_eq hx hr he] at hi
            exact hi ⟨hlt, hrc.2⟩
          have hxp : x.startPage ≠ p := by
            intro he
            exact hxr (congrArg PageRun.startPage
              (h.unique hx hr ⟨he.le, he ▸ h.pos hx⟩ hrc))
          exact .inr ⟨hxp, .inr ⟨hxr, hxr, hx⟩⟩
        · have := h.unique hr' hr ⟨h1.le, h2⟩ hrc
          subst this
          rcases hx with rfl | rfl
          · exact .inr ⟨hlt.ne, .inl rfl⟩
          · exact .inl rfl

theorem cache_splitAt (m : PageMap) (p : ℕ) : (m.splitAt p).cache = m.cache := by
  unfold splitAt
  split
  · rfl
  · split <;> rfl

theorem Shape.splitAt {m : PageMap} (h : Shape m.runs) (hc : m.cache.valid = false) :
    Shape (m.splitAt p).runs := by
  have hl : m.lookup p = findRun m.runs p := by simp [lookup, hc]
  unfold PageMap.splitAt
  rw [hl]
  cases hf : findRun m.runs p with
  | none => exact h
  | some r =>
    obtain ⟨hr, hrc⟩ := h.findRun_eq_some.mp hf
    dsimp only
    split
    · exact h
    · rename_i hne
      have hlt : r.startPage < p := lt_of_le_of_ne hrc.1 hne
      have hlp : Shape ((m.runs.erase r.startPage).insert r.startPage { r with endPage := p }) := by
        refine Shape.insert (r := { r with endPage := p }) (h.erase _) hlt
          (fun he => h.live hr he) fun a ha hne => ?_
        rcases h.trichotomy (holds_erase.mp ha).2 hr with rfl | hd | hd
        · exact absurd rfl hne
        · exact .inl hd
        · exact .inr (hrc.2.le.trans hd)
      refine Shape.insert (r := { r with startPage := p }) hlp hrc.2 (fun he => h.live hr he)
        fun a ha _ => ?_
      rcases (holds_insert (r := { r with endPage := p })).mp ha with rfl | ⟨-, ha⟩
      · exact .inl le_rfl
      · obtain ⟨hne, ha⟩ := holds_erase.mp ha
        rcases h.trichotomy ha hr with rfl | hd | hd
        · exact absurd rfl hne
        · exact .inl (hd.trans hlt.le)
        · exact .inr hd

/-- Splitting changes no page. -/
theorem tableOf_splitAt {m : PageMap} (h : Shape m.runs) (hc : m.cache.valid = false) :
    tableOf (m.splitAt p).runs = tableOf m.runs := by
  funext q
  refine tableOf_congr h (h.splitAt hc) (fun r hr hq => ?_) fun x hx hq => ?_
  · by_cases hi : r.startPage < p ∧ p < r.endPage
    · by_cases hqp : q < p
      · exact ⟨_, (holds_splitAt h hc).mpr (.inr ⟨r, hr, hi.1, hi.2, .inl rfl⟩), ⟨hq.1, hqp⟩,
          rfl, rfl⟩
      · exact ⟨_, (holds_splitAt h hc).mpr (.inr ⟨r, hr, hi.1, hi.2, .inr rfl⟩),
          ⟨by simpa using hqp, hq.2⟩, rfl, rfl⟩
    · exact ⟨r, (holds_splitAt h hc).mpr (.inl ⟨hr, hi⟩), hq, rfl, rfl⟩
  · rcases (holds_splitAt h hc).mp hx with ⟨hx, -⟩ | ⟨r, hr, h1, h2, rfl | rfl⟩
    · exact ⟨x, hx, hq⟩
    · exact ⟨r, hr, hq.1, hq.2.trans h2⟩
    · exact ⟨r, hr, h1.le.trans hq.1, hq.2⟩

theorem boundary_splitAt_self {m : PageMap} (h : Shape m.runs) (hc : m.cache.valid = false) :
    Boundary (m.splitAt p).runs p := by
  intro x hx
  rcases (holds_splitAt h hc).mp hx with ⟨-, hi⟩ | ⟨r, -, -, -, rfl | rfl⟩
  · exact hi
  · simp
  · simp

theorem Boundary.splitAt {m : PageMap} {q : ℕ} (hb : Boundary m.runs q) (h : Shape m.runs)
    (hc : m.cache.valid = false) : Boundary (m.splitAt p).runs q := by
  intro x hx
  rcases (holds_splitAt h hc).mp hx with ⟨hx, -⟩ | ⟨r, hr, h1, h2, rfl | rfl⟩
  · exact hb x hx
  · have := hb r hr
    dsimp only
    omega
  · have := hb r hr
    dsimp only
    omega

theorem MaximalExcept.splitAt {m : PageMap} {S : Set ℕ} (hm : MaximalExcept S m.runs)
    (h : Shape m.runs) (hc : m.cache.valid = false) :
    MaximalExcept (insert p S) (m.splitAt p).runs := by
  intro a b ha hb he hs
  rcases (holds_splitAt h hc).mp ha with ⟨ha, -⟩ | ⟨ra, hra, -, -, rfl | rfl⟩
  · rcases (holds_splitAt h hc).mp hb with ⟨hb, -⟩ | ⟨rb, hrb, -, -, rfl | rfl⟩
    · exact .inr (hm a b ha hb he hs)
    · exact .inr (hm a rb ha hrb he hs)
    · exact .inl he
  · exact .inl rfl
  · rcases (holds_splitAt h hc).mp hb with ⟨hb, -⟩ | ⟨rb, hrb, -, -, rfl | rfl⟩
    · exact .inr (hm ra b hra hb he hs)
    · exact .inr (hm ra rb hra hrb he hs)
    · exact .inl he

/-! ### Removing a range -/

section Carve

variable {m : PageMap} {lo hi : ℕ}

/-- The runs left after a range is removed are those of the split map outside the range. -/
theorem holds_carve : Holds (m.carve lo hi).runs x ↔
    Holds ((m.splitAt lo).splitAt hi).runs x ∧ ¬ (lo ≤ x.startPage ∧ x.startPage < hi) := by
  simp only [Holds, carve, OrdMap.mem_eraseAll, OrdMap.mem_keysIn]
  constructor
  · rintro ⟨hn, hx⟩
    exact ⟨hx, fun hi => hn ⟨⟨x, hx⟩, hi⟩⟩
  · rintro ⟨hx, hn⟩
    exact ⟨fun hi => hn hi.2, hx⟩

theorem cache_carve : (m.carve lo hi).cache = m.cache := by
  simp [carve, cache_splitAt]

variable (h : Shape m.runs) (hc : m.cache.valid = false)

include h hc

theorem Shape.carve : Shape (m.carve lo hi).runs := by
  have h2 : Shape ((m.splitAt lo).splitAt hi).runs :=
    (h.splitAt hc).splitAt (by rw [cache_splitAt, hc])
  exact h2.of_subset fun _ he => (OrdMap.mem_eraseAll.mp he).2

/-- A run left after the range is removed lies on one side of it. -/
theorem apart_of_holds_carve (hx : Holds (m.carve lo hi).runs x) :
    x.endPage ≤ lo ∨ hi ≤ x.startPage := by
  have hc1 : (m.splitAt lo).cache.valid = false := by rw [cache_splitAt, hc]
  obtain ⟨hx, hout⟩ := holds_carve.mp hx
  have hblo := (boundary_splitAt_self (p := lo) h hc).splitAt (p := hi) (h.splitAt hc) hc1 x hx
  have := ((h.splitAt hc).splitAt (p := hi) hc1).pos hx
  omega

/-- Removing a range frees its pages and no others. -/
theorem tableOf_carve (lo hi q : ℕ) :
    tableOf (m.carve lo hi).runs q = if lo ≤ q ∧ q < hi then none else tableOf m.runs q := by
  have hc1 : (m.splitAt lo).cache.valid = false := by rw [cache_splitAt, hc]
  have h2 := (h.splitAt (p := lo) hc).splitAt (p := hi) hc1
  split
  · rename_i hq
    rw [(h.carve hc).tableOf_eq_none]
    intro x hx hxq
    have := apart_of_holds_carve h hc hx
    have := hxq.1
    have := hxq.2
    omega
  · rename_i hq
    rw [← tableOf_splitAt (p := lo) h hc, ← tableOf_splitAt (p := hi) (h.splitAt hc) hc1]
    refine tableOf_congr h2 (h.carve hc) (fun r hr hrq => ?_) fun r hr hrq => ?_
    · refine ⟨r, holds_carve.mpr ⟨hr, fun hin => ?_⟩, hrq, rfl, rfl⟩
      have hbhi := boundary_splitAt_self (p := hi) (h.splitAt (p := lo) hc) hc1 r hr
      have := hrq.1
      have := hrq.2
      omega
    · exact ⟨r, (holds_carve.mp hr).1, hrq⟩

/-- Runs that touched at an end of the removed range are gone, so the rest stays maximal. -/
theorem Maximal.carve (hm : Maximal m.runs) (hlt : lo < hi) : Maximal (m.carve lo hi).runs := by
  intro a b ha hb he hs
  have hc1 : (m.splitAt lo).cache.valid = false := by rw [cache_splitAt, hc]
  have hex := (hm.except.splitAt (p := lo) h hc).splitAt (p := hi) (h.splitAt hc) hc1
  have hmem := hex a b (holds_carve.mp ha).1 (holds_carve.mp hb).1 he hs
  have hpa := (h.carve hc).pos ha
  have hpb := (h.carve hc).pos hb
  have hda := apart_of_holds_carve h hc ha
  have hdb := apart_of_holds_carve h hc hb
  rcases hmem with hmem | hmem | hmem
  · omega
  · omega
  · exact hmem

end Carve

/-! ### Merging -/

/-- The run whose end is `page`, if there is one. -/
theorem Shape.lookupExactEnd_eq_some {m : PageMap} (h : Shape m.runs) :
    m.lookupExactEnd p = some r ↔ Holds m.runs r ∧ r.endPage = p := by
  unfold lookupExactEnd
  constructor
  · intro hf
    split at hf
    · cases hf
    · rename_i hb
      split at hf
      · rename_i hcond
        cases hf
        exact ⟨h.holds_of_mem (OrdMap.below?_eq_some.mp hb).1, hcond.1⟩
      · cases hf
  · rintro ⟨hr, rfl⟩
    have hb : m.runs.below? r.endPage = some (r.startPage, r) := by
      refine OrdMap.below?_eq_some.mpr ⟨hr, h.pos hr, fun f hf hfp => ?_⟩
      have hfk := h.keyed f hf
      by_contra hlt
      have := h.apart hr (h.holds_of_mem hf) (by omega)
      omega
    simp [hb]

/-- `run` can join the stored runs: it is non-empty, not free and apart from all of them. -/
structure Fits (runs : OrdMap ℕ PageRun) (run : PageRun) : Prop where
  /-- The stored runs are in shape. -/
  shape : Shape runs
  /-- The stored runs are maximal among themselves. -/
  maximal : Maximal runs
  /-- The new run is not empty. -/
  pos : run.startPage < run.endPage
  /-- The new run is not free. -/
  live : run.state ≠ .free
  /-- The new run shares no page with a stored one. -/
  apart : ∀ a, Holds runs a → a.endPage ≤ run.startPage ∨ run.endPage ≤ a.startPage

/-- The table of the stored runs with one more run laid over it. -/
def overlay (runs : OrdMap ℕ PageRun) (run : PageRun) : PageTable := fun p =>
  if run.startPage ≤ p ∧ p < run.endPage then some (run.state, run.protect) else tableOf runs p

/-- Erasing a run frees its pages. -/
theorem Shape.tableOf_erase (h : Shape runs) (hr : Holds runs r) (q : ℕ) :
    tableOf (runs.erase r.startPage) q =
      if r.startPage ≤ q ∧ q < r.endPage then none else tableOf runs q := by
  split
  · rename_i hq
    rw [(h.erase _).tableOf_eq_none]
    intro x hx hxq
    obtain ⟨hne, hx⟩ := holds_erase.mp hx
    exact hne (congrArg PageRun.startPage (h.unique hx hr hxq hq))
  · rename_i hq
    refine tableOf_congr h (h.erase _) (fun x hx hxq => ?_) fun x hx hxq => ?_
    · refine ⟨x, holds_erase.mpr ⟨fun he => hq ?_, hx⟩, hxq, rfl, rfl⟩
      rw [← h.eq_of_start_eq hx hr he]
      exact hxq
    · exact ⟨x, (holds_erase.mp hx).2, hxq⟩

/-- Absorbing a touching run that agrees: the rest still fits and no page changes. -/
theorem Fits.absorb {run : PageRun} (hf : Fits runs run) (run' : PageRun) (ha : Holds runs a)
    (hs : a.Alike run) (hst : run'.state = run.state) (hpr : run'.protect = run.protect)
    (ht : (a.endPage = run.startPage ∧ run'.startPage = a.startPage ∧
        run'.endPage = run.endPage) ∨
      (run.endPage = a.startPage ∧ run'.startPage = run.startPage ∧ run'.endPage = a.endPage)) :
    Fits (runs.erase a.startPage) run' ∧
      overlay (runs.erase a.startPage) run' = overlay runs run := by
  have hpa := hf.shape.pos ha
  have hpr' := hf.pos
  refine ⟨⟨hf.shape.erase _, ?_, by omega, by rw [hst]; exact hf.live, ?_⟩, ?_⟩
  · intro x y hx hy
    exact hf.maximal x y (holds_erase.mp hx).2 (holds_erase.mp hy).2
  · intro x hx
    obtain ⟨hne, hx⟩ := holds_erase.mp hx
    have hdx := hf.apart x hx
    have hpx := hf.shape.pos hx
    rcases hf.shape.trichotomy hx ha with rfl | hd | hd
    · exact absurd rfl hne
    · omega
    · omega
  · funext q
    unfold overlay
    rw [hf.shape.tableOf_erase ha, hst, hpr]
    by_cases hqa : a.Covers q
    · rw [hf.shape.tableOf_of_covers ha hqa, hs.1, hs.2, if_pos (by unfold PageRun.Covers at hqa; omega)]
      simp
    · unfold PageRun.Covers at hqa
      rw [if_neg hqa]
      congr 1
      exact propext (by omega)

/-- The left merge: what still has to be inserted fits, no page changes, and no stored run that
agrees with it ends where it starts. -/
theorem Fits.mergeLeft {m : PageMap} {run : PageRun} (hf : Fits m.runs run) :
    Fits (m.mergeLeft run).1.runs (m.mergeLeft run).2 ∧
      overlay (m.mergeLeft run).1.runs (m.mergeLeft run).2 = overlay m.runs run ∧
      ∀ a, Holds (m.mergeLeft run).1.runs a → a.endPage = (m.mergeLeft run).2.startPage →
        ¬ a.Alike (m.mergeLeft run).2 := by
  unfold PageMap.mergeLeft
  split
  · split
    · rename_i hn
      refine ⟨hf, rfl, fun a ha he _ => ?_⟩
      rw [hf.shape.lookupExactEnd_eq_some.mpr ⟨ha, he⟩] at hn
      cases hn
    · rename_i left hl
      obtain ⟨hleft, hend⟩ := hf.shape.lookupExactEnd_eq_some.mp hl
      split
      · rename_i hs
        obtain ⟨hf', ho⟩ := hf.absorb { run with startPage := left.startPage } hleft hs
          rfl rfl (.inl ⟨hend, rfl, rfl⟩)
        refine ⟨hf', ho, fun a ha he has => ?_⟩
        exact hf.maximal a left (holds_erase.mp ha).2 hleft he
          ⟨has.1.trans hs.1.symm, has.2.trans hs.2.symm⟩
      · rename_i hs
        refine ⟨hf, rfl, fun a ha he has => hs ?_⟩
        rw [hf.shape.lookupExactEnd_eq_some.mpr ⟨ha, he⟩] at hl
        cases hl
        exact has
  · rename_i h0
    refine ⟨hf, rfl, fun a ha he _ => ?_⟩
    have hpa := hf.shape.pos ha
    dsimp only at he
    omega

/-- The right merge, likewise; and it leaves the start of the run and its left side alone. -/
theorem Fits.mergeRight {m : PageMap} {run : PageRun} (hf : Fits m.runs run) :
    Fits (m.mergeRight run).1.runs (m.mergeRight run).2 ∧
      overlay (m.mergeRight run).1.runs (m.mergeRight run).2 = overlay m.runs run ∧
      (∀ a, Holds (m.mergeRight run).1.runs a → (m.mergeRight run).2.endPage = a.startPage →
        ¬ (m.mergeRight run).2.Alike a) ∧
      (∀ a, Holds (m.mergeRight run).1.runs a → Holds m.runs a) ∧
      (m.mergeRight run).2.startPage = run.startPage ∧ (m.mergeRight run).2.Alike run := by
  unfold PageMap.mergeRight
  split
  · rename_i hn
    refine ⟨hf, rfl, fun a ha he _ => ?_, fun a ha => ha, rfl, rfl, rfl⟩
    rw [he, OrdMap.get?_eq_some.mpr ha] at hn
    cases hn
  · rename_i right hg
    have hmem := OrdMap.get?_eq_some.mp hg
    have hkey : run.endPage = right.startPage := hf.shape.keyed _ hmem
    have hright : Holds m.runs right := hf.shape.holds_of_mem hmem
    split
    · rename_i hs
      obtain ⟨hf', ho⟩ := hf.absorb { run with endPage := right.endPage } hright hs
        rfl rfl (.inr ⟨hkey, rfl, rfl⟩)
      rw [← hkey] at hf' ho
      refine ⟨hf', ho, fun a ha he has => ?_, fun a ha => (holds_erase.mp ha).2, rfl, rfl, rfl⟩
      exact hf.maximal right a hright (holds_erase.mp ha).2 he
        ⟨hs.1.trans has.1, hs.2.trans has.2⟩
    · rename_i hs
      refine ⟨hf, rfl, fun a ha he has => hs ?_, fun a ha => ha, rfl, rfl, rfl⟩
      have := hf.shape.eq_of_start_eq ha hright (he.symm.trans hkey)
      subst this
      exact ⟨has.1.symm, has.2.symm⟩

theorem cache_mergeLeft {m : PageMap} {run : PageRun} : (m.mergeLeft run).1.cache = m.cache := by
  unfold PageMap.mergeLeft
  split
  · split
    · rfl
    · split <;> rfl
  · rfl

theorem cache_mergeRight {m : PageMap} {run : PageRun} :
    (m.mergeRight run).1.cache = m.cache := by
  unfold PageMap.mergeRight
  split
  · rfl
  · split <;> rfl

/-- A run that fits and agrees with neither neighbour can be inserted. -/
theorem Fits.insert {run : PageRun} (hf : Fits runs run)
    (hl : ∀ a, Holds runs a → a.endPage = run.startPage → ¬ a.Alike run)
    (hr : ∀ a, Holds runs a → run.endPage = a.startPage → ¬ run.Alike a) :
    Shape (runs.insert run.startPage run) ∧ Maximal (runs.insert run.startPage run) ∧
      tableOf (runs.insert run.startPage run) = overlay runs run := by
  have hsh : Shape (runs.insert run.startPage run) :=
    hf.shape.insert hf.pos hf.live fun a ha _ => hf.apart a ha
  have hstart : ∀ a, Holds runs a → a.startPage ≠ run.startPage := fun a ha he => by
    have := hf.apart a ha
    have := hf.shape.pos ha
    have := hf.pos
    omega
  refine ⟨hsh, fun a b ha hb he => ?_, ?_⟩
  · rcases holds_insert.mp ha with hra | ⟨-, ha'⟩ <;>
      rcases holds_insert.mp hb with hrb | ⟨-, hb'⟩
    · have := hf.pos
      rw [hra, hrb] at he
      omega
    · exact hra ▸ hr b hb' (hra ▸ he)
    · exact hrb ▸ hl a ha' (hrb ▸ he)
    · exact hf.maximal a b ha' hb' he
  · funext q
    unfold overlay
    split
    · rename_i hq
      exact hsh.tableOf_of_covers (holds_insert.mpr (.inl rfl)) hq
    · rename_i hq
      refine tableOf_congr hf.shape hsh (fun x hx hxq => ?_) fun x hx hxq => ?_
      · exact ⟨x, holds_insert.mpr (.inr ⟨hstart x hx, hx⟩), hxq, rfl, rfl⟩
      · rcases holds_insert.mp hx with rfl | ⟨-, hx⟩
        · exact absurd hxq hq
        · exact ⟨x, hx, hxq⟩

end PageMap

end Wie
