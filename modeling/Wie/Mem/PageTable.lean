import Mathlib.Data.List.Induction
import Wie.Mem.PageRuns

/-!
# The page map is a page table

The invariant of a page map, cache included, and what its operations are on the table it stands
for. The permission check and the walks of the allocation calls are specified here too, page by
page: nothing above this file looks at runs.

## Main definitions

* `PageMap.table` — the table a map stores
* `PageMap.Valid` — the invariant of the map
* `PageMap.Call`, `PageMap.runCalls`, `PageMap.lastCover` — sequences of calls, and what they last
  said about a page

## Main results

* `PageMap.Valid.lookup_eq_some` — a lookup returns the stored run that covers the page
* `PageMap.Valid.setPageRange_spec` — the writer keeps the invariant and is `PageTable.set`
* `PageMap.Valid.checkAccess_keeps`, `PageMap.Valid.checkAccess_eq_ok` — the permission check keeps
  the invariant, and succeeds exactly when every page touched is committed and permits the access
* `PageMap.Valid.walkRuns_isOk` — a walk succeeds exactly when it accepts every page
* `PageMap.pageMap_refines_pageTable` — after any sequence of calls, a lookup tells the last change
  that covered the page, and the runs are disjoint and maximal
-/

namespace Wie

namespace PageMap

variable {runs : OrdMap ℕ PageRun} {a b r x : PageRun} {p : ℕ}

/-! ### The invariant of the map -/

/-- The table a map stores. -/
def table (m : PageMap) : PageTable := tableOf m.runs

/-- The invariant of the map: the runs are in shape and maximal, and a cached run is a stored
one. -/
structure Valid (m : PageMap) : Prop where
  /-- The stored runs are in shape. -/
  shape : Shape m.runs
  /-- Touching runs differ. -/
  maximal : Maximal m.runs
  /-- The cached run is stored. -/
  cached : m.cache.valid = true →
    Holds m.runs ⟨m.cache.startPage, m.cache.endPage, m.cache.state, m.cache.protect⟩

variable {m : PageMap}

theorem valid_new : Valid new :=
  ⟨.empty, by simp [Maximal, Holds, new], by simp [new]⟩

theorem table_new : new.table = fun _ => none := by
  funext p
  exact Shape.empty.tableOf_eq_none.mpr (by simp [Holds])

/-- The cache is transparent. -/
theorem Valid.lookup_eq_findRun (h : Valid m) (p : ℕ) : m.lookup p = findRun m.runs p := by
  unfold lookup
  split
  · rename_i hc
    simp only [Bool.and_eq_true, decide_eq_true_eq] at hc
    exact (h.shape.findRun_eq_some.mpr ⟨h.cached hc.1, hc.2⟩).symm
  · rfl

/-- **A lookup returns the stored run that covers the page.** -/
theorem Valid.lookup_eq_some (h : Valid m) : m.lookup p = some r ↔ Holds m.runs r ∧ r.Covers p := by
  rw [h.lookup_eq_findRun, h.shape.findRun_eq_some]

theorem Valid.table_eq (h : Valid m) (p : ℕ) :
    m.table p = (m.lookup p).map fun r => (r.state, r.protect) := by
  rw [h.lookup_eq_findRun]
  rfl

theorem Valid.table_eq_none (h : Valid m) : m.table p = none ↔ m.lookup p = none := by
  rw [h.table_eq, Option.map_eq_none_iff]

/-- All pages of the run a lookup returns are alike. -/
theorem Valid.table_of_lookup (h : Valid m) (hl : m.lookup p = some r) {q : ℕ} (hq : r.Covers q) :
    m.table q = some (r.state, r.protect) :=
  h.shape.tableOf_of_covers (h.lookup_eq_some.mp hl).1 hq

theorem Valid.table_ne_free (h : Valid m) {v : PageState × ℕ} (hv : m.table p = some v) :
    v.1 ≠ .free := by
  rw [h.table_eq, Option.map_eq_some_iff] at hv
  obtain ⟨r, hr, rfl⟩ := hv
  exact h.shape.live (h.lookup_eq_some.mp hr).1

theorem Valid.fillCache (h : Valid m) (hr : Holds m.runs r) : Valid (m.fillCache r) :=
  ⟨h.shape, h.maximal, fun _ => hr⟩

/-- **The writer keeps the invariant and is `PageTable.set`.** -/
theorem Valid.setPageRange_spec (h : Valid m) (lo hi : ℕ) (state : PageState) (protect : ℕ) :
    Valid (m.setPageRange lo hi state protect) ∧
      (m.setPageRange lo hi state protect).table = m.table.set lo hi state protect := by
  unfold PageMap.setPageRange
  split
  · refine ⟨h, funext fun p => ?_⟩
    rw [PageTable.set, if_neg (by omega)]
  · rename_i hlt
    have hlt : lo < hi := by omega
    have hcache : m.bumpCache.cache.valid = false := rfl
    have hsh : Shape (m.bumpCache.carve lo hi).runs := Shape.carve (m := m.bumpCache) h.shape hcache
    have hmx : Maximal (m.bumpCache.carve lo hi).runs :=
      Maximal.carve (m := m.bumpCache) h.shape hcache h.maximal hlt
    have htab := tableOf_carve (m := m.bumpCache) h.shape hcache lo hi
    have hcc : (m.bumpCache.carve lo hi).cache.valid = false := by rw [cache_carve, hcache]
    dsimp only
    split
    · rename_i hfree
      refine ⟨⟨hsh, hmx, fun hv => absurd hv (by simp [hcc])⟩, funext fun p => ?_⟩
      change tableOf _ p = _
      rw [htab, PageTable.set, if_pos hfree]
      rfl
    · rename_i hfree
      have hfit : Fits (m.bumpCache.carve lo hi).runs ⟨lo, hi, state, protect⟩ :=
        ⟨hsh, hmx, hlt, hfree, fun a ha => apart_of_holds_carve (m := m.bumpCache) h.shape hcache ha⟩
      obtain ⟨hfl, hol, hll⟩ := hfit.mergeLeft
      obtain ⟨hfr, hor, hrr, hsub, hst, hal⟩ := hfl.mergeRight
      obtain ⟨hs, hm, ht⟩ := hfr.insert
        (fun a ha he has => hll a (hsub a ha) (he.trans hst)
          ⟨has.1.trans hal.1, has.2.trans hal.2⟩) hrr
      refine ⟨⟨hs, hm, fun hv => ?_⟩, ?_⟩
      · rw [cache_mergeRight, cache_mergeLeft, hcc] at hv
        cases hv
      · change tableOf _ = _
        rw [ht, hor, hol]
        funext p
        unfold overlay PageTable.set
        rw [htab, if_neg hfree]
        split
        · rfl
        · rfl

theorem Valid.setRange_spec (h : Valid m) {address size protect : ℕ} {state : PageState}
    {m' : PageMap} (hs : m.setRange address size state protect = .ok m') :
    Valid m' ∧ m'.table =
      m.table.set (address / 0x1000) ((address + size) / 0x1000) state protect := by
  unfold PageMap.setRange at hs
  split at hs
  · rename_i h0
    cases hs
    refine ⟨h, funext fun p => ?_⟩
    rw [PageTable.set, if_neg (by omega)]
  · split at hs
    · cases hs
    · split at hs
      · cases hs
      · split at hs
        · cases hs
        · rename_i hadd
          cases hs
          rw [(checkedAdd_eq_some.mp hadd).1]
          exact h.setPageRange_spec _ _ _ _

/-- A page-aligned change below the top of the address space succeeds. -/
theorem exists_setRange (m : PageMap) (state : PageState) (protect : ℕ) {address size : ℕ}
    (ha : address % 0x1000 = 0) (hz : size % 0x1000 = 0) (he : address + size < 2 ^ 64) :
    ∃ m', m.setRange address size state protect = .ok m' := by
  unfold PageMap.setRange
  split
  · exact ⟨m, rfl⟩
  · rw [if_neg (by simpa using ha), if_neg (by simpa using hz),
      show checkedAdd address size = some (address + size) from checkedAdd_eq_some.mpr ⟨rfl, he⟩]
    exact ⟨_, rfl⟩

/-! ### The permission check -/

/-- The check keeps the invariant and the runs, and succeeds when every page up to `lastPage`
grants the access. -/
theorem Valid.checkAccessLoop_spec (va : ℕ) (kind : AccessKind) (lastPage : ℕ) :
    ∀ (fuel page : ℕ) (m : PageMap), Valid m → lastPage + 1 - page ≤ fuel →
      Valid (checkAccessLoop va kind lastPage fuel page m).2 ∧
        (checkAccessLoop va kind lastPage fuel page m).2.runs = m.runs ∧
        ((checkAccessLoop va kind lastPage fuel page m).1 = .ok () ↔
          ∀ q, page ≤ q → q ≤ lastPage → m.table.grants kind q = true) := by
  intro fuel
  induction fuel with
  | zero =>
    intro page m h hf
    refine ⟨h, rfl, fun _ q _ _ => by omega, fun _ => rfl⟩
  | succ fuel ih =>
    intro page m h hf
    unfold checkAccessLoop
    by_cases hp : page ≤ lastPage
    · rw [if_pos hp]
      -- the first page decides the failures; past it, the whole run agrees with it
      cases hl : m.lookup page with
      | none =>
        refine ⟨h, rfl, by simp, fun hq => ?_⟩
        have hg := hq page le_rfl hp
        obtain ⟨protect, ht, -⟩ := PageTable.grants_iff.mp hg
        rw [h.table_eq_none.mpr hl] at ht
        cases ht
      | some run =>
        have hcov := (h.lookup_eq_some.mp hl).2
        have htab := fun q (hq : run.Covers q) => h.table_of_lookup hl hq
        have hgr (q : ℕ) (hq : run.Covers q) : m.table.grants kind q = true ↔
            run.state = .committed ∧ Protect.allows run.protect kind = true := by
          rw [PageTable.grants_iff, htab q hq]
          constructor
          · rintro ⟨protect, he, ha⟩
            obtain ⟨hs, hp⟩ := Prod.mk.inj (Option.some.inj he)
            exact ⟨hs, hp ▸ ha⟩
          · rintro ⟨hs, ha⟩
            exact ⟨run.protect, by rw [hs], ha⟩
        dsimp only
        by_cases hst : run.state = .committed
        · by_cases hal : Protect.allows run.protect kind = true
          · have hfill : Valid (m.fillCache run) := h.fillCache (h.lookup_eq_some.mp hl).1
            have hend : page < run.endPage := hcov.2
            rw [if_neg (by simpa using hst), if_neg (by simpa using hal), if_neg (by omega)]
            obtain ⟨hv, hr, hok⟩ := ih run.endPage (m.fillCache run) hfill (by omega)
            refine ⟨hv, hr, hok.trans ⟨fun hq q hpq hql => ?_, fun hq q hpq hql => ?_⟩⟩
            · by_cases hqe : q < run.endPage
              · exact (hgr q ⟨hcov.1.trans hpq, hqe⟩).mpr ⟨hst, hal⟩
              · exact hq q (by omega) hql
            · exact hq q (by omega) hql
          · rw [if_neg (by simpa using hst), if_pos (by simpa using hal)]
            refine ⟨h, rfl, by simp, fun hq => ?_⟩
            exact absurd ((hgr page hcov).mp (hq page le_rfl hp)).2 hal
        · rw [if_pos hst]
          refine ⟨h, rfl, by simp, fun hq => ?_⟩
          exact absurd ((hgr page hcov).mp (hq page le_rfl hp)).1 hst
    · rw [if_neg hp]
      exact ⟨h, rfl, fun _ q _ _ => by omega, fun _ => rfl⟩

theorem Valid.checkAccess_keeps (h : Valid m) (va len : ℕ) (kind : AccessKind) :
    Valid (m.checkAccess va len kind).2 ∧ (m.checkAccess va len kind).2.runs = m.runs := by
  unfold PageMap.checkAccess
  split
  · exact ⟨h, rfl⟩
  · split
    · exact ⟨h, rfl⟩
    · rename_i stop _
      have hs := checkAccessLoop_spec va kind ((stop - 1) / 0x1000) _ (va / 0x1000) m h le_rfl
      exact ⟨hs.1, hs.2.1⟩

/-- **The permission check succeeds exactly when every byte's page grants the access.** -/
theorem Valid.checkAccess_eq_ok (h : Valid m) (va len : ℕ) (kind : AccessKind) :
    (m.checkAccess va len kind).1 = .ok () ↔
      len = 0 ∨ (va + len < 2 ^ 64 ∧
        ∀ x, va ≤ x → x < va + len → m.table.grants kind (x / 0x1000) = true) := by
  unfold PageMap.checkAccess
  split
  · rename_i h0
    simp [h0]
  · rename_i h0
    split
    · rename_i hn
      have := checkedAdd_eq_none.mp hn
      simp only [reduceCtorEq, h0, false_or, false_iff, not_and]
      intro hlt
      omega
    · rename_i stop hadd
      obtain ⟨rfl, hlt⟩ := checkedAdd_eq_some.mp hadd
      rw [(checkAccessLoop_spec va kind _ _ _ m h le_rfl).2.2]
      simp only [h0, false_or, hlt, true_and]
      constructor
      · exact fun hq x h1 h2 => hq _ (Nat.div_le_div_right h1) (Nat.div_le_div_right (by omega))
      · intro hx q h1 h2
        -- the first byte of the range in page `q`
        have := hx (max va (q * 0x1000)) (le_max_left _ _) (by omega)
        rwa [show max va (q * 0x1000) / 0x1000 = q by omega] at this

/-! ### Walking -/

/-- A walk whose visits accept by state and protection alone succeeds exactly when every page of
the range is accepted. -/
theorem Valid.walkRuns_isOk {ε σ : Type} (h : Valid m) {visit : σ → PageRun → Except ε σ}
    {missing corrupt : ε} {accept : PageState × ℕ → Prop}
    (hv : ∀ acc run, (∃ acc', visit acc run = .ok acc') ↔ accept (run.state, run.protect))
    (last : ℕ) : ∀ (fuel page : ℕ) (acc : σ), last - page ≤ fuel →
      ((∃ acc', m.walkRuns visit missing corrupt last fuel page acc = .ok acc') ↔
        ∀ q, page ≤ q → q < last → ∃ v, m.table q = some v ∧ accept v) := by
  intro fuel
  induction fuel with
  | zero => exact fun page acc hf => ⟨fun _ q _ _ => by omega, fun _ => ⟨acc, rfl⟩⟩
  | succ fuel ih =>
    intro page acc hf
    unfold walkRuns
    by_cases hp : page < last
    · rw [if_pos hp]
      cases hl : m.lookup page with
      | none =>
        refine ⟨by simp, fun hq => ?_⟩
        obtain ⟨v, ht, -⟩ := hq page le_rfl hp
        rw [h.table_eq_none.mpr hl] at ht
        cases ht
      | some run =>
        have hcov := (h.lookup_eq_some.mp hl).2
        have htab := fun q (hq : run.Covers q) => h.table_of_lookup hl hq
        have hend : page < run.endPage := hcov.2
        dsimp only
        cases hvis : visit acc run with
        | error e =>
          refine ⟨by simp, fun hq => ?_⟩
          obtain ⟨v, ht, hacc⟩ := hq page le_rfl hp
          rw [htab page hcov] at ht
          cases ht
          obtain ⟨acc', hok⟩ := (hv acc run).mpr hacc
          rw [hvis] at hok
          cases hok
        | ok acc' =>
          have hacc := (hv acc run).mp ⟨acc', hvis⟩
          dsimp only
          rw [if_neg (by omega), ih _ _ (by omega)]
          refine ⟨fun hq q hpq hql => ?_, fun hq q hpq hql => hq q (by omega) hql⟩
          by_cases hqe : q < run.endPage
          · exact ⟨_, htab q ⟨hcov.1.trans hpq, hqe⟩, hacc⟩
          · exact hq q (by omega) hql
    · rw [if_neg hp]
      exact ⟨fun _ q _ _ => by omega, fun _ => ⟨acc, rfl⟩⟩

/-! ### Whole runs of the map -/

/-- A call on a page map. -/
inductive Call where
  /-- `setRange address size state protect` -/
  | setRange (address size : ℕ) (state : PageState) (protect : ℕ)
  /-- `lookup page` -/
  | lookup (page : ℕ)
  /-- `checkAccess va len kind` -/
  | checkAccess (va len : ℕ) (kind : AccessKind)

/-- The map after a call; a rejected change leaves it as it was. -/
def Call.run (m : PageMap) : Call → PageMap
  | .setRange address size state protect =>
    match m.setRange address size state protect with
    | .ok m' => m'
    | .error _ => m
  | .lookup _ => m
  | .checkAccess va len kind => (m.checkAccess va len kind).2

/-- The map after a sequence of calls on the empty one. -/
def runCalls (calls : List Call) : PageMap := calls.foldl Call.run new

/-- What a call says about a page: the state and protection of an accepted change that covers
it. -/
def Call.covers (p : ℕ) : Call → Option (PageState × ℕ)
  | .setRange address size state protect =>
    if address % 0x1000 = 0 ∧ size % 0x1000 = 0 ∧ address + size < 2 ^ 64 ∧
        address ≤ p * 0x1000 ∧ p * 0x1000 < address + size then
      some (state, protect)
    else none
  | .lookup _ => none
  | .checkAccess _ _ _ => none

/-- The state and protection given by the last change that covered the page. -/
def lastCover (calls : List Call) (p : ℕ) : Option (PageState × ℕ) :=
  calls.reverse.findSome? (Call.covers p)

/-- One call keeps the invariant and changes the table only where it says so. -/
theorem Valid.run (h : Valid m) (c : Call) :
    Valid (c.run m) ∧ ∀ p, (c.run m).table p =
      match c.covers p with
      | some (state, protect) => if state = .free then none else some (state, protect)
      | none => m.table p := by
  cases c with
  | setRange address size state protect =>
    simp only [Call.run]
    cases hs : m.setRange address size state protect with
    | error e =>
      refine ⟨h, fun p => ?_⟩
      have hn : Call.covers p (.setRange address size state protect) = none := by
        refine if_neg fun ⟨ha, hz, he, _, _⟩ => ?_
        obtain ⟨m', hok⟩ := exists_setRange m state protect ha hz he
        rw [hs] at hok
        cases hok
      rw [hn]
    | ok m' =>
      obtain ⟨hv, ht⟩ := h.setRange_spec hs
      refine ⟨hv, fun p => ?_⟩
      dsimp only
      rw [ht, PageTable.set, Call.covers]
      -- an accepted change is aligned and in bounds, or empty
      have hacc : size = 0 ∨
          (address % 0x1000 = 0 ∧ size % 0x1000 = 0 ∧ address + size < 2 ^ 64) := by
        unfold PageMap.setRange at hs
        by_contra hcon
        push Not at hcon
        obtain ⟨h0, hbad⟩ := hcon
        rw [if_neg h0] at hs
        split at hs
        · cases hs
        · split at hs
          · cases hs
          · split at hs
            · cases hs
            · rename_i ha hz _ stop hadd
              have := checkedAdd_eq_some.mp hadd
              have := hbad (by simpa using ha) (by simpa using hz)
              omega
      have hiff : (address / 0x1000 ≤ p ∧ p < (address + size) / 0x1000) ↔
          (address % 0x1000 = 0 ∧ size % 0x1000 = 0 ∧ address + size < 2 ^ 64 ∧
            address ≤ p * 0x1000 ∧ p * 0x1000 < address + size) := by
        omega
      by_cases hin : address / 0x1000 ≤ p ∧ p < (address + size) / 0x1000
      · rw [if_pos hin, if_pos (hiff.mp hin)]
      · rw [if_neg hin, if_neg (mt hiff.mpr hin)]
  | lookup page => exact ⟨h, fun p => rfl⟩
  | checkAccess va len kind =>
    obtain ⟨hv, hr⟩ := h.checkAccess_keeps va len kind
    refine ⟨hv, fun p => ?_⟩
    change tableOf (m.checkAccess va len kind).2.runs p = _
    rw [hr]
    rfl

/-- Every sequence of calls keeps the invariant, and the table holds what was set last. -/
theorem valid_runCalls (calls : List Call) :
    Valid (runCalls calls) ∧ ∀ p, (runCalls calls).table p =
      match lastCover calls p with
      | some (state, protect) => if state = .free then none else some (state, protect)
      | none => none := by
  induction calls using List.reverseRecOn with
  | nil => exact ⟨valid_new, fun p => by rw [runCalls, List.foldl_nil, table_new]; rfl⟩
  | append_singleton calls c ih =>
    have hrun : runCalls (calls ++ [c]) = c.run (runCalls calls) := by simp [runCalls]
    obtain ⟨hv, ht⟩ := ih.1.run c
    rw [hrun]
    refine ⟨hv, fun p => ?_⟩
    rw [ht, lastCover, List.reverse_concat, List.findSome?_cons]
    cases hc : c.covers p with
    | some v => rfl
    | none => exact ih.2 p

/-- **A page map is a page table.** After any sequence of calls, a lookup finds nothing exactly
when the page was never covered or was last freed, and else a run around the page that carries,
at each of its pages, what was last set there; and the runs stored are non-empty, keyed by their
starts, disjoint and maximal. -/
theorem pageMap_refines_pageTable (calls : List Call) :
    (∀ p, (runCalls calls).lookup p = none ↔
      lastCover calls p = none ∨ ∃ protect, lastCover calls p = some (.free, protect)) ∧
    (∀ p state protect, lastCover calls p = some (state, protect) → state ≠ .free →
      ∃ r, (runCalls calls).lookup p = some r ∧ r.state = state ∧ r.protect = protect) ∧
    (∀ p r, (runCalls calls).lookup p = some r →
      (r.startPage ≤ p ∧ p < r.endPage) ∧
      ∀ q, r.startPage ≤ q → q < r.endPage → lastCover calls q = some (r.state, r.protect)) ∧
    (∀ e ∈ (runCalls calls).runs, e.1 = e.2.startPage ∧ e.2.startPage < e.2.endPage) ∧
    (∀ e ∈ (runCalls calls).runs, ∀ f ∈ (runCalls calls).runs, e ≠ f →
      (e.2.endPage ≤ f.2.startPage ∨ f.2.endPage ≤ e.2.startPage) ∧
      (e.2.endPage = f.2.startPage →
        ¬ (e.2.state = f.2.state ∧ e.2.protect = f.2.protect))) := by
  obtain ⟨hv, ht⟩ := valid_runCalls calls
  refine ⟨fun p => ?_, fun p state protect hc hs => ?_, fun p r hl => ?_, fun e he => ?_,
    fun e he f hf hne => ?_⟩
  · rw [← hv.table_eq_none, ht p]
    cases hc : lastCover calls p with
    | none => simp
    | some v =>
      obtain ⟨state, protect⟩ := v
      simp
  · have hp := ht p
    rw [hc] at hp
    simp only [hs, if_false] at hp
    rw [hv.table_eq, Option.map_eq_some_iff] at hp
    obtain ⟨r, hr, heq⟩ := hp
    cases heq
    exact ⟨r, hr, rfl, rfl⟩
  · refine ⟨(hv.lookup_eq_some.mp hl).2, fun q h1 h2 => ?_⟩
    have hq := ht q
    rw [hv.table_of_lookup hl ⟨h1, h2⟩] at hq
    cases hc : lastCover calls q with
    | none =>
      rw [hc] at hq
      cases hq
    | some v =>
      obtain ⟨state, protect⟩ := v
      rw [hc] at hq
      dsimp only at hq
      split at hq
      · cases hq
      · exact hq.symm
  · exact ⟨hv.shape.keyed e he, hv.shape.pos (hv.shape.holds_of_mem he)⟩
  · have hE := hv.shape.holds_of_mem he
    have hF := hv.shape.holds_of_mem hf
    refine ⟨?_, fun ht' => hv.maximal _ _ hE hF ht'⟩
    rcases hv.shape.trichotomy hE hF with heq | hd | hd
    · refine absurd (Prod.ext ?_ heq) hne
      rw [hv.shape.keyed e he, hv.shape.keyed f hf, heq]
    · exact .inl hd
    · exact .inr hd

end PageMap

end Wie
