import Wie.Lib.OrdMap
import Wie.Lib.Word
import Wie.Mem.Protect

/-!
# The run-length page map

Page state and protection of the guest address space, stored as runs of consecutive pages that
agree on both. A page that is in no run is free. One run is remembered in a cache in front of the
lookup, filled by the permission check and dropped by every change.

A page is `0x1000` bytes and its key is `va / 0x1000`.

## Main definitions

* `PageState`, `PageRun`, `PageMap` — the stored data
* `PageMap.lookup`, `PageMap.checkAccess` — the readers, through the cache
* `PageMap.setRange`, `PageMap.setPageRange` — the writer: split, remove, merge, insert
* `PageMap.walkRuns` — the walk the allocation calls validate their range with
-/

namespace Wie

/-- The lifecycle state of a guest page. -/
inductive PageState where
  /-- Not part of any allocation. -/
  | free
  /-- Reserved but not committed: no access. -/
  | reserved
  /-- Committed: access is decided by the protection. -/
  | committed
  deriving DecidableEq, Repr, Inhabited

/-- The pages `[startPage, endPage)`, alike in state and protection. -/
structure PageRun where
  /-- First page of the run. -/
  startPage : ℕ
  /-- First page after the run. -/
  endPage : ℕ
  /-- State of every page of the run. -/
  state : PageState
  /-- Protection of every page of the run. -/
  protect : ℕ
  deriving DecidableEq, Repr

/-- The one-entry cache in front of the lookup. -/
structure RunCache where
  /-- Whether the cache holds a run. -/
  valid : Bool := false
  /-- First page of the cached run. -/
  startPage : ℕ := 0
  /-- First page after the cached run. -/
  endPage : ℕ := 0
  /-- State of the cached run. -/
  state : PageState := .free
  /-- Protection of the cached run. -/
  protect : ℕ := 0
  deriving DecidableEq, Repr

/-- The page map: runs keyed by their first page, and the cache. -/
structure PageMap where
  /-- The runs, each under the key of its first page. -/
  runs : OrdMap ℕ PageRun
  /-- The run remembered by the last permission check. -/
  cache : RunCache
  deriving DecidableEq

namespace PageMap

/-- The map in which every page is free. -/
def new : PageMap := ⟨.empty, {}⟩

/-- Forget the cached run. -/
def bumpCache (m : PageMap) : PageMap := { m with cache := {} }

/-! ### Looking up -/

/-- The stored run covering `pageKey`: the one of greatest start at or below it, if it reaches
that far. -/
def findRun (runs : OrdMap ℕ PageRun) (pageKey : ℕ) : Option PageRun :=
  match runs.floor? pageKey with
  | none => none
  | some (_, run) => if pageKey < run.endPage then some run else none

/-- The run covering `pageKey`, from the cache when the cached run covers it. -/
def lookup (m : PageMap) (pageKey : ℕ) : Option PageRun :=
  if m.cache.valid && decide (m.cache.startPage ≤ pageKey ∧ pageKey < m.cache.endPage) then
    some ⟨m.cache.startPage, m.cache.endPage, m.cache.state, m.cache.protect⟩
  else findRun m.runs pageKey

/-- Remember `run` for the next lookup. -/
def fillCache (m : PageMap) (run : PageRun) : PageMap :=
  { m with cache := ⟨true, run.startPage, run.endPage, run.state, run.protect⟩ }

/-- The error of a denied access. -/
def accessDenied (va : ℕ) (kind : AccessKind) (why : String) : CpuError :=
  let op := match kind with
    | .read => "mem_read"
    | .write => "mem_write"
    | .execute => "instruction fetch"
  .message s!"{op} {why} {hex va}"

/-- The loop of the permission check, from `page` up to and including `lastPage`. Every round
moves at least one page on, so the first argument is never exhausted before the range is. -/
def checkAccessLoop (va : ℕ) (kind : AccessKind) (lastPage : ℕ) :
    ℕ → ℕ → PageMap → Except CpuError Unit × PageMap
  | 0, _, m => (.ok (), m)
  | fuel + 1, page, m =>
    if page ≤ lastPage then
      match m.lookup page with
      | none => (.error (accessDenied va kind "unmapped"), m)
      | some run =>
        if run.state ≠ .committed then (.error (accessDenied va kind "not committed"), m)
        else if Protect.allows run.protect kind = false then
          (.error (accessDenied va kind "permission denied"), m)
        else if run.endPage ≤ page then
          (.error (.message "pagemap corrupt run"), m.fillCache run)
        else checkAccessLoop va kind lastPage fuel run.endPage (m.fillCache run)
    else (.ok (), m)

/-- Software permission check for `[va, va + len)`: all of it or nothing. -/
def checkAccess (m : PageMap) (va len : ℕ) (kind : AccessKind) : Except CpuError Unit × PageMap :=
  if len = 0 then (.ok (), m)
  else
    match checkedAdd va len with
    | none => (.error (.message s!"access overflow at {hex va}+{hex len}"), m)
    | some stop =>
      checkAccessLoop va kind ((stop - 1) / 0x1000) ((stop - 1) / 0x1000 + 1 - va / 0x1000)
        (va / 0x1000) m

/-! ### Changing a range -/

/-- The run whose last page is just before `page`, if it is stored under its own start. -/
def lookupExactEnd (m : PageMap) (page : ℕ) : Option PageRun :=
  match m.runs.below? page with
  | none => none
  | some (start, run) =>
    if run.endPage = page ∧ run.startPage = start then some run else none

/-- Split the run that `page` falls inside, so that `page` starts a run or is in none. -/
def splitAt (m : PageMap) (page : ℕ) : PageMap :=
  match m.lookup page with
  | none => m
  | some run =>
    if run.startPage = page then m
    else
      { m with runs := ((m.runs.erase run.startPage).insert run.startPage
          { run with endPage := page }).insert page { run with startPage := page } }

/-- Absorb the left neighbour of `run` when it agrees with `run`. -/
def mergeLeft (m : PageMap) (run : PageRun) : PageMap × PageRun :=
  if 0 < run.startPage then
    match m.lookupExactEnd run.startPage with
    | none => (m, run)
    | some left =>
      if left.state = run.state ∧ left.protect = run.protect then
        ({ m with runs := m.runs.erase left.startPage }, { run with startPage := left.startPage })
      else (m, run)
  else (m, run)

/-- Absorb the right neighbour of `run` when it agrees with `run`. -/
def mergeRight (m : PageMap) (run : PageRun) : PageMap × PageRun :=
  match m.runs.get? run.endPage with
  | none => (m, run)
  | some right =>
    if right.state = run.state ∧ right.protect = run.protect then
      ({ m with runs := m.runs.erase run.endPage }, { run with endPage := right.endPage })
    else (m, run)

/-- Split at both ends of `[startPage, endPage)` and remove the runs in between. -/
def carve (m : PageMap) (startPage endPage : ℕ) : PageMap :=
  let m := (m.splitAt startPage).splitAt endPage
  { m with runs := m.runs.eraseAll (m.runs.keysIn startPage endPage) }

/-- Give the pages `[startPage, endPage)` a state and a protection. -/
def setPageRange (m : PageMap) (startPage endPage : ℕ) (state : PageState) (protect : ℕ) :
    PageMap :=
  if endPage ≤ startPage then m
  else
    let m := m.bumpCache.carve startPage endPage
    if state = .free then m
    else
      let (m, run) := m.mergeLeft ⟨startPage, endPage, state, protect⟩
      let (m, run) := m.mergeRight run
      { m with runs := m.runs.insert run.startPage run }

/-- Give `[address, address + size)` a state and a protection. Both must be page-aligned. -/
def setRange (m : PageMap) (address size : ℕ) (state : PageState) (protect : ℕ) :
    Except CpuError PageMap :=
  if size = 0 then .ok m
  else if address % 0x1000 ≠ 0 then
    .error (.message s!"pagemap set_range address {hex address} not page-aligned")
  else if size % 0x1000 ≠ 0 then
    .error (.message s!"pagemap set_range size {hex size} not page-aligned")
  else
    match checkedAdd address size with
    | none => .error (.message s!"pagemap overflow at {hex address}+{hex size}")
    | some stop => .ok (m.setPageRange (address / 0x1000) (stop / 0x1000) state protect)

/-! ### Walking a range

`VirtualAlloc`, `VirtualFree` and `VirtualProtect` all validate their range by walking its runs
before they change anything. The walks differ in what they accept, in what they accumulate and in
their error texts, which are the parameters here. -/

/-- Walk the runs covering `[page, last)`, threading an accumulator through `visit`. A page in no
run is `missing`; a run that does not reach past the current page is `corrupt`. -/
def walkRuns {ε σ : Type} (m : PageMap) (visit : σ → PageRun → Except ε σ) (missing corrupt : ε)
    (last : ℕ) : ℕ → ℕ → σ → Except ε σ
  | 0, _, acc => .ok acc
  | fuel + 1, page, acc =>
    if page < last then
      match m.lookup page with
      | none => .error missing
      | some run =>
        match visit acc run with
        | .error e => .error e
        | .ok acc =>
          if min run.endPage last ≤ page then .error corrupt
          else walkRuns m visit missing corrupt last fuel (min run.endPage last) acc
    else .ok acc

end PageMap

end Wie
