import Wie.Mem.HostProtect

/-!
# What a call can do

The invariant that every reachable guest memory has, whatever the maps, and for each call what it
can change. The calls touch five structures in sequence; `Change` says, per call, how all of them
differ afterwards. Every later result about guest memory is derived from it, without opening a call
again.

## The invariant

The page map, the allocations and the arenas are each well-formed. Every page of an allocation is
in use, and every page in use is backed by an arena. The converses fail: bootstrap maps may overlap
allocations, and then there are pages in no allocation and arenas under no page.

## Main definitions

* `GuestMemory.Inv` — the invariant
* `GuestMemory.PageRange` — a non-empty, page-aligned range below the top
* `GuestMemory.Op`, `GuestMemory.Op.run` — the calls
* `GuestMemory.Change` — what a call can do

## Main results

* `GuestMemory.Inv.change` — every call that returns is a `Change`
* `GuestMemory.Change.inv` — and every `Change` keeps the invariant
-/

namespace Wie

namespace GuestMemory

/-- A non-empty page-aligned range that ends below the top of the address space. -/
structure PageRange (lo size : ℕ) : Prop where
  /-- It is not empty. -/
  pos : 0 < size
  /-- It starts at a page. -/
  base : lo % 0x1000 = 0
  /-- It is a whole number of pages. -/
  len : size % 0x1000 = 0
  /-- It ends below the top. -/
  top : lo + size < 2 ^ 64

/-- The invariant of guest memory. -/
structure Inv (env : HostEnv) (m : GuestMemory) : Prop where
  /-- The places of the arenas are well-formed. -/
  placed : ArenaSet.Placed env m.backend.spans
  /-- The host pages under the arenas are mapped for reading. -/
  readable : ArenaSet.Readable env m.backend
  /-- The page map is well-formed. -/
  pages : m.pages.Valid
  /-- The allocations are ordered and disjoint. -/
  vad : m.vad.Ordered
  /-- Every page of an allocation is in use. -/
  owned : ∀ n ∈ m.vad.nodes, ∀ x, n.allocationBase ≤ x → x < n.allocationBase + n.size →
    m.pages.table (x / 0x1000) ≠ none
  /-- Every page in use is backed. -/
  backed : ∀ x, m.pages.table (x / 0x1000) ≠ none → (m.backend.hostAddr x).isSome = true
  /-- The generation is a 64-bit number. -/
  generation : m.generation < 2 ^ 64

variable {env : HostEnv} {m m' : GuestMemory}

theorem inv_new (host : Host) : Inv env (new host) where
  placed := ArenaSet.placed_nil
  readable a ha := by simp [new, ArenaSet.spans] at ha
  pages := PageMap.valid_new
  vad := VadTable.ordered_new
  owned n hn := by simp [new, VadTable.new] at hn
  backed x hx := absurd (congrFun PageMap.table_new _) hx
  generation := by simp [new]

/-! ### Changing the table over a range -/

/-- The table after a page range was set. -/
theorem set_range_apply {t : PageTable} {lo size : ℕ} (h : PageRange lo size) (state : PageState)
    (protect x : ℕ) :
    t.set (lo / 0x1000) ((lo + size) / 0x1000) state protect (x / 0x1000) =
      if lo ≤ x ∧ x < lo + size then (if state = .free then none else some (state, protect))
      else t (x / 0x1000) := by
  obtain ⟨hpos, hbase, hlen, htop⟩ := h
  unfold PageTable.set
  have : (lo / 0x1000 ≤ x / 0x1000 ∧ x / 0x1000 < (lo + size) / 0x1000) ↔
      (lo ≤ x ∧ x < lo + size) := by omega
  exact if_congr this rfl rfl

/-- A range of pages passes the validation of a commit, decommit or protection change exactly when
it is inside one allocation and the walk accepts each of its pages. -/
theorem Inv.pageRange_eq_ok (h : Inv env m) {addr size : ℕ} (hsize : 0 < size) {errs : RangeErrors}
    {σ : Type} {visit : σ → PageRun → Except CpuError σ} {acc : σ} {base len : ℕ} {acc' : σ}
    {accept : PageState × ℕ → Prop}
    (hv : ∀ acc run, (∃ acc', visit acc run = .ok acc') ↔ accept (run.state, run.protect))
    (hr : m.pageRange addr size errs visit acc = .ok (base, len, acc')) :
    PageRange base len ∧ base = alignDown addr 0x1000 ∧ base ≤ addr ∧ addr < base + 0x1000 ∧
      addr + size ≤ base + len ∧ base + len < addr + size + 0x1000 ∧
      (∃ n ∈ m.vad.nodes, n.allocationBase ≤ base ∧
        base + len ≤ n.allocationBase + n.size) ∧
      ∀ x, base ≤ x → x < base + len → ∃ v, m.pages.table (x / 0x1000) = some v ∧ accept v := by
  unfold pageRange at hr
  split at hr
  · cases hr
  · rename_i stop hadd
    obtain ⟨rfl, hlt⟩ := checkedAdd_eq_some.mp hadd
    dsimp only at hr
    split at hr
    · cases hr
    · rename_i node hnode
      obtain ⟨hn, hn1, hn2⟩ := h.vad.find_eq_some.mp hnode
      split at hr
      · cases hr
      · rename_i hcont
        split at hr
        · cases hr
        · rename_i w hw
          cases hr
          have hdown := alignDown_le addr 0x1000
          have hdown' := lt_alignDown_add (by omega : 0 < 0x1000) addr
          have hdm := Nat.mod_eq_zero_of_dvd (alignDown_dvd (by omega : 0 < 0x1000) addr)
          have hup := le_alignUp hlt 0x1000
          have hnb := h.vad.bounded node hn
          have hna := h.vad.aligned node hn
          have hlen : 0 < alignUp (addr + size) 0x1000 - alignDown addr 0x1000 := by omega
          obtain ⟨hc1, hc2⟩ := (h.vad.containsRange_iff hn hlen).mp (Bool.not_eq_false _ ▸ hcont)
          -- an allocation ends at a page below the top, so the rounding did not stick there
          rcases alignUp_cases (by omega : 0 < 0x1000) (addr + size) with hs | ⟨hs1, -, hs3⟩
          · omega
          · have hum := Nat.mod_eq_zero_of_dvd hs1
            refine ⟨⟨by omega, hdm, by omega, by omega⟩, rfl, hdown, hdown', by omega, by omega,
              ⟨node, hn, hc1, hc2⟩, fun x h1 h2 => ?_⟩
            exact (h.pages.walkRuns_isOk hv _ _ _ _ le_rfl).mp ⟨_, hw⟩ (x / 0x1000) (by omega)
              (by omega)

/-- The page is reserved or committed. -/
def IsUsed (v : PageState × ℕ) : Prop := v.1 = .reserved ∨ v.1 = .committed

/-- The page is committed. -/
def IsCommitted (v : PageState × ℕ) : Prop := v.1 = .committed

theorem acceptUsed_isOk (e : CpuError) (acc : Unit) (run : PageRun) :
    (∃ acc', acceptUsed e acc run = .ok acc') ↔ IsUsed (run.state, run.protect) := by
  unfold acceptUsed IsUsed
  split <;> simp_all

theorem acceptCommitted_isOk (acc : Option ℕ) (run : PageRun) :
    (∃ acc', acceptCommitted acc run = .ok acc') ↔ IsCommitted (run.state, run.protect) := by
  unfold acceptCommitted IsCommitted
  split <;> simp_all

/-! ### The calls -/

/-- A call on guest memory. -/
inductive Op where
  /-- `map` or `map_image`. -/
  | map (address size perms : ℕ) (memType : MemType)
  /-- `VirtualAlloc`. -/
  | virtualAlloc (addr size allocType protect : ℕ)
  /-- `VirtualFree`. -/
  | virtualFree (addr size freeType : ℕ)
  /-- `VirtualProtect`. -/
  | virtualProtect (addr size newProtect : ℕ)
  /-- A guest write. -/
  | write (address : ℕ) (bytes : List UInt8)
  /-- A guest read. -/
  | read (address len : ℕ)
  /-- The registration of a named region. -/
  | registerRegion (region : GuestRegion)

/-- An outcome without its value. -/
def void {α : Type} : Outcome α → Outcome Unit
  | .ok _ => .ok ()
  | .error e => .error e
  | .crash => .crash

/-- Make a call. -/
def Op.run (env : HostEnv) (m : GuestMemory) : Op → Outcome Unit × GuestMemory
  | .map address size perms memType =>
    let (r, m) := m.mapWithType env address size perms memType
    (void (.ofExcept r), m)
  | .virtualAlloc addr size allocType protect =>
    let (r, m) := m.virtualAlloc env addr size allocType protect
    (void (.ofExcept r), m)
  | .virtualFree addr size freeType => m.virtualFree env addr size freeType
  | .virtualProtect addr size newProtect =>
    let (r, m) := m.virtualProtect env addr size newProtect
    (void (.ofExcept r), m)
  | .write address bytes => m.write env address bytes
  | .read address len =>
    let (r, m) := m.read env address len
    (void r, m)
  | .registerRegion region => (.ok (), m.registerRegion region)

/-- The calls that only look, or only name. -/
def Op.Quiet : Op → Prop
  | .read _ _ => True
  | .registerRegion _ => True
  | _ => False

/-- The arguments of a `VirtualAlloc` pass its first checks. -/
def AllocArgs (size allocType protect : ℕ) : Prop :=
  size ≠ 0 ∧ allocType &&& (0xffffffff - (memReserve ||| memCommit)) = 0 ∧
    Protect.isSupportedProtect protect = true

/-! ### What they can change -/

/-- Everything but the registered regions and the cache of the page map is as it was. -/
structure Same (m m' : GuestMemory) : Prop where
  /-- The arenas and the host stay. -/
  backend : m'.backend = m.backend
  /-- The runs stay. -/
  runs : m'.pages.runs = m.pages.runs
  /-- The page map is well-formed. -/
  valid : m'.pages.Valid
  /-- The allocations stay. -/
  vad : m'.vad = m.vad
  /-- The generation stays. -/
  generation : m'.generation = m.generation

/-- The permission bits a reservation maps its storage with. -/
def reservePerms (allocType protect : ℕ) : ℕ :=
  if allocType &&& memCommit ≠ 0 then Protect.rwxFromPageProtect protect else Perm.all

/-- A map or a reservation of `[lo, lo + size)` with permission bits `perms` failed after it had
asked for storage. -/
structure Grew (env : HostEnv) (m : GuestMemory) (lo size perms : ℕ) (m' : GuestMemory) :
    Prop where
  /-- The range. -/
  range : PageRange lo size
  /-- New arenas may have appeared. -/
  grown : ArenaSet.Grown env lo (lo + size) m.backend m'.backend
  /-- Storage was missing. -/
  missing : ∃ x, lo ≤ x ∧ x < lo + size ∧ m.backend.hostAddr x = none
  /-- If there was one gap to fill, none has. -/
  gap : m.backend.OneGap lo (lo + size) perms → m'.backend.arenas = m.backend.arenas
  /-- Nothing else changes. -/
  rest : m' = { m with backend := m'.backend }

/-- The storage of `[lo, lo + size)` is there afterwards. -/
structure Stored (env : HostEnv) (lo size : ℕ) (s s' : ArenaSet) : Prop where
  /-- What was there stays. -/
  grown : ArenaSet.Grown env lo (lo + size) s s'
  /-- The range is backed. -/
  backs : ∀ x, lo ≤ x → x < lo + size → (s'.hostAddr x).isSome = true
  /-- Over a vacant range, exactly one arena is new. -/
  vacant : s.anyOverlap lo (lo + size) = false →
    ∃ p, ∀ a, a ∈ s'.spans ↔ a = ⟨lo, size, p⟩ ∨ a ∈ s.spans
  /-- An exact rematch changes no place. -/
  rematch : (∃ a ∈ s.spans, a.guestBase = lo ∧ a.size = size) → s'.spans = s.spans

/-- `[lo, lo + size)` was mapped. -/
structure Mapped (env : HostEnv) (m : GuestMemory) (lo size protect : ℕ) (memType : MemType)
    (m' : GuestMemory) : Prop where
  /-- The range. -/
  range : PageRange lo size
  /-- Storage was found for it, and host protection brought in line. -/
  backend : ∃ b, Stored env lo size m.backend b ∧
    ArenaSet.Synced env m'.pages lo (lo + size) b m'.backend
  /-- The page map is well-formed. -/
  valid : m'.pages.Valid
  /-- The pages of the range are committed. -/
  table : m'.pages.table =
    m.pages.table.set (lo / 0x1000) ((lo + size) / 0x1000) .committed protect
  /-- The allocation is registered unless its base is known or it meets another. -/
  vad : (m.vad.findBase lo = none ∧ m.vad.overlaps lo size = false ∧
      m'.vad = ⟨insertBy VadNode.allocationBase ⟨lo, size, protect, memType, true⟩ m.vad.nodes⟩) ∨
    (¬ (m.vad.findBase lo = none ∧ m.vad.overlaps lo size = false) ∧ m'.vad = m.vad)
  /-- The generation moves on. -/
  generation : m'.generation = satAdd m.generation 1

/-- `[lo, lo + size)` was reserved, for a request of `size₀` bytes at `addr`. -/
structure Reserved (env : HostEnv) (m : GuestMemory) (addr size₀ lo size : ℕ) (state : PageState)
    (pageProtect protect : ℕ) (m' : GuestMemory) : Prop where
  /-- The range. -/
  range : PageRange lo size
  /-- It is what the request rounds to. -/
  request : m.alignReserveRequest addr size₀ = .ok (lo, size)
  /-- Its pages were free. -/
  free : ∀ x, lo ≤ x → x < lo + size → m.pages.table (x / 0x1000) = none
  /-- It met no allocation. -/
  apart : m.vad.overlaps lo size = false
  /-- Storage was found for it. -/
  backend : Stored env lo size m.backend m'.backend
  /-- The page map is well-formed. -/
  valid : m'.pages.Valid
  /-- Pages are reserved or committed. -/
  used : state ≠ .free
  /-- The pages of the range are set. -/
  table : m'.pages.table =
    m.pages.table.set (lo / 0x1000) ((lo + size) / 0x1000) state pageProtect
  /-- The allocation is registered. -/
  vad : m'.vad = ⟨insertBy VadNode.allocationBase ⟨lo, size, protect, .priv, true⟩ m.vad.nodes⟩
  /-- The generation moves on. -/
  generation : m'.generation = satAdd m.generation 1

/-- The pages of `[lo, lo + size)`, all of one allocation and all in use, were set. -/
structure Reset (m : GuestMemory) (lo size : ℕ) (state : PageState) (protect : ℕ)
    (m' : GuestMemory) : Prop where
  /-- The range. -/
  range : PageRange lo size
  /-- It is inside one allocation. -/
  inside : ∃ n ∈ m.vad.nodes, n.allocationBase ≤ lo ∧ lo + size ≤ n.allocationBase + n.size
  /-- The page map is well-formed. -/
  valid : m'.pages.Valid
  /-- The pages of the range are set. -/
  table : m'.pages.table =
    m.pages.table.set (lo / 0x1000) ((lo + size) / 0x1000) state protect
  /-- The allocations stay. -/
  vad : m'.vad = m.vad
  /-- The generation moves on. -/
  generation : m'.generation = satAdd m.generation 1

/-- `[lo, lo + size)` was zeroed. -/
structure Zeroed (env : HostEnv) (s : ArenaSet) (lo size : ℕ) (s' : ArenaSet) : Prop where
  /-- The arenas stay. -/
  arenas : s'.arenas = s.arenas
  /-- Host protection stays. -/
  prot : s'.host.prot = s.host.prot
  /-- The range reads zero, and nothing else changed. -/
  byte : ∀ x, s'.byte x = if lo ≤ x ∧ x < lo + size then (s.byte x).map fun _ => 0 else s.byte x
  /-- Every byte zeroed was under a host page mapped for writing. -/
  writable : ∀ x, lo ≤ x → x < lo + size → (s.hostAddr x).isSome = true → s.Writable env x

/-- The allocation `node` was released. -/
structure Released (env : HostEnv) (m : GuestMemory) (node : VadNode) (m' : GuestMemory) :
    Prop where
  /-- It was there. -/
  mem : node ∈ m.vad.nodes
  /-- The arena of exactly its range, if there is one, is gone. -/
  backend : m'.backend = m.backend.unmapExact env node.allocationBase node.size
  /-- The page map is well-formed. -/
  valid : m'.pages.Valid
  /-- Its pages are free. -/
  table : m'.pages.table = m.pages.table.set (node.allocationBase / 0x1000)
    ((node.allocationBase + node.size) / 0x1000) .free 0
  /-- It is no longer registered. -/
  vad : m'.vad = m.vad.removeBase node.allocationBase
  /-- The generation moves on. -/
  generation : m'.generation = satAdd m.generation 1

/-- `bytes` were written at `address`. -/
structure Wrote (env : HostEnv) (m : GuestMemory) (address : ℕ) (bytes : List UInt8)
    (m' : GuestMemory) : Prop where
  /-- The write fits and was permitted. -/
  granted : bytes = [] ∨ (address + bytes.length < 2 ^ 64 ∧ ∀ x, address ≤ x →
    x < address + bytes.length → m.pages.table.grants .write (x / 0x1000) = true)
  /-- The bytes are there. -/
  backend : ArenaSet.Written m.backend m'.backend address bytes
  /-- Every byte written was under a host page mapped for writing. -/
  writable : ∀ x, address ≤ x → x < address + bytes.length → m.backend.Writable env x
  /-- The runs stay. -/
  runs : m'.pages.runs = m.pages.runs
  /-- The page map is well-formed. -/
  valid : m'.pages.Valid
  /-- The allocations stay. -/
  vad : m'.vad = m.vad
  /-- The generation stays. -/
  generation : m'.generation = m.generation

/-- What a call can do, and whether it then reports success. -/
inductive Change (env : HostEnv) (m : GuestMemory) : Op → Bool → GuestMemory → Prop where
  /-- A call that is rejected or denied, or one that only looks. -/
  | same {op : Op} {ok : Bool} {m' : GuestMemory} (hq : ok = true → op.Quiet) (h : Same m m') :
    Change env m op ok m'
  /-- An empty map over a known base moves the generation on. -/
  | bumped {address perms : ℕ} {memType : MemType} {m' : GuestMemory}
    (h : Same m.bumpGeneration m') : Change env m (.map address 0 perms memType) true m'
  /-- A map that failed half way. -/
  | mapGrew {address size perms : ℕ} {memType : MemType} {m' : GuestMemory}
    (h : Grew env m address size perms m') :
    Change env m (.map address size perms memType) false m'
  /-- A map. -/
  | mapped {address size perms : ℕ} {memType : MemType} {m' : GuestMemory}
    (h : Mapped env m address size (Protect.pageProtectFromRwx perms) memType m') :
    Change env m (.map address size perms memType) true m'
  /-- A reservation that found no storage. -/
  | reserveGrew {addr size₀ allocType protect lo size : ℕ} {m' : GuestMemory}
    (ha : AllocArgs size₀ allocType protect) (hf : allocType &&& memReserve ≠ 0 ∨ addr = 0)
    (hr : m.alignReserveRequest addr size₀ = .ok (lo, size))
    (hfree : ∀ x, lo ≤ x → x < lo + size → m.pages.table (x / 0x1000) = none)
    (ho : m.vad.overlaps lo size = false)
    (h : Grew env m lo size (reservePerms allocType protect) m') :
    Change env m (.virtualAlloc addr size₀ allocType protect) false m'
  /-- A reservation. -/
  | reserved {addr size₀ allocType protect lo size : ℕ} {state : PageState} {pageProtect : ℕ}
    {m' : GuestMemory} (ha : AllocArgs size₀ allocType protect)
    (hf : allocType &&& memReserve ≠ 0 ∨ addr = 0)
    (hs : (state, pageProtect) = if allocType &&& memCommit ≠ 0 then (.committed, protect)
      else (.reserved, Protect.pageNoaccess))
    (h : Reserved env m addr size₀ lo size state pageProtect protect m') :
    Change env m (.virtualAlloc addr size₀ allocType protect) true m'
  /-- A commit. -/
  | committed {addr size₀ allocType protect lo size : ℕ} {m' : GuestMemory}
    (ha : AllocArgs size₀ allocType protect) (hf : allocType &&& memReserve = 0 ∧ addr ≠ 0)
    (hp : m.pageRange addr size₀ commitErrors (acceptUsed commitErrors.missing) () =
      .ok (lo, size, ())) (hb : m'.backend = m.backend)
    (h : Reset m lo size .committed protect m') :
    Change env m (.virtualAlloc addr size₀ allocType protect) true m'
  /-- A decommit. -/
  | decommitted {addr size₀ freeType lo size : ℕ} {m' : GuestMemory}
    (hz : size₀ ≠ 0) (hf : freeType &&& memRelease = 0)
    (hp : m.pageRange addr size₀ decommitErrors (acceptUsed decommitErrors.missing) () =
      .ok (lo, size, ())) (hb : Zeroed env m.backend lo size m'.backend)
    (h : Reset m lo size .reserved Protect.pageNoaccess m') :
    Change env m (.virtualFree addr size₀ freeType) true m'
  /-- A protection change. -/
  | reprotected {addr size₀ protect lo size : ℕ} {old : Option ℕ} {m' : GuestMemory}
    (hz : size₀ ≠ 0)
    (hp : m.pageRange addr size₀ protectErrors acceptCommitted none = .ok (lo, size, old))
    (hc : ∀ x, lo ≤ x → x < lo + size → ∃ old, m.pages.table (x / 0x1000) = some (.committed, old))
    (hb : ArenaSet.Synced env m'.pages lo (lo + size) m.backend m'.backend)
    (h : Reset m lo size .committed protect m') :
    Change env m (.virtualProtect addr size₀ protect) true m'
  /-- A release. -/
  | released {addr size₀ freeType : ℕ} {node : VadNode} {m' : GuestMemory}
    (hf : freeType &&& memRelease ≠ 0) (ha : node.allocationBase = addr) (h : Released env m node m') :
    Change env m (.virtualFree addr size₀ freeType) true m'
  /-- A write. -/
  | wrote {address : ℕ} {bytes : List UInt8} {m' : GuestMemory} (h : Wrote env m address bytes m') :
    Change env m (.write address bytes) true m'

/-! ### Every call is a change -/

theorem Same.refl (h : m.pages.Valid) : Same m m := ⟨rfl, rfl, h, rfl, rfl⟩

section Calls

variable (h : Inv env m)

include h

/-- What a successful map of a page range leaves behind. -/
theorem Inv.stored_of_map {lo size perms : ℕ} (hr : PageRange lo size) {b : ArenaSet}
    (hm : m.backend.map env lo size perms = (.ok (), b)) : Stored env lo size m.backend b := by
  obtain ⟨hg, hb⟩ := ArenaSet.map_spec h.placed h.readable lo size perms
  rw [hm] at hg hb
  refine ⟨hg, hb rfl, fun hv => ?_, ?_⟩
  · rw [ArenaSet.map_of_vacant h.placed hr.pos hr.base hr.len hr.top hv] at hm
    obtain ⟨-, hres⟩ := ArenaSet.mapNew_spec h.placed h.readable perms hr.base hr.len hr.pos
      hr.top
    rw [hm] at hres
    rcases hres with ⟨-, hp⟩ | ⟨⟨e, he⟩, -⟩
    · exact hp
    · cases he
  · rintro ⟨a, ha, hbase, hsize⟩
    obtain ⟨c, hc, rfl⟩ := List.mem_map.mp ha
    have hargs : ArenaSet.checkMapArgs lo size = .ok (lo, lo + size) := by
      unfold ArenaSet.checkMapArgs
      rw [if_neg (by have := hr.pos; omega), if_neg (by simpa using hr.base),
        if_neg (by simpa using hr.len), checkedAdd_eq_some.mpr ⟨rfl, hr.top⟩]
    unfold ArenaSet.map at hm
    rw [hargs] at hm
    dsimp only at hm
    rw [ArenaSet.mapRange, if_neg (by have := hr.pos; omega)] at hm
    split at hm
    · cases hm
      exact ArenaSet.spans_setPerms _ _
    · rename_i hn
      rw [List.findIdx?_eq_none_iff] at hn
      have := hn c hc
      rw [HostSpan.isExactRange] at this
      simp [hbase, hsize] at this

/-- A failed map grew the arenas at most, or did nothing because its arguments were bad. -/
theorem Inv.grew_of_map {lo size perms : ℕ} {b : ArenaSet} {e : CpuError}
    (hm : m.backend.map env lo size perms = (.error e, b)) :
    b = m.backend ∨ Grew env m lo size perms { m with backend := b } := by
  cases hc : ArenaSet.checkMapArgs lo size with
  | error e' =>
    rw [ArenaSet.map, hc] at hm
    cases hm
    exact .inl rfl
  | ok r =>
    rcases ArenaSet.checkMapArgs_eq_ok hc with ⟨rfl, rfl⟩ | ⟨hpos, ha, hz, htop, rfl⟩
    · rw [ArenaSet.map, hc] at hm
      dsimp only at hm
      rw [ArenaSet.mapRange, if_pos rfl] at hm
      cases hm
    · have hg := (ArenaSet.map_spec h.placed h.readable lo size perms).1
      rw [hm] at hg
      obtain ⟨hmiss, hgap⟩ := ArenaSet.map_error h.placed h.readable hpos ha hz htop hm
      exact .inr ⟨⟨hpos, ha, hz, htop⟩, hg, hmiss, hgap, rfl⟩

/-- What `map` can do. -/
theorem Inv.change_map (address size perms : ℕ) (memType : MemType) :
    (∃ e, (m.mapWithType env address size perms memType).1 = .error e ∧
      Change env m (.map address size perms memType) false
        (m.mapWithType env address size perms memType).2) ∨
    ((m.mapWithType env address size perms memType).1 = .ok () ∧
      Change env m (.map address size perms memType) true
        (m.mapWithType env address size perms memType).2) := by
  unfold mapWithType
  cases hm : m.backend.map env address size perms with
  | mk r b =>
    cases r with
    | error e =>
      refine .inl ⟨e, rfl, ?_⟩
      rcases h.grew_of_map hm with rfl | hg
      · exact .same nofun (.refl h.pages)
      · exact .mapGrew hg
    | ok u =>
      dsimp only
      rcases Nat.eq_zero_or_pos size with rfl | hpos
      · -- an empty map changes nothing but the generation, if it gets that far
        have hb : b = m.backend := by
          rw [ArenaSet.map, ArenaSet.checkMapArgs, if_pos rfl] at hm
          dsimp only at hm
          rw [ArenaSet.mapRange, if_pos rfl] at hm
          cases hm
          rfl
        subst hb
        rw [PageMap.setRange, if_pos rfl]
        dsimp only
        unfold insertBootstrap
        dsimp only
        split
        · rename_i hins
          rw [VadTable.insert, if_pos rfl] at hins
          split at hins
          · cases hins
            exact .inl ⟨_, rfl, .same nofun (.refl h.pages)⟩
          · cases hins
        · rename_i vad hins
          rw [VadTable.insert, if_pos rfl] at hins
          split at hins
          · cases hins
          · cases hins
            refine .inr ⟨rfl, .bumped ?_⟩
            rw [syncHostProtect_zero]
            split <;> exact ⟨rfl, rfl, h.pages, rfl, rfl⟩
      · have hr : PageRange address size := by
          cases hc : ArenaSet.checkMapArgs address size with
          | error e =>
            rw [ArenaSet.map, hc] at hm
            cases hm
          | ok r =>
            rcases ArenaSet.checkMapArgs_eq_ok hc with ⟨h0, -⟩ | ⟨-, ha, hz, htop, -⟩
            · omega
            · exact ⟨hpos, ha, hz, htop⟩
        obtain ⟨pages, hs⟩ := PageMap.exists_setRange m.pages .committed
          (Protect.pageProtectFromRwx perms) hr.base hr.len hr.top
        obtain ⟨hval, htab⟩ := h.pages.setRange_spec hs
        have hst := h.stored_of_map hr hm
        rw [hs]
        dsimp only
        -- the allocation is inserted or skipped, never refused
        obtain ⟨vad, hins, hvad⟩ : ∃ vad,
            insertBootstrap m.vad ⟨address, size, Protect.pageProtectFromRwx perms, memType, true⟩ =
              .ok vad ∧
            ((m.vad.findBase address = none ∧ m.vad.overlaps address size = false ∧
              vad = ⟨insertBy VadNode.allocationBase
                ⟨address, size, Protect.pageProtectFromRwx perms, memType, true⟩ m.vad.nodes⟩) ∨
            (¬ (m.vad.findBase address = none ∧ m.vad.overlaps address size = false) ∧
              vad = m.vad)) := by
          unfold insertBootstrap
          dsimp only
          split
          · rename_i hc
            simp only [Bool.and_eq_true, Option.isNone_iff_eq_none, Bool.not_eq_true'] at hc
            exact ⟨_, VadTable.insert_eq_ok.mpr ⟨hpos, hc.2, rfl⟩, .inl ⟨hc.1, hc.2, rfl⟩⟩
          · rename_i hc
            simp only [Bool.and_eq_true, Option.isNone_iff_eq_none, Bool.not_eq_true'] at hc
            exact ⟨_, rfl, .inr ⟨hc, rfl⟩⟩
        rw [hins]
        dsimp only
        refine .inr ⟨rfl, .mapped ?_⟩
        -- recording the host address on regions touches nothing below
        have key : ∀ regions : RegionTable,
            Mapped env m address size (Protect.pageProtectFromRwx perms) memType
              ((⟨b, regions, pages, vad, satAdd m.generation 1⟩ : GuestMemory).syncHostProtect env
                address size) := by
          intro regions
          have hsync := syncHostProtect_synced
            ⟨b, regions, pages, vad, satAdd m.generation 1⟩ hst.grown.placed hr.top
          rw [syncHostProtect_eq]
          exact ⟨hr, ⟨b, hst, hsync⟩, hval, htab, hvad, rfl⟩
        split
        · exact key _
        · exact key _

/-- A range passes the check of a reservation when its pages are free and it meets no
allocation. -/
theorem Inv.ensurePagesFree_eq_ok {lo size : ℕ} (hr : PageRange lo size)
    (hok : m.ensurePagesFree lo size = .ok ()) :
    (∀ x, lo ≤ x → x < lo + size → m.pages.table (x / 0x1000) = none) ∧
      m.vad.overlaps lo size = false := by
  unfold ensurePagesFree at hok
  dsimp only at hok
  rw [satAdd_of_lt hr.top] at hok
  split at hok
  · rename_i hpf
    split at hok
    · cases hok
    · rename_i hov
      rw [VadTable.pagesFree_iff le_rfl] at hpf
      refine ⟨fun x h1 h2 => ?_, by simpa using hov⟩
      have := hpf (x / 0x1000) (by have := hr.base; omega)
        (by have := hr.base; have := hr.len; omega)
      rw [h.pages.table_eq_none]
      simpa using this
  · cases hok

/-- What a reservation can do. -/
theorem Inv.change_reserve {addr size₀ allocType protect : ℕ} {state : PageState}
    (hst : state ≠ .free) (pageProtect : ℕ) (ha : AllocArgs size₀ allocType protect)
    (hf : allocType &&& memReserve ≠ 0 ∨ addr = 0) (hostPerms : ℕ)
    (hperms : hostPerms = reservePerms allocType protect) :
    (∃ e, (m.vaReserve env addr size₀ hostPerms state pageProtect protect).1 = .error e ∧
      Change env m (.virtualAlloc addr size₀ allocType protect) false
        (m.vaReserve env addr size₀ hostPerms state pageProtect protect).2) ∨
    (∃ lo size, (m.vaReserve env addr size₀ hostPerms state pageProtect protect).1 = .ok lo ∧
      Reserved env m addr size₀ lo size state pageProtect protect
        (m.vaReserve env addr size₀ hostPerms state pageProtect protect).2) := by
  unfold vaReserve
  cases hreq : m.alignReserveRequest addr size₀ with
  | error e => exact .inl ⟨e, rfl, .same nofun (.refl h.pages)⟩
  | ok r =>
    obtain ⟨lo, size⟩ := r
    dsimp only
    cases hfree : m.ensurePagesFree lo size with
    | error e => exact .inl ⟨e, rfl, .same nofun (.refl h.pages)⟩
    | ok u =>
      dsimp only
      cases hm : m.backend.map env lo size hostPerms with
      | mk r b =>
        cases r with
        | error e =>
          refine .inl ⟨e, rfl, ?_⟩
          rcases h.grew_of_map hm with rfl | hg
          · exact .same nofun (.refl h.pages)
          · obtain ⟨hnone, hov⟩ := h.ensurePagesFree_eq_ok hg.range hfree
            exact .reserveGrew ha hf hreq hnone hov (hperms ▸ hg)
        | ok u =>
          have hpos : 0 < size := by
            unfold alignReserveRequest at hreq
            split at hreq
            · dsimp only at hreq
              split at hreq
              · cases hreq
              · split at hreq
                · cases hreq
                · cases hreq
                  omega
            · split at hreq
              · cases hreq
              · dsimp only at hreq
                split at hreq
                · cases hreq
                · cases hreq
                  omega
          have hr : PageRange lo size := by
            cases hc : ArenaSet.checkMapArgs lo size with
            | error e =>
              rw [ArenaSet.map, hc] at hm
              cases hm
            | ok r =>
              rcases ArenaSet.checkMapArgs_eq_ok hc with ⟨h0, -⟩ | ⟨-, ha, hz, htop, -⟩
              · omega
              · exact ⟨hpos, ha, hz, htop⟩
          obtain ⟨pages, hs⟩ := PageMap.exists_setRange m.pages state pageProtect hr.base hr.len hr.top
          obtain ⟨hval, htab⟩ := h.pages.setRange_spec hs
          obtain ⟨hnone, hov⟩ := h.ensurePagesFree_eq_ok hr hfree
          dsimp only
          rw [hs]
          dsimp only
          rw [VadTable.insert_eq_ok.mpr ⟨hpos, hov, rfl⟩]
          exact .inr ⟨lo, size, rfl, hr, hreq, hnone, hov, h.stored_of_map hr hm, hval, hst, htab,
            rfl, rfl⟩

/-- What a commit can do. -/
theorem Inv.change_commit (addr : ℕ) {size₀ : ℕ} (allocType protect : ℕ) (hsize : 0 < size₀) :
    (∃ e, (m.vaCommitOnly env addr size₀ protect).1 = .error e ∧
      Change env m (.virtualAlloc addr size₀ allocType protect) false
        (m.vaCommitOnly env addr size₀ protect).2) ∨
    (∃ lo size, (m.vaCommitOnly env addr size₀ protect).1 = .ok lo ∧ addr ≠ 0 ∧
      m.pageRange addr size₀ commitErrors (acceptUsed commitErrors.missing) () =
        .ok (lo, size, ()) ∧
      (lo = alignDown addr 0x1000 ∧ lo ≤ addr ∧ addr < lo + 0x1000 ∧
        addr + size₀ ≤ lo + size ∧ lo + size < addr + size₀ + 0x1000) ∧
      (m.vaCommitOnly env addr size₀ protect).2.backend = m.backend ∧
      Reset m lo size .committed protect (m.vaCommitOnly env addr size₀ protect).2) := by
  unfold vaCommitOnly
  split
  · exact .inl ⟨_, rfl, .same nofun (.refl h.pages)⟩
  · rename_i hne
    cases hp : m.pageRange addr size₀ commitErrors (acceptUsed commitErrors.missing) () with
    | error e => exact .inl ⟨e, rfl, .same nofun (.refl h.pages)⟩
    | ok r =>
      obtain ⟨lo, size, u⟩ := r
      obtain ⟨hr, hdown, h1, h2, h3, h4, hin, hall⟩ :=
        h.pageRange_eq_ok hsize (acceptUsed_isOk _) hp
      -- the first page is in use, hence backed, so no storage is mapped
      have hback : m.backend.pageDataPtr (lo / 0x1000) = m.backend.hostAddr lo := by
        rw [h.placed.pageDataPtr_eq, show lo / 0x1000 * 0x1000 = lo by have := hr.base; omega]
      obtain ⟨v, hv, -⟩ := hall lo le_rfl (by have := hr.pos; omega)
      obtain ⟨p, hp'⟩ := Option.isSome_iff_exists.mp (h.backed lo (by rw [hv]; simp))
      obtain ⟨pages, hs⟩ := PageMap.exists_setRange m.pages .committed protect hr.base hr.len hr.top
      obtain ⟨hval, htab⟩ := h.pages.setRange_spec hs
      dsimp only
      rw [hback, hp']
      dsimp only
      rw [hs]
      exact .inr ⟨lo, size, rfl, hne, rfl, ⟨hdown, h1, h2, h3, h4⟩, rfl, hr, hin, hval, htab, rfl,
        rfl⟩

/-- What `VirtualProtect` can do. -/
theorem Inv.change_protect (addr size₀ protect : ℕ) :
    (∃ e, (m.virtualProtect env addr size₀ protect).1 = .error e ∧
      (m.virtualProtect env addr size₀ protect).2 = m) ∨
    (∃ old lo size acc, (m.virtualProtect env addr size₀ protect).1 = .ok old ∧ size₀ ≠ 0 ∧
      m.pageRange addr size₀ protectErrors acceptCommitted none = .ok (lo, size, acc) ∧
      (lo = alignDown addr 0x1000 ∧ lo ≤ addr ∧ addr < lo + 0x1000 ∧
        addr + size₀ ≤ lo + size ∧ lo + size < addr + size₀ + 0x1000) ∧
      (∀ x, lo ≤ x → x < lo + size →
        ∃ old, m.pages.table (x / 0x1000) = some (.committed, old)) ∧
      ArenaSet.Synced env (m.virtualProtect env addr size₀ protect).2.pages lo (lo + size)
        m.backend (m.virtualProtect env addr size₀ protect).2.backend ∧
      Reset m lo size .committed protect (m.virtualProtect env addr size₀ protect).2) := by
  unfold virtualProtect
  split
  · exact .inl ⟨_, rfl, rfl⟩
  · rename_i h0
    split
    · exact .inl ⟨_, rfl, rfl⟩
    · cases hp : m.pageRange addr size₀ protectErrors acceptCommitted none with
      | error e => exact .inl ⟨e, rfl, rfl⟩
      | ok r =>
        obtain ⟨lo, size, old⟩ := r
        obtain ⟨hr, hdown, h1, h2, h3, h4, hin, hall⟩ :=
          h.pageRange_eq_ok (Nat.pos_of_ne_zero h0) acceptCommitted_isOk hp
        obtain ⟨pages, hs⟩ := PageMap.exists_setRange m.pages .committed protect hr.base hr.len hr.top
        obtain ⟨hval, htab⟩ := h.pages.setRange_spec hs
        dsimp only
        rw [hs]
        dsimp only
        have hsync := syncHostProtect_synced
          ({ m with pages := pages } : GuestMemory).bumpGeneration h.placed hr.top
        rw [syncHostProtect_eq]
        refine .inr ⟨_, lo, size, old, rfl, h0, rfl, ⟨hdown, h1, h2, h3, h4⟩, fun x hx1 hx2 => ?_,
          hsync, hr, hin, hval, htab, rfl, rfl⟩
        obtain ⟨⟨st, pr⟩, hv, rfl⟩ := hall x hx1 hx2
        exact ⟨pr, hv⟩

/-- What a decommit can do. -/
theorem Inv.change_decommit (addr size₀ : ℕ) :
    (∃ e, (m.vaDecommit env addr size₀).1 = .error e ∧ (m.vaDecommit env addr size₀).2 = m ∧
      (size₀ = 0 ∨ m.pageRange addr size₀ decommitErrors (acceptUsed decommitErrors.missing) () =
        .error e)) ∨
    ((m.vaDecommit env addr size₀).1 = .crash ∧ ∃ lo size,
      m.pageRange addr size₀ decommitErrors (acceptUsed decommitErrors.missing) () =
        .ok (lo, size, ()) ∧
      ∃ x, lo ≤ x ∧ x < lo + size ∧ (m.backend.hostAddr x).isSome = true ∧
        ¬ m.backend.Writable env x) ∨
    (∃ lo size, (m.vaDecommit env addr size₀).1 = .ok () ∧ size₀ ≠ 0 ∧
      m.pageRange addr size₀ decommitErrors (acceptUsed decommitErrors.missing) () =
        .ok (lo, size, ()) ∧
      (lo = alignDown addr 0x1000 ∧ lo ≤ addr ∧ addr < lo + 0x1000 ∧
        addr + size₀ ≤ lo + size ∧ lo + size < addr + size₀ + 0x1000) ∧
      Zeroed env m.backend lo size (m.vaDecommit env addr size₀).2.backend ∧
      Reset m lo size .reserved Protect.pageNoaccess (m.vaDecommit env addr size₀).2) := by
  unfold vaDecommit
  split
  · rename_i h0
    exact .inl ⟨_, rfl, rfl, .inl h0⟩
  · rename_i h0
    cases hp : m.pageRange addr size₀ decommitErrors (acceptUsed decommitErrors.missing) () with
    | error e => exact .inl ⟨e, rfl, rfl, .inr rfl⟩
    | ok r =>
      obtain ⟨lo, size, u⟩ := r
      obtain ⟨hr, hdown, h1, h2, h3, h4, hin, hall⟩ :=
        h.pageRange_eq_ok (Nat.pos_of_ne_zero h0) (acceptUsed_isOk _) hp
      dsimp only
      rcases h.placed.discardRange_spec hr.base hr.len with ⟨hc, x, hx1, hx2, hb, hx⟩ |
        ⟨hok, har, hpr, hby, hall'⟩
      · have hpair : m.backend.discardRange env lo size =
            (.crash, (m.backend.discardRange env lo size).2) := Prod.ext hc rfl
        rw [hpair]
        exact .inr (.inl ⟨rfl, lo, size, rfl, x, hx1, hx2, hb, hx⟩)
      · have hpair : m.backend.discardRange env lo size =
            (.ok (), (m.backend.discardRange env lo size).2) := Prod.ext hok rfl
        obtain ⟨pages, hs⟩ := PageMap.exists_setRange m.pages .reserved Protect.pageNoaccess
          hr.base hr.len hr.top
        obtain ⟨hval, htab⟩ := h.pages.setRange_spec hs
        rw [hpair]
        dsimp only
        rw [hs]
        exact .inr (.inr ⟨lo, size, rfl, h0, rfl, ⟨hdown, h1, h2, h3, h4⟩, ⟨har, hpr, hby, hall'⟩, hr, hin,
          hval, htab, rfl, rfl⟩)

/-- What a release can do. -/
theorem Inv.change_release (addr : ℕ) :
    ((∃ e, (m.vaRelease env addr).1 = .error e) ∧ m.vad.findBase addr = none ∧
      (m.vaRelease env addr).2 = m) ∨
    ((m.vaRelease env addr).1 = .ok () ∧ ∃ node, node.allocationBase = addr ∧
      Released env m node (m.vaRelease env addr).2) := by
  unfold vaRelease
  cases hf : m.vad.findBase addr with
  | none => exact .inl ⟨⟨_, rfl⟩, rfl, rfl⟩
  | some node =>
    obtain ⟨hn, hb⟩ := h.vad.findBase_eq_some.mp hf
    obtain ⟨ha, hz⟩ := h.vad.aligned node hn
    obtain ⟨pages, hs⟩ := PageMap.exists_setRange m.pages .free 0 ha hz (h.vad.bounded node hn)
    obtain ⟨hval, htab⟩ := h.pages.setRange_spec hs
    have hs' : m.bumpGeneration.pages.setRange node.allocationBase node.size .free 0 =
        .ok pages := hs
    dsimp only
    rw [hs']
    refine .inr ⟨rfl, node, hb, hn, rfl, hval, htab, ?_, rfl⟩
    rw [hb]
    rfl

/-- What a write can do. -/
theorem Inv.change_write (address : ℕ) (bytes : List UInt8) :
    (∃ e, (m.write env address bytes).1 = .error e ∧ Same m (m.write env address bytes).2 ∧
      ¬ (bytes = [] ∨ (address + bytes.length < 2 ^ 64 ∧ ∀ x, address ≤ x →
        x < address + bytes.length → m.pages.table.grants .write (x / 0x1000) = true))) ∨
    ((m.write env address bytes).1 = .crash ∧
      (∀ x, address ≤ x → x < address + bytes.length →
        m.pages.table.grants .write (x / 0x1000) = true) ∧
      ∃ x, address ≤ x ∧ x < address + bytes.length ∧ ¬ m.backend.Writable env x) ∨
    ((m.write env address bytes).1 = .ok () ∧
      Wrote env m address bytes (m.write env address bytes).2) := by
  obtain ⟨hval, hruns⟩ := h.pages.checkAccess_keeps address bytes.length .write
  have hiff := h.pages.checkAccess_eq_ok address bytes.length .write
  unfold write
  cases hc : m.pages.checkAccess address bytes.length .write with
  | mk r pages =>
    rw [hc] at hval hruns hiff
    rw [List.length_eq_zero_iff] at hiff
    cases r with
    | error e => exact .inl ⟨e, rfl, ⟨rfl, hruns, hval, rfl, rfl⟩, mt hiff.mpr (by simp)⟩
    | ok u =>
      have hgr := hiff.mp rfl
      have hgrants : ∀ x, address ≤ x → x < address + bytes.length →
          m.pages.table.grants .write (x / 0x1000) = true := by
        rcases hgr with rfl | hgr
        · intro x h1 h2
          simp only [List.length_nil] at h2
          omega
        · exact hgr.2
      have hback : ∀ x, address ≤ x → x < address + bytes.length →
          (m.backend.hostAddr x).isSome = true := by
        intro x h1 h2
        obtain ⟨p, hp, -⟩ := PageTable.grants_iff.mp (hgrants x h1 h2)
        exact h.backed x (by rw [hp]; simp)
      dsimp only
      rcases ArenaSet.Placed.writeChunks_spec bytes.length address bytes m.backend h.placed le_rfl
          hback with ⟨hcr, hx⟩ | ⟨hok, hwr, hall⟩
      · exact .inr (.inl ⟨hcr, hgrants, hx⟩)
      · exact .inr (.inr ⟨hok, hgr, hwr, hall, hruns, hval, rfl, rfl⟩)

end Calls

/-- Whether an outcome is a success. -/
def isOk {α : Type} : Outcome α → Bool
  | .ok _ => true
  | .error _ => false
  | .crash => false

/-- **Every call that returns is a change.** -/
theorem Inv.change (h : Inv env m) (op : Op) (hc : (op.run env m).1 ≠ .crash) :
    Change env m op (isOk (op.run env m).1) (op.run env m).2 := by
  cases op with
  | map address size perms memType =>
    rcases h.change_map address size perms memType with ⟨e, he, hch⟩ | ⟨hok, hch⟩
    · simp only [Op.run, he]
      exact hch
    · simp only [Op.run, hok]
      exact hch
  | virtualAlloc addr size allocType protect =>
    simp only [Op.run]
    unfold virtualAlloc
    dsimp only
    split
    · exact .same nofun (.refl h.pages)
    · rename_i h0
      split
      · exact .same nofun (.refl h.pages)
      · rename_i hmask
        split
        · exact .same nofun (.refl h.pages)
        · rename_i hsup
          have ha : AllocArgs size allocType protect :=
            ⟨fun hz => h0 (.inl hz), not_ne_iff.mp hmask, by simpa using hsup⟩
          have hres (hr : (allocType &&& memReserve != 0 ||
              (allocType &&& memCommit != 0 && addr == 0)) = true) :
              allocType &&& memReserve ≠ 0 ∨ addr = 0 := by
            simp only [Bool.or_eq_true, Bool.and_eq_true, bne_iff_ne, beq_iff_eq] at hr
            exact hr.imp id And.right
          split
          · rename_i hboth
            simp only [Bool.and_eq_true] at hboth
            unfold vaReserveAndCommit
            have hcom : allocType &&& memCommit ≠ 0 := by simpa using hboth.2
            rcases h.change_reserve (show PageState.committed ≠ .free by decide) protect ha
                (hres hboth.1) _ (by rw [reservePerms, if_pos hcom]) with
              ⟨e, he, hch⟩ | ⟨lo, sz, hok, hr⟩
            · rw [he]
              exact hch
            · rw [hok]
              exact .reserved ha (hres hboth.1) (by rw [if_pos hcom]) hr
          · rename_i hboth
            split
            · rename_i hr'
              unfold vaReserveOnly
              simp only [hr', Bool.true_and] at hboth
              have hcom : ¬ allocType &&& memCommit ≠ 0 := by simpa using hboth
              rcases h.change_reserve (show PageState.reserved ≠ .free by decide)
                  Protect.pageNoaccess ha (hres hr') _ (by rw [reservePerms, if_neg hcom]) with
                ⟨e, he, hch⟩ | ⟨lo, sz, hok, hr⟩
              · rw [he]
                exact hch
              · rw [hok]
                exact .reserved ha (hres hr') (by rw [if_neg hcom]) hr
            · rename_i hnr
              rcases h.change_commit addr allocType protect (Nat.pos_of_ne_zero ha.1) with
                ⟨e, he, hch⟩ | ⟨lo, sz, hok, hne, hp, -, hb, hr⟩
              · rw [he]
                exact hch
              · rw [hok]
                refine .committed ha ⟨?_, hne⟩ hp hb hr
                by_contra hne
                simp [hne] at hnr
  | virtualFree addr size freeType =>
    simp only [Op.run] at hc ⊢
    unfold virtualFree at hc ⊢
    dsimp only at hc ⊢
    split
    · exact .same nofun (.refl h.pages)
    · rename_i hne
      rw [if_neg hne] at hc
      split
      · rename_i hrel
        split
        · exact .same nofun (.refl h.pages)
        · rcases h.change_release addr with ⟨⟨e, he⟩, -, hm⟩ | ⟨hok, node, hb, hr⟩
          · rw [he, hm]
            exact .same nofun (.refl h.pages)
          · rw [hok]
            exact .released (by simpa using hrel) hb hr
      · rename_i hrel
        rw [if_neg hrel] at hc
        rcases h.change_decommit addr size with ⟨e, he, hm, -⟩ | ⟨hcr, -⟩ |
          ⟨lo, sz, hok, h0, hp, -, hz, hr⟩
        · rw [he, hm]
          exact .same nofun (.refl h.pages)
        · exact absurd hcr hc
        · rw [hok]
          exact .decommitted h0 (by simpa using hrel) hp hz hr
  | virtualProtect addr size newProtect =>
    rcases h.change_protect addr size newProtect with
      ⟨e, he, hm⟩ | ⟨old, lo, sz, acc, hok, h0, hp, -, hcm, hs, hr⟩
    · simp only [Op.run, he, hm]
      exact .same nofun (.refl h.pages)
    · simp only [Op.run, hok]
      exact .reprotected h0 hp hcm hs hr
  | write address bytes =>
    simp only [Op.run] at hc ⊢
    rcases h.change_write address bytes with ⟨e, he, hs, -⟩ | ⟨hcr, -⟩ | ⟨hok, hw⟩
    · rw [he]
      exact .same nofun hs
    · exact absurd hcr hc
    · rw [hok]
      exact .wrote hw
  | read address len =>
    obtain ⟨hval, hruns⟩ := h.pages.checkAccess_keeps address len .read
    simp only [Op.run]
    refine .same (fun _ => trivial) ?_
    unfold read
    cases hca : m.pages.checkAccess address len .read with
    | mk r pages =>
      rw [hca] at hval hruns
      cases r <;> exact ⟨rfl, hruns, hval, rfl, rfl⟩
  | registerRegion region => exact .same (fun _ => trivial) ⟨rfl, rfl, h.pages, rfl, rfl⟩

/-! ### Every change keeps the invariant -/

theorem Same.table (hs : Same m m') : m'.pages.table = m.pages.table := by
  unfold PageMap.table
  rw [hs.runs]

theorem Same.inv (hs : Same m m') (h : Inv env m) : Inv env m' where
  placed := by rw [hs.backend]; exact h.placed
  readable := by rw [hs.backend]; exact h.readable
  pages := hs.valid
  vad := by rw [hs.vad]; exact h.vad
  owned := by rw [hs.vad, hs.table]; exact h.owned
  backed := by rw [hs.backend, hs.table]; exact h.backed
  generation := by rw [hs.generation]; exact h.generation

theorem inv_bumpGeneration (h : Inv env m) : Inv env m.bumpGeneration :=
  ⟨h.placed, h.readable, h.pages, h.vad, h.owned, h.backed, satAdd_lt _ _⟩

/-- Over a vacant range a failed map adds no arena. -/
theorem Grew.vacant {lo size perms : ℕ} (hg : Grew env m lo size perms m') (h : Inv env m)
    (hv : m.backend.anyOverlap lo (lo + size) = false) :
    m'.backend.arenas = m.backend.arenas := by
  have hno := h.placed.anyOverlap_eq_false.mp hv
  refine hg.gap ⟨fun a ha h1 h2 => ?_, fun x y z h1 h2 h3 h4 _ hy => ?_⟩
  · have := hno _ (List.mem_map_of_mem ha)
    omega
  · obtain ⟨a, ha, hay⟩ := h.placed.hostAddr_isSome.mp hy
    have := hno a ha
    have := hay.1
    have := hay.2
    omega

theorem Grew.inv {lo size perms : ℕ} (hg : Grew env m lo size perms m') (h : Inv env m) : Inv env m' := by
  rw [hg.rest]
  exact ⟨hg.grown.placed, hg.grown.readable, h.pages, h.vad, h.owned,
    fun x hx => hg.grown.backed h.placed (h.backed x hx), h.generation⟩

/-- A change of the table that frees no page keeps allocations in use. -/
theorem owned_set {lo size protect : ℕ} {state : PageState} (hr : PageRange lo size)
    (hst : state ≠ .free) {nodes : List VadNode}
    (ho : ∀ n ∈ nodes, ∀ x, n.allocationBase ≤ x → x < n.allocationBase + n.size →
      m.pages.table (x / 0x1000) ≠ none ∨ (lo ≤ x ∧ x < lo + size))
    (ht : m'.pages.table =
      m.pages.table.set (lo / 0x1000) ((lo + size) / 0x1000) state protect) :
    ∀ n ∈ nodes, ∀ x, n.allocationBase ≤ x → x < n.allocationBase + n.size →
      m'.pages.table (x / 0x1000) ≠ none := by
  intro n hn x h1 h2
  rw [ht, set_range_apply hr]
  split
  · simp
  · rename_i hout
    rcases ho n hn x h1 h2 with hne | hin
    · exact hne
    · exact absurd hin hout

theorem Mapped.inv {lo size protect : ℕ} {memType : MemType}
    (hm : Mapped env m lo size protect memType m') (h : Inv env m) : Inv env m' := by
  obtain ⟨b, hst, hsy⟩ := hm.backend
  have hsp : m'.backend.spans = b.spans := ArenaSet.spans_congr hsy.arenas
  have hpos := hm.range.pos
  refine ⟨by rw [hsp]; exact hst.grown.placed,
    hsy.readable hst.grown.placed hm.valid hst.grown.readable, hm.valid, ?_, ?_, fun x hx => ?_,
    by rw [hm.generation]; exact satAdd_lt _ _⟩
  · rcases hm.vad with ⟨-, hov, hv⟩ | ⟨-, hv⟩
    · rw [hv]
      exact h.vad.insert hm.range.top ⟨hm.range.base, hm.range.len⟩ hpos hov
    · rw [hv]
      exact h.vad
  · refine owned_set hm.range (by decide) (fun n hn x h1 h2 => ?_) hm.table
    rcases hm.vad with ⟨-, -, hv⟩ | ⟨-, hv⟩
    · rw [hv] at hn
      rcases mem_insertBy.mp hn with rfl | hn
      · exact .inr ⟨h1, h2⟩
      · exact .inl (h.owned n hn x h1 h2)
    · rw [hv] at hn
      exact .inl (h.owned n hn x h1 h2)
  · rw [ArenaSet.hostAddr_congr hsy.arenas]
    rw [hm.table, set_range_apply hm.range] at hx
    split at hx
    · rename_i hin
      exact hst.backs x hin.1 hin.2
    · exact hst.grown.backed h.placed (h.backed x hx)

theorem Reserved.inv {addr size₀ lo size pageProtect protect : ℕ} {state : PageState}
    (hm : Reserved env m addr size₀ lo size state pageProtect protect m') (h : Inv env m) :
    Inv env m' := by
  refine ⟨hm.backend.grown.placed, hm.backend.grown.readable, hm.valid, ?_, ?_, fun x hx => ?_,
    by rw [hm.generation]; exact satAdd_lt _ _⟩
  · rw [hm.vad]
    exact h.vad.insert hm.range.top ⟨hm.range.base, hm.range.len⟩ hm.range.pos hm.apart
  · refine owned_set hm.range hm.used (fun n hn x h1 h2 => ?_) hm.table
    rw [hm.vad] at hn
    rcases mem_insertBy.mp hn with rfl | hn
    · exact .inr ⟨h1, h2⟩
    · exact .inl (h.owned n hn x h1 h2)
  · rw [hm.table, set_range_apply hm.range] at hx
    split at hx
    · rename_i hin
      exact hm.backend.backs x hin.1 hin.2
    · exact hm.backend.grown.backed h.placed (h.backed x hx)

/-- The pages of a range that is reset were in use. -/
theorem Reset.table_ne_none {lo size protect : ℕ} {state : PageState}
    (hr : Reset m lo size state protect m') (h : Inv env m) {x : ℕ} (h1 : lo ≤ x)
    (h2 : x < lo + size) : m.pages.table (x / 0x1000) ≠ none := by
  obtain ⟨n, hn, hn1, hn2⟩ := hr.inside
  exact h.owned n hn x (by omega) (by omega)

theorem Reset.inv {lo size protect : ℕ} {state : PageState}
    (hr : Reset m lo size state protect m') (hst : state ≠ .free) (h : Inv env m)
    (ha : m'.backend.arenas = m.backend.arenas) (hR : ArenaSet.Readable env m'.backend) :
    Inv env m' := by
  refine ⟨by rw [ArenaSet.spans_congr ha]; exact h.placed, hR, hr.valid, by rw [hr.vad]; exact h.vad,
    ?_, fun x hx => ?_, by rw [hr.generation]; exact satAdd_lt _ _⟩
  · rw [hr.vad]
    exact owned_set hr.range hst (fun n hn x h1 h2 => .inl (h.owned n hn x h1 h2)) hr.table
  · rw [ArenaSet.hostAddr_congr ha]
    rw [hr.table, set_range_apply hr.range] at hx
    split at hx
    · rename_i hin
      exact h.backed x (hr.table_ne_none h hin.1 hin.2)
    · exact h.backed x hx

theorem readable_of_prot {s s' : ArenaSet} (hR : ArenaSet.Readable env s)
    (ha : s'.arenas = s.arenas) (hp : s'.host.prot = s.host.prot) : ArenaSet.Readable env s' := by
  unfold ArenaSet.Readable
  rw [ArenaSet.spans_congr ha, hp]
  exact hR

theorem Released.range {node : VadNode} (hr : Released env m node m') (h : Inv env m) :
    PageRange node.allocationBase node.size := by
  have hpos := h.vad.extents.pos node hr.mem
  exact ⟨by omega, (h.vad.aligned node hr.mem).1, (h.vad.aligned node hr.mem).2,
    h.vad.bounded node hr.mem⟩

theorem Released.shrunk {node : VadNode} (hr : Released env m node m') (h : Inv env m) :
    ArenaSet.Shrunk env m.backend m'.backend := by
  rw [hr.backend]
  exact ArenaSet.unmapExact_shrunk h.placed h.readable _ _

theorem Released.inv {node : VadNode} (hr : Released env m node m') (h : Inv env m) :
    Inv env m' := by
  have hrange := hr.range h
  have hsh := hr.shrunk h
  refine ⟨hsh.placed, hsh.readable, hr.valid, by rw [hr.vad]; exact h.vad.removeBase _, ?_,
    fun x hx => ?_, by rw [hr.generation]; exact satAdd_lt _ _⟩
  · intro n hn x h1 h2
    rw [hr.vad] at hn
    obtain ⟨hn, hne⟩ := h.vad.mem_removeBase.mp hn
    rw [hr.table, set_range_apply hrange, if_neg]
    · exact h.owned n hn x h1 h2
    · rintro ⟨h3, h4⟩
      exact hne (congrArg VadNode.allocationBase (h.vad.extents.unique hn hr.mem ⟨h1, h2⟩ ⟨h3, h4⟩))
  · rw [hr.table, set_range_apply hrange] at hx
    split at hx
    · simp at hx
    · rename_i hout
      -- the arena under a page that stays in use is not the one released
      obtain ⟨a, ha, hax⟩ := h.placed.hostAddr_isSome.mp (h.backed x hx)
      refine hsh.placed.hostAddr_isSome.mpr ⟨a, ?_, hax⟩
      rw [hr.backend, ArenaSet.mem_spans_unmapExact h.placed]
      refine ⟨ha, fun ⟨h1, h2⟩ => hout ?_⟩
      rw [← h1, ← h2]
      exact hax

theorem Wrote.table {address : ℕ} {bytes : List UInt8} (hw : Wrote env m address bytes m') :
    m'.pages.table = m.pages.table := by
  unfold PageMap.table
  rw [hw.runs]

theorem Wrote.inv {address : ℕ} {bytes : List UInt8} (hw : Wrote env m address bytes m')
    (h : Inv env m) : Inv env m' := by
  have ht := hw.table
  have ha := hw.backend.arenas
  exact ⟨by rw [ArenaSet.spans_congr ha]; exact h.placed,
    readable_of_prot h.readable ha hw.backend.prot, hw.valid, by rw [hw.vad]; exact h.vad,
    by rw [hw.vad, ht]; exact h.owned,
    fun x hx => by rw [ArenaSet.hostAddr_congr ha]; rw [ht] at hx; exact h.backed x hx,
    by rw [hw.generation]; exact h.generation⟩

/-- **Every change keeps the invariant.** -/
theorem Change.inv {op : Op} {ok : Bool} (hc : Change env m op ok m') (h : Inv env m) :
    Inv env m' := by
  cases hc with
  | same _ hs => exact hs.inv h
  | bumped hs => exact hs.inv (inv_bumpGeneration h)
  | mapGrew hg => exact hg.inv h
  | mapped hm => exact hm.inv h
  | reserveGrew _ _ _ _ _ hg => exact hg.inv h
  | reserved _ _ _ hm => exact hm.inv h
  | committed _ _ _ hb hr =>
    exact hr.inv (by decide) h (by rw [hb]) (by rw [hb]; exact h.readable)
  | decommitted _ _ _ hz hr =>
    exact hr.inv (by decide) h hz.arenas (readable_of_prot h.readable hz.arenas hz.prot)
  | reprotected _ _ _ hs hr =>
    exact hr.inv (by decide) h hs.arenas (hs.readable h.placed hr.valid h.readable)
  | released _ _ hr => exact hr.inv h
  | wrote hw => exact hw.inv h

/-! ### What a change does to a byte -/

/-- What can happen to the byte at `x`. -/
inductive ByteChange (m : GuestMemory) (op : Op) (ok : Bool) (x : ℕ) (m' : GuestMemory) :
    Prop where
  /-- It stays. -/
  | kept (h : m'.backend.byte x = m.backend.byte x)
  /-- It is written. -/
  | written {address : ℕ} {bytes : List UInt8} (hop : op = .write address bytes)
    (hok : ok = true) (h1 : address ≤ x) (h2 : x < address + bytes.length)
    (h : m'.backend.byte x = some (bytes.getD (x - address) 0))
  /-- It is zeroed, and its page is only reserved from now on. -/
  | zeroed (ht : m'.pages.table (x / 0x1000) = some (.reserved, Protect.pageNoaccess))
    (h : m'.backend.byte x = some 0)
  /-- Its page is freed. -/
  | freed (ht : m'.pages.table (x / 0x1000) = none)

theorem byte_congr {s s' : ArenaSet} (ha : s'.arenas = s.arenas) (hm : s'.host.mem = s.host.mem)
    (x : ℕ) : s'.byte x = s.byte x := by
  rw [ArenaSet.byte, ArenaSet.byte, ArenaSet.hostAddr_congr ha, hm]

/-- **What a call does to a byte whose page is in use.** -/
theorem Change.byteChange {op : Op} {ok : Bool} (hc : Change env m op ok m') (h : Inv env m)
    {x : ℕ} (hx : m.pages.table (x / 0x1000) ≠ none) : ByteChange m op ok x m' := by
  have hb := h.backed x hx
  cases hc with
  | same _ hs => exact .kept (by rw [hs.backend])
  | bumped hs => exact .kept (by rw [hs.backend]; rfl)
  | mapGrew hg => exact .kept (hg.grown.byte h.placed hb)
  | mapped hm =>
    obtain ⟨b, hst, hsy⟩ := hm.backend
    exact .kept ((byte_congr hsy.arenas hsy.mem x).trans (hst.grown.byte h.placed hb))
  | reserveGrew _ _ _ _ _ hg => exact .kept (hg.grown.byte h.placed hb)
  | reserved _ _ _ hm => exact .kept (hm.backend.grown.byte h.placed hb)
  | committed _ _ _ hb' _ => exact .kept (by rw [hb'])
  | @decommitted _ _ _ lo size _ _ _ _ hz hr =>
    by_cases hin : lo ≤ x ∧ x < lo + size
    · obtain ⟨p, hp⟩ := Option.isSome_iff_exists.mp hb
      refine .zeroed ?_ ?_
      · rw [hr.table, set_range_apply hr.range, if_pos hin]
        rfl
      · rw [hz.byte, if_pos hin, ArenaSet.byte, hp]
        rfl
    · exact .kept (by rw [hz.byte, if_neg hin])
  | reprotected _ _ _ hs _ => exact .kept (byte_congr hs.arenas hs.mem x)
  | @released _ _ _ node _ _ _ hr =>
    by_cases hin : node.allocationBase ≤ x ∧ x < node.allocationBase + node.size
    · refine .freed ?_
      rw [hr.table, set_range_apply (hr.range h), if_pos hin]
      rfl
    · refine .kept ((hr.shrunk h).byte h.placed ((hr.inv h).backed x ?_))
      rw [hr.table, set_range_apply (hr.range h), if_neg hin]
      exact hx
  | @wrote address bytes _ hw =>
    by_cases hin : address ≤ x ∧ x < address + bytes.length
    · exact .written rfl rfl hin.1 hin.2 (by rw [hw.backend.byte, if_pos hin])
    · exact .kept (by rw [hw.backend.byte, if_neg hin])

end GuestMemory

end Wie
