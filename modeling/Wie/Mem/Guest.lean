import Wie.Mem.Arena
import Wie.Mem.PageMap
import Wie.Mem.Vad

/-!
# Guest memory

The memory of the emulated process: arenas for storage, a page map for state and permission, a
table of allocations, a table of named regions, and a generation number that tells translation
caches when to forget. The page map alone decides what the guest may do. Host protection is a
second line behind it, coarser than the guest's pages.

A call that changes memory returns its result together with the memory after it, whether it
succeeds or not. Three calls can also end the process, because they store to or load from host
memory: the read, the write, and the decommit, which zeroes what it takes back.

Addresses, sizes and flags are natural numbers. The conversions between `u64` and `usize` that the
emulator guards cannot fail on the 64-bit hosts it runs on and are left out.

## Main definitions

* `GuestRegion`, `GuestMemory` — the state
* `GuestMemory.mapWithType` — the bootstrap maps
* `GuestMemory.virtualAlloc`, `virtualFree`, `virtualProtect` — the allocation calls
* `GuestMemory.syncHostProtect`, `hostProtForFrame` — host protection
* `GuestMemory.write`, `GuestMemory.read` — checked access
-/

namespace Wie

/-- What a named region is for. -/
inductive RegionKind where
  | image | stack | heap | fakeApi | teb | env | guestCode | guestIo | resource | other
  deriving DecidableEq, Repr

/-- A named range of the guest layout. -/
structure GuestRegion where
  /-- The name it is registered under. -/
  name : String
  /-- What it is for. -/
  kind : RegionKind
  /-- First address. -/
  base : ℕ
  /-- Length in bytes. -/
  size : ℕ
  /-- Permission bits. -/
  perms : ℕ
  /-- Host address of the arena under it, once there is one. -/
  hostBase : Option ℕ
  deriving DecidableEq, Repr

namespace GuestRegion

/-- First address after the region. -/
def endVa (r : GuestRegion) : ℕ := satAdd r.base r.size

/-- Whether `va` is in the region. -/
def contains (r : GuestRegion) (va : ℕ) : Bool := decide (r.base ≤ va ∧ va < r.endVa)

end GuestRegion

/-- The named regions, in order of registration. -/
structure RegionTable where
  /-- The regions. -/
  regions : List GuestRegion
  deriving DecidableEq, Repr

namespace RegionTable

/-- Register a region, replacing the one of the same name. -/
def register (t : RegionTable) (region : GuestRegion) : RegionTable :=
  match t.regions.findIdx? fun r => r.name == region.name with
  | some i => ⟨t.regions.set i region⟩
  | none => ⟨t.regions ++ [region]⟩

/-- The first region of the given kind. -/
def findByKind (t : RegionTable) (kind : RegionKind) : Option GuestRegion :=
  t.regions.find? fun r => r.kind == kind

/-- Record `hostBase` on every region around `va` that has none yet. -/
def setHostBaseIfCovers (t : RegionTable) (va hostBase : ℕ) : RegionTable :=
  ⟨t.regions.map fun r =>
    if r.contains va && r.hostBase.isNone then { r with hostBase := some hostBase } else r⟩

end RegionTable

/-- The memory of the emulated process. -/
structure GuestMemory where
  /-- The arenas, with the host under them. -/
  backend : ArenaSet
  /-- The named regions. -/
  regions : RegionTable
  /-- State and protection of the pages. -/
  pages : PageMap
  /-- The allocations. -/
  vad : VadTable
  /-- Bumped by every change that a translation cache must see. -/
  generation : ℕ

namespace GuestMemory

/-- Empty memory on a host. -/
def new (host : Host) : GuestMemory := ⟨⟨[], host⟩, ⟨[]⟩, .new, .new, 0⟩

/-- Move to the next generation, sticking at the last. -/
def bumpGeneration (m : GuestMemory) : GuestMemory :=
  { m with generation := satAdd m.generation 1 }

/-- Register a named region; its host address is filled in when an arena is already there. -/
def registerRegion (m : GuestMemory) (region : GuestRegion) : GuestMemory :=
  let region := match region.hostBase with
    | some _ => region
    | none =>
      match m.backend.arenaHostBaseForVa region.base with
      | some hb => { region with hostBase := some hb }
      | none => region
  { m with regions := m.regions.register region }

/-! ### Host protection -/

/-- What the scan of a host page has seen. -/
structure FrameScan where
  /-- A page needs reading. -/
  needR : Bool := false
  /-- A page needs writing. -/
  needW : Bool := false
  /-- A page is committed. -/
  anyCommitted : Bool := false
  /-- All pages so far have one protection. -/
  uniform : Bool := true
  /-- The protection of the first page. -/
  firstProtect : Option ℕ := none
  deriving DecidableEq

/-- Take in one committed page. -/
def FrameScan.visit (f : FrameScan) (protect : ℕ) : FrameScan where
  needR := f.needR || Protect.allowsRead protect || Protect.allowsExecute protect
  needW := f.needW || Protect.allowsWrite protect
  anyCommitted := true
  uniform := match f.firstProtect with
    | none => f.uniform
    | some p => if p ≠ protect then false else f.uniform
  firstProtect := match f.firstProtect with
    | none => some protect
    | some p => some p

/-- The protection a scanned host page gets: the union of the needs when the pages differ, and
never none at all. -/
def FrameScan.prot (f : FrameScan) : HostProt :=
  if f.anyCommitted = false then .rw
  else if f.uniform = false then
    if f.needR = false ∧ f.needW = false then .rw else ⟨f.needR, f.needW⟩
  else
    match f.firstProtect with
    | none => .rw
    | some p =>
      if Protect.allowsWrite p then .rw
      else if Protect.allowsRead p || Protect.allowsExecute p then .ro
      else .rw

/-- Scan the guest pages of `[page, stop)`; a page that is not committed leaves the host page
open. -/
def scanFrame (pages : PageMap) (stop : ℕ) : ℕ → ℕ → FrameScan → HostProt
  | 0, _, f => f.prot
  | fuel + 1, page, f =>
    if page < stop then
      match pages.lookup (page / 0x1000) with
      | none => .rw
      | some run =>
        if run.state = .committed then
          scanFrame pages stop fuel (satAdd page 0x1000) (f.visit run.protect)
        else .rw
    else f.prot

/-- The protection for the host page that holds the guest range `[frame, frame + hostPs)`. -/
def hostProtForFrame (pages : PageMap) (frame hostPs : ℕ) : HostProt :=
  scanFrame pages (satAdd frame hostPs) (hostPs / 0x1000) frame {}

/-- The loop of `syncHostProtect`, from `va` up to `stop`; every round moves on. -/
def syncLoop (env : HostEnv) (pages : PageMap) (stop : ℕ) : ℕ → ℕ → ArenaSet → ArenaSet
  | 0, _, s => s
  | fuel + 1, va, s =>
    if va < stop then
      match s.arenaGuestBaseForVa va with
      | none => syncLoop env pages stop fuel (satAdd va 0x1000) s
      | some arenaBase =>
        let frameGuest := satAdd arenaBase (alignDown (va - arenaBase) env.pageSize)
        let prot := hostProtForFrame pages frameGuest env.pageSize
        let s := s.mprotectGuestRange env frameGuest env.pageSize prot
        let next := satAdd frameGuest env.pageSize
        if next ≤ va then syncLoop env pages stop fuel (satAdd va 0x1000) s
        else syncLoop env pages stop fuel next s
    else s

/-- Mirror the protection of `[address, address + size)` to the host pages under it. -/
def syncHostProtect (env : HostEnv) (m : GuestMemory) (address size : ℕ) : GuestMemory :=
  if env.mprotectEnabled = false then m
  else if size = 0 then m
  else { m with backend := syncLoop env m.pages (satAdd address size) size address m.backend }

/-! ### Bootstrap maps -/

/-- Register the allocation of a bootstrap map, unless its base is already one or it meets
another. -/
def insertBootstrap (vad : VadTable) (node : VadNode) : Except CpuError VadTable :=
  if (vad.findBase node.allocationBase).isNone && !vad.overlaps node.allocationBase node.size then
    vad.insert node
  else .ok vad

/-- Map `[address, address + size)`: storage, committed pages, an allocation. -/
def mapWithType (env : HostEnv) (m : GuestMemory) (address size perms : ℕ) (memType : MemType) :
    Except CpuError Unit × GuestMemory :=
  match m.backend.map env address size perms with
  | (.error e, backend) => (.error e, { m with backend := backend })
  | (.ok (), backend) =>
    let m := { m with backend := backend }
    let protect := Protect.pageProtectFromRwx perms
    match m.pages.setRange address size .committed protect with
    | .error e => (.error e, m)
    | .ok pages =>
      let m := { m with pages := pages }
      match insertBootstrap m.vad ⟨address, size, protect, memType, true⟩ with
      | .error e => (.error e, m)
      | .ok vad =>
        let m := { m with vad := vad }.bumpGeneration
        let m := match m.backend.arenaHostBaseForVa address with
          | some hb => { m with regions := m.regions.setHostBaseIfCovers address hb }
          | none => m
        (.ok (), m.syncHostProtect env address size)

/-- Map private pages. -/
def map (env : HostEnv) (m : GuestMemory) (address size perms : ℕ) :
    Except CpuError Unit × GuestMemory :=
  m.mapWithType env address size perms .priv

/-- Map the pages of an image. -/
def mapImage (env : HostEnv) (m : GuestMemory) (address size perms : ℕ) :
    Except CpuError Unit × GuestMemory :=
  m.mapWithType env address size perms .image

/-! ### Reserving -/

/-- The span a reservation takes, in units of 64 KiB: around the request, or wherever there is
room. -/
def alignReserveRequest (m : GuestMemory) (addr size : ℕ) : Except CpuError (ℕ × ℕ) :=
  if addr = 0 then
    let rounded := alignUp size 0x10000
    if rounded = 0 then .error (vaError errorInvalidParameter "reserve size 0")
    else
      match m.vad.findFreeRegion rounded fun page => (m.pages.lookup page).isSome with
      | none => .error (vaError errorNotEnoughMemory "no free guest VA for reserve")
      | some base => .ok (base, rounded)
  else
    match checkedAdd addr size with
    | none => .error (vaError errorInvalidParameter "reserve end overflow")
    | some stop =>
      let base := alignDown addr 0x10000
      let span := alignUp stop 0x10000 - base
      if span = 0 then .error (vaError errorInvalidParameter "reserve span 0")
      else .ok (base, span)

/-- Fail when a page of `[base, base + size)` is in use or an allocation meets it. -/
def ensurePagesFree (m : GuestMemory) (base size : ℕ) : Except CpuError Unit :=
  let last := satAdd base size / 0x1000
  if VadTable.pagesFree (fun page => (m.pages.lookup page).isSome) last (last - base / 0x1000)
      (base / 0x1000) then
    if m.vad.overlaps base size then
      .error (vaError errorInvalidAddress "reserve over existing VAD")
    else .ok ()
  else .error (vaError errorInvalidAddress "reserve over non-free page")

/-- Reserve a span and give its pages a state and a protection. -/
def vaReserve (env : HostEnv) (m : GuestMemory) (addr size hostPerms : ℕ) (state : PageState)
    (pageProtect allocationProtect : ℕ) : Except CpuError ℕ × GuestMemory :=
  match m.alignReserveRequest addr size with
  | .error e => (.error e, m)
  | .ok (base, size) =>
    match m.ensurePagesFree base size with
    | .error e => (.error e, m)
    | .ok () =>
      match m.backend.map env base size hostPerms with
      | (.error e, backend) => (.error e, { m with backend := backend })
      | (.ok (), backend) =>
        let m := { m with backend := backend }
        match m.pages.setRange base size state pageProtect with
        | .error e => (.error e, m)
        | .ok pages =>
          let m := { m with pages := pages }
          match m.vad.insert ⟨base, size, allocationProtect, .priv, true⟩ with
          | .error e => (.error e, m)
          | .ok vad => (.ok base, { m with vad := vad }.bumpGeneration)

/-- Reserve without committing. -/
def vaReserveOnly (env : HostEnv) (m : GuestMemory) (addr size protect : ℕ) :
    Except CpuError ℕ × GuestMemory :=
  m.vaReserve env addr size Perm.all .reserved Protect.pageNoaccess protect

/-- Reserve and commit. -/
def vaReserveAndCommit (env : HostEnv) (m : GuestMemory) (addr size protect : ℕ) :
    Except CpuError ℕ × GuestMemory :=
  m.vaReserve env addr size (Protect.rwxFromPageProtect protect) .committed protect protect

/-! ### Committing, decommitting, protecting

The three calls take a range of pages of one allocation, and validate it in the same way before
they change anything. -/

/-- The texts of the errors a range of pages can be rejected with. -/
structure RangeErrors where
  /-- The end of the range overflows. -/
  overflow : CpuError
  /-- The first page is in no allocation. -/
  outside : CpuError
  /-- The range leaves the allocation. -/
  crosses : CpuError
  /-- A page is free. -/
  missing : CpuError
  /-- A run does not cover the page it was found for. -/
  corrupt : CpuError

/-- Validate the pages that `[addr, addr + size)` touches, and return the first address, the length
and what the walk over them gathered. -/
def pageRange {σ : Type} (m : GuestMemory) (addr size : ℕ) (errs : RangeErrors)
    (visit : σ → PageRun → Except CpuError σ) (acc : σ) : Except CpuError (ℕ × ℕ × σ) :=
  match checkedAdd addr size with
  | none => .error errs.overflow
  | some stop =>
    let pageBase := alignDown addr 0x1000
    let pageEnd := alignUp stop 0x1000
    match m.vad.find pageBase with
    | none => .error errs.outside
    | some node =>
      if node.containsRange pageBase (pageEnd - pageBase) = false then .error errs.crosses
      else
        let page := pageBase / 0x1000
        let last := pageEnd / 0x1000
        match m.pages.walkRuns visit errs.missing errs.corrupt last (last - page) page acc with
        | .error e => .error e
        | .ok acc => .ok (pageBase, pageEnd - pageBase, acc)

/-- Accept reserved and committed pages; any other is the error `e`. -/
def acceptUsed (e : CpuError) (_ : Unit) (run : PageRun) : Except CpuError Unit :=
  if run.state = .reserved ∨ run.state = .committed then .ok () else .error e

/-- The errors of a commit. -/
def commitErrors : RangeErrors where
  overflow := vaError errorInvalidParameter "commit end overflow"
  outside := vaError errorInvalidAddress "VirtualAlloc COMMIT without prior RESERVE"
  crosses := vaError errorInvalidAddress "VirtualAlloc COMMIT range outside allocation"
  missing := vaError errorInvalidAddress "VirtualAlloc COMMIT on free page"
  corrupt := vaError errorInvalidAddress "VirtualAlloc COMMIT corrupt pagemap"

/-- Commit pages of an existing allocation. -/
def vaCommitOnly (env : HostEnv) (m : GuestMemory) (addr size protect : ℕ) :
    Except CpuError ℕ × GuestMemory :=
  if addr = 0 then
    (.error (vaError errorInvalidParameter "VirtualAlloc COMMIT requires address or RESERVE"), m)
  else
    match m.pageRange addr size commitErrors (acceptUsed commitErrors.missing) () with
    | .error e => (.error e, m)
    | .ok (pageBase, size, ()) =>
      -- storage is there from the reservation; it is mapped again only if it is missing
      let mapped : Except CpuError Unit × ArenaSet := match m.backend.pageDataPtr (pageBase / 0x1000) with
        | some _ => (.ok (), m.backend)
        | none => m.backend.map env pageBase size (Protect.rwxFromPageProtect protect)
      match mapped with
      | (.error e, backend) => (.error e, { m with backend := backend })
      | (.ok (), backend) =>
        let m := { m with backend := backend }
        match m.pages.setRange pageBase size .committed protect with
        | .error e => (.error e, m)
        | .ok pages => (.ok pageBase, { m with pages := pages }.bumpGeneration)

/-- The errors of a decommit. -/
def decommitErrors : RangeErrors where
  overflow := vaError errorInvalidParameter "decommit overflow"
  outside := vaError errorInvalidAddress "DECOMMIT outside allocation"
  crosses := vaError errorInvalidAddress "DECOMMIT range crosses allocation"
  missing := vaError errorInvalidAddress "DECOMMIT free page in range"
  corrupt := vaError errorInvalidAddress "DECOMMIT corrupt pagemap"

/-- Decommit pages: zero them and leave them reserved. -/
def vaDecommit (env : HostEnv) (m : GuestMemory) (addr size : ℕ) : Outcome Unit × GuestMemory :=
  if size = 0 then (.error (vaError errorInvalidParameter "VirtualFree DECOMMIT size 0"), m)
  else
    match m.pageRange addr size decommitErrors (acceptUsed decommitErrors.missing) () with
    | .error e => (.error e, m)
    | .ok (pageBase, size, ()) =>
      match m.backend.discardRange env pageBase size with
      | (.crash, backend) => (.crash, { m with backend := backend })
      | (.error e, backend) => (.error e, { m with backend := backend })
      | (.ok (), backend) =>
        let m := { m with backend := backend }
        match m.pages.setRange pageBase size .reserved Protect.pageNoaccess with
        | .error e => (.error e, m)
        | .ok pages => (.ok (), { m with pages := pages }.bumpGeneration)

/-- The errors of a protection change. -/
def protectErrors : RangeErrors where
  overflow := vaError errorInvalidParameter "VirtualProtect end overflow"
  outside := vaError errorInvalidAddress "VirtualProtect outside allocation"
  crosses := vaError errorInvalidAddress "VirtualProtect range crosses allocation"
  missing := vaError errorInvalidAddress "VirtualProtect free page in range"
  corrupt := vaError errorInvalidAddress "VirtualProtect corrupt pagemap"

/-- Accept committed pages, and remember the protection of the first. -/
def acceptCommitted (old : Option ℕ) (run : PageRun) : Except CpuError (Option ℕ) :=
  if run.state = .committed then .ok (some (old.getD run.protect))
  else .error (vaError errorInvalidAddress "VirtualProtect on non-committed page")

/-- `VirtualProtect`: change the protection of committed pages; returns the protection the first
of them had. -/
def virtualProtect (env : HostEnv) (m : GuestMemory) (addr size newProtect : ℕ) :
    Except CpuError ℕ × GuestMemory :=
  if size = 0 then (.error (vaError errorInvalidParameter "VirtualProtect size 0"), m)
  else if Protect.isSupportedProtect newProtect = false then
    (.error (vaError errorInvalidParameter "VirtualProtect unsupported protect"), m)
  else
    match m.pageRange addr size protectErrors acceptCommitted none with
    | .error e => (.error e, m)
    | .ok (pageBase, size, old) =>
      match m.pages.setRange pageBase size .committed newProtect with
      | .error e => (.error e, m)
      | .ok pages =>
        (.ok (old.getD 0),
          ({ m with pages := pages }.bumpGeneration).syncHostProtect env pageBase size)

/-! ### The allocation calls -/

/-- `VirtualAlloc`: reserve, commit, or both. -/
def virtualAlloc (env : HostEnv) (m : GuestMemory) (addr size allocType protect : ℕ) :
    Except CpuError ℕ × GuestMemory :=
  let doCommit := allocType &&& memCommit != 0
  -- committing at no address reserves too
  let doReserve := allocType &&& memReserve != 0 || (doCommit && addr == 0)
  if size = 0 ∨ (doReserve = false ∧ doCommit = false) then
    (.error (vaError errorInvalidParameter "VirtualAlloc size/type invalid"), m)
  else if allocType &&& (0xffffffff - (memReserve ||| memCommit)) ≠ 0 then
    (.error (vaError errorInvalidParameter "VirtualAlloc unsupported allocation type flags"), m)
  else if Protect.isSupportedProtect protect = false then
    (.error (vaError errorInvalidParameter "VirtualAlloc unsupported protect"), m)
  else if doReserve && doCommit then m.vaReserveAndCommit env addr size protect
  else if doReserve then m.vaReserveOnly env addr size protect
  else m.vaCommitOnly env addr size protect

/-- Release a whole allocation, given its base. -/
def vaRelease (env : HostEnv) (m : GuestMemory) (addr : ℕ) : Except CpuError Unit × GuestMemory :=
  match m.vad.findBase addr with
  | none => (.error (vaError errorInvalidAddress "MEM_RELEASE not allocation base"), m)
  | some node =>
    let m := m.bumpGeneration
    match m.pages.setRange node.allocationBase node.size .free 0 with
    | .error e => (.error e, m)
    | .ok pages =>
      (.ok (), { m with
        pages := pages
        vad := m.vad.removeBase addr
        backend := m.backend.unmapExact env node.allocationBase node.size })

/-- `VirtualFree`: decommit pages or release an allocation. -/
def virtualFree (env : HostEnv) (m : GuestMemory) (addr size freeType : ℕ) :
    Outcome Unit × GuestMemory :=
  let decommit := freeType &&& memDecommit != 0
  let release := freeType &&& memRelease != 0
  if decommit = release then
    (.error (vaError errorInvalidParameter "VirtualFree type must be DECOMMIT or RELEASE"), m)
  else if release then
    if size ≠ 0 then
      (.error (vaError errorInvalidParameter "VirtualFree MEM_RELEASE requires size 0"), m)
    else
      let (result, m) := m.vaRelease env addr
      (.ofExcept result, m)
  else m.vaDecommit env addr size

/-! ### Access

The emulator compares the generation before and after the permission check, to notice a structural
change by another thread in between. A call is one step here, so the two are equal. -/

/-- Store `bytes` from `va` on, a chunk per page; `fuel` bounds the number of chunks. -/
def writeChunks (env : HostEnv) : ℕ → ℕ → List UInt8 → ArenaSet → Outcome Unit × ArenaSet
  | 0, _, _, s => (.ok (), s)
  | fuel + 1, va, bytes, s =>
    if bytes.isEmpty then (.ok (), s)
    else
      let chunk := min (0x1000 - va % 0x1000) bytes.length
      match s.writePtr va with
      | none => (.error (.message s!"mem_write unmapped {hex va}"), s)
      | some dst =>
        match s.host.store env dst (bytes.take chunk) with
        | none => (.crash, s)
        | some host =>
          writeChunks env fuel (va + chunk) (bytes.drop chunk) { s with host := host }

/-- Write `bytes` at the guest address `address`, after the permission check. -/
def write (env : HostEnv) (m : GuestMemory) (address : ℕ) (bytes : List UInt8) :
    Outcome Unit × GuestMemory :=
  match m.pages.checkAccess address bytes.length .write with
  | (.error e, pages) => (.error e, { m with pages := pages })
  | (.ok (), pages) =>
    let (result, backend) := writeChunks env bytes.length address bytes m.backend
    (result, { m with pages := pages, backend := backend })

/-- Read `len` bytes at the guest address `address`, after the permission check. -/
def read (env : HostEnv) (m : GuestMemory) (address len : ℕ) :
    Outcome (List UInt8) × GuestMemory :=
  match m.pages.checkAccess address len .read with
  | (.error e, pages) => (.error e, { m with pages := pages })
  | (.ok (), pages) => (m.backend.read env address len, { m with pages := pages })

end GuestMemory

end Wie
