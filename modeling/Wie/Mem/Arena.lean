import Wie.Lib.Extents
import Wie.Mem.Host

/-!
# Arenas

Guest memory is stored in anonymous host mappings, one per contiguous stretch of guest addresses.
A guest address is translated by finding the arena that contains it and adding its offset to the
arena's host address; guest and host addresses are never equal by design.

An arena's place (guest base, size, host address) never changes while it lives; its permission bits
do, and nothing reads them. The place is a structure of its own, so that what depends on it says
so.

## Main definitions

* `HostSpan`, `MmapArena` — the place of an arena; an arena
* `ArenaSet` — the arenas in order of guest base, and the host they live in
* `ArenaSet.findVa`, `writePtr`, `pageDataPtr` — translation
* `ArenaSet.mapRange`, `unmapExact`, `mprotectGuestRange`, `discardRange` — the operations behind
  mapping, release, protection and decommit
* `ArenaSet.read`, `ArenaSet.write` — access page by page
-/

namespace Wie

/-- The place of an arena: the guest range it holds and where the host put it. -/
structure HostSpan where
  /-- First guest address. -/
  guestBase : ℕ
  /-- Length in bytes. -/
  size : ℕ
  /-- Host address of the first byte. -/
  host : ℕ
  deriving DecidableEq, Repr

namespace HostSpan

/-- First guest address after the arena. -/
def guestEnd (a : HostSpan) : ℕ := satAdd a.guestBase a.size

/-- Whether `va` is in the arena. -/
def containsVa (a : HostSpan) (va : ℕ) : Bool := decide (a.guestBase ≤ va ∧ va < a.guestEnd)

/-- Whether the arena is exactly `[address, address + size)`. -/
def isExactRange (a : HostSpan) (address size : ℕ) : Bool :=
  decide (a.guestBase = address ∧ a.size = size)

/-- Host address of the guest page `pkey`, if its start is in the arena. -/
def pageDataPtr (a : HostSpan) (pkey : ℕ) : Option ℕ :=
  let va := satMul pkey 0x1000
  if a.host = 0 ∨ a.containsVa va = false then none
  else if a.size ≤ va - a.guestBase then none
  else some (a.host + (va - a.guestBase))

end HostSpan

/-- An arena: its place and its permission bits. -/
structure MmapArena extends HostSpan where
  /-- Permission bits, recorded and not consulted. -/
  perms : ℕ
  deriving DecidableEq, Repr

/-- The arenas in order of guest base, and the host they live in. -/
structure ArenaSet where
  /-- The arenas. -/
  arenas : List MmapArena
  /-- The host. -/
  host : Host

namespace ArenaSet

/-- The places of the arenas. -/
def spans (s : ArenaSet) : List HostSpan := s.arenas.map MmapArena.toHostSpan

/-! ### Translation -/

/-- Index of the last arena that starts at or below `va`, by bisection. -/
def candidateIndex (s : ArenaSet) (va : ℕ) : Option ℕ :=
  if s.arenas.isEmpty then none
  else
    match bisect (fun a => a.guestBase) s.arenas va s.arenas.length 0 s.arenas.length with
    | 0 => none
    | i + 1 => some i

/-- The arena containing `va`. -/
def findVa (s : ArenaSet) (va : ℕ) : Option MmapArena :=
  match s.candidateIndex va with
  | none => none
  | some i =>
    match s.arenas[i]? with
    | none => none
    | some a => if a.containsVa va then some a else none

/-- Host address of the guest page `pkey`. -/
def pageDataPtr (s : ArenaSet) (pkey : ℕ) : Option ℕ :=
  match s.findVa (satMul pkey 0x1000) with
  | none => none
  | some a => a.pageDataPtr pkey

/-- Host address of the arena that contains `va`. -/
def arenaHostBaseForVa (s : ArenaSet) (va : ℕ) : Option ℕ :=
  match s.findVa va with
  | none => none
  | some a => if a.host = 0 then none else some a.host

/-- Guest base of the arena that contains `va`. -/
def arenaGuestBaseForVa (s : ArenaSet) (va : ℕ) : Option ℕ :=
  (s.findVa va).map fun a => a.guestBase

/-- Host address for writing at `address`. -/
def writePtr (s : ArenaSet) (address : ℕ) : Option ℕ :=
  match s.findVa address with
  | none => none
  | some a =>
    if a.host = 0 then none
    else if a.size ≤ address - a.guestBase then none
    else some (a.host + (address - a.guestBase))

/-! ### Mapping and unmapping -/

/-- Whether an arena meets `[address, stop)`. -/
def anyOverlap (s : ArenaSet) (address stop : ℕ) : Bool :=
  s.arenas.any fun a => decide (a.guestBase < stop ∧ address < a.guestEnd)

/-- Record the permission bits of the `i`-th arena. -/
def setPerms (s : ArenaSet) (i perms : ℕ) : ArenaSet :=
  { s with arenas := s.arenas.modify i fun a => { a with perms := perms } }

/-- Map a new arena and insert it. An arena that cannot be inserted is unmapped again. -/
def mapNew (env : HostEnv) (s : ArenaSet) (guestBase size perms : ℕ) :
    Except CpuError Unit × ArenaSet :=
  if size = 0 then (.error (.message "mmap arena size 0"), s)
  else
    match s.host.mmap env size with
    | (none, host) =>
      (.error (.message s!"mmap arena failed for guest {hex guestBase}+{hex size}"),
        { s with host := host })
    | (some p, host) =>
      let arena : MmapArena := ⟨⟨guestBase, size, p⟩, perms⟩
      if s.anyOverlap guestBase arena.guestEnd then
        (.error (.message s!"mmap arena overlap at {hex guestBase}+{hex size}"),
          { s with host := host.munmap env p size })
      else (.ok (), { arenas := insertBy (fun a => a.guestBase) arena s.arenas, host := host })

/-- Map a run of pages that are in no arena, unless it is empty. -/
def mapRun (env : HostEnv) (s : ArenaSet) (start size perms : ℕ) : Except CpuError Unit × ArenaSet :=
  if 0 < size then s.mapNew env start size perms else (.ok (), s)

/-- First pass of mapping `[pageVa, stop)`: record the permission bits of the arenas already
there. -/
def permsPass (perms stop : ℕ) : ℕ → ℕ → ArenaSet → ArenaSet
  | 0, _, s => s
  | fuel + 1, pageVa, s =>
    if pageVa < stop then
      let s' := match s.candidateIndex pageVa with
        | none => s
        | some i =>
          match s.arenas[i]? with
          | none => s
          | some a => if a.containsVa pageVa then s.setPerms i perms else s
      permsPass perms stop fuel (pageVa + 0x1000) s'
    else s

/-- Second pass of mapping `[pageVa, stop)`: a new arena for each run of pages in none.
`runStart` is where the current run began. -/
def mapPass (env : HostEnv) (perms stop : ℕ) :
    ℕ → ℕ → Option ℕ → ArenaSet → Except CpuError Unit × ArenaSet
  | fuel + 1, pageVa, runStart, s =>
    if pageVa < stop then
      if (s.findVa pageVa).isSome then
        match runStart with
        | none => mapPass env perms stop fuel (pageVa + 0x1000) none s
        | some start =>
          match s.mapRun env start (pageVa - start) perms with
          | (.error e, s) => (.error e, s)
          | (.ok (), s) => mapPass env perms stop fuel (pageVa + 0x1000) none s
      else mapPass env perms stop fuel (pageVa + 0x1000) (some (runStart.getD pageVa)) s
    else
      match runStart with
      | none => (.ok (), s)
      | some start => s.mapRun env start (stop - start) perms
  | 0, _, runStart, s =>
    match runStart with
    | none => (.ok (), s)
    | some start => s.mapRun env start (stop - start) perms

/-- Map `[address, stop)`: an exact rematch only records permission bits; else pages already in an
arena stay there and each run of others gets a new one. -/
def mapRange (env : HostEnv) (s : ArenaSet) (address stop size perms : ℕ) :
    Except CpuError Unit × ArenaSet :=
  if address = stop then (.ok (), s)
  else
    match s.arenas.findIdx? fun a => a.isExactRange address size with
    | some i => (.ok (), s.setPerms i perms)
    | none =>
      let pages := (stop - address) / 0x1000
      mapPass env perms stop pages address none (permsPass perms stop pages address s)

/-- Validate the arguments of a map: page-aligned and inside the address space. -/
def checkMapArgs (address size : ℕ) : Except CpuError (ℕ × ℕ) :=
  if size = 0 then .ok (address, address)
  else if address % 0x1000 ≠ 0 then
    .error (.message s!"mem_map address {hex address} not page-aligned")
  else if size % 0x1000 ≠ 0 then .error (.message s!"mem_map size {hex size} not page-aligned")
  else
    match checkedAdd address size with
    | none => .error (.message s!"mem_map overflow at {hex address}+{hex size}")
    | some stop => .ok (address, stop)

/-- Map `[address, address + size)`. -/
def map (env : HostEnv) (s : ArenaSet) (address size perms : ℕ) : Except CpuError Unit × ArenaSet :=
  match checkMapArgs address size with
  | .error e => (.error e, s)
  | .ok (address, stop) => s.mapRange env address stop size perms

/-- Unmap the arena that is exactly `[address, address + size)`, if there is one. -/
def unmapExact (env : HostEnv) (s : ArenaSet) (address size : ℕ) : ArenaSet :=
  match s.arenas.find? fun a => a.isExactRange address size with
  | none => s
  | some a =>
    { arenas := s.arenas.eraseP fun a => a.isExactRange address size
      host := s.host.munmap env a.host a.size }

/-! ### Host protection -/

/-- Apply `prot` to the `size` bytes at the guest address `address`, when they are whole host pages
of one arena. -/
def mprotectGuestRange (env : HostEnv) (s : ArenaSet) (address size : ℕ) (prot : HostProt) :
    ArenaSet :=
  if size = 0 then s
  else
    match s.findVa address with
    | none => s
    | some a =>
      if a.guestEnd < satAdd address size ∨ address < a.guestBase then s
      else if a.host = 0 then s
      else
        let off := address - a.guestBase
        if off % env.pageSize ≠ 0 ∨ size % env.pageSize ≠ 0 then s
        else if a.size < satAdd off size then s
        else { s with host := s.host.mprotect env (a.host + off) size prot }

/-! ### Access -/

/-- Write `bytes` from `va` on, a chunk per page; `fuel` bounds the number of chunks. -/
def writeLoop (env : HostEnv) : ℕ → ℕ → List UInt8 → ArenaSet → Outcome Unit × ArenaSet
  | 0, _, _, s => (.ok (), s)
  | fuel + 1, va, bytes, s =>
    if bytes.isEmpty then (.ok (), s)
    else
      match s.findVa va with
      | none => (.error (.message s!"mem_write unmapped {hex va}"), s)
      | some a =>
        let arenaOff := va - a.guestBase
        let chunk := min (min (0x1000 - va % 0x1000) (a.size - arenaOff)) bytes.length
        if chunk = 0 then (.error (.message s!"mem_write unmapped {hex va}"), s)
        else
          match s.host.store env (a.host + arenaOff) (bytes.take chunk) with
          | none => (.crash, s)
          | some host => writeLoop env fuel (va + chunk) (bytes.drop chunk) { s with host := host }

/-- Write `bytes` at the guest address `address`. -/
def write (env : HostEnv) (s : ArenaSet) (address : ℕ) (bytes : List UInt8) :
    Outcome Unit × ArenaSet :=
  writeLoop env bytes.length address bytes s

/-- Read `len` bytes from `va` on, a chunk per page; `fuel` bounds the number of chunks. -/
def readLoop (env : HostEnv) (s : ArenaSet) : ℕ → ℕ → ℕ → List UInt8 → Outcome (List UInt8)
  | 0, _, _, acc => .ok acc
  | fuel + 1, va, remaining, acc =>
    if remaining = 0 then .ok acc
    else
      match s.findVa va with
      | none => .error (.message s!"mem_read unmapped {hex va}")
      | some a =>
        let arenaOff := va - a.guestBase
        let chunk := min (min (0x1000 - va % 0x1000) (a.size - arenaOff)) remaining
        if chunk = 0 then .error (.message s!"mem_read unmapped {hex va}")
        else
          match s.host.load env (a.host + arenaOff) chunk with
          | none => .crash
          | some bytes => readLoop env s fuel (va + chunk) (remaining - chunk) (acc ++ bytes)

/-- Read `len` bytes at the guest address `address`. -/
def read (env : HostEnv) (s : ArenaSet) (address len : ℕ) : Outcome (List UInt8) :=
  s.readLoop env len address len []

/-- Zero `remaining` bytes from `va` on, a page at a time; pages in no arena are skipped. -/
def discardLoop (env : HostEnv) (size : ℕ) : ℕ → ℕ → ℕ → ArenaSet → Outcome Unit × ArenaSet
  | 0, _, _, s => (.ok (), s)
  | fuel + 1, va, remaining, s =>
    if remaining = 0 then (.ok (), s)
    else
      let chunk := min (min remaining (0x1000 - va % 0x1000)) (min size 0x1000)
      if chunk = 0 then (.ok (), s)
      else
        match s.write env va (List.replicate chunk 0) with
        | (.crash, s) => (.crash, s)
        | (_, s) => discardLoop env size fuel (va + chunk) (remaining - chunk) s

/-- Zero `[address, address + size)` without unmapping it. -/
def discardRange (env : HostEnv) (s : ArenaSet) (address size : ℕ) : Outcome Unit × ArenaSet :=
  discardLoop env size size address size s

end ArenaSet

end Wie
