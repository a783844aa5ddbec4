import Wie.Lib.Ways
import Wie.Mem.Generation
import Wie.Mem.HostSpan

/-!
# The software TLB

Compiled code does not check its accesses. It looks for a translation it has seen before, and what
it finds is a host pointer that it loads and stores through. There are four places to look: the pins
on the stack and on data, a few sticky pages in the order of use, and a table of sets with four ways
each. Only when all of them miss is guest memory walked, and only when an access crosses a page or
the walk denies it is it made by the checked path.

The four places warm each other. A pin that may only be read leaves such a line in the sticky pages
and in its set, although the page may be open to stores; a walk that is denied leaves a line as
well.

The mirror of the last hit is left out, since nothing reads it, and so are the counters.

## Main definitions

* `TlbLine`, `TlbBucket`, `MemPin`, `Tlb` — what is remembered of one page, a set, a pin, all of it
* `Tlb.setHot`, `Tlb.install`, `Tlb.pinResolve`, `Tlb.pagePtr` — the way to a pointer
* `Tlb.load`, `Tlb.store` — the helpers
* `Tlb.callLoad`, `Tlb.callStore` — an access as the code of a block makes it
-/

namespace Wie

open GuestMemory

/-- The number of sets. -/
def TLB_SETS : ℕ := 16

/-- The ways of a set. -/
def TLB_WAYS_PER_SET : ℕ := 4

/-- The key of a vacant way. -/
def TLB_EMPTY : ℕ := 2 ^ 64 - 1

/-- The sticky pages. -/
def STICKY_WAYS : ℕ := 2

/-- The rights of a translation, the bits `TLB_PROT_R` and `TLB_PROT_W`. -/
structure TlbProt where
  /-- Loads are granted. -/
  r : Bool
  /-- Stores are granted. -/
  w : Bool
  deriving DecidableEq, Repr

/-- `tlb_prot_allows`. -/
def TlbProt.allows (p : TlbProt) (write : Bool) : Bool := if write then p.w else p.r

/-- `pack_tlb_prot`. -/
def packTlbProt (allowR allowW : Bool) : TlbProt := ⟨allowR, allowW⟩

/-- What is remembered of one page, in a way of a set or in a sticky page. -/
structure TlbLine where
  /-- The page, or `TLB_EMPTY`. -/
  page : ℕ
  /-- The host address of the page. -/
  host : ℕ
  /-- What may be done through it. -/
  prot : TlbProt
  /-- The generation it was made in. -/
  generation : ℕ
  deriving DecidableEq, Repr

/-- A vacant way. -/
def TlbLine.empty : TlbLine := ⟨TLB_EMPTY, 0, ⟨false, false⟩, 0⟩

/-- The line may be used for an access in a generation. -/
def TlbLine.usable (l : TlbLine) (memGen : ℕ) (write : Bool) : Bool :=
  l.host ≠ 0 && l.generation = memGen && l.prot.allows write

/-- A set, with the next way to be given up. -/
structure TlbBucket where
  /-- The ways. -/
  ways : List TlbLine
  /-- The next victim, a `u8`. -/
  rr : ℕ
  deriving DecidableEq, Repr

/-- `empty_tlb_bucket`, `empty_tlb_aux`. -/
def TlbBucket.empty : TlbBucket := ⟨List.replicate TLB_WAYS_PER_SET .empty, 0⟩

/-- A pin as compiled code has it; the host address is null when the slot is vacant. -/
structure MemPin where
  /-- First guest address. -/
  guestBase : ℕ
  /-- First guest address after it. -/
  guestEnd : ℕ
  /-- Host address of the first byte. -/
  hostBase : ℕ
  /-- The generation it was made in. -/
  memGen : ℕ
  /-- What may be done through it. -/
  allow : TlbProt
  deriving DecidableEq, Repr

/-- A vacant slot. -/
def MemPin.empty : MemPin := ⟨0, 0, 0, 0, ⟨false, false⟩⟩

/-- `MemPin::from_info`. -/
def MemPin.fromInfo : Option RegionPinInfo → MemPin
  | none => .empty
  | some p =>
    if p.hostBase = 0 ∨ p.guestEnd ≤ p.guestBase then .empty
    else if !p.allowR && !p.allowW then .empty
    else ⟨p.guestBase, p.guestEnd, p.hostBase, p.generation, ⟨p.allowR, p.allowW⟩⟩

/-- What an engine remembers of guest memory, and the generation its block runs in. -/
structure Tlb where
  /-- The sets. -/
  sets : Fin TLB_SETS → TlbBucket
  /-- The sticky pages, the last used in front. -/
  sticky : List TlbLine
  /-- The pins. -/
  pins : List MemPin
  /-- The generation the pins were made in. -/
  pinsGen : ℕ
  /-- The generation of the run. -/
  memGen : ℕ

/-- `tlb_set_index`. -/
def tlbSetIndex (pageKey : ℕ) : Fin TLB_SETS := ⟨pageKey % TLB_SETS, Nat.mod_lt _ (by decide)⟩

namespace Tlb

/-- A new engine, and one whose translations were dropped by `invalidate_tlb`. -/
def clear (memGen : ℕ) : Tlb :=
  ⟨fun _ => .empty, List.replicate STICKY_WAYS .empty, List.replicate jitRegionPinSlots .empty,
    2 ^ 64 - 1, memGen⟩

/-- What `run_compiled` refreshes before a block is entered. -/
def enter (m : GuestMemory) (t : Tlb) : Tlb :=
  if t.pinsGen ≠ m.generation then
    { t with
      memGen := m.generation, pinsGen := m.generation
      pins := m.jitRegionPins.map .fromInfo }
  else { t with memGen := m.generation }

/-! ### The helpers -/

/-- `tlb_set_hot`. -/
def setHot (t : Tlb) (line : TlbLine) : Tlb :=
  if (t.sticky.findIdx? fun l => l.page = line.page) = some 0 then
    { t with sticky := t.sticky.set 0 line }
  else { t with sticky := moveToFront TlbLine.page TLB_EMPTY .empty STICKY_WAYS line t.sticky }

/-- `tlb_install`. -/
def install (t : Tlb) (line : TlbLine) : Tlb :=
  let b := t.sets (tlbSetIndex line.page)
  let ways := fillWay TlbLine.page TLB_EMPTY (b.rr % TLB_WAYS_PER_SET) line b.ways
  let rr := if (wayFor TlbLine.page TLB_EMPTY line.page b.ways).isSome then b.rr
    else (b.rr + 1) % 2 ^ 8
  { t with sets := Function.update t.sets (tlbSetIndex line.page) ⟨ways, rr⟩ }

/-- The pin is one for an access. -/
def pinFits (memGen addr stop : ℕ) (write : Bool) (p : MemPin) : Bool :=
  p.hostBase ≠ 0 && p.memGen = memGen && p.guestBase ≤ addr && stop ≤ p.guestEnd &&
    p.allow.allows write

/-- `pin_resolve`. -/
def pinResolve (t : Tlb) (addr size : ℕ) (write : Bool) : Option (ℕ × Tlb) :=
  if size = 0 then none
  else
    match checkedAdd addr size with
    | none => none
    | some stop =>
      match t.pins.find? (pinFits t.memGen addr stop write) with
      | none => none
      | some pin =>
        let host := pin.hostBase + (addr - pin.guestBase)
        let line : TlbLine := ⟨addr / 0x1000, host - addr % 0x1000, pin.allow, pin.memGen⟩
        some (host, (t.install line).setHot line)

/-- `tlb_bucket_lookup_scalar`: the first way that will do. -/
def bucketLookupScalar (b : TlbBucket) (pageKey : ℕ) (write : Bool) (memGen : ℕ) : Option TlbLine :=
  b.ways.find? fun l => decide (l.page = pageKey) && l.usable memGen write

/-- The vector form of `tlb_bucket_lookup`: the first way with the key, if that one will do. -/
def bucketLookupNeon (b : TlbBucket) (pageKey : ℕ) (write : Bool) (memGen : ℕ) : Option TlbLine :=
  (b.ways.find? fun l => decide (l.page = pageKey)).filter (·.usable memGen write)

/-- `tlb_bucket_lookup`. -/
def bucketLookup (neon : Bool) (b : TlbBucket) (pageKey : ℕ) (write : Bool) (memGen : ℕ) :
    Option TlbLine :=
  if neon then bucketLookupNeon b pageKey write memGen
  else bucketLookupScalar b pageKey write memGen

/-- The first sticky page that will do. -/
def stickyLookup (t : Tlb) (pageKey : ℕ) (write : Bool) : Option TlbLine :=
  t.sticky.find? fun l => decide (l.page = pageKey) && l.usable t.memGen write

/-- The end of `tlb_page_ptr`: guest memory is walked, and what is found is remembered even where it
denies this access. -/
def walk (m : GuestMemory) (t : Tlb) (addr : ℕ) (write : Bool) : Option ℕ × Tlb :=
  match m.pageTlbEntry (addr / 0x1000) with
  | none => (none, t)
  | some e =>
    let line : TlbLine := ⟨addr / 0x1000, e.host, packTlbProt e.allowR e.allowW, e.generation⟩
    (if line.prot.allows write then some (e.host + addr % 0x1000) else none,
      (t.install line).setHot line)

/-- `tlb_page_ptr`. -/
def pagePtr (neon : Bool) (m : GuestMemory) (t : Tlb) (addr size : ℕ) (write : Bool) :
    Option ℕ × Tlb :=
  if 0x1000 < addr % 0x1000 + size then (none, t)
  else
    match t.stickyLookup (addr / 0x1000) write with
    | some l => (some (l.host + addr % 0x1000), t)
    | none =>
      match bucketLookup neon (t.sets (tlbSetIndex (addr / 0x1000))) (addr / 0x1000) write
        t.memGen with
      | some l => (some (l.host + addr % 0x1000),
          t.setHot ⟨addr / 0x1000, l.host, l.prot, t.memGen⟩)
      | none =>
        match t.pinResolve addr size write with
        | some r => (some r.1, r.2)
        | none => walk m t addr write

/-- The value of a load; the helper has one for the sizes of registers only. -/
def loadValue (bytes : List UInt8) : ℕ :=
  if bytes.length = 1 ∨ bytes.length = 2 ∨ bytes.length = 4 ∨ bytes.length = 8 then fromLe bytes
  else 0

/-- `wie_jit_load`, when no access of the block was denied before; the value is missing when this
one is, and there is no result when the process ends. -/
def load (env : HostEnv) (neon : Bool) (m : GuestMemory) (t : Tlb) (addr size : ℕ) :
    Option (Option ℕ × Tlb × GuestMemory) :=
  if size = 0 ∨ 8 < size then some (none, t, m)
  else
    match pagePtr neon m t addr size false with
    | (some p, t) =>
      (m.backend.host.load env p size).map fun bytes => (some (loadValue bytes), t, m)
    | (none, t) => ((device env).read m addr size).map fun r => (r.1.map loadValue, t, r.2)

/-- `wie_jit_store`, likewise. -/
def store (env : HostEnv) (neon : Bool) (m : GuestMemory) (t : Tlb) (addr size value : ℕ) :
    Option (Bool × Tlb × GuestMemory) :=
  if size = 0 ∨ 8 < size then some (false, t, m)
  else
    match pagePtr neon m t addr size true with
    | (some p, t) => (m.pokeHost env p (toLe size value)).map fun m => (true, t, m)
    | (none, t) => ((device env).write m addr (toLe size value)).map fun r => (r.1, t, r.2)

/-! ### The code of a block -/

/-- What a block was compiled with: whether it has probes of its own, and for which pins. -/
structure MemEnv where
  /-- `jit_mem_inline_enabled`. -/
  inlineEnabled : Bool
  /-- The slot of the stack, if the block has one. -/
  stackPin : Option ℕ
  /-- The slots of data. -/
  dataPins : List ℕ
  /-- `tlb_neon_enabled`, on a host that has it. -/
  neon : Bool

/-- `hoisted_pin_probe` on the pin of a slot, with sums modulo `2 ^ 64`. -/
def hoistedPinProbe (t : Tlb) (slot addr size : ℕ) (write : Bool) : Option ℕ :=
  let pin := t.pins.getD slot .empty
  let stop := (addr + size) % 2 ^ 64
  if pin.hostBase ≠ 0 ∧ pin.memGen = t.memGen ∧ addr ≤ stop ∧ pin.guestBase ≤ addr ∧
      stop ≤ pin.guestEnd ∧ pin.allow.allows write = true then
    some (pin.hostBase + (addr - pin.guestBase))
  else none

/-- `sticky_tlb_probe`. -/
def stickyTlbProbe (t : Tlb) (addr size : ℕ) (write : Bool) : Option ℕ :=
  if addr % 0x1000 + size ≤ 0x1000 then
    (t.stickyLookup (addr / 0x1000) write).map fun l => l.host + addr % 0x1000
  else none

/-- The probes of a block, one after the other. -/
def probe (e : MemEnv) (t : Tlb) (addr size : ℕ) (write : Bool) : Option ℕ :=
  if e.inlineEnabled then
    (e.stackPin.bind fun slot => t.hoistedPinProbe slot addr size write).or
      ((t.stickyTlbProbe addr size write).or
        (e.dataPins.findSome? fun slot => t.hoistedPinProbe slot addr size write))
  else none

/-- `call_load`, off the super path. -/
def callLoad (env : HostEnv) (e : MemEnv) (m : GuestMemory) (t : Tlb) (addr size : ℕ) :
    Option (Option ℕ × Tlb × GuestMemory) :=
  match t.probe e addr size false with
  | some p => (m.backend.host.load env p size).map fun bytes => (some (fromLe bytes), t, m)
  | none => t.load env e.neon m addr size

/-- `call_store`, off the super path. -/
def callStore (env : HostEnv) (e : MemEnv) (m : GuestMemory) (t : Tlb) (addr size value : ℕ) :
    Option (Bool × Tlb × GuestMemory) :=
  match t.probe e addr size true with
  | some p => (m.pokeHost env p (toLe size value)).map fun m => (true, t, m)
  | none => t.store env e.neon m addr size value

end Tlb

end Wie
