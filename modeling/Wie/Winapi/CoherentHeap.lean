import Wie.Lib.Linked
import Wie.Winapi.GuestHeap

/-!
# The process heap with lists in guest memory

Code of the guest may allocate by itself, and so the cursor and the lists of the classes lie in
guest memory: in a control block, and in the free blocks, each of which holds the address of the
next one. Before each block is a header with its size. The large list and the table of what is live
stay with the host.

This heap does what the process heap does, with the lists read off guest memory, as long as what it
writes there does not land in a live block. A large block that is cut in two leaves no room for the
header of its second part, and an address that is not live is freed like a block when the word
before it is not zero.

## Main definitions

* `CoherentHeap` — host and guest part, with everything the heap has written
* `CoherentHeap.allocCoherent`, `CoherentHeap.freeCoherent` — the operations
* `CoherentCall.Keeps` — what is asked of a call
* `CoherentHeap.Refines` — the process heap behind this one

## Main results

* `CoherentHeap.Refines.alloc`, `CoherentHeap.Refines.free` — the operations are those of the
  process heap
* `metadata_outside` — nothing is written to live blocks
* `not_metadata_outside` — unless a block was cut in two
-/

namespace Wie

/-- A write of the heap to guest memory. -/
structure HeapWrite where
  /-- Where. -/
  va : ℕ
  /-- What was live then. -/
  live : AList fun _ : ℕ => ℕ

/-- The write is beside all blocks that were live. -/
def HeapWrite.Outside (w : HeapWrite) : Prop :=
  ∀ a n, w.live.lookup a = some n → w.va + 8 ≤ a ∨ a + n ≤ w.va

/-- The host part and guest memory. -/
structure CoherentHeap where
  /-- The host part. -/
  heap : GuestHeap
  /-- Guest memory. -/
  mem : Flat
  /-- What the heap has written, the last write first. -/
  writes : List HeapWrite

namespace CoherentHeap

/-- The heap with another host part. -/
def setHeap (s : CoherentHeap) (h : GuestHeap) : CoherentHeap := { s with heap := h }

/-- `read_u64`. -/
def readU64 (s : CoherentHeap) (va : ℕ) : Option ℕ := s.mem.loadLe va 8

/-- `write_u64`: a write that fails is dropped. -/
def writeU64 (s : CoherentHeap) (va value : ℕ) : CoherentHeap :=
  { s with
    mem := (s.mem.storeLe va 8 value).getD s.mem
    writes := ⟨va, s.heap.live⟩ :: s.writes }

/-- `head_va`. -/
def headVa (ctrl c : ℕ) : ℕ := (ctrl + 8 + c * 8) % 2 ^ 64

/-- Where the header of a block is. -/
def headerVa (address : ℕ) : ℕ := (address + (2 ^ 64 - 8)) % 2 ^ 64

/-- `sync_bump_from_guest`. -/
def syncBumpFromGuest (s : CoherentHeap) (ctrl : ℕ) : CoherentHeap :=
  match s.readU64 ctrl with
  | some bump => s.setHeap (s.heap.setBump bump)
  | none => s

/-- `sync_bump_to_guest`. -/
def syncBumpToGuest (s : CoherentHeap) (ctrl : ℕ) : CoherentHeap := s.writeU64 ctrl s.heap.bump

/-- The part of `alloc_coherent` for sizes of classes. -/
def allocSmall (s : CoherentHeap) (ctrl rounded : ℕ) : ℕ × CoherentHeap :=
  let hva := headVa ctrl (sizeClassIndex rounded)
  match (s.readU64 hva).filter fun head =>
    decide (head ≠ 0 ∧ s.heap.base ≤ head ∧ head < s.heap.endVa) with
  | some head =>
    let next := (s.readU64 head).getD 0
    let s := (s.writeU64 hva next).writeU64 (headerVa head) rounded
    (head, s.setHeap (s.heap.addLive head rounded))
  | none =>
    let s := s.syncBumpFromGuest ctrl
    let r := s.heap.bumpAlloc rounded
    let s := s.setHeap r.2
    if r.1 ≠ 0 then (r.1, (s.writeU64 (headerVa r.1) rounded).syncBumpToGuest ctrl) else (r.1, s)

/-- The part of `alloc_coherent` for larger sizes. -/
def allocLarge (s : CoherentHeap) (ctrl size : ℕ) : ℕ × CoherentHeap :=
  let s := s.syncBumpFromGuest ctrl
  let r := s.heap.alloc size
  let s := s.setHeap r.2
  if r.1 ≠ 0 then
    let s := match s.heap.live.lookup r.1 with
      | some sz => s.writeU64 (headerVa r.1) sz
      | none => s
    (r.1, s.syncBumpToGuest ctrl)
  else (r.1, s)

/-- `alloc_coherent`. -/
def allocCoherent (s : CoherentHeap) (guestCtrlVa : Option ℕ) (size : ℕ) : ℕ × CoherentHeap :=
  match guestCtrlVa with
  | none => ((s.heap.alloc size).1, s.setHeap (s.heap.alloc size).2)
  | some ctrl =>
    if size = 0 then (0, s)
    else
      let rounded := roundUpSize size
      if rounded = 0 then (0, s)
      else if rounded ≤ LARGE_THRESHOLD then s.allocSmall ctrl rounded
      else s.allocLarge ctrl size

/-- `free_known_block`. -/
def freeKnownBlock (s : CoherentHeap) (ctrl address size : ℕ) : Bool × CoherentHeap :=
  if size = 0 then (false, s)
  else
    let s :=
      if LARGE_THRESHOLD < size then
        s.setHeap (s.heap.setLarge (s.heap.largeFree ++ [⟨address, size⟩]))
      else
        let hva := headVa ctrl (sizeClassIndex size)
        let oldHead := (s.readU64 hva).getD 0
        (s.writeU64 address oldHead).writeU64 hva address
    (true, s.writeU64 (headerVa address) 0)

/-- `free_coherent`. -/
def freeCoherent (s : CoherentHeap) (guestCtrlVa : Option ℕ) (address : ℕ) : Bool × CoherentHeap :=
  if address = 0 then (true, s)
  else
    match guestCtrlVa with
    | none => ((s.heap.free address).1, s.setHeap (s.heap.free address).2)
    | some ctrl =>
      match s.heap.live.lookup address with
      | some size => (s.setHeap (s.heap.dropLive address)).freeKnownBlock ctrl address size
      | none =>
        if s.heap.base ≤ address ∧ address < s.heap.endVa then
          match s.readU64 (headerVa address) with
          | some size =>
            if size ≠ 0 then s.freeKnownBlock ctrl address size else (false, s)
          | none => (false, s)
        else (false, s)

/-- A write of the guest. -/
def guestWrite (s : CoherentHeap) (va : ℕ) (bs : List UInt8) : CoherentHeap :=
  { s with mem := (s.mem.store va bs).getD s.mem }

end CoherentHeap

/-! ### Runs -/

/-- A call of the heap, or a write of the guest. -/
inductive CoherentCall where
  /-- `alloc_coherent`. -/
  | alloc (size : ℕ)
  /-- `free_coherent`. -/
  | free (address : ℕ)
  /-- The guest writes. -/
  | guestWrite (va : ℕ) (bs : List UInt8)

/-- No live block ends at `a`. -/
def CoherentHeap.NoneEnds (s : CoherentHeap) (a : ℕ) : Prop :=
  ∀ b ∈ s.heap.liveBlocks, b.address + b.size ≠ a

namespace CoherentCall

/-- The state after a call. -/
def run (ctrl : ℕ) (s : CoherentHeap) : CoherentCall → CoherentHeap
  | alloc size => (s.allocCoherent (some ctrl) size).2
  | free address => (s.freeCoherent (some ctrl) address).2
  | guestWrite va bs => s.guestWrite va bs

/-- **Calls of a guest that behaves**: it passes words and writes into live blocks only. -/
def Proper (s : CoherentHeap) : CoherentCall → Prop
  | alloc size => size < 2 ^ 64
  | free address => address < 2 ^ 64
  | guestWrite va bs =>
    ∃ b ∈ s.heap.liveBlocks, b.address ≤ va ∧ va + bs.length ≤ b.address + b.size

/-- **What is asked of a call.** No live block ends where the large free block begins that an
allocation takes, or where the large block begins that is freed. An address that is freed and is
not live is zero, outside of the heap, or has no size before it. -/
def Keeps (s : CoherentHeap) : CoherentCall → Prop
  | alloc size => LARGE_THRESHOLD < roundUpSize size →
      ∀ p ∈ GuestHeap.findLargeFit s.heap.largeFree (roundUpSize size), s.NoneEnds p.2.address
  | free address =>
      (∀ n ∈ s.heap.live.lookup address, LARGE_THRESHOLD < n → s.NoneEnds address) ∧
      (s.heap.live.lookup address = none → address = 0 ∨ address < s.heap.base ∨
        s.heap.endVa ≤ address ∨ (s.readU64 (CoherentHeap.headerVa address)).getD 0 = 0)
  | guestWrite _ _ => True

end CoherentCall

/-! ### Blocks that do not touch -/

namespace GuestHeap

variable {g g' : GuestHeap} {a n c : ℕ} {b d : MemBlock}

/-- A live or free block with the size of a class, other than one in the large list. -/
def Small (g : GuestHeap) (b : MemBlock) : Prop :=
  (b ∈ g.liveBlocks ∧ b.size ≤ LARGE_THRESHOLD) ∨
    ∃ c < HEAP_SIZE_CLASS_COUNT, b ∈ g.classBlocks c

theorem mem_blocks_of_live (hb : b ∈ g.liveBlocks) : b ∈ g.blocks := List.mem_append_left _ hb

theorem mem_blocks_of_class (hc : c < HEAP_SIZE_CLASS_COUNT) (hb : b ∈ g.classBlocks c) :
    b ∈ g.blocks :=
  List.mem_append_right _ (List.mem_append_left _
    (List.mem_flatMap.mpr ⟨c, List.mem_range.mpr hc, hb⟩))

theorem mem_blocks_of_large (hb : b ∈ g.largeFree) : b ∈ g.blocks :=
  List.mem_append_right _ (List.mem_append_right _ hb)

theorem Small.mem_blocks (hb : g.Small b) : b ∈ g.blocks := by
  rcases hb with ⟨hlive, -⟩ | ⟨c, hc, hcls⟩
  · exact mem_blocks_of_live hlive
  · exact mem_blocks_of_class hc hcls

theorem mem_live_addLive (ha : a ∉ g.live) (hb : b ∈ (g.addLive a n).liveBlocks) :
    b = ⟨a, n⟩ ∨ b ∈ g.liveBlocks := by
  have hentries := AList.entries_insert_of_notMem (b := n) ha
  change b ∈ ((g.live.insert a n).entries.map fun e => (⟨e.1, e.2⟩ : MemBlock)) at hb
  rw [hentries] at hb
  exact List.mem_cons.mp hb

theorem mem_live_dropLive (hb : b ∈ (g.dropLive a).liveBlocks) :
    b ∈ g.liveBlocks ∧ b.address ≠ a := by
  have hlook := mem_liveBlocks.mp hb
  change (g.live.erase a).lookup b.address = some b.size at hlook
  by_cases hba : b.address = a
  · rw [hba, AList.lookup_erase] at hlook
    exact absurd hlook (Option.some_ne_none _).symm
  · rw [AList.lookup_erase_ne hba] at hlook
    exact ⟨mem_liveBlocks.mpr hlook, hba⟩

theorem mem_class_setFree {l : List ℕ} {e : ℕ} (hb : b ∈ (g.setFree c l).classBlocks e) :
    b ∈ g.classBlocks e ∨ e = c ∧ ∃ x ∈ l, b = ⟨x, classSize c⟩ := by
  rw [classBlocks_setFree] at hb
  by_cases he : e = c
  · subst he
    rw [Function.update_self] at hb
    obtain ⟨x, hx, rfl⟩ := List.mem_map.mp hb
    exact .inr ⟨rfl, x, hx, rfl⟩
  · rw [Function.update_of_ne he] at hb
    exact .inl hb

theorem Sound.eq_or_apart (hs : g.Sound) (hb : b ∈ g.blocks) (hd : d ∈ g.blocks) :
    b = d ∨ b.Apart d := by
  by_cases heq : b = d
  · exact .inl heq
  · exact .inr (hs.apart.forall hb hd heq)

/-- **The layout of the region.** Small blocks touch no other block, so that there is room for a
header before them and before what follows them. -/
structure Laid (ctrl : ℕ) (g : GuestHeap) : Prop where
  /-- Blocks do not overlap. -/
  sound : g.Sound
  /-- There is room for a header at the start of the region. -/
  gap : ∀ b ∈ g.blocks, g.base + 8 ≤ b.address
  /-- Small blocks do not touch other blocks. -/
  spaced : ∀ b ∈ g.blocks, ∀ c, g.Small c →
    b.address + b.size ≠ c.address ∧ c.address + c.size ≠ b.address
  /-- The cursor is a word. -/
  bump : g.bump < 2 ^ 64
  /-- The control block ends in the address space. -/
  ctrlHi : ctrl + 200 ≤ 2 ^ 64
  /-- It is outside of the region. -/
  ctrl : g.endVa ≤ ctrl ∨ ctrl + 200 ≤ g.base

/-- **There is room for the header** of a block behind one that does not touch it. -/
theorem Sound.header (hs : g.Sound) (hb : b ∈ g.blocks) (hd : d ∈ g.blocks)
    (hne : d.address + d.size ≠ b.address) :
    b.address ≤ d.address ∨ d.address + d.size + 8 ≤ b.address := by
  rcases hs.eq_or_apart hb hd with rfl | hbd | hdb
  · exact .inl le_rfl
  · exact .inl (Nat.le_of_add_right_le hbd)
  · have h1 := (hs.fits b hb).aligned
    have h2 := (hs.fits d hd).aligned
    have h3 := (hs.fits d hd).size
    omega

/-- A piece of a block touches no small block that the block does not touch. -/
theorem Laid.spaced_piece {ctrl : ℕ} {e : MemBlock} (hl : g.Laid ctrl) (hd : d ∈ g.blocks)
    (he : g.Small e) (hlo : d.address ≤ b.address)
    (hhi : b.address + b.size ≤ d.address + d.size) (hpos : 0 < b.size) :
    b.address + b.size ≠ e.address ∧ e.address + e.size ≠ b.address := by
  obtain ⟨h1, h2⟩ := hl.spaced d hd e he
  have hepos := (hl.sound.fits e he.mem_blocks).pos
  rcases hl.sound.eq_or_apart hd he.mem_blocks with rfl | h | h
  · omega
  · omega
  · omega

/-- **A block that was carved out** keeps the layout. -/
theorem Carved.laid {ctrl : ℕ} (hc : Carved g g' a n) (hl : g.Laid ctrl) (hn : BlockSize n)
    (hbump : g'.bump < 2 ^ 64)
    (hsmall : ∀ b, (g'.addLive a n).Small b → g.Small b ∨ b = ⟨a, n⟩ ∧ g.bump + 8 ≤ a) :
    (g'.addLive a n).Laid ctrl := by
  have hmem : ∀ b, b ∈ (g'.addLive a n).blocks ↔ b ∈ (⟨a, n⟩ :: g'.blocks : List MemBlock) := by
    intro b
    exact (perm_addLive (hc.live ▸ hc.notMem) n).mem_iff
  have hold : ∀ b ∈ g.blocks, b.address + b.size ≤ g.bump := fun b hb =>
    (hl.sound.fits b hb).hi.trans (min_le_left _ _)
  refine ⟨hc.sound hl.sound hn, fun b hb => ?_, fun b hb e he => ?_, hbump, hl.ctrlHi, ?_⟩
  · show g'.base + 8 ≤ b.address
    rw [hc.base]
    rcases hc.pieces b ((hmem b).mp hb) with ⟨d, hd, hlo, -⟩ | ⟨rfl, hlo⟩
    · exact (hl.gap d hd).trans hlo
    · exact (Nat.add_le_add_right hl.sound.bump 8).trans hlo
  · have hpos := (hc.fits b ((hmem b).mp hb)).pos
    rcases hc.pieces b ((hmem b).mp hb) with ⟨d, hd, hlo, hhi⟩ | ⟨rfl, hlo⟩
    · rcases hsmall e he with he | ⟨rfl, hnew⟩
      · exact hl.spaced_piece hd he hlo hhi hpos
      · have := hold d hd
        dsimp only
        omega
    · rcases hsmall e he with he | ⟨rfl, -⟩
      · have := hold e he.mem_blocks
        dsimp only
        omega
      · dsimp only at hpos ⊢
        omega
  · show g'.endVa ≤ ctrl ∨ ctrl + 200 ≤ g'.base
    rw [hc.endVa, hc.base]
    exact hl.ctrl

/-- Blocks that move keep the layout. -/
theorem Laid.moved {ctrl : ℕ} (hl : g.Laid ctrl) (hs : g'.Sound) (hp : g'.blocks.Perm g.blocks)
    (hbase : g'.base = g.base) (hend : g'.endVa = g.endVa) (hbump : g'.bump = g.bump)
    (hsmall : ∀ b, g'.Small b → g.Small b) : g'.Laid ctrl := by
  refine ⟨hs, fun b hb => ?_, fun b hb e he => ?_, hbump ▸ hl.bump, hl.ctrlHi, ?_⟩
  · rw [hbase]
    exact hl.gap b (hp.mem_iff.mp hb)
  · exact hl.spaced b (hp.mem_iff.mp hb) e (hsmall e he)
  · rw [hend, hbase]
    exact hl.ctrl

/-- The header of a small block is beside all blocks. -/
theorem Laid.header_small {ctrl : ℕ} (hl : g.Laid ctrl) (hb : g.Small b) (hd : d ∈ g.blocks) :
    b.address ≤ d.address ∨ d.address + d.size + 8 ≤ b.address :=
  hl.sound.header hb.mem_blocks hd (hl.spaced d hd b hb).1

/-- The header of any block is beside small blocks. -/
theorem Laid.small_header {ctrl : ℕ} (hl : g.Laid ctrl) (hb : b ∈ g.blocks) (hd : g.Small d) :
    b.address ≤ d.address ∨ d.address + d.size + 8 ≤ b.address :=
  hl.sound.header hb hd.mem_blocks (hl.spaced b hb d hd).2

theorem classSize_ge : ∀ c < HEAP_SIZE_CLASS_COUNT, 16 ≤ classSize c := by decide

theorem classSize_mem : ∀ c < HEAP_SIZE_CLASS_COUNT, classSize c ∈ SIZE_CLASSES := by decide

/-- A free block of a class. -/
theorem Small.of_class {x : ℕ} (hc : c < HEAP_SIZE_CLASS_COUNT) (hx : x ∈ g.freeLists c) :
    g.Small ⟨x, classSize c⟩ :=
  .inr ⟨c, hc, List.mem_map.mpr ⟨x, hx, rfl⟩⟩

/-- The control block is beside all blocks. -/
theorem Laid.ctrl_apart {ctrl x : ℕ} (hl : g.Laid ctrl) (hb : b ∈ g.blocks) (hx : ctrl ≤ x)
    (hx' : x + 8 ≤ ctrl + 200) : x + 8 ≤ b.address ∨ b.address + b.size ≤ x := by
  have hfit := hl.sound.fits b hb
  have h1 : b.address + b.size ≤ g.endVa := hfit.hi.trans (min_le_right _ _)
  have h2 := hfit.lo
  rcases hl.ctrl with h | h
  · omega
  · omega

/-- A free block of a class is a word of the region, beside the control block. -/
theorem Laid.node {ctrl x : ℕ} (hl : g.Laid ctrl) (hc : c < HEAP_SIZE_CLASS_COUNT)
    (hx : x ∈ g.freeLists c) : g.base + 8 ≤ x ∧ x + 16 ≤ g.endVa ∧ x < 2 ^ 64 := by
  have hmem := (Small.of_class hc hx).mem_blocks
  have hhi : x + classSize c ≤ g.endVa := (hl.sound.fits _ hmem).hi.trans (min_le_right _ _)
  have hsize := classSize_ge c hc
  have hend := hl.sound.endVa
  exact ⟨hl.gap _ hmem, by omega, by omega⟩

/-- The heap with other lists of classes. -/
def withLists (g : GuestHeap) (f : ℕ → List ℕ) : GuestHeap := { g with freeLists := f }

/-- `bump_alloc` does not look at lists. -/
theorem bumpAlloc_withLists (g : GuestHeap) (f : ℕ → List ℕ) (n : ℕ) :
    (g.withLists f).bumpAlloc n = ((g.bumpAlloc n).1, (g.bumpAlloc n).2.withLists f) := by
  rw [bumpAlloc, bumpAlloc]
  show (match checkedAdd g.bump 8 with
    | none => _
    | some pre => _) = _
  rcases checkedAdd g.bump 8 with - | pre
  · rfl
  · show (if (pre + 15) % 2 ^ 64 / 16 * 16 < g.base then _ else _) = _
    dsimp only
    by_cases hlow : (pre + 15) % 2 ^ 64 / 16 * 16 < g.base
    · rw [if_pos hlow, if_pos hlow]
    · rw [if_neg hlow, if_neg hlow]
      rcases checkedAdd ((pre + 15) % 2 ^ 64 / 16 * 16) n with - | e
      · rfl
      · show (if g.endVa < e then _ else _) = _
        dsimp only
        by_cases hend : g.endVa < e
        · rw [if_pos hend, if_pos hend]
        · rw [if_neg hend, if_neg hend]
          rfl

/-- Nor does `alloc` for large sizes. -/
theorem alloc_withLists (g : GuestHeap) (f : ℕ → List ℕ) {size : ℕ}
    (hlarge : LARGE_THRESHOLD < roundUpSize size) :
    (g.withLists f).alloc size = ((g.alloc size).1, (g.alloc size).2.withLists f) := by
  rw [alloc_large _ hlarge, alloc_large _ hlarge]
  have hsame : (g.withLists f).largeFree = g.largeFree := rfl
  rw [hsame]
  rcases findLargeFit g.largeFree (roundUpSize size) with - | ⟨i, b⟩
  · exact bumpAlloc_withLists g f _
  · rfl

end GuestHeap

/-! ### The lists in guest memory -/

namespace CoherentHeap

open GuestHeap

variable {ctrl a n v : ℕ} {s t : CoherentHeap} {g : GuestHeap} {m : Flat}

/-- **Guest memory holds the cursor and the lists** of a heap. -/
structure HeapWords (ctrl : ℕ) (g : GuestHeap) (m : Flat) : Prop where
  /-- The control block can be written. -/
  rwCtrl : m.Rw ctrl 200
  /-- So can the region. -/
  rwHeap : m.Rw g.base (g.endVa - g.base)
  /-- The cursor. -/
  bump : m.get ctrl 8 = g.bump
  /-- The lists. -/
  lists : ∀ c < HEAP_SIZE_CLASS_COUNT, Linked m (ctrl + 8 + c * 8) (g.freeLists c)

theorem headVa_eq (hl : g.Laid ctrl) {c : ℕ} (hc : c < HEAP_SIZE_CLASS_COUNT) :
    headVa ctrl c = ctrl + 8 + c * 8 := by
  have := hl.ctrlHi
  rw [HEAP_SIZE_CLASS_COUNT] at hc
  exact Nat.mod_eq_of_lt (by omega)

theorem headerVa_eq (h8 : 8 ≤ a) (ha : a < 2 ^ 64) : headerVa a = a - 8 := by
  rw [headerVa]
  omega

/-- Nothing that is written beside the control block and the free blocks changes them. -/
theorem HeapWords.set_of_apart (hw : HeapWords ctrl g m) {va : ℕ}
    (hctrl : ∀ x, ctrl ≤ x → x + 8 ≤ ctrl + 200 → x + 8 ≤ va ∨ va + 8 ≤ x)
    (hnodes : ∀ c < HEAP_SIZE_CLASS_COUNT, ∀ x ∈ g.freeLists c, x + 8 ≤ va ∨ va + 8 ≤ x)
    (v : ℕ) : HeapWords ctrl g (m.set va 8 v) := by
  refine ⟨hw.rwCtrl.congr rfl, hw.rwHeap.congr rfl, ?_, fun c hc => ?_⟩
  · rw [Flat.get_set_of_disjoint (hctrl ctrl le_rfl (by omega))]
    exact hw.bump
  · rw [HEAP_SIZE_CLASS_COUNT] at hc
    exact (hw.lists c hc).set_of_apart (hctrl _ (by omega) (by omega)) (hnodes c hc) v

/-- **A header** is beside the control block. -/
theorem HeapWords.header (hw : HeapWords ctrl g m) (hctrl : g.endVa ≤ ctrl ∨ ctrl + 200 ≤ g.base)
    (hlo : g.base + 8 ≤ a) (hhi : a ≤ g.endVa)
    (hnodes : ∀ c < HEAP_SIZE_CLASS_COUNT, ∀ x ∈ g.freeLists c, a ≤ x ∨ x + 16 ≤ a) (v : ℕ) :
    HeapWords ctrl g (m.set (a - 8) 8 v) := by
  refine hw.set_of_apart (fun x hx hx' => ?_) (fun c hc x hx => ?_) v
  · rcases hctrl with h | h
    · omega
    · omega
  · rcases hnodes c hc x hx with h | h
    · omega
    · omega

/-- **The cursor moves.** -/
theorem HeapWords.setBump (hw : HeapWords ctrl g m) (hl : g.Laid ctrl) {e : ℕ} (he : e < 2 ^ 64) :
    HeapWords ctrl (g.setBump e) (m.set ctrl 8 e) := by
  refine ⟨hw.rwCtrl.congr rfl, hw.rwHeap.congr rfl, Flat.get_set_of_lt he, fun c hc => ?_⟩
  refine (hw.lists c hc).set_of_apart (.inr (by omega)) (fun x hx => ?_) e
  have := hl.ctrl_apart (Small.of_class hc hx).mem_blocks le_rfl (by omega)
  have hsize := classSize_ge c hc
  dsimp only at this
  omega

/-- Lists of two classes have different heads. -/
theorem heads_apart {c d : ℕ} (h : c ≠ d) :
    ctrl + 8 + c * 8 + 8 ≤ ctrl + 8 + d * 8 ∨ ctrl + 8 + d * 8 + 8 ≤ ctrl + 8 + c * 8 := by omega

theorem node_ctrl_apart (hl : g.Laid ctrl) {c x y : ℕ} (hc : c < HEAP_SIZE_CLASS_COUNT)
    (hx : x ∈ g.freeLists c) (hy : ctrl ≤ y) (hy' : y + 8 ≤ ctrl + 200) :
    x + 8 ≤ y ∨ y + 8 ≤ x := by
  have := hl.node hc hx
  rcases hl.ctrl with h | h
  · omega
  · omega

/-- **The head of a list gets the second node.** -/
theorem HeapWords.pop (hw : HeapWords ctrl g m) (hl : g.Laid ctrl) {c : ℕ} {rest : List ℕ}
    (hc : c < HEAP_SIZE_CLASS_COUNT) (hlist : g.freeLists c = a :: rest) :
    HeapWords ctrl (g.setFree c rest) (m.set (ctrl + 8 + c * 8) 8 (m.get a 8)) := by
  have hc24 : c < 24 := hc
  refine ⟨hw.rwCtrl.congr rfl, hw.rwHeap.congr rfl, ?_, fun d hd => ?_⟩
  · rw [Flat.get_set_of_disjoint (.inl (by omega))]
    exact hw.bump
  · by_cases hdc : d = c
    · subst hdc
      have hself : (g.setFree d rest).freeLists d = rest := Function.update_self ..
      have hold := hlist ▸ hw.lists d hd
      rw [hself]
      refine hold.pop fun x hx => ?_
      exact node_ctrl_apart hl hd (hlist ▸ List.mem_cons_of_mem a hx) (by omega) (by omega)
    · have hother : (g.setFree c rest).freeLists d = g.freeLists d := Function.update_of_ne hdc ..
      have hd24 : d < 24 := hd
      rw [hother]
      refine (hw.lists d hd).set_of_apart (heads_apart hdc) (fun x hx => ?_) _
      exact node_ctrl_apart hl hd hx (by omega) (by omega)

/-- **A block goes in front of a list.** -/
theorem HeapWords.push (hw : HeapWords ctrl g m) (hl : g.Laid ctrl) {c : ℕ}
    (hc : c < HEAP_SIZE_CLASS_COUNT) (hlo : g.base ≤ a) (hhi : a + 8 ≤ g.endVa)
    (hnodes : ∀ d < HEAP_SIZE_CLASS_COUNT, ∀ x ∈ g.freeLists d, x + 8 ≤ a ∨ a + 8 ≤ x) :
    HeapWords ctrl (g.setFree c (a :: g.freeLists c))
      ((m.set a 8 (m.get (ctrl + 8 + c * 8) 8)).set (ctrl + 8 + c * 8) 8 a) := by
  have hc24 : c < 24 := hc
  have ha : a < 2 ^ 64 := by
    have := hl.sound.endVa
    omega
  have hctrl : ∀ x, ctrl ≤ x → x + 8 ≤ ctrl + 200 → x + 8 ≤ a ∨ a + 8 ≤ x := by
    intro x hx hx'
    rcases hl.ctrl with h | h
    · omega
    · omega
  refine ⟨hw.rwCtrl.congr rfl, hw.rwHeap.congr rfl, ?_, fun d hd => ?_⟩
  · rw [Flat.get_set_of_disjoint (.inl (by omega)),
      Flat.get_set_of_disjoint (hctrl ctrl le_rfl (by omega))]
    exact hw.bump
  · by_cases hdc : d = c
    · subst hdc
      have hself : (g.setFree d (a :: g.freeLists d)).freeLists d = a :: g.freeLists d :=
        Function.update_self ..
      rw [hself]
      refine (hw.lists d hd).push ha (hctrl _ (by omega) (by omega)) fun x hx => ⟨?_, ?_⟩
      · exact hnodes d hd x hx
      · exact node_ctrl_apart hl hd hx (by omega) (by omega)
    · have hother : (g.setFree c (a :: g.freeLists c)).freeLists d = g.freeLists d :=
        Function.update_of_ne hdc ..
      have hd24 : d < 24 := hd
      rw [hother]
      have hfirst := (hw.lists d hd).set_of_apart (hctrl _ (by omega) (by omega)) (hnodes d hd)
        (m.get (ctrl + 8 + c * 8) 8)
      refine hfirst.set_of_apart (heads_apart hdc) (fun x hx => ?_) a
      exact node_ctrl_apart hl hd hx (by omega) (by omega)

/-! ### What is written -/

/-- **From `s` to `t` nothing was written to the blocks of `l`**, nor to any that were live. -/
structure Spares (l : List MemBlock) (s t : CoherentHeap) : Prop where
  /-- The bytes are the same. -/
  bytes : ∀ b ∈ l, ∀ x, b.address ≤ x → x < b.address + b.size → t.mem.byte x = s.mem.byte x
  /-- New writes are beside all blocks that were live. -/
  writes : ∀ w ∈ t.writes, w ∈ s.writes ∨ w.Outside

theorem Spares.refl (l : List MemBlock) (s : CoherentHeap) : Spares l s s :=
  ⟨fun _ _ _ _ _ => rfl, fun _ hw => .inl hw⟩

theorem Spares.setHeap {l : List MemBlock} (h : Spares l s t) (k : GuestHeap) :
    Spares l s (t.setHeap k) := ⟨h.bytes, h.writes⟩

/-- **A write beside the blocks**, when no others are live. -/
theorem Spares.write {l : List MemBlock} {va : ℕ} (h : Spares l s t)
    (hva : ∀ b ∈ l, va + 8 ≤ b.address ∨ b.address + b.size ≤ va)
    (hlive : ∀ b ∈ t.heap.liveBlocks, b ∈ l) (v : ℕ) : Spares l s (t.writeU64 va v) := by
  constructor
  · intro b hb x hx hx'
    rw [← h.bytes b hb x hx hx']
    show ((t.mem.storeLe va 8 v).getD t.mem).byte x = t.mem.byte x
    rcases hst : t.mem.storeLe va 8 v with - | m'
    · rfl
    · obtain ⟨rfl, -⟩ := Flat.storeLe_eq_some hst
      have hside := hva b hb
      exact Flat.byte_set_of_notMem (by omega)
  · intro w hw
    rcases List.mem_cons.mp hw with rfl | hw
    · refine .inr fun a n han => hva ⟨a, n⟩ (hlive _ ?_)
      exact mem_liveBlocks.mpr han
    · exact h.writes w hw

theorem writeU64_mem {va : ℕ} (h : s.mem.Rw va 8) (v : ℕ) :
    (s.writeU64 va v).mem = s.mem.set va 8 v := by
  show (s.mem.storeLe va 8 v).getD s.mem = _
  rw [h.storeLe]
  rfl

/-! ### The process heap behind it -/

/-- **The coherent heap is the heap `g`** with the lists in guest memory. -/
structure Refines (ctrl : ℕ) (s : CoherentHeap) (g : GuestHeap) : Prop where
  /-- The layout. -/
  laid : g.Laid ctrl
  /-- Guest memory. -/
  words : HeapWords ctrl g s.mem
  /-- The rest of the heap, other than the cursor, is with the host. -/
  heap : s.heap.setBump g.bump = g.withLists s.heap.freeLists

theorem Refines.live (h : Refines ctrl s g) : s.heap.live = g.live := by
  have := congrArg GuestHeap.live h.heap
  exact this

theorem Refines.base (h : Refines ctrl s g) : s.heap.base = g.base := by
  have := congrArg GuestHeap.base h.heap
  exact this

theorem Refines.endVa (h : Refines ctrl s g) : s.heap.endVa = g.endVa := by
  have := congrArg GuestHeap.endVa h.heap
  exact this

theorem Refines.largeFree (h : Refines ctrl s g) : s.heap.largeFree = g.largeFree := by
  have := congrArg GuestHeap.largeFree h.heap
  exact this

theorem Refines.liveBlocks (h : Refines ctrl s g) : s.heap.liveBlocks = g.liveBlocks := by
  have := congrArg GuestHeap.liveBlocks h.heap
  exact this

theorem Refines.rw_ctrl (h : Refines ctrl s g) {x : ℕ} (hx : ctrl ≤ x) (hx' : x + 8 ≤ ctrl + 200) :
    s.mem.Rw x 8 := h.words.rwCtrl.mono hx hx'

theorem Refines.rw_heap (h : Refines ctrl s g) {x : ℕ} (hx : g.base ≤ x) (hx' : x + 8 ≤ g.endVa) :
    s.mem.Rw x 8 := h.words.rwHeap.mono hx (by omega)

/-- The cursor is read from guest memory. -/
theorem Refines.sync (h : Refines ctrl s g) :
    s.syncBumpFromGuest ctrl = s.setHeap (g.withLists s.heap.freeLists) := by
  have hread : s.readU64 ctrl = some g.bump := by
    rw [readU64, (h.rw_ctrl le_rfl (by omega)).loadLe, h.words.bump]
  rw [syncBumpFromGuest, hread]
  exact congrArg s.setHeap h.heap

theorem HeapWords.congr {g' : GuestHeap} (hw : HeapWords ctrl g m) (hbase : g'.base = g.base)
    (hend : g'.endVa = g.endVa) (hbump : g'.bump = g.bump)
    (hlists : g'.freeLists = g.freeLists) : HeapWords ctrl g' m := by
  refine ⟨hw.rwCtrl, ?_, hbump ▸ hw.bump, hlists ▸ hw.lists⟩
  rw [hbase, hend]
  exact hw.rwHeap

/-- **A block that is not from a list** gets its header, and the cursor goes to guest memory. -/
theorem Refines.placed (h : Refines ctrl s g) {k : GuestHeap} (hc : Carved g k a n)
    (hlaid : (k.addLive a n).Laid ctrl) (hlists : k.freeLists = g.freeLists)
    (hnodes : ∀ c < HEAP_SIZE_CLASS_COUNT, ∀ x ∈ g.freeLists c, a ≤ x ∨ x + 16 ≤ a)
    (hclear : ∀ b ∈ (k.addLive a n).liveBlocks,
      a ≤ b.address ∨ b.address + b.size + 8 ≤ a) :
    ∃ t, t = ((s.setHeap ((k.addLive a n).withLists s.heap.freeLists)).writeU64 (headerVa a)
        n).syncBumpToGuest ctrl ∧
      Refines ctrl t (k.addLive a n) ∧ Spares (k.addLive a n).liveBlocks s t := by
  refine ⟨_, rfl, ?_⟩
  have hmem : ⟨a, n⟩ ∈ (k.addLive a n).blocks :=
    (perm_addLive (hc.live ▸ hc.notMem) n).mem_iff.mpr List.mem_cons_self
  have hlo : g.base + 8 ≤ a := by
    rw [← hc.base]
    exact hlaid.gap _ hmem
  have hhi : a + n ≤ g.endVa := by
    rw [← hc.endVa]
    exact (hlaid.sound.fits _ hmem).hi.trans (min_le_right _ _)
  have hend := h.laid.sound.endVa
  have hheader : headerVa a = a - 8 := headerVa_eq (by omega) (by omega)
  rw [hheader]
  -- guest memory after the header, and after the cursor
  have hmem1 : ((s.setHeap ((k.addLive a n).withLists s.heap.freeLists)).writeU64 (a - 8) n).mem =
      s.mem.set (a - 8) 8 n := writeU64_mem (h.rw_heap (by omega) (by omega)) n
  have hrw : ((s.setHeap ((k.addLive a n).withLists s.heap.freeLists)).writeU64 (a - 8)
      n).mem.Rw ctrl 8 := by
    rw [hmem1]
    exact (h.rw_ctrl le_rfl (by omega)).congr rfl
  have hwords : HeapWords ctrl (k.addLive a n) ((s.mem.set (a - 8) 8 n).set ctrl 8 k.bump) :=
    ((h.words.header h.laid.ctrl hlo (by omega) hnodes n).setBump h.laid hlaid.bump).congr hc.base
      hc.endVa rfl hlists
  constructor
  · refine ⟨hlaid, ?_, rfl⟩
    show HeapWords ctrl _ (writeU64 _ ctrl k.bump).mem
    rw [writeU64_mem hrw, hmem1]
    exact hwords
  · have hset := (Spares.refl (k.addLive a n).liveBlocks s).setHeap
      ((k.addLive a n).withLists s.heap.freeLists)
    refine (hset.write (fun b hb => ?_) (fun b hb => hb) n).write (fun b hb => ?_)
      (fun b hb => hb) k.bump
    · rcases hclear b hb with hb' | hb'
      · exact .inl (by omega)
      · exact .inr (by omega)
    · exact hlaid.ctrl_apart (mem_blocks_of_live hb) le_rfl (by omega)

/-- **A block behind the cursor.** -/
theorem Refines.bump (h : Refines ctrl s g) (hlo : g.bump + 8 ≤ a) (hhi : a + n ≤ g.endVa)
    (ha : a % 16 = 0) (hn : n % 16 = 0) (h0 : 0 < n) (hblock : BlockSize n) :
    ∃ t, t = ((s.setHeap (((g.setBump (a + n)).addLive a n).withLists
        s.heap.freeLists)).writeU64 (headerVa a) n).syncBumpToGuest ctrl ∧
      Refines ctrl t ((g.setBump (a + n)).addLive a n) ∧
      Spares ((g.setBump (a + n)).addLive a n).liveBlocks s t := by
  have hc := h.laid.sound.extend hlo hhi ha hn h0
  have hbump : a + n < 2 ^ 64 := hhi.trans_lt h.laid.sound.endVa
  have hold : ∀ b ∈ g.blocks, b.address + b.size + 8 ≤ a := by
    intro b hb
    have := (h.laid.sound.fits b hb).hi.trans (min_le_left _ _)
    omega
  have hlaid := hc.laid h.laid hblock hbump fun b hb => by
    rcases hb with ⟨hlive, hsmall⟩ | hcls
    · rcases mem_live_addLive hc.notMem hlive with rfl | hlive
      · exact .inr ⟨rfl, hlo⟩
      · exact .inl (.inl ⟨hlive, hsmall⟩)
    · exact .inl (.inr hcls)
  refine h.placed hc hlaid rfl (fun c hcc x hx => .inr ?_) (fun b hb => ?_)
  · have h1 := hold _ (Small.of_class hcc hx).mem_blocks
    have h2 := classSize_ge c hcc
    dsimp only at h1
    omega
  · rcases mem_live_addLive hc.notMem hb with rfl | hb
    · exact .inl le_rfl
    · exact .inr (hold b (mem_blocks_of_live hb))

/-- **A large block from the list**, when no live block ends where it begins. -/
theorem Refines.cut {i : ℕ} {b : MemBlock} (h : Refines ctrl s g) (hb : g.largeFree[i]? = some b)
    (hle : n ≤ b.size) (hn : n % 16 = 0) (hlarge : LARGE_THRESHOLD < n)
    (hkeep : s.NoneEnds b.address) :
    ∃ t, t = ((s.setHeap (((g.setLarge (swapRemove g.largeFree i ++ residual b n)).addLive b.address
        n).withLists s.heap.freeLists)).writeU64 (headerVa b.address) n).syncBumpToGuest ctrl ∧
      Refines ctrl t ((g.setLarge (swapRemove g.largeFree i ++ residual b n)).addLive b.address n) ∧
      Spares ((g.setLarge (swapRemove g.largeFree i ++ residual b n)).addLive b.address
        n).liveBlocks s t := by
  have hc := h.laid.sound.cut hb hle hn (Nat.zero_lt_of_lt hlarge)
  have hmem : b ∈ g.blocks := mem_blocks_of_large (List.mem_of_getElem? hb)
  have hlaid := hc.laid h.laid (.inr hlarge) h.laid.bump fun d hd => by
    rcases hd with ⟨hlive, hsmall⟩ | hcls
    · rcases mem_live_addLive hc.notMem hlive with rfl | hlive
      · exact absurd hlarge hsmall.not_gt
      · exact .inl (.inl ⟨hlive, hsmall⟩)
    · exact .inl (.inr hcls)
  refine h.placed hc hlaid rfl (fun c hcc x hx => ?_) (fun d hd => ?_)
  · have hsize := classSize_ge c hcc
    have hside := h.laid.small_header hmem (Small.of_class hcc hx)
    dsimp only at hside
    omega
  · rcases mem_live_addLive hc.notMem hd with rfl | hd
    · exact .inl le_rfl
    · refine h.laid.sound.header hmem (mem_blocks_of_live hd) (hkeep d ?_)
      rw [h.liveBlocks]
      exact hd

/-! ### `alloc_coherent` -/

/-- **The front block of a list** gets its header, and the head its link. -/
theorem Refines.pop (h : Refines ctrl s g) {c : ℕ} {rest : List ℕ}
    (hc : c < HEAP_SIZE_CLASS_COUNT) (hlist : g.freeLists c = a :: rest) :
    ∃ t, t = ((s.writeU64 (headVa ctrl c) (s.mem.get a 8)).writeU64 (headerVa a)
        (classSize c)).setHeap (s.heap.addLive a (classSize c)) ∧
      Refines ctrl t ((g.setFree c rest).addLive a (classSize c)) ∧
      Spares ((g.setFree c rest).addLive a (classSize c)).liveBlocks s t := by
  refine ⟨_, rfl, ?_⟩
  have hc24 : c < 24 := hc
  have ha : a ∈ g.freeLists c := hlist ▸ List.mem_cons_self
  have hsmall := Small.of_class hc ha
  obtain ⟨hlo, hhi, h64⟩ := h.laid.node hc ha
  have hcarved := h.laid.sound.pop hc hlist
  have hsub : ∀ d, ∀ x ∈ (g.setFree c rest).freeLists d, x ∈ g.freeLists d := by
    intro d x hx
    by_cases hd : d = c
    · subst hd
      rw [show (g.setFree d rest).freeLists d = rest from Function.update_self ..] at hx
      exact hlist ▸ List.mem_cons_of_mem a hx
    · rwa [show (g.setFree c rest).freeLists d = g.freeLists d from
        Function.update_of_ne hd ..] at hx
  have hclass := classSize_mem c hc
  have hlaid := hcarved.laid h.laid (.inl hclass) h.laid.bump fun b hb => .inl <| by
    rcases hb with ⟨hlive, hle⟩ | ⟨d, hd, hcls⟩
    · rcases mem_live_addLive hcarved.notMem hlive with rfl | hlive
      · exact hsmall
      · exact .inl ⟨hlive, hle⟩
    · obtain ⟨x, hx, rfl⟩ := List.mem_map.mp hcls
      exact .of_class hd (hsub d x hx)
  have hmem : ⟨a, classSize c⟩ ∈ ((g.setFree c rest).addLive a (classSize c)).liveBlocks :=
    mem_liveBlocks.mpr (AList.lookup_insert _)
  rw [headVa_eq h.laid hc, headerVa_eq (by omega) h64]
  -- guest memory after the head, and after the header
  have hmem1 : (s.writeU64 (ctrl + 8 + c * 8) (s.mem.get a 8)).mem =
      s.mem.set (ctrl + 8 + c * 8) 8 (s.mem.get a 8) :=
    writeU64_mem (h.rw_ctrl (by omega) (by omega)) _
  have hrw : (s.writeU64 (ctrl + 8 + c * 8) (s.mem.get a 8)).mem.Rw (a - 8) 8 := by
    rw [hmem1]
    exact (h.rw_heap (by omega) (by omega)).congr rfl
  have hwords := (h.words.pop h.laid hc hlist).header h.laid.ctrl hlo (by
    show a ≤ g.endVa
    omega) (fun d hd x hx => by
      have hside := h.laid.header_small hsmall (Small.of_class hd (hsub d x hx)).mem_blocks
      have hsize := classSize_ge d hd
      dsimp only at hside
      omega) (classSize c)
  constructor
  · refine ⟨hlaid, ?_, ?_⟩
    · show HeapWords ctrl _ (writeU64 _ (a - 8) (classSize c)).mem
      rw [writeU64_mem hrw, hmem1]
      exact hwords.congr rfl rfl rfl rfl
    · exact congrArg (·.addLive a (classSize c)) h.heap
  · have hsub' : ∀ b ∈ g.liveBlocks,
        b ∈ ((g.setFree c rest).addLive a (classSize c)).liveBlocks := by
      intro b hb
      refine mem_liveBlocks.mpr ?_
      have hne : b.address ≠ a := fun heq =>
        hcarved.notMem (AList.lookup_isSome.mp (heq ▸ mem_liveBlocks.mp hb ▸ rfl))
      exact (AList.lookup_insert_ne hne).trans (mem_liveBlocks.mp hb)
    refine Spares.setHeap (((Spares.refl _ s).write (fun b hb => ?_) (fun b hb => ?_) _).write
      (fun b hb => ?_) (fun b hb => ?_) _) _
    · exact hlaid.ctrl_apart (mem_blocks_of_live hb) (by omega) (by omega)
    · exact hsub' b (h.liveBlocks ▸ hb)
    · have hside := hlaid.header_small (.inl ⟨hmem, (sizeClasses_spec _ hclass).2.2.2⟩)
        (mem_blocks_of_live hb)
      dsimp only at hside
      omega
    · exact hsub' b (h.liveBlocks ▸ hb)

/-- What a call answers and leaves, next to what the process heap answers and leaves. -/
def Serves (ctrl : ℕ) (s : CoherentHeap) (p : ℕ × CoherentHeap) (q : ℕ × GuestHeap) : Prop :=
  p.1 = q.1 ∧ Refines ctrl p.2 q.2 ∧ Spares q.2.liveBlocks s p.2

/-- The end of an allocation that is not served from a list. -/
def finish (ctrl : ℕ) (s : CoherentHeap) (q : ℕ × GuestHeap) (n : ℕ) : ℕ × CoherentHeap :=
  let t := s.setHeap (q.2.withLists s.heap.freeLists)
  if q.1 ≠ 0 then (q.1, (t.writeU64 (headerVa q.1) n).syncBumpToGuest ctrl) else (q.1, t)

theorem Refines.finish_zero (h : Refines ctrl s g) (n : ℕ) :
    Serves ctrl s (finish ctrl s (0, g) n) (0, g) :=
  ⟨rfl, ⟨h.laid, h.words, rfl⟩, (Spares.refl _ s).setHeap _⟩

/-- Behind the cursor. -/
theorem Refines.finish_bump (h : Refines ctrl s g) (hn : n % 16 = 0) (h0 : 0 < n)
    (hblock : BlockSize n) : Serves ctrl s (finish ctrl s (g.bumpAlloc n) n) (g.bumpAlloc n) := by
  rcases bumpAlloc_cases h.laid.sound n with ⟨heq, -⟩ | ⟨a, hlo, ha, hhi, heq⟩
  · rw [heq]
    exact h.finish_zero n
  · obtain ⟨t, rfl, href, hspares⟩ := h.bump hlo hhi ha hn h0 hblock
    have hne : a ≠ 0 := by omega
    rw [heq, finish, if_pos hne]
    exact ⟨rfl, href, hspares⟩

/-- **Sizes of classes**: from the list, or behind the cursor. -/
theorem Refines.allocSmall (h : Refines ctrl s g) (hn : n ∈ SIZE_CLASSES) :
    Serves ctrl s (s.allocSmall ctrl n) (match g.freeLists (sizeClassIndex n) with
      | a :: rest => (a, (g.setFree (sizeClassIndex n) rest).addLive a n)
      | [] => g.bumpAlloc n) := by
  obtain ⟨hclass, h16, hpos, -⟩ := sizeClasses_spec n hn
  have hc := sizeClassIndex_lt n
  have hc24 : sizeClassIndex n < 24 := hc
  have hread : s.readU64 (headVa ctrl (sizeClassIndex n)) =
      some (s.mem.get (ctrl + 8 + sizeClassIndex n * 8) 8) := by
    rw [readU64, headVa_eq h.laid hc, (h.rw_ctrl (by omega) (by omega)).loadLe]
  have hlinked := h.words.lists _ hc
  rw [CoherentHeap.allocSmall]
  dsimp only
  rw [hread]
  rcases hlist : g.freeLists (sizeClassIndex n) with - | ⟨a, rest⟩
  · -- an empty list has a zero head
    have hhead : s.mem.get (ctrl + 8 + sizeClassIndex n * 8) 8 = 0 := by
      rw [hlist] at hlinked
      exact hlinked
    rw [hhead, Option.filter_some_neg (by simp), h.sync]
    have hbump : (s.setHeap (g.withLists s.heap.freeLists)).heap.bumpAlloc n =
        ((g.bumpAlloc n).1, (g.bumpAlloc n).2.withLists s.heap.freeLists) :=
      bumpAlloc_withLists g s.heap.freeLists n
    dsimp only
    rw [hbump]
    exact h.finish_bump h16 hpos (.inl hn)
  · have hhead : s.mem.get (ctrl + 8 + sizeClassIndex n * 8) 8 = a := by
      rw [hlist] at hlinked
      exact hlinked.1
    have ha : a ∈ g.freeLists (sizeClassIndex n) := hlist ▸ List.mem_cons_self
    obtain ⟨hlo, hhi, h64⟩ := h.laid.node hc ha
    have hin : a ≠ 0 ∧ s.heap.base ≤ a ∧ a < s.heap.endVa := by
      rw [h.base, h.endVa]
      omega
    have hnext : s.readU64 a = some (s.mem.get a 8) := (h.rw_heap (by omega) (by omega)).loadLe
    obtain ⟨t, ht, href, hspares⟩ := h.pop hc hlist
    rw [hclass] at ht href hspares
    rw [hhead, Option.filter_some_pos (by exact decide_eq_true hin)]
    dsimp only
    rw [hnext]
    refine ⟨rfl, ?_, ?_⟩
    · exact ht ▸ href
    · exact ht ▸ hspares

/-- The size that is written is the one that was recorded. -/
theorem Refines.allocLarge_eq (h : Refines ctrl s g) {size : ℕ}
    (hlarge : LARGE_THRESHOLD < roundUpSize size)
    (hlook : (g.alloc size).1 ≠ 0 →
      (g.alloc size).2.live.lookup (g.alloc size).1 = some (roundUpSize size)) :
    s.allocLarge ctrl size = finish ctrl s (g.alloc size) (roundUpSize size) := by
  have hstep : (s.setHeap (g.withLists s.heap.freeLists)).heap.alloc size =
      ((g.alloc size).1, (g.alloc size).2.withLists s.heap.freeLists) :=
    alloc_withLists g s.heap.freeLists hlarge
  rw [CoherentHeap.allocLarge, h.sync]
  dsimp only
  rw [hstep, finish]
  by_cases hne : (g.alloc size).1 ≠ 0
  · rw [if_pos hne, if_pos hne]
    show (_, syncBumpToGuest (match (g.alloc size).2.live.lookup (g.alloc size).1 with
      | some sz => _
      | none => _) ctrl) = _
    rw [hlook hne]
    rfl
  · rw [if_neg hne, if_neg hne]
    rfl

/-- **Larger sizes**: from the large list, or behind the cursor. -/
theorem Refines.allocLarge (h : Refines ctrl s g) {size : ℕ} (hsize : size < 2 ^ 64)
    (hlarge : LARGE_THRESHOLD < roundUpSize size)
    (hkeep : ∀ p ∈ findLargeFit s.heap.largeFree (roundUpSize size), s.NoneEnds p.2.address) :
    Serves ctrl s (s.allocLarge ctrl size) (g.alloc size) := by
  obtain ⟨-, h16, hblock⟩ := roundUpSize_spec hsize (Nat.ne_of_gt (Nat.zero_lt_of_lt hlarge))
  have hpos : 0 < roundUpSize size := Nat.zero_lt_of_lt hlarge
  have hcase := alloc_large g hlarge
  rcases hfit : findLargeFit g.largeFree (roundUpSize size) with - | ⟨i, b⟩
  · have hbump : g.alloc size = g.bumpAlloc (roundUpSize size) := by rw [hcase, hfit]
    rw [h.allocLarge_eq hlarge, hbump]
    · exact h.finish_bump h16 hpos hblock
    · intro hne
      rw [hbump] at hne ⊢
      rcases bumpAlloc_cases h.laid.sound (roundUpSize size) with ⟨heq, -⟩ | ⟨a, -, -, -, heq⟩
      · exact absurd (congrArg Prod.fst heq) hne
      · rw [heq]
        exact AList.lookup_insert _
  · have htake : g.alloc size = (b.address, (g.setLarge (swapRemove g.largeFree i ++
        residual b (roundUpSize size))).addLive b.address (roundUpSize size)) := by
      rw [hcase, hfit]
    obtain ⟨hb, hneed⟩ := findLargeFit_spec hfit
    have hends : s.NoneEnds b.address := by
      refine hkeep (i, b) ?_
      rw [h.largeFree]
      exact hfit
    have hne : b.address ≠ 0 := by
      have := h.laid.gap b (mem_blocks_of_large (List.mem_of_getElem? hb))
      omega
    obtain ⟨t, rfl, href, hspares⟩ := h.cut hb hneed h16 hlarge hends
    rw [h.allocLarge_eq hlarge, htake, finish, if_pos hne]
    · exact ⟨rfl, href, hspares⟩
    · intro _
      rw [htake]
      exact AList.lookup_insert _

/-- **`alloc_coherent` is `alloc`**, and nothing is written to what is live afterwards. -/
theorem Refines.alloc (h : Refines ctrl s g) {size : ℕ} (hsize : size < 2 ^ 64)
    (hkeep : CoherentCall.Keeps s (.alloc size)) :
    Serves ctrl s (s.allocCoherent (some ctrl) size) (g.alloc size) := by
  by_cases hzero : size = 0
  · rw [allocCoherent, GuestHeap.alloc, if_pos hzero, if_pos hzero]
    exact ⟨rfl, h, .refl _ s⟩
  by_cases hround : roundUpSize size = 0
  · have hs : s.allocCoherent (some ctrl) size = (0, s) := by
      rw [allocCoherent, if_neg hzero]
      exact if_pos hround
    have hg : g.alloc size = (0, g) := by
      rw [GuestHeap.alloc, if_neg hzero]
      exact if_pos hround
    rw [hs, hg]
    exact ⟨rfl, h, .refl _ s⟩
  by_cases hsmall : roundUpSize size ≤ LARGE_THRESHOLD
  · have hs : s.allocCoherent (some ctrl) size = s.allocSmall ctrl (roundUpSize size) := by
      rw [allocCoherent, if_neg hzero]
      exact (if_neg hround).trans (if_pos hsmall)
    have hclass := (roundUpSize_spec hsize hround).2.2.resolve_right hsmall.not_gt
    rw [hs, alloc_small g hzero hround hsmall]
    exact h.allocSmall hclass
  · have hs : s.allocCoherent (some ctrl) size = s.allocLarge ctrl size := by
      rw [allocCoherent, if_neg hzero]
      exact (if_neg hround).trans (if_neg hsmall)
    rw [hs]
    exact h.allocLarge hsize (not_le.mp hsmall) (hkeep (not_le.mp hsmall))

/-! ### `free_coherent` -/

/-- A live block is beside the other live blocks and all free ones. -/
theorem apart_of_live (hl : g.Laid ctrl) (hlook : g.live.lookup a = some n) {b : MemBlock}
    (hb : b ∈ (g.dropLive a).blocks) : a + n ≤ b.address ∨ b.address + b.size ≤ a :=
  (MemBlock.pairwise_cons.mp
    (MemBlock.pairwise_perm hl.sound.apart (perm_dropLive hlook))).1 b hb

/-- The layout after a small block was freed. -/
theorem laid_free_small (hl : g.Laid ctrl) (hlook : g.live.lookup a = some n)
    (hsmall : n ≤ LARGE_THRESHOLD) :
    ((g.dropLive a).setFree (sizeClassIndex n) (a :: g.freeLists (sizeClassIndex n))).Laid
      ctrl := by
  have hblock := hl.sound.sizes a n hlook
  have hperm := perm_free_small hblock hsmall hlook
  refine hl.moved ?_ hperm rfl rfl rfl fun b hb => ?_
  · exact hl.sound.of_perm hperm hl.sound.apart hl.sound.fits rfl rfl le_rfl
      (hl.sound.sizes_dropLive a)
  · rcases hb with ⟨hb, hle⟩ | ⟨d, hd, hb⟩
    · exact .inl ⟨(mem_live_dropLive hb).1, hle⟩
    · rcases mem_class_setFree hb with hb | ⟨rfl, x, hx, rfl⟩
      · exact .inr ⟨d, hd, hb⟩
      · rcases List.mem_cons.mp hx with rfl | hx
        · rw [(sizeClasses_spec n (hblock.resolve_right hsmall.not_gt)).1]
          exact .inl ⟨mem_liveBlocks.mpr hlook, hsmall⟩
        · exact .of_class hd hx

/-- The header of a small block is beside the lists, also with the block in front of its list. -/
theorem nodes_push (hl : g.Laid ctrl) (hsmall : g.Small ⟨a, n⟩) {c : ℕ} :
    ∀ d < HEAP_SIZE_CLASS_COUNT, ∀ x ∈ (g.setFree c (a :: g.freeLists c)).freeLists d,
      a ≤ x ∨ x + 16 ≤ a := by
  intro d hd x hx
  have hold : x ∈ g.freeLists d → a ≤ x ∨ x + 16 ≤ a := by
    intro hx
    have hside := hl.header_small hsmall (Small.of_class hd hx).mem_blocks
    have hsize := classSize_ge d hd
    dsimp only at hside
    omega
  by_cases hdc : d = c
  · subst hdc
    rw [show (g.setFree d (a :: g.freeLists d)).freeLists d = a :: g.freeLists d from
      Function.update_self ..] at hx
    rcases List.mem_cons.mp hx with rfl | hx
    · exact .inl le_rfl
    · exact hold hx
  · rw [show (g.setFree c (a :: g.freeLists c)).freeLists d = g.freeLists d from
      Function.update_of_ne hdc ..] at hx
    exact hold hx

theorem Refines.liveBlocks_dropLive (h : Refines ctrl s g) (a : ℕ) :
    (s.heap.dropLive a).liveBlocks = (g.dropLive a).liveBlocks := by
  have := congrArg (fun k : GuestHeap => (k.dropLive a).liveBlocks) h.heap
  exact this

/-- **A small block** goes in front of its list. -/
theorem Refines.free_small (h : Refines ctrl s g) (hlook : g.live.lookup a = some n)
    (hsmall : n ≤ LARGE_THRESHOLD) :
    ∃ t, t = (((s.setHeap (s.heap.dropLive a)).writeU64 a
        (s.mem.get (ctrl + 8 + sizeClassIndex n * 8) 8)).writeU64
          (headVa ctrl (sizeClassIndex n)) a).writeU64 (headerVa a) 0 ∧
      Refines ctrl t ((g.dropLive a).setFree (sizeClassIndex n)
        (a :: g.freeLists (sizeClassIndex n))) ∧ Spares (g.dropLive a).liveBlocks s t := by
  refine ⟨_, rfl, ?_⟩
  have hc := sizeClassIndex_lt n
  have hc24 : sizeClassIndex n < 24 := hc
  have hclass := (sizeClasses_spec n ((h.laid.sound.sizes a n hlook).resolve_right
    hsmall.not_gt)).1
  have hn : 16 ≤ n := hclass ▸ classSize_ge _ hc
  have hblock : g.Small ⟨a, n⟩ := .inl ⟨mem_liveBlocks.mpr hlook, hsmall⟩
  have hlo : g.base + 8 ≤ a := h.laid.gap _ hblock.mem_blocks
  have hhi : a + n ≤ g.endVa :=
    (h.laid.sound.fits _ hblock.mem_blocks).hi.trans (min_le_right _ _)
  have hend := h.laid.sound.endVa
  have hnodes : ∀ d < HEAP_SIZE_CLASS_COUNT, ∀ x ∈ g.freeLists d, x + 8 ≤ a ∨ a + 8 ≤ x := by
    intro d hd x hx
    have hmem : ⟨x, classSize d⟩ ∈ (g.dropLive a).blocks :=
      mem_blocks_of_class hd (List.mem_map.mpr ⟨x, hx, rfl⟩)
    have hside := apart_of_live h.laid hlook hmem
    have hsize := classSize_ge d hd
    dsimp only at hside
    omega
  rw [headVa_eq h.laid hc, headerVa_eq (by omega) (by omega)]
  -- guest memory after the link, the head and the header
  have hmem1 : ((s.setHeap (s.heap.dropLive a)).writeU64 a
      (s.mem.get (ctrl + 8 + sizeClassIndex n * 8) 8)).mem =
        s.mem.set a 8 (s.mem.get (ctrl + 8 + sizeClassIndex n * 8) 8) :=
    writeU64_mem (h.rw_heap (by omega) (by omega)) _
  have hrw1 : ((s.setHeap (s.heap.dropLive a)).writeU64 a
      (s.mem.get (ctrl + 8 + sizeClassIndex n * 8) 8)).mem.Rw
        (ctrl + 8 + sizeClassIndex n * 8) 8 := by
    rw [hmem1]
    exact (h.rw_ctrl (by omega) (by omega)).congr rfl
  have hmem2 := writeU64_mem hrw1 a
  rw [hmem1] at hmem2
  have hrw2 : (((s.setHeap (s.heap.dropLive a)).writeU64 a
      (s.mem.get (ctrl + 8 + sizeClassIndex n * 8) 8)).writeU64
        (ctrl + 8 + sizeClassIndex n * 8) a).mem.Rw (a - 8) 8 := by
    rw [hmem2]
    exact (h.rw_heap (by omega) (by omega)).congr rfl
  have hpush := h.words.push h.laid hc (Nat.le_of_add_right_le hlo) (by omega) hnodes
  have hwords := hpush.header h.laid.ctrl hlo (Nat.le_of_add_right_le hhi)
    (nodes_push h.laid hblock) 0
  constructor
  · refine ⟨laid_free_small h.laid hlook hsmall, ?_, congrArg (·.dropLive a) h.heap⟩
    rw [writeU64_mem hrw2, hmem2]
    exact hwords.congr rfl rfl rfl rfl
  · have hset := (Spares.refl (g.dropLive a).liveBlocks s).setHeap (s.heap.dropLive a)
    have hsub : ∀ b ∈ (s.heap.dropLive a).liveBlocks, b ∈ (g.dropLive a).liveBlocks :=
      fun b hb => h.liveBlocks_dropLive a ▸ hb
    refine ((hset.write (fun b hb => ?_) hsub _).write (fun b hb => ?_) hsub _).write
      (fun b hb => ?_) hsub _
    · have hside := apart_of_live h.laid hlook (mem_blocks_of_live hb)
      omega
    · exact h.laid.ctrl_apart (mem_blocks_of_live (mem_live_dropLive hb).1) (by omega) (by omega)
    · have hside := h.laid.header_small hblock (mem_blocks_of_live (mem_live_dropLive hb).1)
      dsimp only at hside
      omega

/-- **A large block** goes to the large list, when no live block ends where it begins. -/
theorem Refines.free_large (h : Refines ctrl s g) (hlook : g.live.lookup a = some n)
    (hlarge : LARGE_THRESHOLD < n) (hkeep : s.NoneEnds a) :
    ∃ t, t = ((s.setHeap (s.heap.dropLive a)).setHeap ((s.heap.dropLive a).setLarge
        (s.heap.largeFree ++ [⟨a, n⟩]))).writeU64 (headerVa a) 0 ∧
      Refines ctrl t ((g.dropLive a).setLarge (g.largeFree ++ [⟨a, n⟩])) ∧
      Spares (g.dropLive a).liveBlocks s t := by
  refine ⟨_, rfl, ?_⟩
  have hmem : ⟨a, n⟩ ∈ g.blocks := mem_blocks_of_live (mem_liveBlocks.mpr hlook)
  have hlo : g.base + 8 ≤ a := h.laid.gap _ hmem
  have hhi : a + n ≤ g.endVa := (h.laid.sound.fits _ hmem).hi.trans (min_le_right _ _)
  have hend := h.laid.sound.endVa
  have hperm := perm_free_large hlook
  have hsound := h.laid.sound.of_perm hperm h.laid.sound.apart h.laid.sound.fits rfl rfl le_rfl
    (h.laid.sound.sizes_dropLive a)
  have hlaid := h.laid.moved hsound hperm rfl rfl rfl fun b hb => by
    rcases hb with ⟨hb, hle⟩ | hb
    · exact .inl ⟨(mem_live_dropLive hb).1, hle⟩
    · exact .inr hb
  have hnodes : ∀ d < HEAP_SIZE_CLASS_COUNT, ∀ x ∈ g.freeLists d, a ≤ x ∨ x + 16 ≤ a := by
    intro d hd x hx
    have hside := h.laid.small_header hmem (Small.of_class hd hx)
    have hsize := classSize_ge d hd
    dsimp only at hside
    omega
  rw [headerVa_eq (by omega) (by omega)]
  have hwords := h.words.header h.laid.ctrl hlo (Nat.le_of_add_right_le hhi) hnodes 0
  have hwritten : (((s.setHeap (s.heap.dropLive a)).setHeap ((s.heap.dropLive a).setLarge
      (s.heap.largeFree ++ [⟨a, n⟩]))).writeU64 (a - 8) 0).mem = s.mem.set (a - 8) 8 0 :=
    writeU64_mem (h.rw_heap (by omega) (by omega)) 0
  constructor
  · refine ⟨hlaid, ?_, ?_⟩
    · rw [hwritten]
      exact hwords.congr rfl rfl rfl rfl
    · rw [← h.largeFree]
      have := congrArg (fun k : GuestHeap => (k.dropLive a).setLarge
        (s.heap.largeFree ++ [⟨a, n⟩])) h.heap
      exact this
  · have hset := ((Spares.refl (g.dropLive a).liveBlocks s).setHeap (s.heap.dropLive a)).setHeap
      ((s.heap.dropLive a).setLarge (s.heap.largeFree ++ [⟨a, n⟩]))
    refine hset.write (fun b hb => ?_) (fun b hb => h.liveBlocks_dropLive a ▸ hb) 0
    have hb := (mem_live_dropLive hb).1
    have hside := h.laid.sound.header hmem (mem_blocks_of_live hb)
      (hkeep b (h.liveBlocks ▸ hb))
    dsimp only at hside
    omega

/-- **`free_coherent` is `free`**, and nothing is written to what stays live. -/
theorem Refines.free (h : Refines ctrl s g)
    (hkeep : CoherentCall.Keeps s (.free a)) :
    Refines ctrl (s.freeCoherent (some ctrl) a).2 (g.free a).2 ∧
      Spares (g.free a).2.liveBlocks s (s.freeCoherent (some ctrl) a).2 := by
  by_cases h0 : a = 0
  · rw [freeCoherent, GuestHeap.free, if_pos h0, if_pos h0]
    exact ⟨h, .refl _ s⟩
  have hlive : s.heap.live.lookup a = g.live.lookup a := by rw [h.live]
  rcases hlook : g.live.lookup a with - | n
  · have hg : g.free a = (false, g) := by
      rw [GuestHeap.free, if_neg h0, hlook]
    have hs : s.freeCoherent (some ctrl) a = (false, s) := by
      rw [freeCoherent, if_neg h0, hlive, hlook]
      dsimp only
      by_cases hin : s.heap.base ≤ a ∧ a < s.heap.endVa
      · rw [if_pos hin]
        have hzero := hkeep.2 (hlive.trans hlook)
        rcases hread : s.readU64 (headerVa a) with - | size
        · rfl
        · have hsize : size = 0 := by
            rcases hzero with hz | hz | hz | hz
            · exact absurd hz h0
            · exact absurd hin.1 hz.not_ge
            · exact absurd hin.2 hz.not_gt
            · rwa [hread] at hz
          exact if_neg (not_not.mpr hsize)
      · exact if_neg hin
    rw [hs, hg]
    exact ⟨h, .refl _ s⟩
  · have hn0 : n ≠ 0 := by
      have := (h.laid.sound.of_live hlook).pos
      exact Nat.ne_of_gt this
    have hs : s.freeCoherent (some ctrl) a =
        (s.setHeap (s.heap.dropLive a)).freeKnownBlock ctrl a n := by
      rw [freeCoherent, if_neg h0, hlive, hlook]
    rw [hs, free_of_live h.laid.sound hlook, freeKnownBlock, if_neg hn0]
    by_cases hsmall : n ≤ LARGE_THRESHOLD
    · obtain ⟨t, rfl, href, hspares⟩ := h.free_small hlook hsmall
      have hc24 : sizeClassIndex n < 24 := sizeClassIndex_lt n
      have hread : (s.setHeap (s.heap.dropLive a)).readU64 (headVa ctrl (sizeClassIndex n)) =
          some (s.mem.get (ctrl + 8 + sizeClassIndex n * 8) 8) := by
        rw [headVa_eq h.laid (sizeClassIndex_lt n)]
        exact (h.rw_ctrl (by omega) (by omega)).loadLe
      rw [if_pos hsmall, if_neg hsmall.not_gt]
      dsimp only
      rw [hread]
      exact ⟨href, hspares⟩
    · obtain ⟨t, rfl, href, hspares⟩ := h.free_large hlook (not_le.mp hsmall)
        (hkeep.1 n (hlive.trans hlook) (not_le.mp hsmall))
      rw [if_neg hsmall, if_pos (not_le.mp hsmall)]
      exact ⟨href, hspares⟩

/-! ### Runs -/

/-- **The guest writes into a live block.** -/
theorem Refines.guestWrite (h : Refines ctrl s g) {va : ℕ} {bs : List UInt8}
    (hproper : CoherentCall.Proper s (.guestWrite va bs)) :
    Refines ctrl (s.guestWrite va bs) g := by
  obtain ⟨b, hb, hlo, hhi⟩ := hproper
  rw [h.liveBlocks] at hb
  refine ⟨h.laid, ?_, h.heap⟩
  show HeapWords ctrl g ((s.mem.store va bs).getD s.mem)
  rcases hst : s.mem.store va bs with - | m'
  · exact h.words
  · obtain ⟨rfl, -⟩ := Flat.store_eq_some hst
    have hsame : ∀ x, (x + 8 ≤ b.address ∨ b.address + b.size ≤ x) →
        (s.mem.put va bs).get x 8 = s.mem.get x 8 := by
      intro x hx
      exact Flat.get_congr fun y hy hy' => Flat.byte_put_of_notMem (by omega)
    have hctrl : ∀ x, ctrl ≤ x → x + 8 ≤ ctrl + 200 →
        (s.mem.put va bs).get x 8 = s.mem.get x 8 := fun x hx hx' =>
      hsame x (h.laid.ctrl_apart (mem_blocks_of_live hb) hx hx')
    refine ⟨h.words.rwCtrl.congr rfl, h.words.rwHeap.congr rfl, ?_, fun c hc => ?_⟩
    · exact (hctrl ctrl le_rfl (by omega)).trans h.words.bump
    · have hc24 : c < 24 := hc
      refine (h.words.lists c hc).of_head (hctrl _ (by omega) (by omega)) fun x hx => hsame x ?_
      have hmem : ⟨x, classSize c⟩ ∈ (g.dropLive b.address).blocks :=
        mem_blocks_of_class hc (List.mem_map.mpr ⟨x, hx, rfl⟩)
      have hside := apart_of_live h.laid (mem_liveBlocks.mp hb) hmem
      have hsize := classSize_ge c hc
      dsimp only at hside
      omega

/-- The control block before the first call: mapped, zeroed but for the cursor, and outside of the
mapped region. -/
structure Attached (ctrl : ℕ) (s : CoherentHeap) : Prop where
  /-- The heap is new. -/
  heap : s.heap = .new s.heap.base s.heap.endVa
  /-- There is nothing at zero. -/
  pos : 0 < s.heap.base
  /-- The region starts in the address space. -/
  base : s.heap.base < 2 ^ 64
  /-- It ends there too. -/
  endVa : s.heap.endVa < 2 ^ 64
  /-- So does the control block. -/
  ctrlHi : ctrl + 200 ≤ 2 ^ 64
  /-- It is outside of the region. -/
  apart : s.heap.endVa ≤ ctrl ∨ ctrl + 200 ≤ s.heap.base
  /-- It can be written. -/
  rwCtrl : s.mem.Rw ctrl 200
  /-- So can the region. -/
  rwHeap : s.mem.Rw s.heap.base (s.heap.endVa - s.heap.base)
  /-- The cursor. -/
  bump : s.mem.get ctrl 8 = s.heap.base
  /-- Empty lists. -/
  heads : ∀ c < HEAP_SIZE_CLASS_COUNT, s.mem.get (ctrl + 8 + c * 8) 8 = 0
  /-- Nothing was written yet. -/
  writes : s.writes = []

theorem Attached.refines (h : Attached ctrl s) : Refines ctrl s s.heap := by
  have hblocks : s.heap.blocks = [] := by
    rw [h.heap]
    rfl
  have hsmall : ∀ b, ¬ s.heap.Small b := fun b hb => by
    have := hb.mem_blocks
    rw [hblocks] at this
    exact List.not_mem_nil this
  refine ⟨⟨?_, fun b hb => ?_, fun _ _ e he => absurd he (hsmall e), ?_, h.ctrlHi, h.apart⟩,
    ⟨h.rwCtrl, h.rwHeap, ?_, fun c hc => ?_⟩, rfl⟩
  · rw [h.heap]
    exact .new h.pos h.endVa
  · rw [hblocks] at hb
    exact absurd hb List.not_mem_nil
  · rw [h.heap]
    exact h.base
  · rw [h.bump, h.heap]
    rfl
  · have hlist : s.heap.freeLists c = [] := by
      rw [h.heap]
      rfl
    rw [hlist]
    exact h.heads c hc

end CoherentHeap

/-- The states that calls lead to which meet a condition. -/
def CoherentReach (ctrl : ℕ) (ok : CoherentHeap → CoherentCall → Prop) : CoherentHeap → Prop :=
  GuardedReach (CoherentHeap.Attached ctrl) (fun s c => c.Proper s ∧ ok s c)
    fun s c s' => s' = c.run ctrl s

namespace CoherentHeap

open GuestHeap

variable {ctrl : ℕ} {s : CoherentHeap} {g : GuestHeap}

/-- **One call**: there is a process heap behind what it leaves, and a call of the heap spares what
is live afterwards. -/
theorem Refines.run (h : Refines ctrl s g) {c : CoherentCall} (hp : c.Proper s) (hk : c.Keeps s) :
    ∃ g', Refines ctrl (c.run ctrl s) g' ∧
      (∀ w ∈ (c.run ctrl s).writes, w ∈ s.writes ∨ w.Outside) ∧
      ((∀ va bs, c ≠ .guestWrite va bs) →
        Spares (c.run ctrl s).heap.liveBlocks s (c.run ctrl s)) := by
  cases c with
  | alloc size =>
    obtain ⟨-, href, hspares⟩ := h.alloc hp hk
    refine ⟨_, href, hspares.writes, fun _ => ?_⟩
    show Spares (s.allocCoherent (some ctrl) size).2.heap.liveBlocks s _
    rw [href.liveBlocks]
    exact hspares
  | free address =>
    obtain ⟨href, hspares⟩ := h.free hk
    refine ⟨_, href, hspares.writes, fun _ => ?_⟩
    show Spares (s.freeCoherent (some ctrl) address).2.heap.liveBlocks s _
    rw [href.liveBlocks]
    exact hspares
  | guestWrite va bs =>
    exact ⟨g, h.guestWrite hp, fun w hw => .inl hw, fun hne => absurd rfl (hne va bs)⟩

/-- **Every run** has a process heap behind it and writes beside live blocks. -/
theorem refines_of_reach (hr : CoherentReach ctrl (fun s c => c.Keeps s) s) :
    (∃ g, Refines ctrl s g) ∧ ∀ w ∈ s.writes, w.Outside := by
  refine GuardedReach.invariant
    (I := fun s => (∃ g, Refines ctrl s g) ∧ ∀ w ∈ s.writes, w.Outside) ?_ ?_ hr
  · intro s hs
    refine ⟨⟨_, hs.refines⟩, ?_⟩
    rw [hs.writes]
    exact fun w hw => absurd hw List.not_mem_nil
  · rintro s c _ ⟨⟨g, h⟩, hout⟩ ⟨hp, hk⟩ rfl
    obtain ⟨g', h', hw, -⟩ := h.run hp hk
    exact ⟨⟨g', h'⟩, fun w hw' => (hw w hw').elim (hout w) id⟩

end CoherentHeap

namespace CoherentCall

/-- The call is one of the heap. -/
def OfHeap : CoherentCall → Prop
  | guestWrite _ _ => False
  | _ => True

instance (s : CoherentHeap) : ∀ c, Decidable (Proper s c)
  | alloc size => inferInstanceAs (Decidable (size < 2 ^ 64))
  | free address => inferInstanceAs (Decidable (address < 2 ^ 64))
  | guestWrite va bs => inferInstanceAs (Decidable
      (∃ b ∈ s.heap.liveBlocks, b.address ≤ va ∧ va + bs.length ≤ b.address + b.size))

instance (s : CoherentHeap) (a : ℕ) : Decidable (s.NoneEnds a) :=
  inferInstanceAs (Decidable (∀ b ∈ s.heap.liveBlocks, b.address + b.size ≠ a))

instance (s : CoherentHeap) : ∀ c, Decidable (Keeps s c)
  | alloc size => inferInstanceAs (Decidable (LARGE_THRESHOLD < roundUpSize size →
      ∀ p ∈ GuestHeap.findLargeFit s.heap.largeFree (roundUpSize size), s.NoneEnds p.2.address))
  | free address => inferInstanceAs (Decidable
      ((∀ n ∈ s.heap.live.lookup address, LARGE_THRESHOLD < n → s.NoneEnds address) ∧
      (s.heap.live.lookup address = none → address = 0 ∨ address < s.heap.base ∨
        s.heap.endVa ≤ address ∨ (s.readU64 (CoherentHeap.headerVa address)).getD 0 = 0)))
  | guestWrite _ _ => .isTrue trivial

end CoherentCall

/-- **Metadata never lands in a live payload**: whatever the heap has written so far was beside the
blocks that were live, and its next call leaves alone the bytes of all that is live after it. -/
def MetadataOutside (ctrl : ℕ) (ok : CoherentHeap → CoherentCall → Prop) (s : CoherentHeap) :
    Prop :=
  (∀ w ∈ s.writes, w.Outside) ∧
    ∀ c : CoherentCall, c.OfHeap → c.Proper s → ok s c →
      ∀ b ∈ (c.run ctrl s).heap.liveBlocks, ∀ x, b.address ≤ x → x < b.address + b.size →
        (c.run ctrl s).mem.byte x = s.mem.byte x

/-- **In every run whose calls meet the condition** metadata stays outside of live payloads. -/
theorem metadata_outside {ctrl : ℕ} {s : CoherentHeap}
    (hr : CoherentReach ctrl (fun s c => c.Keeps s) s) :
    MetadataOutside ctrl (fun s c => c.Keeps s) s := by
  obtain ⟨⟨g, h⟩, hout⟩ := CoherentHeap.refines_of_reach hr
  refine ⟨hout, fun c hc hp hk => ?_⟩
  obtain ⟨g', -, -, hspares⟩ := h.run hp hk
  refine (hspares ?_).bytes
  rintro va bs rfl
  exact hc

/-- A heap of a megabyte, with its control block behind it. -/
def megabyteHeap : CoherentHeap := ⟨.new 4096 1052672, Flat.blank.set 2097152 8 4096, []⟩

theorem megabyteHeap_attached : megabyteHeap.Attached 2097152 where
  heap := rfl
  pos := by decide
  base := by decide
  endVa := by decide
  ctrlHi := by decide
  apart := by decide
  rwCtrl := fun _ _ _ => rfl
  rwHeap := fun _ _ _ => rfl
  bump := Flat.get_set_of_lt (by decide)
  heads := by decide +kernel
  writes := rfl

/-- Two small blocks and a large one that is freed and taken again whole. -/
theorem metadata_outside_whole :
    MetadataOutside 2097152 (fun s c => c.Keeps s)
      (([.alloc 100, .alloc 200000, .guestWrite 4112 [1, 2, 3], .free 4256, .alloc 150000,
        .free 4112, .free 4112, .alloc 128] : List CoherentCall).foldl
          (CoherentCall.run 2097152) megabyteHeap) :=
  metadata_outside (GuardedReach.foldl (by decide +kernel) (.init megabyteHeap_attached))

/-- **A large block that is cut in two** has the header of its second part in the first. -/
theorem not_metadata_outside :
    ¬ ∀ (ctrl : ℕ) (s : CoherentHeap), CoherentReach ctrl (fun _ _ => True) s →
      MetadataOutside ctrl (fun _ _ => True) s := by
  intro h
  have hout := (h 2097152 (([.alloc 200000, .free 4112, .alloc 70000, .alloc 120000] :
    List CoherentCall).foldl (CoherentCall.run 2097152) megabyteHeap)
    (GuardedReach.foldl (by decide +kernel) (.init megabyteHeap_attached))).1
  have hwrite : ∃ w ∈ (([.alloc 200000, .free 4112, .alloc 70000, .alloc 120000] :
      List CoherentCall).foldl (CoherentCall.run 2097152) megabyteHeap).writes,
      w.va = 74104 ∧ w.live.lookup 4112 = some 70000 := by decide +kernel
  obtain ⟨w, hw, hva, hlive⟩ := hwrite
  have := hout w hw 4112 70000 hlive
  omega

end Wie
