import Mathlib.Data.List.GetD
import Wie.Lib.Blocks
import Wie.Lib.Reach
import Wie.Lib.Word

/-!
# The process heap

A heap hands out blocks of an address range. Small blocks have one of a few sizes and go to a list
of their size when they are freed, large ones go to a list of their own, and what was never handed
out lies behind a cursor. A large free block that is much too large is cut in two.

Every block is in one place: it is live, or in the list of its class, or in the large list. Each
operation moves one block from place to place, cuts one or takes a new one from the cursor, and so
no two blocks ever have an address in common.

## Main definitions

* `GuestHeap` — the heap
* `GuestHeap.alloc`, `GuestHeap.free`, `GuestHeap.tryReallocInPlace` — the operations
* `GuestHeap.blocks` — all blocks, wherever they are

## Main results

* `GuestHeap.alloc_cases`, `GuestHeap.free_cases` — what the operations can do
* `GuestHeap.Sound.run` — they keep blocks apart
* `heap_discipline` — what callers may count on
-/

namespace Wie

/-- Number of size classes. -/
def HEAP_SIZE_CLASS_COUNT : ℕ := 24

/-- Size classes in bytes. -/
def SIZE_CLASSES : List ℕ :=
  [16, 32, 48, 64, 96, 128, 192, 256, 384, 512, 768, 1024, 1536, 2048, 3072, 4096, 6144, 8192,
    12288, 16384, 24576, 32768, 49152, 65536]

/-- Blocks above this size go to the large list. -/
def LARGE_THRESHOLD : ℕ := 65536

/-- `size_class_index`: the smallest class that fits. -/
def sizeClassIndex (size : ℕ) : ℕ :=
  min (SIZE_CLASSES.findIdx fun classSize => decide (size ≤ classSize)) (HEAP_SIZE_CLASS_COUNT - 1)

/-- The size of a class. -/
def classSize (i : ℕ) : ℕ := SIZE_CLASSES.getD i 0

/-- `round_up_size`: the sum of the second branch wraps. -/
def roundUpSize (size : ℕ) : ℕ :=
  let size := max size 1
  if size ≤ LARGE_THRESHOLD then classSize (sizeClassIndex size)
  else (size + 15) % 2 ^ 64 / 16 * 16

/-- The heap. Lists of classes have the block that was freed last in front. -/
structure GuestHeap where
  /-- First address of the region. -/
  base : ℕ
  /-- Where the region ends. -/
  endVa : ℕ
  /-- Where unused space begins. -/
  bump : ℕ
  /-- Free blocks of each class. -/
  freeLists : ℕ → List ℕ
  /-- Free large blocks. -/
  largeFree : List MemBlock
  /-- Allocations and their sizes. -/
  live : AList fun _ : ℕ => ℕ

namespace GuestHeap

/-- `new`. -/
def new (base endVa : ℕ) : GuestHeap := ⟨base, endVa, base, fun _ => [], [], ∅⟩

/-- The heap with another list of a class. -/
def setFree (h : GuestHeap) (c : ℕ) (l : List ℕ) : GuestHeap :=
  { h with freeLists := Function.update h.freeLists c l }

/-- The heap with another large list. -/
def setLarge (h : GuestHeap) (l : List MemBlock) : GuestHeap := { h with largeFree := l }

/-- The heap with one more allocation. -/
def addLive (h : GuestHeap) (address size : ℕ) : GuestHeap :=
  { h with live := h.live.insert address size }

/-- The heap without an allocation. -/
def dropLive (h : GuestHeap) (address : ℕ) : GuestHeap := { h with live := h.live.erase address }

/-- The heap with the cursor elsewhere. -/
def setBump (h : GuestHeap) (bump : ℕ) : GuestHeap := { h with bump := bump }

/-- `bump_alloc`: an eight-byte gap for a size, then the block. -/
def bumpAlloc (h : GuestHeap) (rounded : ℕ) : ℕ × GuestHeap :=
  match checkedAdd h.bump 8 with
  | none => (0, h)
  | some pre =>
    let payload := (pre + 15) % 2 ^ 64 / 16 * 16
    if payload < h.base then (0, h)
    else
      match checkedAdd payload rounded with
      | none => (0, h)
      | some e =>
        if h.endVa < e then (0, h)
        else (payload, (h.setBump e).addLive payload rounded)

/-- One turn of the loop of `find_large_fit`. -/
def fitTurn (need : ℕ) (best : Option (ℕ × MemBlock)) (b : MemBlock × ℕ) : Option (ℕ × MemBlock) :=
  if need ≤ b.1.size then
    match best with
    | none => some (b.2, b.1)
    | some (_, c) => if b.1.size < c.size then some (b.2, b.1) else best
  else best

/-- `find_large_fit`: the first of the smallest blocks that are large enough. -/
def findLargeFit (largeFree : List MemBlock) (need : ℕ) : Option (ℕ × MemBlock) :=
  largeFree.zipIdx.foldl (fitTurn need) none

/-- What is left of a large block from which `rounded` bytes are taken, if it is worth keeping. -/
def residual (block : MemBlock) (rounded : ℕ) : List MemBlock :=
  if satAdd rounded LARGE_THRESHOLD ≤ block.size then
    let address := satAdd block.address rounded
    let size := block.size - rounded
    if block.address < address ∧ 16 ≤ size then [⟨address, size⟩] else []
  else []

/-- `alloc`: zero when there is no room. -/
def alloc (h : GuestHeap) (size : ℕ) : ℕ × GuestHeap :=
  if size = 0 then (0, h)
  else
    let rounded := roundUpSize size
    if rounded = 0 then (0, h)
    else if rounded ≤ LARGE_THRESHOLD then
      let c := sizeClassIndex rounded
      match h.freeLists c with
      | address :: rest => (address, (h.setFree c rest).addLive address rounded)
      | [] => h.bumpAlloc rounded
    else
      match findLargeFit h.largeFree rounded with
      | some (i, block) =>
        (block.address, (h.setLarge (swapRemove h.largeFree i ++ residual block rounded)).addLive
          block.address rounded)
      | none => h.bumpAlloc rounded

/-- `free`: whether the address was live. -/
def free (h : GuestHeap) (address : ℕ) : Bool × GuestHeap :=
  if address = 0 then (false, h)
  else
    match h.live.lookup address with
    | none => (false, h)
    | some size =>
      let h := h.dropLive address
      if size ≤ LARGE_THRESHOLD then
        let c := sizeClassIndex size
        (true, h.setFree c (address :: h.freeLists c))
      else (true, h.setLarge (h.largeFree ++ [⟨address, size⟩]))

/-- `try_realloc_in_place`: the address again when its block is large enough. -/
def tryReallocInPlace (h : GuestHeap) (address newSize : ℕ) : Option ℕ × GuestHeap :=
  match h.live.lookup address with
  | none => (none, h)
  | some oldSize =>
    let rounded := roundUpSize newSize
    if rounded = 0 then (none, h)
    else if rounded ≤ oldSize then (some address, h)
    else (none, h)

/-- The live blocks. -/
def liveBlocks (h : GuestHeap) : List MemBlock := h.live.entries.map fun e => ⟨e.1, e.2⟩

/-- The free blocks of a class. -/
def classBlocks (h : GuestHeap) (c : ℕ) : List MemBlock :=
  (h.freeLists c).map fun a => ⟨a, classSize c⟩

/-- All blocks. -/
def blocks (h : GuestHeap) : List MemBlock :=
  h.liveBlocks ++ ((List.range HEAP_SIZE_CLASS_COUNT).flatMap h.classBlocks ++ h.largeFree)

/-! ### What each container does to the blocks -/

variable {h : GuestHeap} {a n c i : ℕ} {rest : List ℕ}

theorem classBlocks_setFree (h : GuestHeap) (c : ℕ) (l : List ℕ) :
    (h.setFree c l).classBlocks =
      Function.update h.classBlocks c (l.map fun a => ⟨a, classSize c⟩) := by
  funext d
  by_cases hd : d = c
  · subst hd
    rw [Function.update_self]
    show (Function.update h.freeLists d l d).map _ = _
    rw [Function.update_self]
  · rw [Function.update_of_ne hd]
    show (Function.update h.freeLists c l d).map _ = _
    rw [Function.update_of_ne hd]
    rfl

/-- One more free block of a class. -/
theorem perm_push (hc : c < HEAP_SIZE_CLASS_COUNT) (h : GuestHeap) (a : ℕ) :
    (h.setFree c (a :: h.freeLists c)).blocks.Perm (⟨a, classSize c⟩ :: h.blocks) := by
  have hp := perm_flatMap_update (f := h.classBlocks) List.nodup_range (List.mem_range.mpr hc)
    ⟨a, classSize c⟩
  have hcls : (h.setFree c (a :: h.freeLists c)).classBlocks =
      Function.update h.classBlocks c (⟨a, classSize c⟩ :: h.classBlocks c) :=
    classBlocks_setFree h c _
  show (h.liveBlocks ++ (_ ++ h.largeFree)).Perm _
  rw [hcls]
  exact ((hp.append_right h.largeFree).append_left h.liveBlocks).trans List.perm_middle

/-- One free block of a class less. -/
theorem perm_pop (hc : c < HEAP_SIZE_CLASS_COUNT) (hl : h.freeLists c = a :: rest) :
    h.blocks.Perm (⟨a, classSize c⟩ :: (h.setFree c rest).blocks) := by
  have hp := perm_push hc (h.setFree c rest) a
  have heq : (h.setFree c rest).setFree c (a :: (h.setFree c rest).freeLists c) = h := by
    have hself : (h.setFree c rest).freeLists c = rest := Function.update_self ..
    rw [hself, setFree, setFree, Function.update_idem, ← hl, Function.update_eq_self]
  rwa [heq] at hp

/-- One more allocation. -/
theorem perm_addLive (ha : a ∉ h.live) (n : ℕ) :
    (h.addLive a n).blocks.Perm (⟨a, n⟩ :: h.blocks) := by
  have hp := (perm_entries_insert ha n).map fun e : Sigma fun _ : ℕ => ℕ => (⟨e.1, e.2⟩ : MemBlock)
  exact hp.append_right _

/-- One allocation less. -/
theorem perm_dropLive (ha : h.live.lookup a = some n) :
    h.blocks.Perm (⟨a, n⟩ :: (h.dropLive a).blocks) := by
  have hp := (perm_entries_erase ha).map fun e : Sigma fun _ : ℕ => ℕ => (⟨e.1, e.2⟩ : MemBlock)
  exact hp.append_right _

/-- Another large list. -/
theorem perm_setLarge (h : GuestHeap) (l : List MemBlock) :
    (h.setLarge l).blocks.Perm (l ++ (h.setLarge []).blocks) := by
  show (h.liveBlocks ++ ((List.range HEAP_SIZE_CLASS_COUNT).flatMap h.classBlocks ++ l)).Perm
    (l ++ (h.liveBlocks ++ ((List.range HEAP_SIZE_CLASS_COUNT).flatMap h.classBlocks ++ [])))
  rw [List.append_nil, ← List.append_assoc]
  exact List.perm_append_comm

/-- One large free block less. -/
theorem perm_swap {b : MemBlock} (hb : h.largeFree[i]? = some b) :
    h.blocks.Perm (b :: (h.setLarge (swapRemove h.largeFree i)).blocks) := by
  have h1 := perm_setLarge h h.largeFree
  have h2 := perm_setLarge h (swapRemove h.largeFree i)
  have h3 := (perm_swapRemove hb).append_right (h.setLarge []).blocks
  exact h1.trans (h3.trans (h2.symm.cons b))

/-! ### Sizes -/

theorem sizeClasses_spec : ∀ n ∈ SIZE_CLASSES,
    classSize (sizeClassIndex n) = n ∧ n % 16 = 0 ∧ 0 < n ∧ n ≤ LARGE_THRESHOLD := by decide

theorem sizeClassIndex_lt (n : ℕ) : sizeClassIndex n < HEAP_SIZE_CLASS_COUNT :=
  lt_of_le_of_lt (min_le_right _ _) (by decide)

/-- **The class of a small size** is large enough. -/
theorem classSize_spec (hn : n ≤ LARGE_THRESHOLD) :
    classSize (sizeClassIndex n) ∈ SIZE_CLASSES ∧ n ≤ classSize (sizeClassIndex n) := by
  have hlen : SIZE_CLASSES.findIdx (fun s => decide (n ≤ s)) < SIZE_CLASSES.length :=
    List.findIdx_lt_length_of_exists ⟨65536, by decide, decide_eq_true hn⟩
  have hidx : sizeClassIndex n = SIZE_CLASSES.findIdx fun s => decide (n ≤ s) := by
    have h24 : SIZE_CLASSES.length = 24 := rfl
    rw [sizeClassIndex, HEAP_SIZE_CLASS_COUNT]
    omega
  have hget : classSize (sizeClassIndex n) = SIZE_CLASSES[SIZE_CLASSES.findIdx fun s =>
      decide (n ≤ s)] := by
    rw [hidx, classSize, List.getD_eq_getElem _ _ hlen]
  rw [hget]
  exact ⟨List.getElem_mem hlen, of_decide_eq_true (List.findIdx_getElem (w := hlen))⟩

/-- A size that blocks have: that of a class, or a large one. -/
def BlockSize (n : ℕ) : Prop := n ∈ SIZE_CLASSES ∨ LARGE_THRESHOLD < n

/-- **Rounding up**: a size that is not zero is that of a block and large enough. -/
theorem roundUpSize_spec (hn : n < 2 ^ 64) (h0 : roundUpSize n ≠ 0) :
    n ≤ roundUpSize n ∧ roundUpSize n % 16 = 0 ∧ BlockSize (roundUpSize n) := by
  by_cases hsmall : max n 1 ≤ LARGE_THRESHOLD
  · have hr : roundUpSize n = classSize (sizeClassIndex (max n 1)) := if_pos hsmall
    obtain ⟨hmem, hle⟩ := classSize_spec hsmall
    rw [hr]
    exact ⟨le_trans (le_max_left n 1) hle, (sizeClasses_spec _ hmem).2.1, .inl hmem⟩
  · have hr : roundUpSize n = (max n 1 + 15) % 2 ^ 64 / 16 * 16 := if_neg hsmall
    rw [hr] at h0 ⊢
    rw [LARGE_THRESHOLD] at hsmall
    refine ⟨by omega, by omega, .inr ?_⟩
    rw [LARGE_THRESHOLD]
    omega

/-! ### The invariant -/

/-- A block of the region below `hi`. -/
structure Fits (lo hi : ℕ) (b : MemBlock) : Prop where
  /-- It is not below the region. -/
  lo : lo ≤ b.address
  /-- It ends in it. -/
  hi : b.address + b.size ≤ hi
  /-- It is aligned. -/
  aligned : b.address % 16 = 0
  /-- Its size is a multiple of the alignment. -/
  size : b.size % 16 = 0
  /-- It is not empty. -/
  pos : 0 < b.size

theorem Fits.mono {lo hi hi' : ℕ} {b : MemBlock} (h : Fits lo hi b) (hhi : hi ≤ hi') :
    Fits lo hi' b := ⟨h.lo, h.hi.trans hhi, h.aligned, h.size, h.pos⟩

/-- **What holds between operations.** -/
structure Sound (h : GuestHeap) : Prop where
  /-- There is nothing at zero. -/
  base : 0 < h.base
  /-- The region ends in the address space. -/
  endVa : h.endVa < 2 ^ 64
  /-- The cursor is in the region. -/
  bump : h.base ≤ h.bump
  /-- Blocks do not overlap. -/
  apart : h.blocks.Pairwise MemBlock.Apart
  /-- They lie in the used part of the region. -/
  fits : ∀ b ∈ h.blocks, Fits h.base (min h.bump h.endVa) b
  /-- Live blocks have sizes that blocks have. -/
  sizes : ∀ a n, h.live.lookup a = some n → BlockSize n

/-- Blocks that moved. -/
theorem Sound.of_perm {h h' : GuestHeap} (hs : h.Sound) {l : List MemBlock}
    (hp : h'.blocks.Perm l) (hapart : l.Pairwise MemBlock.Apart)
    (hfits : ∀ b ∈ l, Fits h.base (min h'.bump h.endVa) b) (hbase : h'.base = h.base)
    (hend : h'.endVa = h.endVa) (hbump : h.bump ≤ h'.bump)
    (hsizes : ∀ a n, h'.live.lookup a = some n → BlockSize n) : h'.Sound where
  base := hbase ▸ hs.base
  endVa := hend ▸ hs.endVa
  bump := by
    rw [hbase]
    exact hs.bump.trans hbump
  apart := MemBlock.pairwise_perm hapart hp.symm
  fits b hb := by
    rw [hbase, hend]
    exact hfits b (hp.mem_iff.mp hb)
  sizes := hsizes

theorem mem_liveBlocks {b : MemBlock} :
    b ∈ h.liveBlocks ↔ h.live.lookup b.address = some b.size := by
  constructor
  · intro hb
    obtain ⟨e, he, rfl⟩ := List.mem_map.mp hb
    exact AList.mem_lookup_iff.mpr he
  · intro hb
    exact List.mem_map.mpr ⟨⟨b.address, b.size⟩, AList.mem_lookup_iff.mp hb, rfl⟩

/-- A block apart from the others is not live. -/
theorem notMem_live {b : MemBlock} (hpos : 0 < b.size) (hfits : ∀ c ∈ h.blocks, 0 < c.size)
    (hb : ∀ c ∈ h.blocks, b.Apart c) : b.address ∉ h.live := by
  intro ha
  obtain ⟨n, hn⟩ := Option.isSome_iff_exists.mp (AList.lookup_isSome.mpr ha)
  have hmem : ⟨b.address, n⟩ ∈ h.blocks := List.mem_append_left _ (mem_liveBlocks.mpr hn)
  have hn0 : 0 < n := hfits _ hmem
  rcases hb _ hmem with hc | hc
  · change b.address + b.size ≤ b.address at hc
    omega
  · change b.address + n ≤ b.address at hc
    omega

theorem sizes_addLive (hs : ∀ a n, h.live.lookup a = some n → BlockSize n) (hn : BlockSize n) :
    ∀ b m, (h.addLive a n).live.lookup b = some m → BlockSize m := by
  intro b m hm
  change (h.live.insert a n).lookup b = some m at hm
  by_cases hb : b = a
  · subst hb
    rw [AList.lookup_insert] at hm
    obtain rfl := Option.some.inj hm
    exact hn
  · rw [AList.lookup_insert_ne hb] at hm
    exact hs b m hm

/-- A block of the heap `h` that is in no place of the heap `g`. -/
structure Carved (h g : GuestHeap) (a n : ℕ) : Prop where
  /-- The allocations are the same. -/
  live : g.live = h.live
  /-- So is the start of the region. -/
  base : g.base = h.base
  /-- So is its end. -/
  endVa : g.endVa = h.endVa
  /-- The cursor only moves up. -/
  bump : h.bump ≤ g.bump
  /-- The block is apart from those in `g`. -/
  apart : (⟨a, n⟩ :: g.blocks).Pairwise MemBlock.Apart
  /-- All of them are in the region. -/
  fits : ∀ b ∈ (⟨a, n⟩ :: g.blocks : List MemBlock), Fits h.base (min g.bump h.endVa) b
  /-- Each is a piece of an old block, unless the new block lies behind the cursor. -/
  pieces : ∀ b ∈ (⟨a, n⟩ :: g.blocks : List MemBlock),
    (∃ d ∈ h.blocks, d.address ≤ b.address ∧ b.address + b.size ≤ d.address + d.size) ∨
      (b = ⟨a, n⟩ ∧ h.bump + 8 ≤ a)

theorem Carved.notMem {g : GuestHeap} (hc : Carved h g a n) : a ∉ h.live := by
  rw [← hc.live]
  have hpos : ∀ b ∈ (⟨a, n⟩ :: g.blocks : List MemBlock), 0 < b.size :=
    fun b hb => (hc.fits b hb).pos
  exact notMem_live (hpos _ List.mem_cons_self) (fun b hb => hpos b (List.mem_cons_of_mem _ hb))
    (MemBlock.pairwise_cons.mp hc.apart).1

/-- **A carved block can be made live.** -/
theorem Carved.sound {g : GuestHeap} (hc : Carved h g a n) (hs : h.Sound) (hn : BlockSize n) :
    (g.addLive a n).Sound := by
  have ha : a ∉ g.live := hc.live ▸ hc.notMem
  refine hs.of_perm (perm_addLive ha n) hc.apart hc.fits hc.base hc.endVa hc.bump ?_
  exact sizes_addLive (hc.live ▸ hs.sizes) hn

/-- The block in front of the list of a class. -/
theorem Sound.pop (hs : h.Sound) (hc : c < HEAP_SIZE_CLASS_COUNT)
    (hl : h.freeLists c = a :: rest) : Carved h (h.setFree c rest) a (classSize c) where
  live := rfl
  base := rfl
  endVa := rfl
  bump := le_rfl
  apart := MemBlock.pairwise_perm hs.apart (perm_pop hc hl)
  fits b hb := hs.fits b ((perm_pop hc hl).mem_iff.mpr hb)
  pieces b hb := .inl ⟨b, (perm_pop hc hl).mem_iff.mpr hb, le_rfl, le_rfl⟩

/-- A new block behind the cursor. -/
theorem Sound.extend (hs : h.Sound) (hlo : h.bump + 8 ≤ a) (hhi : a + n ≤ h.endVa)
    (ha : a % 16 = 0) (hn : n % 16 = 0) (h0 : 0 < n) : Carved h (h.setBump (a + n)) a n where
  live := rfl
  base := rfl
  endVa := rfl
  bump := by
    show h.bump ≤ a + n
    omega
  apart := by
    refine MemBlock.pairwise_cons.mpr ⟨fun b hb => .inr ?_, hs.apart⟩
    exact (hs.fits b hb).hi.trans ((min_le_left _ _).trans (Nat.le_of_add_right_le hlo))
  fits b hb := by
    have hbase : h.base ≤ a := hs.bump.trans (Nat.le_of_add_right_le hlo)
    rcases List.mem_cons.mp hb with rfl | hb
    · exact ⟨hbase, le_min le_rfl hhi, ha, hn, h0⟩
    · exact (hs.fits b hb).mono (le_min ((min_le_left _ _).trans (by show h.bump ≤ a + n; omega))
        (min_le_right _ _))
  pieces b hb := by
    rcases List.mem_cons.mp hb with rfl | hb
    · exact .inr ⟨rfl, hlo⟩
    · exact .inl ⟨b, hb, le_rfl, le_rfl⟩

/-- What is left of a block ends where the block did. -/
theorem residual_eq {b : MemBlock} (hb : b.address + b.size < 2 ^ 64) (h16 : b.size % 16 = 0)
    (h0 : 0 < n) : residual b n = [] ∨ n + LARGE_THRESHOLD ≤ b.size ∧
      residual b n = [⟨b.address + n, b.size - n⟩] := by
  by_cases hr : satAdd n LARGE_THRESHOLD ≤ b.size
  · have hn : n + LARGE_THRESHOLD ≤ b.size := by
      rw [satAdd] at hr
      omega
    have haddr : satAdd b.address n = b.address + n := satAdd_of_lt (by omega)
    have hkeep : b.address < b.address + n ∧ 16 ≤ b.size - n := by
      rw [LARGE_THRESHOLD] at hn
      omega
    refine .inr ⟨hn, ?_⟩
    rw [residual, if_pos hr]
    simp only [haddr]
    exact if_pos hkeep
  · exact .inl (if_neg hr)

/-- A large block, whole or cut in two. -/
theorem Sound.cut {b : MemBlock} (hs : h.Sound) (hb : h.largeFree[i]? = some b) (hle : n ≤ b.size)
    (hn : n % 16 = 0) (h0 : 0 < n) :
    Carved h (h.setLarge (swapRemove h.largeFree i ++ residual b n)) b.address n := by
  have hp := perm_swap hb
  have hmem : b ∈ h.blocks := hp.mem_iff.mpr List.mem_cons_self
  have hfit := hs.fits b hmem
  have hend : b.address + b.size ≤ h.endVa := hfit.hi.trans (min_le_right _ _)
  have hapart := MemBlock.pairwise_perm hs.apart hp
  have hrest : ∀ d ∈ (h.setLarge (swapRemove h.largeFree i)).blocks,
      Fits h.base (min h.bump h.endVa) d :=
    fun d hd => hs.fits d (hp.mem_iff.mpr (List.mem_cons_of_mem _ hd))
  have hfirst : Fits h.base (min h.bump h.endVa) ⟨b.address, n⟩ :=
    ⟨hfit.lo, le_trans (Nat.add_le_add_left hle _) hfit.hi, hfit.aligned, hn, h0⟩
  -- the large list of the new heap has the rest of the block in it, or not
  rcases residual_eq (hend.trans_lt hs.endVa) hfit.size h0 with hres | ⟨hbig, hres⟩
  · rw [hres, List.append_nil]
    refine ⟨rfl, rfl, rfl, le_rfl, MemBlock.pairwise_shrink hapart le_rfl ?_, fun d hd => ?_,
      fun d hd => .inl ?_⟩
    · exact Nat.add_le_add_left hle _
    · rcases List.mem_cons.mp hd with rfl | hd
      · exact hfirst
      · exact hrest d hd
    · rcases List.mem_cons.mp hd with rfl | hd
      · exact ⟨b, hmem, le_rfl, Nat.add_le_add_left hle _⟩
      · exact ⟨d, hp.mem_iff.mpr (List.mem_cons_of_mem _ hd), le_rfl, le_rfl⟩
  · have hlast : b.address + n + (b.size - n) = b.address + b.size := by omega
    have hq : (h.setLarge (swapRemove h.largeFree i ++ residual b n)).blocks.Perm
        (⟨b.address + n, b.size - n⟩ :: (h.setLarge (swapRemove h.largeFree i)).blocks) := by
      rw [hres]
      exact (perm_setLarge h _).trans (((List.perm_append_singleton _ _).append_right _).trans
        ((perm_setLarge h _).symm.cons _))
    have hsecond : Fits h.base (min h.bump h.endVa) ⟨b.address + n, b.size - n⟩ := by
      refine ⟨hfit.lo.trans (Nat.le_add_right _ _), ?_, ?_, ?_, ?_⟩
      · show b.address + n + (b.size - n) ≤ _
        rw [hlast]
        exact hfit.hi
      · have := hfit.aligned
        show (b.address + n) % 16 = 0
        omega
      · have := hfit.size
        show (b.size - n) % 16 = 0
        omega
      · rw [LARGE_THRESHOLD] at hbig
        show 0 < b.size - n
        omega
    refine ⟨rfl, rfl, rfl, le_rfl, ?_, fun d hd => ?_, fun d hd => .inl ?_⟩
    · have htwo := MemBlock.pairwise_cut (c := ⟨b.address, n⟩) (d := ⟨b.address + n, b.size - n⟩)
        hapart le_rfl le_rfl hlast.le
      exact MemBlock.pairwise_perm htwo (hq.symm.cons _)
    · rcases List.mem_cons.mp hd with rfl | hd
      · exact hfirst
      · rcases List.mem_cons.mp (hq.mem_iff.mp hd) with rfl | hd
        · exact hsecond
        · exact hrest d hd
    · rcases List.mem_cons.mp hd with rfl | hd
      · exact ⟨b, hmem, le_rfl, Nat.add_le_add_left hle _⟩
      · rcases List.mem_cons.mp (hq.mem_iff.mp hd) with rfl | hd
        · exact ⟨b, hmem, Nat.le_add_right _ _, hlast.le⟩
        · exact ⟨d, hp.mem_iff.mpr (List.mem_cons_of_mem _ hd), le_rfl, le_rfl⟩

/-! ### The operations -/

theorem fitTurn_eq_some {need : ℕ} {best : Option (ℕ × MemBlock)} {x : MemBlock × ℕ} {b : MemBlock}
    (h : fitTurn need best x = some (i, b)) :
    best = some (i, b) ∨ x = (b, i) ∧ need ≤ b.size := by
  by_cases hneed : need ≤ x.1.size
  · have hnew : some (x.2, x.1) = some (i, b) → x = (b, i) ∧ need ≤ b.size := by
      rintro ⟨⟩
      exact ⟨rfl, hneed⟩
    rcases best with - | ⟨j, d⟩
    · exact .inr (hnew ((if_pos hneed).symm.trans h))
    · have hinner : (if x.1.size < d.size then some (x.2, x.1) else some (j, d)) = some (i, b) :=
        (if_pos hneed).symm.trans h
      by_cases hlt : x.1.size < d.size
      · exact .inr (hnew ((if_pos hlt).symm.trans hinner))
      · exact .inl ((if_neg hlt).symm.trans hinner)
  · exact .inl ((if_neg hneed).symm.trans h)

/-- **What is found** is in the list and large enough. -/
theorem findLargeFit_spec {l : List MemBlock} {need : ℕ} {b : MemBlock}
    (hf : findLargeFit l need = some (i, b)) : l[i]? = some b ∧ need ≤ b.size := by
  have hturn : ∀ best, (best = some (i, b) → l[i]? = some b ∧ need ≤ b.size) → ∀ x ∈ l.zipIdx,
      fitTurn need best x = some (i, b) → l[i]? = some b ∧ need ≤ b.size := by
    intro best ih x hx hnext
    rcases fitTurn_eq_some hnext with hold | ⟨rfl, hneed⟩
    · exact ih hold
    · exact ⟨List.mem_zipIdx_iff_getElem?.mp hx, hneed⟩
  have hnone : (none : Option (ℕ × MemBlock)) = some (i, b) → l[i]? = some b ∧ need ≤ b.size :=
    fun h => absurd h (Option.some_ne_none _).symm
  exact List.foldlRecOn l.zipIdx (fitTurn need) hnone hturn hf

/-- There is no room behind the cursor. -/
def NoRoom (h : GuestHeap) (rounded : ℕ) : Prop :=
  h.endVa < (h.bump + 8 + 15) / 16 * 16 + rounded

/-- `bump_alloc`: no room, or a block behind the cursor. -/
theorem bumpAlloc_cases (hs : h.Sound) (n : ℕ) :
    (h.bumpAlloc n = (0, h) ∧ h.NoRoom n) ∨
      ∃ a, h.bump + 8 ≤ a ∧ a % 16 = 0 ∧ a + n ≤ h.endVa ∧
        h.bumpAlloc n = (a, (h.setBump (a + n)).addLive a n) := by
  have hend := hs.endVa
  have hlo := hs.bump
  by_cases hroom : h.NoRoom n
  · refine .inl ⟨?_, hroom⟩
    rw [NoRoom] at hroom
    rw [bumpAlloc]
    rcases hpre : checkedAdd h.bump 8 with - | pre
    · rfl
    · obtain ⟨rfl, hlt⟩ := checkedAdd_eq_some.mp hpre
      dsimp only
      by_cases hlow : (h.bump + 8 + 15) % 2 ^ 64 / 16 * 16 < h.base
      · rw [if_pos hlow]
      · have hwrap : (h.bump + 8 + 15) % 2 ^ 64 = h.bump + 8 + 15 := by
          have := hs.base
          omega
        rw [if_neg hlow, hwrap]
        rcases hsum : checkedAdd ((h.bump + 8 + 15) / 16 * 16) n with - | e
        · rfl
        · obtain ⟨rfl, -⟩ := checkedAdd_eq_some.mp hsum
          exact if_pos hroom
  · rw [NoRoom] at hroom
    have hpre : checkedAdd h.bump 8 = some (h.bump + 8) := checkedAdd_eq_some.mpr ⟨rfl, by omega⟩
    have hwrap : (h.bump + 8 + 15) % 2 ^ 64 = h.bump + 8 + 15 := by omega
    have hsum : checkedAdd ((h.bump + 8 + 15) / 16 * 16) n =
        some ((h.bump + 8 + 15) / 16 * 16 + n) := checkedAdd_eq_some.mpr ⟨rfl, by omega⟩
    refine .inr ⟨(h.bump + 8 + 15) / 16 * 16, by omega, by omega, by omega, ?_⟩
    rw [bumpAlloc, hpre]
    dsimp only
    rw [hwrap, if_neg (by omega), hsum]
    exact if_neg hroom

/-- Why `alloc` hands out nothing. -/
def Refused (h : GuestHeap) (size : ℕ) : Prop :=
  size = 0 ∨ 2 ^ 64 ≤ size + 15 ∨ h.NoRoom (roundUpSize size)

/-- `roundUpSize` fails only near the top. -/
theorem roundUpSize_eq_zero (hn : n < 2 ^ 64) (h0 : roundUpSize n = 0) : 2 ^ 64 ≤ n + 15 := by
  by_cases hsmall : max n 1 ≤ LARGE_THRESHOLD
  · have hr : roundUpSize n = classSize (sizeClassIndex (max n 1)) := if_pos hsmall
    have hpos := (sizeClasses_spec _ (classSize_spec hsmall).1).2.2.1
    omega
  · have hr : roundUpSize n = (max n 1 + 15) % 2 ^ 64 / 16 * 16 := if_neg hsmall
    rw [LARGE_THRESHOLD] at hsmall
    omega

/-- `alloc` for the sizes of classes. -/
theorem alloc_small (h : GuestHeap) {size : ℕ} (hzero : size ≠ 0) (hround : roundUpSize size ≠ 0)
    (hsmall : roundUpSize size ≤ LARGE_THRESHOLD) :
    h.alloc size = match h.freeLists (sizeClassIndex (roundUpSize size)) with
      | address :: rest => (address, (h.setFree (sizeClassIndex (roundUpSize size)) rest).addLive
          address (roundUpSize size))
      | [] => h.bumpAlloc (roundUpSize size) := by
  rw [alloc, if_neg hzero]
  exact (if_neg hround).trans (if_pos hsmall)

/-- `alloc` for larger sizes. -/
theorem alloc_large (h : GuestHeap) {size : ℕ} (hlarge : LARGE_THRESHOLD < roundUpSize size) :
    h.alloc size = match findLargeFit h.largeFree (roundUpSize size) with
      | some (i, block) => (block.address, (h.setLarge (swapRemove h.largeFree i ++
          residual block (roundUpSize size))).addLive block.address (roundUpSize size))
      | none => h.bumpAlloc (roundUpSize size) := by
  have hzero : size ≠ 0 := by
    rintro rfl
    exact absurd hlarge (by decide)
  have hround : roundUpSize size ≠ 0 := Nat.ne_of_gt (Nat.zero_lt_of_lt hlarge)
  rw [alloc, if_neg hzero]
  exact (if_neg hround).trans (if_neg hlarge.not_ge)

/-- **`alloc`**: nothing, or a block that was carved out. -/
theorem alloc_cases (hs : h.Sound) {size : ℕ} (hsize : size < 2 ^ 64) :
    (h.alloc size = (0, h) ∧ h.Refused size) ∨
      ∃ g a n, h.alloc size = (a, g.addLive a n) ∧ Carved h g a n ∧ size ≤ n ∧ BlockSize n := by
  by_cases hzero : size = 0
  · exact .inl ⟨if_pos hzero, .inl hzero⟩
  by_cases hround : roundUpSize size = 0
  · refine .inl ⟨?_, .inr (.inl (roundUpSize_eq_zero hsize hround))⟩
    rw [alloc, if_neg hzero]
    exact if_pos hround
  obtain ⟨hle, h16, hblock⟩ := roundUpSize_spec hsize hround
  have hpos : 0 < roundUpSize size := Nat.pos_of_ne_zero hround
  have hbump : (h.bumpAlloc (roundUpSize size) = (0, h) ∧ h.Refused size) ∨
      ∃ g a n, h.bumpAlloc (roundUpSize size) = (a, g.addLive a n) ∧ Carved h g a n ∧
        size ≤ n ∧ BlockSize n := by
    rcases bumpAlloc_cases hs (roundUpSize size) with ⟨heq, hno⟩ | ⟨a, hlo, ha, hhi, heq⟩
    · exact .inl ⟨heq, .inr (.inr hno)⟩
    · exact .inr ⟨_, _, _, heq, hs.extend hlo hhi ha h16 hpos, hle, hblock⟩
  by_cases hsmall : roundUpSize size ≤ LARGE_THRESHOLD
  · have hclass : roundUpSize size ∈ SIZE_CLASSES := hblock.resolve_right hsmall.not_gt
    rw [alloc_small h hzero hround hsmall]
    rcases hlist : h.freeLists (sizeClassIndex (roundUpSize size)) with - | ⟨a, rest⟩
    · exact hbump
    · have hcarved := hs.pop (sizeClassIndex_lt (roundUpSize size)) hlist
      rw [(sizeClasses_spec _ hclass).1] at hcarved
      exact .inr ⟨_, _, _, rfl, hcarved, hle, hblock⟩
  · rw [alloc_large h (not_le.mp hsmall)]
    rcases hfit : findLargeFit h.largeFree (roundUpSize size) with - | ⟨i, b⟩
    · exact hbump
    · obtain ⟨hb, hneed⟩ := findLargeFit_spec hfit
      exact .inr ⟨_, _, _, rfl, hs.cut hb hneed h16 hpos, hle, hblock⟩

theorem Sound.of_live (hs : h.Sound) (ha : h.live.lookup a = some n) :
    Fits h.base (min h.bump h.endVa) ⟨a, n⟩ :=
  hs.fits _ ((perm_dropLive ha).mem_iff.mpr List.mem_cons_self)

theorem Sound.zero_notMem (hs : h.Sound) : 0 ∉ h.live := by
  intro h0
  obtain ⟨n, hn⟩ := Option.isSome_iff_exists.mp (AList.lookup_isSome.mpr h0)
  have hlo : h.base ≤ 0 := (hs.of_live hn).lo
  exact absurd hs.base hlo.not_gt

/-- A live block that goes to the list of its class. -/
theorem perm_free_small (hn : BlockSize n) (hsmall : n ≤ LARGE_THRESHOLD)
    (hlook : h.live.lookup a = some n) :
    ((h.dropLive a).setFree (sizeClassIndex n) (a :: h.freeLists (sizeClassIndex n))).blocks.Perm
      h.blocks := by
  have hpush := perm_push (sizeClassIndex_lt n) (h.dropLive a) a
  rw [(sizeClasses_spec _ (hn.resolve_right hsmall.not_gt)).1] at hpush
  exact hpush.trans (perm_dropLive hlook).symm

/-- A live block that goes to the large list. -/
theorem perm_free_large (hlook : h.live.lookup a = some n) :
    ((h.dropLive a).setLarge (h.largeFree ++ [⟨a, n⟩])).blocks.Perm h.blocks := by
  have hlarge : ((h.dropLive a).setLarge (h.largeFree ++ [⟨a, n⟩])).blocks.Perm
      (⟨a, n⟩ :: (h.dropLive a).blocks) :=
    (perm_setLarge _ _).trans (((List.perm_append_singleton _ _).append_right _).trans
      ((perm_setLarge (h.dropLive a) (h.dropLive a).largeFree).symm.cons _))
  exact hlarge.trans (perm_dropLive hlook).symm

theorem Sound.sizes_dropLive (hs : h.Sound) (a : ℕ) :
    ∀ b m, (h.dropLive a).live.lookup b = some m → BlockSize m := by
  intro b m hm
  change (h.live.erase a).lookup b = some m at hm
  by_cases hb : b = a
  · rw [hb, AList.lookup_erase] at hm
    exact absurd hm (Option.some_ne_none _).symm
  · rw [AList.lookup_erase_ne hb] at hm
    exact hs.sizes b m hm

/-- **A live block is freed.** -/
theorem free_of_live (hs : h.Sound) (hlook : h.live.lookup a = some n) :
    h.free a = (true, if n ≤ LARGE_THRESHOLD
      then (h.dropLive a).setFree (sizeClassIndex n) (a :: h.freeLists (sizeClassIndex n))
      else (h.dropLive a).setLarge (h.largeFree ++ [⟨a, n⟩])) := by
  have hmem : a ∈ h.live := AList.lookup_isSome.mp (hlook ▸ rfl)
  have h0 : a ≠ 0 := fun h0 => hs.zero_notMem (h0 ▸ hmem)
  rw [free, if_neg h0, hlook]
  by_cases hsmall : n ≤ LARGE_THRESHOLD
  · rw [if_pos hsmall]
    exact if_pos hsmall
  · rw [if_neg hsmall]
    exact if_neg hsmall

/-- **`free`**: not a live block, or one that goes to its list. -/
theorem free_cases (hs : h.Sound) (a : ℕ) :
    (h.free a = (false, h) ∧ a ∉ h.live) ∨
      ∃ g, h.free a = (true, g) ∧ a ∈ h.live ∧ g.live = h.live.erase a ∧ g.Sound := by
  by_cases h0 : a = 0
  · exact .inl ⟨if_pos h0, h0 ▸ hs.zero_notMem⟩
  rcases hlook : h.live.lookup a with - | n
  · refine .inl ⟨?_, AList.lookup_eq_none.mp hlook⟩
    rw [free, if_neg h0, hlook]
  · have hmem : a ∈ h.live := AList.lookup_isSome.mp (hlook ▸ rfl)
    refine .inr ⟨_, free_of_live hs hlook, hmem, ?_⟩
    by_cases hsmall : n ≤ LARGE_THRESHOLD
    · rw [if_pos hsmall]
      exact ⟨rfl, hs.of_perm (perm_free_small (hs.sizes a n hlook) hsmall hlook) hs.apart hs.fits
        rfl rfl le_rfl (hs.sizes_dropLive a)⟩
    · rw [if_neg hsmall]
      exact ⟨rfl, hs.of_perm (perm_free_large hlook) hs.apart hs.fits rfl rfl le_rfl
        (hs.sizes_dropLive a)⟩

/-- **`try_realloc_in_place`** changes nothing, and a block that stays is large enough. -/
theorem tryReallocInPlace_spec (h : GuestHeap) (a : ℕ) {size : ℕ} (hsize : size < 2 ^ 64) :
    (h.tryReallocInPlace a size).2 = h ∧ ∀ b, (h.tryReallocInPlace a size).1 = some b →
      b = a ∧ ∃ n, h.live.lookup a = some n ∧ size ≤ n := by
  rw [tryReallocInPlace]
  rcases hlook : h.live.lookup a with - | n
  · exact ⟨rfl, nofun⟩
  · dsimp only
    by_cases h0 : roundUpSize size = 0
    · rw [if_pos h0]
      exact ⟨rfl, nofun⟩
    · rw [if_neg h0]
      by_cases hle : roundUpSize size ≤ n
      · rw [if_pos hle]
        refine ⟨rfl, ?_⟩
        rintro b ⟨⟩
        exact ⟨rfl, n, rfl, (roundUpSize_spec hsize h0).1.trans hle⟩
      · rw [if_neg hle]
        exact ⟨rfl, nofun⟩

end GuestHeap

/-! ### Runs -/

/-- A call of the heap. -/
inductive HeapCall where
  /-- `alloc`. -/
  | alloc (size : ℕ)
  /-- `free`. -/
  | free (address : ℕ)
  /-- `try_realloc_in_place`. -/
  | tryReallocInPlace (address newSize : ℕ)

namespace HeapCall

/-- The arguments are words. -/
def Words (_ : GuestHeap) : HeapCall → Prop
  | alloc size => size < 2 ^ 64
  | free address => address < 2 ^ 64
  | tryReallocInPlace address newSize => address < 2 ^ 64 ∧ newSize < 2 ^ 64

instance (h : GuestHeap) : ∀ c, Decidable (Words h c)
  | alloc size => inferInstanceAs (Decidable (size < 2 ^ 64))
  | free address => inferInstanceAs (Decidable (address < 2 ^ 64))
  | tryReallocInPlace address newSize =>
    inferInstanceAs (Decidable (address < 2 ^ 64 ∧ newSize < 2 ^ 64))

/-- The heap after a call. -/
def run (h : GuestHeap) : HeapCall → GuestHeap
  | alloc size => (h.alloc size).2
  | free address => (h.free address).2
  | tryReallocInPlace address newSize => (h.tryReallocInPlace address newSize).2

end HeapCall

/-- A heap without blocks. -/
def FreshHeap (h : GuestHeap) : Prop :=
  ∃ base endVa, 0 < base ∧ endVa < 2 ^ 64 ∧ h = .new base endVa

/-- The heaps that calls lead to. -/
def HeapReach : GuestHeap → Prop :=
  GuardedReach FreshHeap HeapCall.Words fun h c h' => h' = HeapCall.run h c

namespace GuestHeap

variable {h : GuestHeap}

theorem Sound.new {base endVa : ℕ} (hbase : 0 < base) (hend : endVa < 2 ^ 64) :
    (GuestHeap.new base endVa).Sound where
  base := hbase
  endVa := hend
  bump := le_rfl
  apart := .nil
  fits := nofun
  sizes := nofun

/-- **Calls keep the heap sound.** -/
theorem Sound.run (hs : h.Sound) {c : HeapCall} (hc : c.Words h) : (c.run h).Sound := by
  cases c with
  | alloc size =>
    show (h.alloc size).2.Sound
    rcases alloc_cases hs hc with ⟨heq, -⟩ | ⟨g, a, n, heq, hcarved, -, hn⟩
    · rw [heq]
      exact hs
    · rw [heq]
      exact hcarved.sound hs hn
  | free address =>
    show (h.free address).2.Sound
    rcases free_cases hs address with ⟨heq, -⟩ | ⟨g, heq, -, -, hg⟩
    · rw [heq]
      exact hs
    · rw [heq]
      exact hg
  | tryReallocInPlace address newSize =>
    show (h.tryReallocInPlace address newSize).2.Sound
    rw [(tryReallocInPlace_spec h address hc.2).1]
    exact hs

/-- **Every heap that calls lead to is sound.** -/
theorem Sound.of_reach (hr : HeapReach h) : h.Sound := by
  refine hr.invariant ?_ ?_
  · rintro _ ⟨base, endVa, hbase, hend, rfl⟩
    exact .new hbase hend
  · rintro h c _ hs hc rfl
    exact hs.run hc

/-- What a successful `alloc` of `size` bytes promises. -/
structure Granted (h : GuestHeap) (size a : ℕ) (h' : GuestHeap) : Prop where
  /-- The address is not zero. -/
  pos : 0 < a
  /-- It is aligned. -/
  aligned : a % 16 = 0
  /-- It is in the region. -/
  lo : h.base ≤ a
  /-- So are the bytes that were asked for. -/
  hi : a + size ≤ h.endVa
  /-- It was not live. -/
  fresh : a ∉ h.live
  /-- It is now, with at least these bytes. -/
  live : ∃ n, size ≤ n ∧ h'.live = h.live.insert a n

/-- **What callers may count on**, in one state of the heap. -/
structure Discipline (h : GuestHeap) : Prop where
  /-- No two blocks overlap, whether live, in a list of a class or in the large list. -/
  apart : h.blocks.Pairwise MemBlock.Apart
  /-- Nothing is live at zero. -/
  zero : 0 ∉ h.live
  /-- `alloc` hands out a block, or changes nothing and has a reason for it. -/
  alloc : ∀ size < 2 ^ 64, (h.alloc size = (0, h) ∧ h.Refused size) ∨
    Granted h size (h.alloc size).1 (h.alloc size).2
  /-- `free` says whether the address was live. -/
  free : ∀ a, (h.free a).1 = true ↔ a ∈ h.live
  /-- It changes nothing when it was not. -/
  free_unknown : ∀ a ∉ h.live, (h.free a).2 = h
  /-- The address is no longer live when it was. -/
  free_live : ∀ a ∈ h.live, (h.free a).2.live = h.live.erase a
  /-- A block that stays where it is has room for the new size, and nothing changes. -/
  realloc : ∀ a, ∀ size < 2 ^ 64, (h.tryReallocInPlace a size).2 = h ∧
    ∀ b, (h.tryReallocInPlace a size).1 = some b → b = a ∧
      ∃ n, h.live.lookup a = some n ∧ size ≤ n

theorem Sound.granted {g : GuestHeap} {size a n : ℕ} (hs : h.Sound) (hc : Carved h g a n)
    (hle : size ≤ n) : Granted h size a (g.addLive a n) := by
  have hfit := hc.fits _ List.mem_cons_self
  have hlo : h.base ≤ a := hfit.lo
  have hhi : a + n ≤ min g.bump h.endVa := hfit.hi
  refine ⟨hs.base.trans_le hlo, hfit.aligned, hlo, ?_, hc.notMem, n, hle, ?_⟩
  · exact (Nat.add_le_add_left hle a).trans (hhi.trans (min_le_right _ _))
  · exact congrArg (·.insert a n) hc.live

theorem Sound.discipline (hs : h.Sound) : h.Discipline where
  apart := hs.apart
  zero := hs.zero_notMem
  alloc size hsize := by
    rcases alloc_cases hs hsize with hno | ⟨g, a, n, heq, hc, hle, -⟩
    · exact .inl hno
    · rw [heq]
      exact .inr (hs.granted hc hle)
  free a := by
    rcases free_cases hs a with ⟨heq, hno⟩ | ⟨g, heq, hlive, -⟩
    · exact heq ▸ iff_of_false Bool.false_ne_true hno
    · exact heq ▸ iff_of_true rfl hlive
  free_unknown a ha := by
    rcases free_cases hs a with ⟨heq, -⟩ | ⟨g, -, hlive, -⟩
    · exact congrArg Prod.snd heq
    · exact absurd hlive ha
  free_live a ha := by
    rcases free_cases hs a with ⟨-, hno⟩ | ⟨g, heq, -, hg, -⟩
    · exact absurd ha hno
    · exact heq ▸ hg
  realloc a size hsize := tryReallocInPlace_spec h a hsize

end GuestHeap

/-- **The discipline of the heap** holds whatever is called, with whatever arguments. -/
theorem heap_discipline {h : GuestHeap} (hr : HeapReach h) : h.Discipline :=
  (GuestHeap.Sound.of_reach hr).discipline

/-- Two large blocks, of which the first is freed and cut, and a small one. -/
theorem heap_discipline_cut :
    (([.alloc 200000, .alloc 70000, .alloc 100, .free 4112, .alloc 80000,
      .tryReallocInPlace 4112 60000] : List HeapCall).foldl HeapCall.run
        (.new 4096 1052672)).Discipline :=
  heap_discipline
    (GuardedReach.foldl (by decide) (.init ⟨4096, 1052672, by decide, by decide, rfl⟩))

end Wie
