import Mathlib.Data.List.Dedup
import Wie.Jit.CodeCache

/-!
# The index of the code cache

The index counts for each page the blocks on it, whatever is inserted and dropped. A counter has 32
bits and stops at its top; but blocks start at different addresses and are short, so that no page
has more than a few thousand. Hence the look at the index before blocks are dropped is right: when
it finds nothing, nothing overlaps.

## Main definitions

* `CodeCache.blocksOn` — the blocks on a page
* `CodeCache.Indexed` — the index has their number

## Main results

* `CodeCache.Indexed.invalidate` — exactly the overlapping blocks are dropped
* `CodeCache.Indexed.drain` — and at a safe point exactly those on a page written
* `CodeCache.noteCodeWrite_eq` — which pages are collected
-/

namespace Wie

/-! ### Pages of a range -/

theorem mem_codePageSpan {a b p : ℕ} :
    p ∈ codePageSpan a b ↔ ∃ x, a ≤ x ∧ x < b ∧ x / 0x1000 = p := by
  rw [codePageSpan]
  split_ifs with h
  · refine iff_of_false List.not_mem_nil ?_
    rintro ⟨x, h1, h2, -⟩
    omega
  · rw [List.mem_range'_1]
    constructor
    · rintro ⟨h1, h2⟩
      refine ⟨max a (p * 0x1000), le_max_left _ _, ?_, ?_⟩ <;> omega
    · rintro ⟨x, h1, h2, rfl⟩
      omega

theorem nodup_codePageSpan (a b : ℕ) : (codePageSpan a b).Nodup := by
  rw [codePageSpan]
  split_ifs
  · exact List.nodup_nil
  · exact List.nodup_range'

theorem codeRangesOverlap_iff {a b c d : ℕ} :
    codeRangesOverlap a b c d = true ↔ a < d ∧ c < b := decide_eq_true_iff

/-- A page is one of a range just if the range overlaps it. -/
theorem mem_codePageSpan_iff_overlap {a b p : ℕ} (h : a < b) :
    p ∈ codePageSpan a b ↔ codeRangesOverlap a b (p * 0x1000) (p * 0x1000 + 0x1000) = true := by
  rw [mem_codePageSpan, codeRangesOverlap_iff]
  constructor
  · rintro ⟨x, h1, h2, rfl⟩
    omega
  · rintro ⟨h1, h2⟩
    refine ⟨max a (p * 0x1000), le_max_left _ _, ?_, ?_⟩ <;> omega

/-- Most bytes of a block. -/
def MAX_BLOCK_BYTES : ℕ := MAX_BLOCK_INSNS * FETCH_WINDOW

/-- A block that was compiled for an address. -/
structure CompiledBlock.Shaped (c : CompiledBlock) (rip : ℕ) : Prop where
  /-- It starts there. -/
  start : c.guestStart = rip
  /-- It is not empty. -/
  pos : c.guestStart < c.guestEnd
  /-- It is short. -/
  short : c.guestEnd ≤ c.guestStart + MAX_BLOCK_BYTES
  /-- It ends below the top. -/
  top : c.guestEnd < 2 ^ 64

namespace CodeCache

/-- How many blocks have a byte on a page. -/
def blocksOn (s : CodeCache) (p : ℕ) : ℕ := s.cache.entries.countP fun e => e.2.pages.contains p

/-- **The index is right**, and so are the names of blocks. -/
structure Indexed (cfg : JitConfig) (s : CodeCache) : Prop where
  /-- The index has the number of blocks on each page. -/
  counts : Tallies s.codePages s.blocksOn
  /-- The blocks that have a name are known by it. -/
  ids : ∀ va, s.chainIds.get? va =
    if cfg.chainEnabled then (s.ready? va).bind CompiledBlock.funcId else none
  /-- Blocks are where they were compiled for. -/
  shaped : ∀ va c, s.ready? va = some c → c.Shaped va

variable {cfg : JitConfig} {ord : HashOrder} {s s' : CodeCache} {t : ChainTables}
  {c : CompiledBlock} {va rip addr len p : ℕ} {e : CacheEntry}

theorem ready?_eq_some : s.ready? va = some c ↔ s.cache.get? va = some (.ready c) := by
  rw [ready?]
  cases hg : s.cache.get? va with
  | none => simp
  | some e => cases e <;> simp [CacheEntry.block?]

theorem ready?_congr (h : s'.cache.get? va = s.cache.get? va) : s'.ready? va = s.ready? va := by
  rw [ready?, ready?, h]

theorem blocksOn_congr (h : s'.cache = s.cache) : s'.blocksOn = s.blocksOn := by
  funext p
  rw [blocksOn, blocksOn, h]

theorem indexed_new : Indexed cfg .new where
  counts := Tallies.empty
  ids va := by simp [CodeCache.new, ready?]
  shaped va c h := by simp [CodeCache.new, ready?] at h

/-- What does not touch the cache, its names and its index. -/
theorem Indexed.congr (h : Indexed cfg s) (hc : s'.cache = s.cache) (hi : s'.chainIds = s.chainIds)
    (hp : s'.codePages = s.codePages) : Indexed cfg s' := by
  have hready (va : ℕ) : s'.ready? va = s.ready? va := ready?_congr (by rw [hc])
  refine ⟨?_, fun va => ?_, fun va c hr => h.shaped va c ((hready va).symm.trans hr)⟩
  · rw [hp, blocksOn_congr hc]
    exact h.counts
  · rw [hi, hready]
    exact h.ids va

/-- The blocks on a page, after the entry of an address was replaced. -/
theorem blocksOn_insert (s : CodeCache) (rip : ℕ) (e : CacheEntry) (p : ℕ) :
    ({ s with cache := s.cache.insert rip e } : CodeCache).blocksOn p =
      ({ s with cache := s.cache.erase rip } : CodeCache).blocksOn p +
        if e.pages.contains p then 1 else 0 := by
  show List.countP _ (s.cache.insert rip e).entries = List.countP _ (s.cache.erase rip).entries + _
  rw [(s.cache.perm_insert rip e).countP_eq, List.countP_cons]

/-- The blocks on a page, and the entry of an address. -/
theorem blocksOn_erase (h : s.cache.get? rip = some e) (p : ℕ) :
    s.blocksOn p = ({ s with cache := s.cache.erase rip } : CodeCache).blocksOn p +
      if e.pages.contains p then 1 else 0 := by
  show List.countP _ s.cache.entries = List.countP _ (s.cache.erase rip).entries + _
  rw [(OrdMap.perm_erase h).countP_eq, List.countP_cons]

theorem count_pages (c : CompiledBlock) (p : ℕ) :
    c.pages.count p = if c.pages.contains p then 1 else 0 := by
  have hnd : c.pages.Nodup := nodup_codePageSpan _ _
  rw [hnd.count]
  simp

/-- **No page has many blocks.** They start at different addresses, at most the length of a block
in front of the page. -/
theorem Indexed.blocksOn_le (h : Indexed cfg s) (p : ℕ) :
    s.blocksOn p ≤ 0x1000 + MAX_BLOCK_BYTES := by
  have hkeys : ((s.cache.entries.filter fun e => e.2.pages.contains p).map Prod.fst).Nodup := by
    refine (List.Pairwise.map _ ?_ (s.cache.sorted.filter _) : List.Pairwise (· ≠ ·) _)
    exact fun a b hab => hab.ne
  have hsub : ((s.cache.entries.filter fun e => e.2.pages.contains p).map Prod.fst) ⊆
      List.range' (p * 0x1000 - MAX_BLOCK_BYTES) (0x1000 + MAX_BLOCK_BYTES) := by
    intro va hva
    obtain ⟨⟨va', e⟩, he, rfl⟩ := List.mem_map.mp hva
    obtain ⟨hmem, hp⟩ := List.mem_filter.mp he
    cases e with
    | ready c =>
      have hc := h.shaped va' c (ready?_eq_some.mpr (OrdMap.get?_eq_some.mpr hmem))
      obtain ⟨x, h1, h2, rfl⟩ := mem_codePageSpan.mp (List.contains_iff_mem.mp hp)
      have h3 := hc.short
      have h4 := hc.start
      rw [List.mem_range'_1]
      show _ ≤ va' ∧ va' < _
      omega
    | hot visits thr => cases hp
    | never => cases hp
  have hlen := (List.subperm_of_subset hkeys hsub).length_le
  rwa [List.length_map, ← List.countP_eq_length_filter, List.length_range'] at hlen

/-! ### Single entries -/

theorem get?_removeReady (s : CodeCache) (va va' : ℕ) :
    (s.removeReady va).cache.get? va' = if va' = va then none else s.cache.get? va' := by
  rw [removeReady]
  split <;> exact OrdMap.get?_erase _ _ _

theorem ready?_removeReady (s : CodeCache) (va va' : ℕ) :
    (s.removeReady va).ready? va' = if va' = va then none else s.ready? va' := by
  rw [ready?, get?_removeReady]
  split_ifs <;> rfl

theorem removeReady_pending (s : CodeCache) (va : ℕ) :
    (s.removeReady va).pendingCodeWrites = s.pendingCodeWrites ∧
      (s.removeReady va).pendingCodeOverflow = s.pendingCodeOverflow := by
  rw [removeReady]
  split <;> exact ⟨rfl, rfl⟩

/-- Taking an entry out keeps the index right. -/
theorem Indexed.removeReady (h : Indexed cfg s) (va : ℕ) : Indexed cfg (s.removeReady va) := by
  have hshaped : ∀ va' c, (s.removeReady va).ready? va' = some c → c.Shaped va' := by
    intro va' c hr
    rw [ready?_removeReady] at hr
    split_ifs at hr
    exact h.shaped va' c hr
  cases hr : s.ready? va with
  | some c =>
    have hcache : (s.removeReady va).cache = s.cache.erase va := by
      rw [CodeCache.removeReady, hr]
      rfl
    refine ⟨?_, fun va' => ?_, hshaped⟩
    · rw [blocksOn_congr (s := { s with cache := s.cache.erase va }) hcache]
      simp only [CodeCache.removeReady, hr]
      refine (h.counts.subAll _).congr fun p => ?_
      rw [blocksOn_erase (ready?_eq_some.mp hr) p]
      show _ + (if c.pages.contains p then 1 else 0) - c.pages.count p = _
      rw [count_pages, Nat.add_sub_cancel]
    · rw [ready?_removeReady]
      simp only [CodeCache.removeReady, hr]
      show (s.chainIds.erase va).get? va' = _
      rw [OrdMap.get?_erase, h.ids va']
      split_ifs <;> rfl
  | none =>
    refine ⟨?_, fun va' => ?_, hshaped⟩
    · rw [CodeCache.removeReady, hr]
      refine h.counts.congr fun p => ?_
      cases hg : s.cache.get? va with
      | none =>
        refine congrFun (blocksOn_congr ?_) p
        exact (OrdMap.erase_of_get?_eq_none hg).symm
      | some e =>
        rw [blocksOn_erase hg p]
        cases e with
        | ready c => rw [ready?_eq_some.mpr hg] at hr; cases hr
        | hot visits thr => rfl
        | never => rfl
    · rw [ready?_removeReady]
      simp only [CodeCache.removeReady, hr]
      rw [h.ids va']
      split_ifs with h1 h2 <;> simp_all

/-- An entry that is no block, in the place of one that is none, hides no block. -/
theorem ready?_insertOther (hr : s.ready? rip = none) (he : e.block? = none) (va : ℕ) :
    ({ s with cache := s.cache.insert rip e } : CodeCache).ready? va = s.ready? va := by
  show ((s.cache.insert rip e).get? va).bind _ = _
  rw [OrdMap.get?_insert]
  split_ifs with hva
  · rw [hva, hr]
    exact he
  · rfl

/-- An entry that is no block takes the place of one that is none. -/
theorem Indexed.insertOther (h : Indexed cfg s) (hr : s.ready? rip = none) (he : e.block? = none) :
    Indexed cfg { s with cache := s.cache.insert rip e } := by
  have hready := ready?_insertOther hr he
  have hrem := h.removeReady rip
  rw [CodeCache.removeReady, hr] at hrem
  refine ⟨h.counts.congr fun p => ?_, fun va => ?_, fun va c hc => ?_⟩
  · have hpages : e.pages = [] := by rw [CacheEntry.pages, he]; rfl
    rw [blocksOn_insert, hpages]
    have h1 := h.counts p
    have h2 := hrem.counts p
    rw [h1] at h2
    show s.blocksOn p = _ + 0
    split_ifs at h2 <;> simp_all
  · rw [hready]
    exact h.ids va
  · rw [hready] at hc
    exact h.shaped va c hc

theorem get?_insertReady (s : CodeCache) (cfg : JitConfig) (rip : ℕ) (c : CompiledBlock) (va : ℕ) :
    (s.insertReady cfg rip c).cache.get? va =
      if va = rip then some (.ready c) else s.cache.get? va := by
  show ((s.removeReady rip).cache.insert rip (.ready c)).get? va = _
  rw [OrdMap.get?_insert, get?_removeReady]
  split_ifs <;> rfl

theorem ready?_insertReady (s : CodeCache) (cfg : JitConfig) (rip : ℕ) (c : CompiledBlock)
    (va : ℕ) : (s.insertReady cfg rip c).ready? va = if va = rip then some c else s.ready? va := by
  rw [ready?, get?_insertReady]
  split_ifs <;> rfl

theorem chainIds_insertReady_of_some {id : ℕ} (hch : cfg.chainEnabled = true)
    (hid : c.funcId = some id) :
    (s.insertReady cfg rip c).chainIds = (s.removeReady rip).chainIds.insert rip id := by
  simp only [CodeCache.insertReady, hch, hid]
  rfl

/-- A block without a name, or all of them, when blocks are not chained. -/
theorem chainIds_insertReady_of_none (h : cfg.chainEnabled = false ∨ c.funcId = none) :
    (s.insertReady cfg rip c).chainIds = (s.removeReady rip).chainIds := by
  rcases h with h | h
  · simp only [CodeCache.insertReady, h]
    rfl
  · cases hch : cfg.chainEnabled <;> simp only [CodeCache.insertReady, h, hch] <;> rfl

/-- **Inserting a block keeps the index right.** -/
theorem Indexed.insertReady (h : Indexed cfg s) (hc : c.Shaped rip) :
    Indexed cfg (s.insertReady cfg rip c) := by
  have hrem := h.removeReady rip
  have hnone : (s.removeReady rip).cache.get? rip = none := by rw [get?_removeReady, if_pos rfl]
  refine ⟨?_, fun va => ?_, fun va c' hr => ?_⟩
  · have hcount (p : ℕ) : (s.removeReady rip).blocksOn p + c.pages.count p =
        (s.insertReady cfg rip c).blocksOn p := by
      rw [count_pages]
      have hins := blocksOn_insert (s.removeReady rip) rip (.ready c) p
      rw [OrdMap.erase_of_get?_eq_none hnone] at hins
      exact hins.symm
    refine (hrem.counts.addAll c.pages fun p => ?_).congr hcount
    have hle := hrem.blocksOn_le p
    have hone : c.pages.count p ≤ 1 := by rw [count_pages]; split_ifs <;> decide
    have : MAX_BLOCK_BYTES = 1440 := rfl
    omega
  · rw [ready?_insertReady]
    have hids := hrem.ids va
    rw [ready?_removeReady] at hids
    cases hch : cfg.chainEnabled with
    | false =>
      rw [chainIds_insertReady_of_none (.inl hch)]
      rw [hch] at hids
      exact hids
    | true =>
      rw [hch] at hids
      cases hid : c.funcId with
      | none =>
        rw [chainIds_insertReady_of_none (.inr hid), hids]
        split_ifs <;> simp_all
      | some id =>
        rw [chainIds_insertReady_of_some hch hid, OrdMap.get?_insert, hids]
        split_ifs <;> simp_all
  · rw [ready?_insertReady] at hr
    split_ifs at hr with hva
    · obtain rfl := Option.some.inj hr
      rw [hva]
      exact hc
    · exact h.shaped va c' hr

/-- Dropping everything. -/
theorem indexed_clearCompiled (s : CodeCache) : Indexed cfg s.clearCompiled :=
  indexed_new.congr rfl rfl rfl

theorem Indexed.dropAll (h : Indexed cfg s) (t : ChainTables) : Indexed cfg (s.dropAll t).1 := by
  rw [CodeCache.dropAll]
  split_ifs
  · exact h
  · exact indexed_clearCompiled s

/-- There is no entry left. -/
theorem get?_dropAll (s : CodeCache) (t : ChainTables) (va : ℕ) :
    (s.dropAll t).1.cache.get? va = none := by
  rw [CodeCache.dropAll]
  split_ifs with he
  · rw [OrdMap.get?, List.isEmpty_iff.mp he]
    rfl
  · rfl

theorem dropAll_pending (s : CodeCache) (t : ChainTables) :
    (s.dropAll t).1.pendingCodeWrites = s.pendingCodeWrites ∧
      (s.dropAll t).1.pendingCodeOverflow = s.pendingCodeOverflow := by
  rw [CodeCache.dropAll]
  split_ifs <;> exact ⟨rfl, rfl⟩

/-! ### Dropping what overlaps -/

/-- The block of an address overlaps a range. -/
def hits (s : CodeCache) (addr stop va : ℕ) : Bool :=
  (s.ready? va).any fun c => codeRangesOverlap c.guestStart c.guestEnd addr stop

theorem hits_iff {stop : ℕ} : s.hits addr stop va = true ↔
    ∃ c, s.ready? va = some c ∧ c.guestStart < stop ∧ addr < c.guestEnd := by
  rw [hits, Option.any_eq_true]
  simp [codeRangesOverlap]

/-- **The look at the index is right**: when it finds nothing, nothing overlaps. -/
theorem Indexed.not_hits (h : Indexed cfg s) (hlen : 0 < len)
    (hover : s.codePagesOverlap addr len = false) (va : ℕ) :
    s.hits addr (satAdd addr len) va = false := by
  refine Bool.eq_false_iff.mpr fun hhit => ?_
  obtain ⟨c, hr, h1, h2⟩ := hits_iff.mp hhit
  obtain ⟨-, hpos, -, -⟩ := h.shaped va c hr
  -- every page of the block has an entry in the index
  have hpage : ∀ p ∈ c.pages, (s.codePages.get? p).isSome = true := by
    intro p hp
    refine h.counts.isSome_iff.mpr (Nat.ne_of_gt (List.countP_pos_iff.mpr ?_))
    exact ⟨_, OrdMap.get?_eq_some.mp (ready?_eq_some.mp hr), List.contains_iff_mem.mpr hp⟩
  rw [codePagesOverlap] at hover
  split_ifs at hover with h0 hsat
  · rcases h0 with h0 | h0
    · omega
    · have hp := hpage (c.guestStart / 0x1000) (mem_codePageSpan.mpr ⟨_, le_rfl, hpos, rfl⟩)
      rw [OrdMap.get?, List.isEmpty_iff.mp h0] at hp
      cases hp
  · simp at hover h0
    exact h0.2 hover
  · -- some byte is in both
    have hboth : max c.guestStart addr / 0x1000 ∈ c.pages :=
      mem_codePageSpan.mpr ⟨_, le_max_left _ _, by omega, rfl⟩
    have hin : max c.guestStart addr / 0x1000 ∈ codePageSpan addr (satAdd addr len) :=
      mem_codePageSpan.mpr ⟨_, le_max_right _ _, by omega, rfl⟩
    rw [List.any_eq_false] at hover
    exact hover _ hin (hpage _ hboth)

theorem mem_toDrop {stop : ℕ} : va ∈ s.toDrop ord addr stop ↔ s.hits addr stop va = true := by
  rw [toDrop, List.mem_filterMap, hits_iff]
  constructor
  · rintro ⟨⟨va', e⟩, he, hd⟩
    cases e with
    | ready c =>
      change (if codeRangesOverlap c.guestStart c.guestEnd addr stop = true then some va'
        else none) = some va at hd
      split_ifs at hd with ho
      obtain rfl := Option.some.inj hd
      refine ⟨c, ready?_eq_some.mpr (OrdMap.get?_eq_some.mpr ((ord.perm _).mem_iff.mp he)), ?_⟩
      exact of_decide_eq_true ho
    | hot visits thr => cases hd
    | never => cases hd
  · rintro ⟨c, hr, ho⟩
    refine ⟨(va, .ready c), (ord.perm _).mem_iff.mpr
      (OrdMap.get?_eq_some.mp (ready?_eq_some.mp hr)), ?_⟩
    simp only [codeRangesOverlap, ho, and_self, decide_true, if_true]

/-- Taking out a list of entries. -/
theorem get?_removeAll : ∀ (vas : List ℕ) (s : CodeCache) (va : ℕ),
    (vas.foldl removeReady s).cache.get? va = if va ∈ vas then none else s.cache.get? va := by
  intro vas
  induction vas with
  | nil => exact fun s va => by simp
  | cons v vas ih =>
    intro s va
    rw [List.foldl_cons, ih, get?_removeReady]
    by_cases h1 : va = v <;> by_cases h2 : va ∈ vas <;> simp [h1, h2]

theorem removeAll_pending : ∀ (vas : List ℕ) (s : CodeCache),
    (vas.foldl removeReady s).pendingCodeWrites = s.pendingCodeWrites ∧
      (vas.foldl removeReady s).pendingCodeOverflow = s.pendingCodeOverflow := by
  intro vas
  induction vas with
  | nil => exact fun s => ⟨rfl, rfl⟩
  | cons v vas ih =>
    intro s
    obtain ⟨h1, h2⟩ := ih (s.removeReady v)
    obtain ⟨h3, h4⟩ := removeReady_pending s v
    exact ⟨h1.trans h3, h2.trans h4⟩

theorem Indexed.removeAll : ∀ (vas : List ℕ) {s : CodeCache}, Indexed cfg s →
    Indexed cfg (vas.foldl CodeCache.removeReady s) := by
  intro vas
  induction vas with
  | nil => exact fun h => h
  | cons v vas ih => exact fun h => ih (h.removeReady v)

/-- What dropping code leaves: the entries that are not dropped. -/
structure Dropped (cfg : JitConfig) (s : CodeCache) (gone : ℕ → Bool) (s' : CodeCache) : Prop where
  /-- The index is right. -/
  indexed : Indexed cfg s'
  /-- The entries. -/
  get? : ∀ va, s'.cache.get? va = if gone va then none else s.cache.get? va
  /-- The collected writes are as they were. -/
  pending : s'.pendingCodeWrites = s.pendingCodeWrites ∧
    s'.pendingCodeOverflow = s.pendingCodeOverflow

theorem Dropped.ready? {gone : ℕ → Bool} (h : Dropped cfg s gone s') (va : ℕ) :
    s'.ready? va = if gone va then none else s.ready? va := by
  rw [CodeCache.ready?, h.get?]
  split_ifs <;> rfl

/-- **Exactly the blocks that overlap are dropped**, whether or not the index is asked first. -/
theorem Indexed.invalidate (h : Indexed cfg s) (hlen : 0 < len) (ord : HashOrder) (t : ChainTables)
    (addr : ℕ) :
    Dropped cfg s (s.hits addr (satAdd addr len)) (s.invalidateCodeRange cfg ord t addr len).1 := by
  have hnone (hno : ∀ va, s.hits addr (satAdd addr len) va = false) :
      Dropped cfg s (s.hits addr (satAdd addr len)) s :=
    ⟨h, fun va => by rw [hno va]; rfl, rfl, rfl⟩
  rw [invalidateCodeRange]
  by_cases h0 : s.cache.entries.isEmpty = true ∨ len = 0
  · rw [if_pos h0]
    refine hnone fun va => Bool.eq_false_iff.mpr fun hhit => ?_
    obtain ⟨c, hr, -⟩ := hits_iff.mp hhit
    rw [CodeCache.ready?, OrdMap.get?,
      List.isEmpty_iff.mp (h0.resolve_right (Nat.ne_of_gt hlen))] at hr
    cases hr
  by_cases h1 : s.codePagesOverlap addr len = false
  · rw [if_neg h0, if_pos h1]
    exact hnone (h.not_hits hlen h1)
  rw [if_neg h0, if_neg h1]
  show Dropped cfg s _ (if (s.toDrop ord addr (satAdd addr len)).isEmpty = true then (s, t)
    else (_, _)).1
  by_cases h2 : (s.toDrop ord addr (satAdd addr len)).isEmpty = true
  · rw [if_pos h2]
    refine hnone fun va => Bool.eq_false_iff.mpr fun hhit => ?_
    have hmem : va ∈ s.toDrop ord addr (satAdd addr len) := mem_toDrop.mpr hhit
    rw [List.isEmpty_iff.mp h2] at hmem
    cases hmem
  · rw [if_neg h2]
    refine ⟨h.removeAll _, fun va => ?_, removeAll_pending _ s⟩
    rw [get?_removeAll]
    by_cases hva : s.hits addr (satAdd addr len) va = true
    · rw [if_pos (mem_toDrop.mpr hva), if_pos hva]
    · rw [if_neg fun hm => hva (mem_toDrop.mp hm), if_neg hva]

/-- Nothing is dropped for an empty range. -/
theorem invalidateCodeRange_zero (s : CodeCache) (ord : HashOrder) (t : ChainTables) (addr : ℕ) :
    s.invalidateCodeRange cfg ord t addr 0 = (s, t) := by
  rw [invalidateCodeRange, if_pos (.inr rfl)]

/-! ### Safe points -/

/-- The block of an address is on one of the pages. -/
def onPages (s : CodeCache) (pages : List ℕ) (va : ℕ) : Bool :=
  (s.ready? va).any fun c => pages.any c.pages.contains

theorem Indexed.hits_page (h : Indexed cfg s) (page : ℕ) (hp : page < 2 ^ 52) (va : ℕ) :
    s.hits (page * 0x1000) (satAdd (page * 0x1000) 0x1000) va = s.onPages [page] va := by
  rw [hits, onPages]
  cases hr : s.ready? va with
  | none => simp only [Option.any_none]
  | some c =>
    have hpos := (h.shaped va c hr).pos
    have htop := (h.shaped va c hr).top
    simp only [Option.any_some, List.any_cons, List.any_nil, Bool.or_false]
    rw [Bool.eq_iff_iff, List.contains_iff_mem, CompiledBlock.pages,
      mem_codePageSpan_iff_overlap hpos, codeRangesOverlap_iff, codeRangesOverlap_iff, satAdd]
    omega

theorem Dropped.onPages {pages qs : List ℕ} (h : Dropped cfg s (s.onPages pages) s')
    (hva : s.onPages pages va = false) : s'.onPages qs va = s.onPages qs va := by
  rw [CodeCache.onPages, CodeCache.onPages, h.ready?, hva]
  rfl

theorem onPages_cons (s : CodeCache) (page : ℕ) (pages : List ℕ) (va : ℕ) :
    s.onPages (page :: pages) va = (s.onPages [page] va || s.onPages pages va) := by
  rw [onPages, onPages, onPages]
  cases s.ready? va with
  | none => rfl
  | some c => simp

/-- Dropping page by page. -/
theorem Indexed.drainPages (ord : HashOrder) : ∀ (pages : List ℕ) {s : CodeCache},
    Indexed cfg s → (∀ p ∈ pages, p < 2 ^ 52) → ∀ t : ChainTables,
    Dropped cfg s (s.onPages pages) (pages.foldl (fun st page =>
      st.1.invalidateCodeRange cfg ord st.2 (page * 0x1000) 0x1000) (s, t)).1 := by
  intro pages
  induction pages with
  | nil =>
    intro s h _ t
    refine ⟨h, fun va => ?_, rfl, rfl⟩
    rw [onPages]
    cases s.ready? va <;> rfl
  | cons page pages ih =>
    intro s h hp t
    have hfirst := h.invalidate (Nat.succ_pos 0xfff) ord t (page * 0x1000)
    rw [funext (h.hits_page page (hp page (.head _)))] at hfirst
    have hrest := ih hfirst.indexed (fun p hpp => hp p (.tail _ hpp))
      (s.invalidateCodeRange cfg ord t (page * 0x1000) 0x1000).2
    refine ⟨hrest.indexed, fun va => ?_, hrest.pending.1.trans hfirst.pending.1,
      hrest.pending.2.trans hfirst.pending.2⟩
    refine (hrest.get? va).trans ?_
    rw [onPages_cons, hfirst.get? va]
    cases hva : s.onPages [page] va with
    | true => simp
    | false =>
      rw [hfirst.onPages hva]
      simp

/-- **At a safe point exactly the blocks on a page written are dropped**, or all of them. -/
theorem Indexed.drain (h : Indexed cfg s) (hp : ∀ p ∈ s.pendingCodeWrites, p < 2 ^ 52)
    (ord : HashOrder) (t : ChainTables) :
    Dropped cfg { s with pendingCodeWrites := [], pendingCodeOverflow := false }
      (fun va => s.pendingCodeOverflow || s.onPages s.pendingCodeWrites va)
      (s.drainPendingCodeWrites cfg ord t).1 := by
  have h' : Indexed cfg { s with pendingCodeWrites := [], pendingCodeOverflow := false } :=
    h.congr rfl rfl rfl
  rw [drainPendingCodeWrites]
  cases hover : s.pendingCodeOverflow with
  | true => exact ⟨h'.dropAll t, fun va => get?_dropAll _ t va, dropAll_pending _ t⟩
  | false => exact h'.drainPages ord _ hp t

/-- Collecting writes touches neither the cache nor its index. -/
theorem noteLoop_cache : ∀ (pages : List ℕ) (s : CodeCache), (s.noteLoop pages).cache = s.cache ∧
    (s.noteLoop pages).chainIds = s.chainIds ∧ (s.noteLoop pages).codePages = s.codePages := by
  intro pages
  induction pages with
  | nil => exact fun s => ⟨rfl, rfl, rfl⟩
  | cons page pages ih =>
    intro s
    rw [noteLoop]
    split_ifs
    · exact ⟨rfl, rfl, rfl⟩
    · exact ih _
    · exact ih s

theorem noteCodeWrite_cache (s : CodeCache) (address len : ℕ) :
    (s.noteCodeWrite address len).cache = s.cache ∧
      (s.noteCodeWrite address len).chainIds = s.chainIds ∧
      (s.noteCodeWrite address len).codePages = s.codePages := by
  rw [noteCodeWrite]
  split_ifs
  · exact ⟨rfl, rfl, rfl⟩
  · exact ⟨rfl, rfl, rfl⟩
  · exact noteLoop_cache _ s

/-- How the loop ends. -/
theorem noteLoop_eq : ∀ (pages : List ℕ) (s : CodeCache), (s.pendingCodeWrites ++ pages).Nodup →
    s.pendingCodeWrites.length ≤ PENDING_WRITE_PAGE_CAP →
    s.noteLoop pages =
      if s.pendingCodeWrites.length + pages.length ≤ PENDING_WRITE_PAGE_CAP then
        { s with pendingCodeWrites := s.pendingCodeWrites ++ pages }
      else { s with pendingCodeOverflow := true, pendingCodeWrites := [] } := by
  intro pages
  induction pages with
  | nil =>
    intro s _ hle
    rw [List.length_nil, Nat.add_zero, if_pos hle, List.append_nil]
    rfl
  | cons page pages ih =>
    intro s hnd hle
    rw [noteLoop, List.length_cons]
    by_cases hfull : s.pendingCodeWrites.length ≥ PENDING_WRITE_PAGE_CAP
    · rw [if_pos hfull, if_neg (by omega)]
    · have hnew : s.pendingCodeWrites.getLast? ≠ some page := fun hl =>
        (List.nodup_append.mp hnd).2.2 page (List.mem_of_getLast? hl) page (.head _) rfl
      rw [if_neg hfull, if_pos hnew, ih]
      · rw [List.length_append, List.length_singleton, Nat.add_assoc, Nat.add_comm 1,
          List.append_assoc, List.singleton_append]
      · rwa [List.append_assoc, List.singleton_append]
      · rw [List.length_append, List.length_singleton]
        omega

/-- **What is collected**: the pages of the write, or that they are too many. -/
theorem noteCodeWrite_eq (hp : s.pendingCodeWrites = []) (ho : s.pendingCodeOverflow = false)
    (hlen : 0 < len) (htop : addr + len < 2 ^ 64) :
    s.noteCodeWrite addr len =
      if (codePageSpan addr (addr + len)).length ≤ PENDING_WRITE_PAGE_CAP then
        { s with pendingCodeWrites := codePageSpan addr (addr + len) }
      else { s with pendingCodeOverflow := true, pendingCodeWrites := [] } := by
  have hnd := nodup_codePageSpan addr (addr + len)
  rw [noteCodeWrite, satAdd_of_lt htop, if_neg (by rw [ho]; simp; omega), if_neg (by omega),
    noteLoop_eq _ s (by rwa [hp]) (by rw [hp]; exact Nat.zero_le _), hp, List.length_nil,
    Nat.zero_add, List.nil_append]

end CodeCache

end Wie
