import Wie.Jit.Tlb

/-!
# What the TLB guarantees

A line is right when it points to where its page is and grants no more than the page does. It is not
asked to grant as much: a pin that may only be read leaves a line that may only be read, and the
store that misses it goes another way. A line of an older generation is not asked anything.

So every place to look has to answer one question only, whether what is found was made in the
current generation, and every way to fill one has to put in a line that is right.

## Main definitions

* `LineOk`, `PinOk`, `Tlb.Sound` — what is remembered is right
* `Tlb.Ordered` — the sets and the sticky pages hold no page twice
* `Tlb.Access` — what a pointer guarantees

## Main results

* `Tlb.Sound.still` — a call leaves what is remembered right
* `Tlb.Sound.pagePtr`, `Tlb.Sound.probe` — what the pointers guarantee
* `Tlb.Sound.callLoad_eq`, `Tlb.Sound.callStore_ends` — accesses are those of the checked path
-/

namespace Wie

open GuestMemory

variable {env : HostEnv} {m m' : GuestMemory} {t : Tlb} {line : TlbLine} {pin : MemPin}
  {addr size p page : ℕ} {write : Bool} {prot : TlbProt}

/-- A page is committed, and grants what `prot` does: stores only where no code may run. -/
def PageGrants (m : GuestMemory) (page : ℕ) (prot : TlbProt) : Prop :=
  ∃ protect, m.pages.table page = some (.committed, protect) ∧
    (prot.r = true → Protect.allowsRead protect = true) ∧
    (prot.w = true → Protect.allowsWrite protect = true ∧ Protect.allowsExecute protect = false)

/-- A line is not from the future, and right if it is of the present. -/
def LineOk (m : GuestMemory) (l : TlbLine) : Prop :=
  l.generation ≤ m.generation ∧ (l.page ≠ TLB_EMPTY → l.generation = m.generation →
    m.backend.hostAddr (l.page * 0x1000) = some l.host ∧ PageGrants m l.page l.prot)

/-- So is a pin, for all of its range. -/
def PinOk (m : GuestMemory) (p : MemPin) : Prop :=
  p.memGen ≤ m.generation ∧ (p.hostBase ≠ 0 → p.memGen = m.generation → p.guestEnd < 2 ^ 64 ∧
    ∀ x, p.guestBase ≤ x → x < p.guestEnd →
      m.backend.hostAddr x = some (p.hostBase + (x - p.guestBase)) ∧
      PageGrants m (x / 0x1000) p.allow)

namespace Tlb

/-- What is remembered is right. -/
structure Sound (m : GuestMemory) (t : Tlb) : Prop where
  /-- The lines of the sets are. -/
  sets : ∀ s, ∀ l ∈ (t.sets s).ways, LineOk m l
  /-- The sticky pages are. -/
  sticky : ∀ l ∈ t.sticky, LineOk m l
  /-- The pins are. -/
  pins : ∀ p ∈ t.pins, PinOk m p

/-- No page is in two ways of its set, or sticky twice. -/
structure Ordered (t : Tlb) : Prop where
  /-- The sets are in order. -/
  sets : ∀ s, Packed TlbLine.page TLB_EMPTY (t.sets s).ways
  /-- The sticky pages are. -/
  sticky : Packed TlbLine.page TLB_EMPTY t.sticky

/-- What a pointer to `size` bytes guarantees: the access is granted, the bytes are there, and code
is not written. -/
structure Access (m : GuestMemory) (addr size : ℕ) (write : Bool) (p : ℕ) : Prop where
  /-- The permission check grants the access. -/
  granted : m.Granted (spanKind write) addr size
  /-- The bytes are where the pointer says. -/
  host : ∀ i < size, m.backend.hostAddr (addr + i) = some (p + i)
  /-- No store reaches code. -/
  spares : write = true → ∀ x, addr ≤ x → x < addr + size →
    m.pages.table.grants .execute (x / 0x1000) = false

end Tlb

/-! ### Pages -/

theorem PageGrants.grants (h : PageGrants m page prot) (ha : prot.allows write = true) :
    m.pages.table.grants (spanKind write) page = true := by
  obtain ⟨protect, ht, hr, hw⟩ := h
  cases write with
  | false => exact PageTable.grants_iff.mpr ⟨protect, ht, hr ha⟩
  | true => exact PageTable.grants_iff.mpr ⟨protect, ht, (hw ha).1⟩

theorem PageGrants.spares (h : PageGrants m page prot) (hw : prot.w = true) :
    m.pages.table.grants .execute page = false := by
  obtain ⟨protect, ht, -, hwx⟩ := h
  simp [PageTable.grants, ht, Protect.allows, (hwx hw).2]

theorem PageGrants.congr (h : PageGrants m page prot) (ht : m'.pages.table = m.pages.table) :
    PageGrants m' page prot := by
  rw [PageGrants, ht]
  exact h

/-- What a walk finds is right. -/
theorem GuestMemory.Inv.pageTlbEntry_ok (h : Inv env m) {e : PageTlbEntry}
    (he : m.pageTlbEntry page = some e) :
    LineOk m ⟨page, e.host, packTlbProt e.allowR e.allowW, e.generation⟩ := by
  rw [pageTlbEntry, pageProtectMeta] at he
  cases hl : m.pages.lookup page with
  | none =>
    rw [hl] at he
    cases he
  | some run =>
    rw [hl, h.placed.pageDataPtr_eq] at he
    dsimp only at he
    by_cases hst : run.state = .committed
    · rw [if_neg (not_not_intro hst)] at he
      split_ifs at he
      cases hh : m.backend.hostAddr (page * 0x1000) with
      | none =>
        rw [hh] at he
        cases he
      | some host =>
        rw [hh] at he
        cases he
        refine ⟨le_rfl, fun _ _ => ⟨hh, run.protect, ?_, id, fun hw => ?_⟩⟩
        · rw [h.pages.table_eq, hl, Option.map_some, hst]
        · simpa [packTlbProt] using hw
    · rw [if_pos hst] at he
      cases he

/-! ### Pins -/

/-- **Every pin is made by the same function.** -/
theorem GuestMemory.forall_jitRegionPins {P : RegionPinInfo → Prop}
    (hP : ∀ lo hi pin, m.spanPin lo hi = some pin → P pin) {pin : RegionPinInfo}
    (hp : some pin ∈ m.jitRegionPins) : P pin := by
  have hregion (r : GuestRegion) (pin) (hr : m.regionPin r = some pin) : P pin := hP _ _ _ hr
  have hheap : ∀ c ∈ m.heapCandidates, P c.2 := by
    intro c hc
    obtain ⟨r, -, hr⟩ := List.mem_filterMap.mp hc
    split at hr
    · obtain ⟨pin, hpin, rfl⟩ := Option.map_eq_some_iff.mp hr
      exact hregion r pin hpin
    · cases hr
  have hrun (chosen candidates span) (hc : ∀ c ∈ candidates, P c.2) :
      ∀ c ∈ m.addRun chosen candidates span, P c.2 := by
    intro c hmem
    rw [addRun] at hmem
    split_ifs at hmem
    · exact hc c hmem
    · exact hc c hmem
    · exact hc c hmem
    · cases hs : m.spanPin span.1 span.2 with
      | none =>
        rw [hs] at hmem
        exact hc c hmem
      | some pin =>
        rw [hs] at hmem
        dsimp only at hmem
        split_ifs at hmem
        · exact hc c hmem
        · rcases List.mem_append.mp hmem with hmem | hmem
          · exact hc c hmem
          · rw [List.mem_singleton.mp hmem]
            exact hP _ _ _ hs
  have hnode (chosen candidates node) (hc : ∀ c ∈ candidates, P c.2) :
      ∀ c ∈ m.addNode chosen candidates node, P c.2 := by
    rw [addNode]
    split_ifs
    · exact hc
    · exact List.foldlRecOn _ _ hc fun c hc' span _ => hrun chosen c span hc'
  have hall (chosen) : ∀ c ∈ m.vad.nodes.foldl (m.addNode chosen) m.heapCandidates, P c.2 :=
    List.foldlRecOn _ _ hheap fun c hc node _ => hnode chosen c node hc
  have hfill : ∀ (l : List (ℕ × RegionPinInfo)) (slot : ℕ) (chosen : List (ℕ × ℕ))
      (out : List (Option RegionPinInfo)), (∀ c ∈ l, P c.2) → (∀ q, some q ∈ out → P q) →
      ∀ q, some q ∈ fillSlots l slot chosen out → P q := by
    intro l
    induction l with
    | nil => exact fun _ _ _ _ ho => ho
    | cons c rest ih =>
      intro slot chosen out hl ho
      have hrest : ∀ c ∈ rest, P c.2 := fun c hc => hl c (List.mem_cons_of_mem _ hc)
      rw [fillSlots]
      split_ifs
      · exact ho
      · exact ih _ _ _ hrest ho
      · refine ih _ _ _ hrest fun q hq => ?_
        rcases List.mem_or_eq_of_mem_set hq with hq | hq
        · exact ho q hq
        · cases hq
          exact hl c List.mem_cons_self
  refine hfill _ _ _ _ (fun c hc => hall _ c ((List.mem_insertionSort _).mp hc)) (fun q hq => ?_)
    pin hp
  split at hq
  · exact absurd (List.eq_of_mem_replicate hq) nofun
  · rename_i pin hst
    obtain ⟨r, -, hr⟩ := Option.bind_eq_some_iff.mp hst
    rcases List.mem_or_eq_of_mem_set hq with hq | hq
    · exact absurd (List.eq_of_mem_replicate hq) nofun
    · cases hq
      exact hregion r _ hr

/-- A pin bears the generation it was made in. -/
theorem GuestMemory.spanPin_generation {lo hi : ℕ} {pin : RegionPinInfo}
    (h : m.spanPin lo hi = some pin) : pin.generation = m.generation := by
  rw [spanPin] at h
  split_ifs at h
  split at h
  · split_ifs at h
    split at h
    · cases h
    · split_ifs at h
      dsimp only at h
      split at h
      · cases h
      · split_ifs at h
        cases h
        rfl
  · cases h

theorem pinOk_empty : PinOk m .empty := ⟨Nat.zero_le _, fun h => absurd rfl h⟩

theorem lineOk_empty : LineOk m .empty := ⟨Nat.zero_le _, fun h => absurd rfl h⟩

/-- A pin that was just made is right. -/
theorem GuestMemory.Inv.pinOk_fromInfo (h : Inv env m) {info : Option RegionPinInfo}
    (hi : info ∈ m.jitRegionPins) : PinOk m (.fromInfo info) := by
  cases info with
  | none => exact pinOk_empty
  | some pin =>
    obtain ⟨lo, hi', hpin⟩ : ∃ lo hi, m.spanPin lo hi = some pin :=
      forall_jitRegionPins (P := fun pin => ∃ lo hi, m.spanPin lo hi = some pin)
        (fun lo hi pin hp => ⟨lo, hi, hp⟩) hi
    have hs := (h.spanPin_spec hpin).2.2
    rw [MemPin.fromInfo]
    split_ifs
    · exact pinOk_empty
    · exact pinOk_empty
    · exact ⟨(spanPin_generation hpin).le, fun _ _ => ⟨hs.top, fun x h1 h2 =>
        ⟨hs.host x h1 h2, hs.rights x h1 h2⟩⟩⟩

/-! ### What a call leaves right -/

theorem GuestMemory.Still.hostAddr (hs : Still m m') {x p : ℕ}
    (hx : m.backend.hostAddr x = some p) : m'.backend.hostAddr x = some p := by
  obtain ⟨a, ha, rfl⟩ := Option.map_eq_some_iff.mp hx
  rw [ArenaSet.hostAddr, hs.spans _ _ ha]
  rfl

theorem GuestMemory.Still.table (hs : Still m m') : m'.pages.table = m.pages.table := by
  rw [PageMap.table, PageMap.table, hs.runs]

/-- A line is right after a call that leaves translations alone, and after one that moves the
generation on. -/
theorem LineOk.mono (h : LineOk m line)
    (hc : m.generation < m'.generation ∨ (m'.generation = m.generation ∧ Still m m')) :
    LineOk m' line := by
  obtain ⟨hle, hnow⟩ := h
  rcases hc with hlt | ⟨heq, hs⟩
  · exact ⟨by omega, fun _ hg => by omega⟩
  · refine ⟨by omega, fun hne hg => ?_⟩
    obtain ⟨hhost, hgr⟩ := hnow hne (by omega)
    exact ⟨hs.hostAddr hhost, hgr.congr hs.table⟩

theorem PinOk.mono (h : PinOk m pin)
    (hc : m.generation < m'.generation ∨ (m'.generation = m.generation ∧ Still m m')) :
    PinOk m' pin := by
  obtain ⟨hle, hnow⟩ := h
  rcases hc with hlt | ⟨heq, hs⟩
  · exact ⟨by omega, fun _ hg => by omega⟩
  · refine ⟨by omega, fun hne hg => ?_⟩
    obtain ⟨htop, hall⟩ := hnow hne (by omega)
    refine ⟨htop, fun x h1 h2 => ?_⟩
    obtain ⟨hhost, hgr⟩ := hall x h1 h2
    exact ⟨hs.hostAddr hhost, hgr.congr hs.table⟩

namespace Tlb

/-- **What is remembered stays right.** -/
theorem Sound.mono (h : t.Sound m)
    (hc : m.generation < m'.generation ∨ (m'.generation = m.generation ∧ Still m m')) :
    t.Sound m' where
  sets s l hl := (h.sets s l hl).mono hc
  sticky l hl := (h.sticky l hl).mono hc
  pins p hp := (h.pins p hp).mono hc

/-- Memory that is the same. -/
theorem Sound.same (h : t.Sound m) (hs : Same m m') : t.Sound m' :=
  h.mono (.inr ⟨hs.generation, hs.runs, fun x a hx => by rwa [hs.backend]⟩)

/-- A write of the checked path. -/
theorem Sound.wrote {bytes : List UInt8} (h : t.Sound m) (hw : Wrote env m addr bytes m') :
    t.Sound m' :=
  h.mono (.inr ⟨hw.generation, hw.runs, fun x a hx => by
    rwa [ArenaSet.spanAt_congr hw.backend.arenas]⟩)

/-- A call, as long as the generation is not stuck at its last value. -/
theorem Sound.still {op : Op} (h : t.Sound m) (hi : Inv env m) (hg : m.generation < 2 ^ 64 - 1)
    (hs : Step env m op m') : t.Sound m' := by
  refine h.mono ?_
  rcases (hs.change hi).still hi with hgen | hst
  · refine .inl ?_
    rw [hgen, satAdd]
    omega
  · exact .inr hst

theorem sound_clear (memGen : ℕ) : (clear memGen).Sound m where
  sets s l hl := by
    rw [List.eq_of_mem_replicate hl]
    exact lineOk_empty
  sticky l hl := by
    rw [List.eq_of_mem_replicate hl]
    exact lineOk_empty
  pins p hp := by
    rw [List.eq_of_mem_replicate hp]
    exact pinOk_empty

theorem ordered_clear (memGen : ℕ) : (clear memGen).Ordered where
  sets _ := packed_replicate _ rfl
  sticky := packed_replicate _ rfl

theorem Sound.enter (h : t.Sound m) (hi : Inv env m) : (t.enter m).Sound m := by
  rw [Tlb.enter]
  split_ifs
  · refine ⟨h.sets, h.sticky, fun p hp => ?_⟩
    obtain ⟨info, hinfo, rfl⟩ := List.mem_map.mp hp
    exact hi.pinOk_fromInfo hinfo
  · exact ⟨h.sets, h.sticky, h.pins⟩

theorem Ordered.enter (h : t.Ordered) (m : GuestMemory) : (t.enter m).Ordered := by
  rw [Tlb.enter]
  split_ifs <;> exact ⟨h.sets, h.sticky⟩

@[simp]
theorem enter_memGen (t : Tlb) (m : GuestMemory) : (t.enter m).memGen = m.generation := by
  rw [Tlb.enter]
  split_ifs <;> rfl

/-! ### Filling -/

theorem Sound.setHot (h : t.Sound m) (hl : LineOk m line) : (t.setHot line).Sound m := by
  rw [Tlb.setHot]
  split_ifs
  · refine ⟨h.sets, fun l hm => ?_, h.pins⟩
    rcases List.mem_or_eq_of_mem_set hm with hm | rfl
    · exact h.sticky l hm
    · exact hl
  · refine ⟨h.sets, fun l hm => ?_, h.pins⟩
    rcases mem_of_mem_moveToFront hm with hm | rfl | rfl
    · exact h.sticky l hm
    · exact hl
    · exact lineOk_empty

theorem Ordered.setHot (h : t.Ordered) (hl : line.page ≠ TLB_EMPTY) : (t.setHot line).Ordered := by
  rw [Tlb.setHot]
  split_ifs with h0
  · refine ⟨h.sets, h.sticky.set_zero hl ?_⟩
    obtain ⟨hlt, hkey, -⟩ := List.findIdx?_eq_some_iff_getElem.mp h0
    exact ⟨_, List.getElem?_eq_getElem hlt, by simpa using hkey⟩
  · exact ⟨h.sets, h.sticky.moveToFront hl rfl _⟩

theorem ways_install (t : Tlb) (line : TlbLine) (s : Fin TLB_SETS) :
    ((t.install line).sets s).ways =
      if s = tlbSetIndex line.page then
        fillWay TlbLine.page TLB_EMPTY ((t.sets (tlbSetIndex line.page)).rr % TLB_WAYS_PER_SET)
          line (t.sets (tlbSetIndex line.page)).ways
      else (t.sets s).ways := by
  rw [Tlb.install]
  dsimp only
  rw [Function.update_apply]
  by_cases hs : s = tlbSetIndex line.page
  · rw [if_pos hs, if_pos hs]
  · rw [if_neg hs, if_neg hs]

theorem Sound.install (h : t.Sound m) (hl : LineOk m line) : (t.install line).Sound m := by
  refine ⟨fun s l hm => ?_, h.sticky, h.pins⟩
  rw [ways_install] at hm
  split_ifs at hm
  · rcases mem_of_mem_fillWay hm with hm | rfl
    · exact h.sets _ l hm
    · exact hl
  · exact h.sets s l hm

theorem Ordered.install (h : t.Ordered) (hl : line.page ≠ TLB_EMPTY) :
    (t.install line).Ordered := by
  refine ⟨fun s => ?_, h.sticky⟩
  rw [ways_install]
  split_ifs
  · exact (h.sets _).fillWay hl _
  · exact h.sets s

@[simp] theorem setHot_memGen (t : Tlb) (line : TlbLine) : (t.setHot line).memGen = t.memGen := by
  rw [Tlb.setHot]
  split_ifs <;> rfl

@[simp] theorem install_memGen (t : Tlb) (line : TlbLine) :
    (t.install line).memGen = t.memGen := rfl

/-! ### Pointers -/

/-- **A line that is found guarantees its pointer.** -/
theorem LineOk.access (hi : Inv env m) (hl : LineOk m line) (hpage : line.page = addr / 0x1000)
    (hne : line.page ≠ TLB_EMPTY) (hu : line.usable m.generation write = true)
    (hfit : addr % 0x1000 + size ≤ 0x1000) :
    Access m addr size write (line.host + addr % 0x1000) := by
  simp only [TlbLine.usable, Bool.and_eq_true, decide_eq_true_eq] at hu
  obtain ⟨⟨-, hgen⟩, hprot⟩ := hu
  obtain ⟨hhost, hgr⟩ := hl.2 hne hgen
  have hin (x : ℕ) (h1 : addr ≤ x) (h2 : x < addr + size) : x / 0x1000 = line.page := by omega
  refine ⟨fun x h1 h2 => ?_, fun i hi' => ?_, fun hw x h1 h2 => ?_⟩
  · rw [hin x h1 h2]
    exact hgr.grants hprot
  · have := hi.placed.hostAddr_add hhost (i := addr % 0x1000 + i) (by omega)
    rwa [show line.page * 0x1000 + (addr % 0x1000 + i) = addr + i by omega, ← Nat.add_assoc] at this
  · subst hw
    rw [hin x h1 h2]
    exact hgr.spares hprot

/-- **So does a pin.** -/
theorem PinOk.access (hp : PinOk m pin) (h0 : pin.hostBase ≠ 0) (hgen : pin.memGen = m.generation)
    (hlo : pin.guestBase ≤ addr) (hhi : addr + size ≤ pin.guestEnd)
    (hprot : pin.allow.allows write = true) :
    Access m addr size write (pin.hostBase + (addr - pin.guestBase)) := by
  obtain ⟨-, hall⟩ := hp.2 h0 hgen
  refine ⟨fun x h1 h2 => ?_, fun i hi => ?_, fun hw x h1 h2 => ?_⟩
  · exact (hall x (by omega) (by omega)).2.grants hprot
  · rw [(hall (addr + i) (by omega) (by omega)).1]
    congr 1
    omega
  · subst hw
    exact (hall x (by omega) (by omega)).2.spares hprot

theorem usable_of_find {ways : List TlbLine} {pageKey memGen : ℕ} {l : TlbLine}
    (hf : ways.find? (fun l => decide (l.page = pageKey) && l.usable memGen write) = some l) :
    l ∈ ways ∧ l.page = pageKey ∧ l.usable memGen write = true := by
  have hp := List.find?_some hf
  rw [Bool.and_eq_true, decide_eq_true_eq] at hp
  exact ⟨List.mem_of_find?_eq_some hf, hp⟩

/-- The two forms of the lookup find lines that will do. -/
theorem usable_of_bucketLookup {neon : Bool} {b : TlbBucket} {pageKey memGen : ℕ} {l : TlbLine}
    (hf : bucketLookup neon b pageKey write memGen = some l) :
    l ∈ b.ways ∧ l.page = pageKey ∧ l.usable memGen write = true := by
  rw [bucketLookup] at hf
  split_ifs at hf
  · obtain ⟨hfind, hu⟩ := Option.filter_eq_some_iff.mp hf
    exact ⟨List.mem_of_find?_eq_some hfind, by simpa using List.find?_some hfind, hu⟩
  · exact usable_of_find hf

/-- A key of an address is no vacant key. -/
theorem page_ne_empty (ha : addr < 2 ^ 64) : addr / 0x1000 ≠ TLB_EMPTY := by
  rw [TLB_EMPTY]
  omega

/-- A line found again is right at the front. -/
theorem LineOk.again (hl : LineOk m line) (hpage : line.page = addr / 0x1000)
    (hu : line.usable m.generation write = true) :
    LineOk m ⟨addr / 0x1000, line.host, line.prot, m.generation⟩ := by
  simp only [TlbLine.usable, Bool.and_eq_true, decide_eq_true_eq] at hu
  obtain ⟨⟨-, hgen⟩, -⟩ := hu
  rw [← hpage, ← hgen]
  exact hl

/-- **A pin that fits**, and the line it leaves. -/
theorem Sound.pinResolve (h : t.Sound m) (hi : Inv env m) (hcur : t.memGen = m.generation)
    {r : ℕ × Tlb} (hr : t.pinResolve addr size write = some r) :
    Access m addr size write r.1 ∧ r.2.Sound m ∧ (t.Ordered → r.2.Ordered) ∧
      r.2.memGen = t.memGen := by
  rw [Tlb.pinResolve] at hr
  split_ifs at hr with h0
  cases hadd : checkedAdd addr size with
  | none =>
    rw [hadd] at hr
    cases hr
  | some stop =>
    rw [hadd] at hr
    obtain ⟨rfl, hlt⟩ := checkedAdd_eq_some.mp hadd
    dsimp only at hr
    cases hf : t.pins.find? (pinFits t.memGen addr (addr + size) write) with
    | none =>
      rw [hf] at hr
      cases hr
    | some pin =>
      rw [hf] at hr
      cases hr
      have hfits := List.find?_some hf
      simp only [pinFits, Bool.and_eq_true, decide_eq_true_eq] at hfits
      obtain ⟨⟨⟨⟨hnz, hgen⟩, hlo⟩, hhi⟩, hprot⟩ := hfits
      have hok := h.pins pin (List.mem_of_find?_eq_some hf)
      rw [hcur] at hgen
      have hacc := PinOk.access hok hnz hgen hlo hhi hprot
      -- the page of the address is backed from its start on
      have hline : LineOk m ⟨addr / 0x1000, pin.hostBase + (addr - pin.guestBase) - addr % 0x1000,
          pin.allow, pin.memGen⟩ := by
        refine ⟨hok.1, fun _ _ => ?_⟩
        obtain ⟨hhost, hgr⟩ := (hok.2 hnz hgen).2 addr hlo (by omega)
        refine ⟨?_, hgr⟩
        dsimp only
        obtain ⟨protect, ht, -⟩ := hgr
        obtain ⟨q, hq⟩ := Option.isSome_iff_exists.mp (hi.backed (addr / 0x1000 * 0x1000) (by
          rw [Nat.mul_div_cancel _ (by decide), ht]
          exact nofun))
        have := hi.placed.hostAddr_add hq (i := addr % 0x1000) (by omega)
        rw [show addr / 0x1000 * 0x1000 + addr % 0x1000 = addr by omega, hhost,
          Option.some.injEq] at this
        rw [hq, this, Nat.add_sub_cancel]
      have hne := page_ne_empty (show addr < 2 ^ 64 by omega)
      exact ⟨hacc, (h.install hline).setHot hline, fun ho => (ho.install hne).setHot hne, by simp⟩

/-- **The walk**, and the line it leaves. -/
theorem Sound.walk (h : t.Sound m) (hi : Inv env m) (ha : addr < 2 ^ 64)
    (hfit : addr % 0x1000 + size ≤ 0x1000) :
    (walk m t addr write).2.Sound m ∧ (t.Ordered → (walk m t addr write).2.Ordered) ∧
      (walk m t addr write).2.memGen = t.memGen ∧
      ∀ p, (walk m t addr write).1 = some p → Access m addr size write p := by
  rw [Tlb.walk]
  cases he : m.pageTlbEntry (addr / 0x1000) with
  | none => exact ⟨h, id, rfl, nofun⟩
  | some e =>
    have hline := hi.pageTlbEntry_ok he
    have hne := page_ne_empty ha
    refine ⟨(h.install hline).setHot hline, fun ho => (ho.install hne).setHot hne, by simp,
      fun p hp => ?_⟩
    dsimp only at hp
    split_ifs at hp with hprot
    cases hp
    rw [pageTlbEntry] at he
    split at he
    · cases he
    · split at he
      · cases he
      · rename_i host hh
        cases he
        rw [hi.placed.pageDataPtr_eq] at hh
        have h0 : host ≠ 0 := by
          rintro rfl
          obtain ⟨a, ham, hax, h0⟩ := hi.placed.hostAddr_eq_some.mp hh
          have := hi.placed.based a ham
          omega
        exact LineOk.access hi hline rfl hne (by simp [TlbLine.usable, h0, hprot]) hfit

/-- **What the helpers find.** -/
theorem Sound.pagePtr (h : t.Sound m) (hi : Inv env m) (hcur : t.memGen = m.generation)
    (ha : addr < 2 ^ 64) (size : ℕ) (write neon : Bool) :
    (pagePtr neon m t addr size write).2.Sound m ∧
      (t.Ordered → (pagePtr neon m t addr size write).2.Ordered) ∧
      (pagePtr neon m t addr size write).2.memGen = t.memGen ∧
      ∀ p, (pagePtr neon m t addr size write).1 = some p → Access m addr size write p := by
  have hne := page_ne_empty ha
  rw [Tlb.pagePtr]
  split_ifs with hcross
  · exact ⟨h, id, rfl, nofun⟩
  · have hfit : addr % 0x1000 + size ≤ 0x1000 := not_lt.mp hcross
    cases hs : t.stickyLookup (addr / 0x1000) write with
    | some l =>
      obtain ⟨hm, hpage, hu⟩ := usable_of_find hs
      rw [hcur] at hu
      refine ⟨h, id, rfl, fun p hp => ?_⟩
      cases hp
      exact LineOk.access hi (h.sticky l hm) hpage (hpage ▸ hne) hu hfit
    | none =>
      dsimp only
      cases hb : bucketLookup neon (t.sets (tlbSetIndex (addr / 0x1000))) (addr / 0x1000) write
          t.memGen with
      | some l =>
        obtain ⟨hm, hpage, hu⟩ := usable_of_bucketLookup hb
        rw [hcur] at hu
        have hok := h.sets _ l hm
        refine ⟨h.setHot ?_, fun ho => ho.setHot hne, by simp, fun p hp => ?_⟩
        · rw [hcur]
          exact LineOk.again hok hpage hu
        · cases hp
          exact LineOk.access hi hok hpage (hpage ▸ hne) hu hfit
      | none =>
        dsimp only
        cases hp : t.pinResolve addr size write with
        | some r =>
          obtain ⟨hacc, hsound, hord, hgen⟩ := h.pinResolve hi hcur hp
          refine ⟨hsound, hord, hgen, fun p hp => ?_⟩
          cases hp
          exact hacc
        | none => exact h.walk hi ha hfit

/-- A pin of a block guarantees its pointer. -/
theorem Sound.hoistedPinProbe (h : t.Sound m) (hcur : t.memGen = m.generation) (ha : addr < 2 ^ 64)
    (hs : size ≤ 8) {slot : ℕ} (hp : t.hoistedPinProbe slot addr size write = some p) :
    Access m addr size write p := by
  rw [Tlb.hoistedPinProbe] at hp
  split_ifs at hp with hc
  obtain ⟨hnz, hgen, hwrap, hlo, hhi, hprot⟩ := hc
  cases hp
  have hok : PinOk m (t.pins.getD slot .empty) := by
    rw [List.getD_eq_getElem?_getD]
    cases hg : t.pins[slot]? with
    | none => exact pinOk_empty
    | some pin => exact h.pins pin (List.mem_of_getElem? hg)
  rw [hcur] at hgen
  -- a sum that wraps is below the address
  have hsum : (addr + size) % 2 ^ 64 = addr + size := by
    rw [Nat.mod_eq_of_lt]
    omega
  exact PinOk.access hok hnz hgen hlo (by omega) hprot

/-- **What the probes of a block find.** -/
theorem Sound.probe (h : t.Sound m) (hi : Inv env m) (hcur : t.memGen = m.generation)
    (ha : addr < 2 ^ 64) (hs : size ≤ 8) {e : MemEnv}
    (hp : t.probe e addr size write = some p) : Access m addr size write p := by
  rw [Tlb.probe] at hp
  split_ifs at hp
  rcases Option.or_eq_some_iff.mp hp with hp | ⟨-, hp⟩
  · obtain ⟨slot, -, hp⟩ := Option.bind_eq_some_iff.mp hp
    exact h.hoistedPinProbe hcur ha hs hp
  · rcases Option.or_eq_some_iff.mp hp with hp | ⟨-, hp⟩
    · rw [stickyTlbProbe] at hp
      split_ifs at hp with hfit
      obtain ⟨l, hl, rfl⟩ := Option.map_eq_some_iff.mp hp
      obtain ⟨hm, hpage, hu⟩ := usable_of_find hl
      rw [hcur] at hu
      exact LineOk.access hi (h.sticky l hm) hpage (hpage ▸ page_ne_empty ha) hu hfit
    · obtain ⟨slot, -, hp⟩ := List.exists_of_findSome?_eq_some hp
      exact h.hoistedPinProbe hcur ha hs hp

/-! ### Accesses -/

/-- The sizes of registers. -/
def WordSize (size : ℕ) : Prop := size = 1 ∨ size = 2 ∨ size = 4 ∨ size = 8

theorem WordSize.pos (h : WordSize size) : 0 < size := by
  rcases h with rfl | rfl | rfl | rfl <;> decide

theorem WordSize.le (h : WordSize size) : size ≤ 8 := by
  rcases h with rfl | rfl | rfl | rfl <;> decide

theorem WordSize.not (h : WordSize size) : ¬(size = 0 ∨ 8 < size) := by
  have := h.pos
  have := h.le
  omega

theorem loadValue_eq {bytes : List UInt8} (h : WordSize bytes.length) :
    loadValue bytes = fromLe bytes := if_pos h

/-- A pointer that may be read can be read, and what is there is what the checked path reads. -/
theorem Access.load (hi : Inv env m) (hpos : 0 < size) (h : Access m addr size false p) :
    m.backend.host.load env p size = some (m.flat.bytes addr size) ∧
      m.flat.load addr size = some (m.flat.bytes addr size) := by
  classical
  refine ⟨(Host.load_eq_some hpos).mpr ⟨fun x h1 h2 => ?_, ?_⟩, ?_⟩
  · have hx := h.host (x - p) (by omega)
    rw [Nat.add_sub_of_le h1] at hx
    obtain ⟨p', q, hp', hq, hr⟩ := hi.readable.hostPermits hi.placed (Option.isSome_of_eq_some hx)
    rw [hx] at hp'
    cases hp'
    exact ⟨q, hq, hr⟩
  · refine List.map_congr_left fun i hi' => ?_
    show ((m.backend.hostAddr (addr + i)).map m.backend.host.mem).getD 0 = _
    rw [h.host i (List.mem_range.mp hi')]
    rfl
  · rw [load_flat]
    exact if_pos h.granted

/-- **A load is a load of the checked path.** -/
theorem Sound.callLoad_eq (h : t.Sound m) (hi : Inv env m) (hcur : t.memGen = m.generation)
    (ha : addr < 2 ^ 64) (hs : WordSize size) (e : MemEnv) :
    ∃ t' m', callLoad env e m t addr size = some ((m.flat.load addr size).map fromLe, t', m') ∧
      Same m m' ∧ t'.Sound m' ∧ (t.Ordered → t'.Ordered) ∧ t'.memGen = t.memGen := by
  rw [callLoad]
  cases hp : t.probe e addr size false with
  | some p =>
    obtain ⟨hl, hf⟩ := (h.probe hi hcur ha hs.le hp).load hi hs.pos
    refine ⟨t, m, ?_, .refl hi.pages, h, id, rfl⟩
    rw [hf]
    dsimp only
    rw [hl]
    rfl
  | none =>
    dsimp only
    rw [Tlb.load, if_neg hs.not]
    obtain ⟨hsound, hord, hgen, hacc⟩ := h.pagePtr hi hcur ha size false e.neon
    cases hpp : Tlb.pagePtr e.neon m t addr size false with
    | mk r t' =>
      rw [hpp] at hsound hord hgen hacc
      cases r with
      | some p =>
        obtain ⟨hl, hf⟩ := (hacc p rfl).load hi hs.pos
        refine ⟨t', m, ?_, .refl hi.pages, hsound, hord, hgen⟩
        rw [hf]
        dsimp only
        rw [hl, Option.map_some, loadValue_eq (by rwa [Flat.length_bytes]), Option.map_some]
      | none =>
        obtain ⟨m', hm'⟩ := hi.exists_device_read addr size
        have hsame := (hi.device_read hm').1
        refine ⟨t', m', ?_, hsame, hsound.same hsame, hord, hgen⟩
        dsimp only
        rw [hm', Option.map_some]
        cases hv : m.flat.load addr size with
        | none => rfl
        | some bytes =>
          have hlen : bytes.length = size := by
            classical
            rw [load_flat] at hv
            split_ifs at hv
            cases hv
            exact Flat.length_bytes ..
          rw [Option.map_some, Option.map_some, loadValue_eq (by rwa [hlen])]

/-- How a store ends: the process does, or it is denied, or the bytes are written. -/
def StoreEnds (env : HostEnv) (m : GuestMemory) (addr size value : ℕ) (t : Tlb) :
    Option (Bool × Tlb × GuestMemory) → Prop
  | none => m.Granted .write addr size ∧
      ∃ x, addr ≤ x ∧ x < addr + size ∧ ¬m.backend.Writable env x
  | some (true, t', m') => Wrote env m addr (toLe size value) m' ∧ t'.Sound m' ∧
      (t.Ordered → t'.Ordered) ∧ t'.memGen = t.memGen
  | some (false, t', m') => ¬m.Granted .write addr size ∧ Same m m' ∧ t'.Sound m' ∧
      (t.Ordered → t'.Ordered) ∧ t'.memGen = t.memGen

/-- A pointer that may be written through. -/
theorem Access.store {t' : Tlb} {value : ℕ} (hi : Inv env m) (hpos : 0 < size)
    (h : Access m addr size true p) (ht : t'.Sound m) (hord : t.Ordered → t'.Ordered)
    (hgen : t'.memGen = t.memGen) : StoreEnds env m addr size value t
      ((m.pokeHost env p (toLe size value)).map fun m => (true, t', m)) := by
  have hlen : (toLe size value).length = size := length_toLe ..
  cases hp : m.pokeHost env p (toLe size value) with
  | some m' =>
    have hw : Wrote env m addr (toLe size value) m' :=
      hi.wrote_pokeHost (by omega) (by rw [hlen]; exact h.granted) (by rw [hlen]; exact h.host) hp
    exact ⟨hw, ht.wrote hw, hord, hgen⟩
  | none =>
    refine ⟨h.granted, ?_⟩
    by_contra hall
    push Not at hall
    have hst : m.backend.host.store env p (toLe size value) = some _ :=
      (Host.store_eq_some (by omega)).mpr ⟨fun x h1 h2 => by
        obtain ⟨p', q, hp', hq, hw⟩ := hall (addr + (x - p)) (by omega) (by omega)
        rw [h.host (x - p) (by omega), Nat.add_sub_of_le h1] at hp'
        cases hp'
        exact ⟨q, hq, hw⟩, rfl⟩
    rw [pokeHost, hst] at hp
    cases hp

/-- **A store is a store of the checked path.** -/
theorem Sound.callStore_ends (h : t.Sound m) (hi : Inv env m) (hcur : t.memGen = m.generation)
    (ha : addr < 2 ^ 64) (hs : WordSize size) (e : MemEnv) (value : ℕ) :
    StoreEnds env m addr size value t (callStore env e m t addr size value) := by
  have hlen : (toLe size value).length = size := length_toLe ..
  rw [callStore]
  cases hp : t.probe e addr size true with
  | some p => exact (h.probe hi hcur ha hs.le hp).store hi hs.pos h id rfl
  | none =>
    dsimp only
    rw [Tlb.store, if_neg hs.not]
    obtain ⟨hsound, hord, hgen, hacc⟩ := h.pagePtr hi hcur ha size true e.neon
    cases hpp : Tlb.pagePtr e.neon m t addr size true with
    | mk r t' =>
      rw [hpp] at hsound hord hgen hacc
      cases r with
      | some p => exact (hacc p rfl).store hi hs.pos hsound hord hgen
      | none =>
        dsimp only
        cases hw : (device env).write m addr (toLe size value) with
        | some r =>
          obtain ⟨ok, m'⟩ := r
          rcases hi.device_write hw with ⟨rfl, hwrote⟩ | ⟨rfl, hsame, hden⟩
          · exact ⟨hwrote, hsound.wrote hwrote, hord, hgen⟩
          · rw [hlen] at hden
            exact ⟨hden, hsame, hsound.same hsame, hord, hgen⟩
        | none =>
          have hanswer : answer (m.write env addr (toLe size value)) = none :=
            Option.map_eq_none_iff.mp hw
          rcases hi.change_write addr (toLe size value) with ⟨e', he', -⟩ | ⟨-, hg, hx⟩ | ⟨hok, -⟩
          · cases hmw : m.write env addr (toLe size value) with
            | mk o m' =>
              rw [hmw] at hanswer he'
              cases he'
              cases hanswer
          · rw [hlen] at hg hx
            exact ⟨hg, hx⟩
          · cases hmw : m.write env addr (toLe size value) with
            | mk o m' =>
              rw [hmw] at hanswer hok
              cases hok
              cases hanswer

end Tlb

end Wie
