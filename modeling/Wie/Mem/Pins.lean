import Mathlib.Data.List.Sort
import Wie.Mem.FlatStore

/-!
# Pins

Compiled code does not ask for permission on every access. It carries *pins*: spans of guest memory
with a host address and the rights that hold on all of the span, through which it loads and stores
directly. There are a handful of slots, filled with the stack first and then with the largest spans
of heap and private memory, writable ones preferred.

A pin is worth having only if it is never more permissive than the permission check. It lies in one
arena, all its pages are committed, its rights are those of every page in it, and writing is never
among them where a page is executable, so that code is only ever written through the checked path.

## Main definitions

* `PageTlbEntry`, `GuestMemory.pageTlbEntry` — the translation of one page
* `RegionPinInfo`, `GuestMemory.spanPin` — a pin on a span
* `GuestMemory.committedRunsInSpan` — the committed parts of an allocation
* `GuestMemory.jitRegionPins` — the slots

## Main results

* `GuestMemory.Inv.spanPin_spec` — what a pin guarantees
* `GuestMemory.jit_region_pins_safe` — the slots are disjoint and never more permissive than the
  check
-/

namespace Wie

/-- The translation of one page: where it is, and what may be done to it directly. -/
structure PageTlbEntry where
  /-- Host address of the page. -/
  host : ℕ
  /-- It may be read. -/
  allowR : Bool
  /-- It may be written. -/
  allowW : Bool
  /-- The generation it was made in. -/
  generation : ℕ
  deriving DecidableEq, Repr

/-- A pin: a span of guest memory that compiled code may use directly. -/
structure RegionPinInfo where
  /-- First guest address. -/
  guestBase : ℕ
  /-- First guest address after it. -/
  guestEnd : ℕ
  /-- Host address of the first byte. -/
  hostBase : ℕ
  /-- All of it may be read. -/
  allowR : Bool
  /-- All of it may be written. -/
  allowW : Bool
  /-- The generation it was made in. -/
  generation : ℕ
  deriving DecidableEq, Repr

/-- The number of slots for pins. -/
def jitRegionPinSlots : ℕ := 8

namespace GuestMemory

/-! ### One page -/

/-- What may be done directly to a page: no writes where code may run, and no entry where nothing
may be done at all. -/
def pageProtectMeta (m : GuestMemory) (pageKey : ℕ) : Option (Bool × Bool) :=
  match m.pages.lookup pageKey with
  | none => none
  | some run =>
    if run.state ≠ .committed then none
    else
      let allowR := Protect.allowsRead run.protect
      let allowX := Protect.allowsExecute run.protect
      let allowW := Protect.allowsWrite run.protect && !allowX
      if !allowR && !allowW && !allowX then none else some (allowR, allowW)

/-- The translation of a committed page. -/
def pageTlbEntry (m : GuestMemory) (pageKey : ℕ) : Option PageTlbEntry :=
  match m.pageProtectMeta pageKey with
  | none => none
  | some (allowR, allowW) =>
    match m.backend.pageDataPtr pageKey with
    | none => none
    | some host => some ⟨host, allowR, allowW, m.generation⟩

/-! ### A span -/

/-- The rights that hold on every page from `page` to `lastPage`, and whether there was one; none if
a page is not committed. -/
def pinRights (pages : PageMap) (lastPage : ℕ) :
    ℕ → ℕ → Bool → Bool → Bool → Option (Bool × Bool × Bool)
  | 0, _, allowR, allowW, saw => some (allowR, allowW, saw)
  | fuel + 1, page, allowR, allowW, saw =>
    if page ≤ lastPage then
      match pages.lookup page with
      | none => none
      | some run =>
        if run.state ≠ .committed then none
        else if page < run.startPage ∨ run.endPage ≤ page then none
        else
          pinRights pages lastPage fuel run.endPage (allowR && Protect.allowsRead run.protect)
            (allowW && (Protect.allowsWrite run.protect && !Protect.allowsExecute run.protect)) true
    else some (allowR, allowW, saw)

/-- A pin on `[guestBase, guestEnd)`, if one arena holds its first and last byte, all its pages are
committed, and some right is left. -/
def spanPin (m : GuestMemory) (guestBase guestEnd : ℕ) : Option RegionPinInfo :=
  if guestEnd ≤ guestBase then none
  else
    match m.backend.arenaGuestBaseForVa guestBase, m.backend.arenaGuestBaseForVa (guestEnd - 1),
      m.backend.arenaHostBaseForVa guestBase with
    | some arenaBase, some arenaBaseLast, some hostArena =>
      if arenaBase ≠ arenaBaseLast then none
      else if hostArena = 0 then none
      else if guestBase < arenaBase then none
      else
        match checkedAdd hostArena (guestBase - arenaBase) with
        | none => none
        | some hostBase =>
          if hostBase = 0 then none
          else
            let firstPage := guestBase / 0x1000
            let lastPage := (guestEnd - 1) / 0x1000
            match pinRights m.pages lastPage (lastPage - firstPage + 1) firstPage true true false with
            | none => none
            | some (allowR, allowW, saw) =>
              if saw = false ∨ (allowR = false ∧ allowW = false) then none
              else some ⟨guestBase, guestEnd, hostBase, allowR, allowW, m.generation⟩
    | _, _, _ => none

/-- A pin on a named region. -/
def regionPin (m : GuestMemory) (region : GuestRegion) : Option RegionPinInfo :=
  m.spanPin region.base region.endVa

/-! ### The committed parts of an allocation -/

/-- The committed runs from `page` on, clipped to `[base, stop)`. -/
def collectRuns (pages : PageMap) (base stop last : ℕ) : ℕ → ℕ → List (ℕ × ℕ)
  | 0, _ => []
  | fuel + 1, page =>
    if page ≤ last then
      match pages.lookup page with
      | none => collectRuns pages base stop last fuel (page + 1)
      | some run =>
        if run.state ≠ .committed then
          collectRuns pages base stop last fuel (max run.endPage (page + 1))
        else
          let startP := max (max run.startPage page) (base / 0x1000)
          let endP := min run.endPage (last + 1)
          let g0 := max (satMul startP 0x1000) base
          let g1 := min (satMul endP 0x1000) stop
          let rest := collectRuns pages base stop last fuel
            (if run.endPage ≤ page then page + 1 else run.endPage)
          if startP < endP ∧ g0 < g1 then (g0, g1) :: rest else rest
    else []

/-- Merge spans that touch; `merged` is what was merged so far, the last one first. -/
def mergeTouching : List (ℕ × ℕ) → List (ℕ × ℕ) → List (ℕ × ℕ)
  | merged, [] => merged.reverse
  | [], s :: rest => mergeTouching [s] rest
  | l :: merged, s :: rest =>
    if l.2 = s.1 then mergeTouching ((l.1, s.2) :: merged) rest
    else mergeTouching (s :: l :: merged) rest

/-- The committed parts of `[base, stop)`, in order and merged where they touch. -/
def committedRunsInSpan (m : GuestMemory) (base stop : ℕ) : List (ℕ × ℕ) :=
  if stop ≤ base then []
  else
    let last := (stop - 1) / 0x1000
    let page := base / 0x1000
    mergeTouching [] ((collectRuns m.pages base stop last (last - page + 1) page).insertionSort
      fun a b => a.1 ≤ b.1)

/-! ### The slots -/

/-- Whether `[lo, hi)` meets a span already chosen. -/
def pinOverlaps (chosen : List (ℕ × ℕ)) (lo hi : ℕ) : Bool :=
  chosen.any fun s => decide (lo < s.2 ∧ s.1 < hi)

/-- Whether a named region other than heap or stack covers `[lo, hi)`. -/
def coveredByBootstrapNamed (m : GuestMemory) (lo hi : ℕ) : Bool :=
  m.regions.regions.any fun r =>
    !(r.kind == .heap || r.kind == .stack) && decide (r.base ≤ lo ∧ hi ≤ r.endVa)

/-- The rank of a pin: its size, a quarter of it if it is not writable. -/
def pinScore (pin : RegionPinInfo) : ℕ :=
  let size := pin.guestEnd - pin.guestBase
  if pin.allowW then size else size / 4

/-- The candidates among the named heaps. -/
def heapCandidates (m : GuestMemory) : List (ℕ × RegionPinInfo) :=
  m.regions.regions.filterMap fun r =>
    if r.kind == .heap then (m.regionPin r).map fun pin => (pinScore pin, pin) else none

/-- Consider one committed part of a private allocation. -/
def addRun (m : GuestMemory) (chosen : List (ℕ × ℕ)) (candidates : List (ℕ × RegionPinInfo))
    (span : ℕ × ℕ) : List (ℕ × RegionPinInfo) :=
  if pinOverlaps chosen span.1 span.2 then candidates
  else if m.coveredByBootstrapNamed span.1 span.2 then candidates
  else if candidates.any fun c => c.2.guestBase == span.1 && c.2.guestEnd == span.2 then candidates
  else
    match m.spanPin span.1 span.2 with
    | none => candidates
    | some pin =>
      if pin.guestEnd - pin.guestBase < 0x1000 then candidates
      else candidates ++ [(pinScore pin, pin)]

/-- Consider the committed parts of one allocation. -/
def addNode (m : GuestMemory) (chosen : List (ℕ × ℕ)) (candidates : List (ℕ × RegionPinInfo))
    (node : VadNode) : List (ℕ × RegionPinInfo) :=
  if node.memType ≠ .priv then candidates
  else (m.committedRunsInSpan node.allocationBase node.endVa).foldl (m.addRun chosen) candidates

/-- Fill slots from `slot` on with candidates that meet nothing chosen before. -/
def fillSlots : List (ℕ × RegionPinInfo) → ℕ → List (ℕ × ℕ) → List (Option RegionPinInfo) →
    List (Option RegionPinInfo)
  | [], _, _, out => out
  | (_, pin) :: rest, slot, chosen, out =>
    if jitRegionPinSlots ≤ slot then out
    else if pinOverlaps chosen pin.guestBase pin.guestEnd then fillSlots rest slot chosen out
    else
      fillSlots rest (slot + 1) (chosen ++ [(pin.guestBase, pin.guestEnd)])
        (out.set slot (some pin))

/-- The pins for compiled code: the stack in slot 0, then the largest spans of heap and private
memory. -/
def jitRegionPins (m : GuestMemory) : List (Option RegionPinInfo) :=
  let empty := List.replicate jitRegionPinSlots none
  let stack := (m.regions.findByKind .stack).bind m.regionPin
  let chosen := match stack with
    | none => []
    | some pin => [(pin.guestBase, pin.guestEnd)]
  let out := match stack with
    | none => empty
    | some pin => empty.set 0 (some pin)
  let candidates := m.vad.nodes.foldl (m.addNode chosen) m.heapCandidates
  fillSlots (candidates.insertionSort fun a b => b.1 ≤ a.1) 1 chosen out

/-! ### What a pin guarantees -/

variable {env : HostEnv} {m : GuestMemory}

/-- The rights found hold on every page. -/
theorem pinRights_spec {pages : PageMap} (hv : pages.Valid) {lastPage : ℕ} {r : Bool × Bool × Bool} :
    ∀ (fuel page : ℕ) (allowR allowW saw : Bool), lastPage < page + fuel →
    pinRights pages lastPage fuel page allowR allowW saw = some r →
    (r.1 = true → allowR = true) ∧ (r.2.1 = true → allowW = true) ∧
      ∀ q, page ≤ q → q ≤ lastPage → ∃ p, pages.table q = some (.committed, p) ∧
        (r.1 = true → Protect.allowsRead p = true) ∧
        (r.2.1 = true → Protect.allowsWrite p = true ∧ Protect.allowsExecute p = false) := by
  intro fuel
  induction fuel with
  | zero =>
    intro page allowR allowW saw hf h
    unfold pinRights at h
    cases h
    exact ⟨id, id, fun q h1 h2 => by omega⟩
  | succ fuel ih =>
    intro page allowR allowW saw hf h
    unfold pinRights at h
    split at h
    · split at h
      · cases h
      · rename_i run hl
        split at h
        · cases h
        · rename_i hst
          split at h
          · cases h
          · rename_i hcov
            obtain ⟨hr, hw, hall⟩ := ih _ _ _ _ (by omega) h
            simp only [Bool.and_eq_true, Bool.not_eq_true'] at hr hw
            refine ⟨fun h1 => (hr h1).1, fun h1 => (hw h1).1, fun q h1 h2 => ?_⟩
            -- the run has one protection; beyond it the rest of the walk takes over
            by_cases hq : q < run.endPage
            · have ht := hv.table_of_lookup hl (show run.Covers q from ⟨by omega, hq⟩)
              rw [not_ne_iff.mp hst] at ht
              exact ⟨run.protect, ht, fun h1 => (hr h1).2, fun h1 => (hw h1).2⟩
            · exact hall q (by omega) h2
    · cases h
      exact ⟨id, id, fun q h1 h2 => by omega⟩

/-- What a pin guarantees: its place is that of the arena, and its rights are those of its pages. -/
structure PinSound (m : GuestMemory) (pin : RegionPinInfo) : Prop where
  /-- It is not empty. -/
  pos : pin.guestBase < pin.guestEnd
  /-- It ends below the top. -/
  top : pin.guestEnd < 2 ^ 64
  /-- It is where its arena puts it. -/
  host : ∀ x, pin.guestBase ≤ x → x < pin.guestEnd →
    m.backend.hostAddr x = some (pin.hostBase + (x - pin.guestBase))
  /-- Its pages are committed and have its rights. -/
  rights : ∀ x, pin.guestBase ≤ x → x < pin.guestEnd →
    ∃ p, m.pages.table (x / 0x1000) = some (.committed, p) ∧
      (pin.allowR = true → Protect.allowsRead p = true) ∧
      (pin.allowW = true → Protect.allowsWrite p = true ∧ Protect.allowsExecute p = false)

/-- **What a pin guarantees.** -/
theorem Inv.spanPin_spec (h : Inv env m) {lo hi : ℕ} {pin : RegionPinInfo}
    (hp : m.spanPin lo hi = some pin) :
    pin.guestBase = lo ∧ pin.guestEnd = hi ∧ PinSound m pin := by
  unfold spanPin at hp
  rw [ArenaSet.Placed.arenaGuestBaseForVa_eq, ArenaSet.Placed.arenaGuestBaseForVa_eq,
    h.placed.arenaHostBaseForVa_eq] at hp
  split at hp
  · cases hp
  · rename_i hlt
    split at hp
    · rename_i arenaBase arenaBaseLast hostArena hb hl hh
      obtain ⟨a, ha, rfl⟩ := Option.map_eq_some_iff.mp hb
      obtain ⟨b, hb', rfl⟩ := Option.map_eq_some_iff.mp hl
      rw [ha, Option.map_some, Option.some.injEq] at hh
      obtain ⟨ham, hax⟩ := h.placed.spanAt_eq_some.mp ha
      obtain ⟨hbm, hbx⟩ := h.placed.spanAt_eq_some.mp hb'
      split at hp
      · cases hp
      · rename_i hsame
        obtain rfl : a = b := h.placed.extents.eq_of_lo_eq ham hbm (not_ne_iff.mp hsame)
        split at hp
        · cases hp
        · split at hp
          · cases hp
          · split at hp
            · cases hp
            · rename_i hostBase hadd
              obtain ⟨rfl, -⟩ := checkedAdd_eq_some.mp hadd
              split at hp
              · cases hp
              · dsimp only at hp
                split at hp
                · cases hp
                · rename_i allowR allowW saw hrights
                  split at hp
                  · cases hp
                  · cases hp
                    obtain ⟨-, -, hall⟩ := pinRights_spec h.pages _ _ _ _ _ (by omega) hrights
                    have hbd := h.placed.bounded a ham
                    obtain ⟨h1, h2⟩ := hax
                    obtain ⟨h3, h4⟩ := hbx
                    refine ⟨rfl, rfl, by dsimp only; omega, by dsimp only; omega,
                      fun x hx1 hx2 => ?_, fun x hx1 hx2 => ?_⟩
                    · dsimp only at hx1 hx2 ⊢
                      rw [h.placed.hostAddr_of_holds ham ⟨by omega, by omega⟩, ← hh]
                      congr 1
                      omega
                    · dsimp only at hx1 hx2
                      exact hall (x / 0x1000) (by omega) (by omega)
    · cases hp

/-! ### The slots -/

/-- All candidates are pins. -/
def AllPins (m : GuestMemory) (l : List (ℕ × RegionPinInfo)) : Prop :=
  ∀ c ∈ l, PinSound m c.2

theorem Inv.allPins_heap (h : Inv env m) : AllPins m m.heapCandidates := by
  intro c hc
  obtain ⟨r, -, hr⟩ := List.mem_filterMap.mp hc
  split at hr
  · obtain ⟨pin, hp, rfl⟩ := Option.map_eq_some_iff.mp hr
    exact (h.spanPin_spec hp).2.2
  · cases hr

theorem Inv.allPins_addRun (h : Inv env m) (chosen : List (ℕ × ℕ))
    {candidates : List (ℕ × RegionPinInfo)} (hc : AllPins m candidates) (span : ℕ × ℕ) :
    AllPins m (m.addRun chosen candidates span) := by
  unfold addRun
  split
  · exact hc
  · split
    · exact hc
    · split
      · exact hc
      · split
        · exact hc
        · rename_i pin hp
          split
          · exact hc
          · intro c hmem
            rcases List.mem_append.mp hmem with hmem | hmem
            · exact hc c hmem
            · rw [List.mem_singleton.mp hmem]
              exact (h.spanPin_spec hp).2.2

theorem Inv.allPins_addNode (h : Inv env m) (chosen : List (ℕ × ℕ))
    {candidates : List (ℕ × RegionPinInfo)} (hc : AllPins m candidates) (node : VadNode) :
    AllPins m (m.addNode chosen candidates node) := by
  unfold addNode
  split
  · exact hc
  · exact List.foldlRecOn _ _ hc fun c hc' span _ => h.allPins_addRun chosen hc' span

/-- The filled slots are pins on spans that were chosen, and disjoint. -/
structure SlotsSound (m : GuestMemory) (chosen : List (ℕ × ℕ)) (out : List (Option RegionPinInfo)) :
    Prop where
  /-- A filled slot is a pin on a chosen span. -/
  pin : ∀ (i : ℕ) (p : RegionPinInfo), out[i]? = some (some p) → PinSound m p ∧ (p.guestBase, p.guestEnd) ∈ chosen
  /-- Two filled slots are disjoint. -/
  apart : ∀ (i j : ℕ) (p q : RegionPinInfo), i ≠ j → out[i]? = some (some p) → out[j]? = some (some q) →
    p.guestEnd ≤ q.guestBase ∨ q.guestEnd ≤ p.guestBase

theorem pinOverlaps_eq_false {chosen : List (ℕ × ℕ)} {lo hi : ℕ} :
    pinOverlaps chosen lo hi = false ↔ ∀ s ∈ chosen, s.2 ≤ lo ∨ hi ≤ s.1 := by
  rw [pinOverlaps, List.any_eq_false]
  refine forall₂_congr fun s _ => ?_
  rw [decide_eq_true_eq]
  omega

/-- Filling a slot with a pin that meets nothing chosen. -/
theorem SlotsSound.set {chosen : List (ℕ × ℕ)} {out : List (Option RegionPinInfo)}
    (h : SlotsSound m chosen out) {pin : RegionPinInfo} (hp : PinSound m pin)
    (ho : pinOverlaps chosen pin.guestBase pin.guestEnd = false) (slot : ℕ) :
    SlotsSound m (chosen ++ [(pin.guestBase, pin.guestEnd)]) (out.set slot (some pin)) := by
  rw [pinOverlaps_eq_false] at ho
  have hget {i : ℕ} {p : RegionPinInfo} (hi : (out.set slot (some pin))[i]? = some (some p)) :
      (i = slot ∧ p = pin) ∨ (i ≠ slot ∧ out[i]? = some (some p)) := by
    rw [List.getElem?_set] at hi
    split at hi
    · rename_i heq
      split at hi
      · cases hi
        exact .inl ⟨heq.symm, rfl⟩
      · cases hi
    · rename_i hne
      exact .inr ⟨Ne.symm hne, hi⟩
  refine ⟨fun i p hi => ?_, fun i j p q hij hi hj => ?_⟩
  · rcases hget hi with ⟨-, rfl⟩ | ⟨-, hi⟩
    · exact ⟨hp, by simp⟩
    · obtain ⟨h1, h2⟩ := h.pin i p hi
      exact ⟨h1, List.mem_append_left _ h2⟩
  · rcases hget hi with ⟨hi', rfl⟩ | ⟨-, hi'⟩ <;> rcases hget hj with ⟨hj', rfl⟩ | ⟨-, hj'⟩
    · exact absurd (hi'.trans hj'.symm) hij
    · exact (ho _ (h.pin j q hj').2).symm
    · exact ho _ (h.pin i p hi').2
    · exact h.apart i j p q hij hi' hj'

/-- **Filling the slots keeps them sound.** -/
theorem fillSlots_sound : ∀ (l : List (ℕ × RegionPinInfo)) (slot : ℕ) (chosen : List (ℕ × ℕ))
    (out : List (Option RegionPinInfo)), AllPins m l → SlotsSound m chosen out →
    ∃ chosen', SlotsSound m chosen' (fillSlots l slot chosen out) := by
  intro l
  induction l with
  | nil => exact fun slot chosen out _ hs => ⟨chosen, hs⟩
  | cons c rest ih =>
    intro slot chosen out hl hs
    obtain ⟨score, pin⟩ := c
    have hrest : AllPins m rest := fun c hc => hl c (List.mem_cons_of_mem _ hc)
    unfold fillSlots
    split
    · exact ⟨chosen, hs⟩
    · split
      · exact ih slot chosen out hrest hs
      · rename_i hov
        exact ih (slot + 1) _ _ hrest
          (hs.set (hl _ (List.mem_cons_self ..)) (by simpa using hov) slot)

theorem slotsSound_empty : SlotsSound m [] (List.replicate jitRegionPinSlots none) := by
  refine ⟨fun i p hi => ?_, fun i j p q _ hi => ?_⟩ <;>
  · have := List.eq_of_mem_replicate (List.mem_of_getElem? hi)
    cases this

theorem Inv.jitRegionPins_sound (h : Inv env m) : ∃ chosen, SlotsSound m chosen m.jitRegionPins := by
  unfold jitRegionPins
  dsimp only
  have hcand (chosen : List (ℕ × ℕ)) : AllPins m ((m.vad.nodes.foldl (m.addNode chosen)
      m.heapCandidates).insertionSort fun a b => b.1 ≤ a.1) := by
    have hall : AllPins m (m.vad.nodes.foldl (m.addNode chosen) m.heapCandidates) :=
      List.foldlRecOn _ _ h.allPins_heap fun c hc node _ => h.allPins_addNode chosen hc node
    exact fun c hc => hall c ((List.mem_insertionSort _).mp hc)
  cases hst : (m.regions.findByKind .stack).bind m.regionPin with
  | none => exact fillSlots_sound _ _ _ _ (hcand _) slotsSound_empty
  | some pin =>
    obtain ⟨r, -, hr⟩ := Option.bind_eq_some_iff.mp hst
    exact fillSlots_sound _ _ _ _ (hcand _)
      (slotsSound_empty.set (h.spanPin_spec hr).2.2 rfl 0)

/-- **Pins are never more permissive than the permission check**, in every reachable state. The
filled slots cover disjoint ranges. On every part of a pin, its rights are granted by the check,
writing only where nothing is executable, and it points to where the arena puts each byte. -/
theorem jit_region_pins_safe (h : Reachable env AnyCall m) :
    (∀ (i j : ℕ) (p q : RegionPinInfo), i ≠ j → m.jitRegionPins[i]? = some (some p) →
      m.jitRegionPins[j]? = some (some q) →
      p.guestEnd ≤ q.guestBase ∨ q.guestEnd ≤ p.guestBase) ∧
    ∀ pin, some pin ∈ m.jitRegionPins → ∀ va len, pin.guestBase ≤ va → va + len ≤ pin.guestEnd →
      (pin.allowR = true → (m.pages.checkAccess va len .read).1 = .ok ()) ∧
      (pin.allowW = true → (m.pages.checkAccess va len .write).1 = .ok () ∧
        ∀ x, va ≤ x → x < va + len → m.pages.table.grants .execute (x / 0x1000) = false) ∧
      ∀ x, va ≤ x → x < va + len →
        m.backend.hostAddr x = some (pin.hostBase + (x - pin.guestBase)) := by
  have hinv : Inv env m := Reachable.inv h
  obtain ⟨chosen, hs⟩ := hinv.jitRegionPins_sound
  refine ⟨hs.apart, fun pin hpin va len h1 h2 => ?_⟩
  obtain ⟨i, hi⟩ := List.mem_iff_getElem?.mp hpin
  have hp := (hs.pin i pin hi).1
  refine ⟨fun hr => ?_, fun hw => ⟨?_, fun x hx1 hx2 => ?_⟩,
    fun x hx1 hx2 => hp.host x (by omega) (by omega)⟩
  · rw [hinv.checkAccess_iff]
    intro x hx1 hx2
    obtain ⟨p, hpt, hread, -⟩ := hp.rights x (by omega) (by omega)
    exact PageTable.grants_iff.mpr ⟨p, hpt, hread hr⟩
  · rw [hinv.checkAccess_iff]
    intro x hx1 hx2
    obtain ⟨p, hpt, -, hwrite⟩ := hp.rights x (by omega) (by omega)
    exact PageTable.grants_iff.mpr ⟨p, hpt, (hwrite hw).1⟩
  · obtain ⟨p, hpt, -, hwrite⟩ := hp.rights x (by omega) (by omega)
    simp [PageTable.grants, hpt, Protect.allows, (hwrite hw).2]

/-- A stack and a heap. -/
theorem jit_region_pins_safe_heap : ∃ m pin, Reachable .fourK AnyCall m ∧
    some pin ∈ m.jitRegionPins ∧ (pin.guestBase, pin.guestEnd, pin.allowW) =
      (0x100000, 0x108000, true) ∧
    (m.pages.checkAccess 0x101ff8 16 .write).1 = .ok () := by
  have h : Reachable .fourK AnyCall (runAll .fourK (new .roomy)
      [.map 0x10000 0x4000 3 .priv, .map 0x100000 0x8000 3 .priv,
        .registerRegion ⟨"stack", .stack, 0x10000, 0x4000, 3, none⟩,
        .registerRegion ⟨"heap", .heap, 0x100000, 0x8000, 3, none⟩]) :=
    (reachable_new _).runAll _ (allMeet_anyCall _ _) (by decide +kernel)
  have hpin : some ⟨0x100000, 0x108000, 0x20000000, true, true, 2⟩ ∈ (runAll .fourK (new .roomy)
      [.map 0x10000 0x4000 3 .priv, .map 0x100000 0x8000 3 .priv,
        .registerRegion ⟨"stack", .stack, 0x10000, 0x4000, 3, none⟩,
        .registerRegion ⟨"heap", .heap, 0x100000, 0x8000, 3, none⟩]).jitRegionPins := by
    decide +kernel
  exact ⟨_, _, h, hpin, rfl, (((jit_region_pins_safe h).2 _ hpin 0x101ff8 16 (by decide)
    (by decide)).2.1 rfl).1⟩

end GuestMemory

end Wie
