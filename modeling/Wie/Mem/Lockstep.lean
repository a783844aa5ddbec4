import Wie.Lib.Reach
import Wie.Mem.Change

/-!
# Pages, allocations and arenas in lockstep

As long as bootstrap maps do not overlap, the three structures that describe guest memory say the
same thing: a page is in use exactly when it is in an allocation, and the arenas are exactly the
allocations. Overlapping maps break this, which is why the general invariant says less.

## Main definitions

* `GuestMemory.Step`, `GuestMemory.Reachable` — the runs of guest memory
* `GuestMemory.MapsRegular` — a map meets no allocation or is exactly one
* `GuestMemory.Lockstep` — the three structures agree

## Main results

* `GuestMemory.Reachable.inv` — the invariant holds in every reachable state
* `GuestMemory.metadata_consistent` — under regular maps the structures agree
-/

namespace Wie

namespace GuestMemory

variable {env : HostEnv} {m m' : GuestMemory}

/-- A call that returns, and the memory after it. -/
def Step (env : HostEnv) (m : GuestMemory) (op : Op) (m' : GuestMemory) : Prop :=
  (op.run env m).1 ≠ .crash ∧ m' = (op.run env m).2

/-- The memories reachable by calls that meet a guard, on any host. -/
def Reachable (env : HostEnv) (guard : GuestMemory → Op → Prop) (m : GuestMemory) : Prop :=
  GuardedReach (fun m => ∃ host, m = new host) guard (Step env) m

/-- No restriction on the calls. -/
def AnyCall (_ : GuestMemory) (_ : Op) : Prop := True

theorem Step.change {op : Op} (hs : Step env m op m') (h : Inv env m) :
    Change env m op (isOk (op.run env m).1) m' := by
  rw [hs.2]
  exact h.change op hs.1

/-- The memory after calls made one after the other. -/
def runAll (env : HostEnv) (m : GuestMemory) (ops : List Op) : GuestMemory :=
  ops.foldl (fun m op => (op.run env m).2) m

/-- None of the calls ends the process. -/
def allReturn (env : HostEnv) : GuestMemory → List Op → Bool
  | _, [] => true
  | m, op :: ops => decide ((op.run env m).1 ≠ .crash) && allReturn env (op.run env m).2 ops

/-- The calls meet the guard one after the other. -/
def AllMeet (env : HostEnv) (guard : GuestMemory → Op → Prop) : GuestMemory → List Op → Prop
  | _, [] => True
  | m, op :: ops => guard m op ∧ AllMeet env guard (op.run env m).2 ops

theorem allMeet_anyCall (m : GuestMemory) (ops : List Op) : AllMeet env AnyCall m ops := by
  induction ops generalizing m with
  | nil => trivial
  | cons op ops ih => exact ⟨trivial, ih _⟩

theorem Reachable.runAll {guard : GuestMemory → Op → Prop} (ops : List Op) :
    ∀ {m : GuestMemory}, Reachable env guard m → AllMeet env guard m ops →
      allReturn env m ops = true → Reachable env guard (runAll env m ops) := by
  induction ops with
  | nil => exact fun h _ _ => h
  | cons op ops ih =>
    intro m h hg hr
    simp only [allReturn, Bool.and_eq_true, decide_eq_true_eq] at hr
    exact ih (.step h hg.1 ⟨hr.1, rfl⟩) hg.2 hr.2

theorem reachable_new {guard : GuestMemory → Op → Prop} (host : Host) :
    Reachable env guard (new host) := .init ⟨host, rfl⟩

/-- **The invariant holds in every reachable state.** -/
theorem Reachable.inv {guard : GuestMemory → Op → Prop} (h : Reachable env guard m) : Inv env m := by
  refine GuardedReach.invariant (I := Inv env) ?_ ?_ h
  · rintro m ⟨host, rfl⟩
    exact inv_new host
  · exact fun m op m' hi _ hs => (hs.change hi).inv hi

/-! ### Regular maps -/

/-- A map meets no allocation, or is exactly the range of one. -/
def MapsRegular (m : GuestMemory) : Op → Prop
  | .map address size _ _ =>
    (∀ n ∈ m.vad.nodes, address + size ≤ n.allocationBase ∨ n.allocationBase + n.size ≤ address) ∨
      ∃ n ∈ m.vad.nodes, n.allocationBase = address ∧ n.size = size
  | _ => True

/-- Pages in use are in allocations, and arenas are allocations. -/
structure Lockstep (m : GuestMemory) : Prop where
  /-- A page in use is in an allocation. -/
  pages : ∀ x, m.pages.table (x / 0x1000) ≠ none →
    ∃ n ∈ m.vad.nodes, n.allocationBase ≤ x ∧ x < n.allocationBase + n.size
  /-- An arena is an allocation. -/
  arenas : ∀ a ∈ m.backend.spans, ∃ n ∈ m.vad.nodes, n.allocationBase = a.guestBase ∧ n.size = a.size
  /-- An allocation is an arena. -/
  allocations : ∀ n ∈ m.vad.nodes, ∃ a ∈ m.backend.spans,
    a.guestBase = n.allocationBase ∧ a.size = n.size

theorem lockstep_new (host : Host) : Lockstep (new host) where
  pages x hx := absurd (congrFun PageMap.table_new _) hx
  arenas a ha := by simp [new, ArenaSet.spans] at ha
  allocations n hn := by simp [new, VadTable.new] at hn

/-- In lockstep, a range apart from the allocations is apart from the arenas. -/
theorem Lockstep.vacant (hl : Lockstep m) (h : Inv env m) {lo size : ℕ}
    (ha : ∀ n ∈ m.vad.nodes, lo + size ≤ n.allocationBase ∨ n.allocationBase + n.size ≤ lo) :
    m.backend.anyOverlap lo (lo + size) = false := by
  rw [h.placed.anyOverlap_eq_false]
  intro a ha'
  obtain ⟨n, hn, h1, h2⟩ := hl.arenas a ha'
  have := ha n hn
  omega

/-- Growing inside an arena adds none. -/
theorem mem_spans_of_grown {s s' : ArenaSet} {lo hi : ℕ} (hg : ArenaSet.Grown env lo hi s s')
    {b : HostSpan} (hb : b ∈ s.spans) (h1 : b.guestBase ≤ lo) (h2 : hi ≤ b.guestBase + b.size)
    (a : HostSpan) : a ∈ s'.spans ↔ a ∈ s.spans := by
  refine ⟨fun ha => ?_, hg.keeps a⟩
  by_contra hn
  obtain ⟨h3, h4, -⟩ := hg.fresh a ha hn
  have hpos := hg.placed.extents.pos a ha
  have hab : a = b := hg.placed.eq_of_holds ha (hg.keeps b hb)
    (show a.Holds a.guestBase from ⟨le_rfl, hpos⟩) ⟨by omega, by omega⟩
  exact hn (hab ▸ hb)

/-- Lockstep depends on the table, the places and the allocations alone. -/
theorem Lockstep.congr (hl : Lockstep m) (ht : m'.pages.table = m.pages.table)
    (hs : ∀ a, a ∈ m'.backend.spans ↔ a ∈ m.backend.spans) (hv : m'.vad = m.vad) : Lockstep m' where
  pages := by rw [ht, hv]; exact hl.pages
  arenas a ha := by rw [hv]; exact hl.arenas a ((hs a).mp ha)
  allocations n hn := by
    rw [hv] at hn
    obtain ⟨a, ha, h⟩ := hl.allocations n hn
    exact ⟨a, (hs a).mpr ha, h⟩

/-- A new allocation with a new arena under it. -/
theorem Lockstep.add (hl : Lockstep m) {node : VadNode} {p protect : ℕ} {state : PageState}
    (hr : PageRange node.allocationBase node.size)
    (ht : m'.pages.table = m.pages.table.set (node.allocationBase / 0x1000)
      ((node.allocationBase + node.size) / 0x1000) state protect)
    (hs : ∀ a, a ∈ m'.backend.spans ↔
      a = ⟨node.allocationBase, node.size, p⟩ ∨ a ∈ m.backend.spans)
    (hv : m'.vad = ⟨insertBy VadNode.allocationBase node m.vad.nodes⟩) : Lockstep m' where
  pages x hx := by
    rw [ht, set_range_apply hr] at hx
    rw [hv]
    by_cases hin : node.allocationBase ≤ x ∧ x < node.allocationBase + node.size
    · exact ⟨node, mem_insertBy.mpr (.inl rfl), hin⟩
    · rw [if_neg hin] at hx
      obtain ⟨n, hn, hx⟩ := hl.pages x hx
      exact ⟨n, mem_insertBy.mpr (.inr hn), hx⟩
  arenas a ha := by
    rw [hv]
    rcases (hs a).mp ha with rfl | ha
    · exact ⟨node, mem_insertBy.mpr (.inl rfl), rfl, rfl⟩
    · obtain ⟨n, hn, h⟩ := hl.arenas a ha
      exact ⟨n, mem_insertBy.mpr (.inr hn), h⟩
  allocations n hn := by
    rw [hv] at hn
    rcases mem_insertBy.mp hn with rfl | hn
    · exact ⟨_, (hs _).mpr (.inl rfl), rfl, rfl⟩
    · obtain ⟨a, ha, h⟩ := hl.allocations n hn
      exact ⟨a, (hs a).mpr (.inr ha), h⟩

/-- Setting pages inside an allocation, with the arenas as they were. -/
theorem Lockstep.reset (hl : Lockstep m) {lo size protect : ℕ} {state : PageState}
    (hr : Reset m lo size state protect m') (ha : m'.backend.arenas = m.backend.arenas) :
    Lockstep m' where
  pages x hx := by
    rw [hr.vad]
    rw [hr.table, set_range_apply hr.range] at hx
    by_cases hin : lo ≤ x ∧ x < lo + size
    · obtain ⟨n, hn, h1, h2⟩ := hr.inside
      exact ⟨n, hn, by omega, by omega⟩
    · rw [if_neg hin] at hx
      exact hl.pages x hx
  arenas a ha' := by
    rw [ArenaSet.spans_congr ha] at ha'
    rw [hr.vad]
    exact hl.arenas a ha'
  allocations n hn := by
    rw [hr.vad] at hn
    rw [ArenaSet.spans_congr ha]
    exact hl.allocations n hn

/-- Releasing an allocation drops it and its arena. -/
theorem Lockstep.release (hl : Lockstep m) (h : Inv env m) {node : VadNode}
    (hr : Released env m node m') : Lockstep m' where
  pages x hx := by
    rw [hr.table, set_range_apply (hr.range h)] at hx
    by_cases hin : node.allocationBase ≤ x ∧ x < node.allocationBase + node.size
    · rw [if_pos hin] at hx
      exact absurd rfl hx
    · rw [if_neg hin] at hx
      obtain ⟨n, hn, hnx⟩ := hl.pages x hx
      rw [hr.vad]
      refine ⟨n, h.vad.mem_removeBase.mpr ⟨hn, fun he => hin ?_⟩, hnx⟩
      rw [← h.vad.extents.eq_of_lo_eq hn hr.mem he]
      exact hnx
  arenas a ha := by
    rw [hr.backend, ArenaSet.mem_spans_unmapExact h.placed] at ha
    obtain ⟨n, hn, h1, h2⟩ := hl.arenas a ha.1
    rw [hr.vad]
    refine ⟨n, h.vad.mem_removeBase.mpr ⟨hn, fun he => ha.2 ?_⟩, h1, h2⟩
    have := h.vad.extents.eq_of_lo_eq hn hr.mem he
    subst this
    exact ⟨h1.symm, h2.symm⟩
  allocations n hn := by
    rw [hr.vad] at hn
    obtain ⟨hn, hne⟩ := h.vad.mem_removeBase.mp hn
    obtain ⟨a, ha, h1, h2⟩ := hl.allocations n hn
    refine ⟨a, ?_, h1, h2⟩
    rw [hr.backend, ArenaSet.mem_spans_unmapExact h.placed]
    exact ⟨ha, fun he => hne (h1.symm.trans he.1)⟩

/-- Every change under regular maps keeps lockstep. -/
theorem Lockstep.step (hl : Lockstep m) (h : Inv env m) {op : Op} {ok : Bool}
    (hreg : MapsRegular m op) (hc : Change env m op ok m') : Lockstep m' := by
  cases hc with
  | same _ hs => exact hl.congr hs.table (by simp [hs.backend]) hs.vad
  | bumped hs =>
    have hb : Lockstep m.bumpGeneration := hl.congr rfl (fun a => Iff.rfl) rfl
    exact hb.congr hs.table (by simp [hs.backend]) hs.vad
  | mapGrew hg =>
    refine hl.congr (by rw [hg.rest]) (fun a => ?_) (by rw [hg.rest])
    rcases hreg with hd | ⟨n, hn, rfl, rfl⟩
    · rw [ArenaSet.spans_congr (hg.vacant h (hl.vacant h hd))]
    · obtain ⟨b, hb, h1, h2⟩ := hl.allocations n hn
      exact mem_spans_of_grown hg.grown hb h1.le (by omega) a
  | @mapped address size perms memType m' hm =>
    obtain ⟨b, hst, hsy⟩ := hm.backend
    have hsp : m'.backend.spans = b.spans := ArenaSet.spans_congr hsy.arenas
    have hpos := hm.range.pos
    rcases hreg with hd | ⟨n, hn, rfl, rfl⟩
    · -- a new allocation, with exactly one new arena
      obtain ⟨p, hp⟩ := hst.vacant (hl.vacant h hd)
      have hov := (h.vad.overlaps_eq_false hm.range.top).mpr hd
      have hnb : m.vad.findBase address = none := by
        rw [VadTable.findBase_eq_none]
        intro n hn he
        have := hd n hn
        have := h.vad.extents.pos n hn
        omega
      rcases hm.vad with ⟨-, -, hv⟩ | ⟨hne, -⟩
      · exact hl.add hm.range hm.table (by rw [hsp]; exact hp) hv
      · exact absurd ⟨hnb, hov⟩ hne
    · -- an exact rematch: only the pages change
      obtain ⟨c, hc, h1, h2⟩ := hl.allocations n hn
      have hsame : b.spans = m.backend.spans := hst.rematch ⟨c, hc, h1, h2⟩
      have hv : m'.vad = m.vad := by
        rcases hm.vad with ⟨hf, -, -⟩ | ⟨-, hv⟩
        · exact absurd rfl (VadTable.findBase_eq_none.mp hf n hn)
        · exact hv
      refine ⟨fun x hx => ?_, fun a ha => ?_, fun n' hn' => ?_⟩
      · rw [hm.table, set_range_apply hm.range] at hx
        rw [hv]
        by_cases hin : n.allocationBase ≤ x ∧ x < n.allocationBase + n.size
        · exact ⟨n, hn, hin⟩
        · rw [if_neg hin] at hx
          exact hl.pages x hx
      · rw [hsp, hsame] at ha
        rw [hv]
        exact hl.arenas a ha
      · rw [hv] at hn'
        rw [hsp, hsame]
        exact hl.allocations n' hn'
  | reserveGrew _ _ _ _ ho hg =>
    have hd := (h.vad.overlaps_eq_false hg.range.top).mp ho
    refine hl.congr (by rw [hg.rest]) (fun a => ?_) (by rw [hg.rest])
    rw [ArenaSet.spans_congr (hg.vacant h (hl.vacant h fun n hn => hd n hn))]
  | reserved _ _ _ hm =>
    have hd := (h.vad.overlaps_eq_false hm.range.top).mp hm.apart
    obtain ⟨p, hp⟩ := hm.backend.vacant (hl.vacant h hd)
    exact hl.add hm.range hm.table hp hm.vad
  | committed _ _ _ hb hr => exact hl.reset hr (by rw [hb])
  | decommitted _ _ _ hz hr => exact hl.reset hr hz.arenas
  | reprotected _ _ _ hs hr => exact hl.reset hr hs.arenas
  | released _ _ hr => exact hl.release h hr
  | wrote hw =>
    exact hl.congr hw.table (fun a => by rw [ArenaSet.spans_congr hw.backend.arenas]) hw.vad

/-- Lockstep holds in every state reached under regular maps. -/
theorem Reachable.lockstep (h : Reachable env MapsRegular m) : Lockstep m := by
  refine (GuardedReach.invariant (I := fun m => Inv env m ∧ Lockstep m) ?_ ?_ h).2
  · rintro m ⟨host, rfl⟩
    exact ⟨inv_new host, lockstep_new host⟩
  · rintro m op m' ⟨hi, hl⟩ hreg hs
    have hc := hs.change hi
    exact ⟨hc.inv hi, hl.step hi hreg hc⟩

/-- **Pages, allocations and arenas agree**, in every state reached by calls whose maps are
regular: the allocations are in order, non-empty and disjoint; a page has a run exactly when it is
inside an allocation; and the arenas are exactly the allocations, so that every page with a run is
backed. -/
theorem metadata_consistent (h : Reachable env MapsRegular m) :
    ((∀ n ∈ m.vad.nodes, 0 < n.size) ∧
      m.vad.nodes.Pairwise fun a b => a.allocationBase + a.size ≤ b.allocationBase) ∧
    (∀ p, (m.pages.lookup p).isSome = true ↔ ∃ n ∈ m.vad.nodes,
      n.allocationBase ≤ p * 0x1000 ∧ (p + 1) * 0x1000 ≤ n.allocationBase + n.size) ∧
    (∀ lo size, (∃ a ∈ m.backend.arenas, a.guestBase = lo ∧ a.size = size) ↔
      ∃ n ∈ m.vad.nodes, n.allocationBase = lo ∧ n.size = size) ∧
    (∀ p, (m.pages.lookup p).isSome = true → (m.backend.pageDataPtr p).isSome = true) := by
  have hinv : Inv env m := Reachable.inv h
  have hl : Lockstep m := h.lockstep
  have hrun (p : ℕ) : (m.pages.lookup p).isSome = true ↔
      m.pages.table (p * 0x1000 / 0x1000) ≠ none := by
    rw [Nat.mul_div_cancel _ (by omega), Option.isSome_iff_ne_none, Ne, Ne,
      hinv.pages.table_eq_none]
  refine ⟨⟨fun n hn => ?_, hinv.vad.extents.apart⟩, fun p => ?_, fun lo size => ?_, fun p hp => ?_⟩
  · have := hinv.vad.extents.pos n hn
    omega
  · rw [hrun]
    constructor
    · intro hx
      obtain ⟨n, hn, h1, h2⟩ := hl.pages _ hx
      obtain ⟨ha, hz⟩ := hinv.vad.aligned n hn
      exact ⟨n, hn, h1, by omega⟩
    · rintro ⟨n, hn, h1, h2⟩
      exact hinv.owned n hn _ h1 (by omega)
  · constructor
    · rintro ⟨a, ha, rfl, rfl⟩
      exact hl.arenas _ (List.mem_map_of_mem ha)
    · rintro ⟨n, hn, rfl, rfl⟩
      obtain ⟨b, hb, h1, h2⟩ := hl.allocations n hn
      obtain ⟨a, ha, rfl⟩ := List.mem_map.mp hb
      exact ⟨a, ha, h1, h2⟩
  · rw [hinv.placed.pageDataPtr_eq]
    exact hinv.backed _ ((hrun p).mp hp)

/-- An image, an allocation wherever there is room, and a part of it committed. -/
theorem metadata_consistent_boot : ∃ m, Reachable .fourK MapsRegular m ∧
    (m.vad.nodes.map fun n => (n.allocationBase, n.size)) =
      [(0x400000, 0x2000), (0x100000000, 0x10000)] ∧
    ∀ p, (m.pages.lookup p).isSome = true → (m.backend.pageDataPtr p).isSome = true := by
  have h : Reachable .fourK MapsRegular (runAll .fourK (new .roomy)
      [.map 0x400000 0x2000 Perm.all .image, .virtualAlloc 0 0x3000 memReserve 4,
        .virtualAlloc 0x100001000 0x1000 memCommit 4]) :=
    (reachable_new _).runAll _ ⟨.inl (by simp [new, VadTable.new]), trivial, trivial, trivial⟩
      (by decide +kernel)
  exact ⟨_, h, by decide +kernel, (metadata_consistent h).2.2.2⟩

end GuestMemory

end Wie
