import Wie.Mem.FlatStore

/-!
# Zero fill

A page that `VirtualAlloc` commits reads zero. Three mechanisms share the work: a fresh mapping is
zeroed by the host, a decommit zeroes what it takes back, and a release unmaps the arena of the
allocation, so that the next one starts with a fresh mapping. Between them nothing can write,
because the permission check wants committed pages.

The third mechanism has a gap. A release unmaps the arena that is exactly the allocation, and where
bootstrap maps have overlapped there may be none. Then the storage survives with its content, and
the next reservation over it takes it as it is. The condition under which there is no stale data is
one on releases.

## Main definitions

* `GuestMemory.ReleasesClean` — a release drops its storage, or there is nothing in it
* `GuestMemory.WritesAt` — a call writes to an address

## Main results

* `GuestMemory.Reachable.clean` — what is not committed holds nothing
* `GuestMemory.no_stale_data` — what `VirtualAlloc` commits reads zero until it is written
-/

namespace Wie

namespace GuestMemory

variable {env : HostEnv} {m m' : GuestMemory} {x : ℕ}

/-- There is nothing at `x`: no storage, or a zero. -/
def Blank (s : ArenaSet) (x : ℕ) : Prop := ∀ v, s.byte x = some v → v = 0

/-- A release finds an arena that is exactly the allocation, or the allocation is blank. -/
def ReleasesClean (m : GuestMemory) : Op → Prop
  | .virtualFree addr _ freeType =>
    freeType &&& memRelease ≠ 0 → ∀ n ∈ m.vad.nodes, n.allocationBase = addr →
      (∃ a ∈ m.backend.spans, a.guestBase = n.allocationBase ∧ a.size = n.size) ∨
      ∀ x, n.allocationBase ≤ x → x < n.allocationBase + n.size → Blank m.backend x
  | _ => True

/-- The call is a write to `x` that succeeds. -/
def WritesAt (env : HostEnv) (m : GuestMemory) (op : Op) (x : ℕ) : Prop :=
  isOk (op.run env m).1 = true ∧ ∃ address bytes, op = .write address bytes ∧ address ≤ x ∧
    x < address + bytes.length

/-! ### Blank storage stays blank -/

theorem blank_congr {s s' : ArenaSet} (h : s'.byte x = s.byte x) : Blank s' x ↔ Blank s x := by
  unfold Blank
  rw [h]

theorem Blank.grown {s s' : ArenaSet} {lo hi : ℕ} (hb : Blank s x)
    (hg : ArenaSet.Grown env lo hi s s') (hP : ArenaSet.Placed env s.spans) : Blank s' x := by
  cases hx : s.hostAddr x with
  | none => exact fun v hv => hg.byte_of_not_backed hP hx hv
  | some p => exact (blank_congr (hg.byte hP (by rw [hx]; rfl))).mpr hb

theorem Blank.shrunk {s s' : ArenaSet} (hb : Blank s x) (hg : ArenaSet.Shrunk env s s')
    (hP : ArenaSet.Placed env s.spans) : Blank s' x := by
  intro v hv
  obtain ⟨p, hp, -⟩ := Option.map_eq_some_iff.mp hv
  exact hb v (by rw [← hg.byte hP (by rw [hp]; rfl)]; exact hv)

/-- **A call that does not write to a blank address leaves it blank.** -/
theorem Change.blank {op : Op} {ok : Bool} (hc : Change env m op ok m') (h : Inv env m)
    (hb : Blank m.backend x)
    (hw : ∀ address bytes, op = .write address bytes → ok = true →
      ¬ (address ≤ x ∧ x < address + bytes.length)) : Blank m'.backend x := by
  cases hc with
  | same _ hs => rwa [hs.backend]
  | bumped hs =>
    rw [hs.backend]
    exact hb
  | mapGrew hg => exact hb.grown hg.grown h.placed
  | mapped hm =>
    obtain ⟨b, hst, hsy⟩ := hm.backend
    exact (blank_congr (byte_congr hsy.arenas hsy.mem x)).mpr (hb.grown hst.grown h.placed)
  | reserveGrew _ _ _ _ _ hg => exact hb.grown hg.grown h.placed
  | reserved _ _ _ hm => exact hb.grown hm.backend.grown h.placed
  | committed _ _ _ hb' _ => rwa [hb']
  | decommitted _ _ _ hz _ =>
    intro v hv
    rw [hz.byte] at hv
    split at hv
    · obtain ⟨u, -, rfl⟩ := Option.map_eq_some_iff.mp hv
      rfl
    · exact hb v hv
  | reprotected _ _ _ hs _ => exact (blank_congr (byte_congr hs.arenas hs.mem x)).mpr hb
  | released _ _ hr => exact hb.shrunk (hr.shrunk h) h.placed
  | wrote hwr =>
    rw [blank_congr]
    · exact hb
    · rw [hwr.backend.byte, if_neg (hw _ _ rfl rfl)]

/-! ### What is not committed is blank -/

/-- What is not committed is blank. -/
def Clean (m : GuestMemory) : Prop := ∀ x, ¬ m.CommittedAt x → Blank m.backend x

theorem clean_new (host : Host) : Clean (new host) := by
  intro x _ v hv
  simp [new, ArenaSet.byte, ArenaSet.hostAddr, ArenaSet.spanAt, ArenaSet.findVa,
    ArenaSet.candidateIndex] at hv

/-- After pages were set, the committed ones. -/
theorem committedAt_set {lo size protect : ℕ} {state : PageState} (hr : PageRange lo size)
    (ht : m'.pages.table =
      m.pages.table.set (lo / 0x1000) ((lo + size) / 0x1000) state protect) :
    m'.CommittedAt x ↔ if lo ≤ x ∧ x < lo + size then state = .committed else m.CommittedAt x := by
  unfold CommittedAt
  rw [ht, set_range_apply hr]
  by_cases hin : lo ≤ x ∧ x < lo + size
  · rw [if_pos hin, if_pos hin]
    cases state <;> simp
  · rw [if_neg hin, if_neg hin]

/-- The storage of a clean release is gone or blank. -/
theorem Released.blank {node : VadNode} {addr size freeType : ℕ} (hr : Released env m node m')
    (h : Inv env m) (hclean : ReleasesClean m (.virtualFree addr size freeType))
    (hf : freeType &&& memRelease ≠ 0) (ha : node.allocationBase = addr)
    (hx : node.allocationBase ≤ x ∧ x < node.allocationBase + node.size) :
    Blank m'.backend x := by
  rcases hclean hf node hr.mem ha with ⟨a, ham, h1, h2⟩ | hb
  · -- the arena around `x` was the exact one
    intro v hv
    obtain ⟨p, hp, -⟩ := Option.map_eq_some_iff.mp hv
    obtain ⟨c, hc, hcx, -⟩ := (hr.shrunk h).placed.hostAddr_eq_some.mp hp
    rw [hr.backend, ArenaSet.mem_spans_unmapExact h.placed] at hc
    have : c = a := h.placed.eq_of_holds hc.1 ham hcx ⟨by omega, by omega⟩
    exact absurd ⟨this ▸ h1, this ▸ h2⟩ hc.2
  · exact (hb x hx.1 hx.2).shrunk (hr.shrunk h) h.placed

/-- **Calls whose releases are clean keep what is not committed blank.** -/
theorem Clean.step {op : Op} {ok : Bool} (hcl : Clean m) (h : Inv env m)
    (hg : ReleasesClean m op) (hc : Change env m op ok m') : Clean m' := by
  intro x hx
  by_cases hold : m.CommittedAt x
  · -- a page stops being committed by a decommit or a release
    have hset {lo size protect : ℕ} (hr : PageRange lo size)
        (ht : m'.pages.table =
          m.pages.table.set (lo / 0x1000) ((lo + size) / 0x1000) .committed protect) : False := by
      rw [committedAt_set hr ht] at hx
      split at hx
      · exact hx rfl
      · exact hx hold
    have hsame (ht : m'.pages.table = m.pages.table) : False := by
      unfold CommittedAt at hx
      rw [ht] at hx
      exact hx hold
    cases hc with
    | same _ hs => exact (hsame hs.table).elim
    | bumped hs => exact (hsame hs.table).elim
    | mapGrew hg' => exact (hsame (by rw [hg'.rest])).elim
    | mapped hm => exact (hset hm.range hm.table).elim
    | reserveGrew _ _ _ _ _ hg' => exact (hsame (by rw [hg'.rest])).elim
    | reserved _ _ _ hm =>
      rw [committedAt_set hm.range hm.table] at hx
      split at hx
      · rename_i hin
        obtain ⟨p, hp⟩ := hold
        rw [hm.free x hin.1 hin.2] at hp
        cases hp
      · exact absurd hold hx
    | committed _ _ _ _ hr => exact (hset hr.range hr.table).elim
    | decommitted _ _ _ hz hr =>
      rw [committedAt_set hr.range hr.table] at hx
      split at hx
      · rename_i hin
        intro v hv
        rw [hz.byte, if_pos hin] at hv
        obtain ⟨u, -, rfl⟩ := Option.map_eq_some_iff.mp hv
        rfl
      · exact absurd hold hx
    | reprotected _ _ _ _ hr => exact (hset hr.range hr.table).elim
    | released hf ha hr =>
      rw [committedAt_set (hr.range h) hr.table] at hx
      split at hx
      · rename_i hin
        exact hr.blank h hg hf ha hin
      · exact absurd hold hx
    | wrote hw => exact (hsame hw.table).elim
  · refine hc.blank h (hcl x hold) ?_
    -- a write to `x` would have been denied
    rintro address bytes rfl rfl ⟨h1, h2⟩
    cases hc with
    | same hq _ => exact hq rfl
    | wrote hw =>
      rcases hw.granted with rfl | ⟨-, hall⟩
      · simp only [List.length_nil] at h2
        omega
      · obtain ⟨p, hp, -⟩ := PageTable.grants_iff.mp (hall x h1 h2)
        exact hold ⟨p, hp⟩

theorem Reachable.clean (h : Reachable env ReleasesClean m) : Clean m := by
  refine (GuardedReach.invariant (I := fun m => Inv env m ∧ Clean m) ?_ ?_ h).2
  · rintro m ⟨host, rfl⟩
    exact ⟨inv_new host, clean_new host⟩
  · rintro m op m' ⟨hi, hcl⟩ hg hs
    exact ⟨(hs.change hi).inv hi, hcl.step hi hg (hs.change hi)⟩

/-- Blank addresses stay blank along calls that do not write to them, and then read zero. -/
theorem Blank.read_of_path {m'' : GuestMemory} (hb : Blank m.backend x) (h : Inv env m)
    (hp : GuardedPath (fun n op => ¬ WritesAt env n op x) (Step env) m m'') {a len : ℕ}
    {v : List UInt8} (hv : (m''.read env a len).1 = .ok v) (h1 : a ≤ x) (h2 : x < a + len) :
    v[x - a]? = some 0 := by
  obtain ⟨hinv, hblank⟩ := GuardedPath.invariant
    (I := fun n : GuestMemory => Inv env n ∧ Blank n.backend x) (fun n op n' hn hw hs => by
      have hc := hs.change hn.1
      exact ⟨hc.inv hn.1, hc.blank hn.1 hn.2 fun address bytes hop hok hin =>
        hw ⟨hok, address, bytes, hop, hin⟩⟩) hp ⟨h, hb⟩
  obtain ⟨hlen, hget⟩ := hinv.read_byte hv
  have hbyte := hget (x - a) (by omega)
  rw [show a + (x - a) = x by omega] at hbyte
  obtain ⟨b, hvb⟩ : ∃ b, v[x - a]? = some b := ⟨_, List.getElem?_eq_getElem (by omega)⟩
  rw [hvb, hblank b (hbyte.trans hvb)]

/-- A `VirtualAlloc` writes nothing: it leaves blank addresses blank, and keeps the bytes of a page
that is committed before and after. -/
theorem Change.byte_of_alloc {addr size allocType protect : ℕ} {ok : Bool}
    (hc : Change env m (.virtualAlloc addr size allocType protect) ok m') (h : Inv env m)
    (hx : m.CommittedAt x) (hx' : m'.CommittedAt x) : m'.backend.byte x = m.backend.byte x := by
  obtain ⟨p, hp⟩ := hx
  obtain ⟨q, hq⟩ := hx'
  cases hc.byteChange h (x := x) (by rw [hp]; simp) with
  | kept hk => exact hk
  | written hop => cases hop
  | zeroed ht =>
    rw [ht] at hq
    cases hq
  | freed ht =>
    rw [ht] at hq
    cases hq

/-- **No stale data becomes visible through `VirtualAlloc`**, in every run whose releases are clean:
an address whose page it commits reads zero until it is written, and one whose page was committed
already keeps its byte. -/
theorem no_stale_data (h : Reachable env ReleasesClean m) {addr size allocType protect : ℕ}
    (hs : Step env m (.virtualAlloc addr size allocType protect) m') (hx : m'.CommittedAt x) :
    (¬ m.CommittedAt x → ∀ m'', GuardedPath (fun n op => ¬ WritesAt env n op x) (Step env) m' m'' →
      ∀ a len v, (m''.read env a len).1 = .ok v → a ≤ x → x < a + len → v[x - a]? = some 0) ∧
    (m.CommittedAt x → m'.backend.byte x = m.backend.byte x) := by
  have hinv : Inv env m := Reachable.inv h
  have hc := hs.change hinv
  refine ⟨fun hold m'' hp a len v hv h1 h2 => ?_, fun hold => hc.byte_of_alloc hinv hold hx⟩
  have hb : Blank m'.backend x := hc.blank hinv (h.clean x hold) nofun
  exact hb.read_of_path (hc.inv hinv) hp hv h1 h2

/-- A page that was written, decommitted, and committed again. -/
theorem no_stale_data_again : ∃ m m',
    Reachable .fourK ReleasesClean m ∧
      Step .fourK m (.virtualAlloc 0x20000 0x1000 memCommit Protect.pageReadwrite) m' ∧
      ∀ m'', GuardedPath (fun n op => ¬ WritesAt .fourK n op 0x20000) (Step .fourK) m' m'' →
        ∀ a len v, (m''.read .fourK a len).1 = .ok v → a ≤ 0x20000 → 0x20000 < a + len →
          v[0x20000 - a]? = some 0 := by
  have h : Reachable .fourK ReleasesClean (runAll .fourK (new .roomy)
      [.virtualAlloc 0x20000 0x1000 (memReserve + memCommit) Protect.pageReadwrite,
        .write 0x20000 [7], .virtualFree 0x20000 0x1000 memDecommit]) :=
    (reachable_new _).runAll _ ⟨trivial, trivial, fun hf => absurd rfl hf, trivial⟩
      (by decide +kernel)
  have hs : Step .fourK (runAll .fourK (new .roomy)
      [.virtualAlloc 0x20000 0x1000 (memReserve + memCommit) Protect.pageReadwrite,
        .write 0x20000 [7], .virtualFree 0x20000 0x1000 memDecommit])
      (.virtualAlloc 0x20000 0x1000 memCommit Protect.pageReadwrite) _ :=
    ⟨by decide +kernel, rfl⟩
  exact ⟨_, _, h, hs, (no_stale_data h hs (by decide +kernel)).1 (by decide +kernel)⟩

/-- Three overlapping maps leave an allocation without an arena of its own; what was written to it
is still there after its release, when the range is allocated again. -/
theorem stale_data_after_release : ∃ m m', Reachable .fourK AnyCall m ∧
    Step .fourK m (.virtualAlloc 0x20000 0x10000 (memReserve + memCommit) Protect.pageReadwrite) m' ∧
    ¬ m.CommittedAt 0x20000 ∧ m'.CommittedAt 0x20000 ∧
    (m'.read .fourK 0x20000 1).1 = .ok [7] := by
  refine ⟨runAll .fourK (new .roomy)
    [.map 0x10000 0x10000 Perm.all .priv, .map 0x18000 0x10000 Perm.all .priv,
      .map 0x20000 0x10000 Perm.all .priv, .write 0x20000 [7], .virtualFree 0x20000 0 memRelease],
    _, (reachable_new _).runAll _ (allMeet_anyCall _ _) (by decide +kernel),
    ⟨by decide +kernel, rfl⟩, by decide +kernel, by decide +kernel, by decide +kernel⟩

end GuestMemory

end Wie
