import Wie.Mem.Lockstep

/-!
# Sealed host pages

Host protection is brought in line with the pages by maps and by `VirtualProtect`, and by nothing
else. A commit and a decommit change the pages of a host page that an earlier call has made
read-only, and leave it so: then a store that the permission check grants, or the zeroing of the
decommitted pages, ends the process.

Which host pages are read-only is a matter of the calls alone. A host page is *sealed* by the last
map or `VirtualProtect` whose walk stopped there, if it found the guest pages tight, and a fresh
arena is never sealed. The set of sealed addresses is carried along as a history; what the code
keeps in the host's page protection is exactly this set. The condition under which host protection
never denies what the check grants is then one on the calls: no commit for writing and no decommit
on a sealed address.

## Main definitions

* `GuestMemory.sealAfter` — the sealed addresses after a call
* `GuestMemory.FrameSafe` — the call does not write under the seal
* `GuestMemory.SealReach` — the runs of such calls, with their sealed addresses

## Main results

* `GuestMemory.SealReach.sealInv` — host pages without write permission are the sealed ones
* `GuestMemory.host_protection_never_denies` — and they are never needed for writing
-/

namespace Wie

namespace ArenaSet

variable {env : HostEnv} {s s' : ArenaSet} {a : HostSpan} {lo hi x : ℕ}

/-- The host page of `x` is inside its arena, and the walk over `[lo, hi)` stops in it. -/
def Rescanned (env : HostEnv) (s : ArenaSet) (lo hi x : ℕ) : Prop :=
  ∃ a ∈ s.spans, a.Holds x ∧ a.WholeFrame env x ∧
    ∃ y, Visits env s hi lo y ∧ a.Holds y ∧ a.frame env y = a.frame env x

/-- The guest pages of the host page of `x` are tight. -/
def TightAt (env : HostEnv) (s : ArenaSet) (t : PageTable) (x : ℕ) : Prop :=
  ∃ a ∈ s.spans, a.Holds x ∧ Tight t (a.frame env x) env.pageSize

/-- Whether an address can be written is a matter of its host page. -/
theorem Placed.writable_iff (h : Placed env s.spans) (ha : a ∈ s.spans) (hx : a.Holds x) :
    s.Writable env x ↔ ∃ q, s.host.prot (a.page env x) = some q ∧ q.w = true := by
  unfold Writable HostPermits
  rw [h.hostAddr_of_holds ha hx]
  constructor
  · rintro ⟨p, q, hp, hq⟩
    cases hp
    exact ⟨q, hq⟩
  · rintro ⟨q, hq⟩
    exact ⟨_, q, rfl, hq⟩

theorem Placed.not_writable_of_unbacked (hx : s.hostAddr x = none) : ¬ s.Writable env x := by
  rintro ⟨p, q, hp, -⟩
  rw [hx] at hp
  cases hp

/-- A host page where the walk stopped is open unless its guest pages are tight. -/
theorem Synced.writable_of_rescanned {pages : PageMap} (hs : Synced env pages lo hi s s')
    (hon : env.mprotectEnabled = true) (h : Placed env s.spans) (hv : pages.Valid)
    (hr : Rescanned env s lo hi x) : s'.Writable env x ↔ ¬ TightAt env s pages.table x := by
  obtain ⟨a, ha, hx, hw, y, hy, hay, hfr⟩ := hr
  have hsp : s'.spans = s.spans := spans_congr hs.arenas
  have hw' : a.frame env x + env.pageSize ≤ a.guestBase + a.size := hw
  have hbd := h.bounded a ha
  have htight : TightAt env s pages.table x ↔ Tight pages.table (a.frame env x) env.pageSize := by
    constructor
    · rintro ⟨b, hb, hbx, ht⟩
      rwa [h.eq_of_holds hb ha hbx hx] at ht
    · exact fun ht => ⟨a, ha, hx, ht⟩
  have hprot : s'.host.prot (a.page env x) =
      some (GuestMemory.hostProtForFrame pages (a.frame env x) env.pageSize) := by
    rw [← HostSpan.page_eq_of_frame_eq (h.based a ha).2 hfr, ← hfr]
    refine hs.hit hon a ha y hy hay ?_
    unfold HostSpan.WholeFrame
    rw [hfr]
    exact hw
  rw [Placed.writable_iff (hsp ▸ h) (hsp ▸ ha) hx, hprot, htight]
  rcases GuestMemory.hostProtForFrame_spec hv (HostSpan.frame_mod env x (h.aligned a ha).1)
      (Nat.mod_eq_zero_of_dvd env.page_dvd) (show a.frame env x + env.pageSize < 2 ^ 64 by omega)
    with ⟨hq, ht⟩ | ⟨hq, ht⟩
  · simp [hq, ht, HostProt.rw]
  · simp [hq, ht, HostProt.ro]

/-- Any other host page stays as it is. -/
theorem Synced.writable_of_not_rescanned {pages : PageMap} (hs : Synced env pages lo hi s s')
    (h : Placed env s.spans) (hr : ¬ (env.mprotectEnabled = true ∧ Rescanned env s lo hi x)) :
    s'.Writable env x ↔ s.Writable env x := by
  have hsp : s'.spans = s.spans := spans_congr hs.arenas
  cases hon : env.mprotectEnabled with
  | false => exact writable_congr hs.arenas (hs.off hon)
  | true =>
    cases hb : s.hostAddr x with
    | none =>
      have hb' : s'.hostAddr x = none := by rw [hostAddr_congr hs.arenas, hb]
      exact ⟨fun hw => absurd hw (Placed.not_writable_of_unbacked hb'),
        fun hw => absurd hw (Placed.not_writable_of_unbacked hb)⟩
    | some p =>
      obtain ⟨a, ha, hx, -⟩ := h.hostAddr_eq_some.mp hb
      rw [h.writable_iff ha hx, Placed.writable_iff (hsp ▸ h) (hsp ▸ ha) hx, hs.miss]
      intro b hb y hy hby hw hpage
      obtain ⟨rfl, hfr⟩ := h.eq_of_page_eq ha hb hx hby hpage
      refine hr ⟨hon, a, ha, hx, ?_, y, hy, hby, hfr.symm⟩
      unfold HostSpan.WholeFrame
      rw [hfr]
      exact hw

/-- Growing leaves host protection alone, and new arenas are open. -/
theorem Grown.not_writable_iff (hg : Grown env lo hi s s') (h : Placed env s.spans)
    (hb : (s'.hostAddr x).isSome = true) :
    ¬ s'.Writable env x ↔ (s.hostAddr x).isSome = true ∧ ¬ s.Writable env x := by
  obtain ⟨a, ha, hx⟩ := hg.placed.hostAddr_isSome.mp hb
  rw [hg.placed.writable_iff ha hx]
  by_cases hold : a ∈ s.spans
  · have := (hg.same a hold _ (hx.owns env)).2
    rw [HostSpan.page, this, ← HostSpan.page, h.writable_iff hold hx]
    exact ⟨fun hn => ⟨h.hostAddr_isSome.mpr ⟨a, hold, hx⟩, hn⟩, And.right⟩
  · have hfresh := ((hg.fresh a ha hold).2.2 _ (hx.owns env)).2
    rw [HostSpan.page, hfresh]
    refine ⟨fun hn => absurd ⟨_, rfl, rfl⟩ hn, fun hn => ?_⟩
    obtain ⟨b, hb', hbx⟩ := h.hostAddr_isSome.mp hn.1
    exact absurd (hg.placed.eq_of_holds ha (hg.keeps b hb') hx hbx ▸ hb') hold

/-- Unmapping leaves the host protection of what remains alone. -/
theorem Shrunk.not_writable_iff (hg : Shrunk env s s') (h : Placed env s.spans)
    (hb : (s'.hostAddr x).isSome = true) :
    ¬ s'.Writable env x ↔ (s.hostAddr x).isSome = true ∧ ¬ s.Writable env x := by
  obtain ⟨a, ha, hx⟩ := hg.placed.hostAddr_isSome.mp hb
  have hold := hg.subset a ha
  rw [hg.placed.writable_iff ha hx, h.writable_iff hold hx, HostSpan.page,
    (hg.same a ha _ (hx.owns env)).2]
  exact ⟨fun hn => ⟨h.hostAddr_isSome.mpr ⟨a, hold, hx⟩, hn⟩, And.right⟩

end ArenaSet

namespace GuestMemory

variable {env : HostEnv} {m m' : GuestMemory}

/-! ### The sealed addresses -/

/-- The range over which a call brings host protection in line. -/
def syncedRange (m : GuestMemory) : Op → Option (ℕ × ℕ)
  | .map address size _ _ => some (address, address + size)
  | .virtualProtect addr size _ =>
    match m.pageRange addr size protectErrors acceptCommitted none with
    | .ok (lo, len, _) => some (lo, lo + len)
    | .error _ => none
  | _ => none

/-- The call computes the protection of the host page of `x` anew. -/
def Resyncs (env : HostEnv) (m : GuestMemory) (op : Op) (m' : GuestMemory) (x : ℕ) : Prop :=
  env.mprotectEnabled = true ∧ isOk (op.run env m).1 = true ∧
    ∃ lo hi, m.syncedRange op = some (lo, hi) ∧ ArenaSet.Rescanned env m'.backend lo hi x

/-- The sealed addresses after a call: those of host pages computed anew whose guest pages are
tight, and those sealed before elsewhere, as long as they are backed. -/
def sealAfter (env : HostEnv) (m : GuestMemory) (op : Op) (m' : GuestMemory) (S : Set ℕ) :
    Set ℕ :=
  {x | (m'.backend.hostAddr x).isSome = true ∧
    ((Resyncs env m op m' x ∧ ArenaSet.TightAt env m'.backend m'.pages.table x) ∨
      (¬ Resyncs env m op m' x ∧ x ∈ S))}

/-- A call with its effect on the sealed addresses. -/
def SealStep (env : HostEnv) (s : GuestMemory × Set ℕ) (op : Op) (s' : GuestMemory × Set ℕ) :
    Prop :=
  Step env s.1 op s'.1 ∧ s'.2 = sealAfter env s.1 op s'.1 s.2

/-- The memories reachable by calls that meet a guard, with their sealed addresses. -/
def SealReach (env : HostEnv) (guard : GuestMemory × Set ℕ → Op → Prop)
    (s : GuestMemory × Set ℕ) : Prop :=
  GuardedReach (fun s => (∃ host, s.1 = new host) ∧ s.2 = ∅) guard (SealStep env) s

/-- Where a range ends within the first host page of an arena that starts inside it, that part is
not sealed. -/
def EndsClear (env : HostEnv) (s : GuestMemory × Set ℕ) (lo hi : ℕ) : Prop :=
  ∀ a ∈ s.1.backend.spans, ∀ x ∈ s.2, a.Holds x → lo < a.guestBase → x < hi →
    a.guestBase + env.pageSize ≤ hi

/-- The call grants no write under the seal. A commit for writing, alone or with a reservation over
storage that was left behind, touches no sealed address; and where a map or a protection change for
writing ends within the first host page of a later arena, that page is not sealed, because the walk
may miss it. -/
def FrameSafe (env : HostEnv) (s : GuestMemory × Set ℕ) : Op → Prop
  | .map address size perms _ =>
    Protect.allowsWrite (Protect.pageProtectFromRwx perms) = true →
      EndsClear env s address (address + size)
  | .virtualProtect addr size protect =>
    Protect.allowsWrite protect = true → ∀ lo len old,
      s.1.pageRange addr size protectErrors acceptCommitted none = .ok (lo, len, old) →
      EndsClear env s lo (lo + len)
  | .virtualAlloc addr size allocType protect =>
    AllocArgs size allocType protect → Protect.allowsWrite protect = true →
      ((allocType &&& memReserve ≠ 0 ∨ addr = 0) → allocType &&& memCommit ≠ 0 → ∀ lo len,
        s.1.alignReserveRequest addr size = .ok (lo, len) →
        (∀ x, lo ≤ x → x < lo + len → s.1.pages.table (x / 0x1000) = none) →
        ∀ x ∈ s.2, ¬ (lo ≤ x ∧ x < lo + len)) ∧
      (allocType &&& memReserve = 0 ∧ addr ≠ 0 → ∀ lo len,
        s.1.pageRange addr size commitErrors (acceptUsed commitErrors.missing) () =
          .ok (lo, len, ()) →
        ∀ x ∈ s.2, ¬ (lo ≤ x ∧ x < lo + len))
  | _ => True

/-- The decommit of `[addr, addr + size)` touches no sealed address. -/
def DecommitSafe (s : GuestMemory × Set ℕ) (addr size : ℕ) : Prop :=
  size ≠ 0 → ∀ lo len,
    s.1.pageRange addr size decommitErrors (acceptUsed decommitErrors.missing) () =
      .ok (lo, len, ()) →
    ∀ x ∈ s.2, ¬ (lo ≤ x ∧ x < lo + len)

/-- Where nothing is sealed every call is safe. -/
theorem frameSafe_empty (op : Op) : FrameSafe env (m, ∅) op := by
  have hno (P : ℕ → Prop) : ∀ x ∈ (∅ : Set ℕ), P x := fun x hx => absurd hx (Set.notMem_empty x)
  cases op with
  | map => exact fun _ a _ => hno _
  | virtualProtect => exact fun _ _ _ _ _ a _ => hno _
  | virtualAlloc =>
    exact fun _ _ => ⟨fun _ _ _ _ _ _ => hno _, fun _ _ _ _ => hno _⟩
  | virtualFree => trivial
  | write => trivial
  | read => trivial
  | registerRegion => trivial

theorem SealReach.call {guard : GuestMemory × Set ℕ → Op → Prop} {S : Set ℕ}
    (h : SealReach env guard (m, S)) (op : Op) (hg : guard (m, S) op)
    (hc : (op.run env m).1 ≠ .crash) : ∃ S', SealReach env guard ((op.run env m).2, S') :=
  ⟨sealAfter env m op (op.run env m).2 S, .step h hg ⟨⟨hc, rfl⟩, rfl⟩⟩

/-! ### What the host protects -/

/-- The sealed addresses are those that the host does not let be written. Their host pages are
inside their arenas, and the permission check grants no write to them. -/
structure SealInv (env : HostEnv) (s : GuestMemory × Set ℕ) : Prop where
  /-- Sealed is backed and not writable. -/
  sealed : ∀ x, x ∈ s.2 ↔ (s.1.backend.hostAddr x).isSome = true ∧ ¬ s.1.backend.Writable env x
  /-- The host page at the tail of an arena is never sealed. -/
  whole : ∀ a ∈ s.1.backend.spans, ∀ x ∈ s.2, a.Holds x → a.WholeFrame env x
  /-- Without `mprotect` nothing is sealed. -/
  on : ∀ x ∈ s.2, env.mprotectEnabled = true
  /-- What is sealed may not be written. -/
  shut : ∀ x ∈ s.2, s.1.pages.table.grants .write (x / 0x1000) = false

theorem sealInv_new (host : Host) : SealInv env (new host, ∅) where
  sealed x := by simp [new, ArenaSet.hostAddr, ArenaSet.spanAt, ArenaSet.findVa,
    ArenaSet.candidateIndex]
  whole a ha := by simp [new, ArenaSet.spans] at ha
  on x hx := absurd hx (Set.notMem_empty x)
  shut x hx := absurd hx (Set.notMem_empty x)

/-- A call after which the host pages are as they were. -/
theorem SealInv.keep {S : Set ℕ} {op : Op} (hi : SealInv env (m, S)) (hn : ∀ x, ¬ Resyncs env m op m' x)
    (hw : ∀ x, (m'.backend.hostAddr x).isSome = true → (¬ m'.backend.Writable env x ↔
      (m.backend.hostAddr x).isSome = true ∧ ¬ m.backend.Writable env x))
    (hs : ∀ a ∈ m'.backend.spans, ∀ x, a.Holds x → (m.backend.hostAddr x).isSome = true →
      a ∈ m.backend.spans)
    (ht : ∀ x ∈ S, (m'.backend.hostAddr x).isSome = true →
      m'.pages.table.grants .write (x / 0x1000) = false) :
    SealInv env (m', sealAfter env m op m' S) := by
  have hmem (x : ℕ) : x ∈ sealAfter env m op m' S ↔
      (m'.backend.hostAddr x).isSome = true ∧ x ∈ S := by
    simp [sealAfter, hn]
  refine ⟨fun x => ?_, fun a ha x hx hax => ?_, fun x hx => ?_, fun x hx => ?_⟩
  · rw [hmem, hi.sealed]
    exact and_congr_right fun hb => (hw x hb).symm
  · have hS := ((hmem x).mp hx).2
    exact hi.whole a (hs a ha x hax ((hi.sealed x).mp hS).1) x hS hax
  · exact hi.on x ((hmem x).mp hx).2
  · exact ht x ((hmem x).mp hx).2 ((hmem x).mp hx).1

/-- Nothing is computed anew by a call that has no such range or does not succeed. -/
theorem not_resyncs {op : Op} (h : isOk (op.run env m).1 = true → m.syncedRange op = none) (x : ℕ) :
    ¬ Resyncs env m op m' x := by
  rintro ⟨-, hok, lo, hi, hr, -⟩
  rw [h hok] at hr
  cases hr

/-- A call that brings host protection in line over `[lo, lo + size)`, after its storage was
found. -/
theorem SealInv.resync {S : Set ℕ} {op : Op} {b : ArenaSet} {lo size protect : ℕ}
    (hi : SealInv env (m, S)) (h : Inv env m) (h' : Inv env m')
    (hok : isOk (op.run env m).1 = true) (hop : m.syncedRange op = some (lo, lo + size))
    (hg : ArenaSet.Grown env lo (lo + size) m.backend b)
    (hs : ArenaSet.Synced env m'.pages lo (lo + size) b m'.backend)
    (hr : PageRange lo size)
    (ht : m'.pages.table =
      m.pages.table.set (lo / 0x1000) ((lo + size) / 0x1000) .committed protect)
    (hclear : Protect.allowsWrite protect = true → EndsClear env (m, S) lo (lo + size)) :
    SealInv env (m', sealAfter env m op m' S) := by
  have hsp : m'.backend.spans = b.spans := ArenaSet.spans_congr hs.arenas
  have hba (x : ℕ) : m'.backend.hostAddr x = b.hostAddr x := ArenaSet.hostAddr_congr hs.arenas x
  have hre (x : ℕ) : ArenaSet.Rescanned env m'.backend lo (lo + size) x ↔
      ArenaSet.Rescanned env b lo (lo + size) x := by
    unfold ArenaSet.Rescanned
    rw [hsp]
    simp only [ArenaSet.visits_congr hs.arenas]
  have hti (x : ℕ) : ArenaSet.TightAt env m'.backend m'.pages.table x ↔
      ArenaSet.TightAt env b m'.pages.table x := by
    unfold ArenaSet.TightAt
    rw [hsp]
  have hresync (x : ℕ) : Resyncs env m op m' x ↔
      env.mprotectEnabled = true ∧ ArenaSet.Rescanned env b lo (lo + size) x := by
    unfold Resyncs
    rw [hop, ← hre]
    simp [hok]
  -- what is sealed afterwards is tight, or was sealed before and not looked at
  have hmem {x : ℕ} (hx : x ∈ sealAfter env m op m' S) :
      (Resyncs env m op m' x ∧ ArenaSet.TightAt env m'.backend m'.pages.table x) ∨
        (¬ Resyncs env m op m' x ∧ x ∈ S) := hx.2
  refine ⟨fun x => ?_, fun a ha x hx hax => ?_, fun x hx => ?_, fun x hx => ?_⟩
  · refine and_congr_right fun hb => ?_
    by_cases hc : Resyncs env m op m' x
    · obtain ⟨hon, hsc⟩ := (hresync x).mp hc
      rw [hs.writable_of_rescanned hon hg.placed h'.pages hsc, not_not, ← hti]
      simp [hc]
    · rw [hs.writable_of_not_rescanned hg.placed (mt (hresync x).mpr hc),
        hg.not_writable_iff h.placed (hba x ▸ hb), ← hi.sealed]
      simp [hc]
  · rcases hmem hx with ⟨hc, -⟩ | ⟨-, hS⟩
    · obtain ⟨-, c, hcm, hcx, hw, -⟩ := (hresync x).mp hc
      rw [hsp] at ha
      rwa [hg.placed.eq_of_holds ha hcm hax hcx]
    · obtain ⟨c, hcm, hcx⟩ := h.placed.hostAddr_isSome.mp ((hi.sealed x).mp hS).1
      rw [hsp] at ha
      rw [hg.placed.eq_of_holds ha (hg.keeps c hcm) hax hcx]
      exact hi.whole c hcm x hS hcx
  · rcases hmem hx with ⟨hc, -⟩ | ⟨-, hS⟩
    · exact hc.1
    · exact hi.on x hS
  · rcases hmem hx with ⟨-, a, ha, hax, htight⟩ | ⟨hc, hS⟩
    · obtain ⟨p, hp, hpw⟩ := htight.1 x (HostSpan.frame_le env hax.1)
        (HostSpan.lt_frame_add env a x)
      simp [PageTable.grants, hp, Protect.allows, hpw]
    · -- the walk missed the host page: either it does not meet the range, or the pages do not
      -- become writable
      by_cases hin : lo ≤ x ∧ x < lo + size
      · obtain ⟨a, ha, hax⟩ := h.placed.hostAddr_isSome.mp ((hi.sealed x).mp hS).1
        have hw := hi.whole a ha x hS hax
        cases hpw : Protect.allowsWrite protect with
        | false =>
          unfold PageTable.grants
          rw [ht, set_range_apply hr, if_pos hin]
          simpa [Protect.allows] using hpw
        | true =>
          refine absurd ((hresync x).mpr ⟨hi.on x hS, a, hg.keeps a ha, hax, hw, ?_⟩) hc
          refine hg.placed.exists_visits hr.top (hg.keeps a ha) hax hw hin.2 _ lo le_rfl hr.base
            hin.1 fun ⟨h1, h2, h3⟩ => ?_
          have := hclear hpw a ha x hS hax h1 hin.2
          omega
      · unfold PageTable.grants
        rw [ht, set_range_apply hr, if_neg hin]
        exact hi.shut x hS

/-- A call that leaves arenas and host protection alone. -/
theorem SealInv.quiet {S : Set ℕ} {op : Op} (hi : SealInv env (m, S))
    (hn : isOk (op.run env m).1 = true → m.syncedRange op = none)
    (ha : m'.backend.arenas = m.backend.arenas) (hp : m'.backend.host.prot = m.backend.host.prot)
    (ht : ∀ x ∈ S, m'.pages.table.grants .write (x / 0x1000) = false) :
    SealInv env (m', sealAfter env m op m' S) := by
  refine hi.keep (not_resyncs hn) (fun x hb => ?_) (fun a ha' x _ _ => ?_) fun x hx _ => ht x hx
  · rw [ArenaSet.writable_congr ha hp, ← ArenaSet.hostAddr_congr ha]
    exact ⟨fun hw => ⟨hb, hw⟩, And.right⟩
  · rwa [ArenaSet.spans_congr ha] at ha'

/-- A call that grew the arenas. -/
theorem SealInv.grow {S : Set ℕ} {op : Op} {lo hi : ℕ} (hI : SealInv env (m, S)) (h : Inv env m)
    (hn : isOk (op.run env m).1 = true → m.syncedRange op = none)
    (hg : ArenaSet.Grown env lo hi m.backend m'.backend)
    (ht : ∀ x ∈ S, m'.pages.table.grants .write (x / 0x1000) = false) :
    SealInv env (m', sealAfter env m op m' S) := by
  refine hI.keep (not_resyncs hn) (fun x hb => hg.not_writable_iff h.placed hb)
    (fun a ha x hax hb => ?_) fun x hx _ => ht x hx
  obtain ⟨c, hc, hcx⟩ := h.placed.hostAddr_isSome.mp hb
  rwa [hg.placed.eq_of_holds ha (hg.keeps c hc) hax hcx]

/-- The write permission of an address after its pages were set. -/
theorem grants_write_set {t : PageTable} {lo size protect x : ℕ} {state : PageState}
    (hr : PageRange lo size) (hout : t.grants .write (x / 0x1000) = false)
    (hin : lo ≤ x ∧ x < lo + size → state = .committed → Protect.allowsWrite protect = false) :
    (t.set (lo / 0x1000) ((lo + size) / 0x1000) state protect).grants .write (x / 0x1000) =
      false := by
  unfold PageTable.grants
  rw [set_range_apply hr]
  by_cases hx : lo ≤ x ∧ x < lo + size
  · rw [if_pos hx]
    cases state with
    | free => rfl
    | reserved => rfl
    | committed => exact hin hx rfl
  · rw [if_neg hx]
    exact hout

/-- **Every safe call keeps the seal.** -/
theorem SealInv.step {S : Set ℕ} {op : Op} (hi : SealInv env (m, S)) (h : Inv env m)
    (hsafe : FrameSafe env (m, S) op) (hs : Step env m op m') :
    SealInv env (m', sealAfter env m op m' S) := by
  have hc := hs.change h
  have h' := hc.inv h
  generalize hok : isOk (op.run env m).1 = ok at hc
  cases hc with
  | same hq hsm =>
    refine hi.quiet (fun ht => ?_) (by rw [hsm.backend]) (by rw [hsm.backend]) ?_
    · have := hq (hok.symm.trans ht)
      cases op <;> first | rfl | cases this
    · rw [hsm.table]
      exact hi.shut
  | bumped hsm =>
    refine hi.keep (fun x hx => ?_) (fun x hb => ?_) (fun a ha x _ _ => ?_) fun x hx _ => ?_
    · -- the range is empty: the walk stops nowhere
      obtain ⟨-, -, lo, hi, hr, -, -, -, -, y, hy, -⟩ := hx
      cases hr
      exact absurd hy.cases_next.1 (lt_irrefl _)
    · rw [hsm.backend] at hb ⊢
      exact ⟨fun hw => ⟨hb, hw⟩, And.right⟩
    · rwa [hsm.backend] at ha
    · rw [hsm.table]
      exact hi.shut x hx
  | mapGrew hg =>
    refine hi.grow h (by simp [hok]) hg.grown ?_
    rw [hg.rest]
    exact hi.shut
  | mapped hm =>
    obtain ⟨b, hst, hsy⟩ := hm.backend
    exact hi.resync h h' hok rfl hst.grown hsy hm.range hm.table hsafe
  | reserveGrew _ _ _ _ _ hg =>
    refine hi.grow h (by simp [hok]) hg.grown ?_
    rw [hg.rest]
    exact hi.shut
  | @reserved _ _ allocType _ _ _ _ _ _ ha hf hst hm =>
    refine hi.grow h (fun _ => rfl) hm.backend.grown fun x hx => ?_
    rw [hm.table]
    refine grants_write_set hm.range (hi.shut x hx) fun hin hcom => ?_
    subst hcom
    by_cases hcf : allocType &&& memCommit ≠ 0
    · rw [if_pos hcf] at hst
      obtain ⟨-, rfl⟩ := Prod.mk.inj hst
      by_contra hw
      exact (hsafe ha (by simpa using hw)).1 hf hcf _ _ hm.request hm.free x hx hin
    · rw [if_neg hcf] at hst
      cases (Prod.mk.inj hst).1
  | committed ha hf hp hb hr =>
    refine hi.quiet (fun _ => rfl) (by rw [hb]) (by rw [hb]) fun x hx => ?_
    rw [hr.table]
    refine grants_write_set hr.range (hi.shut x hx) fun hin _ => ?_
    by_contra hw
    exact (hsafe ha (by simpa using hw)).2 hf _ _ hp x hx hin
  | decommitted _ _ _ hz hr =>
    refine hi.quiet (fun _ => rfl) hz.arenas hz.prot fun x hx => ?_
    rw [hr.table]
    exact grants_write_set hr.range (hi.shut x hx) nofun
  | reprotected _ hp _ hsy hr =>
    refine hi.resync h h' hok ?_ (.of_eq h.placed h.readable rfl rfl) hsy hr.range hr.table
      fun hw => hsafe hw _ _ _ hp
    simp only [syncedRange, hp]
  | released _ _ hr =>
    have hsh := hr.shrunk h
    refine hi.keep (not_resyncs fun _ => rfl) (fun x hb => hsh.not_writable_iff h.placed hb)
      (fun a ha x _ _ => hsh.subset a ha) fun x hx _ => ?_
    rw [hr.table]
    exact grants_write_set (hr.range h) (hi.shut x hx) nofun
  | wrote hw =>
    refine hi.quiet (fun _ => rfl) hw.backend.arenas hw.backend.prot ?_
    rw [hw.table]
    exact hi.shut

/-- **Host pages without write permission are the sealed ones**, in every run of safe calls. -/
theorem SealReach.sealInv {s : GuestMemory × Set ℕ} (h : SealReach env (FrameSafe env) s) :
    Inv env s.1 ∧ SealInv env s := by
  refine GuardedReach.invariant (I := fun s => Inv env s.1 ∧ SealInv env s) ?_ ?_ h
  · rintro ⟨m, S⟩ ⟨⟨host, rfl⟩, rfl⟩
    exact ⟨inv_new host, sealInv_new host⟩
  · rintro ⟨m, S⟩ op ⟨m', S'⟩ ⟨hinv, hi⟩ hsafe ⟨hs, hS⟩
    dsimp only at hinv hs hS ⊢
    subst hS
    exact ⟨(hs.change hinv).inv hinv, hi.step hinv hsafe hs⟩

/-- What is granted for writing is not sealed, so the host lets it be written. -/
theorem SealInv.writable {s : GuestMemory × Set ℕ} (hi : SealInv env s) (h : Inv env s.1) {x : ℕ}
    (hx : s.1.pages.table.grants .write (x / 0x1000) = true) : s.1.backend.Writable env x := by
  by_contra hw
  obtain ⟨p, hp, -⟩ := PageTable.grants_iff.mp hx
  have hb := h.backed x (by rw [hp]; simp)
  rw [hi.shut x ((hi.sealed x).mpr ⟨hb, hw⟩)] at hx
  cases hx

/-- The pages of a decommit are under host pages mapped for writing exactly when none of them is
sealed. -/
theorem SealInv.decommit_writable_iff {s : GuestMemory × Set ℕ} (hi : SealInv env s)
    (h : Inv env s.1) {addr size : ℕ} (hsize : size ≠ 0) {lo len : ℕ}
    (hp : s.1.pageRange addr size decommitErrors (acceptUsed decommitErrors.missing) () =
      .ok (lo, len, ())) :
    (∀ x, lo ≤ x → x < lo + len → s.1.backend.Writable env x) ↔
      ∀ x ∈ s.2, ¬ (lo ≤ x ∧ x < lo + len) := by
  obtain ⟨-, -, -, -, -, -, -, hall⟩ :=
    h.pageRange_eq_ok (Nat.pos_of_ne_zero hsize) (acceptUsed_isOk _) hp
  constructor
  · exact fun hw x hx hin => ((hi.sealed x).mp hx).2 (hw x hin.1 hin.2)
  · intro hno x h1 h2
    by_contra hw
    obtain ⟨v, hv, -⟩ := hall x h1 h2
    have hb := h.backed x (by rw [hv]; simp)
    exact hno x ((hi.sealed x).mpr ⟨hb, hw⟩) ⟨h1, h2⟩

/-- A call that is not safe reaches the defect: a commit for writing on a sealed address is granted
what the host denies. -/
theorem SealInv.commit_denied {S : Set ℕ} (hi : SealInv env (m, S)) {lo size protect x : ℕ}
    (hr : Reset m lo size .committed protect m') (hb : m'.backend = m.backend)
    (hw : Protect.allowsWrite protect = true) (hx : x ∈ S) (h1 : lo ≤ x) (h2 : x < lo + size) :
    m'.pages.table.grants .write (x / 0x1000) = true ∧ ¬ m'.backend.Writable env x := by
  refine ⟨?_, by rw [hb]; exact ((hi.sealed x).mp hx).2⟩
  unfold PageTable.grants
  rw [hr.table, set_range_apply hr.range, if_pos ⟨h1, h2⟩]
  simpa [Protect.allows] using hw

/-- **Host protection never denies what the permission check grants**, in every run of safe calls:
what may be read is under a host page mapped for reading, and what may be written is under one
mapped for writing. The bytes that a decommit zeroes are under host pages mapped for writing, and it
does not end the process, exactly when it touches no sealed address. -/
theorem host_protection_never_denies {S : Set ℕ} (h : SealReach env (FrameSafe env) (m, S)) :
    (∀ va len, (m.pages.checkAccess va len .read).1 = .ok () → ∀ x, va ≤ x → x < va + len →
      m.backend.HostPermits env HostProt.r x) ∧
    (∀ va len, (m.pages.checkAccess va len .write).1 = .ok () → ∀ x, va ≤ x → x < va + len →
      m.backend.HostPermits env HostProt.w x) ∧
    (∀ addr size, (m.vaDecommit env addr size).1 ≠ .crash ↔ DecommitSafe (m, S) addr size) ∧
    ∀ addr size lo len, size ≠ 0 →
      m.pageRange addr size decommitErrors (acceptUsed decommitErrors.missing) () =
        .ok (lo, len, ()) →
      ((∀ x, lo ≤ x → x < lo + len → m.backend.HostPermits env HostProt.w x) ↔
        DecommitSafe (m, S) addr size) := by
  obtain ⟨hinv, hi⟩ := h.sealInv
  have hiff (addr size lo len : ℕ) (hsize : size ≠ 0)
      (hp : m.pageRange addr size decommitErrors (acceptUsed decommitErrors.missing) () =
        .ok (lo, len, ())) :
      (∀ x, lo ≤ x → x < lo + len → m.backend.HostPermits env HostProt.w x) ↔
        DecommitSafe (m, S) addr size := by
    rw [hi.decommit_writable_iff hinv hsize hp]
    refine ⟨fun hno _ lo' len' hp' => ?_, fun hd => hd hsize lo len hp⟩
    cases hp.symm.trans hp'
    exact hno
  refine ⟨fun va len hok x h1 h2 => ?_, fun va len hok x h1 h2 => ?_, fun addr size => ?_, hiff⟩
  · rcases (hinv.pages.checkAccess_eq_ok va len .read).mp hok with rfl | ⟨-, hall⟩
    · omega
    · obtain ⟨p, hp, -⟩ := PageTable.grants_iff.mp (hall x h1 h2)
      exact hinv.readable.hostPermits hinv.placed (hinv.backed x (by rw [hp]; simp))
  · rcases (hinv.pages.checkAccess_eq_ok va len .write).mp hok with rfl | ⟨-, hall⟩
    · omega
    · exact hi.writable hinv (hall x h1 h2)
  · by_cases hsize : size = 0
    · rw [vaDecommit, if_pos hsize]
      exact ⟨fun _ hne => absurd hsize hne, fun _ => nofun⟩
    rcases hinv.change_decommit addr size with ⟨e, he, -, hbad⟩ |
      ⟨hcr, lo, len, hp, x, h1, h2, -, hx⟩ | ⟨lo, len, hok, -, hp, -, hz, -⟩
    · rw [he]
      refine ⟨fun _ _ lo len hp => ?_, fun _ => nofun⟩
      rcases hbad with h0 | hbad
      · exact absurd h0 hsize
      · cases hbad.symm.trans hp
    · rw [hcr, ← hiff addr size lo len hsize hp]
      exact ⟨fun hne => absurd rfl hne, fun hall => absurd (hall x h1 h2) hx⟩
    · rw [hok, ← hiff addr size lo len hsize hp]
      refine ⟨fun _ x h1 h2 => hz.writable x h1 h2 ?_, fun _ => nofun⟩
      obtain ⟨-, -, -, -, -, -, -, hall⟩ :=
        hinv.pageRange_eq_ok (Nat.pos_of_ne_zero hsize) (acceptUsed_isOk _) hp
      obtain ⟨v, hv, -⟩ := hall x h1 h2
      exact hinv.backed x (by rw [hv]; simp)

/-- A page allocated for writing and then made read-only. -/
theorem host_protection_never_denies_readonly : ∃ m S,
    SealReach .fourK (FrameSafe .fourK) (m, S) ∧
      (m.pages.checkAccess 0x20000 0x1000 .read).1 = .ok () ∧
      ∀ x, 0x20000 ≤ x → x < 0x20000 + 0x1000 → m.backend.HostPermits .fourK HostProt.r x := by
  have h₀ : SealReach .fourK (FrameSafe .fourK) (new .roomy, ∅) := .init ⟨⟨_, rfl⟩, rfl⟩
  obtain ⟨S, h⟩ := h₀.call
    (.virtualAlloc 0x20000 0x2000 (memReserve + memCommit) Protect.pageReadwrite)
    (frameSafe_empty _) (by decide +kernel)
  obtain ⟨S', h'⟩ := h.call (.virtualProtect 0x20000 0x1000 Protect.pageReadonly)
    (fun hw => absurd hw (by decide)) (by decide +kernel)
  have hok : ((runAll .fourK (new .roomy)
      [.virtualAlloc 0x20000 0x2000 (memReserve + memCommit) Protect.pageReadwrite,
        .virtualProtect 0x20000 0x1000 Protect.pageReadonly]).pages.checkAccess 0x20000 0x1000
      .read).1 = .ok () := by decide +kernel
  exact ⟨_, S', h', hok, (host_protection_never_denies h').1 _ _ hok⟩

/-- Two orders of calls in which the host denies what the check grants: a page made read-only and
then committed again for writing cannot be written, and one made read-only and then decommitted
ends the process. -/
theorem recommit_and_decommit_denied :
    (∃ m, Reachable .fourK AnyCall m ∧ (m.pages.checkAccess 0x20000 1 .write).1 = .ok () ∧
      ¬ m.backend.HostPermits .fourK HostProt.w 0x20000) ∧
    ∃ m, Reachable .fourK AnyCall m ∧ (m.vaDecommit .fourK 0x20000 0x1000).1 = .crash := by
  refine ⟨⟨runAll .fourK (new .roomy)
      [.virtualAlloc 0x20000 0x2000 (memReserve + memCommit) Protect.pageReadwrite,
        .virtualProtect 0x20000 0x1000 Protect.pageReadonly,
        .virtualAlloc 0x20000 0x1000 memCommit Protect.pageReadwrite],
      (reachable_new _).runAll _ (allMeet_anyCall _ _) (by decide +kernel), by decide +kernel,
      by decide +kernel⟩,
    ⟨runAll .fourK (new .roomy)
      [.virtualAlloc 0x20000 0x2000 (memReserve + memCommit) Protect.pageReadwrite,
        .virtualProtect 0x20000 0x1000 Protect.pageReadonly],
      (reachable_new _).runAll _ (allMeet_anyCall _ _) (by decide +kernel), by decide +kernel⟩⟩

end GuestMemory

end Wie
