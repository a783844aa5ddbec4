import Wie.Mem.Mapping
import Wie.Mem.PageTable

/-!
# Host protection

The protection of a host page is computed from the guest pages inside it, and applied by
`syncHostProtect` to the host pages under a range. Host pages are coarser than guest pages, and an
arena need not be a whole number of them: the host page at its tail is never tightened.

A host page is read-only exactly when its guest pages are `Tight`: all committed, none writable, and
at least one of use to a reader. It is never without read permission.

The loop of `syncHostProtect` steps by host pages of the arena it is in. Where an arena ends inside
a host page, the step carries it into the next arena, and if the range ends there too, the first
host page of that arena is missed. `Visits` is this walk, and `Synced` what it leaves behind.

## Main definitions

* `HostSpan.frame`, `HostSpan.page`, `HostSpan.WholeFrame` — the host page of a guest address
* `Tight` — the guest pages of a host page leave no room for a write
* `ArenaSet.Visits` — where the walk of `syncHostProtect` stops
* `ArenaSet.Synced` — the arenas after `syncHostProtect`

## Main results

* `GuestMemory.hostProtForFrame_spec` — the protection of a host page
* `ArenaSet.Placed.exists_visits` — the walk misses no other host page
* `GuestMemory.syncHostProtect_synced` — the effect of `syncHostProtect`
-/

namespace Wie

/-! ### The protection of one host page -/

/-- The guest pages of `[g, g + ps)` are all committed, none is writable, and one is readable or
executable. -/
def Tight (t : PageTable) (g ps : ℕ) : Prop :=
  (∀ x, g ≤ x → x < g + ps →
    ∃ protect, t (x / 0x1000) = some (.committed, protect) ∧ Protect.allowsWrite protect = false) ∧
  ∃ x protect, g ≤ x ∧ x < g + ps ∧ t (x / 0x1000) = some (.committed, protect) ∧
    (Protect.allowsRead protect || Protect.allowsExecute protect) = true

namespace GuestMemory

/-- What the fields of a scan say about each other. -/
structure FrameScan.Sound (f : FrameScan) : Prop where
  /-- The first protection is known as soon as a page was seen. -/
  first : f.firstProtect = none ↔ f.anyCommitted = false
  /-- Without a page nothing is needed. -/
  none : f.anyCommitted = false → f.needR = false ∧ f.needW = false
  /-- With one protection the needs are those of that protection. -/
  uniform : ∀ p, f.firstProtect = some p → f.uniform = true →
    f.needR = (Protect.allowsRead p || Protect.allowsExecute p) ∧ f.needW = Protect.allowsWrite p
  /-- What needs writing needs reading. -/
  read_of_write : f.needW = true → f.needR = true

theorem FrameScan.sound_init : FrameScan.Sound {} :=
  ⟨by simp, by simp, by simp, by simp⟩

theorem FrameScan.Sound.visit {f : FrameScan} (h : f.Sound) (protect : ℕ) :
    (f.visit protect).Sound where
  first := by
    simp only [FrameScan.visit]
    split <;> simp
  none := by simp [FrameScan.visit]
  uniform p hp hu := by
    simp only [FrameScan.visit] at hp hu ⊢
    cases hf : f.firstProtect with
    | none =>
      obtain ⟨hr, hw⟩ := h.none (h.first.mp hf)
      simp only [hf, Option.some.injEq] at hp
      subst hp
      simp [hr, hw]
    | some q =>
      simp only [hf] at hp hu
      split at hu
      · cases hu
      · rename_i heq
        obtain ⟨hr, hw⟩ := h.uniform q hf hu
        obtain rfl : q = protect := by simpa using heq
        obtain rfl : q = p := by simpa using hp
        rw [hr, hw]
        cases Protect.allowsRead q <;> cases Protect.allowsExecute q <;> simp
  read_of_write hw := by
    simp only [FrameScan.visit, Bool.or_eq_true] at hw ⊢
    rcases hw with hw | hw
    · exact .inl (.inl (h.read_of_write hw))
    · exact .inl (.inr (Protect.allowsRead_of_allowsWrite hw))

/-- The protection of a scanned host page depends on the needs alone. -/
theorem FrameScan.Sound.prot_eq {f : FrameScan} (h : f.Sound) :
    f.prot = if f.needW = false ∧ f.needR = true then .ro else .rw := by
  unfold FrameScan.prot
  split
  · rename_i hc
    rw [if_neg (by simp [h.none hc])]
  · rename_i hc
    split
    · cases hr : f.needR <;> cases hw : f.needW
      · simp
      · rw [h.read_of_write hw] at hr
        cases hr
      · simp [HostProt.ro]
      · simp [HostProt.rw]
    · rename_i hu
      split
      · rename_i hf
        exact absurd (h.first.mp hf) hc
      · rename_i p hf
        obtain ⟨hr, hw⟩ := h.uniform p hf (by simpa using hu)
        rw [hr, hw]
        cases Protect.allowsWrite p <;>
          cases Protect.allowsRead p || Protect.allowsExecute p <;> simp

variable {pages : PageMap} {t : PageTable} {page n : ℕ}

/-- The `n` pages from `page` on are committed and none is writable. -/
def AllUnwritable (t : PageTable) (page n : ℕ) : Prop :=
  ∀ i, i < n → ∃ protect, t (page + i) = some (.committed, protect) ∧
    Protect.allowsWrite protect = false

/-- One of the `n` pages from `page` on is committed and of use to a reader. -/
def AnyUseful (t : PageTable) (page n : ℕ) : Prop :=
  ∃ i protect, i < n ∧ t (page + i) = some (.committed, protect) ∧
    (Protect.allowsRead protect || Protect.allowsExecute protect) = true

theorem allUnwritable_succ {protect : ℕ} (ht : t page = some (.committed, protect)) :
    AllUnwritable t page (n + 1) ↔
      Protect.allowsWrite protect = false ∧ AllUnwritable t (page + 1) n := by
  constructor
  · intro h
    refine ⟨?_, fun i hi => by rw [Nat.add_right_comm]; exact h (i + 1) (by omega)⟩
    obtain ⟨p, hp, hw⟩ := h 0 (by omega)
    rw [Nat.add_zero, ht] at hp
    cases hp
    exact hw
  · rintro ⟨hw, h⟩ i hi
    cases i with
    | zero => exact ⟨protect, ht, hw⟩
    | succ i =>
      rw [← Nat.add_assoc, Nat.add_right_comm]
      exact h i (by omega)

theorem anyUseful_succ {protect : ℕ} (ht : t page = some (.committed, protect)) :
    AnyUseful t page (n + 1) ↔
      (Protect.allowsRead protect || Protect.allowsExecute protect) = true ∨
        AnyUseful t (page + 1) n := by
  constructor
  · rintro ⟨i, p, hi, hp, hr⟩
    cases i with
    | zero =>
      rw [Nat.add_zero, ht] at hp
      cases hp
      exact .inl hr
    | succ i => exact .inr ⟨i, p, by omega, by rw [Nat.add_right_comm]; exact hp, hr⟩
  · rintro (hr | ⟨i, p, hi, hp, hr⟩)
    · exact ⟨0, protect, by omega, ht, hr⟩
    · refine ⟨i + 1, p, by omega, ?_, hr⟩
      rw [← Nat.add_assoc, Nat.add_right_comm]
      exact hp

/-- The scan from `page` on, with the needs gathered so far. -/
theorem scanFrame_spec (hv : pages.Valid) (stop : ℕ) (htop : stop < 2 ^ 64) :
    ∀ (fuel page : ℕ) (f : FrameScan), f.Sound → page % 0x1000 = 0 →
      stop = page + fuel * 0x1000 →
      scanFrame pages stop fuel page f = .rw ∧
          ¬ (AllUnwritable pages.table (page / 0x1000) fuel ∧ f.needW = false ∧
            (f.needR = true ∨ AnyUseful pages.table (page / 0x1000) fuel)) ∨
        scanFrame pages stop fuel page f = .ro ∧
          (AllUnwritable pages.table (page / 0x1000) fuel ∧ f.needW = false ∧
            (f.needR = true ∨ AnyUseful pages.table (page / 0x1000) fuel)) := by
  intro fuel
  induction fuel with
  | zero =>
    intro page f hf hpg hstop
    unfold scanFrame
    rw [hf.prot_eq]
    by_cases hc : f.needW = false ∧ f.needR = true
    · rw [if_pos hc]
      exact .inr ⟨rfl, fun i hi => by omega, hc.1, .inl hc.2⟩
    · rw [if_neg hc]
      refine .inl ⟨rfl, fun ⟨_, hw, hr⟩ => hc ⟨hw, ?_⟩⟩
      rcases hr with hr | ⟨i, p, hi, -⟩
      · exact hr
      · omega
  | succ fuel ih =>
    intro page f hf hpg hstop
    unfold scanFrame
    rw [if_pos (by omega)]
    -- a page that is not committed leaves the host page open
    have hopen (hn : ∀ protect, pages.table (page / 0x1000) ≠ some (.committed, protect)) :
        ¬ AllUnwritable pages.table (page / 0x1000) (fuel + 1) := fun hall => by
      obtain ⟨p, hp, -⟩ := hall 0 (by omega)
      exact hn p hp
    cases hl : pages.lookup (page / 0x1000) with
    | none =>
      refine .inl ⟨rfl, fun hc => hopen (fun p hp => ?_) hc.1⟩
      rw [hv.table_eq_none.mpr hl] at hp
      cases hp
    | some run =>
      have ht := hv.table_of_lookup hl (hv.lookup_eq_some.mp hl).2
      dsimp only
      by_cases hst : run.state = .committed
      · rw [if_pos hst, satAdd_of_lt (by omega)]
        rw [hst] at ht
        have := ih (page + 0x1000) (f.visit run.protect) (hf.visit _) (by omega) (by omega)
        rw [show (page + 0x1000) / 0x1000 = page / 0x1000 + 1 by omega] at this
        have hW : (f.visit run.protect).needW = false ↔
            f.needW = false ∧ Protect.allowsWrite run.protect = false := by
          simp [FrameScan.visit]
        have hR : (f.visit run.protect).needR = true ↔ f.needR = true ∨
            (Protect.allowsRead run.protect || Protect.allowsExecute run.protect) = true := by
          simp [FrameScan.visit, or_assoc]
        rw [hW, hR] at this
        rw [allUnwritable_succ ht, anyUseful_succ ht]
        have hiff (U W w r R E : Prop) :
            (U ∧ (w ∧ W) ∧ ((r ∨ R) ∨ E)) ↔ ((W ∧ U) ∧ w ∧ (r ∨ R ∨ E)) :=
          ⟨fun ⟨hU, ⟨hw, hW⟩, h⟩ => ⟨⟨hW, hU⟩, hw, or_assoc.mp h⟩,
            fun ⟨⟨hW, hU⟩, hw, h⟩ => ⟨hU, ⟨hw, hW⟩, or_assoc.mpr h⟩⟩
        rwa [hiff] at this
      · rw [if_neg hst]
        refine .inl ⟨rfl, fun hc => hopen (fun p hp => hst ?_) hc.1⟩
        rw [ht] at hp
        exact (Prod.mk.inj (Option.some.inj hp)).1

/-- **A host page is read-only when its guest pages are tight, and else open.** -/
theorem hostProtForFrame_spec (hv : pages.Valid) {g ps : ℕ} (hg : g % 0x1000 = 0)
    (hps : ps % 0x1000 = 0) (htop : g + ps < 2 ^ 64) :
    hostProtForFrame pages g ps = .rw ∧ ¬ Tight pages.table g ps ∨
      hostProtForFrame pages g ps = .ro ∧ Tight pages.table g ps := by
  have hmul : ps / 0x1000 * 0x1000 = ps := by omega
  have htight : Tight pages.table g ps ↔
      AllUnwritable pages.table (g / 0x1000) (ps / 0x1000) ∧
        AnyUseful pages.table (g / 0x1000) (ps / 0x1000) := by
    have hdiv (x : ℕ) (h1 : g ≤ x) : x / 0x1000 = g / 0x1000 + (x - g) / 0x1000 := by omega
    constructor
    · rintro ⟨hall, x, p, h1, h2, hp, hr⟩
      refine ⟨fun i hi => ?_, (x - g) / 0x1000, p, by omega, by rw [← hdiv x h1]; exact hp, hr⟩
      have := hall (g + i * 0x1000) (by omega) (by omega)
      rwa [show (g + i * 0x1000) / 0x1000 = g / 0x1000 + i by omega] at this
    · rintro ⟨hall, i, p, hi, hp, hr⟩
      refine ⟨fun x h1 h2 => ?_, g + i * 0x1000, p, by omega, by omega, ?_, hr⟩
      · rw [hdiv x h1]
        exact hall _ (by omega)
      · rwa [show (g + i * 0x1000) / 0x1000 = g / 0x1000 + i by omega]
  have := scanFrame_spec hv (g + ps) htop (ps / 0x1000) g {} FrameScan.sound_init hg (by omega)
  unfold hostProtForFrame
  rw [satAdd_of_lt htop, htight]
  simpa using this

theorem hostProtForFrame_r (hv : pages.Valid) {g ps : ℕ} (hg : g % 0x1000 = 0)
    (hps : ps % 0x1000 = 0) (htop : g + ps < 2 ^ 64) :
    (hostProtForFrame pages g ps).r = true := by
  rcases hostProtForFrame_spec hv hg hps htop with ⟨h, -⟩ | ⟨h, -⟩ <;> rw [h] <;> rfl

end GuestMemory

/-! ### The host page of a guest address -/

namespace HostSpan

variable {env : HostEnv} {a b : HostSpan} {x y : ℕ}

/-- The guest address at which the host page of `va` starts. -/
def frame (env : HostEnv) (a : HostSpan) (va : ℕ) : ℕ :=
  a.guestBase + (va - a.guestBase) / env.pageSize * env.pageSize

/-- The number of the host page of `va`. -/
def page (env : HostEnv) (a : HostSpan) (va : ℕ) : ℕ :=
  (a.host + (va - a.guestBase)) / env.pageSize

/-- The host page of `va` lies inside the arena. -/
def WholeFrame (env : HostEnv) (a : HostSpan) (va : ℕ) : Prop :=
  a.frame env va + env.pageSize ≤ a.guestBase + a.size

theorem frame_le (env : HostEnv) (h : a.guestBase ≤ x) : a.frame env x ≤ x := by
  have := Nat.div_mul_le_self (x - a.guestBase) env.pageSize
  unfold frame
  omega

theorem lt_frame_add (env : HostEnv) (a : HostSpan) (x : ℕ) :
    x < a.frame env x + env.pageSize := by
  have := Nat.lt_div_mul_add env.pageSize_pos (a := x - a.guestBase)
  unfold frame
  omega

theorem base_le_frame : a.guestBase ≤ a.frame env x := Nat.le_add_right _ _

/-- Addresses of one host page have one frame. -/
theorem frame_eq (h1 : a.frame env x ≤ y) (h2 : y < a.frame env x + env.pageSize) :
    a.frame env y = a.frame env x := by
  unfold frame at *
  congr 2
  rw [Nat.div_eq_iff env.pageSize_pos]
  omega

theorem frame_mod (env : HostEnv) (x : ℕ) (ha : a.guestBase % 0x1000 = 0) : a.frame env x % 0x1000 = 0 := by
  obtain ⟨c, hc⟩ := env.page_dvd
  have : (x - a.guestBase) / env.pageSize * env.pageSize % 0x1000 = 0 :=
    Nat.mod_eq_zero_of_dvd (dvd_mul_of_dvd_right ⟨c, hc⟩ _)
  unfold frame
  omega

/-- Addresses with one frame are on one host page. -/
theorem page_eq_of_frame_eq (hh : a.host % env.pageSize = 0) (h : a.frame env x = a.frame env y) :
    a.page env x = a.page env y := by
  obtain ⟨c, hc⟩ := Nat.dvd_of_mod_eq_zero hh
  unfold frame at h
  unfold page
  rw [hc, Nat.mul_add_div env.pageSize_pos, Nat.mul_add_div env.pageSize_pos]
  have := Nat.eq_of_mul_eq_mul_right env.pageSize_pos (Nat.add_left_cancel h)
  rw [this]

end HostSpan

namespace ArenaSet

variable {env : HostEnv} {s s' : ArenaSet} {a b : HostSpan} {x y lo hi : ℕ}

/-- Addresses on one host page are in one arena and have one frame. -/
theorem Placed.eq_of_page_eq {l : List HostSpan} (h : Placed env l) (ha : a ∈ l) (hb : b ∈ l)
    (hx : a.Holds x) (hy : b.Holds y) (hp : a.page env x = b.page env y) :
    a = b ∧ a.frame env x = b.frame env y := by
  have hxo := hx.owns env
  have hyo := hy.owns env
  have hbx : b.Owns env (a.host + (x - a.guestBase)) := by
    have := (Host.page_mem_iff (h.based b hb).2 _).mpr hyo
    refine (Host.page_mem_iff (h.based b hb).2 _).mp ?_
    rw [HostSpan.page, HostSpan.page] at hp
    rw [hp]
    exact this
  have := h.eq_of_owns ha hb hxo hbx
  subst this
  refine ⟨rfl, ?_⟩
  obtain ⟨c, hc⟩ := Nat.dvd_of_mod_eq_zero (h.based a ha).2
  unfold HostSpan.page at hp
  rw [hc, Nat.mul_add_div env.pageSize_pos, Nat.mul_add_div env.pageSize_pos] at hp
  unfold HostSpan.frame
  rw [Nat.add_left_cancel hp]

/-- Protecting the host page of `x` protects that page, if it is inside the arena. -/
theorem Placed.mprotectGuestRange_frame (h : Placed env s.spans) (ha : a ∈ s.spans)
    (hx : a.Holds x) (prot : HostProt) :
    (a.WholeFrame env x ∧
        s.mprotectGuestRange env (a.frame env x) env.pageSize prot =
          ⟨s.arenas, s.host.mprotect env (a.host + (a.frame env x - a.guestBase)) env.pageSize
            prot⟩ ∧
        (a.host + (a.frame env x - a.guestBase)) / env.pageSize = a.page env x) ∨
      (¬ a.WholeFrame env x ∧
        s.mprotectGuestRange env (a.frame env x) env.pageSize prot = s) := by
  have hps := env.pageSize_pos
  obtain ⟨hx1, hx2⟩ := hx
  have hbase : a.guestBase ≤ a.frame env x := HostSpan.base_le_frame
  have hle : a.frame env x ≤ x := HostSpan.frame_le env hx1
  have hfr : a.Holds (a.frame env x) := ⟨hbase, by omega⟩
  obtain ⟨c, hf, rfl⟩ := Option.map_eq_some_iff.mp (h.spanAt_eq_some.mpr ⟨ha, hfr⟩)
  have hend := h.guestEnd_eq ha
  have hbd := h.bounded _ ha
  have hal := h.aligned _ ha
  unfold mprotectGuestRange
  rw [if_neg (by omega), hf]
  dsimp only
  rw [hend]
  by_cases hw : c.WholeFrame env x
  · have hw' : c.frame env x + env.pageSize ≤ c.guestBase + c.size := hw
    have h0 := (h.based _ ha).1
    have hoff : (c.frame env x - c.guestBase) % env.pageSize = 0 := by
      unfold HostSpan.frame
      rw [Nat.add_sub_cancel_left]
      exact Nat.mul_mod_left _ _
    refine .inl ⟨hw, ?_, ?_⟩
    · rw [satAdd_of_lt (by omega), if_neg (by omega), if_neg (by omega),
        if_neg (by rw [hoff, Nat.mod_self]; simp), satAdd_of_lt (by omega), if_neg (by omega)]
    · obtain ⟨k, hk⟩ := Nat.dvd_of_mod_eq_zero (h.based _ ha).2
      unfold HostSpan.page HostSpan.frame
      rw [Nat.add_sub_cancel_left, hk, Nat.mul_add_div hps, Nat.mul_add_div hps,
        Nat.mul_div_cancel _ hps]
  · have hw' : c.guestBase + c.size < c.frame env x + env.pageSize := not_le.mp hw
    refine .inr ⟨hw, ?_⟩
    rw [if_pos]
    left
    unfold satAdd
    omega

/-! ### The walk over the host pages -/

/-- Where `syncHostProtect` goes on from `va`: past the host page of `va`, or past its guest page
where there is no arena. -/
def syncNext (env : HostEnv) (s : ArenaSet) (va : ℕ) : ℕ :=
  match s.spanAt va with
  | none => satAdd va 0x1000
  | some a => satAdd (a.frame env va) env.pageSize

/-- The walk from `va` up to `hi` stops at `y`. -/
inductive Visits (env : HostEnv) (s : ArenaSet) (hi : ℕ) : ℕ → ℕ → Prop where
  /-- It stops where it is. -/
  | here {va : ℕ} (h : va < hi) : Visits env s hi va va
  /-- And wherever it stops from the next place on. -/
  | next {va y : ℕ} (h : va < hi) (hn : Visits env s hi (syncNext env s va) y) :
    Visits env s hi va y

theorem Visits.cases_next {va : ℕ} (h : Visits env s hi va y) :
    va < hi ∧ (y = va ∨ Visits env s hi (syncNext env s va) y) := by
  cases h with
  | here h => exact ⟨h, .inl rfl⟩
  | next h hn => exact ⟨h, .inr hn⟩

theorem syncNext_congr (h : s'.arenas = s.arenas) (va : ℕ) :
    syncNext env s' va = syncNext env s va := by
  unfold syncNext
  rw [spanAt_congr h]

theorem visits_congr (h : s'.arenas = s.arenas) {va : ℕ} :
    Visits env s' hi va y ↔ Visits env s hi va y := by
  constructor
  · intro hv
    induction hv with
    | here h => exact .here h
    | next hlt _ ih => exact .next hlt (syncNext_congr h _ ▸ ih)
  · intro hv
    induction hv with
    | here h => exact .here h
    | next hlt _ ih => exact .next hlt ((syncNext_congr h _).symm ▸ ih)

/-- The walk moves on. -/
theorem lt_syncNext (env : HostEnv) (s : ArenaSet) {va : ℕ} (hva : va < hi) (hhi : hi < 2 ^ 64) :
    va < syncNext env s va := by
  unfold syncNext
  split
  · unfold satAdd
    omega
  · rename_i a _
    have := HostSpan.lt_frame_add env a va
    unfold satAdd
    omega

/-- The walk stays on guest pages. -/
theorem Placed.syncNext_mod (h : Placed env s.spans) {va : ℕ} (hva : va % 0x1000 = 0)
    (hhi : hi < 2 ^ 64) : syncNext env s va % 0x1000 = 0 ∨ hi ≤ syncNext env s va := by
  unfold syncNext
  split
  · unfold satAdd
    omega
  · rename_i a hat
    have hfm := HostSpan.frame_mod env va (h.aligned a (h.spanAt_eq_some.mp hat).1).1
    have hpm : env.pageSize % 0x1000 = 0 := Nat.mod_eq_zero_of_dvd env.page_dvd
    unfold satAdd
    omega

/-- **The walk stops in every host page under its range**, except the first page of an arena that
starts inside the range, if the range ends within that page. -/
theorem Placed.exists_visits (h : Placed env s.spans) (hhi : hi < 2 ^ 64) (ha : a ∈ s.spans)
    (hx : a.Holds x) (hw : a.WholeFrame env x) (hxhi : x < hi) :
    ∀ (n va : ℕ), hi - va ≤ n → va % 0x1000 = 0 → va ≤ x →
      ¬ (va < a.guestBase ∧ a.frame env x = a.guestBase ∧ hi < a.guestBase + env.pageSize) →
      ∃ y, Visits env s hi va y ∧ a.Holds y ∧ a.frame env y = a.frame env x := by
  intro n
  have hw' : a.frame env x + env.pageSize ≤ a.guestBase + a.size := hw
  induction n with
  | zero => exact fun va hn _ hle _ => by omega
  | succ n ih =>
    intro va hn hva hle hno
    have hlt : va < hi := by omega
    have hnext := ArenaSet.lt_syncNext env s hlt hhi
    -- beyond the next stop the argument is the same
    have hrec (hge : syncNext env s va ≤ x) :
        ∃ y, Visits env s hi va y ∧ a.Holds y ∧ a.frame env y = a.frame env x := by
      rcases h.syncNext_mod hva hhi with hm | hm
      · obtain ⟨y, hy, hrest⟩ := ih _ (by omega) hm hge fun hc => hno ⟨by omega, hc.2⟩
        exact ⟨y, .next hlt hy, hrest⟩
      · omega
    by_cases hge : syncNext env s va ≤ x
    · exact hrec hge
    · have hnx := hge
      unfold syncNext at hnx
      cases hat : s.spanAt va with
      | none =>
        rw [hat] at hnx
        dsimp only at hnx
        have hxlt : x < va + 0x1000 := lt_of_lt_of_le (not_le.mp hnx) (satAdd_le _ _)
        exact absurd (h.holds_of_page_eq ha hx (div_eq_of_mod_eq_zero (by omega) hva hle hxlt))
          (h.spanAt_eq_none.mp hat a ha)
      | some b =>
        obtain ⟨hb, hbv⟩ := h.spanAt_eq_some.mp hat
        rw [hat] at hnx
        dsimp only at hnx
        have hfle := HostSpan.frame_le env hbv.1
        have hxlt : x < b.frame env va + env.pageSize :=
          lt_of_lt_of_le (not_le.mp hnx) (satAdd_le _ _)
        by_cases hab : b = a
        · subst hab
          exact ⟨va, .here hlt, hbv, (HostSpan.frame_eq (by omega) hxlt).symm⟩
        · -- the step reaches over the end of `b` into the first host page of `a`
          have hafter : b.guestBase + b.size ≤ a.guestBase := by
            rcases h.extents.trichotomy hb ha with he | hd | hd
            · exact absurd he hab
            · exact hd
            · have := hbv.1
              have := hx.2
              omega
          have hfirst : a.frame env x = a.guestBase := by
            unfold HostSpan.frame
            rw [Nat.div_eq_of_lt (by have := hbv.2; omega), Nat.zero_mul, Nat.add_zero]
          have hbv2 := hbv.2
          have hx1 := hx.1
          rw [hfirst] at hw'
          have hend : a.guestBase + env.pageSize ≤ hi := by
            by_contra hc
            exact hno ⟨by omega, hfirst, by omega⟩
          have hbd := h.bounded a ha
          have hstop : syncNext env s va = b.frame env va + env.pageSize := by
            unfold syncNext
            rw [hat]
            exact satAdd_of_lt (by omega)
          refine ⟨syncNext env s va, .next hlt (.here (by omega)), ⟨by omega, by omega⟩, ?_⟩
          rw [hfirst, ← hfirst]
          exact HostSpan.frame_eq (by omega) (by omega)

/-- The arenas after their protection was brought in line with the pages of `[lo, hi)`: the host
pages where the walk stopped have the protection computed for them, the others keep theirs. -/
structure Synced (env : HostEnv) (pages : PageMap) (lo hi : ℕ) (s s' : ArenaSet) : Prop where
  /-- The arenas stay. -/
  arenas : s'.arenas = s.arenas
  /-- The bytes stay. -/
  mem : s'.host.mem = s.host.mem
  /-- Without `mprotect` all protection stays. -/
  off : env.mprotectEnabled = false → s'.host.prot = s.host.prot
  /-- A host page where the walk stopped, if it is inside its arena. -/
  hit : env.mprotectEnabled = true → ∀ a ∈ s.spans, ∀ y, Visits env s hi lo y → a.Holds y →
    a.WholeFrame env y → s'.host.prot (a.page env y) =
      some (GuestMemory.hostProtForFrame pages (a.frame env y) env.pageSize)
  /-- Any other host page. -/
  miss : ∀ f, (∀ a ∈ s.spans, ∀ y, Visits env s hi lo y → a.Holds y → a.WholeFrame env y →
    f ≠ a.page env y) → s'.host.prot f = s.host.prot f

end ArenaSet

namespace GuestMemory

variable {env : HostEnv} {pages : PageMap}

/-- **The effect of the loop.** -/
theorem syncLoop_synced (hon : env.mprotectEnabled = true) {hi : ℕ} (hhi : hi < 2 ^ 64) :
    ∀ (fuel va : ℕ) (s : ArenaSet), ArenaSet.Placed env s.spans → hi ≤ va + fuel →
      ArenaSet.Synced env pages va hi s (syncLoop env pages hi fuel va s) := by
  intro fuel
  -- past the end the walk stops nowhere
  have hdone (va : ℕ) (s : ArenaSet) (hge : hi ≤ va) : ArenaSet.Synced env pages va hi s s := by
    refine ⟨rfl, rfl, fun _ => rfl, fun _ a _ y hy => ?_, fun f _ => rfl⟩
    have := hy.cases_next.1
    omega
  induction fuel with
  | zero => exact fun va s _ hf => hdone va s (by omega)
  | succ fuel ih =>
    intro va s h hf
    unfold syncLoop
    by_cases hlt : va < hi
    · have hnext := ArenaSet.lt_syncNext env s hlt hhi
      rw [if_pos hlt, ArenaSet.Placed.arenaGuestBaseForVa_eq]
      cases hat : s.spanAt va with
      | none =>
        have hstop : satAdd va 0x1000 = ArenaSet.syncNext env s va := by
          rw [ArenaSet.syncNext, hat]
        have hno := h.spanAt_eq_none.mp hat
        simp only [Option.map_none, hstop]
        have hs := ih (ArenaSet.syncNext env s va) s h (by omega)
        refine ⟨hs.arenas, hs.mem, hs.off, fun _ a ha y hy hay hw => ?_, fun f hf' => hs.miss f
          fun a ha y hy => hf' a ha y (.next hlt hy)⟩
        rcases hy.cases_next.2 with rfl | hy
        · exact absurd hay (hno a ha)
        · exact hs.hit hon a ha y hy hay hw
      | some a =>
        obtain ⟨ha, hx⟩ := h.spanAt_eq_some.mp hat
        have hstop : satAdd (a.frame env va) env.pageSize = ArenaSet.syncNext env s va := by
          rw [ArenaSet.syncNext, hat]
        have hframe : satAdd a.guestBase (alignDown (va - a.guestBase) env.pageSize) =
            a.frame env va := by
          have hps := env.pageSize_pos
          have hbd := h.bounded a ha
          have := hx.2
          have := HostSpan.frame_le env hx.1
          unfold HostSpan.frame at this ⊢
          rw [alignDown, if_neg (by omega)]
          exact satAdd_of_lt (by omega)
        simp only [Option.map_some, hframe, hstop]
        rw [if_neg (by omega)]
        rcases h.mprotectGuestRange_frame ha hx
            (hostProtForFrame pages (a.frame env va) env.pageSize) with ⟨hw, heq, hpg⟩ | ⟨hw, heq⟩
        · -- one host page is set; the rest of the walk sets it again to the same, or not at all
          rw [heq]
          set s₁ : ArenaSet := ⟨s.arenas, s.host.mprotect env
            (a.host + (a.frame env va - a.guestBase)) env.pageSize
            (hostProtForFrame pages (a.frame env va) env.pageSize)⟩ with hs₁
          have hprot (f : ℕ) : s₁.host.prot f = if f = a.page env va then
              some (hostProtForFrame pages (a.frame env va) env.pageSize) else s.host.prot f := by
            rw [hs₁]
            dsimp only
            rw [Host.mprotect_prot, hpg]
          have hvis {y : ℕ} : ArenaSet.Visits env s₁ hi (ArenaSet.syncNext env s va) y ↔
              ArenaSet.Visits env s hi (ArenaSet.syncNext env s va) y :=
            ArenaSet.visits_congr (show s₁.arenas = s.arenas from rfl)
          have hs := ih (ArenaSet.syncNext env s va) s₁ h (by omega)
          refine ⟨hs.arenas, hs.mem, fun hoff => absurd hon (by simp [hoff]),
            fun _ b hb y hy hby hbw => ?_, fun f hf' => ?_⟩
          · by_cases hagain : ∃ b ∈ s.spans, ∃ z, ArenaSet.Visits env s hi
                (ArenaSet.syncNext env s va) z ∧ b.Holds z ∧ b.WholeFrame env z ∧
                a.page env va = b.page env z
            · rcases hy.cases_next.2 with rfl | hy
              · obtain ⟨c, hc, z, hz, hcz, hcw, hpage⟩ := hagain
                obtain rfl := h.eq_of_holds hb ha hby hx
                obtain ⟨rfl, hfr⟩ := h.eq_of_page_eq hb hc hby hcz hpage
                rw [hpage, hs.hit hon b hc z (hvis.mpr hz) hcz hcw, hfr]
              · exact hs.hit hon b hb y (hvis.mpr hy) hby hbw
            · rcases hy.cases_next.2 with rfl | hy
              · obtain rfl := h.eq_of_holds hb ha hby hx
                rw [hs.miss _ fun c hc z hz hcz hcw he =>
                  hagain ⟨c, hc, z, hvis.mp hz, hcz, hcw, he⟩, hprot, if_pos rfl]
              · exact hs.hit hon b hb y (hvis.mpr hy) hby hbw
          · rw [hs.miss f fun c hc z hz => hf' c hc z (.next hlt (hvis.mp hz)), hprot,
              if_neg (hf' a ha va (.here hlt) hx hw)]
        · rw [heq]
          have hs := ih (ArenaSet.syncNext env s va) s h (by omega)
          refine ⟨hs.arenas, hs.mem, hs.off, fun _ b hb y hy hby hbw => ?_, fun f hf' => hs.miss f
            fun b hb y hy => hf' b hb y (.next hlt hy)⟩
          rcases hy.cases_next.2 with rfl | hy
          · obtain rfl := h.eq_of_holds hb ha hby hx
            exact absurd hbw hw
          · exact hs.hit hon b hb y hy hby hbw
    · rw [if_neg hlt]
      exact hdone va s (by omega)

theorem syncHostProtect_synced (m : GuestMemory) (h : ArenaSet.Placed env m.backend.spans)
    {address size : ℕ} (hb : address + size < 2 ^ 64) :
    ArenaSet.Synced env m.pages address (address + size) m.backend
      (m.syncHostProtect env address size).backend := by
  unfold syncHostProtect
  split
  · rename_i hoff
    exact ⟨rfl, rfl, fun _ => rfl, fun hon => absurd hon (by simp [hoff]), fun f _ => rfl⟩
  · rename_i hon
    split
    · rename_i h0
      refine ⟨rfl, rfl, fun _ => rfl, fun _ a _ y hy => ?_, fun f _ => rfl⟩
      have := hy.cases_next.1
      omega
    · rw [satAdd_of_lt hb]
      exact syncLoop_synced (by simpa using hon) hb size address m.backend h (by omega)

theorem syncHostProtect_zero (env : HostEnv) (m : GuestMemory) (address : ℕ) :
    m.syncHostProtect env address 0 = m := by
  unfold syncHostProtect
  split
  · rfl
  · exact if_pos rfl

/-- Nothing but the backend changes when host protection is brought in line. -/
theorem syncHostProtect_eq (env : HostEnv) (m : GuestMemory) (address size : ℕ) :
    m.syncHostProtect env address size =
      { m with backend := (m.syncHostProtect env address size).backend } := by
  unfold syncHostProtect
  split
  · rfl
  · split <;> rfl

end GuestMemory

/-- Host pages stay mapped for reading. -/
theorem ArenaSet.Synced.readable {env : HostEnv} {pages : PageMap} {lo hi : ℕ} {s s' : ArenaSet}
    (h : Synced env pages lo hi s s') (hP : Placed env s.spans) (hv : pages.Valid)
    (hR : Readable env s) : Readable env s' := by
  intro a ha x hx
  rw [spans_congr h.arenas] at ha
  by_cases hhit : ∃ b ∈ s.spans, ∃ y, Visits env s hi lo y ∧ b.Holds y ∧ b.WholeFrame env y ∧
      x / env.pageSize = b.page env y
  · cases hon : env.mprotectEnabled with
    | false =>
      rw [h.off hon]
      exact hR a ha x hx
    | true =>
      obtain ⟨b, hb, y, hy, hby, hw, hpage⟩ := hhit
      have hw' : b.frame env y + env.pageSize ≤ b.guestBase + b.size := hw
      have hbd := hP.bounded b hb
      rw [hpage, h.hit hon b hb y hy hby hw]
      exact ⟨_, rfl, GuestMemory.hostProtForFrame_r hv
        (HostSpan.frame_mod env y (hP.aligned b hb).1) (Nat.mod_eq_zero_of_dvd env.page_dvd)
        (by omega)⟩
  · rw [h.miss _ fun b hb y hy hby hw he => hhit ⟨b, hb, y, hy, hby, hw, he⟩]
    exact hR a ha x hx

end Wie
