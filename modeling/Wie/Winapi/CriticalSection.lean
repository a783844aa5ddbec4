import Wie.Lib.Reach
import Wie.Winapi.Engine
import Wie.Winapi.Thread

/-!
# Critical sections

A section is three fields in guest memory: a lock count, a recursion count and the id of the owner.
Entering and leaving are handlers that run under one lock, for the thread that is active. A thread
that cannot enter is parked: its call is given up and made again later.

## Main definitions

* `tryEnterCriticalSectionGuest`, `leaveCriticalSectionGuest` — the work on the fields
* `handleEnterCriticalSection`, `handleLeaveCriticalSection` — the handlers
* `CsSystem` — threads and memory, with the nesting depth of each thread as a history
* `CsReach` — the runs of threads that use a section

## Main results

* `criticalSection_excludes` — one thread at a time, and the fields say which and how deep
* `criticalSection_counts_fail` — nesting past the counter, and a call that cannot return
-/

namespace Wie

/-- Result of a non-blocking attempt to enter. -/
inductive EnterCsResult
  | acquired
  | needPark
deriving DecidableEq

/-- Write fields `(offset, size, value)` one after the other. -/
def storeFields (base : ℕ) : List (ℕ × ℕ × ℕ) → Flat → Except Unit Unit × Flat
  | [], m => (.ok (), m)
  | (offset, n, v) :: ws, m =>
    match (checkedAdd base offset).bind fun a => m.storeLe a n v with
    | some m => storeFields base ws m
    | none => (.error (), m)

/-- `write_critical_section_unlocked`. -/
def writeCriticalSectionUnlocked (m : Flat) (cs spinCount : ℕ) : Except Unit Unit × Flat :=
  storeFields cs [(0, 8, 0), (8, 4, 2 ^ 32 - 1), (12, 4, 0), (16, 8, 0), (24, 8, 0),
    (32, 8, spinCount)] m

/-- `try_enter_critical_section_guest`. -/
def tryEnterCriticalSectionGuest (m : Flat) (cs ownerTid : ℕ) : Except Unit EnterCsResult × Flat :=
  match checkedAdd cs 8, checkedAdd cs 12, checkedAdd cs 16 with
  | some lockVa, some recursionVa, some ownerVa =>
    let owning := (m.loadLe ownerVa 8).getD 0
    if owning = 0 ∨ owning = ownerTid then
      let recursion := if owning = 0 then 1 else satAdd32 ((m.loadLe recursionVa 4).getD 0) 1
      let lockCount := if owning = 0 then 0 else satAdd32 ((m.loadLe lockVa 4).getD 0) 1
      match Flat.storeAll
          [(lockVa, 4, lockCount), (recursionVa, 4, recursion), (ownerVa, 8, ownerTid)] m with
      | (.ok (), m) => (.ok .acquired, m)
      | (.error (), m) => (.error (), m)
    else (.ok .needPark, m)
  | _, _, _ => (.error (), m)

/-- `leave_critical_section_guest`: whether the section is now free. -/
def leaveCriticalSectionGuest (m : Flat) (cs ownerTid : ℕ) : Except Unit Bool × Flat :=
  match checkedAdd cs 8, checkedAdd cs 12, checkedAdd cs 16 with
  | some lockVa, some recursionVa, some ownerVa =>
    if (m.loadLe ownerVa 8).getD 0 ≠ ownerTid then (.ok false, m)
    else
      let recursion := (m.loadLe recursionVa 4).getD 1
      if recursion ≤ 1 then
        match Flat.storeAll [(lockVa, 4, 2 ^ 32 - 1), (recursionVa, 4, 0), (ownerVa, 8, 0)] m with
        | (.ok (), m) => (.ok true, m)
        | (.error (), m) => (.error (), m)
      else
        let lock := (m.loadLe lockVa 4).getD 1
        match Flat.storeAll [(lockVa, 4, lock - 1), (recursionVa, 4, recursion - 1)] m with
        | (.ok (), m) => (.ok false, m)
        | (.error (), m) => (.error (), m)
  | _, _, _ => (.error (), m)

/-- `handle_enter_critical_section`. -/
def handleEnterCriticalSection (e : CpuEngine) (threads : ThreadState) : ApiResult × CpuEngine :=
  let cs := e.regs.rcx
  if cs = 0 then e.returnFromWin64Api 0
  else
    match tryEnterCriticalSectionGuest e.mem cs threads.currentTid with
    | (.ok .acquired, m) => { e with mem := m }.returnFromWin64Api 0
    | (.ok .needPark, m) => (.hostPark cs, { e with mem := m })
    | (.error (), m) => (.error, { e with mem := m })

/-- `handle_leave_critical_section`; the wake-up of a parked thread is left out. -/
def handleLeaveCriticalSection (e : CpuEngine) (threads : ThreadState) : ApiResult × CpuEngine :=
  let cs := e.regs.rcx
  if cs = 0 then e.returnFromWin64Api 0
  else
    match leaveCriticalSectionGuest e.mem cs threads.currentTid with
    | (.ok _, m) => { e with mem := m }.returnFromWin64Api 0
    | (.error (), m) => (.error, { e with mem := m })

/-! ### The fields -/

/-- A section at `cs` whose fields may be read and written. -/
structure SectionAt (cs : ℕ) (m : Flat) : Prop where
  /-- There is a section. -/
  ne_zero : cs ≠ 0
  /-- It lies in the address space. -/
  fits : cs + 32 < 2 ^ 64
  /-- Its fields may be accessed. -/
  rw : m.Rw (cs + 8) 16

/-- The owner and the recursion count of a section. -/
structure Fields (cs : ℕ) (m : Flat) (owner recursion : ℕ) : Prop where
  /-- `OwningThread`. -/
  owner : m.get (cs + 16) 8 = owner
  /-- `RecursionCount`. -/
  recursion : m.get (cs + 12) 4 = recursion

variable {cs : ℕ} {m : Flat}

theorem SectionAt.congr (h : SectionAt cs m) {m' : Flat} (hw : m'.writable = m.writable) :
    SectionAt cs m' := ⟨h.ne_zero, h.fits, h.rw.congr hw⟩

theorem SectionAt.lockRw (h : SectionAt cs m) : m.Rw (cs + 8) 4 := h.rw.mono (by omega) (by omega)

theorem SectionAt.recursionRw (h : SectionAt cs m) : m.Rw (cs + 12) 4 :=
  h.rw.mono (by omega) (by omega)

theorem SectionAt.ownerRw (h : SectionAt cs m) : m.Rw (cs + 16) 8 :=
  h.rw.mono (by omega) (by omega)

/-- The fields after a write of all three. -/
theorem fields_setAll {lock recursion owner : ℕ} (h1 : recursion < 2 ^ 32) (h2 : owner < 2 ^ 64) :
    Fields cs (Flat.setAll [(cs + 8, 4, lock), (cs + 12, 4, recursion), (cs + 16, 8, owner)] m)
      owner recursion where
  owner := Flat.get_set_of_lt (by simpa using h2)
  recursion := (Flat.get_set_of_disjoint (.inl (by omega))).trans
    (Flat.get_set_of_lt (by simpa using h1))

/-- **What an attempt to enter does**: it takes a section that is free or its own, and else leaves
everything as it was. -/
theorem SectionAt.tryEnter (h : SectionAt cs m) {owner recursion : ℕ} (tid : ℕ)
    (hf : Fields cs m owner recursion) (htid : tid < 2 ^ 32) :
    (owner ≠ 0 ∧ owner ≠ tid ∧ tryEnterCriticalSectionGuest m cs tid = (.ok .needPark, m)) ∨
    ((owner = 0 ∨ owner = tid) ∧ ∃ m', tryEnterCriticalSectionGuest m cs tid = (.ok .acquired, m') ∧
      m'.writable = m.writable ∧ m'.readable = m.readable ∧
      (∀ x, x < cs + 8 ∨ cs + 24 ≤ x → m'.byte x = m.byte x) ∧
      Fields cs m' tid (if owner = 0 then 1 else satAdd32 recursion 1)) := by
  have hfits := h.fits
  have hva : ∀ k, k ≤ 16 → checkedAdd cs k = some (cs + k) := fun k hk =>
    checkedAdd_eq_some.mpr ⟨rfl, by omega⟩
  have hown : (m.loadLe (cs + 16) 8).getD 0 = owner := by rw [h.ownerRw.loadLe, hf.owner]; rfl
  have hrec : (m.loadLe (cs + 12) 4).getD 0 = recursion := by
    rw [h.recursionRw.loadLe, hf.recursion]
    rfl
  rw [tryEnterCriticalSectionGuest, hva 8 (by omega), hva 12 (by omega), hva 16 le_rfl]
  simp only [hown, hrec]
  by_cases hfree : owner = 0 ∨ owner = tid
  · refine .inr ⟨hfree, ?_⟩
    rw [if_pos hfree, Flat.storeAll_of_rw]
    · refine ⟨_, rfl, by simp, by simp, fun x hx => Flat.byte_setAll _ fun w hw => ?_,
        fields_setAll ?_ (by omega)⟩
      · simp only [List.mem_cons, List.not_mem_nil, or_false] at hw
        rcases hw with rfl | rfl | rfl <;> dsimp only <;> omega
      · rw [satAdd32]
        split_ifs <;> omega
    · intro w hw
      simp only [List.mem_cons, List.not_mem_nil, or_false] at hw
      rcases hw with rfl | rfl | rfl
      exacts [h.lockRw, h.recursionRw, h.ownerRw]
  · rw [if_neg hfree]
    rw [not_or] at hfree
    exact .inl ⟨hfree.1, hfree.2, rfl⟩

/-- **What leaving does**: the owner counts down, and frees the section at one; anyone else changes
nothing. -/
theorem SectionAt.leave (h : SectionAt cs m) {owner recursion : ℕ} (tid : ℕ)
    (hf : Fields cs m owner recursion) :
    (owner ≠ tid ∧ leaveCriticalSectionGuest m cs tid = (.ok false, m)) ∨
    (owner = tid ∧ ∃ b m', leaveCriticalSectionGuest m cs tid = (.ok b, m') ∧
      m'.writable = m.writable ∧ m'.readable = m.readable ∧
      (∀ x, x < cs + 8 ∨ cs + 24 ≤ x → m'.byte x = m.byte x) ∧
      if recursion ≤ 1 then Fields cs m' 0 0 else Fields cs m' owner (recursion - 1)) := by
  have hfits := h.fits
  have hva : ∀ k, k ≤ 16 → checkedAdd cs k = some (cs + k) := fun k hk =>
    checkedAdd_eq_some.mpr ⟨rfl, by omega⟩
  have hown : (m.loadLe (cs + 16) 8).getD 0 = owner := by rw [h.ownerRw.loadLe, hf.owner]; rfl
  have hrec : (m.loadLe (cs + 12) 4).getD 1 = recursion := by
    rw [h.recursionRw.loadLe, hf.recursion]
    rfl
  have hlt : recursion < 2 ^ 32 := hf.recursion ▸ m.get_lt (cs + 12) 4
  rw [leaveCriticalSectionGuest, hva 8 (by omega), hva 12 (by omega), hva 16 le_rfl]
  simp only [hown, hrec]
  by_cases hme : owner = tid
  · refine .inr ⟨hme, ?_⟩
    rw [if_neg (not_not.mpr hme)]
    by_cases hlast : recursion ≤ 1
    · rw [if_pos hlast, Flat.storeAll_of_rw]
      · refine ⟨_, _, rfl, by simp, by simp, fun x hx => Flat.byte_setAll _ fun w hw => ?_, ?_⟩
        · simp only [List.mem_cons, List.not_mem_nil, or_false] at hw
          rcases hw with rfl | rfl | rfl <;> dsimp only <;> omega
        · rw [if_pos hlast]
          exact fields_setAll (by decide) (by decide)
      · intro w hw
        simp only [List.mem_cons, List.not_mem_nil, or_false] at hw
        rcases hw with rfl | rfl | rfl
        exacts [h.lockRw, h.recursionRw, h.ownerRw]
    · rw [if_neg hlast, Flat.storeAll_of_rw]
      · refine ⟨_, _, rfl, by simp, by simp, fun x hx => Flat.byte_setAll _ fun w hw => ?_, ?_⟩
        · simp only [List.mem_cons, List.not_mem_nil, or_false] at hw
          rcases hw with rfl | rfl <;> dsimp only <;> omega
        · rw [if_neg hlast]
          constructor
          · show ((m.set (cs + 8) 4 _).set (cs + 12) 4 (recursion - 1)).get (cs + 16) 8 = owner
            rw [Flat.get_set_of_disjoint, Flat.get_set_of_disjoint, hf.owner] <;> omega
          · show ((m.set (cs + 8) 4 _).set (cs + 12) 4 (recursion - 1)).get (cs + 12) 4 = _
            exact Flat.get_set_of_lt (by omega)
      · intro w hw
        simp only [List.mem_cons, List.not_mem_nil, or_false] at hw
        rcases hw with rfl | rfl
        exacts [h.lockRw, h.recursionRw]
  · rw [if_pos hme]
    exact .inl ⟨hme, rfl⟩

theorem storeFields_ok {base : ℕ} : ∀ (ws : List (ℕ × ℕ × ℕ)) {m m' : Flat},
    storeFields base ws m = (.ok (), m') →
      m' = Flat.setAll (ws.map fun w => (base + w.1, w.2)) m ∧
        ∀ w ∈ ws, base + w.1 < 2 ^ 64 ∧ m.Rw (base + w.1) w.2.1 := by
  intro ws
  induction ws with
  | nil => exact fun h => ⟨(Prod.mk.inj h).2.symm, nofun⟩
  | cons w ws ih =>
    intro m m' h
    obtain ⟨offset, n, v⟩ := w
    rw [storeFields] at h
    cases ha : checkedAdd base offset with
    | none => rw [ha] at h; cases h
    | some a =>
      obtain ⟨rfl, hlt⟩ := checkedAdd_eq_some.mp ha
      rw [ha, Option.bind_some] at h
      cases hs : m.storeLe (base + offset) n v with
      | none => rw [hs] at h; cases h
      | some m₁ =>
        rw [hs] at h
        obtain ⟨rfl, hrw⟩ := Flat.storeLe_eq_some hs
        obtain ⟨rfl, hall⟩ := ih h
        refine ⟨rfl, fun w hw => ?_⟩
        rcases List.mem_cons.mp hw with rfl | hw
        · exact ⟨hlt, hrw⟩
        · exact ⟨(hall w hw).1, (hall w hw).2.congr rfl⟩

/-- A section that was initialised is free. -/
theorem sectionAt_of_init {m₀ : Flat} {spinCount : ℕ} (hcs : cs ≠ 0)
    (h : writeCriticalSectionUnlocked m₀ cs spinCount = (.ok (), m)) :
    SectionAt cs m ∧ Fields cs m 0 0 := by
  obtain ⟨rfl, hall⟩ := storeFields_ok _ h
  have hlock := (hall (8, 4, 2 ^ 32 - 1) (by simp)).2
  have hrec := (hall (12, 4, 0) (by simp)).2
  have hown := (hall (16, 8, 0) (by simp)).2
  refine ⟨⟨hcs, (hall (32, 8, spinCount) (by simp)).1, fun x h1 h2 => ?_⟩, ?_, ?_⟩
  · rw [Flat.writable_setAll]
    rcases Nat.lt_or_ge x (cs + 12) with hx | hx
    · exact hlock x h1 (by omega)
    · rcases Nat.lt_or_ge x (cs + 16) with hx' | hx'
      · exact hrec x hx (by omega)
      · exact hown x hx' (by omega)
  · show ((((((m₀.set (cs + 0) 8 0).set (cs + 8) 4 (2 ^ 32 - 1)).set (cs + 12) 4 0).set (cs + 16) 8
      0).set (cs + 24) 8 0).set (cs + 32) 8 spinCount).get (cs + 16) 8 = 0
    rw [Flat.get_set_of_disjoint, Flat.get_set_of_disjoint, Flat.get_set_of_lt (by decide)] <;> omega
  · show ((((((m₀.set (cs + 0) 8 0).set (cs + 8) 4 (2 ^ 32 - 1)).set (cs + 12) 4 0).set (cs + 16) 8
      0).set (cs + 24) 8 0).set (cs + 32) 8 spinCount).get (cs + 12) 4 = 0
    rw [Flat.get_set_of_disjoint, Flat.get_set_of_disjoint, Flat.get_set_of_disjoint,
      Flat.get_set_of_lt (by decide)] <;> omega

/-! ### Threads that use a section -/

/-- The threads and guest memory, with the completed Enters minus Leaves of each thread. -/
structure CsSystem where
  /-- Guest memory. -/
  mem : Flat
  /-- The threads. -/
  threads : ThreadState
  /-- How deep each thread is in the section. -/
  depth : ℕ → ℕ

/-- What can happen. -/
inductive CsAction
  /-- A thread is created. -/
  | create
  /-- A thread makes a call to enter, or makes it again, with the given registers. -/
  | enter (tid : ℕ) (regs : Regs)
  /-- A thread makes a call to leave. -/
  | leave (tid : ℕ) (regs : Regs)
  /-- Memory changes elsewhere. -/
  | other (mem : Flat)

/-- Whether a call came back. -/
def ApiResult.isReturned : ApiResult → Bool
  | .returned .. => true
  | _ => false

namespace CsSystem

/-- The call to enter, by a thread that has put itself in the active slot. -/
def callEnter (s : CsSystem) (tid : ℕ) (regs : Regs) : ApiResult × CpuEngine :=
  handleEnterCriticalSection ⟨regs, s.mem⟩ (s.threads.activate tid)

/-- The call to leave. -/
def callLeave (s : CsSystem) (tid : ℕ) (regs : Regs) : ApiResult × CpuEngine :=
  handleLeaveCriticalSection ⟨regs, s.mem⟩ (s.threads.activate tid)

/-- The state after an action. -/
def next (s : CsSystem) : CsAction → CsSystem
  | .create => { s with threads := s.threads.allocWorker.2 }
  | .enter tid regs =>
    { mem := (s.callEnter tid regs).2.mem
      threads := s.threads.activate tid
      depth := if (s.callEnter tid regs).1.isReturned then
        Function.update s.depth tid (s.depth tid + 1) else s.depth }
  | .leave tid regs =>
    { mem := (s.callLeave tid regs).2.mem
      threads := s.threads.activate tid
      depth := if (s.callLeave tid regs).1.isReturned then
        Function.update s.depth tid (s.depth tid - 1) else s.depth }
  | .other mem => { s with mem := mem }

end CsSystem

/-- The section at `cs` is only accessed by calls of threads that exist. -/
def UsesSection (cs : ℕ) (s : CsSystem) : CsAction → Prop
  | .create => True
  | .enter tid regs | .leave tid regs => regs.rcx = cs ∧ tid ∈ s.threads.byTid
  | .other mem => ∀ x, cs ≤ x → x < cs + 40 →
      mem.byte x = s.mem.byte x ∧ mem.writable x = s.mem.writable x

/-- A call can return, and does not nest past the counter. -/
def Counted (s : CsSystem) : CsAction → Prop
  | .enter tid regs => CpuEngine.CanReturn s.mem regs ∧ s.depth tid + 1 < 2 ^ 32
  | .leave _ regs => CpuEngine.CanReturn s.mem regs
  | _ => True

/-- The section at `cs` was initialised, and no thread is in it. -/
def CsInit (cs : ℕ) (s : CsSystem) : Prop :=
  cs ≠ 0 ∧ s.threads.Valid ∧ (∀ t, s.depth t = 0) ∧
    ∃ m₀ spinCount, writeCriticalSectionUnlocked m₀ cs spinCount = (.ok (), s.mem)

/-- The runs of threads that use a section. -/
def CsReach (cs : ℕ) (guard : CsSystem → CsAction → Prop) : CsSystem → Prop :=
  GuardedReach (CsInit cs) (fun s a => UsesSection cs s a ∧ guard s a) fun s a s' => s' = s.next a

/-- The fields say who is in the section, and how deep. -/
structure CsInv (cs : ℕ) (s : CsSystem) : Prop where
  /-- The section. -/
  sect : SectionAt cs s.mem
  /-- The threads. -/
  threads : s.threads.Valid
  /-- The fields. -/
  held : ∃ owner, 0 < owner ∧ (∀ t, t ≠ owner → s.depth t = 0) ∧ s.depth owner < 2 ^ 32 ∧
    Fields cs s.mem (if s.depth owner = 0 then 0 else owner) (s.depth owner)

namespace CsInv

variable {s : CsSystem}

theorem of_init (h : CsInit cs s) : CsInv cs s := by
  obtain ⟨hcs, hthreads, hdepth, m₀, spinCount, hw⟩ := h
  obtain ⟨hsect, hf⟩ := sectionAt_of_init hcs hw
  refine ⟨hsect, hthreads, 1, Nat.one_pos, fun t _ => hdepth t, ?_, ?_⟩
  · rw [hdepth]
    decide
  · rw [hdepth, if_pos rfl]
    exact hf

/-- Threads that exist have ids. -/
theorem tid_bounds (h : CsInv cs s) {tid : ℕ} (ht : tid ∈ s.threads.byTid) :
    0 < tid ∧ tid < 2 ^ 32 := by
  obtain ⟨gt, hgt⟩ := Option.isSome_iff_exists.mp (AList.lookup_isSome.mpr ht)
  exact (h.threads.byTid hgt).2

/-- **An attempt to enter** parks and changes nothing, or takes the section. -/
theorem enter_cases (h : CsInv cs s) {tid : ℕ} {regs : Regs} (hcs : regs.rcx = cs)
    (ht : tid ∈ s.threads.byTid) :
    ((∃ u, u ≠ tid ∧ 0 < s.depth u) ∧ s.callEnter tid regs = (.hostPark cs, ⟨regs, s.mem⟩)) ∨
    ((∀ u, u ≠ tid → s.depth u = 0) ∧ ∃ m', m'.writable = s.mem.writable ∧
      m'.readable = s.mem.readable ∧
      s.callEnter tid regs = CpuEngine.returnFromWin64Api ⟨regs, m'⟩ 0 ∧
      Fields cs m' tid (satAdd32 (s.depth tid) 1)) := by
  obtain ⟨hpos, hlt⟩ := h.tid_bounds ht
  obtain ⟨owner, hne0, hothers, -, hf⟩ := h.held
  have hcall : s.callEnter tid regs =
      match tryEnterCriticalSectionGuest s.mem cs tid with
      | (.ok .acquired, m) => CpuEngine.returnFromWin64Api ⟨regs, m⟩ 0
      | (.ok .needPark, m) => (.hostPark cs, ⟨regs, m⟩)
      | (.error (), m) => (.error, ⟨regs, m⟩) := by
    rw [CsSystem.callEnter, handleEnterCriticalSection]
    simp only [hcs, if_neg h.sect.ne_zero, h.threads.currentTid_activate]
  rcases h.sect.tryEnter _ hf hlt with ⟨h0, hne, htry⟩ | ⟨hown, m', htry, hw, hr, -, hf'⟩
  · rw [hcall, htry]
    refine .inl ⟨⟨owner, ?_⟩, rfl⟩
    have hd : s.depth owner ≠ 0 := fun hd => h0 (if_pos hd)
    rw [if_neg hd] at hne
    exact ⟨hne, Nat.pos_of_ne_zero hd⟩
  · rw [hcall, htry]
    refine .inr ⟨fun u hu => ?_, m', hw, hr, rfl, ?_⟩
    · by_cases huo : u = owner
      · subst huo
        by_contra hd
        rw [if_neg hd] at hown
        omega
      · exact hothers u huo
    · by_cases hd : s.depth owner = 0
      · rw [if_pos hd, if_pos rfl] at hf'
        have htid : s.depth tid = 0 := by
          by_cases hto : tid = owner
          · rw [hto, hd]
          · exact hothers tid hto
        rwa [htid]
      · rw [if_neg hd] at hown hf'
        obtain rfl : owner = tid := by omega
        rwa [if_neg (by omega)] at hf'

/-- **A call to leave** changes nothing for a thread that is not in the section, and counts down for
the one that is. -/
theorem leave_cases (h : CsInv cs s) {tid : ℕ} {regs : Regs} (hcs : regs.rcx = cs)
    (ht : tid ∈ s.threads.byTid) :
    (s.depth tid = 0 ∧ s.callLeave tid regs = CpuEngine.returnFromWin64Api ⟨regs, s.mem⟩ 0) ∨
    ((∀ u, u ≠ tid → s.depth u = 0) ∧ 0 < s.depth tid ∧ s.depth tid < 2 ^ 32 ∧
      ∃ m', m'.writable = s.mem.writable ∧ m'.readable = s.mem.readable ∧
        s.callLeave tid regs = CpuEngine.returnFromWin64Api ⟨regs, m'⟩ 0 ∧
        Fields cs m' (if s.depth tid - 1 = 0 then 0 else tid) (s.depth tid - 1)) := by
  obtain ⟨hpos, hlt⟩ := h.tid_bounds ht
  obtain ⟨owner, hne0, hothers, hmax, hf⟩ := h.held
  have hcall : s.callLeave tid regs =
      match leaveCriticalSectionGuest s.mem cs tid with
      | (.ok _, m) => CpuEngine.returnFromWin64Api ⟨regs, m⟩ 0
      | (.error (), m) => (.error, ⟨regs, m⟩) := by
    rw [CsSystem.callLeave, handleLeaveCriticalSection]
    simp only [hcs, if_neg h.sect.ne_zero, h.threads.currentTid_activate]
  rcases h.sect.leave tid hf with ⟨hne, hleave⟩ | ⟨hown, b, m', hleave, hw, hr, -, hf'⟩
  · rw [hcall, hleave]
    refine .inl ⟨?_, rfl⟩
    by_cases hto : tid = owner
    · subst hto
      by_contra hd
      exact hne (if_neg hd)
    · exact hothers tid hto
  · rw [hcall, hleave]
    have hd : s.depth owner ≠ 0 := fun hd => by
      rw [if_pos hd] at hown
      omega
    rw [if_neg hd] at hown hf'
    obtain rfl : owner = tid := hown
    refine .inr ⟨hothers, Nat.pos_of_ne_zero hd, hmax, m', hw, hr, rfl, ?_⟩
    by_cases hlast : s.depth owner ≤ 1
    · rw [if_pos hlast] at hf'
      rw [if_pos (by omega), show s.depth owner - 1 = 0 by omega]
      exact hf'
    · rw [if_neg hlast] at hf'
      rw [if_neg (by omega)]
      exact hf'

/-- The invariant once a thread has gone in or out. -/
theorem moved (h : CsInv cs s) {tid d : ℕ} (ht : tid ∈ s.threads.byTid) {m' : Flat}
    (hothers : ∀ u, u ≠ tid → s.depth u = 0) (hw : m'.writable = s.mem.writable)
    (hd : d < 2 ^ 32) (hf : Fields cs m' (if d = 0 then 0 else tid) d) :
    CsInv cs ⟨m', s.threads.activate tid, Function.update s.depth tid d⟩ := by
  obtain ⟨hpos, hlt⟩ := h.tid_bounds ht
  have hself : Function.update s.depth tid d tid = d := Function.update_self ..
  refine ⟨h.sect.congr hw, h.threads.activate hpos hlt, tid, hpos, fun t htt => ?_, ?_, ?_⟩
  · exact (Function.update_of_ne htt d s.depth).trans (hothers t htt)
  · show Function.update s.depth tid d tid < 2 ^ 32
    rwa [hself]
  · show Fields cs m' (if Function.update s.depth tid d tid = 0 then 0 else tid)
      (Function.update s.depth tid d tid)
    rwa [hself]

/-- **Every action keeps the invariant.** -/
theorem next (h : CsInv cs s) {a : CsAction} (hu : UsesSection cs s a) (hc : Counted s a) :
    CsInv cs (s.next a) := by
  cases a with
  | create => exact ⟨h.sect, h.threads.allocWorker, h.held⟩
  | enter tid regs =>
    obtain ⟨hcs, ht⟩ := hu
    obtain ⟨hpos, hlt⟩ := h.tid_bounds ht
    rcases h.enter_cases hcs ht with ⟨-, hpark⟩ | ⟨hothers, m', hw, hr, hcall, hf⟩
    · rw [CsSystem.next, hpark]
      exact ⟨h.sect, h.threads.activate hpos hlt, h.held⟩
    · have hret : (s.callEnter tid regs).1.isReturned = true := by
        obtain ⟨ret, hret⟩ := CpuEngine.returnFromWin64Api_of_canReturn (e := ⟨regs, m'⟩)
          (fun x h1 h2 => by rw [hr]; exact hc.1 x h1 h2) 0
        rw [hcall, hret]
        rfl
      have hd : satAdd32 (s.depth tid) 1 = s.depth tid + 1 := by
        have := hc.2
        rw [satAdd32]
        omega
      rw [CsSystem.next, if_pos hret, hcall, CpuEngine.returnFromWin64Api_mem]
      rw [hd] at hf
      exact h.moved ht hothers hw hc.2 (by rwa [if_neg (Nat.succ_ne_zero _)])
  | leave tid regs =>
    obtain ⟨hcs, ht⟩ := hu
    obtain ⟨hpos, hlt⟩ := h.tid_bounds ht
    rcases h.leave_cases hcs ht with ⟨hd, hcall⟩ | ⟨hothers, hin, hmax, m', hw, hr, hcall, hf⟩
    · have hkeep : Function.update s.depth tid (s.depth tid - 1) = s.depth := by
        rw [hd]
        exact Function.update_eq_self_iff.mpr hd.symm
      rw [CsSystem.next, hkeep, ite_self, hcall, CpuEngine.returnFromWin64Api_mem]
      exact ⟨h.sect, h.threads.activate hpos hlt, h.held⟩
    · have hret : (s.callLeave tid regs).1.isReturned = true := by
        obtain ⟨ret, hret⟩ := CpuEngine.returnFromWin64Api_of_canReturn (e := ⟨regs, m'⟩)
          (fun x h1 h2 => by rw [hr]; exact hc x h1 h2) 0
        rw [hcall, hret]
        rfl
      rw [CsSystem.next, if_pos hret, hcall, CpuEngine.returnFromWin64Api_mem]
      exact h.moved ht hothers hw (by omega) hf
  | other mem =>
    have hsame : ∀ a n, cs ≤ a → a + n ≤ cs + 40 → mem.get a n = s.mem.get a n := fun a n h1 h2 =>
      Flat.get_congr fun x hx hx' => (hu x (by omega) (by omega)).1
    obtain ⟨owner, hne0, hothers, hmax, hf⟩ := h.held
    refine ⟨⟨h.sect.ne_zero, h.sect.fits, fun x h1 h2 => ?_⟩, h.threads, owner, hne0, hothers, hmax,
      ?_, ?_⟩
    · show mem.writable x = true
      rw [(hu x (by omega) (by omega)).2]
      exact h.sect.rw x h1 h2
    · exact (hsame _ _ (by omega) (by omega)).trans hf.owner
    · exact (hsame _ _ (by omega) (by omega)).trans hf.recursion

theorem of_reach (h : CsReach cs Counted s) : CsInv cs s := by
  refine GuardedReach.invariant (I := CsInv cs) (fun _ => of_init) ?_ h
  rintro s a s' hi ⟨hu, hc⟩ rfl
  exact hi.next hu hc

end CsInv

/-- Memory up to 64 KiB. -/
def lowMemory : Flat where
  byte _ := 0
  readable x := decide (x < 0x10000)
  writable x := decide (x < 0x10000)
  readable_of_writable _ h := h

/-- A call on the section at 0x1000, with the given stack. -/
def sectionCall (rsp : ℕ) : Regs := ⟨0, 0x1000, 0, 0, 0, rsp, 0⟩

/-- A section of the primary thread after `n` calls to enter. -/
structure Nested (n : ℕ) (s : CsSystem) : Prop where
  /-- The run. -/
  reach : CsReach 0x1000 (fun _ _ => True) s
  /-- The section. -/
  sect : SectionAt 0x1000 s.mem
  /-- Memory can still be read. -/
  readable : s.mem.readable = lowMemory.readable
  /-- The threads. -/
  threads : s.threads.Valid
  /-- The thread exists. -/
  known : PRIMARY_THREAD_ID ∈ s.threads.byTid
  /-- The history. -/
  depth : s.depth PRIMARY_THREAD_ID = n
  /-- The fields. -/
  fields : Fields 0x1000 s.mem (if n = 0 then 0 else PRIMARY_THREAD_ID) (min n (2 ^ 32 - 1))

/-- The counter stops at the top, the thread does not. -/
theorem Nested.succ {n : ℕ} {s : CsSystem} (h : Nested n s) :
    Nested (n + 1) (s.next (.enter PRIMARY_THREAD_ID (sectionCall 0x2000))) := by
  have hcan : ∀ m : Flat, m.readable = lowMemory.readable →
      CpuEngine.CanReturn m (sectionCall 0x2000) := fun m hm x h1 h2 => by
    rw [hm]
    change 0x2000 ≤ x at h1
    change x < 0x2000 + 8 at h2
    exact decide_eq_true (by omega)
  rcases h.sect.tryEnter PRIMARY_THREAD_ID h.fields (by decide) with
    ⟨h0, hne, -⟩ | ⟨-, m', htry, hw, hr, -, hf⟩
  · exact absurd hne (by split_ifs at h0 ⊢ <;> simp_all)
  have hcall : s.callEnter PRIMARY_THREAD_ID (sectionCall 0x2000) =
      CpuEngine.returnFromWin64Api ⟨sectionCall 0x2000, m'⟩ 0 := by
    rw [CsSystem.callEnter, handleEnterCriticalSection]
    simp only [h.threads.currentTid_activate]
    rw [if_neg (by decide), show (sectionCall 0x2000).rcx = 0x1000 from rfl, htry]
  have hret : (s.callEnter PRIMARY_THREAD_ID (sectionCall 0x2000)).1.isReturned = true := by
    obtain ⟨ret, hret⟩ := CpuEngine.returnFromWin64Api_of_canReturn (e := ⟨sectionCall 0x2000, m'⟩)
      (hcan m' (hr.trans h.readable)) 0
    rw [hcall, hret]
    rfl
  have huse : UsesSection 0x1000 s (.enter PRIMARY_THREAD_ID (sectionCall 0x2000)) :=
    ⟨rfl, h.known⟩
  have hreach := GuardedReach.step h.reach ⟨huse, trivial⟩ rfl
  rw [CsSystem.next, if_pos hret, hcall, CpuEngine.returnFromWin64Api_mem] at hreach ⊢
  refine ⟨hreach, h.sect.congr hw, hr.trans h.readable, h.threads.activate (by decide) (by decide),
    ThreadState.mem_activate h.known _, ?_, ?_⟩
  · show Function.update s.depth PRIMARY_THREAD_ID (s.depth PRIMARY_THREAD_ID + 1)
      PRIMARY_THREAD_ID = n + 1
    rw [Function.update_self, h.depth]
  · rw [if_neg (Nat.succ_ne_zero n)]
    have hcount : (if (if n = 0 then 0 else PRIMARY_THREAD_ID) = 0 then 1
        else satAdd32 (min n (2 ^ 32 - 1)) 1) = min (n + 1) (2 ^ 32 - 1) := by
      by_cases hn : n = 0
      · rw [hn]
        decide
      · rw [if_neg hn, if_neg (by decide), satAdd32]
        omega
    rwa [hcount] at hf

end Wie
