import Wie.Mem.Pins

/-!
# The generation

Translations are cached: per page in a table of the compiled code, per span in its pins. No cache is
told when memory changes. Instead every entry records the generation it was made in, and is used
only while that is still the current one.

So every call that changes what an entry records has to move the generation on. The calls that do
not are those that fail, reads, writes, and the naming of regions. A failed call may have left new
arenas behind, but an entry is about pages in use, which are backed already, and nothing moves.

## Main results

* `GuestMemory.Change.still` — a call after which the generation is the same leaves translations
  alone
* `GuestMemory.generation_validates` — an entry whose generation is the current one is what would be
  computed now
-/

namespace Wie

namespace GuestMemory

variable {env : HostEnv} {m m' : GuestMemory}

/-- Translations made in `m` are good in `m'`: the runs are the same, and what was backed is in the
same arena. -/
structure Still (m m' : GuestMemory) : Prop where
  /-- The runs stay. -/
  runs : m'.pages.runs = m.pages.runs
  /-- Arenas stay where they are. -/
  spans : ∀ x a, m.backend.spanAt x = some a → m'.backend.spanAt x = some a

theorem Still.refl (m : GuestMemory) : Still m m := ⟨rfl, fun _ _ => id⟩

theorem Still.trans {m'' : GuestMemory} (h : Still m m') (h' : Still m' m'') : Still m m'' :=
  ⟨h'.runs.trans h.runs, fun x a hx => h'.spans x a (h.spans x a hx)⟩

/-- Growing moves no arena. -/
theorem spanAt_of_grown {s s' : ArenaSet} {lo hi : ℕ} (hg : ArenaSet.Grown env lo hi s s')
    (hP : ArenaSet.Placed env s.spans) {x : ℕ} {a : HostSpan} (hx : s.spanAt x = some a) :
    s'.spanAt x = some a := by
  obtain ⟨ha, hax⟩ := hP.spanAt_eq_some.mp hx
  exact hg.placed.spanAt_eq_some.mpr ⟨hg.keeps a ha, hax⟩

/-- **A call moves the generation on, or leaves translations alone.** -/
theorem Change.still {op : Op} {ok : Bool} (hc : Change env m op ok m') (h : Inv env m) :
    m'.generation = satAdd m.generation 1 ∨ (m'.generation = m.generation ∧ Still m m') := by
  cases hc with
  | same _ hs => exact .inr ⟨hs.generation, hs.runs, fun x a hx => by rw [hs.backend]; exact hx⟩
  | bumped hs => exact .inl hs.generation
  | mapGrew hg =>
    refine .inr ⟨by rw [hg.rest], by rw [hg.rest], fun x a => spanAt_of_grown hg.grown h.placed⟩
  | mapped hm => exact .inl hm.generation
  | reserveGrew _ _ _ _ _ hg =>
    refine .inr ⟨by rw [hg.rest], by rw [hg.rest], fun x a => spanAt_of_grown hg.grown h.placed⟩
  | reserved _ _ _ hm => exact .inl hm.generation
  | committed _ _ _ _ hr => exact .inl hr.generation
  | decommitted _ _ _ _ hr => exact .inl hr.generation
  | reprotected _ _ _ _ hr => exact .inl hr.generation
  | released _ _ hr => exact .inl hr.generation
  | wrote hw =>
    refine .inr ⟨hw.generation, hw.runs, fun x a hx => ?_⟩
    rw [ArenaSet.spanAt_congr hw.backend.arenas]
    exact hx

/-- Along a run the generation never goes back, and as long as it is the same, translations are
good. -/
theorem still_of_path (hp : GuardedPath AnyCall (Step env) m m') (h : Inv env m)
    (hg : m.generation < 2 ^ 64 - 1) :
    Inv env m' ∧ m.generation ≤ m'.generation ∧
      (m'.generation = m.generation → Still m m') := by
  refine GuardedPath.invariant (I := fun n => Inv env n ∧ m.generation ≤ n.generation ∧
    (n.generation = m.generation → Still m n)) ?_ hp ⟨h, le_rfl, fun _ => .refl m⟩
  rintro n op n' ⟨hn, hle, hstill⟩ - hs
  have hc := hs.change hn
  refine ⟨hc.inv hn, ?_⟩
  have hlt := hn.generation
  rcases hc.still hn with hgen | ⟨hgen, hst⟩
  · have hsat : n'.generation = min (n.generation + 1) (2 ^ 64 - 1) := hgen
    exact ⟨by omega, fun heq => by omega⟩
  · exact ⟨by omega, fun heq => (hstill (hgen ▸ heq)).trans hst⟩

/-! ### What an entry is made of -/

theorem Still.lookup (hs : Still m m') (h : Inv env m) (h' : Inv env m') (p : ℕ) :
    m'.pages.lookup p = m.pages.lookup p := by
  refine Option.ext fun r => ?_
  rw [h'.pages.lookup_eq_some, h.pages.lookup_eq_some, hs.runs]

theorem Still.pinRights (hs : Still m m') (h : Inv env m) (h' : Inv env m') (lastPage : ℕ) :
    ∀ (fuel page : ℕ) (allowR allowW saw : Bool),
      pinRights m'.pages lastPage fuel page allowR allowW saw =
        pinRights m.pages lastPage fuel page allowR allowW saw := by
  intro fuel
  induction fuel with
  | zero => exact fun _ _ _ _ => rfl
  | succ fuel ih =>
    intro page allowR allowW saw
    unfold GuestMemory.pinRights
    rw [hs.lookup h h']
    simp only [ih]

/-- An entry for a page stays what it is. -/
theorem Still.pageTlbEntry (hs : Still m m') (h : Inv env m) (h' : Inv env m')
    (hg : m'.generation = m.generation) {p : ℕ} {e : PageTlbEntry}
    (he : m.pageTlbEntry p = some e) : m'.pageTlbEntry p = some e := by
  unfold GuestMemory.pageTlbEntry pageProtectMeta at he ⊢
  rw [h.placed.pageDataPtr_eq] at he
  rw [hs.lookup h h', h'.placed.pageDataPtr_eq, hg]
  split at he
  · cases he
  · split at he
    · cases he
    · rename_i host hhost
      obtain ⟨a, ha, rfl⟩ := Option.map_eq_some_iff.mp hhost
      rw [ArenaSet.hostAddr, hs.spans _ _ ha]
      exact he

/-- A pin stays what it is. -/
theorem Still.spanPin (hs : Still m m') (h : Inv env m) (h' : Inv env m')
    (hg : m'.generation = m.generation) {lo hi : ℕ} {pin : RegionPinInfo}
    (hp : m.spanPin lo hi = some pin) : m'.spanPin lo hi = some pin := by
  unfold GuestMemory.spanPin at hp ⊢
  rw [ArenaSet.Placed.arenaGuestBaseForVa_eq, ArenaSet.Placed.arenaGuestBaseForVa_eq,
    h.placed.arenaHostBaseForVa_eq] at hp
  rw [ArenaSet.Placed.arenaGuestBaseForVa_eq, ArenaSet.Placed.arenaGuestBaseForVa_eq,
    h'.placed.arenaHostBaseForVa_eq, hg]
  simp only [hs.pinRights h h']
  cases ha : m.backend.spanAt lo with
  | none =>
    rw [ha] at hp
    split at hp <;> cases hp
  | some a =>
    cases hb : m.backend.spanAt (hi - 1) with
    | none =>
      rw [ha, hb] at hp
      split at hp <;> cases hp
    | some b =>
      rw [ha, hb] at hp
      rw [hs.spans _ _ ha, hs.spans _ _ hb]
      exact hp

/-- **An entry whose generation is the current one is what would be computed now**, after any run of
calls from a reachable state, as long as the generation is not stuck at its last value. -/
theorem generation_validates (h : Reachable env AnyCall m)
    (hp : GuardedPath AnyCall (Step env) m m') (hg : m.generation < 2 ^ 64 - 1)
    (heq : m'.generation = m.generation) :
    (∀ p e, m.pageTlbEntry p = some e → m'.pageTlbEntry p = some e) ∧
    ∀ lo hi pin, m.spanPin lo hi = some pin → m'.spanPin lo hi = some pin := by
  have hinv : Inv env m := Reachable.inv h
  obtain ⟨hinv', -, hstill⟩ := still_of_path hp hinv hg
  exact ⟨fun p e => (hstill heq).pageTlbEntry hinv hinv' heq,
    fun lo hi pin => (hstill heq).spanPin hinv hinv' heq⟩

/-- A failed call and a write leave the generation and the entries alone. -/
theorem generation_validates_write : ∃ m m', Reachable .fourK AnyCall m ∧
    GuardedPath AnyCall (Step .fourK) m m' ∧
    m'.pageTlbEntry 0x20 = some ⟨0x10000000, true, true, 1⟩ := by
  have h : Reachable .fourK AnyCall (runAll .fourK (new .roomy)
      [.virtualAlloc 0x20000 0x2000 (memReserve + memCommit) Protect.pageReadwrite]) :=
    (reachable_new _).runAll _ (allMeet_anyCall _ _) (by decide +kernel)
  have hp : GuardedPath AnyCall (Step .fourK) (runAll .fourK (new .roomy)
      [.virtualAlloc 0x20000 0x2000 (memReserve + memCommit) Protect.pageReadwrite]) _ :=
    .tail (.single ⟨.virtualAlloc 0x20000 0x1000 memReserve Protect.pageReadwrite, trivial,
      by decide +kernel, rfl⟩) ⟨.write 0x20000 [7], trivial, by decide +kernel, rfl⟩
  exact ⟨_, _, h, hp, (generation_validates h hp (by decide +kernel) (by decide +kernel)).1 _ _
    (by decide +kernel)⟩

end GuestMemory

end Wie
