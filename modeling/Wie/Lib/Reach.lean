import Mathlib.Logic.Relation

/-!
# Reachability under a guard

The states a system can reach when every action taken meets a guard in the state it is taken in.
With the trivial guard these are the reachable states; a stronger guard says what is asked of those
who drive the system. The guard sees the state before the action, never its result.

To carry a history along, take a state that has it as a component: nothing here asks what a state
is.

## Main definitions

* `GuardedReach` — the states reachable under a guard
* `GuardedPath` — one state reachable from another under a guard
* `Allowed` — a list of actions that all meet the guard, where an action has one result

## Main results

* `GuardedReach.invariant`, `GuardedPath.invariant` — what holds initially and is preserved by
  guarded steps holds
* `GuardedReach.of_path` — a path from a reachable state ends in one
* `GuardedReach.foldl` — so does a list of allowed actions
* `forall_prefix_iff_allowed` — guards that are exact
-/

namespace Wie

variable {σ ω : Type} {init : σ → Prop} {guard guard' : σ → ω → Prop} {step : σ → ω → σ → Prop}
  {s s' : σ}

/-- The states reachable from an initial one by actions that meet the guard. -/
inductive GuardedReach (init : σ → Prop) (guard : σ → ω → Prop) (step : σ → ω → σ → Prop) :
    σ → Prop where
  /-- Initial states are reachable. -/
  | init {s : σ} (h : init s) : GuardedReach init guard step s
  /-- So is what an action that meets the guard leads to. -/
  | step {s s' : σ} {o : ω} (hr : GuardedReach init guard step s) (hg : guard s o)
    (hs : step s o s') : GuardedReach init guard step s'

/-- `s'` can be reached from `s` by actions that meet the guard. -/
def GuardedPath (guard : σ → ω → Prop) (step : σ → ω → σ → Prop) : σ → σ → Prop :=
  Relation.ReflTransGen fun s s' => ∃ o, guard s o ∧ step s o s'

/-- **The invariant rule for paths.** -/
theorem GuardedPath.invariant {I : σ → Prop} (hstep : ∀ s o s', I s → guard s o → step s o s' → I s')
    (hp : GuardedPath guard step s s') (h : I s) : I s' := by
  induction hp with
  | refl => exact h
  | tail _ hs ih =>
    obtain ⟨o, hg, hs⟩ := hs
    exact hstep _ _ _ ih hg hs

namespace GuardedReach

/-- **The invariant rule.** -/
theorem invariant {I : σ → Prop} (hinit : ∀ s, init s → I s)
    (hstep : ∀ s o s', I s → guard s o → step s o s' → I s')
    (h : GuardedReach init guard step s) : I s := by
  induction h with
  | init h => exact hinit _ h
  | step _ hg hs ih => exact hstep _ _ _ ih hg hs

/-- A weaker guard reaches more. -/
theorem mono (hg : ∀ s o, guard s o → guard' s o) (h : GuardedReach init guard step s) :
    GuardedReach init guard' step s := by
  induction h with
  | init h => exact .init h
  | step _ hg' hs ih => exact .step ih (hg _ _ hg') hs

theorem of_path (h : GuardedReach init guard step s) (hp : GuardedPath guard step s s') :
    GuardedReach init guard step s' := by
  induction hp with
  | refl => exact h
  | tail _ hs ih =>
    obtain ⟨o, hg, hs⟩ := hs
    exact .step ih hg hs

end GuardedReach

/-! ### Actions with one result -/

section actions

variable {next : σ → ω → σ}

/-- The actions of a list meet the guard, each in the state the ones before it lead to. -/
def Allowed (guard : σ → ω → Prop) (next : σ → ω → σ) : σ → List ω → Prop
  | _, [] => True
  | s, a :: as => guard s a ∧ Allowed guard next (next s a) as

instance Allowed.decidable [∀ s a, Decidable (guard s a)] :
    ∀ (s : σ) (as : List ω), Decidable (Allowed guard next s as)
  | _, [] => .isTrue trivial
  | s, a :: as =>
    have := Allowed.decidable (next s a) as
    inferInstanceAs (Decidable (guard s a ∧ Allowed guard next (next s a) as))

/-- **Allowed actions lead to a reachable state.** -/
theorem GuardedReach.foldl {as : List ω} (ha : Allowed guard next s as)
    (h : GuardedReach init guard (fun s a s' => s' = next s a) s) :
    GuardedReach init guard (fun s a s' => s' = next s a) (as.foldl next s) := by
  induction as generalizing s with
  | nil => exact h
  | cons a as ih => exact ih ha.2 (.step h ha.1 rfl)

/-- **A guard that is exact**: when each action leads from a good state to a good one just if it meets
the guard, the states on the way are all good just if all actions do. -/
theorem forall_prefix_iff_allowed {I P : σ → Prop} (hI : ∀ s a, I s → I (next s a))
    (hP : ∀ s a, I s → P s → (P (next s a) ↔ guard s a)) {as : List ω} (hi : I s) (hp : P s) :
    (∀ bs, bs <+: as → P (bs.foldl next s)) ↔ Allowed guard next s as := by
  induction as generalizing s with
  | nil =>
    refine iff_of_true (fun bs hbs => ?_) trivial
    rw [List.prefix_nil.mp hbs]
    exact hp
  | cons a as ih =>
    rw [Allowed]
    constructor
    · intro h
      have hnext : P (next s a) := h [a] ⟨as, rfl⟩
      refine ⟨(hP s a hi hp).mp hnext, (ih (hI s a hi) hnext).mp fun bs hbs => ?_⟩
      exact h (a :: bs) (List.cons_prefix_cons.mpr ⟨rfl, hbs⟩)
    · rintro ⟨hg, hrest⟩ bs hbs
      have hnext := (hP s a hi hp).mpr hg
      cases bs with
      | nil => exact hp
      | cons b bs =>
        obtain ⟨rfl, hbs'⟩ := List.cons_prefix_cons.mp hbs
        exact (ih (hI s b hi) hnext).mpr hrest bs hbs'

end actions

end Wie
