import Wie.Winapi.WaitRun

/-!
# A wait that succeeds consumes a signal

A wait for one object answers success when it found the object signalled. There is one more way: a
thread that waits with a timeout, is woken before it and finds no signal is told that it has one,
unless it waits for a semaphore. So what is asked of a run is that no thread is woken for nothing
while its time is not up.

## Main definitions

* `NotWokenForNothing` — what is asked
* `successes` — the waits for an object that succeeded

## Main results

* `wait_consumes_signal` — success means a signal, and an auto-reset event gives each away once
* `not_wait_consumes_signal` — a wake-up for nothing is success
-/

namespace Wie

/-- A parked thread whose wait for one object goes on with a wake-up for nothing. -/
def Waiting.wokenForNothing (objects : Objects) (c : Chance) (w : Waiting) : Bool :=
  match w.call, w.pc with
  | .single o timeout, .single true =>
    decide (KernelObject.Spurious timeout (.woken c.timedOut) (objects o))
  | _, _ => false

/-- No thread that waits with a timeout for a thread or an event is woken before it while the object
is not signalled. -/
def NotWokenForNothing (s : SyncSystem) : SyncAction → Prop
  | .step t c => ∀ w ∈ (s.threads[t]?).join, w.wokenForNothing s.objects c = false
  | _ => True

instance (s : SyncSystem) : ∀ a, Decidable (NotWokenForNothing s a)
  | .step _ _ => inferInstanceAs (Decidable (∀ w ∈ Option.join _, _ = false))
  | .finish .. | .set _ | .reset _ | .release .. | .start .. => .isTrue trivial

/-- The wait was one for object `o` alone, and it succeeded. -/
def Done.succeededOn (o : ℕ) (d : Done) : Bool :=
  match d.wait.call with
  | .single p _ => decide (p = o ∧ d.code = WAIT_OBJECT_0)
  | .multiple .. => false

/-- How many waits for object `o` succeeded. -/
def successes (o : ℕ) (done : List Done) : ℕ := (done.filter (Done.succeededOn o)).length

/-- One for a signal that is there. -/
def KernelObject.charge (x : KernelObject) : ℕ := if x.signalled then 1 else 0

section step

variable {objects objects' : Objects} {c : Chance} {w w' : Waiting} {o timeout code : ℕ}

/-- **A wait for one object that succeeds** found the object signalled, or was woken for nothing. -/
theorem Waiting.step_success (hcall : w.call = .single o timeout)
    (h : w.step objects c = (.returns WAIT_OBJECT_0 w', objects')) :
    ∃ parked, w.pc = .single parked ∧
      ((objects o).wait timeout (startPc c parked)).1 = .answer true ∧
      objects' = Function.update objects o ((objects o).wait timeout (startPc c parked)).2 := by
  rw [step, hcall] at h
  cases hpc : w.pc with
  | single parked =>
    rw [hpc] at h
    change w.stepSingle objects c o timeout parked = _ at h
    refine ⟨parked, rfl, ?_⟩
    rcases hr : ((objects o).wait timeout (startPc c parked)).1 with (_ | _) | _
    · rw [stepSingle_false hr] at h
      cases (StepResult.returns.inj (Prod.mk.inj h).1).1
    · rw [stepSingle_true hr] at h
      exact ⟨rfl, (Prod.mk.inj h).2.symm⟩
    · rw [stepSingle_park hr] at h
      cases (Prod.mk.inj h).1
  | _ =>
    rw [hpc] at h
    cases (Prod.mk.inj h).1

theorem KernelObject.Eats.charge_le {x x' : KernelObject} (h : x.Eats x') : x'.charge ≤ x.charge := by
  rcases h with rfl | h
  · exact le_refl _
  · match x, h with
    | event e, ⟨hs, _⟩ =>
      rw [charge, charge, show (event e).signalled = true from hs, if_pos rfl]
      split_ifs <;> omega
    | semaphore s, ⟨hs, _⟩ =>
      rw [charge, charge, show (semaphore s).signalled = true from decide_eq_true hs, if_pos rfl]
      split_ifs <;> omega

end step

/-- **What holds in a run.** -/
structure WaitInv (s : SyncSystem) : Prop where
  /-- Objects stay what they are. -/
  same : ∀ o, (s.initial o).SameObject (s.objects o)
  /-- Success means that the object was signalled. -/
  seen : ∀ d ∈ s.done, ∀ o timeout, d.wait.call = .single o timeout → d.code = WAIT_OBJECT_0 →
    d.wait.seen = true
  /-- Signals are given away once. -/
  events : ∀ o e, s.initial o = .event e → e.manualReset = false →
    successes o s.done + (s.objects o).charge ≤ (s.initial o).charge + s.sets o

namespace WaitInv

variable {s : SyncSystem}

theorem of_init (h : SyncInit s) : WaitInv s where
  same o := by
    rw [h.1]
    exact .refl _
  seen d hd := by
    rw [h.2.2.1] at hd
    cases hd
  events o e _ _ := by
    rw [h.1, h.2.2.1, show successes o [] = 0 from rfl]
    omega

/-- A change of one object that no wait makes. -/
theorem withObject (h : WaitInv s) {o : ℕ} {x : KernelObject} (hsame : (s.objects o).SameObject x)
    {sets : ℕ → ℕ} (hne : ∀ p, p ≠ o → sets p = s.sets p)
    (hcharge : ∀ e, s.initial o = .event e → x.charge + s.sets o ≤ (s.objects o).charge + sets o)
    (released : ℕ → ℤ) :
    WaitInv { s.withObject o x with sets := sets, released := released } where
  same p := by
    show (s.initial p).SameObject (Function.update s.objects o x p)
    by_cases hp : p = o
    · subst hp
      rw [Function.update_self]
      exact (h.same p).trans hsame
    · rw [Function.update_of_ne hp]
      exact h.same p
  seen := h.seen
  events p e he hm := by
    have hev := h.events p e he hm
    show successes p s.done + (Function.update s.objects o x p).charge ≤
      (s.initial p).charge + sets p
    by_cases hp : p = o
    · subst hp
      have := hcharge e he
      rw [Function.update_self]
      omega
    · rw [Function.update_of_ne hp, hne p hp]
      exact hev

/-- A wait that begins and is not refused. -/
theorem after_goesOn (h : WaitInv s) (t : ℕ) (w : Waiting) : WaitInv (s.after t (.goesOn w)) :=
  ⟨h.same, h.seen, h.events⟩

/-- What the other threads take. -/
theorem eaten (h : WaitInv s) {objects' : Objects} (he : Waiting.Eaten s.objects objects') :
    WaitInv { s with objects := objects' } where
  same o := (h.same o).trans (he o).same
  seen := h.seen
  events o e hi hm := by
    have := h.events o e hi hm
    have := (he o).charge_le
    show successes o s.done + (objects' o).charge ≤ (s.initial o).charge + s.sets o
    omega

/-- A wait for several objects that returns, and one for a single object that does not succeed. -/
theorem returns (h : WaitInv s) (t code : ℕ) (w : Waiting)
    (hw : ∀ o timeout, w.call = .single o timeout → code ≠ WAIT_OBJECT_0) :
    WaitInv (s.after t (.returns code w)) where
  same := h.same
  seen d hd o timeout hc h0 := by
    rcases List.mem_cons.mp hd with rfl | hd
    · exact absurd h0 (hw o timeout hc)
    · exact h.seen d hd o timeout hc h0
  events o e hi hm := by
    have hno : Done.succeededOn o ⟨code, w⟩ = false := by
      rw [Done.succeededOn]
      match hc : w.call with
      | .single p timeout => exact decide_eq_false fun hp => hw p timeout hc hp.2
      | .multiple .. => rfl
    show successes o (⟨code, w⟩ :: s.done) + _ ≤ _
    rw [successes, List.filter_cons_of_neg (by rw [hno]; exact Bool.false_ne_true)]
    exact h.events o e hi hm

/-- **A wait for one object that succeeds.** -/
theorem succeeds (h : WaitInv s) (t : ℕ) {w : Waiting} {o timeout : ℕ} {pc : WaitPc}
    (hcall : w.call = .single o timeout)
    (hans : ((s.objects o).wait timeout pc).1 = .answer true)
    (hsp : ¬KernelObject.Spurious timeout pc (s.objects o)) (hseen : w.seen = true) :
    WaitInv (SyncSystem.after
      { s with objects := Function.update s.objects o ((s.objects o).wait timeout pc).2 } t
      (.returns WAIT_OBJECT_0 w)) where
  same p := (h.same p).trans (Waiting.eaten_update ((s.objects o).eats_wait timeout pc) p).same
  seen d hd p timeout' hc h0 := by
    rcases List.mem_cons.mp hd with rfl | hd
    · exact hseen
    · exact h.seen d hd p timeout' hc h0
  events p e hi hm := by
    change s.initial p = .event e at hi
    have hev := h.events p e hi hm
    show successes p (⟨WAIT_OBJECT_0, w⟩ :: s.done) +
      (Function.update s.objects o ((s.objects o).wait timeout pc).2 p).charge ≤
      (s.initial p).charge + s.sets p
    by_cases hp : p = o
    · subst hp
      have hyes : Done.succeededOn p ⟨WAIT_OBJECT_0, w⟩ = true := by
        show (match w.call with
          | .single q _ => decide (q = p ∧ WAIT_OBJECT_0 = WAIT_OBJECT_0)
          | .multiple .. => false) = true
        rw [hcall]
        exact decide_eq_true ⟨rfl, rfl⟩
      rw [successes, List.filter_cons_of_pos hyes, List.length_cons, Function.update_self]
      change (s.done.filter (Done.succeededOn p)).length + (s.objects p).charge ≤ _ at hev
      -- an auto-reset event: it was signaled and is not any more
      have hsame := h.same p
      rw [hi] at hsame
      match ho : s.objects p with
      | .event ev =>
        rw [ho] at hsame hans hsp hev
        rcases KernelObject.wait_event ev timeout pc with ⟨hs, hw⟩ | ⟨-, -, hspur⟩
        · have h1 : (KernelObject.event ev).charge = 1 := if_pos hs
          have hauto : ev.manualReset = false := (show e.manualReset = ev.manualReset from hsame) ▸ hm
          have h0 : (KernelObject.event ev.consume).charge = 0 := by
            rw [EventObject.consume, hauto]
            rfl
          rw [hw, h0]
          rw [h1] at hev
          exact hev
        · exact absurd (hspur hans) hsp
      | .thread t =>
        rw [ho] at hsame
        cases hsame
      | .semaphore x =>
        rw [ho] at hsame
        cases hsame
    · have hno : Done.succeededOn p ⟨WAIT_OBJECT_0, w⟩ = false := by
        show (match w.call with
          | .single q _ => decide (q = p ∧ WAIT_OBJECT_0 = WAIT_OBJECT_0)
          | .multiple .. => false) = false
        rw [hcall]
        exact decide_eq_false fun hc => hp hc.1.symm
      rw [successes, List.filter_cons_of_neg (by rw [hno]; exact Bool.false_ne_true),
        Function.update_of_ne hp]
      exact hev

/-- **One section of a wait.** -/
theorem step (h : WaitInv s) {t : ℕ} {w : Waiting} (c : Chance)
    (hg : w.wokenForNothing s.objects c = false)
    (hseen : ∀ o timeout, w.call = .single o timeout → (s.objects o).signalled = true →
      w.seen = true) :
    WaitInv (SyncSystem.after { s with objects := (w.step s.objects c).2 } t
      (w.step s.objects c).1) := by
  have hok : Waiting.StepsOk s.objects w (w.step s.objects c) := Waiting.step_ok
  obtain ⟨⟨hcall, hsame⟩, heaten⟩ := hok
  match hr : w.step s.objects c with
  | (.goesOn w', objects') =>
    rw [hr] at heaten
    exact (h.eaten heaten).after_goesOn t w'
  | (.returns code w', objects') =>
    rw [hr] at heaten hcall hsame
    change w'.call = w.call at hcall
    change w'.seen = w.seen at hsame
    by_cases hsucc : code = WAIT_OBJECT_0 ∧ ∃ o timeout, w.call = .single o timeout
    · obtain ⟨rfl, o, timeout, hc⟩ := hsucc
      obtain ⟨parked, hpc, hans, rfl⟩ := Waiting.step_success hc hr
      have hsp : ¬KernelObject.Spurious timeout (Waiting.startPc c parked) (s.objects o) := by
        match parked with
        | true =>
          rw [Waiting.wokenForNothing, hc, hpc] at hg
          exact of_decide_eq_false hg
        | false => exact fun hsp => by cases hsp.1
      refine h.succeeds t (hcall.trans hc) hans hsp (hsame.trans ?_)
      rcases KernelObject.wait_true hans with hs | hs
      · exact hseen o timeout hc hs
      · exact absurd hs hsp
    · exact (h.eaten heaten).returns t code w' fun o timeout hc h0 =>
        hsucc ⟨h0, o, timeout, hcall.symm.trans hc⟩

/-- **Every action keeps the invariant.** -/
theorem next (h : WaitInv s) {a : SyncAction} (hg : NotWokenForNothing s a) :
    WaitInv (s.next a) := by
  have hn : WaitInv s.noticed := ⟨h.same, h.seen, h.events⟩
  cases a with
  | finish o code =>
    show WaitInv (s.noticed.act (.finish o code))
    rw [SyncSystem.act]
    split
    · next t ho =>
      refine hn.withObject (by rw [ho]; exact rfl) (fun _ _ => rfl) (fun e he => ?_) _
      have hs := hn.same o
      rw [ho, he] at hs
      cases hs
    · exact hn
  | set o =>
    show WaitInv (s.noticed.act (.set o))
    rw [SyncSystem.act]
    split
    · next e ho =>
      refine hn.withObject (by rw [ho]; exact rfl) (fun p hp => Function.update_of_ne hp ..)
        (fun _ _ => ?_) _
      rw [Function.update_self, ho]
      cases hs : e.signaled with
      | true => simp [KernelObject.charge, KernelObject.signalled, EventObject.set, hs]
      | false =>
        simp [KernelObject.charge, KernelObject.signalled, EventObject.set, hs, Nat.add_comm]
    · exact hn
  | reset o =>
    show WaitInv (s.noticed.act (.reset o))
    rw [SyncSystem.act]
    split
    · next e ho =>
      refine hn.withObject (by rw [ho]; exact rfl) (fun _ _ => rfl) (fun _ _ => ?_) _
      show 0 + _ ≤ _
      omega
    · exact hn
  | release o n =>
    show WaitInv (s.noticed.act (.release o n))
    rw [SyncSystem.act]
    split
    · next x ho =>
      refine hn.withObject ?_ (fun _ _ => rfl) (fun e he => ?_) _
      · rw [ho, SemaphoreObject.release]
        split_ifs <;> exact rfl
      · have hs := hn.same o
        rw [ho, he] at hs
        cases hs
    · exact hn
  | start t call =>
    show WaitInv (s.noticed.act (.start t call))
    rw [SyncSystem.act]
    split
    · cases call with
      | single o timeout => exact hn.after_goesOn t _
      | multiple targets waitAll timeout =>
        rw [Waiting.begin]
        split_ifs
        · exact hn.returns t _ _ fun o timeout hc => by cases hc
        · exact hn.after_goesOn t _
    · exact hn
  | step t c =>
    show WaitInv (s.noticed.act (.step t c))
    rw [SyncSystem.act]
    split
    · next w ht =>
      obtain ⟨w', hw', rfl⟩ := SyncSystem.getElem?_noticed ht
      refine hn.step c ?_ fun o timeout hc hs => ?_
      · rw [Waiting.wokenForNothing, SyncSystem.notice_call, SyncSystem.notice_pc]
        exact hg w' (by rw [hw']; rfl)
      · exact SyncSystem.notice_seen ((SyncSystem.notice_call _ _).symm.trans hc) hs
    · exact hn

theorem of_reach (h : SyncReach NotWokenForNothing s) : WaitInv s := by
  refine GuardedReach.invariant (I := WaitInv) (fun _ => of_init) ?_ h
  rintro s a s' hi hg rfl
  exact hi.next hg

end WaitInv

/-- **A successful wait consumes a real signal** in every run in which no thread is woken for
nothing while its time is not up: its object was signalled at some step of it, and an auto-reset
event gives away no more signals than it had and was given. -/
theorem wait_consumes_signal {s : SyncSystem} (h : SyncReach NotWokenForNothing s) :
    (∀ d ∈ s.done, ∀ o timeout, d.wait.call = .single o timeout → d.code = WAIT_OBJECT_0 →
      d.wait.seen = true) ∧
    ∀ o e, s.initial o = .event e → e.manualReset = false →
      successes o s.done ≤ (if e.signaled then 1 else 0) + s.sets o := by
  have hi := WaitInv.of_reach h
  refine ⟨hi.seen, fun o e he hm => ?_⟩
  have := hi.events o e he hm
  have hc : (s.initial o).charge = if e.signaled then 1 else 0 := by
    rw [he]
    rfl
  omega

/-! ### Samples -/

/-- One thread, and an event of the given kind that is not signaled. -/
def oneEvent (manualReset : Bool) : SyncSystem where
  objects _ := .event ⟨manualReset, false⟩
  initial _ := .event ⟨manualReset, false⟩
  threads := [none]
  done := []
  released _ := 0
  sets _ := 0

theorem oneEvent_init (manualReset : Bool) : SyncInit (oneEvent manualReset) :=
  ⟨rfl, fun _ hw => List.mem_singleton.mp hw, rfl, fun _ => rfl, fun _ => rfl,
    fun _ _ hx => by cases hx⟩

/-- A thread waits ten milliseconds and is woken; before that the event is set or not. -/
def wokenUp (set : Bool) : List SyncAction :=
  [.start 0 (.single 0 10), .step 0 ⟨false, false, 0⟩] ++ (if set then [.set 0] else []) ++
    [.step 0 ⟨false, false, 0⟩]

/-- A thread that waits for an event is woken when it is set. -/
theorem wait_consumes_signal_set :
    ((wokenUp true).foldl SyncSystem.next (oneEvent false)).done.map Done.code = [WAIT_OBJECT_0] ∧
    (∀ d ∈ ((wokenUp true).foldl SyncSystem.next (oneEvent false)).done, ∀ o timeout,
      d.wait.call = .single o timeout → d.code = WAIT_OBJECT_0 → d.wait.seen = true) ∧
    successes 0 ((wokenUp true).foldl SyncSystem.next (oneEvent false)).done ≤ 1 := by
  have h := wait_consumes_signal
    (.foldl (by decide +kernel) (.init (oneEvent_init false)) : SyncReach NotWokenForNothing
      ((wokenUp true).foldl SyncSystem.next (oneEvent false)))
  exact ⟨by decide +kernel, h.1, h.2 0 ⟨false, false⟩ rfl rfl⟩

/-- **A wake-up for nothing is success.** -/
theorem not_wait_consumes_signal : ¬∀ s, SyncReach (fun _ _ => True) s → ∀ d ∈ s.done,
    ∀ o timeout, d.wait.call = .single o timeout → d.code = WAIT_OBJECT_0 →
      d.wait.seen = true := by
  intro hall
  have hreach : SyncReach (fun _ _ => True)
      ((wokenUp false).foldl SyncSystem.next (oneEvent false)) :=
    .foldl ⟨trivial, trivial, trivial, trivial⟩ (.init (oneEvent_init false))
  have hseen := hall _ hreach ⟨WAIT_OBJECT_0, ⟨.single 0 10, false, .single true, [], false⟩⟩
    (by decide +kernel) 0 10 rfl rfl
  cases hseen

end Wie
