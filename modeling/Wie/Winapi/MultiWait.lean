import Mathlib.Algebra.BigOperators.Group.List.Basic
import Mathlib.Algebra.Order.Ring.Int
import Wie.Winapi.WaitRun

/-!
# Units are conserved

A wait for all of several objects takes them one by one and lets go of the lock in between. When an
object further on has no signal, what it took so far is gone: nothing gives it back. So what is
asked of a run is that this does not happen, and that no wait-all names a semaphore twice, which
costs it two units.

Under that, every unit of a semaphore is accounted for. It is there, or a wait that succeeded has
it, or a wait-all that has not come to its end yet.

## Main definitions

* `TakesWhole` — what is asked
* `satisfied` — the waits that a semaphore satisfied
* `held` — the units of wait-alls under way

## Main results

* `units_conserved` — units are conserved, and a wait that timed out took nothing
* `not_units_conserved` — a wait-all that gives up half way loses them
-/

namespace Wie

/-- A wait-all that has taken something and now finds an object without a signal. -/
def Waiting.tearsApart (objects : Objects) (w : Waiting) : Bool :=
  match w.pc with
  | .all (o :: _) => !w.took.isEmpty && !(objects o).signalled
  | _ => false

/-- A semaphore occurs twice. -/
def namesTwice (objects : Objects) (targets : List ℕ) : Bool :=
  targets.any fun o => (objects o).isSemaphore && decide (1 < targets.count o)

/-- No wait-all names a semaphore twice, or finds an object without a signal when it has taken
something already. -/
def TakesWhole (s : SyncSystem) : SyncAction → Prop
  | .start _ (.multiple targets true _) => namesTwice s.objects targets = false
  | .step t _ => ∀ w ∈ (s.threads[t]?).join, w.tearsApart s.objects = false
  | _ => True

instance (s : SyncSystem) : ∀ a, Decidable (TakesWhole s a)
  | .step _ _ => inferInstanceAs (Decidable (∀ w ∈ Option.join _, _ = false))
  | .start _ (.multiple _ true _) => inferInstanceAs (Decidable (_ = false))
  | .start _ (.multiple _ false _) | .start _ (.single ..) => .isTrue trivial
  | .finish .. | .set _ | .reset _ | .release .. => .isTrue trivial

/-- The wait reported success and semaphore `o` satisfied it: its object, the one whose index it
returned, or one of all. -/
def Done.satisfiedBy (o : ℕ) (d : Done) : Bool :=
  match d.wait.call with
  | .single p _ => decide (p = o ∧ d.code = WAIT_OBJECT_0)
  | .multiple targets true _ => decide (o ∈ targets ∧ d.code = WAIT_OBJECT_0)
  | .multiple targets false _ => decide (targets[d.code]? = some o ∧ d.code < MAXIMUM_WAIT_OBJECTS)

/-- How many waits a semaphore satisfied. -/
def satisfied (o : ℕ) (done : List Done) : ℕ := (done.filter (Done.satisfiedBy o)).length

/-- What a thread has of an object. -/
def holds (o : ℕ) : Option Waiting → ℤ
  | some w => w.took.count o
  | none => 0

/-- The units of an object that waits under way have taken. -/
def held (o : ℕ) (threads : List (Option Waiting)) : ℤ := (threads.map (holds o)).sum

/-! ### One wait -/

/-- What a wait-all may name. -/
def WaitAllOk (objects : Objects) (targets : List ℕ) : Prop :=
  targets.length ≤ MAXIMUM_WAIT_OBJECTS ∧
    ∀ o, (objects o).isSemaphore = true → targets.count o ≤ 1

/-- **What a wait under way has taken**: nothing, except for a wait-all in the middle of an attempt,
which has a unit of each semaphore that it is past. -/
def Waiting.Ok (objects : Objects) (w : Waiting) : Prop :=
  match w.call with
  | .single .. => w.took = []
  | .multiple targets true _ => WaitAllOk objects targets ∧
      match w.pc with
      | .all rest => ∀ o, (objects o).isSemaphore = true →
          w.took.count o + rest.count o = targets.count o
      | .any .. | .first .. => False
      | _ => w.took = []
  | .multiple targets false _ => targets.length ≤ MAXIMUM_WAIT_OBJECTS ∧ w.took = [] ∧
      match w.pc with
      | .any i rest => rest = targets.drop i
      | .threads _ | .all _ => False
      | _ => True

/-- **What a wait that is over has taken**: nothing when it timed out, and only the object whose
index it returns when one was enough. -/
def Done.Ok (d : Done) : Prop :=
  (d.code = WAIT_TIMEOUT → d.wait.took = []) ∧
  ∀ targets timeout, d.wait.call = .multiple targets false timeout →
    ∀ o ∈ d.wait.took, targets[d.code]? = some o

/-- The wait of a step is as it should be. -/
def StepResult.Ok (objects : Objects) : StepResult → Prop
  | .goesOn w => w.Ok objects
  | .returns code w => Done.Ok ⟨code, w⟩

/-- What a wait has of a semaphore after a step, once it is over by the success it reported. -/
def StepResult.holds (o : ℕ) : StepResult → ℤ
  | .goesOn w => w.took.count o
  | .returns code w => if Done.satisfiedBy o ⟨code, w⟩ then 1 else 0

/-- A step accounts for every unit. -/
def Accounts (objects : Objects) (w : Waiting) (r : StepResult × Objects) : Prop :=
  r.1.Ok objects ∧ ∀ o, (objects o).isSemaphore = true →
    (r.2 o).units + r.1.holds o = (objects o).units + w.took.count o

section step

variable {objects : Objects} {c : Chance} {w : Waiting} {o p timeout : ℕ} {ok : Bool}
  {x : KernelObject} {targets rest : List ℕ} {waitAll : Bool}

/-- **What a section takes of a semaphore**, on both sides. -/
theorem Waiting.taking_spec (h : (objects p).Gives ok x) (ho : (objects o).isSemaphore = true) :
    ((w.taking objects p x).took.count o : ℤ) =
        w.took.count o + (if o = p ∧ ok = true then 1 else 0) ∧
      (Function.update objects p x o).units =
        (objects o).units - if o = p ∧ ok = true then 1 else 0 := by
  by_cases hp : o = p
  · subst hp
    have hu := h.2 ho
    rw [Function.update_self, hu]
    show (((if x = objects o then w.took else o :: w.took).count o : ℕ) : ℤ) = _ ∧ _
    match ok with
    | true =>
      have hne : x ≠ objects o := fun he => by
        rw [he, if_pos rfl] at hu
        omega
      rw [if_neg hne, if_pos rfl, if_pos ⟨rfl, rfl⟩, List.count_cons_self]
      exact ⟨by push_cast; rfl, rfl⟩
    | false =>
      have he : x = objects o := h.1.eq_of_units ho (hu.trans (sub_zero _))
      have hno : ¬(o = o ∧ false = true) := fun hc => Bool.false_ne_true hc.2
      rw [if_pos he, if_neg hno, if_neg Bool.false_ne_true]
      exact ⟨(add_zero _).symm, rfl⟩
  · rw [Function.update_of_ne hp, if_neg fun hc => hp hc.1]
    refine ⟨?_, (sub_zero _).symm⟩
    show (((if x = objects p then w.took else p :: w.took).count o : ℕ) : ℤ) = _
    split_ifs
    · exact (add_zero _).symm
    · rw [List.count_cons_of_ne (Ne.symm hp), add_zero]

/-- What a section takes and what the object has lost make up for each other. -/
theorem Waiting.taking_units (h : (objects p).Gives ok x) (ho : (objects o).isSemaphore = true) :
    (Function.update objects p x o).units + ((w.taking objects p x).took.count o : ℤ) =
      (objects o).units + w.took.count o := by
  obtain ⟨h1, h2⟩ := w.taking_spec h ho
  omega

/-- A section takes its own object or nothing. -/
theorem Waiting.mem_taking (h : o ∈ (w.taking objects p x).took) : o = p ∨ o ∈ w.took := by
  change o ∈ (if x = objects p then w.took else p :: w.took) at h
  split_ifs at h
  · exact .inr h
  · exact List.mem_cons.mp h

/-- **A section of a wait for one object** accounts for what it takes. -/
theorem Waiting.stepSingle_accounts (hcall : w.call = .single p timeout) (hok : w.took = [])
    (parked : Bool) : Accounts objects w (w.stepSingle objects c p timeout parked) := by
  have hsat : ∀ code x o, Done.satisfiedBy o ⟨code, w.taking objects p x⟩ =
      decide (p = o ∧ code = WAIT_OBJECT_0) := fun code x o => by
    show (match w.call with
      | .single q _ => decide (q = o ∧ code = WAIT_OBJECT_0)
      | .multiple targets true _ => decide (o ∈ targets ∧ code = WAIT_OBJECT_0)
      | .multiple targets false _ => decide (targets[code]? = some o ∧ code < MAXIMUM_WAIT_OBJECTS))
      = _
    rw [hcall]
  match hr : ((objects p).wait timeout (startPc c parked)).1 with
  | .answer true =>
    have hg := (objects p).gives_wait timeout (startPc c parked)
    rw [hr] at hg
    rw [stepSingle_true hr]
    have hcode : WAIT_OBJECT_0 ≠ WAIT_TIMEOUT := by decide
    refine ⟨⟨fun h => absurd h hcode, fun _ _ hc => ?_⟩, fun o ho => ?_⟩
    · cases hcall.symm.trans hc
    · obtain ⟨-, hu⟩ := w.taking_spec hg ho
      show (Function.update objects p _ o).units + (if Done.satisfiedBy o _ then 1 else 0) = _
      rw [hu, hok, hsat]
      by_cases hp : o = p
      · simp [hp]
      · simp [hp, Ne.symm hp]
  | .answer false =>
    rw [stepSingle_false hr]
    refine ⟨⟨fun _ => hok, fun _ _ hc => ?_⟩, fun o _ => ?_⟩
    · cases hcall.symm.trans hc
    · have hno := hsat WAIT_TIMEOUT (objects p) o
      rw [taking_self] at hno
      show (objects o).units + (if Done.satisfiedBy o _ then 1 else 0) = _
      rw [hno, hok]
      simp [WAIT_TIMEOUT, WAIT_OBJECT_0]
  | .park =>
    rw [stepSingle_park hr]
    refine ⟨?_, fun o _ => rfl⟩
    show Waiting.Ok objects _
    rw [Waiting.Ok]
    simp only [hcall]
    exact hok

theorem Waiting.attempt_ok (hcall : w.call = .multiple targets waitAll timeout)
    (hlen : targets.length ≤ MAXIMUM_WAIT_OBJECTS)
    (hall : waitAll = true → WaitAllOk objects targets) (htook : w.took = []) (again : Bool) :
    Waiting.Ok objects { w.attempt with again := again } ∧ w.attempt.took = [] := by
  rw [attempt]
  cases waitAll with
  | true =>
    simp only [hcall]
    exact ⟨⟨hall rfl, htook⟩, htook⟩
  | false =>
    simp only [hcall]
    exact ⟨⟨hlen, htook, rfl⟩, htook⟩

/-- A wait for several objects that times out and took nothing. -/
theorem Waiting.timeout_accounts (hcall : w.call = .multiple targets waitAll timeout)
    (htook : w.took = []) : Accounts objects w (.returns WAIT_TIMEOUT w, objects) := by
  refine ⟨⟨fun _ => htook, fun _ _ _ p hp => ?_⟩, fun o _ => ?_⟩
  · rw [show Done.wait ⟨WAIT_TIMEOUT, w⟩ = w from rfl, htook] at hp
    cases hp
  · have hno : Done.satisfiedBy o ⟨WAIT_TIMEOUT, w⟩ = false := by
      show (match w.call with
        | .single q _ => decide (q = o ∧ WAIT_TIMEOUT = WAIT_OBJECT_0)
        | .multiple targets true _ => decide (o ∈ targets ∧ WAIT_TIMEOUT = WAIT_OBJECT_0)
        | .multiple targets false _ =>
          decide (targets[WAIT_TIMEOUT]? = some o ∧ WAIT_TIMEOUT < MAXIMUM_WAIT_OBJECTS)) = false
      rw [hcall]
      match waitAll with
      | true => exact decide_eq_false fun h => absurd h.2 (by decide)
      | false => exact decide_eq_false fun h => absurd h.2 (by decide)
    show (objects o).units + (if Done.satisfiedBy o _ then 1 else 0) = _
    rw [hno, htook]
    rfl

/-- A wait for several objects that goes on and took nothing. -/
theorem Waiting.goesOn_accounts {w' : Waiting} (hok : w'.Ok objects) (htook' : w'.took = [])
    (htook : w.took = []) : Accounts objects w (.goesOn w', objects) := by
  refine ⟨hok, fun o _ => ?_⟩
  show (objects o).units + (w'.took.count o : ℤ) = _
  rw [htook', htook]

/-- **An attempt that failed and took nothing.** -/
theorem Waiting.failed_accounts (hcall : w.call = .multiple targets waitAll timeout)
    (hlen : targets.length ≤ MAXIMUM_WAIT_OBJECTS)
    (hall : waitAll = true → WaitAllOk objects targets) (htook : w.took = []) :
    Accounts objects w (w.failed, objects) := by
  have hagain := attempt_ok hcall hlen hall htook true
  rw [failed]
  split_ifs
  · refine goesOn_accounts ?_ htook htook
    rw [Ok]
    cases waitAll with
    | true =>
      simp only [hcall]
      exact ⟨hall rfl, htook⟩
    | false =>
      simp only [hcall]
      exact ⟨hlen, htook, trivial⟩
  · split
    · exact timeout_accounts hcall htook
    · exact goesOn_accounts hagain.1 hagain.2 htook

/-- The look at the clock. -/
theorem Waiting.stepDeadline_accounts (hcall : w.call = .multiple targets waitAll timeout)
    (hlen : targets.length ≤ MAXIMUM_WAIT_OBJECTS)
    (hall : waitAll = true → WaitAllOk objects targets) (htook : w.took = []) :
    Accounts objects w (w.stepDeadline c waitAll timeout, objects) := by
  have hagain := attempt_ok hcall hlen hall htook w.attempt.again
  rw [stepDeadline]
  split_ifs with hexp hwait
  · exact timeout_accounts hcall htook
  · exact goesOn_accounts hagain.1 hagain.2 htook
  · refine goesOn_accounts ?_ htook htook
    rw [Bool.not_eq_true] at hwait
    subst hwait
    rw [Ok]
    simp only [hcall]
    exact ⟨hlen, htook, trivial⟩

/-- **Wait-all looks at its threads.** -/
theorem Waiting.stepThreads_accounts (hcall : w.call = .multiple targets true timeout)
    (hall : WaitAllOk objects targets) (htook : w.took = []) (rest : List ℕ) :
    Accounts objects w (w.stepThreads objects targets rest, objects) := by
  have hgo : ∀ rest', Accounts objects w (.goesOn { w with pc := .threads rest' }, objects) :=
    fun rest' => by
      refine goesOn_accounts ?_ htook htook
      rw [Ok]
      simp only [hcall]
      exact ⟨hall, htook⟩
  match rest with
  | [] =>
    refine goesOn_accounts ?_ htook htook
    rw [Ok]
    simp only [hcall]
    refine ⟨hall, fun o _ => ?_⟩
    rw [htook, List.count_nil, Nat.zero_add]
  | p :: rest =>
    rw [stepThreads]
    split
    · split_ifs
      · exact hgo rest
      · exact failed_accounts hcall hall.1 (fun _ => hall) htook
    · exact hgo rest

/-- **Wait-all takes its objects.** -/
theorem Waiting.stepAll_accounts (hcall : w.call = .multiple targets true timeout)
    (hall : WaitAllOk objects targets) (hpc : w.pc = .all rest)
    (hcount : ∀ o, (objects o).isSemaphore = true → w.took.count o + rest.count o = targets.count o)
    (hwhole : w.tearsApart objects = false) :
    Accounts objects w (w.stepAll objects rest) := by
  match rest with
  | [] =>
    have hcode : WAIT_OBJECT_0 ≠ WAIT_TIMEOUT := by decide
    refine ⟨⟨fun h => absurd h hcode, fun _ _ hc => ?_⟩, fun o ho => ?_⟩
    · cases hcall.symm.trans hc
    · have hone := hall.2 o ho
      have hc := hcount o ho
      rw [List.count_nil, Nat.add_zero] at hc
      have hsat : Done.satisfiedBy o ⟨WAIT_OBJECT_0, w⟩ = decide (o ∈ targets) := by
        show (match w.call with
          | .single q _ => decide (q = o ∧ WAIT_OBJECT_0 = WAIT_OBJECT_0)
          | .multiple targets true _ => decide (o ∈ targets ∧ WAIT_OBJECT_0 = WAIT_OBJECT_0)
          | .multiple targets false _ =>
            decide (targets[WAIT_OBJECT_0]? = some o ∧ WAIT_OBJECT_0 < MAXIMUM_WAIT_OBJECTS)) = _
        rw [hcall]
        simp only [and_true]
      show (objects o).units + (if Done.satisfiedBy o _ then 1 else 0) = _
      rw [hsat, hc]
      by_cases hm : o ∈ targets
      · have := List.count_pos_iff.mpr hm
        rw [if_pos (decide_eq_true hm), show targets.count o = 1 by omega]
        rfl
      · rw [List.count_eq_zero.mpr hm, if_neg (by simpa using hm)]
        rfl
  | p :: rest =>
    match hs : (objects p).signalled with
    | true =>
      have hg := (objects p).gives_tryWait
      rw [KernelObject.tryWait_fst, hs] at hg
      rw [stepAll_true hs]
      refine ⟨?_, fun o ho => taking_units hg ho⟩
      show Ok objects _
      rw [Ok]
      simp only [show (w.taking objects p (objects p).tryWait.2).call = _ from hcall]
      refine ⟨hall, fun o ho => ?_⟩
      have hc := hcount o ho
      obtain ⟨ht, -⟩ := w.taking_spec hg ho
      rw [List.count_cons] at hc
      by_cases hp : o = p
      · subst hp
        rw [if_pos ⟨rfl, rfl⟩] at ht
        rw [beq_self_eq_true, if_pos rfl] at hc
        omega
      · rw [if_neg fun h => hp h.1] at ht
        rw [if_neg (by simpa using Ne.symm hp)] at hc
        omega
    | false =>
      have htook : w.took = [] := by
        rw [tearsApart, hpc] at hwhole
        simpa [hs] using hwhole
      rw [stepAll_false hs]
      exact failed_accounts hcall hall.1 (fun _ => hall) htook

/-- **Wait-any that takes an object** returns its index. -/
theorem Waiting.any_accounts (hcall : w.call = .multiple targets false timeout)
    (htook : w.took = []) {i : ℕ} (hi : i < MAXIMUM_WAIT_OBJECTS) (hp : targets[i]? = some p)
    (hg : (objects p).Gives true x) :
    Accounts objects w (.returns (WAIT_OBJECT_0 + i) (w.taking objects p x),
      Function.update objects p x) := by
  have hcode : WAIT_OBJECT_0 + i = i := Nat.zero_add i
  rw [hcode]
  refine ⟨⟨fun h => ?_, fun targets' timeout' hc q hq => ?_⟩, fun o ho => ?_⟩
  · have h258 : i = 0x102 := h
    have h64 : i < 64 := hi
    omega
  · obtain ⟨rfl, -⟩ := Call.multiple.inj (hcall.symm.trans hc)
    rcases mem_taking hq with rfl | hq
    · exact hp
    · rw [htook] at hq
      cases hq
  · have hsat : Done.satisfiedBy o ⟨i, w.taking objects p x⟩ = decide (p = o) := by
      show (match w.call with
        | .single q _ => decide (q = o ∧ i = WAIT_OBJECT_0)
        | .multiple targets true _ => decide (o ∈ targets ∧ i = WAIT_OBJECT_0)
        | .multiple targets false _ =>
          decide (targets[i]? = some o ∧ i < MAXIMUM_WAIT_OBJECTS)) = _
      rw [hcall]
      simp only [hp, hi, and_true, Option.some.injEq]
    obtain ⟨-, hu⟩ := w.taking_spec hg ho
    show (Function.update objects p _ o).units + (if Done.satisfiedBy o _ then 1 else 0) = _
    rw [hu, htook, hsat]
    by_cases hpo : o = p
    · simp [hpo]
    · simp [hpo, Ne.symm hpo]

/-- **Wait-any tries its objects.** -/
theorem Waiting.stepAny_accounts (hcall : w.call = .multiple targets false timeout)
    (hlen : targets.length ≤ MAXIMUM_WAIT_OBJECTS) (htook : w.took = []) {i : ℕ}
    (hrest : rest = targets.drop i) : Accounts objects w (w.stepAny objects i rest) := by
  match rest with
  | [] => exact failed_accounts hcall hlen (fun h => by cases h) htook
  | p :: rest =>
    match hs : (objects p).signalled with
    | true =>
      have hg := (objects p).gives_tryWait
      rw [KernelObject.tryWait_fst, hs] at hg
      have hp : targets[i]? = some p := by
        rw [show targets[i]? = (targets.drop i)[0]? by rw [List.getElem?_drop, Nat.add_zero],
          ← hrest]
        rfl
      rw [stepAny_true hs]
      refine any_accounts hcall htook ?_ hp hg
      exact lt_of_lt_of_le (List.getElem?_eq_some_iff.mp hp).1 hlen
    | false =>
      rw [stepAny_false hs]
      refine goesOn_accounts ?_ htook htook
      rw [Ok]
      simp only [hcall]
      refine ⟨hlen, htook, ?_⟩
      rw [← List.tail_drop, ← hrest]
      rfl

/-- **Wait-any waits for its first object.** -/
theorem Waiting.stepFirst_accounts (hcall : w.call = .multiple targets false timeout)
    (hlen : targets.length ≤ MAXIMUM_WAIT_OBJECTS) (htook : w.took = []) (slice : ℕ)
    (parked : Bool) : Accounts objects w (w.stepFirst objects c slice parked targets) := by
  match htargets : targets with
  | [] =>
    have hcode : WAIT_FAILED ≠ WAIT_TIMEOUT := by decide
    refine ⟨⟨fun h => absurd h hcode, fun _ _ _ q hq => ?_⟩, fun o _ => ?_⟩
    · rw [show Done.wait ⟨WAIT_FAILED, w⟩ = w from rfl, htook] at hq
      cases hq
    · have hno : Done.satisfiedBy o ⟨WAIT_FAILED, w⟩ = false := by
        show (match w.call with
          | .single q _ => decide (q = o ∧ WAIT_FAILED = WAIT_OBJECT_0)
          | .multiple targets true _ => decide (o ∈ targets ∧ WAIT_FAILED = WAIT_OBJECT_0)
          | .multiple targets false _ =>
            decide (targets[WAIT_FAILED]? = some o ∧ WAIT_FAILED < MAXIMUM_WAIT_OBJECTS)) = _
        rw [hcall]
        exact decide_eq_false fun h => absurd h.2 (by decide)
      show (objects o).units + (if Done.satisfiedBy o _ then 1 else 0) = _
      rw [hno, htook]
      rfl
  | p :: rest =>
    match hr : ((objects p).wait slice (startPc c parked)).1 with
    | .answer true =>
      have hg := (objects p).gives_wait slice (startPc c parked)
      rw [hr] at hg
      rw [stepFirst_true hr]
      exact any_accounts (i := 0) hcall htook (by decide) rfl hg
    | .answer false =>
      have hagain : Ok objects { w.attempt with again := w.attempt.again } ∧ _ :=
        attempt_ok hcall hlen (fun h => by cases h) htook _
      rw [stepFirst_false hr]
      exact goesOn_accounts hagain.1 hagain.2 htook
    | .park =>
      rw [stepFirst_park hr]
      refine goesOn_accounts ?_ htook htook
      rw [Ok]
      simp only [hcall]
      exact ⟨hlen, htook, trivial⟩

/-- **Every section accounts for what it takes.** -/
theorem Waiting.step_accounts (hok : w.Ok objects) (hwhole : w.tearsApart objects = false) :
    Accounts objects w (w.step objects c) := by
  have hstay : Accounts objects w (.goesOn w, objects) := ⟨hok, fun _ _ => rfl⟩
  cases hcall : w.call with
  | single p timeout =>
    have htook : w.took = [] := by
      rw [Ok, hcall] at hok
      exact hok
    cases hpc : w.pc with
    | single parked =>
      rw [step, hcall, hpc]
      exact stepSingle_accounts hcall htook parked
    | _ =>
      rw [step, hcall, hpc]
      exact hstay
  | multiple targets waitAll timeout =>
    cases waitAll with
    | true =>
      rw [Ok, hcall] at hok
      obtain ⟨hall, hok⟩ := hok
      rw [step, hcall]
      show Accounts objects w (w.stepMultiple objects c targets true timeout)
      rw [stepMultiple]
      cases hpc : w.pc with
      | threads rest =>
        rw [hpc] at hok
        exact stepThreads_accounts hcall hall hok rest
      | all rest =>
        rw [hpc] at hok
        exact stepAll_accounts hcall hall hpc hok hwhole
      | any i rest =>
        rw [hpc] at hok
        exact hok.elim
      | deadline =>
        rw [hpc] at hok
        exact stepDeadline_accounts hcall hall.1 (fun _ => hall) hok
      | first slice parked =>
        rw [hpc] at hok
        exact hok.elim
      | single parked => exact hstay
    | false =>
      rw [Ok, hcall] at hok
      obtain ⟨hlen, htook, hok⟩ := hok
      rw [step, hcall]
      show Accounts objects w (w.stepMultiple objects c targets false timeout)
      rw [stepMultiple]
      cases hpc : w.pc with
      | threads rest =>
        rw [hpc] at hok
        exact hok.elim
      | all rest =>
        rw [hpc] at hok
        exact hok.elim
      | any i rest =>
        rw [hpc] at hok
        exact stepAny_accounts hcall hlen htook hok
      | deadline => exact stepDeadline_accounts hcall hlen (fun h => by cases h) htook
      | first slice parked => exact stepFirst_accounts hcall hlen htook slice parked
      | single parked => exact hstay

end step

/-! ### Runs -/

/-- **What holds in a run.** -/
structure UnitInv (s : SyncSystem) : Prop where
  /-- Objects stay what they are. -/
  same : ∀ o, (s.initial o).SameObject (s.objects o)
  /-- Counts stay in their bounds. -/
  bounds : ∀ o x, s.objects o = .semaphore x → 0 ≤ x.count ∧ x.count ≤ x.maximum
  /-- Units are accounted for. -/
  units : ∀ o, (s.objects o).isSemaphore = true → (s.initial o).units + s.released o =
    (s.objects o).units + satisfied o s.done + held o s.threads
  /-- Waits under way. -/
  waits : ∀ w, some w ∈ s.threads → w.Ok s.objects
  /-- Waits that are over. -/
  done : ∀ d ∈ s.done, d.Ok

theorem Waiting.Ok.congr {objects objects' : Objects} {w : Waiting}
    (h : ∀ o, (objects' o).isSemaphore = (objects o).isSemaphore) (hok : w.Ok objects) :
    w.Ok objects' := by
  have hall : ∀ targets, WaitAllOk objects targets → WaitAllOk objects' targets :=
    fun _ ha => ⟨ha.1, fun o ho => ha.2 o ((h o).symm.trans ho)⟩
  rw [Ok] at hok ⊢
  split at hok
  · exact hok
  · refine ⟨hall _ hok.1, ?_⟩
    have hpc := hok.2
    split at hpc
    · exact fun o ho => hpc o ((h o).symm.trans ho)
    · exact hpc
    · exact hpc
    · exact hpc
  · exact hok

namespace UnitInv

variable {s : SyncSystem}

theorem of_init (h : SyncInit s) : UnitInv s := by
  obtain ⟨hobj, hidle, hdone, hrel, -, hsem⟩ := h
  have hheld : ∀ o, held o s.threads = 0 := fun o => by
    refine List.sum_eq_zero fun v hv => ?_
    obtain ⟨w, hw, rfl⟩ := List.mem_map.mp hv
    rw [hidle w hw]
    rfl
  exact
    { same := fun o => by
        rw [hobj]
        exact .refl _
      bounds := fun o x hx => by
        obtain ⟨i, m, rfl⟩ := hsem o x (hobj ▸ hx)
        show 0 ≤ max 0 (min i (max m 0)) ∧ max 0 (min i (max m 0)) ≤ max m 1
        omega
      units := fun o _ => by
        rw [hobj, hdone, hrel, hheld, show satisfied o [] = 0 from rfl]
        simp
      waits := fun w hw => by cases hidle _ hw
      done := fun d hd => by
        rw [hdone] at hd
        cases hd }

/-- Noticing a signal takes nothing. -/
theorem noticed (h : UnitInv s) : UnitInv s.noticed where
  same := h.same
  bounds := h.bounds
  units o ho := by
    have hheld : held o s.noticed.threads = held o s.threads := by
      show ((s.threads.map _).map (holds o)).sum = _
      rw [List.map_map]
      refine congrArg List.sum (List.map_congr_left fun w _ => ?_)
      match w with
      | none => rfl
      | some w => exact congrArg (fun l => ((List.count o l : ℕ) : ℤ)) (SyncSystem.notice_took _ w)
    rw [hheld]
    exact h.units o ho
  waits w hw := by
    obtain ⟨w', hw', he⟩ := List.mem_map.mp hw
    match w', hw', he with
    | some w', hw', he =>
      obtain rfl := Option.some.inj he
      have hok := h.waits w' hw'
      rw [Waiting.Ok] at hok ⊢
      rw [SyncSystem.notice_call, SyncSystem.notice_pc, SyncSystem.notice_took]
      exact hok
  done := h.done

/-- A thread that goes from one wait to another. -/
theorem held_set {threads : List (Option Waiting)} {t : ℕ} {old : Option Waiting}
    (ht : threads[t]? = some old) (o : ℕ) (new : Option Waiting) :
    held o (threads.set t new) = held o threads - holds o old + holds o new := by
  obtain ⟨hlt, hold⟩ := List.getElem?_eq_some_iff.mp ht
  have hlt' : t < (threads.map (holds o)).length := by rwa [List.length_map]
  rw [held, List.map_set, List.sum_set', dif_pos hlt', List.getElem_map, hold, held]
  omega

theorem satisfied_cons (o : ℕ) (d : Done) (done : List Done) :
    (satisfied o (d :: done) : ℤ) = satisfied o done + if Done.satisfiedBy o d then 1 else 0 := by
  rw [satisfied, satisfied]
  by_cases hd : Done.satisfiedBy o d = true
  · rw [List.filter_cons_of_pos hd, List.length_cons, if_pos hd]
    push_cast
    rfl
  · rw [List.filter_cons_of_neg hd, if_neg hd, add_zero]

/-- **A step of one wait**, in the system. -/
theorem after (h : UnitInv s) {t : ℕ} {old : Option Waiting} {objects' : Objects} {r : StepResult}
    (ht : s.threads[t]? = some old) (he : Waiting.Eaten s.objects objects')
    (hok : r.Ok s.objects) (hu : ∀ o, (s.objects o).isSemaphore = true →
      (objects' o).units + r.holds o = (s.objects o).units + holds o old) :
    UnitInv (SyncSystem.after { s with objects := objects' } t r) := by
  have hkind : ∀ o, (objects' o).isSemaphore = (s.objects o).isSemaphore :=
    fun o => (he o).same.isSemaphore_eq
  have hbounds : ∀ o x, objects' o = .semaphore x → 0 ≤ x.count ∧ x.count ≤ x.maximum := by
    intro o x hx
    rcases he o with heq | heat
    · exact h.bounds o x (heq ▸ hx)
    · match ho : s.objects o with
      | .semaphore y =>
        rw [ho] at heat
        obtain ⟨hpos, hy⟩ := heat
        obtain ⟨-, hmax⟩ := h.bounds o y ho
        obtain rfl := KernelObject.semaphore.inj (hy.symm.trans hx)
        show 0 ≤ y.count - 1 ∧ y.count - 1 ≤ y.maximum
        omega
      | .event e =>
        rw [ho] at heat
        cases heat.2.symm.trans hx
      | .thread t =>
        rw [ho] at heat
        exact heat.elim
  have hwaits : ∀ v, (∀ w, v = some w → w.Ok s.objects) →
      ∀ w, some w ∈ s.threads.set t v → w.Ok objects' := by
    intro v hv w hw
    refine Waiting.Ok.congr hkind ?_
    rcases List.mem_or_eq_of_mem_set hw with hm | heq
    · exact h.waits w hm
    · exact hv w heq.symm
  match r with
  | .goesOn w =>
    exact
      { same := fun o => (h.same o).trans (he o).same
        bounds := hbounds
        units := fun o ho => by
          have ho' := (hkind o).symm.trans ho
          have h1 := h.units o ho'
          have h2 := hu o ho'
          have h3 := held_set ht o (some w)
          show (s.initial o).units + s.released o = (objects' o).units + satisfied o s.done +
            held o (s.threads.set t (some w))
          change (objects' o).units + (w.took.count o : ℤ) = _ at h2
          change held o (s.threads.set t (some w)) = _ - _ + (w.took.count o : ℤ) at h3
          omega
        waits := hwaits (some w) fun w' hw' => by
          obtain rfl := Option.some.inj hw'
          exact hok
        done := h.done }
  | .returns code w =>
    exact
      { same := fun o => (h.same o).trans (he o).same
        bounds := hbounds
        units := fun o ho => by
          have ho' := (hkind o).symm.trans ho
          have h1 := h.units o ho'
          have h2 := hu o ho'
          have h3 := held_set ht o none
          have h4 := satisfied_cons o ⟨code, w⟩ s.done
          show (s.initial o).units + s.released o = (objects' o).units +
            satisfied o (⟨code, w⟩ :: s.done) + held o (s.threads.set t none)
          change (objects' o).units + (if Done.satisfiedBy o ⟨code, w⟩ then 1 else 0) = _ at h2
          change held o (s.threads.set t none) = _ - _ + 0 at h3
          omega
        waits := hwaits none fun w' hw' => by cases hw'
        done := fun d hd => by
          rcases List.mem_cons.mp hd with rfl | hd
          · exact hok
          · exact h.done d hd }

/-- A change of one object that no wait makes. -/
theorem withObject (h : UnitInv s) {o : ℕ} {x : KernelObject} (hsame : (s.objects o).SameObject x)
    (hb : ∀ y, x = .semaphore y → 0 ≤ y.count ∧ y.count ≤ y.maximum) (sets : ℕ → ℕ)
    {released : ℕ → ℤ} (hne : ∀ p, p ≠ o → released p = s.released p)
    (hu : (s.objects o).isSemaphore = true →
      x.units - released o = (s.objects o).units - s.released o) :
    UnitInv { s.withObject o x with sets := sets, released := released } := by
  have hkind : ∀ p, (Function.update s.objects o x p).isSemaphore = (s.objects p).isSemaphore := by
    intro p
    by_cases hp : p = o
    · subst hp
      rw [Function.update_self]
      exact hsame.isSemaphore_eq
    · rw [Function.update_of_ne hp]
  exact
    { same := fun p => by
        show (s.initial p).SameObject (Function.update s.objects o x p)
        by_cases hp : p = o
        · subst hp
          rw [Function.update_self]
          exact (h.same p).trans hsame
        · rw [Function.update_of_ne hp]
          exact h.same p
      bounds := fun p y hy => by
        change Function.update s.objects o x p = _ at hy
        by_cases hp : p = o
        · subst hp
          rw [Function.update_self] at hy
          exact hb y hy
        · rw [Function.update_of_ne hp] at hy
          exact h.bounds p y hy
      units := fun p hs => by
        have hs' := (hkind p).symm.trans hs
        have h1 := h.units p hs'
        show (s.initial p).units + released p = (Function.update s.objects o x p).units +
          satisfied p s.done + held p s.threads
        by_cases hp : p = o
        · subst hp
          have := hu hs'
          rw [Function.update_self]
          omega
        · rw [Function.update_of_ne hp, hne p hp]
          exact h1
      waits := fun w hw => (h.waits w hw).congr hkind
      done := h.done }

/-- **A release** adds what it says, or nothing. -/
theorem release_spec {x : SemaphoreObject} (n : ℤ) (h0 : 0 ≤ x.count) (h1 : x.count ≤ x.maximum) :
    (x.release n).2.count = x.count + (if (x.release n).1.isSome then n else 0) ∧
    (x.release n).2.maximum = x.maximum ∧ 0 ≤ (x.release n).2.count ∧
    (x.release n).2.count ≤ x.maximum := by
  have hrefused : x.count = x.count + (if (none : Option ℤ).isSome then n else 0) ∧
      x.maximum = x.maximum ∧ 0 ≤ x.count ∧ x.count ≤ x.maximum :=
    ⟨(add_zero _).symm, rfl, h0, h1⟩
  rw [SemaphoreObject.release]
  by_cases hn : n ≤ 0
  · rw [if_pos hn]
    exact hrefused
  · rw [if_neg hn]
    by_cases hov : 2 ^ 31 ≤ x.count + n
    · rw [if_pos hov]
      exact hrefused
    · rw [if_neg hov]
      by_cases hmax : x.maximum < x.count + n
      · rw [if_pos hmax]
        exact hrefused
      · rw [if_neg hmax]
        exact ⟨rfl, rfl, by show 0 ≤ x.count + n; omega, not_lt.mp hmax⟩

/-- A wait that begins has taken nothing. -/
theorem start (h : UnitInv s) {t : ℕ} (ht : s.threads[t]? = some none) (call : Call)
    (hg : ∀ targets timeout, call = .multiple targets true timeout →
      namesTwice s.objects targets = false) : UnitInv (s.after t (Waiting.begin call)) := by
  have hgo : ∀ w : Waiting, w.Ok s.objects → w.took = [] → UnitInv (s.after t (.goesOn w)) :=
    fun w hok htook => h.after ht Waiting.eaten_refl hok fun o _ => by
      show (s.objects o).units + (w.took.count o : ℤ) = _
      rw [htook]
      rfl
  match call with
  | .single o timeout => exact hgo _ rfl rfl
  | .multiple targets waitAll timeout =>
    rw [Waiting.begin]
    split_ifs with hbad
    · refine h.after (r := .returns WAIT_FAILED _) ht Waiting.eaten_refl ⟨fun _ => rfl, ?_⟩ ?_
      · intro _ _ _ o ho
        cases ho
      · intro o _
        have hcode : WAIT_FAILED ≠ WAIT_OBJECT_0 := by decide
        have hbig : ¬WAIT_FAILED < MAXIMUM_WAIT_OBJECTS := by decide
        have hno : Done.satisfiedBy o
            ⟨WAIT_FAILED, ⟨.multiple targets waitAll timeout, false, .deadline, [], false⟩⟩ =
              false := by
          match waitAll with
          | true => exact decide_eq_false fun h => hcode h.2
          | false => exact decide_eq_false fun h => hbig h.2
        show (s.objects o).units + (if Done.satisfiedBy o _ then 1 else 0) = _
        rw [hno]
        rfl
    · have hlen : targets.length ≤ MAXIMUM_WAIT_OBJECTS := not_lt.mp fun hlt => hbad (.inr hlt)
      have hall : waitAll = true → WaitAllOk s.objects targets := by
        rintro rfl
        refine ⟨hlen, fun o ho => ?_⟩
        by_contra hlt
        have hm : o ∈ targets := List.count_pos_iff.mp (by omega)
        have hnone := List.any_eq_false.mp (hg targets timeout rfl) o hm
        rw [ho, Bool.true_and] at hnone
        exact hnone (decide_eq_true (not_le.mp hlt))
      have hok : Waiting.Ok s.objects { Waiting.attempt
          ⟨.multiple targets waitAll timeout, false, .deadline, [], false⟩ with
          again := false } ∧ _ := Waiting.attempt_ok rfl hlen hall rfl false
      have heq : ({ Waiting.attempt
          ⟨.multiple targets waitAll timeout, false, .deadline, [], false⟩ with
          again := false } : Waiting) = Waiting.attempt
          ⟨.multiple targets waitAll timeout, false, .deadline, [], false⟩ := by
        match waitAll with
        | true => rfl
        | false => rfl
      rw [heq] at hok
      exact hgo _ hok.1 hok.2

/-- **Every action keeps the invariant.** -/
theorem next (h : UnitInv s) {a : SyncAction} (hg : TakesWhole s a) : UnitInv (s.next a) := by
  have hn := h.noticed
  match a with
  | .finish o code =>
    show UnitInv (s.noticed.act (.finish o code))
    rw [SyncSystem.act]
    split
    · next t ho =>
      exact hn.withObject (by rw [ho]; exact rfl) (fun _ hy => by cases hy) _ (fun _ _ => rfl)
        fun hs => by rw [ho] at hs; cases hs
    · exact hn
  | .set o =>
    show UnitInv (s.noticed.act (.set o))
    rw [SyncSystem.act]
    split
    · next e ho =>
      exact hn.withObject (by rw [ho]; exact rfl) (fun _ hy => by cases hy) _ (fun _ _ => rfl)
        fun hs => by rw [ho] at hs; cases hs
    · exact hn
  | .reset o =>
    show UnitInv (s.noticed.act (.reset o))
    rw [SyncSystem.act]
    split
    · next e ho =>
      exact hn.withObject (by rw [ho]; exact rfl) (fun _ hy => by cases hy) _ (fun _ _ => rfl)
        fun hs => by rw [ho] at hs; cases hs
    · exact hn
  | .release o n =>
    show UnitInv (s.noticed.act (.release o n))
    rw [SyncSystem.act]
    split
    · next x ho =>
      obtain ⟨h0, h1⟩ := hn.bounds o x ho
      obtain ⟨hc, hm, hlo, hhi⟩ := release_spec n h0 h1
      refine hn.withObject ?_ (fun y hy => ?_) _ (fun p hp => Function.update_of_ne hp ..)
        fun _ => ?_
      · rw [ho]
        exact hm.symm
      · obtain rfl := KernelObject.semaphore.inj hy
        exact ⟨hlo, hm.symm ▸ hhi⟩
      · rw [Function.update_self, ho]
        show (x.release n).2.count - _ = x.count - _
        rw [hc]
        omega
    · exact hn
  | .start t call =>
    show UnitInv (s.noticed.act (.start t call))
    rw [SyncSystem.act]
    split
    · next ht =>
      refine hn.start ht call fun targets timeout hc => ?_
      subst hc
      exact hg
    · exact hn
  | .step t c =>
    show UnitInv (s.noticed.act (.step t c))
    rw [SyncSystem.act]
    split
    · next w ht =>
      obtain ⟨w', hw', rfl⟩ := SyncSystem.getElem?_noticed ht
      have hok := hn.waits _ (List.mem_of_getElem? ht)
      have hwhole : (SyncSystem.notice s.objects w').tearsApart s.objects = false := by
        rw [Waiting.tearsApart, SyncSystem.notice_pc, SyncSystem.notice_took]
        exact hg w' (by rw [hw']; rfl)
      obtain ⟨hr, hu⟩ := Waiting.step_accounts (c := c) hok hwhole
      exact hn.after ht Waiting.step_ok.2 hr hu
    · exact hn

theorem of_reach (h : SyncReach TakesWhole s) : UnitInv s := by
  refine GuardedReach.invariant (I := UnitInv) (fun _ => of_init) ?_ h
  rintro s a s' hi hg rfl
  exact hi.next hg

end UnitInv

/-- **Units are conserved** in every run in which no wait-all names a semaphore twice or finds an
object without a signal when it has taken something already: counts stay between zero and the
maximum, every unit is there, or with a wait that the semaphore satisfied, or with a wait-all in the
middle of an attempt, a wait that timed out has taken nothing, and a wait-any has taken nothing but
the object whose index it returns. -/
theorem units_conserved {s : SyncSystem} (h : SyncReach TakesWhole s) :
    (∀ o x, s.objects o = .semaphore x → 0 ≤ x.count ∧ x.count ≤ x.maximum) ∧
    (∀ o x y, s.initial o = .semaphore x → s.objects o = .semaphore y →
      x.count + s.released o = y.count + satisfied o s.done + held o s.threads) ∧
    (∀ w, some w ∈ s.threads → w.took ≠ [] → ∃ targets timeout rest,
      w.call = .multiple targets true timeout ∧ w.pc = .all rest) ∧
    (∀ d ∈ s.done, d.code = WAIT_TIMEOUT → d.wait.took = []) ∧
    ∀ d ∈ s.done, ∀ targets timeout, d.wait.call = .multiple targets false timeout →
      ∀ o ∈ d.wait.took, targets[d.code]? = some o := by
  have hi := UnitInv.of_reach h
  refine ⟨hi.bounds, fun o x y hx hy => ?_, fun w hw hne => ?_, fun d hd => (hi.done d hd).1,
    fun d hd => (hi.done d hd).2⟩
  · have hu := hi.units o (by rw [hy]; rfl)
    rw [hx, hy] at hu
    exact hu
  · have hok := hi.waits w hw
    rw [Waiting.Ok] at hok
    split at hok
    · exact absurd hok hne
    · next targets timeout hc =>
      have hpc := hok.2
      split at hpc
      · next rest hp => exact ⟨targets, timeout, rest, hc, hp⟩
      · exact hpc.elim
      · exact hpc.elim
      · exact absurd hpc hne
    · exact absurd hok.2.1 hne

/-! ### Samples -/

/-- Two semaphores with the given counts, and one thread. -/
def twoSemaphores (i j : ℤ) : SyncSystem where
  objects o := .semaphore (SemaphoreObject.register (if o = 0 then i else j) 1)
  initial o := .semaphore (SemaphoreObject.register (if o = 0 then i else j) 1)
  threads := [none]
  done := []
  released _ := 0
  sets _ := 0

theorem twoSemaphores_init (i j : ℤ) : SyncInit (twoSemaphores i j) :=
  ⟨rfl, fun _ hw => List.mem_singleton.mp hw, rfl, fun _ => rfl, fun _ => rfl,
    fun _ _ hx => ⟨_, _, (KernelObject.semaphore.inj hx).symm⟩⟩

/-- A wait for both, without a timeout. -/
def waitBoth : List SyncAction :=
  .start 0 (.multiple [0, 1] true 0) :: List.replicate 6 (.step 0 ⟨false, false, 0⟩)

/-- Both have a unit, and the wait takes both. -/
theorem units_conserved_both :
    (1 : ℤ) + 0 = 0 + satisfied 0 (waitBoth.foldl SyncSystem.next (twoSemaphores 1 1)).done +
      held 0 (waitBoth.foldl SyncSystem.next (twoSemaphores 1 1)).threads ∧
    satisfied 0 (waitBoth.foldl SyncSystem.next (twoSemaphores 1 1)).done = 1 := by
  have h := units_conserved
    (.foldl (by decide +kernel) (.init (twoSemaphores_init 1 1)) : SyncReach TakesWhole
      (waitBoth.foldl SyncSystem.next (twoSemaphores 1 1)))
  have h1 := h.2.1 0 ⟨1, 1⟩ ⟨1, 0⟩ (by decide +kernel) (by decide +kernel)
  exact ⟨h1, by decide +kernel⟩

/-- **A wait-all that gives up half way loses a unit**: the first semaphore has one and the second
has none. -/
theorem not_units_conserved : ¬∀ s, SyncReach (fun _ _ => True) s →
    (∀ o x y, s.initial o = .semaphore x → s.objects o = .semaphore y →
      x.count + s.released o = y.count + satisfied o s.done + held o s.threads) ∧
    ∀ d ∈ s.done, d.code = WAIT_TIMEOUT → d.wait.took = [] := by
  intro hall
  have hreach : SyncReach (fun _ _ => True)
      (waitBoth.foldl SyncSystem.next (twoSemaphores 1 0)) :=
    .foldl (by decide +kernel) (.init (twoSemaphores_init 1 0))
  have htook := (hall _ hreach).2 ⟨WAIT_TIMEOUT,
    ⟨.multiple [0, 1] true 0, false, .all [1], [0], false⟩⟩ (by decide +kernel) rfl
  cases htook

end Wie
