import Wie.Lib.Reach
import Wie.Lib.Word
import Wie.Winapi.SyncObj

/-!
# Threads that wait

Any number of threads wait for objects while others finish, set, reset and release. One action is
one section under the lock of one object: what happens between two sections of a wait is whatever
the other threads do there. A wake-up comes at any time and for any reason, and whether a timeout
has fired is up to the action too.

A wait for several objects is made of the sections of its objects. It tries them one after the
other and tries again later; between two sections it holds no lock.

## Main definitions

* `Call`, `Pc`, `Waiting` — a wait and where it stands
* `Waiting.step` — one section of a wait
* `SyncSystem`, `SyncSystem.next` — objects and threads, with the waits that have returned and the
  units released as a history
-/

namespace Wie

/-- A wait: for one object, or for several. -/
inductive Call
  | single (object timeout : ℕ)
  | multiple (targets : List ℕ) (waitAll : Bool) (timeout : ℕ)
deriving DecidableEq

/-- Where a wait stands. -/
inductive Pc
  /-- A wait for one object, parked or not yet. -/
  | single (parked : Bool)
  /-- Wait-all: the threads among the objects are looked at first. -/
  | threads (rest : List ℕ)
  /-- Wait-all: the objects are taken one by one. -/
  | all (rest : List ℕ)
  /-- Wait-any: the objects are tried one by one. -/
  | any (i : ℕ) (rest : List ℕ)
  /-- An attempt has failed; is there time for another? -/
  | deadline
  /-- Wait-any: the wait for the first object, for a slice of time. -/
  | first (slice : ℕ) (parked : Bool)
deriving DecidableEq

/-- A wait under way. -/
structure Waiting where
  /-- The call. -/
  call : Call
  /-- Whether it is in its loop. -/
  again : Bool
  /-- Where it stands. -/
  pc : Pc
  /-- The objects it changed so far. -/
  took : List ℕ
  /-- Whether its object was signalled at some step of it. -/
  seen : Bool
deriving DecidableEq

/-- How a step of a wait ends. -/
inductive StepResult
  /-- The wait goes on. -/
  | goesOn (w : Waiting)
  /-- It is over. -/
  | returns (code : ℕ) (w : Waiting)
deriving DecidableEq

/-- `MAXIMUM_WAIT_OBJECTS`. -/
def MAXIMUM_WAIT_OBJECTS : ℕ := 64

/-- What the host decides at a step: whether the timeout of a woken thread has fired, whether the
deadline has passed, and the length of the next slice. -/
structure Chance where
  /-- For a wake-up. -/
  timedOut : Bool
  /-- For a deadline. -/
  expired : Bool
  /-- For the next wait on the first object. -/
  slice : ℕ

/-- The objects of the process. -/
abbrev Objects := ℕ → KernelObject

namespace Waiting

variable (objects : Objects) (c : Chance) (w : Waiting)

/-- Where a section starts: a parked thread has been woken. -/
def startPc (parked : Bool) : WaitPc := if parked then .woken c.timedOut else .enter

/-- A wait that changed object `o` into `o'`, if it did. -/
def taking (o : ℕ) (o' : KernelObject) : Waiting :=
  { w with took := if o' = objects o then w.took else o :: w.took }

/-- The beginning of `multi_try_once`. -/
def attempt : Waiting :=
  match w.call with
  | .multiple targets true _ => { w with pc := .threads targets }
  | .multiple targets false _ => { w with pc := .any 0 targets }
  | .single .. => w

/-- An attempt has failed: the first one of a wait with no timeout is the last. -/
def failed : StepResult :=
  if w.again then .goesOn { w with pc := .deadline }
  else match w.call with
    | .multiple _ _ 0 => .returns WAIT_TIMEOUT w
    | _ => .goesOn { w.attempt with again := true }

/-- A step of a wait for one object. -/
def stepSingle (o timeout : ℕ) (parked : Bool) : StepResult × Objects :=
  let r := (objects o).wait timeout (startPc c parked)
  let w' := w.taking objects o r.2
  let objects' := Function.update objects o r.2
  match r.1 with
  | .answer true => (.returns WAIT_OBJECT_0 w', objects')
  | .answer false => (.returns WAIT_TIMEOUT w', objects')
  | .park => (.goesOn { w' with pc := .single true }, objects')

/-- Wait-all looks at the threads among its objects. -/
def stepThreads (targets : List ℕ) : List ℕ → StepResult
  | [] => .goesOn { w with pc := .all targets }
  | o :: rest =>
    match objects o with
    | .thread t => if t.finished then .goesOn { w with pc := .threads rest } else w.failed
    | _ => .goesOn { w with pc := .threads rest }

/-- Wait-all takes its objects one by one. -/
def stepAll : List ℕ → StepResult × Objects
  | [] => (.returns WAIT_OBJECT_0 w, objects)
  | o :: rest =>
    let r := (objects o).tryWait
    let w' := w.taking objects o r.2
    let objects' := Function.update objects o r.2
    if r.1 then (.goesOn { w' with pc := .all rest }, objects') else (w'.failed, objects')

/-- Wait-any tries its objects one by one. -/
def stepAny (i : ℕ) : List ℕ → StepResult × Objects
  | [] => (w.failed, objects)
  | o :: rest =>
    let r := (objects o).tryWait
    let w' := w.taking objects o r.2
    let objects' := Function.update objects o r.2
    if r.1 then (.returns (WAIT_OBJECT_0 + i) w', objects')
    else (.goesOn { w' with pc := .any (i + 1) rest }, objects')

/-- An attempt has failed and there is a look at the clock. Wait-all sleeps before the next one, and
wait-any waits for its first object for a while. -/
def stepDeadline (waitAll : Bool) (timeout : ℕ) : StepResult :=
  if timeout ≠ INFINITE ∧ c.expired = true then .returns WAIT_TIMEOUT w
  else if waitAll then .goesOn w.attempt
  else .goesOn { w with pc := .first (max 1 (min c.slice 25)) false }

/-- A section of the wait for the first object. -/
def stepFirst (slice : ℕ) (parked : Bool) : List ℕ → StepResult × Objects
  | [] => (.returns WAIT_FAILED w, objects)
  | o :: _ =>
    let r := (objects o).wait slice (startPc c parked)
    let w' := w.taking objects o r.2
    let objects' := Function.update objects o r.2
    match r.1 with
    | .answer true => (.returns WAIT_OBJECT_0 w', objects')
    | .answer false => (.goesOn w'.attempt, objects')
    | .park => (.goesOn { w' with pc := .first slice true }, objects')

/-- A step of a wait for several objects. -/
def stepMultiple (targets : List ℕ) (waitAll : Bool) (timeout : ℕ) : StepResult × Objects :=
  match w.pc with
  | .threads rest => (w.stepThreads objects targets rest, objects)
  | .all rest => w.stepAll objects rest
  | .any i rest => w.stepAny objects i rest
  | .deadline => (w.stepDeadline c waitAll timeout, objects)
  | .first slice parked => w.stepFirst objects c slice parked targets
  | .single _ => (.goesOn w, objects)

/-- One section of a wait. -/
def step : StepResult × Objects :=
  match w.call, w.pc with
  | .single o timeout, .single parked => w.stepSingle objects c o timeout parked
  | .multiple targets waitAll timeout, _ => w.stepMultiple objects c targets waitAll timeout
  | .single .., _ => (.goesOn w, objects)

/-- A wait that begins. -/
def begin (call : Call) : StepResult :=
  match call with
  | .single .. => .goesOn ⟨call, false, .single false, [], false⟩
  | .multiple targets _ _ =>
    if targets = [] ∨ MAXIMUM_WAIT_OBJECTS < targets.length then
      .returns WAIT_FAILED ⟨call, false, .deadline, [], false⟩
    else .goesOn (attempt ⟨call, false, .deadline, [], false⟩)

end Waiting

/-- The wait of a step, over or not. -/
def StepResult.wait : StepResult → Waiting
  | .goesOn w => w
  | .returns _ w => w

namespace Waiting

variable {objects : Objects} {c : Chance} {w : Waiting}

/-! ### What one section does -/

/-- A section that leaves its object alone takes nothing. -/
theorem taking_self (o : ℕ) : w.taking objects o (objects o) = w := by
  rw [taking, if_pos rfl]

section single

variable {o timeout : ℕ} {parked : Bool}

theorem stepSingle_true (h : ((objects o).wait timeout (startPc c parked)).1 = .answer true) :
    w.stepSingle objects c o timeout parked =
      (.returns WAIT_OBJECT_0 (w.taking objects o ((objects o).wait timeout (startPc c parked)).2),
        Function.update objects o ((objects o).wait timeout (startPc c parked)).2) := by
  rw [stepSingle]
  simp only [h]

theorem stepSingle_false (h : ((objects o).wait timeout (startPc c parked)).1 = .answer false) :
    w.stepSingle objects c o timeout parked = (.returns WAIT_TIMEOUT w, objects) := by
  have hx := KernelObject.wait_snd (h.trans_ne (by decide))
  rw [stepSingle]
  simp only [h, hx, Function.update_eq_self, taking_self]

theorem stepSingle_park (h : ((objects o).wait timeout (startPc c parked)).1 = .park) :
    w.stepSingle objects c o timeout parked = (.goesOn { w with pc := .single true }, objects) := by
  have hx := KernelObject.wait_snd (h.trans_ne (by decide))
  rw [stepSingle]
  simp only [h, hx, Function.update_eq_self, taking_self]

theorem stepFirst_true {slice : ℕ} {rest : List ℕ}
    (h : ((objects o).wait slice (startPc c parked)).1 = .answer true) :
    w.stepFirst objects c slice parked (o :: rest) =
      (.returns WAIT_OBJECT_0 (w.taking objects o ((objects o).wait slice (startPc c parked)).2),
        Function.update objects o ((objects o).wait slice (startPc c parked)).2) := by
  rw [stepFirst]
  simp only [h]

theorem stepFirst_false {slice : ℕ} {rest : List ℕ}
    (h : ((objects o).wait slice (startPc c parked)).1 = .answer false) :
    w.stepFirst objects c slice parked (o :: rest) = (.goesOn w.attempt, objects) := by
  have hx := KernelObject.wait_snd (h.trans_ne (by decide))
  rw [stepFirst]
  simp only [h, hx, Function.update_eq_self, taking_self]

theorem stepFirst_park {slice : ℕ} {rest : List ℕ}
    (h : ((objects o).wait slice (startPc c parked)).1 = .park) :
    w.stepFirst objects c slice parked (o :: rest) =
      (.goesOn { w with pc := .first slice true }, objects) := by
  have hx := KernelObject.wait_snd (h.trans_ne (by decide))
  rw [stepFirst]
  simp only [h, hx, Function.update_eq_self, taking_self]

end single

section tries

variable {o i : ℕ} {rest : List ℕ}

theorem stepAll_true (h : (objects o).signalled = true) :
    w.stepAll objects (o :: rest) =
      (.goesOn { w.taking objects o (objects o).tryWait.2 with pc := .all rest },
        Function.update objects o (objects o).tryWait.2) := by
  rw [stepAll]
  exact if_pos ((KernelObject.tryWait_fst _).trans h)

theorem stepAll_false (h : (objects o).signalled = false) :
    w.stepAll objects (o :: rest) = (w.failed, objects) := by
  have hf : (objects o).tryWait.1 = false := (KernelObject.tryWait_fst _).trans h
  rw [stepAll]
  simp only [hf, KernelObject.tryWait_snd_of_false h, Function.update_eq_self, taking_self,
    Bool.false_eq_true, if_false]

theorem stepAny_true (h : (objects o).signalled = true) :
    w.stepAny objects i (o :: rest) =
      (.returns (WAIT_OBJECT_0 + i) (w.taking objects o (objects o).tryWait.2),
        Function.update objects o (objects o).tryWait.2) := by
  rw [stepAny]
  exact if_pos ((KernelObject.tryWait_fst _).trans h)

theorem stepAny_false (h : (objects o).signalled = false) :
    w.stepAny objects i (o :: rest) = (.goesOn { w with pc := .any (i + 1) rest }, objects) := by
  have hf : (objects o).tryWait.1 = false := (KernelObject.tryWait_fst _).trans h
  rw [stepAny]
  simp only [hf, KernelObject.tryWait_snd_of_false h, Function.update_eq_self, taking_self,
    Bool.false_eq_true, if_false]

end tries

/-- A step of a wait is a step of the same wait. -/
def SameWait (w w' : Waiting) : Prop := w'.call = w.call ∧ w'.seen = w.seen

theorem sameWait_attempt : SameWait w w.attempt := by
  rw [attempt]
  split <;> exact ⟨rfl, rfl⟩

theorem sameWait_failed : SameWait w w.failed.wait := by
  rw [failed]
  split_ifs
  · exact ⟨rfl, rfl⟩
  · split
    · exact ⟨rfl, rfl⟩
    · exact sameWait_attempt

/-- Objects after a section: one of them gave something, or none did. -/
def Eaten (objects objects' : Objects) : Prop := ∀ o, (objects o).Eats (objects' o)

theorem eaten_refl : Eaten objects objects := fun _ => .inl rfl

theorem eaten_update {o : ℕ} {x : KernelObject} (h : (objects o).Eats x) :
    Eaten objects (Function.update objects o x) := by
  intro p
  by_cases hp : p = o
  · subst hp
    rwa [Function.update_self]
  · rw [Function.update_of_ne hp]
    exact .inl rfl

/-- A step goes on with its wait, and what it takes is there. -/
def StepsOk (objects : Objects) (w : Waiting) (r : StepResult × Objects) : Prop :=
  SameWait w r.1.wait ∧ Eaten objects r.2

theorem stepThreads_ok (targets rest : List ℕ) : SameWait w (w.stepThreads objects targets rest).wait := by
  match rest with
  | [] => exact ⟨rfl, rfl⟩
  | o :: rest =>
    rw [stepThreads]
    split
    · split_ifs
      · exact ⟨rfl, rfl⟩
      · exact sameWait_failed
    · exact ⟨rfl, rfl⟩

theorem stepAll_ok (rest : List ℕ) : StepsOk objects w (w.stepAll objects rest) := by
  match rest with
  | [] => exact ⟨⟨rfl, rfl⟩, eaten_refl⟩
  | o :: rest =>
    match hs : (objects o).signalled with
    | true =>
      rw [stepAll_true hs]
      exact ⟨⟨rfl, rfl⟩, eaten_update (objects o).eats_tryWait⟩
    | false =>
      rw [stepAll_false hs]
      exact ⟨sameWait_failed, eaten_refl⟩

theorem stepAny_ok (i : ℕ) (rest : List ℕ) : StepsOk objects w (w.stepAny objects i rest) := by
  match rest with
  | [] => exact ⟨sameWait_failed, eaten_refl⟩
  | o :: rest =>
    match hs : (objects o).signalled with
    | true =>
      rw [stepAny_true hs]
      exact ⟨⟨rfl, rfl⟩, eaten_update (objects o).eats_tryWait⟩
    | false =>
      rw [stepAny_false hs]
      exact ⟨⟨rfl, rfl⟩, eaten_refl⟩

theorem stepDeadline_ok (waitAll : Bool) (timeout : ℕ) :
    SameWait w (w.stepDeadline c waitAll timeout).wait := by
  rw [stepDeadline]
  split_ifs
  · exact ⟨rfl, rfl⟩
  · exact sameWait_attempt
  · exact ⟨rfl, rfl⟩

theorem stepFirst_ok (slice : ℕ) (parked : Bool) (targets : List ℕ) :
    StepsOk objects w (w.stepFirst objects c slice parked targets) := by
  match targets with
  | [] => exact ⟨⟨rfl, rfl⟩, eaten_refl⟩
  | o :: rest =>
    match hr : ((objects o).wait slice (startPc c parked)).1 with
    | .answer true =>
      rw [stepFirst_true hr]
      exact ⟨⟨rfl, rfl⟩, eaten_update ((objects o).eats_wait _ _)⟩
    | .answer false =>
      rw [stepFirst_false hr]
      exact ⟨sameWait_attempt, eaten_refl⟩
    | .park =>
      rw [stepFirst_park hr]
      exact ⟨⟨rfl, rfl⟩, eaten_refl⟩

theorem stepSingle_ok (o timeout : ℕ) (parked : Bool) :
    StepsOk objects w (w.stepSingle objects c o timeout parked) := by
  match hr : ((objects o).wait timeout (startPc c parked)).1 with
  | .answer true =>
    rw [stepSingle_true hr]
    exact ⟨⟨rfl, rfl⟩, eaten_update ((objects o).eats_wait _ _)⟩
  | .answer false =>
    rw [stepSingle_false hr]
    exact ⟨⟨rfl, rfl⟩, eaten_refl⟩
  | .park =>
    rw [stepSingle_park hr]
    exact ⟨⟨rfl, rfl⟩, eaten_refl⟩

theorem stepMultiple_ok (targets : List ℕ) (waitAll : Bool) (timeout : ℕ) :
    StepsOk objects w (w.stepMultiple objects c targets waitAll timeout) := by
  rw [stepMultiple]
  split
  · exact ⟨stepThreads_ok _ _, eaten_refl⟩
  · exact stepAll_ok _
  · exact stepAny_ok _ _
  · exact ⟨stepDeadline_ok _ _, eaten_refl⟩
  · exact stepFirst_ok _ _ _
  · exact ⟨⟨rfl, rfl⟩, eaten_refl⟩

theorem step_ok : StepsOk objects w (w.step objects c) := by
  rw [step]
  split
  · exact stepSingle_ok _ _ _
  · exact stepMultiple_ok _ _ _
  · exact ⟨⟨rfl, rfl⟩, eaten_refl⟩

end Waiting

/-- A wait that has returned. -/
structure Done where
  /-- What it returned. -/
  code : ℕ
  /-- The wait. -/
  wait : Waiting
deriving DecidableEq

/-- Objects and threads. -/
structure SyncSystem where
  /-- The objects. -/
  objects : Objects
  /-- The objects at the beginning. -/
  initial : Objects
  /-- The threads: each waits or does something else. -/
  threads : List (Option Waiting)
  /-- The waits that have returned, newest first. -/
  done : List Done
  /-- Units released, for each semaphore. -/
  released : ℕ → ℤ
  /-- Calls of `set` that found the event unsignaled, for each event. -/
  sets : ℕ → ℕ

/-- What can happen. -/
inductive SyncAction
  /-- A thread ends. -/
  | finish (o code : ℕ)
  /-- `SetEvent`. -/
  | set (o : ℕ)
  /-- `ResetEvent`. -/
  | reset (o : ℕ)
  /-- `ReleaseSemaphore`. -/
  | release (o : ℕ) (n : ℤ)
  /-- A thread that does not wait begins to. -/
  | start (t : ℕ) (call : Call)
  /-- A thread that waits goes on. -/
  | step (t : ℕ) (c : Chance)

namespace SyncSystem

/-- A wait notices that its object is signalled. -/
def notice (objects : Objects) (w : Waiting) : Waiting :=
  match w.call with
  | .single o _ => { w with seen := w.seen || (objects o).signalled }
  | .multiple .. => w

/-- Every wait under way does. -/
def noticed (s : SyncSystem) : SyncSystem :=
  { s with threads := s.threads.map (Option.map (notice s.objects)) }

theorem notice_call (objects : Objects) (w : Waiting) : (notice objects w).call = w.call := by
  rw [notice]
  split <;> rfl

theorem notice_pc (objects : Objects) (w : Waiting) : (notice objects w).pc = w.pc := by
  rw [notice]
  split <;> rfl

theorem notice_took (objects : Objects) (w : Waiting) : (notice objects w).took = w.took := by
  rw [notice]
  split <;> rfl

/-- A wait for a signalled object has seen it. -/
theorem notice_seen {objects : Objects} {w : Waiting} {o timeout : ℕ}
    (h : w.call = .single o timeout) (hs : (objects o).signalled = true) :
    (notice objects w).seen = true := by
  rw [notice, h]
  show (w.seen || (objects o).signalled) = true
  rw [hs, Bool.or_true]

/-- The waits under way are those from before. -/
theorem getElem?_noticed {s : SyncSystem} {t : ℕ} {w : Waiting}
    (h : s.noticed.threads[t]? = some (some w)) :
    ∃ w', s.threads[t]? = some (some w') ∧ w = notice s.objects w' := by
  rw [noticed, List.getElem?_map] at h
  match hw : s.threads[t]? with
  | some (some w') =>
    rw [hw] at h
    exact ⟨w', rfl, (Option.some.inj (Option.some.inj h)).symm⟩
  | some none =>
    rw [hw] at h
    cases Option.some.inj h
  | none =>
    rw [hw] at h
    cases h

/-- The system with one object changed. -/
def withObject (s : SyncSystem) (o : ℕ) (x : KernelObject) : SyncSystem :=
  { s with objects := Function.update s.objects o x }

/-- A thread after a step of its wait. -/
def after (s : SyncSystem) (t : ℕ) : StepResult → SyncSystem
  | .goesOn w => { s with threads := s.threads.set t (some w) }
  | .returns code w => { s with threads := s.threads.set t none, done := ⟨code, w⟩ :: s.done }

/-- One action. -/
def act (s : SyncSystem) : SyncAction → SyncSystem
  | .finish o code =>
    match s.objects o with
    | .thread t => s.withObject o (.thread (t.finish code))
    | _ => s
  | .set o =>
    match s.objects o with
    | .event e => { s.withObject o (.event e.set) with
        sets := Function.update s.sets o (s.sets o + if e.signaled then 0 else 1) }
    | _ => s
  | .reset o =>
    match s.objects o with
    | .event e => s.withObject o (.event e.reset)
    | _ => s
  | .release o n =>
    match s.objects o with
    | .semaphore x => { s.withObject o (.semaphore (x.release n).2) with
        released := Function.update s.released o
          (s.released o + if (x.release n).1.isSome then n else 0) }
    | _ => s
  | .start t call =>
    match s.threads[t]? with
    | some none => s.after t (Waiting.begin call)
    | _ => s
  | .step t c =>
    match s.threads[t]? with
    | some (some w) =>
      let r := w.step s.objects c
      { s with objects := r.2 }.after t r.1
    | _ => s

/-- One action, and what the waits see of it. -/
def next (s : SyncSystem) (a : SyncAction) : SyncSystem := s.noticed.act a

end SyncSystem

/-- Objects as they were made, and threads that do not wait. -/
def SyncInit (s : SyncSystem) : Prop :=
  s.objects = s.initial ∧ (∀ w ∈ s.threads, w = none) ∧ s.done = [] ∧ (∀ o, s.released o = 0) ∧
  (∀ o, s.sets o = 0) ∧
  ∀ o x, s.initial o = .semaphore x → ∃ i m, x = SemaphoreObject.register i m

/-- The states of runs whose actions meet `guard`. -/
def SyncReach (guard : SyncSystem → SyncAction → Prop) : SyncSystem → Prop :=
  GuardedReach SyncInit guard fun s a s' => s' = s.next a

end Wie
