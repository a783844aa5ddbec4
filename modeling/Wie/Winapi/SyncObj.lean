import Mathlib.Algebra.Order.Ring.Int
import Mathlib.Algebra.Order.Ring.Nat
import Mathlib.Tactic.Common

/-!
# Waitable objects

Threads, events and semaphores, each under a lock of its own. A wait is a few sections under that
lock with the thread parked in between, so what a wait is made of is what one section does: it
answers, or it parks.

A parked thread can be woken for any reason. Whether its timeout has fired is all that it is told,
and what it makes of that is not the same for the three kinds of objects.

## Main definitions

* `ThreadObject`, `EventObject`, `SemaphoreObject`, `KernelObject` — the objects
* `KernelObject.wait`, `KernelObject.tryWait` — a section of a wait, and a wait that does not park

## Main results

* `KernelObject.wait_semaphore`, `KernelObject.tryWait_semaphore` — a semaphore gives a unit or
  nothing changes
* `KernelObject.wait_true` — who answers that the object was signalled
* `KernelObject.eats_wait`, `KernelObject.eats_tryWait` — a section takes a signal or leaves the
  object alone
-/

namespace Wie

/-- `WAIT_OBJECT_0`. -/
def WAIT_OBJECT_0 : ℕ := 0

/-- `WAIT_TIMEOUT`. -/
def WAIT_TIMEOUT : ℕ := 0x102

/-- `WAIT_FAILED`. -/
def WAIT_FAILED : ℕ := 2 ^ 32 - 1

/-- `INFINITE` timeout. -/
def INFINITE : ℕ := 2 ^ 32 - 1

/-- `STILL_ACTIVE`: the exit code of a thread that has not ended. -/
def STILL_ACTIVE : ℕ := 259

/-- A thread that can be waited for. -/
structure ThreadObject where
  /-- Guest id. -/
  tid : ℕ
  /-- Exit code or `STILL_ACTIVE`. -/
  exitCode : ℕ
  /-- It has ended. -/
  finished : Bool
deriving DecidableEq

/-- An event. -/
structure EventObject where
  /-- Manual or auto reset. -/
  manualReset : Bool
  /-- Signaled flag. -/
  signaled : Bool
deriving DecidableEq

/-- A counting semaphore. -/
structure SemaphoreObject where
  /-- Largest count. -/
  maximum : ℤ
  /-- Current count. -/
  count : ℤ
deriving DecidableEq

/-- How a section of a wait ends. -/
inductive Section
  /-- The wait is over. -/
  | answer (ok : Bool)
  /-- The thread is parked. -/
  | park
deriving DecidableEq

/-- Where a wait stands when it takes the lock. -/
inductive WaitPc
  /-- At its beginning. -/
  | enter
  /-- Woken, and told whether its timeout has fired. -/
  | woken (timedOut : Bool)
deriving DecidableEq

namespace ThreadObject

/-- `finish`. -/
def finish (t : ThreadObject) (code : ℕ) : ThreadObject :=
  { t with exitCode := code, finished := true }

/-- A section of `wait_until_finished`. -/
def waitUntilFinished (t : ThreadObject) (timeout : ℕ) : WaitPc → Section
  | .enter =>
    if t.finished then .answer true
    else if timeout = 0 then .answer false
    else .park
  | .woken timedOut =>
    if timeout = INFINITE then
      if t.finished then .answer true else .park
    else if t.finished then .answer true
    else if timedOut then .answer false
    else .answer true

end ThreadObject

namespace EventObject

/-- `set`. -/
def set (e : EventObject) : EventObject := { e with signaled := true }

/-- `reset`. -/
def reset (e : EventObject) : EventObject := { e with signaled := false }

/-- What a wait that finds the event signaled leaves. -/
def consume (e : EventObject) : EventObject :=
  if e.manualReset then e else { e with signaled := false }

/-- A section of `wait`. -/
def wait (e : EventObject) (timeout : ℕ) : WaitPc → Section × EventObject
  | .enter =>
    if e.signaled then (.answer true, e.consume)
    else if timeout = 0 then (.answer false, e)
    else (.park, e)
  | .woken timedOut =>
    if timeout = INFINITE then
      if e.signaled then (.answer true, e.consume) else (.park, e)
    else if e.signaled then (.answer true, e.consume)
    else if timedOut then (.answer false, e)
    else (.answer true, e)

end EventObject

namespace SemaphoreObject

/-- The semaphore that `register_semaphore` makes. -/
def register (initialCount maximumCount : ℤ) : SemaphoreObject where
  maximum := max maximumCount 1
  count := max 0 (min initialCount (max maximumCount 0))

/-- `try_acquire`. -/
def tryAcquire (s : SemaphoreObject) : Bool × SemaphoreObject :=
  if 0 < s.count then (true, { s with count := s.count - 1 }) else (false, s)

/-- A section of `wait`. -/
def wait (s : SemaphoreObject) (timeout : ℕ) : WaitPc → Section × SemaphoreObject
  | .enter =>
    if 0 < s.count then (.answer true, { s with count := s.count - 1 })
    else if timeout = 0 then (.answer false, s)
    else (.park, s)
  | .woken timedOut =>
    if timeout = INFINITE then
      if s.count ≤ 0 then (.park, s) else (.answer true, { s with count := s.count - 1 })
    else if 0 < s.count then (.answer true, { s with count := s.count - 1 })
    else if timedOut then (.answer false, s)
    else (.answer false, s)

/-- `release`: the previous count, or nothing when the release is refused. -/
def release (s : SemaphoreObject) (releaseCount : ℤ) : Option ℤ × SemaphoreObject :=
  if releaseCount ≤ 0 then (none, s)
  else if 2 ^ 31 ≤ s.count + releaseCount then (none, s)
  else if s.maximum < s.count + releaseCount then (none, s)
  else (some s.count, { s with count := s.count + releaseCount })

end SemaphoreObject

/-- An object of the handle table. -/
inductive KernelObject
  | thread (t : ThreadObject)
  | event (e : EventObject)
  | semaphore (s : SemaphoreObject)
deriving DecidableEq

namespace KernelObject

/-- A section of a wait for the object. -/
def wait (timeout : ℕ) (pc : WaitPc) : KernelObject → Section × KernelObject
  | thread t => (t.waitUntilFinished timeout pc, thread t)
  | event e => ((e.wait timeout pc).1, event (e.wait timeout pc).2)
  | semaphore s => ((s.wait timeout pc).1, semaphore (s.wait timeout pc).2)

/-- `try_wait`. -/
def tryWait : KernelObject → Bool × KernelObject
  | thread t => (t.finished, thread t)
  | event e => (decide ((e.wait 0 .enter).1 = .answer true), event (e.wait 0 .enter).2)
  | semaphore s => (s.tryAcquire.1, semaphore s.tryAcquire.2)

/-- The object is signalled. -/
def signalled : KernelObject → Bool
  | thread t => t.finished
  | event e => e.signaled
  | semaphore s => decide (0 < s.count)

/-- The object is a semaphore. -/
def isSemaphore : KernelObject → Bool
  | semaphore _ => true
  | _ => false

/-- The units a semaphore has. -/
def units : KernelObject → ℤ
  | semaphore s => s.count
  | _ => 0

/-- Two states of one object: they differ in what calls change. -/
def SameObject : KernelObject → KernelObject → Prop
  | thread t, thread t' => t.tid = t'.tid
  | event e, event e' => e.manualReset = e'.manualReset
  | semaphore s, semaphore s' => s.maximum = s'.maximum
  | _, _ => False

/-- A wake-up that is neither a signal nor a timeout, where the source takes it for success. A
semaphore takes it for a timeout. -/
def Spurious (timeout : ℕ) (pc : WaitPc) (o : KernelObject) : Prop :=
  pc = .woken false ∧ timeout ≠ INFINITE ∧ o.signalled = false ∧ o.isSemaphore = false

instance (timeout : ℕ) (pc : WaitPc) (o : KernelObject) : Decidable (Spurious timeout pc o) :=
  inferInstanceAs (Decidable (_ ∧ _ ∧ _ ∧ _))

variable {o o' o'' : KernelObject} {timeout : ℕ} {pc : WaitPc}

theorem SameObject.refl (o : KernelObject) : SameObject o o := by
  match o with
  | thread _ => exact rfl
  | event _ => exact rfl
  | semaphore _ => exact rfl

theorem SameObject.trans (h : SameObject o o') (h' : SameObject o' o'') : SameObject o o'' := by
  match o, o', o'', h, h' with
  | thread _, thread _, thread _, h, h' => exact Eq.trans h h'
  | event _, event _, event _, h, h' => exact Eq.trans h h'
  | semaphore _, semaphore _, semaphore _, h, h' => exact Eq.trans h h'

theorem SameObject.isSemaphore_eq (h : SameObject o o') : o'.isSemaphore = o.isSemaphore := by
  match o, o', h with
  | thread _, thread _, _ => rfl
  | event _, event _, _ => rfl
  | semaphore _, semaphore _, _ => rfl

/-- A semaphore is its units and its maximum. -/
theorem SameObject.eq_of_units (h : SameObject o o') (hs : o.isSemaphore = true)
    (hu : o'.units = o.units) : o' = o := by
  match o, o', h, hs with
  | semaphore ⟨m, n⟩, semaphore ⟨m', n'⟩, h, _ =>
    have hm : m = m' := h
    have hn : n' = n := hu
    rw [hm, hn]

/-- **A section of a wait for an event**: it finds the event signaled and consumes it, or it changes
nothing. -/
theorem wait_event (e : EventObject) (timeout : ℕ) (pc : WaitPc) :
    (e.signaled = true ∧ (event e).wait timeout pc = (.answer true, event e.consume)) ∨
    (e.signaled = false ∧ ((event e).wait timeout pc).2 = event e ∧
      (((event e).wait timeout pc).1 = .answer true → Spurious timeout pc (event e))) := by
  by_cases hs : e.signaled = true
  · refine .inl ⟨hs, ?_⟩
    match pc with
    | .enter => simp [wait, EventObject.wait, hs]
    | .woken timedOut => by_cases hi : timeout = INFINITE <;> simp [wait, EventObject.wait, hs, hi]
  · rw [Bool.not_eq_true] at hs
    refine .inr ⟨hs, ?_⟩
    match pc with
    | .enter => by_cases h0 : timeout = 0 <;> simp [wait, EventObject.wait, hs, h0]
    | .woken timedOut =>
      by_cases hi : timeout = INFINITE
      · simp [wait, EventObject.wait, hs, hi]
      · match timedOut with
        | true => simp [wait, EventObject.wait, hs, hi]
        | false => simp [wait, EventObject.wait, hs, hi, Spurious, signalled, isSemaphore]

/-- **A section of a wait for a semaphore**: it takes a unit, or it changes nothing and does not
succeed. -/
theorem wait_semaphore (s : SemaphoreObject) (timeout : ℕ) (pc : WaitPc) :
    (0 < s.count ∧ (semaphore s).wait timeout pc =
      (.answer true, semaphore { s with count := s.count - 1 })) ∨
    (s.count ≤ 0 ∧ ((semaphore s).wait timeout pc).2 = semaphore s ∧
      ((semaphore s).wait timeout pc).1 ≠ .answer true) := by
  by_cases hs : 0 < s.count
  · refine .inl ⟨hs, ?_⟩
    match pc with
    | .enter => simp [wait, SemaphoreObject.wait, hs]
    | .woken timedOut =>
      by_cases hi : timeout = INFINITE
      · simp [wait, SemaphoreObject.wait, not_le.mpr hs, hi]
      · simp [wait, SemaphoreObject.wait, hs, hi]
  · refine .inr ⟨not_lt.mp hs, ?_⟩
    match pc with
    | .enter => by_cases h0 : timeout = 0 <;> simp [wait, SemaphoreObject.wait, hs, h0]
    | .woken timedOut =>
      by_cases hi : timeout = INFINITE
      · simp [wait, SemaphoreObject.wait, not_lt.mp hs, hi]
      · match timedOut with
        | true => simp [wait, SemaphoreObject.wait, hs, hi]
        | false => simp [wait, SemaphoreObject.wait, hs, hi]

/-- **A section of a wait for a thread** succeeds when the thread has ended. -/
theorem wait_thread (t : ThreadObject) (timeout : ℕ) (pc : WaitPc)
    (h : ((thread t).wait timeout pc).1 = .answer true) :
    t.finished = true ∨ Spurious timeout pc (thread t) := by
  by_cases hs : t.finished = true
  · exact .inl hs
  · rw [Bool.not_eq_true] at hs
    refine .inr ?_
    match pc with
    | .enter => by_cases h0 : timeout = 0 <;> simp [wait, ThreadObject.waitUntilFinished, hs, h0] at h
    | .woken timedOut =>
      by_cases hi : timeout = INFINITE
      · simp [wait, ThreadObject.waitUntilFinished, hs, hi] at h
      · match timedOut with
        | true => simp [wait, ThreadObject.waitUntilFinished, hs, hi] at h
        | false => simp [hi, hs, Spurious, signalled, isSemaphore]

/-- **Who answers that the object was signalled**: an object that is, or a wake-up for nothing. -/
theorem wait_true (h : (o.wait timeout pc).1 = .answer true) :
    o.signalled = true ∨ Spurious timeout pc o := by
  match o with
  | thread t => exact wait_thread t timeout pc h
  | event e =>
    rcases wait_event e timeout pc with ⟨hs, -⟩ | ⟨-, -, hsp⟩
    · exact .inl hs
    · exact .inr (hsp h)
  | semaphore s =>
    rcases wait_semaphore s timeout pc with ⟨hs, -⟩ | ⟨-, -, hne⟩
    · exact .inl (decide_eq_true hs)
    · exact absurd h hne

/-- A wait for an event that does not park is a wait of no time. -/
theorem tryWait_event (e : EventObject) :
    (e.signaled = true ∧ (event e).tryWait = (true, event e.consume)) ∨
    (e.signaled = false ∧ (event e).tryWait = (false, event e)) := by
  by_cases hs : e.signaled = true
  · exact .inl ⟨hs, by simp [tryWait, EventObject.wait, hs]⟩
  · rw [Bool.not_eq_true] at hs
    exact .inr ⟨hs, by simp [tryWait, EventObject.wait, hs]⟩

theorem tryWait_semaphore (s : SemaphoreObject) :
    (0 < s.count ∧ (semaphore s).tryWait = (true, semaphore { s with count := s.count - 1 })) ∨
    (s.count ≤ 0 ∧ (semaphore s).tryWait = (false, semaphore s)) := by
  by_cases hs : 0 < s.count
  · exact .inl ⟨hs, by simp [tryWait, SemaphoreObject.tryAcquire, hs]⟩
  · exact .inr ⟨not_lt.mp hs, by simp [tryWait, SemaphoreObject.tryAcquire, hs]⟩

/-- A wait that does not park succeeds when the object is signalled. -/
theorem tryWait_fst (o : KernelObject) : o.tryWait.1 = o.signalled := by
  match o with
  | thread t => rfl
  | event e =>
    rcases tryWait_event e with ⟨hs, h⟩ | ⟨hs, h⟩
    · rw [h]
      exact hs.symm
    · rw [h]
      exact hs.symm
  | semaphore s =>
    rcases tryWait_semaphore s with ⟨hs, h⟩ | ⟨hs, h⟩
    · rw [h]
      exact (decide_eq_true hs).symm
    · rw [h]
      exact (decide_eq_false (not_lt.mpr hs)).symm

/-- A wait that does not succeed takes nothing. -/
theorem tryWait_snd_of_false (h : o.signalled = false) : o.tryWait.2 = o := by
  match o with
  | thread t => rfl
  | event e =>
    rcases tryWait_event e with ⟨hs, -⟩ | ⟨-, he⟩
    · cases hs.symm.trans h
    · rw [he]
  | semaphore s =>
    rcases tryWait_semaphore s with ⟨hs, -⟩ | ⟨-, he⟩
    · cases (decide_eq_true hs).symm.trans h
    · rw [he]

theorem sameObject_consume (e : EventObject) : SameObject (event e) (event e.consume) := by
  show e.manualReset = e.consume.manualReset
  rw [EventObject.consume]
  split_ifs <;> rfl

/-- A section leaves its object alone or takes a signal of it that is there. -/
def Eats (x x' : KernelObject) : Prop :=
  x' = x ∨ match x with
    | thread _ => False
    | event e => e.signaled = true ∧ x' = event e.consume
    | semaphore s => 0 < s.count ∧ x' = semaphore { s with count := s.count - 1 }

theorem eats_wait (o : KernelObject) (timeout : ℕ) (pc : WaitPc) : Eats o (o.wait timeout pc).2 := by
  match o with
  | thread t => exact .inl rfl
  | event e =>
    rcases wait_event e timeout pc with ⟨hs, h⟩ | ⟨-, h, -⟩
    · exact .inr ⟨hs, by rw [h]⟩
    · exact .inl h
  | semaphore s =>
    rcases wait_semaphore s timeout pc with ⟨hs, h⟩ | ⟨-, h, -⟩
    · exact .inr ⟨hs, by rw [h]⟩
    · exact .inl h

theorem eats_tryWait (o : KernelObject) : Eats o o.tryWait.2 := by
  match o with
  | thread t => exact .inl rfl
  | event e =>
    rcases tryWait_event e with ⟨hs, h⟩ | ⟨-, h⟩
    · exact .inr ⟨hs, by rw [h]⟩
    · exact .inl (by rw [h])
  | semaphore s =>
    rcases tryWait_semaphore s with ⟨hs, h⟩ | ⟨-, h⟩
    · exact .inr ⟨hs, by rw [h]⟩
    · exact .inl (by rw [h])

theorem Eats.same (h : Eats o o') : SameObject o o' := by
  rcases h with rfl | h
  · exact .refl _
  · match o, h with
    | event e, ⟨_, h⟩ =>
      rw [h]
      exact sameObject_consume e
    | semaphore s, ⟨_, h⟩ =>
      rw [h]
      exact rfl

/-- A section that does not succeed leaves its object alone. -/
theorem wait_snd (h : (o.wait timeout pc).1 ≠ .answer true) : (o.wait timeout pc).2 = o := by
  match o with
  | thread t => rfl
  | event e =>
    rcases wait_event e timeout pc with ⟨-, he⟩ | ⟨-, he, -⟩
    · rw [he] at h
      exact absurd rfl h
    · exact he
  | semaphore s =>
    rcases wait_semaphore s timeout pc with ⟨-, he⟩ | ⟨-, he, -⟩
    · rw [he] at h
      exact absurd rfl h
    · exact he

/-- A semaphore gives one unit for each success. -/
def Gives (x : KernelObject) (ok : Bool) (x' : KernelObject) : Prop :=
  x.SameObject x' ∧ (x.isSemaphore = true → x'.units = x.units - if ok then 1 else 0)

theorem gives_wait (o : KernelObject) (timeout : ℕ) (pc : WaitPc) :
    o.Gives (decide ((o.wait timeout pc).1 = .answer true)) (o.wait timeout pc).2 := by
  refine ⟨(eats_wait o timeout pc).same, fun hs => ?_⟩
  match o, hs with
  | semaphore s, _ =>
    rcases wait_semaphore s timeout pc with ⟨-, h⟩ | ⟨-, h, hne⟩
    · rw [h]
      exact rfl
    · rw [h, if_neg (by simpa using hne)]
      exact (Int.sub_zero _).symm

theorem gives_tryWait (o : KernelObject) : o.Gives o.tryWait.1 o.tryWait.2 := by
  refine ⟨(eats_tryWait o).same, fun hs => ?_⟩
  match o, hs with
  | semaphore s, _ =>
    rcases tryWait_semaphore s with ⟨-, h⟩ | ⟨-, h⟩
    · rw [h]
      exact rfl
    · rw [h]
      exact (Int.sub_zero _).symm

end KernelObject

end Wie
