import Wie.Lib.Reach
import Wie.Winapi.SyncObj
import Wie.Winapi.Thread

/-!
# The end of a thread

A thread that can be waited for is an object that several parties share: the handle table, once for
each handle, and every thread that waits for it. When a worker ends it looks for its object in the
handle table. A handle that is closed is no longer there, and the object is not found through the
threads that wait for it.

## Main definitions

* `HandleState` — the handle table and the objects behind it
* `closeHandle`, `duplicateHandle`, `finishTid`, `handleExitThread` — what works on it
* `WorkerEnd` — the ways in which a worker ends
* `Finished` — what holds of workers that have ended

## Main results

* `HandleState.finishTid_spec` — which object is found
* `ended_finished` — an object that is in the table when its worker ends is finished for good
* `not_ended_finished` — and one that is not is not
-/

namespace Wie

/-- `INVALID_HANDLE_VALUE`, which is also what `GetCurrentProcess` answers. -/
def INVALID_HANDLE_VALUE : ℕ := 2 ^ 64 - 1

/-- The handle table of `SyncState` and what it refers to. Objects are shared, and the table has
references to them. -/
structure HandleState where
  /-- The threads. -/
  threads : ThreadState
  /-- The next handle. -/
  nextHandle : ℕ
  /-- The handle table. -/
  objects : AList fun _ : ℕ => ℕ
  /-- The objects. -/
  heap : ℕ → KernelObject
  /-- The next reference. -/
  nextRef : ℕ
  /-- The process is dying. -/
  processDying : Bool

namespace HandleState

/-- The state with another object. -/
def setObj (s : HandleState) (r : ℕ) (o : KernelObject) : HandleState :=
  { s with heap := Function.update s.heap r o }

/-- The state with another handle table. -/
def setObjects (s : HandleState) (objects : AList fun _ : ℕ => ℕ) : HandleState :=
  { s with objects := objects }

/-- `alloc_handle`. -/
def allocHandle (s : HandleState) : ℕ × HandleState :=
  let next := satAdd s.nextHandle 1
  (s.nextHandle,
    { s with nextHandle := if next = 0 ∨ next = 2 ^ 64 - 1 then 0x80000001 else next })

/-- A new object with a handle: `register_thread`, `register_event` and `register_semaphore`. The
reference to the object comes back. -/
def register (s : HandleState) (o : KernelObject) : ℕ × HandleState :=
  let (handle, s) := s.allocHandle
  (s.nextRef, { (s.setObj s.nextRef o).setObjects (s.objects.insert handle s.nextRef) with
    nextRef := s.nextRef + 1 })

/-- The object of a thread that has not ended. -/
def newThread (tid : ℕ) : KernelObject := .thread ⟨tid, STILL_ACTIVE, false⟩

/-- The object is a thread with this id. -/
def IsThread (s : HandleState) (tid r : ℕ) : Bool :=
  match s.heap r with
  | .thread t => decide (t.tid = tid)
  | _ => false

/-- `ThreadObject::finish` on a shared object. -/
def finish (s : HandleState) (r code : ℕ) : HandleState :=
  match s.heap r with
  | .thread t => s.setObj r (.thread (t.finish code))
  | _ => s

/-- `finish_tid`. A hash map has its values in any order. -/
def finishTid (s : HandleState) (values : List ℕ) (tid code : ℕ) : HandleState :=
  match values.find? (s.IsThread tid) with
  | some r => s.finish r code
  | none => s

/-- `handle_exit_thread` up to its control signal. -/
def handleExitThread (s : HandleState) (values : List ℕ) (tid rcx : ℕ) : HandleState :=
  s.finishTid values tid (rcx % 2 ^ 32)

/-- `handle_close_handle` on the table. Handles of files are not in it. -/
def closeHandle (s : HandleState) (handle : ℕ) (isOpenFile : Bool) : HandleState :=
  if handle = 0 ∨ handle = INVALID_HANDLE_VALUE then s
  else if isOpenFile then s
  else s.setObjects (s.objects.erase handle)

/-- One more handle of an object, as `handle_duplicate_handle` makes it. -/
def insertDuplicate (s : HandleState) (r : ℕ) : HandleState :=
  { s.setObjects (s.objects.insert s.nextHandle r) with
    nextHandle := (s.nextHandle + 4) % 2 ^ 64 }

/-- `handle_duplicate_handle`, called by `tid`. A pseudohandle stands for the calling thread, whose
object is made if it is not found. -/
def duplicateHandle (s : HandleState) (values : List ℕ) (tid source : ℕ) (closeSource : Bool) :
    HandleState :=
  if source = 2 ^ 64 - 1 ∨ source = 2 ^ 64 - 2 then
    match values.find? (s.IsThread tid) with
    | some r => s.insertDuplicate r
    | none => (s.register (newThread tid)).2.insertDuplicate (s.register (newThread tid)).1
  else
    match s.objects.lookup source with
    | some r =>
      let s := s.insertDuplicate r
      if closeSource then s.setObjects (s.objects.erase source) else s
    | none => s

/-- What `join_workers_impl` does to an object. -/
def teardown : KernelObject → KernelObject
  | .event e => .event e.set
  | .semaphore s => .semaphore s
  | .thread t => .thread (if t.finished then t else t.finish 1)

/-- The objects in the table. -/
def values (s : HandleState) : List ℕ := s.objects.entries.map Sigma.snd

/-- `join_workers_impl`, before it joins: the process is dying and all objects are woken. -/
def joinWorkers (s : HandleState) : HandleState :=
  { s with
    processDying := true
    heap := fun r => if r ∈ s.values then teardown (s.heap r) else s.heap r }

end HandleState

/-- The ways in which `worker_main` returns. -/
inductive WorkerEnd
  /-- The hooks could not be installed. -/
  | hooksFailed
  /-- The process is dying. -/
  | dying
  /-- The thread procedure returned. -/
  | returned (rax : ℕ)
  /-- The engine failed. -/
  | runError
  /-- A fault. -/
  | invalidMemory
  /-- An exception could not be continued. -/
  | sehFailed
  /-- A stop at an unknown address. -/
  | unresolved
  /-- `ExitProcess`. -/
  | exitProcess (rcx : ℕ)
  /-- `ExitThread`. -/
  | exitThread (rcx : ℕ)
  /-- A handler failed. -/
  | dispatchError
deriving DecidableEq

/-- The code with which the thread is finished. -/
def WorkerEnd.code : WorkerEnd → ℕ
  | returned rax => rax % 2 ^ 32
  | exitProcess rcx => rcx % 2 ^ 32
  | exitThread rcx => rcx % 2 ^ 32
  | _ => 1

/-- A return path of `worker_main`. -/
def HandleState.workerReturns (s : HandleState) (values : List ℕ) (tid : ℕ) :
    WorkerEnd → HandleState
  | .exitProcess rcx => { s with processDying := true }.finishTid values tid (rcx % 2 ^ 32)
  | .exitThread rcx =>
    (s.handleExitThread values tid rcx).finishTid values tid (rcx % 2 ^ 32)
  | .returned rax => s.finishTid values tid (rax % 2 ^ 32)
  | _ => s.finishTid values tid 1

/-! ### Runs -/

/-- What has become of a thread id. -/
inductive WorkerStatus
  /-- No thread has it. -/
  | absent
  /-- The thread is not started, or suspended. -/
  | waiting
  /-- The worker runs. -/
  | running
  /-- It has returned. -/
  | ended (code : ℕ)
deriving DecidableEq

/-- The process, its workers, and who waits. -/
structure EndSystem where
  /-- The handle table. -/
  state : HandleState
  /-- The workers. -/
  status : ℕ → WorkerStatus
  /-- The object that was created for an id. -/
  created : ℕ → Option ℕ
  /-- Who has resolved which object for a wait. -/
  resolved : List (ℕ × ℕ)

/-- What can happen. -/
inductive EndAction
  /-- `CreateThread` succeeds. -/
  | createThread
  /-- A thread is started, at once or by `ResumeThread`. -/
  | start (tid : ℕ)
  /-- `CreateEvent` or `CreateSemaphore`. -/
  | createObject (o : KernelObject)
  /-- `CloseHandle`. -/
  | closeHandle (handle : ℕ) (isOpenFile : Bool)
  /-- `DuplicateHandle`. -/
  | duplicateHandle (values : List ℕ) (tid source : ℕ) (closeSource : Bool)
  /-- A thread looks up what it will wait for. -/
  | resolve (waiter handle : ℕ)
  /-- A worker finds the process dying when a wait is over. -/
  | parkDying (values : List ℕ) (tid : ℕ)
  /-- A worker returns. -/
  | workerReturns (values : List ℕ) (tid : ℕ) (why : WorkerEnd)
  /-- The process is torn down. -/
  | joinWorkers

namespace EndSystem

/-- The system with another state of the table. -/
def setState (s : EndSystem) (state : HandleState) : EndSystem := { s with state := state }

/-- One action. -/
def next (s : EndSystem) : EndAction → EndSystem
  | .createThread =>
    let (tid, threads) := s.state.threads.allocWorker
    let (r, state) := { s.state with threads := threads }.register (HandleState.newThread tid)
    { s with
      state := state
      status := Function.update s.status tid .waiting
      created := Function.update s.created tid (some r) }
  | .start tid => { s with status := Function.update s.status tid .running }
  | .createObject o => s.setState (s.state.register o).2
  | .closeHandle handle isOpenFile => s.setState (s.state.closeHandle handle isOpenFile)
  | .duplicateHandle values tid source closeSource =>
    s.setState (s.state.duplicateHandle values tid source closeSource)
  | .resolve waiter handle =>
    match s.state.objects.lookup handle with
    | some r => { s with resolved := (waiter, r) :: s.resolved }
    | none => s
  | .parkDying values tid => s.setState (s.state.finishTid values tid 1)
  | .workerReturns values tid why =>
    { s with
      state := s.state.workerReturns values tid why
      status := Function.update s.status tid (.ended why.code) }
  | .joinWorkers => s.setState s.state.joinWorkers

end EndSystem

/-- Workers are started once and return once, handlers run for threads that exist, and values come
in some order. -/
def EndRuns (s : EndSystem) : EndAction → Prop
  | .start tid => s.status tid = .waiting
  | .createObject o => ∀ t, o ≠ .thread t
  | .duplicateHandle values tid _ _ => values.Perm s.state.values ∧
      (tid = PRIMARY_THREAD_ID ∨ s.status tid = .running)
  | .parkDying values tid => values.Perm s.state.values ∧ s.status tid = .running
  | .workerReturns values tid _ => values.Perm s.state.values ∧ s.status tid = .running
  | _ => True

/-- The object that was created for the thread is in the table, or it was finished with the same
code. -/
def Held (s : EndSystem) (tid code : ℕ) : Prop :=
  ∃ r, s.created tid = some r ∧
    (r ∈ s.state.values ∨ s.state.heap r = .thread ⟨tid, code, true⟩)

/-- **What is asked of an action.** Ids have not run out when a thread is created, and its object is
still held when its worker returns. -/
def EndKeeps (s : EndSystem) : EndAction → Prop
  | .createThread => s.state.threads.nextTid < 2 ^ 32 - 1
  | .workerReturns _ tid why => Held s tid why.code
  | _ => True

/-- The primary thread alone, with its object. -/
def endBoot : EndSystem where
  state :=
    { threads := .primary
      nextHandle := 0x80000002
      objects := AList.insert 0x80000001 0 ∅
      heap := fun _ => HandleState.newThread PRIMARY_THREAD_ID
      nextRef := 1
      processDying := false }
  status := fun _ => .absent
  created := fun _ => none
  resolved := []

/-- The states of runs whose actions meet a condition. -/
def EndReach (ok : EndSystem → EndAction → Prop) : EndSystem → Prop :=
  GuardedReach (· = endBoot) (fun s a => EndRuns s a ∧ ok s a) fun s a s' => s' = s.next a

/-- **A thread that has ended is finished.** The object created for it has the code with which its
worker returned, and every section of a wait by a thread that resolved it answers. -/
def Finished (s : EndSystem) : Prop :=
  ∀ tid code, s.status tid = .ended code →
    ∃ r, s.created tid = some r ∧ s.state.heap r = .thread ⟨tid, code, true⟩ ∧
      ∀ w ∈ s.resolved, w.2 = r → ∀ timeout pc,
        ((s.state.heap r).wait timeout pc).1 = .answer true

/-! ### The table and the objects -/

namespace HandleState

variable {s s' : HandleState} {r r' t tid code : ℕ} {o : KernelObject}

theorem isThread_iff : s.IsThread t r = true ↔ ∃ th, s.heap r = .thread th ∧ th.tid = t := by
  rw [IsThread]
  rcases s.heap r with th | e | sem
  · constructor
    · intro h
      exact ⟨th, rfl, of_decide_eq_true h⟩
    · rintro ⟨th', ⟨⟩, h⟩
      exact decide_eq_true h
  · constructor
    · intro h
      cases h
    · rintro ⟨_, ⟨⟩, _⟩
  · constructor
    · intro h
      cases h
    · rintro ⟨_, ⟨⟩, _⟩

theorem isThread_unique (h : s.IsThread t r = true) (h' : s.IsThread tid r = true) : t = tid := by
  obtain ⟨th, hth, rfl⟩ := isThread_iff.mp h
  obtain ⟨th', hth', rfl⟩ := isThread_iff.mp h'
  rw [hth] at hth'
  cases hth'
  rfl

theorem isThread_congr (h : s'.heap r = s.heap r) : s'.IsThread t r = s.IsThread t r := by
  rw [IsThread, IsThread, h]

theorem mem_values : r ∈ s.values ↔ ∃ handle, s.objects.lookup handle = some r := by
  constructor
  · intro h
    obtain ⟨e, he, rfl⟩ := List.mem_map.mp h
    exact ⟨e.1, AList.mem_lookup_iff.mpr he⟩
  · rintro ⟨handle, h⟩
    exact List.mem_map.mpr ⟨⟨handle, r⟩, AList.mem_lookup_iff.mp h, rfl⟩

theorem mem_values_erase {handle : ℕ}
    (h : r ∈ (s.setObjects (s.objects.erase handle)).values) : r ∈ s.values := by
  obtain ⟨k, hk⟩ := mem_values.mp h
  change (s.objects.erase handle).lookup k = some r at hk
  by_cases hkh : k = handle
  · rw [hkh, AList.lookup_erase] at hk
    exact absurd hk (Option.some_ne_none _).symm
  · rw [AList.lookup_erase_ne hkh] at hk
    exact mem_values.mpr ⟨k, hk⟩

theorem mem_values_insert {handle x : ℕ}
    (h : r ∈ (s.setObjects (s.objects.insert handle x)).values) : r = x ∨ r ∈ s.values := by
  obtain ⟨k, hk⟩ := mem_values.mp h
  change (s.objects.insert handle x).lookup k = some r at hk
  by_cases hkh : k = handle
  · rw [hkh, AList.lookup_insert] at hk
    exact .inl (Option.some.inj hk).symm
  · rw [AList.lookup_insert_ne hkh] at hk
    exact .inr (mem_values.mpr ⟨k, hk⟩)

/-- **Finishing an object** changes that one, and it stays a thread with its id. -/
theorem finish_spec (h : s.IsThread tid r = true) (code : ℕ) :
    s.finish r code = s.setObj r (.thread ⟨tid, code, true⟩) := by
  obtain ⟨th, hth, rfl⟩ := isThread_iff.mp h
  rw [finish, hth]
  rfl

theorem isThread_setObj (h : s.IsThread tid r = true) (code t r' : ℕ) :
    (s.setObj r (.thread ⟨tid, code, true⟩)).IsThread t r' = s.IsThread t r' := by
  by_cases hr : r' = r
  · subst hr
    obtain ⟨th, hth, rfl⟩ := isThread_iff.mp h
    show (match Function.update s.heap r' _ r' with
      | .thread th' => decide (th'.tid = t)
      | _ => false) = _
    rw [Function.update_self, IsThread, hth]
  · exact isThread_congr (Function.update_of_ne hr ..)

/-- **Which object is found**: one in the table with the id, if there is one. -/
theorem finishTid_spec {values : List ℕ} (hp : values.Perm s.values) (tid code : ℕ) :
    (∃ r ∈ s.values, s.IsThread tid r = true ∧
      s.finishTid values tid code = s.setObj r (.thread ⟨tid, code, true⟩)) ∨
    ((∀ r ∈ s.values, s.IsThread tid r = false) ∧ s.finishTid values tid code = s) := by
  rcases hf : values.find? (s.IsThread tid) with - | r
  · refine .inr ⟨fun r hr => ?_, ?_⟩
    · exact Bool.not_eq_true _ ▸ List.find?_eq_none.mp hf r (hp.mem_iff.mpr hr)
    · rw [finishTid, hf]
  · have hthread : s.IsThread tid r = true := List.find?_some hf
    refine .inl ⟨r, hp.mem_iff.mp (List.mem_of_find?_eq_some hf), hthread, ?_⟩
    rw [finishTid, hf]
    exact finish_spec hthread code

/-- **A tidy table**: no id belongs to two objects in it. -/
structure Tidy (s : HandleState) : Prop where
  /-- References are old. -/
  refs : ∀ r ∈ s.values, r < s.nextRef
  /-- An id belongs to one object. -/
  unique : ∀ r ∈ s.values, ∀ r' ∈ s.values, ∀ t,
    s.IsThread t r = true → s.IsThread t r' = true → r = r'
  /-- Ids were given out. -/
  young : ∀ r ∈ s.values, ∀ t, s.IsThread t r = true → t < s.threads.nextTid

/-- Fewer handles, and objects that stay what they are. -/
theorem Tidy.of_subset (h : s.Tidy) (hvalues : ∀ r ∈ s'.values, r ∈ s.values)
    (hthread : ∀ t, ∀ r < s.nextRef, s'.IsThread t r = s.IsThread t r) (href : s.nextRef ≤ s'.nextRef)
    (htid : s.threads.nextTid ≤ s'.threads.nextTid) : s'.Tidy := by
  have hold : ∀ t, ∀ r ∈ s'.values, s'.IsThread t r = true → s.IsThread t r = true :=
    fun t r hr ht => hthread t r (h.refs r (hvalues r hr)) ▸ ht
  refine ⟨fun r hr => (h.refs r (hvalues r hr)).trans_le href, fun r hr r' hr' t ht ht' => ?_,
    fun r hr t ht => (h.young r (hvalues r hr) t (hold t r hr ht)).trans_le htid⟩
  exact h.unique r (hvalues r hr) r' (hvalues r' hr') t (hold t r hr ht) (hold t r' hr' ht')

theorem register_heap (s : HandleState) (o : KernelObject) :
    (s.register o).2.heap = Function.update s.heap s.nextRef o := rfl

theorem isThread_register (h : r < s.nextRef) :
    (s.register o).2.IsThread t r = s.IsThread t r :=
  isThread_congr (Function.update_of_ne h.ne ..)

theorem mem_values_register (h : r ∈ (s.register o).2.values) : r = s.nextRef ∨ r ∈ s.values :=
  mem_values_insert (s := s) h

/-- **A new object**, of an id that is not in the table. -/
theorem Tidy.register (h : s.Tidy) (hnew : ∀ th, o = .thread th →
      th.tid < s.threads.nextTid ∧ ∀ r ∈ s.values, s.IsThread th.tid r = false) :
    (s.register o).2.Tidy := by
  have hself : ∀ t, (s.register o).2.IsThread t s.nextRef = true →
      t < s.threads.nextTid ∧ ∀ r ∈ s.values, s.IsThread t r = false := by
    intro t ht
    obtain ⟨th, hth, rfl⟩ := isThread_iff.mp ht
    rw [register_heap, Function.update_self] at hth
    exact hnew th hth
  have hold : ∀ t, ∀ r ∈ s.values, (s.register o).2.IsThread t r = s.IsThread t r :=
    fun t r hr => isThread_register (h.refs r hr)
  refine ⟨fun r hr => ?_, fun r hr r' hr' t ht ht' => ?_, fun r hr t ht => ?_⟩
  · show r < s.nextRef + 1
    rcases mem_values_register hr with rfl | hr
    · exact Nat.lt_succ_self _
    · exact Nat.lt_succ_of_lt (h.refs r hr)
  · rcases mem_values_register hr with rfl | hr
    · rcases mem_values_register hr' with rfl | hr'
      · rfl
      · rw [hold t r' hr', (hself t ht).2 r' hr'] at ht'
        cases ht'
    · rcases mem_values_register hr' with rfl | hr'
      · rw [hold t r hr, (hself t ht').2 r hr] at ht
        cases ht
      · exact h.unique r hr r' hr' t (hold t r hr ▸ ht) (hold t r' hr' ▸ ht')
  · show t < s.threads.nextTid
    rcases mem_values_register hr with rfl | hr
    · exact (hself t ht).1
    · exact h.young r hr t (hold t r hr ▸ ht)

theorem mem_values_insertDuplicate {x : ℕ} (h : r ∈ (s.insertDuplicate x).values) :
    r = x ∨ r ∈ s.values := mem_values_insert (s := s) h

/-- One more handle of an object in the table. -/
theorem Tidy.insertDuplicate (h : s.Tidy) (hr : r ∈ s.values) : (s.insertDuplicate r).Tidy := by
  refine h.of_subset (fun r' hr' => ?_) (fun _ _ _ => rfl) le_rfl le_rfl
  rcases mem_values_insertDuplicate hr' with rfl | hr'
  · exact hr
  · exact hr'

/-- **What calls do to objects that there are**: nothing. -/
structure Grows (s s' : HandleState) : Prop where
  /-- The table stays tidy. -/
  tidy : s'.Tidy
  /-- Objects do not change. -/
  heap : ∀ r < s.nextRef, s'.heap r = s.heap r
  /-- There are more of them. -/
  refs : s.nextRef ≤ s'.nextRef
  /-- No id is given out. -/
  threads : s'.threads = s.threads

theorem Tidy.closeHandle (h : s.Tidy) (handle : ℕ) (isOpenFile : Bool) :
    Grows s (s.closeHandle handle isOpenFile) := by
  have hsame : Grows s s := ⟨h, fun _ _ => rfl, le_rfl, rfl⟩
  rw [HandleState.closeHandle]
  by_cases h0 : handle = 0 ∨ handle = INVALID_HANDLE_VALUE
  · rw [if_pos h0]
    exact hsame
  rw [if_neg h0]
  by_cases hf : isOpenFile = true
  · rw [if_pos hf]
    exact hsame
  · rw [if_neg hf]
    exact ⟨h.of_subset (fun r hr => mem_values_erase hr) (fun _ _ _ => rfl) le_rfl le_rfl,
      fun _ _ => rfl, le_rfl, rfl⟩

theorem Tidy.duplicateHandle (h : s.Tidy) {values : List ℕ} (hp : values.Perm s.values)
    (htid : tid < s.threads.nextTid) (source : ℕ) (closeSource : Bool) :
    Grows s (s.duplicateHandle values tid source closeSource) := by
  rw [HandleState.duplicateHandle]
  by_cases hpseudo : source = 2 ^ 64 - 1 ∨ source = 2 ^ 64 - 2
  · rw [if_pos hpseudo]
    rcases hf : values.find? (s.IsThread tid) with - | r
    · have hnone : ∀ r ∈ s.values, s.IsThread tid r = false := fun r hr =>
        Bool.not_eq_true _ ▸ List.find?_eq_none.mp hf r (hp.mem_iff.mpr hr)
      have hreg : (s.register (newThread tid)).2.Tidy := by
        refine h.register ?_
        rintro th ⟨⟩
        exact ⟨htid, hnone⟩
      have hmem : (s.register (newThread tid)).1 ∈ (s.register (newThread tid)).2.values :=
        mem_values.mpr ⟨s.nextHandle, AList.lookup_insert _⟩
      exact ⟨hreg.insertDuplicate hmem, fun r hr => Function.update_of_ne hr.ne .., Nat.le_succ _,
        rfl⟩
    · have hr : r ∈ s.values := hp.mem_iff.mp (List.mem_of_find?_eq_some hf)
      exact ⟨h.insertDuplicate hr, fun _ _ => rfl, le_rfl, rfl⟩
  · rw [if_neg hpseudo]
    rcases hl : s.objects.lookup source with - | r
    · exact ⟨h, fun _ _ => rfl, le_rfl, rfl⟩
    · have hdup := h.insertDuplicate (mem_values.mpr ⟨source, hl⟩)
      dsimp only
      by_cases hc : closeSource = true
      · rw [if_pos hc]
        exact ⟨hdup.of_subset (fun r hr => mem_values_erase hr) (fun _ _ _ => rfl) le_rfl le_rfl,
          fun _ _ => rfl, le_rfl, rfl⟩
      · rw [if_neg hc]
        exact ⟨hdup, fun _ _ => rfl, le_rfl, rfl⟩

theorem Tidy.registerObject (h : s.Tidy) (ho : ∀ t, o ≠ .thread t) :
    Grows s (s.register o).2 :=
  ⟨h.register fun th hth => absurd hth (ho th), fun _ hr => Function.update_of_ne hr.ne ..,
    Nat.le_succ _, rfl⟩

/-- **Finishing one object** keeps the table tidy. -/
theorem Tidy.setObj (h : s.Tidy) (hr : s.IsThread tid r = true) (code : ℕ) :
    (s.setObj r (.thread ⟨tid, code, true⟩)).Tidy :=
  h.of_subset (fun _ hr' => hr') (fun t r' _ => isThread_setObj hr code t r') le_rfl le_rfl

theorem isThread_teardown (s : HandleState) (t r : ℕ) :
    s.joinWorkers.IsThread t r = s.IsThread t r := by
  have hheap : s.joinWorkers.heap r = if r ∈ s.values then teardown (s.heap r) else s.heap r := rfl
  by_cases hr : r ∈ s.values
  · rw [if_pos hr] at hheap
    rw [IsThread, IsThread, hheap]
    rcases s.heap r with th | e | sem
    · show decide ((if th.finished then th else th.finish 1).tid = t) = decide (th.tid = t)
      by_cases hf : th.finished = true
      · rw [if_pos hf]
      · rw [if_neg hf]
        rfl
    · rfl
    · rfl
  · exact isThread_congr (hheap.trans (if_neg hr))

/-- Teardown leaves what is finished alone. -/
theorem joinWorkers_finished (h : s.heap r = .thread ⟨t, code, true⟩) :
    s.joinWorkers.heap r = .thread ⟨t, code, true⟩ := by
  have hheap : s.joinWorkers.heap r = if r ∈ s.values then teardown (s.heap r) else s.heap r := rfl
  rw [hheap, h]
  by_cases hr : r ∈ s.values
  · rw [if_pos hr]
    rfl
  · rw [if_neg hr]

end HandleState

/-- A wait for a finished thread answers, wherever it stands. -/
theorem KernelObject.wait_finished (t code timeout : ℕ) (pc : WaitPc) :
    ((KernelObject.thread ⟨t, code, true⟩).wait timeout pc).1 = .answer true := by
  match pc with
  | .enter => rfl
  | .woken timedOut =>
    show (if timeout = INFINITE then Section.answer true else .answer true) = _
    exact ite_self _

/-! ### Every run -/

/-- **What holds between actions.** -/
structure EndInv (s : EndSystem) : Prop where
  /-- The table is tidy. -/
  tidy : s.state.Tidy
  /-- The primary thread is older than all workers. -/
  primary : PRIMARY_THREAD_ID < s.state.threads.nextTid
  /-- Objects that were created are threads with their ids. -/
  created : ∀ t r, s.created t = some r →
    r < s.state.nextRef ∧ t < s.state.threads.nextTid ∧ s.state.IsThread t r = true
  /-- Workers have objects. -/
  known : ∀ t, s.status t ≠ .absent → ∃ r, s.created t = some r
  /-- Those that have ended are finished. -/
  finished : ∀ t code, s.status t = .ended code →
    ∃ r, s.created t = some r ∧ s.state.heap r = .thread ⟨t, code, true⟩

namespace EndInv

variable {s : EndSystem}

theorem boot : EndInv endBoot where
  tidy :=
    { refs := by decide
      unique := fun r hr r' hr' _ _ _ => by
        have h0 : ∀ x ∈ endBoot.state.values, x = 0 := by decide
        rw [h0 r hr, h0 r' hr']
      young := fun r _ t ht => by
        have htid : PRIMARY_THREAD_ID = t := of_decide_eq_true ht
        rw [← htid]
        decide }
  primary := by decide
  created := nofun
  known := fun t h => absurd rfl h
  finished := nofun

/-- A thread that runs has a young id. -/
theorem lt_of_status (h : EndInv s) {t : ℕ} (ht : s.status t ≠ .absent) :
    t < s.state.threads.nextTid := by
  obtain ⟨r, hr⟩ := h.known t ht
  exact (h.created t r hr).2.1

/-- Calls that change no object. -/
theorem grows (h : EndInv s) {state : HandleState} (hg : s.state.Grows state) :
    EndInv (s.setState state) where
  tidy := hg.tidy
  primary := by
    show _ < state.threads.nextTid
    rw [hg.threads]
    exact h.primary
  created t r hr := by
    obtain ⟨h1, h2, h3⟩ := h.created t r hr
    refine ⟨h1.trans_le hg.refs, ?_, ?_⟩
    · show t < state.threads.nextTid
      rw [hg.threads]
      exact h2
    · exact (HandleState.isThread_congr (hg.heap r h1)).trans h3
  known := h.known
  finished t code ht := by
    obtain ⟨r, hr, hheap⟩ := h.finished t code ht
    exact ⟨r, hr, (hg.heap r (h.created t r hr).1).trans hheap⟩

/-- **An id of a worker that has not ended is finished.** -/
theorem finishTid (h : EndInv s) {values : List ℕ} (hp : values.Perm s.state.values) {tid : ℕ}
    (hrun : ∀ code, s.status tid ≠ .ended code) (code : ℕ) :
    EndInv (s.setState (s.state.finishTid values tid code)) := by
  rcases HandleState.finishTid_spec hp tid code with ⟨r, hr, hthread, heq⟩ | ⟨-, heq⟩
  · rw [heq]
    refine ⟨h.tidy.setObj hthread code, h.primary, fun t r' hr' => ?_, h.known, fun t c ht => ?_⟩
    · obtain ⟨h1, h2, h3⟩ := h.created t r' hr'
      exact ⟨h1, h2, (HandleState.isThread_setObj hthread code t r').trans h3⟩
    · obtain ⟨r', hr', hheap⟩ := h.finished t c ht
      refine ⟨r', hr', (Function.update_of_ne ?_ ..).trans hheap⟩
      rintro rfl
      have htid := HandleState.isThread_unique (h.created t r' hr').2.2 hthread
      exact hrun c (htid ▸ ht)
  · rw [heq]
    exact h

/-- The object that is finished is the one that was created, when that is in the table. -/
theorem finishTid_created (h : EndInv s) {values : List ℕ} (hp : values.Perm s.state.values)
    {tid r : ℕ} (hr : s.created tid = some r) {code : ℕ}
    (hheld : r ∈ s.state.values ∨ s.state.heap r = .thread ⟨tid, code, true⟩) :
    (s.state.finishTid values tid code).heap r = .thread ⟨tid, code, true⟩ := by
  have hthread := (h.created tid r hr).2.2
  rcases HandleState.finishTid_spec hp tid code with ⟨r', hr', hthread', heq⟩ | ⟨hnone, heq⟩
  · rw [heq]
    by_cases hrr : r = r'
    · subst hrr
      exact Function.update_self ..
    · refine (Function.update_of_ne hrr ..).trans (hheld.resolve_left fun hmem => hrr ?_)
      exact h.tidy.unique r hmem r' hr' tid hthread hthread'
  · rw [heq]
    refine hheld.resolve_left fun hmem => ?_
    rw [hnone r hmem] at hthread
    cases hthread

/-- **A thread is created**, with an id that no other has. -/
theorem createThread (h : EndInv s) (hroom : s.state.threads.nextTid < 2 ^ 32 - 1) :
    EndInv (s.next .createThread) := by
  obtain ⟨threads, hthreads⟩ : ∃ threads, threads = s.state.threads.allocWorker.2 := ⟨_, rfl⟩
  have hnext : threads.nextTid = s.state.threads.nextTid + 1 := by
    rw [hthreads]
    show (if satAdd32 s.state.threads.nextTid 1 = 0 then FIRST_WORKER_TID
      else satAdd32 s.state.threads.nextTid 1) = _
    rw [satAdd32, if_neg (by omega)]
    omega
  have heq : s.next .createThread =
      { s with
        state := ({ s.state with threads := threads }.register
          (HandleState.newThread s.state.threads.nextTid)).2
        status := Function.update s.status s.state.threads.nextTid .waiting
        created := Function.update s.created s.state.threads.nextTid
          (some s.state.nextRef) } := by
    rw [hthreads]
    rfl
  have htidy : { s.state with threads := threads }.Tidy := by
    refine h.tidy.of_subset (fun _ hr => hr) (fun _ _ _ => rfl) le_rfl ?_
    show _ ≤ threads.nextTid
    omega
  have hold : ∀ t, s.status t ≠ .absent → t ≠ s.state.threads.nextTid := fun t ht =>
    (h.lt_of_status ht).ne
  rw [heq]
  refine ⟨htidy.register ?_, ?_, fun t r hr => ?_, fun t ht => ?_, fun t code ht => ?_⟩
  · rintro th ⟨⟩
    refine ⟨?_, fun r hr => ?_⟩
    · show s.state.threads.nextTid < threads.nextTid
      omega
    · by_contra hth
      rw [Bool.not_eq_false] at hth
      exact absurd (h.tidy.young r hr _ hth) (lt_irrefl _)
  · show _ < threads.nextTid
    have := h.primary
    omega
  · change Function.update s.created s.state.threads.nextTid (some s.state.nextRef) t = some r at hr
    show r < s.state.nextRef + 1 ∧ t < threads.nextTid ∧ _
    by_cases ht : t = s.state.threads.nextTid
    · subst ht
      rw [Function.update_self] at hr
      obtain rfl := Option.some.inj hr
      refine ⟨Nat.lt_succ_self _, by omega, HandleState.isThread_iff.mpr ?_⟩
      exact ⟨_, Function.update_self .., rfl⟩
    · rw [Function.update_of_ne ht] at hr
      obtain ⟨h1, h2, h3⟩ := h.created t r hr
      refine ⟨Nat.lt_succ_of_lt h1, by omega, ?_⟩
      exact (HandleState.isThread_congr (Function.update_of_ne h1.ne ..)).trans h3
  · show ∃ r, Function.update s.created s.state.threads.nextTid (some s.state.nextRef) t = some r
    by_cases htn : t = s.state.threads.nextTid
    · rw [htn, Function.update_self]
      exact ⟨_, rfl⟩
    · rw [Function.update_of_ne htn]
      change Function.update s.status s.state.threads.nextTid .waiting t ≠ .absent at ht
      rw [Function.update_of_ne htn] at ht
      exact h.known t ht
  · change Function.update s.status s.state.threads.nextTid .waiting t = .ended code at ht
    by_cases htn : t = s.state.threads.nextTid
    · rw [htn, Function.update_self] at ht
      cases ht
    · rw [Function.update_of_ne htn] at ht
      obtain ⟨r, hr, hheap⟩ := h.finished t code ht
      refine ⟨r, (Function.update_of_ne htn ..).trans hr, ?_⟩
      exact (Function.update_of_ne (h.created t r hr).1.ne ..).trans hheap

theorem start (h : EndInv s) {tid : ℕ} (hw : s.status tid = .waiting) :
    EndInv (s.next (.start tid)) := by
  refine ⟨h.tidy, h.primary, h.created, fun t ht => ?_, fun t code ht => ?_⟩
  · by_cases htt : t = tid
    · exact h.known t (by
        rw [htt, hw]
        exact nofun)
    · change Function.update s.status tid .running t ≠ .absent at ht
      rw [Function.update_of_ne htt] at ht
      exact h.known t ht
  · change Function.update s.status tid .running t = .ended code at ht
    by_cases htt : t = tid
    · rw [htt, Function.update_self] at ht
      cases ht
    · rw [Function.update_of_ne htt] at ht
      exact h.finished t code ht

theorem resolve (h : EndInv s) (waiter handle : ℕ) : EndInv (s.next (.resolve waiter handle)) := by
  have hcases : (s.next (.resolve waiter handle)) = s ∨ ∃ r, s.next (.resolve waiter handle) =
      { s with resolved := (waiter, r) :: s.resolved } := by
    rw [EndSystem.next]
    rcases s.state.objects.lookup handle with - | r
    · exact .inl rfl
    · exact .inr ⟨r, rfl⟩
  rcases hcases with heq | ⟨r, heq⟩
  · rw [heq]
    exact h
  · rw [heq]
    exact ⟨h.tidy, h.primary, h.created, h.known, h.finished⟩

theorem joinWorkers (h : EndInv s) : EndInv (s.next .joinWorkers) := by
  refine ⟨?_, h.primary, fun t r hr => ?_, h.known, fun t code ht => ?_⟩
  · exact h.tidy.of_subset (fun _ hr => hr)
      (fun t r _ => HandleState.isThread_teardown s.state t r) le_rfl le_rfl
  · obtain ⟨h1, h2, h3⟩ := h.created t r hr
    exact ⟨h1, h2, (HandleState.isThread_teardown s.state t r).trans h3⟩
  · obtain ⟨r, hr, hheap⟩ := h.finished t code ht
    exact ⟨r, hr, HandleState.joinWorkers_finished hheap⟩

/-- **A worker that returns** finishes its object. -/
theorem returned (h : EndInv s) {values : List ℕ} (hp : values.Perm s.state.values) {tid : ℕ}
    (hrun : s.status tid = .running) {code : ℕ} (hheld : Held s tid code) :
    EndInv { s with
      state := s.state.finishTid values tid code
      status := Function.update s.status tid (.ended code) } := by
  obtain ⟨r, hr, hheld⟩ := hheld
  have hne : ∀ c, s.status tid ≠ .ended c := by
    rw [hrun]
    exact fun c => nofun
  have hfin := h.finishTid hp hne code
  refine ⟨hfin.tidy, hfin.primary, hfin.created, fun t ht => ?_, fun t c ht => ?_⟩
  · by_cases htt : t = tid
    · exact ⟨r, (congrArg s.created htt).trans hr⟩
    · change Function.update s.status tid _ t ≠ .absent at ht
      rw [Function.update_of_ne htt] at ht
      exact h.known t ht
  · change Function.update s.status tid (.ended code) t = .ended c at ht
    by_cases htt : t = tid
    · subst htt
      rw [Function.update_self] at ht
      cases ht
      exact ⟨r, hr, h.finishTid_created hp hr hheld⟩
    · rw [Function.update_of_ne htt] at ht
      exact hfin.finished t c ht

theorem values_finishTid (state : HandleState) (values : List ℕ) (tid code : ℕ) :
    (state.finishTid values tid code).values = state.values := by
  rw [HandleState.finishTid]
  rcases values.find? (state.IsThread tid) with - | r
  · rfl
  · dsimp only
    rw [HandleState.finish]
    rcases state.heap r with th | e | sem <;> rfl

theorem workerReturns (h : EndInv s) {values : List ℕ} (hp : values.Perm s.state.values) {tid : ℕ}
    (hrun : s.status tid = .running) {why : WorkerEnd} (hheld : Held s tid why.code) :
    EndInv (s.next (.workerReturns values tid why)) := by
  cases why with
  | exitProcess rcx =>
    have hdying : EndInv (s.setState { s.state with processDying := true }) :=
      h.grows ⟨h.tidy.of_subset (fun _ hr => hr) (fun _ _ _ => rfl) le_rfl le_rfl,
        fun _ _ => rfl, le_rfl, rfl⟩
    exact hdying.returned hp hrun hheld
  | exitThread rcx =>
    have hne : ∀ c, s.status tid ≠ .ended c := by
      rw [hrun]
      exact fun c => nofun
    obtain ⟨r, hr, hheld⟩ := hheld
    refine (h.finishTid hp hne (rcx % 2 ^ 32)).returned ?_ hrun
      ⟨r, hr, .inr (h.finishTid_created hp hr hheld)⟩
    show values.Perm (s.state.finishTid values tid (rcx % 2 ^ 32)).values
    rw [values_finishTid]
    exact hp
  | hooksFailed => exact h.returned hp hrun hheld
  | dying => exact h.returned hp hrun hheld
  | returned rax => exact h.returned hp hrun hheld
  | runError => exact h.returned hp hrun hheld
  | invalidMemory => exact h.returned hp hrun hheld
  | sehFailed => exact h.returned hp hrun hheld
  | unresolved => exact h.returned hp hrun hheld
  | dispatchError => exact h.returned hp hrun hheld

/-- **One action.** -/
theorem step (h : EndInv s) {a : EndAction} (hr : EndRuns s a) (hk : EndKeeps s a) :
    EndInv (s.next a) := by
  cases a with
  | createThread => exact h.createThread hk
  | start tid => exact h.start hr
  | createObject o => exact h.grows (h.tidy.registerObject hr)
  | closeHandle handle isOpenFile => exact h.grows (h.tidy.closeHandle handle isOpenFile)
  | duplicateHandle values tid source closeSource =>
    refine h.grows (h.tidy.duplicateHandle hr.1 ?_ source closeSource)
    rcases hr.2 with rfl | hrun
    · exact h.primary
    · exact h.lt_of_status (by
        rw [hrun]
        exact nofun)
  | resolve waiter handle => exact h.resolve waiter handle
  | parkDying values tid =>
    refine h.finishTid hr.1 (fun c => ?_) 1
    rw [hr.2]
    exact nofun
  | workerReturns values tid why => exact h.workerReturns hr.1 hr.2 hk
  | joinWorkers => exact h.joinWorkers

end EndInv

/-- **Threads that have ended are finished**, in every run in which the object of a thread is still
held when its worker returns. -/
theorem ended_finished {s : EndSystem} (hr : EndReach EndKeeps s) : Finished s := by
  have h : EndInv s := by
    refine GuardedReach.invariant (I := EndInv) ?_ ?_ hr
    · rintro s rfl
      exact .boot
    · rintro s a _ h ⟨hruns, hk⟩ rfl
      exact h.step hruns hk
  intro tid code ht
  obtain ⟨r, hc, hheap⟩ := h.finished tid code ht
  refine ⟨r, hc, hheap, fun w _ _ timeout pc => ?_⟩
  rw [hheap]
  exact KernelObject.wait_finished tid code timeout pc

/-- One more action of a run. -/
theorem EndReach.next {ok : EndSystem → EndAction → Prop} {s : EndSystem} (hr : EndReach ok s)
    (a : EndAction) (hruns : EndRuns s a) (hok : ok s a) : EndReach ok (s.next a) :=
  .step hr ⟨hruns, hok⟩ rfl

/-- A worker is created and started, and another thread looks its handle up to wait for it. -/
def awaited : EndSystem :=
  ((endBoot.next .createThread).next (.start 0x5679)).next (.resolve PRIMARY_THREAD_ID 0x80000002)

theorem awaited_reach : EndReach EndKeeps awaited := by
  have hboot : EndReach EndKeeps endBoot := .init rfl
  have hroom : endBoot.state.threads.nextTid < 2 ^ 32 - 1 := by decide
  exact ((hboot.next .createThread trivial hroom).next (.start 0x5679) rfl trivial).next
    (.resolve PRIMARY_THREAD_ID 0x80000002) trivial trivial

/-- The worker returns seven, and only then its handle is closed. -/
theorem ended_finished_awaited :
    Finished ((awaited.next (.workerReturns [1, 0] 0x5679 (.returned 7))).next
      (.closeHandle 0x80000002 false)) := by
  have hheld : Held awaited 0x5679 7 := ⟨1, rfl, .inl (by decide)⟩
  have hreturned := awaited_reach.next (.workerReturns [1, 0] 0x5679 (.returned 7))
    ⟨by decide, rfl⟩ hheld
  exact ended_finished (hreturned.next (.closeHandle 0x80000002 false) trivial trivial)

/-- **A closed handle**: the object that the other thread waits for is never finished. -/
theorem not_ended_finished : ¬∀ s, EndReach (fun _ _ => True) s → Finished s := by
  intro h
  have hr : EndReach (fun _ _ => True) awaited :=
    GuardedReach.mono (fun _ _ hg => ⟨hg.1, trivial⟩) awaited_reach
  have hclosed := EndReach.next hr (.closeHandle 0x80000002 false) trivial trivial
  have hreturned := EndReach.next hclosed (.workerReturns [0] 0x5679 (.returned 7))
    ⟨by decide, rfl⟩ trivial
  obtain ⟨r, hr, hheap, -⟩ := h _ hreturned 0x5679 7 rfl
  obtain rfl : 1 = r := Option.some.inj hr
  cases hheap

end Wie
