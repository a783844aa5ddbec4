import Mathlib.Data.List.GetD
import Wie.Lib.Reach
import Wie.Winapi.Engine
import Wie.Winapi.Thread

/-!
# Thread-local storage

Indices belong to the process and values to a thread. A handler sees the values of the active thread
only, and that record is swapped in and out of a table at every call, so what has to be shown is
about the swap: what a thread finds is what it left.

The vector of a thread is grown when it is looked at. It can be shorter than the number of indices
for as long as the thread does not run, and a missing entry is a zero.

## Main definitions

* `handleTlsAlloc`, `handleTlsSetValue`, `handleTlsGetValue` — the handlers
* `TlsSystem`, `TlsSystem.next` — threads that make calls, with the calls answered so far
* `Isolated` — what the answers have to be

## Main results

* `ThreadState.slotOf_activate` — the swap changes no value of any thread
* `tls_isolated` — while no counter is at its top, no index is given out twice and threads see their
  own values
* `not_tls_isolated` — and at the top they do not
-/

namespace Wie

namespace ThreadState

/-- The active thread with one value changed. -/
def setActiveTls (s : ThreadState) (idx value : ℕ) : ThreadState :=
  { s with active := { s.active with tlsValues := s.active.tlsValues.set idx value } }

/-- One index more. -/
def bumpTlsCount (s : ThreadState) : ThreadState :=
  { s with tlsIndexCount := satAdd32 s.tlsIndexCount 1 }

end ThreadState

/-- What the handlers use of the state of the process. -/
structure TlsState where
  /-- The threads. -/
  threads : ThreadState
  /-- The error of the last call. -/
  lastError : ℕ

/-- `handle_tls_get_value`. -/
def handleTlsGetValue (e : CpuEngine) (s : TlsState) : (ApiResult × CpuEngine) × TlsState :=
  let idx := e.regs.rcx % 2 ^ 32
  if s.threads.tlsIndexCount ≤ idx then
    (e.returnFromWin64Api 0, { s with lastError := ERROR_INVALID_PARAMETER })
  else
    let threads := s.threads.growActiveTls
    (e.returnFromWin64Api (threads.active.tlsValues.getD idx 0), ⟨threads, 0⟩)

/-- `handle_tls_set_value`. -/
def handleTlsSetValue (e : CpuEngine) (s : TlsState) : (ApiResult × CpuEngine) × TlsState :=
  let idx := e.regs.rcx % 2 ^ 32
  let value := e.regs.rdx
  if s.threads.tlsIndexCount ≤ idx then
    (e.returnFromWin64Api 0, { s with lastError := ERROR_INVALID_PARAMETER })
  else
    let threads := s.threads.growActiveTls
    if idx < threads.active.tlsValues.length then
      (e.returnFromWin64Api 1, ⟨threads.setActiveTls idx value, 0⟩)
    else (e.returnFromWin64Api 0, ⟨threads, ERROR_INVALID_PARAMETER⟩)

/-- `handle_tls_alloc`. -/
def handleTlsAlloc (e : CpuEngine) (s : TlsState) : (ApiResult × CpuEngine) × TlsState :=
  let index := s.threads.tlsIndexCount
  (e.returnFromWin64Api index, ⟨s.threads.bumpTlsCount.growActiveTls, 0⟩)

/-! ### Threads that make calls -/

/-- The calls. -/
inductive TlsCall
  | alloc
  | set
  | get
deriving DecidableEq

/-- The handler of a call. -/
def TlsCall.handle : TlsCall → CpuEngine → TlsState → (ApiResult × CpuEngine) × TlsState
  | .alloc => handleTlsAlloc
  | .set => handleTlsSetValue
  | .get => handleTlsGetValue

/-- A call that was answered. -/
structure TlsAnswer where
  /-- Who called. -/
  tid : ℕ
  /-- What. -/
  call : TlsCall
  /-- The index asked about. -/
  index : ℕ
  /-- The value to set. -/
  value : ℕ
  /-- The answer. -/
  result : Option ℕ
deriving DecidableEq

/-- The process and the calls answered so far, newest first. A thread whose call ended in an error
makes no more. -/
structure TlsSystem where
  /-- The state of the process. -/
  state : TlsState
  /-- Threads that are gone. -/
  stopped : List ℕ
  /-- The calls so far. -/
  history : List TlsAnswer

/-- What can happen. -/
inductive TlsAction
  /-- A thread is created. -/
  | allocWorker
  /-- A thread makes a call. -/
  | dispatch (tid : ℕ) (call : TlsCall) (e : CpuEngine)

namespace TlsSystem

/-- A dispatch section: the thread puts itself in the active slot and its call is handled. -/
def call (s : TlsSystem) (tid : ℕ) (call : TlsCall) (e : CpuEngine) :
    (ApiResult × CpuEngine) × TlsState :=
  call.handle e ⟨s.state.threads.activate tid, s.state.lastError⟩

/-- One action. -/
def next (s : TlsSystem) : TlsAction → TlsSystem
  | .allocWorker => ⟨⟨s.state.threads.allocWorker.2, s.state.lastError⟩, s.stopped, s.history⟩
  | .dispatch tid call e =>
    let r := s.call tid call e
    { state := r.2
      stopped := if r.1.1.value.isSome then s.stopped else tid :: s.stopped
      history := ⟨tid, call, e.regs.rcx % 2 ^ 32, e.regs.rdx, r.1.1.value⟩ :: s.history }

end TlsSystem

/-- Calls are made by threads that exist and have not stopped. -/
def TlsRuns (s : TlsSystem) : TlsAction → Prop
  | .allocWorker => True
  | .dispatch tid _ _ => tid ∈ s.state.threads.byTid ∧ tid ∉ s.stopped

/-- Neither counter is at its top when it is used. -/
def TlsRoom (s : TlsSystem) : TlsAction → Prop
  | .allocWorker => s.state.threads.nextTid < 2 ^ 32 - 1
  | .dispatch _ call _ => call = .alloc → s.state.threads.tlsIndexCount < 2 ^ 32 - 1

/-- The primary thread alone, before any call. -/
def tlsBoot : TlsSystem := ⟨⟨.primary, 0⟩, [], []⟩

/-- The states of runs whose actions meet `guard`. -/
def TlsReach (guard : TlsSystem → TlsAction → Prop) : TlsSystem → Prop :=
  GuardedReach (· = tlsBoot) (fun s a => TlsRuns s a ∧ guard s a) fun s a s' => s' = s.next a

/-- The indices given out. -/
def indices (hs : List TlsAnswer) : List ℕ :=
  hs.filterMap fun a => if a.call = .alloc then a.result else none

/-- What a thread stored last under an index, or zero. -/
def lastSet (t i : ℕ) : List TlsAnswer → ℕ
  | [] => 0
  | a :: hs =>
    if a.tid = t ∧ a.call = .set ∧ a.index = i ∧ a.result = some 1 then a.value else lastSet t i hs

/-- No index was given out twice, and a thread that asked for a value was given what it stored last
itself, or zero. -/
def Isolated : List TlsAnswer → Prop
  | [] => True
  | a :: hs => Isolated hs ∧
    (a.call = .alloc → ∀ n, a.result = some n → n ∉ indices hs) ∧
    (a.call = .get → ∀ v, a.result = some v → v = lastSet a.tid a.index hs)

/-! ### Values of threads -/

@[simp] theorem getD_growTls (values : List ℕ) (need i : ℕ) :
    (growTls values need).getD i 0 = values.getD i 0 := by
  rw [growTls]
  by_cases hi : i < values.length
  · exact List.getD_append _ _ _ _ hi
  · rw [List.getD_append_right _ _ _ _ (by omega), List.getD_eq_default values 0 (by omega)]
    simp

theorem le_length_growTls (values : List ℕ) (need : ℕ) : need ≤ (growTls values need).length := by
  rw [growTls, List.length_append, List.length_replicate]
  omega

namespace ThreadState

variable {s : ThreadState} {t i : ℕ}

/-- The record of a thread: for the active one the copy in the table is out of date. -/
def recordOf (s : ThreadState) (t : ℕ) : Option GuestThread :=
  if t = s.active.tid then some s.active else s.byTid.lookup t

/-- The value a thread has under an index. -/
def slotOf (s : ThreadState) (t i : ℕ) : ℕ :=
  ((s.recordOf t).map fun gt => gt.tlsValues.getD i 0).getD 0

theorem recordOf_active : s.recordOf s.active.tid = some s.active := if_pos rfl

theorem recordOf_of_ne (h : t ≠ s.active.tid) : s.recordOf t = s.byTid.lookup t := if_neg h

theorem slotOf_active : s.slotOf s.active.tid i = s.active.tlsValues.getD i 0 := by
  rw [slotOf, recordOf_active]
  rfl

/-- A saved table is up to date. -/
theorem lookup_saveActive (s : ThreadState) (t : ℕ) :
    s.saveActive.byTid.lookup t = s.recordOf t := by
  show (s.byTid.insert s.active.tid s.active).lookup t = _
  by_cases ht : t = s.active.tid
  · rw [ht, AList.lookup_insert, recordOf_active]
  · rw [AList.lookup_insert_ne ht, recordOf_of_ne ht]

/-- Values do not change when the active thread has its own and the others are filed as they
were. -/
theorem slotOf_congr (s s' : ThreadState)
    (hby : ∀ t, t ≠ s'.active.tid → s'.byTid.lookup t = s.recordOf t)
    (hv : ∀ i, s'.active.tlsValues.getD i 0 = s.slotOf s'.active.tid i) (t i : ℕ) :
    s'.slotOf t i = s.slotOf t i := by
  by_cases ht : t = s'.active.tid
  · rw [ht, slotOf_active, hv]
  · rw [slotOf, recordOf_of_ne ht, hby t ht]
    rfl

theorem tlsValues_activate (s : ThreadState) (tid : ℕ) :
    (s.activate tid).active.tlsValues = growTls ((s.saveActive.byTid.lookup tid).getD
      ⟨tid, List.replicate s.saveActive.tlsIndexCount 0⟩).tlsValues s.saveActive.tlsIndexCount := by
  rw [activate]
  cases s.saveActive.byTid.lookup tid <;> rfl

/-- **The swap changes no value of any thread.** -/
theorem slotOf_activate (hv : s.Valid) (tid t i : ℕ) :
    (s.activate tid).slotOf t i = s.slotOf t i := by
  have htid : (s.activate tid).active.tid = tid := hv.currentTid_activate tid
  refine slotOf_congr s (s.activate tid) (fun t _ => lookup_saveActive s t) (fun i => ?_) t i
  rw [htid, tlsValues_activate, getD_growTls, slotOf, lookup_saveActive]
  cases s.recordOf tid with
  | some gt => rfl
  | none => simp

theorem slotOf_growActiveTls (s : ThreadState) (t i : ℕ) :
    s.growActiveTls.slotOf t i = s.slotOf t i :=
  slotOf_congr s s.growActiveTls (fun _ ht => (recordOf_of_ne (s := s) ht).symm)
    (fun i => (getD_growTls _ _ i).trans (slotOf_active (s := s)).symm) t i

/-- A new thread has no values. -/
theorem slotOf_allocWorker (hnew : s.nextTid ∉ s.byTid) (t i : ℕ) :
    s.allocWorker.2.slotOf t i = s.slotOf t i := by
  by_cases ht : t = s.active.tid
  · subst ht
    exact (slotOf_active (s := s.allocWorker.2)).trans (slotOf_active (s := s)).symm
  · have hrec : s.allocWorker.2.recordOf t = s.allocWorker.2.byTid.lookup t := recordOf_of_ne ht
    rw [slotOf, slotOf, hrec, recordOf_of_ne ht]
    show (((s.byTid.insert s.nextTid _).lookup t).map _).getD 0 = _
    by_cases hn : t = s.nextTid
    · rw [hn, AList.lookup_insert, AList.lookup_eq_none.mpr hnew]
      show (growTls [] s.tlsIndexCount).getD i 0 = 0
      rw [getD_growTls]
      rfl
    · rw [AList.lookup_insert_ne hn]

/-- Setting a value of the active thread. -/
theorem slotOf_setActiveTls {idx : ℕ} (hi : idx < s.active.tlsValues.length) (value t i : ℕ) :
    (s.setActiveTls idx value).slotOf t i =
      if t = s.active.tid ∧ i = idx then value else s.slotOf t i := by
  by_cases ht : t = s.active.tid
  · subst ht
    have hset : (s.setActiveTls idx value).slotOf s.active.tid i =
        (s.active.tlsValues.set idx value).getD i 0 := slotOf_active (s := s.setActiveTls idx value)
    rw [hset, List.getD_eq_getElem?_getD, List.getElem?_set]
    by_cases hidx : idx = i
    · rw [if_pos hidx, if_pos hi, if_pos ⟨rfl, hidx.symm⟩]
      rfl
    · rw [if_neg hidx, if_neg fun h => hidx h.2.symm, slotOf_active, List.getD_eq_getElem?_getD]
  · have hrec : (s.setActiveTls idx value).recordOf t = s.byTid.lookup t := recordOf_of_ne ht
    rw [if_neg fun h => ht h.1, slotOf, slotOf, hrec, recordOf_of_ne ht]

/-- The thread that makes a call is the active one, and its vector reaches every index. -/
theorem tlsIndexCount_le (s : ThreadState) :
    s.growActiveTls.tlsIndexCount ≤ s.growActiveTls.active.tlsValues.length :=
  le_length_growTls _ _

theorem byTid_activate {tid : ℕ} (h : t ∈ (s.activate tid).byTid) :
    t = s.active.tid ∨ t ∈ s.byTid := (AList.mem_insert s.byTid).mp h

end ThreadState

/-! ### What the handlers do -/

section handlers

variable {e : CpuEngine} {s : TlsState} {v : ℕ}

theorem handleTlsGetValue_of_le (h : s.threads.tlsIndexCount ≤ e.regs.rcx % 2 ^ 32) :
    handleTlsGetValue e s = (e.returnFromWin64Api 0, ⟨s.threads, ERROR_INVALID_PARAMETER⟩) :=
  if_pos h

theorem handleTlsGetValue_of_lt (h : e.regs.rcx % 2 ^ 32 < s.threads.tlsIndexCount) :
    handleTlsGetValue e s =
      (e.returnFromWin64Api (s.threads.slotOf s.threads.active.tid (e.regs.rcx % 2 ^ 32)),
        ⟨s.threads.growActiveTls, 0⟩) := by
  rw [ThreadState.slotOf_active, ← getD_growTls _ s.threads.tlsIndexCount]
  exact if_neg (not_le.mpr h)

theorem handleTlsSetValue_of_le (h : s.threads.tlsIndexCount ≤ e.regs.rcx % 2 ^ 32) :
    handleTlsSetValue e s = (e.returnFromWin64Api 0, ⟨s.threads, ERROR_INVALID_PARAMETER⟩) :=
  if_pos h

/-- The vector was just grown, so the second check of the source does not fail. -/
theorem handleTlsSetValue_of_lt (h : e.regs.rcx % 2 ^ 32 < s.threads.tlsIndexCount) :
    handleTlsSetValue e s = (e.returnFromWin64Api 1,
      ⟨s.threads.growActiveTls.setActiveTls (e.regs.rcx % 2 ^ 32) e.regs.rdx, 0⟩) :=
  (if_neg (not_le.mpr h)).trans (if_pos (lt_of_lt_of_le h s.threads.tlsIndexCount_le))

/-- What no handler changes. -/
structure Kept (s s' : ThreadState) : Prop where
  /-- The table. -/
  byTid : s'.byTid = s.byTid
  /-- The next id. -/
  nextTid : s'.nextTid = s.nextTid
  /-- Whose call it is. -/
  active : s'.active.tid = s.active.tid

theorem Kept.valid {s s' : ThreadState} (h : Kept s s') (hv : s.Valid) : s'.Valid where
  byTid {t gt} ht := hv.byTid (h.byTid ▸ ht)
  active := by
    rw [h.active]
    exact hv.active
  next := by
    rw [h.nextTid]
    exact hv.next

theorem TlsCall.kept (c : TlsCall) (e : CpuEngine) (s : TlsState) :
    Kept s.threads (c.handle e s).2.threads := by
  rcases Nat.lt_or_ge (e.regs.rcx % 2 ^ 32) s.threads.tlsIndexCount with hi | hi
  · match c with
    | .alloc => exact ⟨rfl, rfl, rfl⟩
    | .set =>
      rw [handle, handleTlsSetValue_of_lt hi]
      exact ⟨rfl, rfl, rfl⟩
    | .get =>
      rw [handle, handleTlsGetValue_of_lt hi]
      exact ⟨rfl, rfl, rfl⟩
  · match c with
    | .alloc => exact ⟨rfl, rfl, rfl⟩
    | .set =>
      rw [handle, handleTlsSetValue_of_le hi]
      exact ⟨rfl, rfl, rfl⟩
    | .get =>
      rw [handle, handleTlsGetValue_of_le hi]
      exact ⟨rfl, rfl, rfl⟩

/-- **Asking for a value** changes none, and the answer is the thread's own. -/
theorem handleTlsGetValue_spec (e : CpuEngine) (s : TlsState) :
    (∀ t i, (handleTlsGetValue e s).2.threads.slotOf t i = s.threads.slotOf t i) ∧
    (handleTlsGetValue e s).2.threads.tlsIndexCount = s.threads.tlsIndexCount ∧
    ∀ v, (handleTlsGetValue e s).1.1.value = some v →
      v = if s.threads.tlsIndexCount ≤ e.regs.rcx % 2 ^ 32 then 0
        else s.threads.slotOf s.threads.active.tid (e.regs.rcx % 2 ^ 32) := by
  rcases Nat.lt_or_ge (e.regs.rcx % 2 ^ 32) s.threads.tlsIndexCount with hi | hi
  · rw [handleTlsGetValue_of_lt hi, if_neg (not_le.mpr hi)]
    exact ⟨s.threads.slotOf_growActiveTls, rfl, fun _ hv => CpuEngine.value_eq hv⟩
  · rw [handleTlsGetValue_of_le hi, if_pos hi]
    exact ⟨fun _ _ => rfl, rfl, fun _ hv => CpuEngine.value_eq hv⟩

/-- **Setting a value** changes that one and answers one, or changes none and answers zero. -/
theorem handleTlsSetValue_spec (e : CpuEngine) (s : TlsState) :
    (handleTlsSetValue e s).2.threads.tlsIndexCount = s.threads.tlsIndexCount ∧
    ((e.regs.rcx % 2 ^ 32 < s.threads.tlsIndexCount ∧
        (∀ v, (handleTlsSetValue e s).1.1.value = some v → v = 1) ∧
        ∀ t i, (handleTlsSetValue e s).2.threads.slotOf t i =
          if t = s.threads.active.tid ∧ i = e.regs.rcx % 2 ^ 32 then e.regs.rdx
          else s.threads.slotOf t i) ∨
      ((∀ v, (handleTlsSetValue e s).1.1.value = some v → v = 0) ∧
        ∀ t i, (handleTlsSetValue e s).2.threads.slotOf t i = s.threads.slotOf t i)) := by
  rcases Nat.lt_or_ge (e.regs.rcx % 2 ^ 32) s.threads.tlsIndexCount with hi | hi
  · rw [handleTlsSetValue_of_lt hi]
    refine ⟨rfl, .inl ⟨hi, fun _ hv => CpuEngine.value_eq hv, fun t i => ?_⟩⟩
    rw [ThreadState.slotOf_setActiveTls (lt_of_lt_of_le hi s.threads.tlsIndexCount_le),
      ThreadState.slotOf_growActiveTls]
    rfl
  · rw [handleTlsSetValue_of_le hi]
    exact ⟨rfl, .inr ⟨fun _ hv => CpuEngine.value_eq hv, fun _ _ => rfl⟩⟩

/-- **An index is given out**: the number there were. -/
theorem handleTlsAlloc_spec (e : CpuEngine) (s : TlsState) :
    (∀ t i, (handleTlsAlloc e s).2.threads.slotOf t i = s.threads.slotOf t i) ∧
    (handleTlsAlloc e s).2.threads.tlsIndexCount = satAdd32 s.threads.tlsIndexCount 1 ∧
    ∀ v, (handleTlsAlloc e s).1.1.value = some v → v = s.threads.tlsIndexCount :=
  ⟨s.threads.bumpTlsCount.slotOf_growActiveTls, rfl, fun _ hv => CpuEngine.value_eq hv⟩

end handlers

/-! ### Runs -/

/-- **What holds between calls.** -/
structure TlsInv (s : TlsSystem) : Prop where
  /-- The threads. -/
  valid : s.state.threads.Valid
  /-- The active thread is filed. -/
  active : s.state.threads.active.tid ∈ s.state.threads.byTid
  /-- Ids go up. -/
  young : ∀ t ∈ s.state.threads.byTid, t < s.state.threads.nextTid
  /-- Threads have what they stored. -/
  slots : ∀ t ∉ s.stopped, ∀ i, s.state.threads.slotOf t i = lastSet t i s.history
  /-- Nothing is stored under an index that was not given out. -/
  unset : ∀ t i, s.state.threads.tlsIndexCount ≤ i → lastSet t i s.history = 0
  /-- Indices given out are below the count. -/
  handed : ∀ n ∈ indices s.history, n < s.state.threads.tlsIndexCount
  /-- The answers so far. -/
  isolated : Isolated s.history

section answers

variable {a : TlsAnswer} {hs : List TlsAnswer} {t i : ℕ}

theorem lastSet_of_not (h : ¬(a.tid = t ∧ a.call = .set ∧ a.index = i ∧ a.result = some 1)) :
    lastSet t i (a :: hs) = lastSet t i hs := if_neg h

theorem lastSet_of_call (h : a.call ≠ .set) : lastSet t i (a :: hs) = lastSet t i hs :=
  lastSet_of_not fun hc => h hc.2.1

theorem indices_of_call (h : a.call ≠ .alloc) : indices (a :: hs) = indices hs := by
  rw [indices, List.filterMap_cons, if_neg h]
  rfl

theorem mem_indices_cons {n : ℕ} (h : n ∈ indices (a :: hs)) :
    a.result = some n ∨ n ∈ indices hs := by
  obtain ⟨b, hb, hn⟩ := List.mem_filterMap.mp h
  by_cases hc : b.call = .alloc
  · rw [if_pos hc] at hn
    rcases List.mem_cons.mp hb with rfl | hb
    · exact .inl hn
    · exact .inr (List.mem_filterMap.mpr ⟨b, hb, by rwa [if_pos hc]⟩)
  · rw [if_neg hc] at hn
    cases hn

end answers

namespace TlsInv

variable {s : TlsSystem}

theorem boot : TlsInv tlsBoot where
  valid := ThreadState.valid_primary
  active := (AList.mem_insert ∅).mpr (.inl rfl)
  young t ht := by
    rcases (AList.mem_insert ∅).mp ht with rfl | ht
    · decide
    · cases ht
  slots t _ i := by
    by_cases ht : t = PRIMARY_THREAD_ID
    · subst ht
      exact ThreadState.slotOf_active (s := ThreadState.primary)
    · have hrec : ThreadState.primary.recordOf t = none :=
        (if_neg ht).trans (AList.lookup_insert_ne ht)
      show ThreadState.primary.slotOf t i = 0
      rw [ThreadState.slotOf, hrec]
      rfl
  unset _ _ _ := rfl
  handed _ h := by cases h
  isolated := trivial

/-- A thread that comes in. -/
theorem allocWorker (h : TlsInv s) (hroom : s.state.threads.nextTid < 2 ^ 32 - 1) :
    TlsInv (s.next .allocWorker) := by
  have hnew : s.state.threads.nextTid ∉ s.state.threads.byTid := fun hm =>
    lt_irrefl _ (h.young _ hm)
  have hnext : s.state.threads.allocWorker.2.nextTid = s.state.threads.nextTid + 1 := by
    show (if satAdd32 s.state.threads.nextTid 1 = 0 then FIRST_WORKER_TID
      else satAdd32 s.state.threads.nextTid 1) = _
    rw [satAdd32, if_neg (by omega)]
    omega
  exact
    { valid := h.valid.allocWorker
      active := (AList.mem_insert _).mpr (.inr h.active)
      young := fun t ht => by
        show t < s.state.threads.allocWorker.2.nextTid
        rw [hnext]
        rcases (AList.mem_insert _).mp ht with rfl | ht
        · exact Nat.lt_succ_self _
        · exact Nat.lt_succ_of_lt (h.young t ht)
      slots := fun t ht i => (ThreadState.slotOf_allocWorker hnew t i).trans (h.slots t ht i)
      unset := h.unset
      handed := h.handed
      isolated := h.isolated }

/-- A thread puts itself in the active slot. -/
theorem activated (h : TlsInv s) {tid : ℕ} (ht : tid ∈ s.state.threads.byTid) :
    TlsInv ⟨⟨s.state.threads.activate tid, s.state.lastError⟩, s.stopped, s.history⟩ := by
  obtain ⟨gt, hgt⟩ := Option.isSome_iff_exists.mp (AList.lookup_isSome.mpr ht)
  obtain ⟨-, hpos, hlt⟩ := h.valid.byTid hgt
  have htid : (s.state.threads.activate tid).active.tid = tid := h.valid.currentTid_activate tid
  exact
    { valid := h.valid.activate hpos hlt
      active := by
        show (s.state.threads.activate tid).active.tid ∈ _
        rw [htid]
        exact ThreadState.mem_activate ht tid
      young := fun t hm => by
        rcases ThreadState.byTid_activate hm with rfl | hm
        · exact h.young _ h.active
        · exact h.young t hm
      slots := fun t hs i =>
        (ThreadState.slotOf_activate h.valid tid t i).trans (h.slots t hs i)
      unset := h.unset
      handed := h.handed
      isolated := h.isolated }

section answer

variable {e : CpuEngine} {tid : ℕ} {r : Option ℕ}

/-- The call of the active thread, answered. -/
def answerOf (c : TlsCall) (e : CpuEngine) (s : TlsSystem) : TlsAnswer :=
  ⟨s.state.threads.active.tid, c, e.regs.rcx % 2 ^ 32, e.regs.rdx, (c.handle e s.state).1.1.value⟩

/-- The system once the call of the active thread is answered. -/
def answered (c : TlsCall) (e : CpuEngine) (s : TlsSystem) : TlsSystem :=
  ⟨(c.handle e s.state).2,
    if (c.handle e s.state).1.1.value.isSome then s.stopped
      else s.state.threads.active.tid :: s.stopped,
    answerOf c e s :: s.history⟩

theorem notMem_stopped {c : TlsCall} {t : ℕ} (ht : t ∉ (answered c e s).stopped) :
    t ∉ s.stopped ∧ (t = s.state.threads.active.tid →
      (c.handle e s.state).1.1.value.isSome = true) := by
  have ht' : t ∉ if (c.handle e s.state).1.1.value.isSome then s.stopped
      else s.state.threads.active.tid :: s.stopped := ht
  split_ifs at ht' with hr
  · exact ⟨ht', fun _ => hr⟩
  · exact ⟨fun hm => ht' (.tail _ hm), fun heq => absurd (heq ▸ .head _) ht'⟩

/-- What every call keeps. -/
theorem of_answer (h : TlsInv s) (c : TlsCall) (e : CpuEngine)
    (hslots : ∀ t ∉ (answered c e s).stopped, ∀ i,
      (c.handle e s.state).2.threads.slotOf t i = lastSet t i (answerOf c e s :: s.history))
    (hunset : ∀ t i, (c.handle e s.state).2.threads.tlsIndexCount ≤ i →
      lastSet t i (answerOf c e s :: s.history) = 0)
    (hhanded : ∀ n ∈ indices (answerOf c e s :: s.history),
      n < (c.handle e s.state).2.threads.tlsIndexCount)
    (hisolated : Isolated (answerOf c e s :: s.history)) : TlsInv (answered c e s) where
  valid := (c.kept e s.state).valid h.valid
  active := by
    show (c.handle e s.state).2.threads.active.tid ∈ _
    rw [(c.kept e s.state).active]
    exact (c.kept e s.state).byTid ▸ h.active
  young t hm := by
    show t < (c.handle e s.state).2.threads.nextTid
    rw [(c.kept e s.state).nextTid]
    exact h.young t ((c.kept e s.state).byTid ▸ hm)
  slots := hslots
  unset := hunset
  handed := hhanded
  isolated := hisolated

theorem get (h : TlsInv s) (ht : s.state.threads.active.tid ∉ s.stopped) (e : CpuEngine) :
    TlsInv (answered .get e s) := by
  obtain ⟨hslots, hcount, hval⟩ := handleTlsGetValue_spec e s.state
  have hset : TlsCall.get ≠ .set := by decide
  have halloc : TlsCall.get ≠ .alloc := by decide
  have hlast : ∀ t i, lastSet t i (answerOf .get e s :: s.history) = lastSet t i s.history :=
    fun _ _ => lastSet_of_call hset
  refine h.of_answer .get e (fun t hs i => ?_) (fun t i hi => ?_) (fun n hn => ?_)
    ⟨h.isolated, fun hc => absurd hc halloc, fun _ v hv => ?_⟩
  · rw [hlast]
    exact (hslots t i).trans (h.slots t (notMem_stopped hs).1 i)
  · rw [hlast]
    exact h.unset t i (hcount ▸ hi)
  · rw [indices_of_call halloc] at hn
    exact lt_of_lt_of_eq (h.handed n hn) hcount.symm
  · rw [hval v hv]
    split_ifs with hi
    · exact (h.unset _ _ hi).symm
    · exact h.slots _ ht _

theorem set (h : TlsInv s) (e : CpuEngine) : TlsInv (answered .set e s) := by
  obtain ⟨hcount, hcases⟩ := handleTlsSetValue_spec e s.state
  have halloc : TlsCall.set ≠ .alloc := by decide
  have hget : TlsCall.set ≠ .get := by decide
  refine h.of_answer .set e (fun t hs i => ?_) (fun t i hi => ?_) (fun n hn => ?_)
    ⟨h.isolated, fun hc => absurd hc halloc, fun hc => absurd hc hget⟩
  · obtain ⟨hs, hactive⟩ := notMem_stopped hs
    rcases hcases with ⟨-, hone, hslots⟩ | ⟨hzero, hslots⟩
    · refine (hslots t i).trans ?_
      by_cases hti : t = s.state.threads.active.tid ∧ i = e.regs.rcx % 2 ^ 32
      · obtain ⟨v, hv⟩ := Option.isSome_iff_exists.mp (hactive hti.1)
        have hv1 : (TlsCall.set.handle e s.state).1.1.value = some 1 := hone v hv ▸ hv
        rw [if_pos hti]
        exact (if_pos ⟨hti.1.symm, rfl, hti.2.symm, hv1⟩).symm
      · rw [if_neg hti, h.slots t hs i]
        exact (lastSet_of_not fun hc => hti ⟨hc.1.symm, hc.2.2.1.symm⟩).symm
    · refine (hslots t i).trans ((h.slots t hs i).trans (lastSet_of_not fun hc => ?_).symm)
      cases hzero 1 hc.2.2.2
  · have hi' : s.state.threads.tlsIndexCount ≤ i := le_of_eq_of_le hcount.symm hi
    rw [lastSet_of_not fun hc => ?_]
    · exact h.unset t i hi'
    · rcases hcases with ⟨hlt, -⟩ | ⟨hzero, -⟩
      · have hidx : e.regs.rcx % 2 ^ 32 = i := hc.2.2.1
        omega
      · cases hzero 1 hc.2.2.2
  · rw [indices_of_call halloc] at hn
    exact lt_of_lt_of_eq (h.handed n hn) hcount.symm

theorem alloc (h : TlsInv s) (hroom : s.state.threads.tlsIndexCount < 2 ^ 32 - 1) (e : CpuEngine) :
    TlsInv (answered .alloc e s) := by
  obtain ⟨hslots, hcount, hval⟩ := handleTlsAlloc_spec e s.state
  have hset : TlsCall.alloc ≠ .set := by decide
  have hget : TlsCall.alloc ≠ .get := by decide
  have hcount' : (handleTlsAlloc e s.state).2.threads.tlsIndexCount =
      s.state.threads.tlsIndexCount + 1 := by
    rw [hcount, satAdd32]
    omega
  have hlast : ∀ t i,
      lastSet t i (answerOf .alloc e s :: s.history) = lastSet t i s.history :=
    fun _ _ => lastSet_of_call hset
  refine h.of_answer .alloc e (fun t hs i => ?_) (fun t i hi => ?_) (fun n hn => ?_)
    ⟨h.isolated, fun _ n hn hm => ?_, fun hc => absurd hc hget⟩
  · rw [hlast]
    exact (hslots t i).trans (h.slots t (notMem_stopped hs).1 i)
  · have hi' : (handleTlsAlloc e s.state).2.threads.tlsIndexCount ≤ i := hi
    rw [hlast]
    exact h.unset t i (by omega)
  · show n < (handleTlsAlloc e s.state).2.threads.tlsIndexCount
    rw [hcount']
    rcases mem_indices_cons hn with hn | hn
    · have := hval n hn
      omega
    · exact Nat.lt_succ_of_lt (h.handed n hn)
  · have := h.handed n hm
    have := hval n hn
    omega

end answer

/-- **Every action keeps the invariant.** -/
theorem next (h : TlsInv s) {a : TlsAction} (hr : TlsRuns s a) (hroom : TlsRoom s a) :
    TlsInv (s.next a) := by
  match a with
  | .allocWorker => exact h.allocWorker hroom
  | .dispatch tid c e =>
    obtain ⟨hknown, hgoes⟩ := hr
    have htid : (s.state.threads.activate tid).active.tid = tid := h.valid.currentTid_activate tid
    have hin := h.activated hknown
    have hnext : s.next (.dispatch tid c e) = answered c e
        ⟨⟨s.state.threads.activate tid, s.state.lastError⟩, s.stopped, s.history⟩ := by
      simp only [answered, answerOf, htid]
      rfl
    rw [hnext]
    match c with
    | .alloc => exact hin.alloc (hroom rfl) e
    | .set => exact hin.set e
    | .get => exact hin.get (htid.symm ▸ hgoes) e

theorem of_reach (h : TlsReach TlsRoom s) : TlsInv s := by
  refine GuardedReach.invariant (I := TlsInv) ?_ ?_ h
  · rintro s rfl
    exact boot
  · rintro s a s' hi ⟨hr, hroom⟩ rfl
    exact hi.next hr hroom

end TlsInv

/-- **Thread-local values are isolated** while no counter is at its top: no index is given out
twice, and a thread that asks for a value is given what it stored last itself, or zero. -/
theorem tls_isolated {s : TlsSystem} (h : TlsReach TlsRoom s) : Isolated s.history :=
  (TlsInv.of_reach h).isolated

/-! ### Samples -/

/-- Memory that can be read everywhere. -/
def openMemory : Flat where
  byte _ := 0
  readable _ := true
  writable _ := true
  readable_of_writable _ h := h

/-- A call with two arguments. -/
def tlsEngine (index value : ℕ) : CpuEngine := ⟨⟨0, index, value, 0, 0, 0x1000, 0⟩, openMemory⟩

/-- Two threads, one index: the primary thread stores 7, the other one finds nothing, and the
primary thread finds its 7. -/
def tlsActions : List TlsAction :=
  [.dispatch PRIMARY_THREAD_ID .alloc (tlsEngine 0 0), .allocWorker,
    .dispatch PRIMARY_THREAD_ID .set (tlsEngine 0 7),
    .dispatch FIRST_WORKER_TID .get (tlsEngine 0 0),
    .dispatch PRIMARY_THREAD_ID .get (tlsEngine 0 0)]

instance (s : TlsSystem) : ∀ a, Decidable (TlsRuns s a ∧ TlsRoom s a)
  | .allocWorker => inferInstanceAs (Decidable (True ∧ _ < _))
  | .dispatch _ _ _ => inferInstanceAs (Decidable ((_ ∈ _ ∧ _ ∉ _) ∧ (_ = _ → _ < _)))

theorem tls_isolated_two : Isolated (tlsActions.foldl TlsSystem.next tlsBoot).history ∧
    (tlsActions.foldl TlsSystem.next tlsBoot).history.map TlsAnswer.result =
      [some 7, some 0, some 1, some 0] :=
  ⟨tls_isolated (.foldl (by decide +kernel) (.init rfl)), by decide +kernel⟩

theorem value_tlsEngine (index value v : ℕ) :
    ((tlsEngine index value).returnFromWin64Api v).1.value = some v := by
  obtain ⟨ret, hret⟩ := CpuEngine.returnFromWin64Api_of_canReturn
    (e := tlsEngine index value) (fun _ _ _ => rfl) v
  rw [hret]
  rfl

/-- A run without a guard in which nothing has gone wrong yet. -/
structure TlsRun (s : TlsSystem) : Prop where
  /-- The run. -/
  reach : TlsReach (fun _ _ => True) s
  /-- Threads that exist go on. -/
  stopped : s.stopped = []
  /-- The primary thread exists. -/
  primary : PRIMARY_THREAD_ID ∈ s.state.threads.byTid
  /-- The threads. -/
  valid : s.state.threads.Valid

namespace TlsRun

variable {s : TlsSystem}

theorem boot : TlsRun tlsBoot :=
  ⟨.init rfl, rfl, (AList.mem_insert ∅).mpr (.inl rfl), ThreadState.valid_primary⟩

theorem allocWorker (h : TlsRun s) : TlsRun (s.next .allocWorker) :=
  ⟨.step (o := .allocWorker) h.reach ⟨trivial, trivial⟩ rfl, h.stopped,
    (AList.mem_insert _).mpr (.inr h.primary), h.valid.allocWorker⟩

/-- A call that is answered. -/
theorem dispatch (h : TlsRun s) {tid : ℕ} (ht : tid ∈ s.state.threads.byTid) (c : TlsCall)
    (e : CpuEngine) {v : ℕ} (hv : (s.call tid c e).1.1.value = some v) :
    TlsRun (s.next (.dispatch tid c e)) := by
  have hk := c.kept e ⟨s.state.threads.activate tid, s.state.lastError⟩
  obtain ⟨gt, hgt⟩ := Option.isSome_iff_exists.mp (AList.lookup_isSome.mpr ht)
  obtain ⟨-, hpos, hlt⟩ := h.valid.byTid hgt
  have hgo : TlsRuns s (.dispatch tid c e) := ⟨ht, fun hm => by
    rw [h.stopped] at hm
    cases hm⟩
  refine ⟨.step h.reach ⟨hgo, trivial⟩ rfl, ?_, ?_, hk.valid (h.valid.activate hpos hlt)⟩
  · show (if (s.call tid c e).1.1.value.isSome then s.stopped else tid :: s.stopped) = []
    rw [hv]
    exact h.stopped
  · show PRIMARY_THREAD_ID ∈ (s.call tid c e).2.threads.byTid
    rw [TlsSystem.call, hk.byTid]
    exact ThreadState.mem_activate h.primary tid

/-- Calls are answered. -/
theorem exists_value (c : TlsCall) (index value : ℕ) (s : TlsState) :
    ∃ v, (c.handle (tlsEngine index value) s).1.1.value = some v := by
  match c with
  | .alloc => exact ⟨_, value_tlsEngine index value _⟩
  | .set =>
    rcases Nat.lt_or_ge ((tlsEngine index value).regs.rcx % 2 ^ 32) s.threads.tlsIndexCount
      with hi | hi
    · rw [TlsCall.handle, handleTlsSetValue_of_lt hi]
      exact ⟨_, value_tlsEngine index value _⟩
    · rw [TlsCall.handle, handleTlsSetValue_of_le hi]
      exact ⟨_, value_tlsEngine index value _⟩
  | .get =>
    rcases Nat.lt_or_ge ((tlsEngine index value).regs.rcx % 2 ^ 32) s.threads.tlsIndexCount
      with hi | hi
    · rw [TlsCall.handle, handleTlsGetValue_of_lt hi]
      exact ⟨_, value_tlsEngine index value _⟩
    · rw [TlsCall.handle, handleTlsGetValue_of_le hi]
      exact ⟨_, value_tlsEngine index value _⟩

/-- Threads stay filed. -/
theorem mem_next {t : ℕ} (h : t ∈ s.state.threads.byTid) (a : TlsAction) :
    t ∈ (s.next a).state.threads.byTid := by
  match a with
  | .allocWorker => exact (AList.mem_insert _).mpr (.inr h)
  | .dispatch tid c e =>
    show t ∈ (s.call tid c e).2.threads.byTid
    rw [TlsSystem.call, (c.kept e ⟨s.state.threads.activate tid, s.state.lastError⟩).byTid]
    exact ThreadState.mem_activate h tid

theorem nextTid_dispatch (s : TlsSystem) (tid : ℕ) (c : TlsCall) (e : CpuEngine) :
    (s.next (.dispatch tid c e)).state.threads.nextTid = s.state.threads.nextTid :=
  (c.kept e ⟨s.state.threads.activate tid, s.state.lastError⟩).nextTid

theorem active_dispatch (h : s.state.threads.Valid) {tid : ℕ} {c : TlsCall} {e : CpuEngine} :
    (s.next (.dispatch tid c e)).state.threads.active.tid = tid :=
  (c.kept e ⟨s.state.threads.activate tid, s.state.lastError⟩).active.trans
    (h.currentTid_activate tid)

/-- The primary thread allocates. -/
theorem alloc (h : TlsRun s) :
    TlsRun (s.next (.dispatch PRIMARY_THREAD_ID .alloc (tlsEngine 0 0))) ∧
    (s.next (.dispatch PRIMARY_THREAD_ID .alloc (tlsEngine 0 0))).state.threads.tlsIndexCount =
      satAdd32 s.state.threads.tlsIndexCount 1 ∧
    (s.next (.dispatch PRIMARY_THREAD_ID .alloc (tlsEngine 0 0))).history =
      ⟨PRIMARY_THREAD_ID, .alloc, 0, 0, some s.state.threads.tlsIndexCount⟩ :: s.history :=
  ⟨h.dispatch h.primary _ _ (value_tlsEngine 0 0 _), rfl,
    congrArg (fun r => (⟨PRIMARY_THREAD_ID, .alloc, 0, 0, r⟩ : TlsAnswer) :: s.history)
      (value_tlsEngine 0 0 _)⟩

/-- Indices run out. -/
theorem exists_indices (n : ℕ) (hn : n < 2 ^ 32) :
    ∃ s, TlsRun s ∧ s.state.threads.tlsIndexCount = n := by
  induction n with
  | zero => exact ⟨tlsBoot, boot, rfl⟩
  | succ n ih =>
    obtain ⟨s, hs, hc⟩ := ih (by omega)
    obtain ⟨hs', hc', -⟩ := hs.alloc
    refine ⟨_, hs', hc'.trans ?_⟩
    rw [hc, satAdd32]
    omega

/-- So do thread ids. -/
theorem exists_workers (n : ℕ) (hn : FIRST_WORKER_TID + n < 2 ^ 32) :
    ∃ s, TlsRun s ∧ s.state.threads.nextTid = FIRST_WORKER_TID + n ∧
      s.state.threads.tlsIndexCount = 0 := by
  induction n with
  | zero => exact ⟨tlsBoot, boot, rfl, rfl⟩
  | succ n ih =>
    obtain ⟨s, hs, hn', hc⟩ := ih (by omega)
    refine ⟨_, hs.allocWorker, ?_, hc⟩
    show (if satAdd32 s.state.threads.nextTid 1 = 0 then FIRST_WORKER_TID
      else satAdd32 s.state.threads.nextTid 1) = _
    rw [hn', satAdd32, if_neg (by omega)]
    omega

end TlsRun

/-- **At the top of the counters values are not isolated**: after `2 ^ 32 - 1` indices the same one
is given out again and again. -/
theorem not_tls_isolated : ¬∀ s, TlsReach (fun _ _ => True) s → Isolated s.history := by
  intro hall
  obtain ⟨s, hs, hc⟩ := TlsRun.exists_indices (2 ^ 32 - 1) (by decide)
  obtain ⟨h1, hc1, hh1⟩ := hs.alloc
  obtain ⟨h2, -, hh2⟩ := h1.alloc
  have hiso := hall _ h2.reach
  rw [hh2, hc1, hh1, hc] at hiso
  exact hiso.2.1 rfl _ rfl (List.mem_cons_self)

/-- **Nor after `2 ^ 32` threads**: the last id is given out again, and the second thread of that id
takes away what the first one stored. -/
theorem TlsRun.exists_shared_id : ∃ s, TlsRun s ∧ ¬Isolated s.history := by
  obtain ⟨s, hs, hn, hc⟩ := exists_workers (2 ^ 32 - 1 - FIRST_WORKER_TID) (by decide)
  have hlast : s.state.threads.nextTid = 2 ^ 32 - 1 := hn
  have h1 := hs.allocWorker
  have hn1 : (s.next .allocWorker).state.threads.nextTid = 2 ^ 32 - 1 := by
    show (if satAdd32 s.state.threads.nextTid 1 = 0 then FIRST_WORKER_TID
      else satAdd32 s.state.threads.nextTid 1) = _
    rw [hlast]
    decide
  have hk1 : 2 ^ 32 - 1 ∈ (s.next .allocWorker).state.threads.byTid :=
    (AList.mem_insert _).mpr (.inl hlast.symm)
  obtain ⟨h2, hc2, -⟩ := h1.alloc
  -- the first thread with the last id stores 7
  set s2 := (s.next .allocWorker).next (.dispatch PRIMARY_THREAD_ID .alloc (tlsEngine 0 0))
  have hcount : s2.state.threads.tlsIndexCount = 1 := by
    rw [hc2, show (s.next .allocWorker).state.threads.tlsIndexCount = 0 from hc]
    decide
  have hset : (s2.call (2 ^ 32 - 1) .set (tlsEngine 0 7)).1.1.value = some 1 := by
    have hlt : (tlsEngine 0 7).regs.rcx % 2 ^ 32 <
        (s2.state.threads.activate (2 ^ 32 - 1)).tlsIndexCount := by
      show 0 < s2.state.threads.tlsIndexCount
      omega
    rw [TlsSystem.call, TlsCall.handle,
      handleTlsSetValue_of_lt (s := ⟨s2.state.threads.activate (2 ^ 32 - 1), s2.state.lastError⟩)
        hlt]
    exact value_tlsEngine 0 7 1
  have h3 := h2.dispatch (mem_next hk1 _) .set _ hset
  set s3 := s2.next (.dispatch (2 ^ 32 - 1) .set (tlsEngine 0 7))
  have hh3 : s3.history = ⟨2 ^ 32 - 1, .set, 0, 7, some 1⟩ :: s2.history :=
    congrArg (fun r => (⟨2 ^ 32 - 1, .set, 0, 7, r⟩ : TlsAnswer) :: s2.history) hset
  -- another thread runs, and a second one gets the id
  obtain ⟨v, hv⟩ := exists_value .get 0 0 ⟨s3.state.threads.activate PRIMARY_THREAD_ID,
    s3.state.lastError⟩
  have h4 := h3.dispatch h3.primary .get (tlsEngine 0 0) hv
  set s4 := s3.next (.dispatch PRIMARY_THREAD_ID .get (tlsEngine 0 0))
  have hn4 : s4.state.threads.nextTid = 2 ^ 32 - 1 :=
    (nextTid_dispatch ..).trans ((nextTid_dispatch ..).trans ((nextTid_dispatch ..).trans hn1))
  have hne : 2 ^ 32 - 1 ≠ s4.state.threads.active.tid := by
    rw [active_dispatch h3.valid]
    decide
  have hslot : (s4.next .allocWorker).state.threads.slotOf (2 ^ 32 - 1) 0 = 0 := by
    rw [ThreadState.slotOf,
      ThreadState.recordOf_of_ne (s := (s4.next .allocWorker).state.threads) hne]
    show (((s4.state.threads.byTid.insert s4.state.threads.nextTid _).lookup _).map _).getD 0 = 0
    rw [hn4, AList.lookup_insert]
    exact getD_growTls [] _ 0
  -- and the first one asks
  set s5 := s4.next .allocWorker
  obtain ⟨w, hw⟩ := exists_value .get 0 0 ⟨s5.state.threads.activate (2 ^ 32 - 1),
    s5.state.lastError⟩
  have hw0 : w = 0 := by
    rw [(handleTlsGetValue_spec _ _).2.2 w hw]
    split_ifs with hi
    · rfl
    · show (s5.state.threads.activate _).slotOf (s5.state.threads.activate _).currentTid 0 = 0
      rw [h4.allocWorker.valid.currentTid_activate,
        ThreadState.slotOf_activate h4.allocWorker.valid, hslot]
  have hk5 : 2 ^ 32 - 1 ∈ s5.state.threads.byTid := (AList.mem_insert _).mpr (.inl hn4.symm)
  refine ⟨_, h4.allocWorker.dispatch hk5 .get (tlsEngine 0 0) hw, fun hiso => ?_⟩
  have hgot : w = lastSet (2 ^ 32 - 1) 0 s4.history := hiso.2.2 rfl w hw
  have hget : TlsCall.get ≠ .set := by decide
  have hh4 : lastSet (2 ^ 32 - 1) 0 s4.history = lastSet (2 ^ 32 - 1) 0 s3.history :=
    lastSet_of_call hget
  have hlast7 : lastSet (2 ^ 32 - 1) 0 s3.history = 7 := by
    rw [hh3]
    exact if_pos ⟨rfl, rfl, rfl, rfl⟩
  omega

end Wie
