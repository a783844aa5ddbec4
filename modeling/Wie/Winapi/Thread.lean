import Mathlib.Data.List.AList
import Wie.Lib.Word

/-!
# Guest threads

All handlers share one slot for the active thread. Before it calls a handler, a thread puts itself
there.

## Main definitions

* `GuestThread`, `ThreadState`
* `ThreadState.activate`, `ThreadState.allocWorker`

## Main results

* `ThreadState.Valid.currentTid_activate` — a thread that put itself there is the active one
-/

namespace Wie

/-- Documented primary (bootstrap) guest thread id. -/
def PRIMARY_THREAD_ID : ℕ := 0x5678

/-- First guest id allocated for workers. -/
def FIRST_WORKER_TID : ℕ := 0x5679

/-- State private to a guest thread. -/
structure GuestThread where
  /-- The id. -/
  tid : ℕ
  /-- Values of the process-wide TLS indices. -/
  tlsValues : List ℕ
deriving DecidableEq

/-- `Vec::resize` with zeros, when the vector is shorter. -/
def growTls (values : List ℕ) (need : ℕ) : List ℕ :=
  values ++ List.replicate (need - values.length) 0

/-- The threads of the process. -/
structure ThreadState where
  /-- Number of TLS indices. -/
  tlsIndexCount : ℕ
  /-- The thread whose call is being handled. -/
  active : GuestThread
  /-- All threads. -/
  byTid : AList fun _ : ℕ => GuestThread
  /-- The next id. -/
  nextTid : ℕ

namespace ThreadState

/-- The primary thread alone. -/
def primary : ThreadState where
  tlsIndexCount := 0
  active := ⟨PRIMARY_THREAD_ID, []⟩
  byTid := AList.insert PRIMARY_THREAD_ID ⟨PRIMARY_THREAD_ID, []⟩ ∅
  nextTid := FIRST_WORKER_TID

/-- `current_tid`. -/
def currentTid (s : ThreadState) : ℕ := s.active.tid

/-- `alloc_worker`. -/
def allocWorker (s : ThreadState) : ℕ × ThreadState :=
  let tid := s.nextTid
  let next := satAdd32 s.nextTid 1
  (tid,
    { s with
      nextTid := if next = 0 then FIRST_WORKER_TID else next
      byTid := s.byTid.insert tid ⟨tid, growTls [] s.tlsIndexCount⟩ })

/-- `save_active`. -/
def saveActive (s : ThreadState) : ThreadState :=
  { s with byTid := s.byTid.insert s.active.tid s.active }

/-- `grow_active_tls_to_process_count`. -/
def growActiveTls (s : ThreadState) : ThreadState :=
  { s with active := { s.active with tlsValues := growTls s.active.tlsValues s.tlsIndexCount } }

/-- `activate`. -/
def activate (s : ThreadState) (tid : ℕ) : ThreadState :=
  let s := s.saveActive
  let active := match s.byTid.lookup tid with
    | some gt => gt
    | none => ⟨tid, List.replicate s.tlsIndexCount 0⟩
  growActiveTls { s with active := active }

/-- Thread ids are 32-bit numbers, never zero, and threads are filed under their ids. -/
structure Valid (s : ThreadState) : Prop where
  /-- The table. -/
  byTid : ∀ {t gt}, s.byTid.lookup t = some gt → gt.tid = t ∧ 0 < t ∧ t < 2 ^ 32
  /-- The active thread is in it. -/
  active : 0 < s.active.tid ∧ s.active.tid < 2 ^ 32
  /-- The next id. -/
  next : 0 < s.nextTid ∧ s.nextTid < 2 ^ 32

variable {s : ThreadState}

/-- Filing a thread under its id keeps the table in order. -/
theorem filed_insert {table : AList fun _ : ℕ => GuestThread} (gt : GuestThread) (h1 : 0 < gt.tid)
    (h2 : gt.tid < 2 ^ 32)
    (h : ∀ {t g}, table.lookup t = some g → g.tid = t ∧ 0 < t ∧ t < 2 ^ 32) {t : ℕ}
    {g : GuestThread} (ht : (table.insert gt.tid gt).lookup t = some g) :
    g.tid = t ∧ 0 < t ∧ t < 2 ^ 32 := by
  by_cases he : t = gt.tid
  · subst he
    rw [AList.lookup_insert] at ht
    obtain rfl := Option.some.inj ht
    exact ⟨rfl, h1, h2⟩
  · rw [AList.lookup_insert_ne he] at ht
    exact h ht

theorem valid_primary : primary.Valid where
  byTid {t gt} h := by
    have hempty : ∀ {t g}, (∅ : AList fun _ : ℕ => GuestThread).lookup t = some g →
        g.tid = t ∧ 0 < t ∧ t < 2 ^ 32 := fun h => by cases h
    exact filed_insert ⟨PRIMARY_THREAD_ID, []⟩ (by decide) (by decide) hempty h
  active := by decide
  next := by decide

theorem Valid.allocWorker (h : s.Valid) : s.allocWorker.2.Valid where
  byTid := filed_insert ⟨s.nextTid, growTls [] s.tlsIndexCount⟩ h.next.1 h.next.2 h.byTid
  active := h.active
  next := by
    have hn := h.next
    show 0 < (if satAdd32 s.nextTid 1 = 0 then FIRST_WORKER_TID else satAdd32 s.nextTid 1) ∧
      (if satAdd32 s.nextTid 1 = 0 then FIRST_WORKER_TID else satAdd32 s.nextTid 1) < 2 ^ 32
    rw [satAdd32, FIRST_WORKER_TID, if_neg (by omega)]
    omega

theorem Valid.saveActive (h : s.Valid) : s.saveActive.Valid where
  byTid := filed_insert _ h.active.1 h.active.2 h.byTid
  active := h.active
  next := h.next

/-- **A thread that put itself there is the active one.** -/
theorem Valid.currentTid_activate (h : s.Valid) (tid : ℕ) : (s.activate tid).currentTid = tid := by
  show (match s.saveActive.byTid.lookup tid with
    | some gt => gt
    | none => ⟨tid, List.replicate s.saveActive.tlsIndexCount 0⟩ : GuestThread).tid = tid
  cases ht : s.saveActive.byTid.lookup tid with
  | none => rfl
  | some gt => exact (h.saveActive.byTid ht).1

theorem Valid.activate (h : s.Valid) {tid : ℕ} (h1 : 0 < tid) (h2 : tid < 2 ^ 32) :
    (s.activate tid).Valid where
  byTid ht := h.saveActive.byTid ht
  active := by
    have := h.currentTid_activate tid
    rw [currentTid] at this
    rw [this]
    exact ⟨h1, h2⟩
  next := h.next

/-- Threads stay in the table. -/
theorem mem_activate {t : ℕ} (h : t ∈ s.byTid) (tid : ℕ) : t ∈ (s.activate tid).byTid :=
  (AList.mem_insert s.byTid).mpr (.inr h)

end ThreadState

end Wie
